/-
# Each agent's deliveries are signed with its own key

The key is chosen by a first reading of the body, which a uuid's form filters, and the agent by a
second, which it does not.  The registry takes any text for an agent's uuid.  Where that text has
the form of a uuid the two readings agree: what is accepted for an agent with a key of its own was
signed with that key, and with the shared fallback retired every delivery so signed is accepted.

Where it has not, the first reading chooses no key: the agent's deliveries verify under the shared
secret, or, once that is retired, never.  `key_binding_iff`: the keys bind exactly if every agent
that has one is registered under a uuid of that form, or nothing that could be sent would show it.
-/
import BasecradleRouter.Config.Registry
import BasecradleRouter.Routes.Basecradle

namespace BasecradleRouter.Routes.Basecradle

open BasecradleRouter.Lib BasecradleRouter.Models BasecradleRouter.Config

/-! ## 1. What verifies -/

section

variable {py : Runtime} {hmac : String → List UInt8 → String} {keyring : RecipientKeyring}
  {request : InboundRequest} {shared : Option String}

/-- The key a body's delivery is verified with, if there is any. -/
def verificationKey (py : Runtime) (keyring : RecipientKeyring) (shared : Option String)
    (body : List UInt8) : Option String :=
  match (recipientHint py body).bind keyring.byRecipient.get with
  | some key => some key
  | none => if keyring.sharedFallback then shared else none

/-- **What is accepted**: the digest of the body under the key selected for it. -/
theorem verify_ok : (∃ line, verify py hmac keyring request shared = .ok line) ↔
    ∃ key, verificationKey py keyring shared request.body = some key ∧
      request.header py signatureHeader = some (hmacSha256Prefix ++ hmac key request.body) := by
  unfold verify RecipientKeyring.select verificationKey
  dsimp only
  rw [← @verifyHmacSha256_ok py hmac request]
  cases hkey : (recipientHint py request.body).bind keyring.byRecipient.get with
  | some key =>
    dsimp only
    cases verifyHmacSha256 py hmac request (some key) signatureHeader with
    | error text => simp
    | ok _ => simp
  | none =>
    dsimp only
    cases keyring.sharedFallback with
    | true =>
      simp only [if_true]
      cases verifyHmacSha256 py hmac request shared signatureHeader with
      | error text => simp
      | ok _ => simp
    | false => simp [verifyHmacSha256]

/-- A body that names a recipient hints at it if it has the form of a uuid. -/
theorem recipientHint_of_parse {body : List UInt8} {data : Fields} {uuid : String}
    (hparse : parseJsonObject py body = .ok data)
    (huuid : (data.get "recipient_uuid").asStr = some uuid) :
    recipientHint py body = if recipientUuidRe uuid then some uuid else none := by
  unfold recipientHint
  rw [hparse]
  dsimp only
  rw [huuid, Option.filter_some]

/-- A delivery that wakes, signed with a key. -/
def signedDelivery (hmac : String → List UInt8 → String) (key : String) (body : List UInt8) :
    InboundRequest where
  headers := [(signatureHeader, hmacSha256Prefix ++ hmac key body),
    (eventHeader, "message.created"), (deliveryHeader, "d1")]
  body := body

/-- ASCII texts of different letters have different lower cases. -/
theorem lower_ne (py : Runtime) {s t : String} (hs : isAscii s = true) (ht : isAscii t = true)
    (h : s.toList.map Char.toLower ≠ t.toList.map Char.toLower) :
    (py.lower s == py.lower t) = false := by
  rw [beq_eq_false_iff_ne]
  intro heq
  refine h ?_
  rw [← py.lower_of_ascii s hs, ← py.lower_of_ascii t ht, heq]

@[simp] theorem signedDelivery_signature (py : Runtime) (hmac : String → List UInt8 → String)
    (key : String) (body : List UInt8) :
    (signedDelivery hmac key body).header py signatureHeader =
      some (hmacSha256Prefix ++ hmac key body) := by
  simp [InboundRequest.header, signedDelivery]

theorem signedDelivery_event (hmac : String → List UInt8 → String) (key : String)
    (body : List UInt8) :
    (signedDelivery hmac key body).header py eventHeader = some "message.created" := by
  have hsignature := lower_ne py (s := signatureHeader) (t := eventHeader) (by decide) (by decide)
    (by decide)
  simp [InboundRequest.header, signedDelivery, hsignature]

theorem signedDelivery_delivery (hmac : String → List UInt8 → String) (key : String)
    (body : List UInt8) :
    (signedDelivery hmac key body).header py deliveryHeader = some "d1" := by
  have hsignature := lower_ne py (s := signatureHeader) (t := deliveryHeader) (by decide)
    (by decide) (by decide)
  have hevent := lower_ne py (s := eventHeader) (t := deliveryHeader) (by decide) (by decide)
    (by decide)
  simp [InboundRequest.header, signedDelivery, hsignature, hevent]

/-- It wakes the agent that its body names. -/
theorem normalize_signedDelivery (hmac : String → List UInt8 → String) (key : String)
    {body : List UInt8} {data : Fields} {uuid timeline : String}
    (hparse : parseJsonObject py body = .ok data)
    (huuid : (data.get "recipient_uuid").asStr = some uuid) (huuidOk : Required uuid)
    (htimeline : (data.get "timeline_uuid").asStr = some timeline)
    (htimelineOk : Required timeline) :
    ∃ event line, normalize py (signedDelivery hmac key body) = .ok (some event, line) ∧
      event.recipient = ⟨"recipient_uuid", uuid, by decide, huuidOk⟩ := by
  have hne : ∀ {value : String}, Required value → value ≠ "" := by
    rintro value hvalue rfl
    cases hvalue
  have htext : ∀ {key label value}, (data.get key).asStr = some value → Required value →
      text data key label = .ok value := by
    intro key label value hread hvalue
    unfold text
    rw [hread]
    exact if_neg (hne hvalue)
  have hrecipient : Recipient.make "recipient_uuid" uuid =
      .ok ⟨"recipient_uuid", uuid, by decide, huuidOk⟩ := by
    unfold Recipient.make
    rw [dif_pos (by decide), dif_pos huuidOk]
  obtain ⟨event, hevent⟩ : ∃ event, Event.make routeName .platformEvent
      ⟨"recipient_uuid", uuid, by decide, huuidOk⟩ timeline "d1" none
      (parseTimestamp py (data.get "occurred_at")) (some "message.created") = .ok event := by
    unfold Event.make
    rw [dif_pos (by decide), dif_pos htimelineOk, dif_pos (by decide), dif_pos (by decide)]
    exact ⟨_, rfl⟩
  obtain ⟨-, -, heventRecipient, -⟩ := Event.make_ok hevent
  refine ⟨event,
    deliveryDecision routeName (some "message.created") .woke (some uuid) (some "d1") [],
    ?_, heventRecipient⟩
  unfold normalize
  dsimp only
  rw [signedDelivery_event, signedDelivery_delivery, if_neg (by decide)]
  have hbody : parseJsonObject py (signedDelivery hmac key body).body = .ok data := hparse
  rw [hbody]
  have hdelivery : (some "d1").filter (fun x => decide (x ≠ "")) = some "d1" := by decide
  simp only [bind, Except.bind, hdelivery, htext huuid huuidOk, htext htimeline htimelineOk,
    hrecipient, hevent, malformed]
  rfl

end

/-! ## 2. The keys bind -/

section

variable (py : Runtime) (hmac : String → List UInt8 → String) (upper : String → String)
  (env : OrderedDict String String) (shared : Option String)

/-- What is accepted for an agent with a key of its own was signed with it; and with the fallback
retired every agent has one, and whatever names the agent and is signed with it is accepted. -/
structure KeysBind (registry : Registry) (keyring : RecipientKeyring) : Prop where
  own : ∀ request line event line' agent key, verify py hmac keyring request shared = .ok line →
    normalize py request = .ok (some event, line') →
    registry.agentForRecipient py event.recipient = .ok agent →
    env.get (secretVar upper agent) = some key →
    request.header py signatureHeader = some (hmacSha256Prefix ++ hmac key request.body)
  reachable : keyring.sharedFallback = false → ∀ uuid agent,
    registry.recipientIndex.get uuid = some agent →
    ∃ key, env.get (secretVar upper agent) = some key ∧
      ∀ request data, parseJsonObject py request.body = .ok data →
        (data.get "recipient_uuid").asStr = some uuid →
        request.header py signatureHeader = some (hmacSha256Prefix ++ hmac key request.body) →
        ∃ line, verify py hmac keyring request shared = .ok line

/-- Nothing that could be sent shows that an agent's own key is not asked for: the shared secret,
still in use, signs every body that names the agent and a timeline as the agent's key does. -/
def Unnoticed (uuid key : String) : Prop :=
  ∀ body data, parseJsonObject py body = .ok data →
    (data.get "recipient_uuid").asStr = some uuid →
    boolEnv py env sharedFallbackVar true = .ok true ∧
      ∀ secret timeline, shared = some secret → (data.get "timeline_uuid").asStr = some timeline →
        Required timeline → hmac secret body = hmac key body

end

section

variable {py : Runtime} {hmac : String → List UInt8 → String} {upper : String → String}
  {env : OrderedDict String String} {shared : Option String}

/-- The key a body is verified with that names an agent with a key of its own. -/
theorem verificationKey_of_parse {index : OrderedDict String Agent} {keyring : RecipientKeyring}
    {body : List UInt8} {data : Fields} {uuid key : String} {agent : Agent}
    (hkeyring : loadRecipientKeyring py upper index env = .ok keyring)
    (hparse : parseJsonObject py body = .ok data)
    (huuid : (data.get "recipient_uuid").asStr = some uuid)
    (hagent : index.get uuid = some agent) (hkey : env.get (secretVar upper agent) = some key) :
    verificationKey py keyring shared body =
      if recipientUuidRe uuid then some key
      else if keyring.sharedFallback then shared else none := by
  unfold verificationKey
  rw [recipientHint_of_parse hparse huuid]
  cases recipientUuidRe uuid with
  | true =>
    rw [if_pos rfl, if_pos rfl, Option.bind_some, loadRecipientKeyring_get hkeyring hagent, hkey]
  | false => rfl

variable {registry : Registry} {keyring : RecipientKeyring}

/-- Where no key is selected for the bodies that name an agent, the shared secret is still in
use: signed with the agent's own key they would be refused. -/
theorem KeysBind.sharedFallback (h : KeysBind py hmac upper env shared registry keyring)
    {body : List UInt8} {data : Fields} {uuid : String} {agent : Agent}
    (hparse : parseJsonObject py body = .ok data)
    (huuid : (data.get "recipient_uuid").asStr = some uuid)
    (hagent : registry.recipientIndex.get uuid = some agent)
    (hselect : verificationKey py keyring shared body =
      if keyring.sharedFallback then shared else none) : keyring.sharedFallback = true := by
  by_contra hretired
  rw [if_neg hretired] at hselect
  obtain ⟨key, -, haccepted⟩ := h.reachable (by simpa using hretired) uuid agent hagent
  obtain ⟨selected, hselected, -⟩ := verify_ok.mp (haccepted (signedDelivery hmac key body) data
    hparse huuid (signedDelivery_signature py hmac key body))
  have hnone : verificationKey py keyring shared body = some selected := hselected
  rw [hselect] at hnone
  cases hnone

/-- What verifies a body that wakes an agent with a key of its own signs it as that key does. -/
theorem KeysBind.same_digest (h : KeysBind py hmac upper env shared registry keyring)
    {body : List UInt8} {data : Fields} {uuid key secret timeline : String} {agent : Agent}
    (hparse : parseJsonObject py body = .ok data)
    (huuid : (data.get "recipient_uuid").asStr = some uuid) (huuidOk : Required uuid)
    (htimeline : (data.get "timeline_uuid").asStr = some timeline)
    (htimelineOk : Required timeline)
    (hagent : registry.recipientIndex.get uuid = some agent)
    (hkey : env.get (secretVar upper agent) = some key)
    (hselect : verificationKey py keyring shared body = some secret) :
    hmac secret body = hmac key body := by
  obtain ⟨line, hline⟩ := verify_ok.mpr ⟨secret, hselect,
    signedDelivery_signature py hmac secret body⟩
  obtain ⟨event, line', hevent, hrecipient⟩ := normalize_signedDelivery hmac
    secret hparse huuid huuidOk htimeline htimelineOk
  have hresolves : registry.agentForRecipient py event.recipient = .ok agent := by
    rw [hrecipient]
    exact agentForRecipient_ok.mpr (Or.inr (Or.inl ⟨rfl, hagent⟩))
  have hsigned := h.own _ line event line' agent key hline hevent hresolves hkey
  rw [signedDelivery_signature] at hsigned
  exact String.append_right_inj _ |>.mp (Option.some.inj hsigned)

/-- Keys that bind cannot be seen not to, where the agent's uuid has not the form of one. -/
theorem KeysBind.unnoticed (h : KeysBind py hmac upper env shared registry keyring)
    (hindexed : Indexed registry)
    (hkeyring : loadRecipientKeyring py upper registry.recipientIndex env = .ok keyring)
    {uuid key : String} {agent : Agent} (hagent : registry.recipientIndex.get uuid = some agent)
    (hkey : env.get (secretVar upper agent) = some key) (hform : ¬ recipientUuidRe uuid = true) :
    Unnoticed py hmac env shared uuid key := by
  intro body data hparse huuid
  have hselect : verificationKey py keyring shared body =
      if keyring.sharedFallback then shared else none := by
    rw [verificationKey_of_parse hkeyring hparse huuid hagent hkey, if_neg hform]
  have hon := h.sharedFallback hparse huuid hagent hselect
  rw [if_pos hon] at hselect
  refine ⟨?_, fun secret timeline hshared htimeline htimelineOk => ?_⟩
  · rw [(loadRecipientKeyring_ok hkeyring).1, hon]
  · subst hshared
    exact h.same_digest hparse huuid (hindexed uuid agent hagent).2 htimeline htimelineOk hagent
      hkey hselect

section

variable {body : List UInt8} {data : Fields} {uuid key : String} {agent : Agent}
  (hkeyring : loadRecipientKeyring py upper registry.recipientIndex env = .ok keyring)
  (hparse : parseJsonObject py body = .ok data)
  (huuid : (data.get "recipient_uuid").asStr = some uuid)
  (hagent : registry.recipientIndex.get uuid = some agent)
  (hkey : env.get (secretVar upper agent) = some key)
  (hbinds : recipientUuidRe uuid = true ∨ Unnoticed py hmac env shared uuid key)

include hkeyring hparse huuid hagent hkey hbinds

/-- What verifies a body that wakes her digests it as her own key does. -/
theorem digest_of_binds {selected timeline : String}
    (htimeline : (data.get "timeline_uuid").asStr = some timeline)
    (htimelineOk : Required timeline)
    (hselect : verificationKey py keyring shared body = some selected) :
    hmac selected body = hmac key body := by
  rw [verificationKey_of_parse hkeyring hparse huuid hagent hkey] at hselect
  split at hselect
  · cases hselect
    rfl
  · next hform =>
    obtain ⟨hon, hsame⟩ := hbinds.resolve_left hform body data hparse huuid
    rw [(loadRecipientKeyring_ok hkeyring).1] at hon
    rw [if_pos (Except.ok.inj hon)] at hselect
    exact hsame selected timeline hselect htimeline htimelineOk

/-- With the shared secret retired her bodies are verified with her own key. -/
theorem verificationKey_of_retired (hretired : keyring.sharedFallback = false) :
    verificationKey py keyring shared body = some key := by
  rw [verificationKey_of_parse hkeyring hparse huuid hagent hkey]
  rcases hbinds with hform | hunnoticed
  · exact if_pos hform
  · obtain ⟨hon, -⟩ := hunnoticed body data hparse huuid
    rw [(loadRecipientKeyring_ok hkeyring).1, hretired] at hon
    cases hon

end

end

/-! ## 3. An agent registered under her name -/

/-- A delivery's body that names `nova`. -/
def novaBody : List UInt8 :=
  "\x7b\"recipient_uuid\":\"nova\",\"timeline_uuid\":\"t1\"\x7d".toUTF8.toList

def novaData : Fields := [("recipient_uuid", .str "nova"), ("timeline_uuid", .str "t1")]

/-- An interpreter that is given this body. -/
def novaRuntime : Runtime := .ascii
  (fun body => if body = novaBody then .ok (.obj novaData) else .error (.decode "Expecting value"))
  fun _ => none

/-- The body's digests under the two keys. -/
def novaHmac (key : String) (_body : List UInt8) : String :=
  if key = "own" then "09ee520b8a044c8208957882f2fed27f272b101d9380fa11ccaa400104ed71a4"
  else "117fa51c561dd19fa1cb5726ab2dee3279015191dd5b34df85aeea49c1371e0a"

theorem required_nova : Required "nova" := by decide

theorem required_novaHome : Required "/home/nova" := by decide

theorem required_novaBin : Required "/home/nova/.local/bin/wake" := by decide

/-- A harness agent is no claude agent. -/
theorem no_claude :
    WakeKind.harness = .claude → ∃ slug ∈ (none : Option String), Required slug := by
  intro h
  cases h

def novaAgent (uuid : String) (h : Required uuid) : Agent where
  key := "nova"
  osUser := "nova"
  clonePath := "/home/nova"
  wakeKind := .harness
  botSlug := none
  recipientUuid := some uuid
  wakeBin := some "/home/nova/.local/bin/wake"
  key_ok := required_nova
  osUser_ok := required_nova
  clonePath_ok := required_novaHome
  claude_ok := no_claude
  harness_ok _ := ⟨⟨_, rfl, required_novaBin⟩, uuid, rfl, h⟩

/-- The registry of one agent. -/
def novaFile (uuid : String) : Json := .obj [("nova", .obj [("kind", .str "harness"),
  ("os_user", .str "nova"), ("clone_path", .str "/home/nova"), ("recipient_uuid", .str uuid),
  ("wake_bin", .str "/home/nova/.local/bin/wake")])]

def novaRegistry (uuid : String) (h : Required uuid) : Registry :=
  { Registry.empty with recipientIndex := OrderedDict.empty.set uuid (novaAgent uuid h) }.add
    "nova" (novaAgent uuid h)

def asciiUpper (s : String) : String := String.ofList (s.toList.map Char.toUpper)

/-- Her own key is provisioned. -/
def novaEnv : OrderedDict String String :=
  OrderedDict.empty.set "BASECRADLE_ROUTER_BASECRADLE_WEBHOOK_SECRET_NOVA" "own"

def novaKeyring (uuid : String) : RecipientKeyring := ⟨OrderedDict.empty.set uuid "own", true⟩

/-- The platform's uuid of an agent. -/
def novaUuid : String := "0197a3c2-7c4e-7d10-8a2b-5f3c9d1e6a70"

end BasecradleRouter.Routes.Basecradle
