/-
# The basecradle route

`verify` reads one field of a body that nobody has vouched for, the recipient's uuid, to choose the
key to check the signature with; a value without the form of a uuid chooses none.  `normalize` reads
the field again, of a body that is verified now, and takes any text.
-/
import BasecradleRouter.Lib.Checked
import BasecradleRouter.Routes.Base
import BasecradleRouter.Routes.Keyring

namespace BasecradleRouter.Routes.Basecradle

open BasecradleRouter.Lib BasecradleRouter.Logfmt BasecradleRouter.Models

def signatureHeader : String := "X-BaseCradle-Signature"

def eventHeader : String := "X-BaseCradle-Event"

def deliveryHeader : String := "X-BaseCradle-Delivery"

/-- `ROUTE_NAME` -/
def routeName : String := "basecradle"

/-- `_ACTIONABLE_EVENTS` -/
def actionableEvents : List String :=
  ["message.created", "asset.created", "task.activated", "webhook_event.received"]

/-- `[0-9a-fA-F]` -/
def hexDigit (c : Char) : Bool :=
  c.isDigit || (decide ('a' ≤ c) && decide (c ≤ 'f')) || (decide ('A' ≤ c) && decide (c ≤ 'F'))

/-- `_RECIPIENT_UUID_RE`: groups of 8, 4, 4, 4 and 12 hexadecimal digits, a dash between them. -/
def recipientUuidRe (value : String) : Bool :=
  let groups := value.toList.splitOn '-'
  groups.map List.length == [8, 4, 4, 4, 12] && groups.all (·.all hexDigit)

/-- `_recipient_hint` -/
def recipientHint (py : Runtime) (body : List UInt8) : Option String :=
  match parseJsonObject py body with
  | .error _ => none
  | .ok data => (data.get "recipient_uuid").asStr.filter recipientUuidRe

/-- `verify`: a `SignatureError` with its text, or the line that says which key it was. -/
def verify (py : Runtime) (hmac : String → List UInt8 → String) (keyring : RecipientKeyring)
    (request : InboundRequest) (secret : Option String) : Except String String :=
  let recipientUuid := recipientHint py request.body
  match keyring.select recipientUuid secret with
  | .error text => .error text
  | .ok (key, path) =>
    match verifyHmacSha256 py hmac request key signatureHeader with
    | .error text => .error (text ++ " (key_path=" ++ path ++ ")")
    | .ok () => .ok ("event=verify_key " ++ logFields [("source", .str routeName),
        ("key_path", .str path), ("recipient", .str (orElse recipientUuid "<unknown>")),
        ("delivery", .str (orElse (request.header py deliveryHeader) "<unknown>"))])

/-- `_text` -/
def text (obj : Fields) (key label : String) : Except Raised String :=
  match (obj.get key).asStr with
  | some value =>
    if value = "" then .error (.payload (label ++ " must be a non-empty string")) else .ok value
  | none => .error (.payload (label ++ " must be a non-empty string"))

/-- `PayloadError(f"malformed basecradle payload: {exc}")` -/
def malformed {α : Type} : Except String α → Except Raised α
  | .ok a => .ok a
  | .error exc => .error (.payload ("malformed basecradle payload: " ++ exc))

/-- `normalize`: an event or none, and the line that says what was decided. -/
def normalize (py : Runtime) (request : InboundRequest) : Except Raised (Option Event × String) :=
  let eventType := request.header py eventHeader
  let deliveryId := request.header py deliveryHeader
  if !(eventType.any actionableEvents.contains) then
    .ok (none, deliveryDecision routeName eventType .ignored none deliveryId [])
  else do
    let data ← parseJsonObject py request.body
    match deliveryId.filter (· ≠ "") with
    | none => .error (.payload ("missing " ++ deliveryHeader ++ " header"))
    | some delivery =>
      let recipientUuid ← text data "recipient_uuid" "recipient_uuid"
      let timelineUuid ← text data "timeline_uuid" "timeline_uuid"
      let recipient ← malformed (Recipient.make "recipient_uuid" recipientUuid)
      let event ← malformed (Event.make routeName .platformEvent recipient timelineUuid delivery
        none (parseTimestamp py (data.get "occurred_at")) eventType)
      return (some event, deliveryDecision routeName eventType .woke (some recipientUuid)
        deliveryId [])

/-- What an event was made of. -/
theorem normalize_ok {py : Runtime} {request : InboundRequest} {event : Event} {line : String}
    (h : normalize py request = .ok (some event, line)) :
    ∃ data timeline, parseJsonObject py request.body = .ok data ∧
      (data.get "recipient_uuid").asStr = some event.recipient.value ∧
      (data.get "timeline_uuid").asStr = some timeline ∧ Required timeline ∧
      event.recipient.tag = "recipient_uuid" ∧ event.source = routeName := by
  have htext : ∀ {data key label value}, text data key label = .ok value →
      (data.get key).asStr = some value := by
    intro data key label value hvalue
    unfold text at hvalue
    split at hvalue
    · next value' hread =>
      split at hvalue
      · cases hvalue
      · cases hvalue
        exact hread
    · cases hvalue
  have hmade : ∀ {α : Type} {made : Except String α} {a : α}, malformed made = .ok a →
      made = .ok a := by
    intro α made a ha
    cases made with
    | error exc => cases ha
    | ok a' => exact congrArg _ (Except.ok.inj ha)
  unfold normalize at h
  dsimp only at h
  split at h
  · cases h
  · obtain ⟨data, hdata, h⟩ := bind_eq_ok.mp h
    split at h
    · cases h
    · next delivery _ =>
      obtain ⟨recipientUuid, hrecipientUuid, h⟩ := bind_eq_ok.mp h
      obtain ⟨timelineUuid, htimelineUuid, h⟩ := bind_eq_ok.mp h
      obtain ⟨recipient, hrecipient, h⟩ := bind_eq_ok.mp h
      obtain ⟨event', hevent, h⟩ := bind_eq_ok.mp h
      cases h
      obtain ⟨htag, hvalue⟩ := Recipient.make_ok (hmade hrecipient)
      obtain ⟨hsource, -, heventRecipient, hwakeArg, -⟩ := Event.make_ok (hmade hevent)
      refine ⟨data, timelineUuid, hdata, ?_, htext htimelineUuid, ?_, ?_, hsource⟩
      · rw [heventRecipient, hvalue]
        exact htext hrecipientUuid
      · rw [← hwakeArg]
        exact event.wakeArg_ok
      · rw [heventRecipient, htag]

end BasecradleRouter.Routes.Basecradle
