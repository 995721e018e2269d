/-
# The basecradle route's keys

`loadRecipientKeyring` gives each harness agent the signing key that the environment holds under
its own variable, and refuses an environment in which a variable names no agent, or two agents, or
holds nothing, or, once the shared fallback is retired, in which an agent has none.

What is loaded is exactly that: the key under an agent's uuid is the value of its variable
(`loadRecipientKeyring_get`), and with the fallback retired every agent has one
(`loadRecipientKeyring_retired`).
-/
import BasecradleRouter.Lib.Checked
import BasecradleRouter.Lib.OrderedDict
import BasecradleRouter.Lib.Runtime
import BasecradleRouter.Models
import Mathlib.Data.String.Basic

namespace BasecradleRouter.Routes.Basecradle

open BasecradleRouter.Lib BasecradleRouter.Models

/-- `RECIPIENT_SECRET_PREFIX` -/
def recipientSecretPrefix : String := "BASECRADLE_ROUTER_BASECRADLE_WEBHOOK_SECRET_"

/-- `SHARED_FALLBACK_VAR` -/
def sharedFallbackVar : String := "BASECRADLE_ROUTER_BASECRADLE_SHARED_SECRET_FALLBACK"

/-- `KEY_PATH_RECIPIENT` -/
def keyPathRecipient : String := "recipient"

/-- `KEY_PATH_FALLBACK` -/
def keyPathFallback : String := "fallback"

/-! ## 1. Selecting a key -/

/-- `RecipientKeyring` -/
structure RecipientKeyring where
  byRecipient : OrderedDict String String
  sharedFallback : Bool

/-- `select`: a key and the path it came by, or a `SignatureError`. -/
def RecipientKeyring.select (keyring : RecipientKeyring)
    (recipientUuid sharedSecret : Option String) :
    Except String (Option String × String) :=
  match recipientUuid.bind keyring.byRecipient.get with
  | some secret => .ok (some secret, keyPathRecipient)
  | none =>
    if keyring.sharedFallback then .ok (sharedSecret, keyPathFallback)
    else .error ("no per-recipient signing key for this delivery's recipient, and the " ++
      "shared fallback is retired (" ++ sharedFallbackVar ++ " is off)")

/-! ## 2. Loading the keys -/

/-- `[A-Za-z0-9_]` -/
def envNameSafe (c : Char) : Bool := c.isAlphanum || c == '_'

/-- `_slug_suffix`, where `upper` is `str.upper`. -/
def slugSuffix (upper : String → String) (key : String) : String :=
  String.ofList ((upper key).toList.map fun c => if envNameSafe c then c else '_')

/-- The variable that holds an agent's key. -/
def secretVar (upper : String → String) (agent : Agent) : String :=
  recipientSecretPrefix ++ slugSuffix upper agent.key

/-- `_TRUE` -/
def trueWords : List String := ["1", "true", "yes", "on"]

/-- `_FALSE` -/
def falseWords : List String := ["0", "false", "no", "off"]

/-- `_bool_env` -/
def boolEnv (py : Runtime) (env : OrderedDict String String) (var : String) (default : Bool) :
    Except String Bool :=
  let raw := py.lower (PyStr.strip ((env.get var).getD ""))
  if raw = "" then .ok default
  else if raw ∈ trueWords then .ok true
  else if raw ∈ falseWords then .ok false
  else .error (var ++ " must be one of ['0', '1', 'false', 'no', 'off', 'on', 'true', 'yes'], got " ++
    py.repr ((env.get var).getD ""))

/-- `var_for_agent`, one more recipient claiming its variable. -/
def claimVar (py : Runtime) (upper : String → String) (vars : OrderedDict String (String × Agent))
    (recipient : String × Agent) : Except String (OrderedDict String (String × Agent)) :=
  let (uuid, agent) := recipient
  let var := secretVar upper agent
  match vars.get var with
  | some claimed =>
    if claimed.1 ≠ uuid then
      .error ("agent keys " ++ py.repr claimed.2.key ++ " and " ++ py.repr agent.key ++
        " both map to " ++ var ++
        "; per-recipient signing keys must be addressable one agent at a time")
    else .ok (vars.set var (uuid, agent))
  | none => .ok (vars.set var (uuid, agent))

/-- `by_recipient`, one more variable of the environment. -/
def provision (vars : OrderedDict String (String × Agent)) (keys : OrderedDict String String)
    (item : String × String) : Except String (OrderedDict String String) :=
  let (var, value) := item
  if !recipientSecretPrefix.toList.isPrefixOf var.toList then .ok keys
  else
    match vars.get var with
    | none =>
      let known := String.intercalate ", " (vars.items.map Prod.fst).mergeSort
      .error (var ++ " names no registered agent; expected one of: " ++
        if known = "" then "(no harness agents registered)" else known)
    | some entry =>
      if PyStr.blank value then
        .error (var ++ " is set but empty; unset it to fall back, or give it a key")
      else .ok (keys.set entry.1 value)

/-- The keys of the agents that have none. -/
def unprovisioned (recipients : OrderedDict String Agent) (keys : OrderedDict String String) :
    List String :=
  ((recipients.items.filter fun item => (keys.get item.1).isNone).map (·.2.key)).mergeSort

/-- `load_recipient_keyring` -/
def loadRecipientKeyring (py : Runtime) (upper : String → String)
    (recipients : OrderedDict String Agent) (env : OrderedDict String String) :
    Except String RecipientKeyring := do
  let fallback ← boolEnv py env sharedFallbackVar true
  let vars ← recipients.items.foldlM (claimVar py upper) .empty
  let byRecipient ← env.items.foldlM (provision vars) .empty
  if !fallback && !(unprovisioned recipients byRecipient).isEmpty then
    .error (sharedFallbackVar ++ " is off but no per-recipient signing key is set for " ++
      String.intercalate ", " (unprovisioned recipients byRecipient) ++
      "; those agents could never be verified again (set " ++ recipientSecretPrefix ++
      "<SLUG>, or leave the fallback on until they are rotated)")
  else .ok ⟨byRecipient, fallback⟩

/-! ## 3. What is loaded -/

section

variable {py : Runtime} {upper : String → String} {recipients : OrderedDict String Agent}
  {env : OrderedDict String String}

/-- Each variable claimed is that of one agent, under the uuid it resolves by. -/
theorem claimVars_get {vars : OrderedDict String (String × Agent)}
    (h : recipients.items.foldlM (claimVar py upper) .empty = .ok vars) (var uuid : String)
    (agent : Agent) :
    vars.get var = some (uuid, agent) ↔
      recipients.get uuid = some agent ∧ var = secretVar upper agent := by
  rw [← OrderedDict.mem_items (d := recipients)]
  refine foldlM_ok (P := fun done vars => ∀ var uuid agent, vars.get var = some (uuid, agent) ↔
    (uuid, agent) ∈ done ∧ var = secretVar upper agent) ?_ ?_ h var uuid agent
  · intro var uuid agent
    simp
  · rintro done ⟨uuid, agent⟩ rest vars vars' hitems hdone hclaim var' uuid' agent'
    unfold claimVar at hclaim
    dsimp only at hclaim
    split at hclaim
    · next claimed hclaimed =>
      -- the variable of an agent before this one, under another uuid
      split at hclaim
      · cases hclaim
      · next hsame =>
        rw [ne_eq, not_not] at hsame
        obtain ⟨hmem, -⟩ := (hdone _ claimed.1 claimed.2).mp hclaimed
        rw [hsame] at hmem
        exact absurd hmem (OrderedDict.not_mem_before hitems claimed.2)
    · next hnone =>
      cases hclaim
      rw [OrderedDict.get_set, List.mem_append, List.mem_singleton, Prod.mk.injEq]
      split
      · next heq =>
        subst heq
        simp only [Option.some.injEq, Prod.mk.injEq]
        constructor
        · rintro ⟨rfl, rfl⟩
          exact ⟨Or.inr ⟨rfl, rfl⟩, rfl⟩
        · rintro ⟨hmem | ⟨rfl, rfl⟩, hvar⟩
          · rw [(hdone _ uuid' agent').mpr ⟨hmem, hvar⟩] at hnone
            cases hnone
          · exact ⟨rfl, rfl⟩
      · next hne =>
        rw [hdone]
        constructor
        · rintro ⟨hmem, hvar⟩
          exact ⟨Or.inl hmem, hvar⟩
        · rintro ⟨hmem | ⟨rfl, rfl⟩, hvar⟩
          · exact ⟨hmem, hvar⟩
          · exact absurd hvar hne

/-- A variable of an agent's key is told by how it starts. -/
theorem secretVar_starts (agent : Agent) :
    recipientSecretPrefix.toList.isPrefixOf (secretVar upper agent).toList = true := by
  unfold secretVar
  rw [List.isPrefixOf_iff_prefix, String.toList_append]
  exact List.prefix_append _ _

/-- A key provisioned is the value of its agent's variable. -/
theorem provision_get {vars : OrderedDict String (String × Agent)}
    {keys : OrderedDict String String}
    (hvars : ∀ var uuid agent, vars.get var = some (uuid, agent) ↔
      recipients.get uuid = some agent ∧ var = secretVar upper agent)
    (h : env.items.foldlM (provision vars) .empty = .ok keys) {uuid : String} {agent : Agent}
    (hagent : recipients.get uuid = some agent) :
    keys.get uuid = env.get (secretVar upper agent) := by
  refine Option.ext fun key => ?_
  rw [← OrderedDict.mem_items (d := env)]
  refine foldlM_ok (P := fun done keys => ∀ uuid agent, recipients.get uuid = some agent →
    ∀ key, keys.get uuid = some key ↔ (secretVar upper agent, key) ∈ done) ?_ ?_ h uuid agent
      hagent key
  · intro uuid agent _ key
    simp
  · rintro done ⟨var, value⟩ rest keys keys' hitems hdone hprovision uuid agent hagent key
    rw [List.mem_append, List.mem_singleton, Prod.mk.injEq]
    unfold provision at hprovision
    dsimp only at hprovision
    split at hprovision
    · next hother =>
      -- a variable of another kind
      cases hprovision
      rw [hdone uuid agent hagent]
      constructor
      · exact Or.inl
      · rintro (hmem | ⟨rfl, -⟩)
        · exact hmem
        · rw [secretVar_starts] at hother
          cases hother
    · split at hprovision
      · cases hprovision
      · next entry hentry =>
        split at hprovision
        · cases hprovision
        · cases hprovision
          obtain ⟨hentryAgent, hvar⟩ := (hvars var entry.1 entry.2).mp hentry
          rw [OrderedDict.get_set]
          split
          · next heq =>
            rw [← heq, hagent] at hentryAgent
            cases hentryAgent
            rw [← hvar]
            constructor
            · intro hkey
              cases hkey
              exact Or.inr ⟨rfl, rfl⟩
            · rintro (hmem | ⟨-, rfl⟩)
              · exact absurd hmem (OrderedDict.not_mem_before hitems key)
              · rfl
          · next hne =>
            rw [hdone uuid agent hagent]
            constructor
            · exact Or.inl
            · rintro (hmem | ⟨hsame, -⟩)
              · exact hmem
              · -- two agents would share the variable
                have hown : vars.get var = some (uuid, agent) :=
                  (hvars var uuid agent).mpr ⟨hagent, hsame.symm⟩
                rw [hentry] at hown
                exact absurd (congrArg Prod.fst (Option.some.inj hown)).symm hne

/-- What loading a keyring comes down to. -/
theorem loadRecipientKeyring_ok {keyring : RecipientKeyring}
    (h : loadRecipientKeyring py upper recipients env = .ok keyring) :
    boolEnv py env sharedFallbackVar true = .ok keyring.sharedFallback ∧
      (∃ vars, recipients.items.foldlM (claimVar py upper) .empty = .ok vars ∧
        env.items.foldlM (provision vars) .empty = .ok keyring.byRecipient) ∧
      (keyring.sharedFallback = true ∨ unprovisioned recipients keyring.byRecipient = []) := by
  unfold loadRecipientKeyring at h
  obtain ⟨fallback, hfallback, h⟩ := bind_eq_ok.mp h
  obtain ⟨vars, hvars, h⟩ := bind_eq_ok.mp h
  obtain ⟨byRecipient, hbyRecipient, h⟩ := bind_eq_ok.mp h
  split at h
  · cases h
  · next hall =>
    cases h
    refine ⟨hfallback, ⟨vars, hvars, hbyRecipient⟩, ?_⟩
    cases fallback with
    | true => exact Or.inl rfl
    | false => exact Or.inr (by simpa using hall)

/-- **An agent's key is what its own variable holds.** -/
theorem loadRecipientKeyring_get {keyring : RecipientKeyring}
    (h : loadRecipientKeyring py upper recipients env = .ok keyring) {uuid : String} {agent : Agent}
    (hagent : recipients.get uuid = some agent) :
    keyring.byRecipient.get uuid = env.get (secretVar upper agent) := by
  obtain ⟨-, ⟨vars, hvars, hprovision⟩, -⟩ := loadRecipientKeyring_ok h
  exact provision_get (claimVars_get hvars) hprovision hagent

/-- **Once the fallback is retired every agent has a key.** -/
theorem loadRecipientKeyring_retired {keyring : RecipientKeyring}
    (h : loadRecipientKeyring py upper recipients env = .ok keyring)
    (hretired : keyring.sharedFallback = false) {uuid : String} {agent : Agent}
    (hagent : recipients.get uuid = some agent) :
    ∃ key, env.get (secretVar upper agent) = some key := by
  obtain ⟨-, -, hfallback | hall⟩ := loadRecipientKeyring_ok h
  · rw [hretired] at hfallback
    cases hfallback
  · rw [← loadRecipientKeyring_get h hagent]
    cases hkey : keyring.byRecipient.get uuid with
    | some key => exact ⟨key, rfl⟩
    | none =>
      have hmem : agent.key ∈ unprovisioned recipients keyring.byRecipient := by
        unfold unprovisioned
        rw [List.mem_mergeSort, List.mem_map]
        refine ⟨(uuid, agent), List.mem_filter.mpr ⟨OrderedDict.mem_items.mpr hagent, ?_⟩, rfl⟩
        rw [hkey]
        rfl
      rw [hall] at hmem
      cases hmem

end

end BasecradleRouter.Routes.Basecradle
