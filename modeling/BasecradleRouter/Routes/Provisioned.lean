/-
# Which environments provision the basecradle route

`loadRecipientKeyring` returns on exactly the environments that are `Provisioned`: every agent has a
variable to itself, every variable of the kind is an agent's and holds something, the fallback's
flag can be read, and with the fallback retired no agent is without a key (`loads_iff_provisioned`).

What it returns is `Faithful`: a uuid's key is what its own agent's variable holds, and nothing that
is set is dropped.
-/
import BasecradleRouter.Routes.Keyring
import Mathlib.Data.List.TakeWhile

namespace BasecradleRouter.Routes.Basecradle

open BasecradleRouter.Lib BasecradleRouter.Models

/-- `[A-Za-z_][A-Za-z0-9_]*` -/
def LegalName (name : String) : Prop :=
  ∃ first rest, name.toList = first :: rest ∧ (first.isAlpha = true ∨ first = '_') ∧
    ∀ c ∈ rest, envNameSafe c = true

/-- The fallback's flag, read: on where it is unset or blank. -/
inductive Flag (py : Runtime) (env : OrderedDict String String) : Bool → Prop
  | blank (h : PyStr.blank ((env.get sharedFallbackVar).getD "") = true) : Flag py env true
  | on (h : py.lower (PyStr.strip ((env.get sharedFallbackVar).getD "")) ∈ trueWords) :
    Flag py env true
  | off (h : py.lower (PyStr.strip ((env.get sharedFallbackVar).getD "")) ∈ falseWords) :
    Flag py env false

/-- A configuration that is safe to run. -/
structure Provisioned (py : Runtime) (upper : String → String)
    (recipients : OrderedDict String Agent) (env : OrderedDict String String) : Prop where
  distinct : ∀ uuid uuid' agent agent', recipients.get uuid = some agent →
    recipients.get uuid' = some agent' → secretVar upper agent = secretVar upper agent' →
      uuid = uuid'
  named : ∀ var value, env.get var = some value →
    recipientSecretPrefix.toList.isPrefixOf var.toList = true →
      ∃ uuid agent, recipients.get uuid = some agent ∧ var = secretVar upper agent
  filled : ∀ var value, env.get var = some value →
    recipientSecretPrefix.toList.isPrefixOf var.toList = true → PyStr.blank value = false
  flag : Flag py env true ∨ Flag py env false ∧
    ∀ uuid agent, recipients.get uuid = some agent →
      ∃ key, env.get (secretVar upper agent) = some key

/-- A keyring that holds what the environment says. -/
structure Faithful (upper : String → String) (recipients : OrderedDict String Agent)
    (env : OrderedDict String String) (keyring : RecipientKeyring) : Prop where
  own : ∀ uuid key, keyring.byRecipient.get uuid = some key →
    ∃ agent, recipients.get uuid = some agent ∧ env.get (secretVar upper agent) = some key
  unshared : ∀ uuid uuid' agent agent', recipients.get uuid = some agent →
    recipients.get uuid' = some agent' → (keyring.byRecipient.get uuid).isSome = true →
      secretVar upper agent = secretVar upper agent' → uuid = uuid'
  kept : ∀ var value, env.get var = some value →
    recipientSecretPrefix.toList.isPrefixOf var.toList = true →
      ∃ uuid agent, recipients.get uuid = some agent ∧ var = secretVar upper agent ∧
        keyring.byRecipient.get uuid = some value
  legal : ∀ uuid agent, recipients.get uuid = some agent → LegalName (secretVar upper agent)

/-! ## 1. The flag -/

theorem strip_eq_empty {s : String} : PyStr.strip s = "" ↔ PyStr.blank s = true := by
  unfold PyStr.strip PyStr.blank
  rw [String.ofList_eq_empty_iff, List.reverse_eq_nil_iff, List.dropWhile_eq_nil_iff,
    List.all_eq_true]
  constructor
  · intro hrest
    cases hdrop : s.toList.dropWhile PyStr.isSpace with
    | nil => exact List.dropWhile_eq_nil_iff.mp hdrop
    | cons c rest =>
      -- what the first pass stops at is no white space
      have hc := List.head?_dropWhile_not PyStr.isSpace s.toList
      rw [hdrop] at hc hrest
      have hspace := hrest c (by simp)
      dsimp only [List.head?_cons] at hc
      rw [hspace] at hc
      cases hc
  · intro h c hc
    rw [List.dropWhile_eq_nil_iff.mpr h] at hc
    cases hc

section

variable {py : Runtime} {upper : String → String} {recipients : OrderedDict String Agent}
  {env : OrderedDict String String}

theorem lower_eq_empty {s : String} : py.lower s = "" ↔ s = "" := by
  constructor
  · intro h
    have hletters := py.lower_ascii s (by rw [h]; rfl)
    rw [h] at hletters
    exact String.toList_eq_nil_iff.mp (List.forall₂_nil_right_iff.mp hletters)
  · rintro rfl
    exact String.toList_eq_nil_iff.mp (py.lower_of_ascii "" rfl)

/-- **The flag is read** exactly if it is blank or one of the words. -/
theorem boolEnv_ok {b : Bool} : boolEnv py env sharedFallbackVar true = .ok b ↔ Flag py env b := by
  have hblank : py.lower (PyStr.strip ((env.get sharedFallbackVar).getD "")) = "" ↔
      PyStr.blank ((env.get sharedFallbackVar).getD "") = true :=
    lower_eq_empty.trans strip_eq_empty
  have hwords : ∀ word ∈ trueWords, word ∉ falseWords ∧ word ≠ "" := by decide
  have hother : ∀ word ∈ falseWords, word ≠ "" := by decide
  unfold boolEnv
  dsimp only
  split
  · next hraw =>
    constructor
    · rintro ⟨⟩
      exact .blank (hblank.mp hraw)
    · rintro (h | h | h)
      · rfl
      · rfl
      · exact absurd hraw (hother _ h)
  · next hraw =>
    split
    · next htrue =>
      constructor
      · rintro ⟨⟩
        exact .on htrue
      · rintro (h | h | h)
        · rfl
        · rfl
        · exact absurd h (hwords _ htrue).1
    · next htrue =>
      split
      · next hfalse =>
        constructor
        · rintro ⟨⟩
          exact .off hfalse
        · rintro (h | h | h)
          · exact absurd (hblank.mpr h) hraw
          · exact absurd h htrue
          · rfl
      · next hfalse =>
        constructor
        · rintro ⟨⟩
        · rintro (h | h | h)
          · exact absurd (hblank.mpr h) hraw
          · exact absurd h htrue
          · exact absurd h hfalse

/-! ## 2. The agents' variables -/

/-- A variable's name is a legal one, whatever the key. -/
theorem legalName_secretVar (upper : String → String) (agent : Agent) :
    LegalName (secretVar upper agent) := by
  have hsafe : recipientSecretPrefix.toList.all envNameSafe = true := by decide
  have hletter : recipientSecretPrefix.toList.head?.all Char.isAlpha = true := by decide
  have hne : recipientSecretPrefix.toList ≠ [] := by decide
  obtain ⟨first, rest, hstart⟩ := List.exists_cons_of_ne_nil hne
  rw [hstart] at hsafe hletter
  have hfirst : first.isAlpha = true := hletter
  have hrest : ∀ c ∈ rest, envNameSafe c = true := fun c hc =>
    List.all_eq_true.mp hsafe c (List.mem_cons_of_mem _ hc)
  refine ⟨first, rest ++ (slugSuffix upper agent.key).toList, ?_, Or.inl hfirst, fun c hc => ?_⟩
  · unfold secretVar
    rw [String.toList_append, hstart, List.cons_append]
  · rcases List.mem_append.mp hc with hc | hc
    · exact hrest c hc
    · unfold slugSuffix at hc
      rw [String.toList_ofList] at hc
      obtain ⟨c', -, rfl⟩ := List.mem_map.mp hc
      split
      · next hsafe => exact hsafe
      · decide

/-- **The agents claim their variables** exactly if none claims another's. -/
theorem claimVars_iff : (∃ vars, recipients.items.foldlM (claimVar py upper) .empty = .ok vars) ↔
    ∀ uuid uuid' agent agent', recipients.get uuid = some agent →
      recipients.get uuid' = some agent' → secretVar upper agent = secretVar upper agent' →
        uuid = uuid' := by
  constructor
  · rintro ⟨vars, h⟩ uuid uuid' agent agent' hagent hagent' hvar
    have hown := (claimVars_get h (secretVar upper agent) uuid agent).mpr ⟨hagent, rfl⟩
    have hown' := (claimVars_get h (secretVar upper agent) uuid' agent').mpr ⟨hagent', hvar⟩
    rw [hown] at hown'
    cases hown'
    rfl
  · intro hdistinct
    refine foldlM_returns (P := fun done vars => ∀ var claimed, vars.get var = some claimed →
      claimed ∈ done ∧ var = secretVar upper claimed.2) ?_ ?_
    · intro var claimed hclaimed
      cases hclaimed
    · rintro done ⟨uuid, agent⟩ rest vars hitems hdone
      have hget : recipients.get uuid = some agent := by
        rw [← OrderedDict.mem_items, hitems]
        simp
      have hset : ∀ var claimed, (vars.set (secretVar upper agent) (uuid, agent)).get var =
          some claimed → claimed ∈ done ++ [(uuid, agent)] ∧ var = secretVar upper claimed.2 := by
        intro var claimed hclaimed
        rcases OrderedDict.get_set_some hclaimed with ⟨heq, rfl⟩ | hclaimed
        · exact ⟨by simp, heq⟩
        · obtain ⟨hmem, hvar⟩ := hdone var claimed hclaimed
          exact ⟨List.mem_append_left _ hmem, hvar⟩
      refine ⟨_, ?_, hset⟩
      unfold claimVar
      dsimp only
      split
      · next claimed hclaimed =>
        obtain ⟨hmem, hvar⟩ := hdone _ claimed hclaimed
        have hother : recipients.get claimed.1 = some claimed.2 := by
          rw [← OrderedDict.mem_items, hitems]
          exact List.mem_append_left _ hmem
        rw [if_neg (not_not.mpr (hdistinct _ _ _ _ hother hget hvar.symm))]
      · rfl

/-! ## 3. The environment's variables -/

/-- **The keys are taken up** exactly if every variable of the kind is claimed and holds
something. -/
theorem provisions_iff {vars : OrderedDict String (String × Agent)} :
    (∃ keys, env.items.foldlM (provision vars) .empty = .ok keys) ↔
      ∀ var value, env.get var = some value →
        recipientSecretPrefix.toList.isPrefixOf var.toList = true →
          (vars.get var).isSome = true ∧ PyStr.blank value = false := by
  constructor
  · rintro ⟨keys, h⟩ var value hvalue hstarts
    refine foldlM_ok (P := fun done _ => ∀ item ∈ done,
      recipientSecretPrefix.toList.isPrefixOf item.1.toList = true →
        (vars.get item.1).isSome = true ∧ PyStr.blank item.2 = false) ?_ ?_ h (var, value)
        (OrderedDict.mem_items.mpr hvalue) hstarts
    · intro item hitem
      cases hitem
    · rintro done ⟨var, value⟩ rest keys keys' - hdone hprovision item hitem hstarts
      rcases List.mem_append.mp hitem with hitem | hitem
      · exact hdone item hitem hstarts
      · rw [List.mem_singleton.mp hitem] at hstarts ⊢
        unfold provision at hprovision
        dsimp only at hprovision hstarts
        rw [hstarts] at hprovision
        split at hprovision
        · next hnot => cases hnot
        · split at hprovision
          · cases hprovision
          · next entry hentry =>
            split at hprovision
            · cases hprovision
            · next hfilled => exact ⟨by rw [hentry]; rfl, by simpa using hfilled⟩
  · intro hall
    refine foldlM_returns (P := fun _ _ => True) trivial ?_
    rintro done ⟨var, value⟩ rest keys hitems -
    have hvalue : env.get var = some value := by
      rw [← OrderedDict.mem_items, hitems]
      simp
    unfold provision
    dsimp only
    split
    · exact ⟨_, rfl, trivial⟩
    · next hstarts =>
      obtain ⟨hclaimed, hfilled⟩ := hall var value hvalue (by simpa using hstarts)
      obtain ⟨entry, hentry⟩ := Option.isSome_iff_exists.mp hclaimed
      rw [hentry, hfilled]
      exact ⟨_, rfl, trivial⟩

/-- A key that was taken up is an agent's. -/
theorem provision_own {vars : OrderedDict String (String × Agent)}
    {keys : OrderedDict String String}
    (hvars : ∀ var uuid agent, vars.get var = some (uuid, agent) ↔
      recipients.get uuid = some agent ∧ var = secretVar upper agent)
    (h : env.items.foldlM (provision vars) .empty = .ok keys) {uuid key : String}
    (hkey : keys.get uuid = some key) : ∃ agent, recipients.get uuid = some agent := by
  refine foldlM_ok (P := fun _ keys => ∀ uuid key, keys.get uuid = some key →
    ∃ agent, recipients.get uuid = some agent) ?_ ?_ h uuid key hkey
  · intro uuid key hkey
    cases hkey
  · rintro done ⟨var, value⟩ rest keys keys' - hdone hprovision uuid key hkey
    unfold provision at hprovision
    dsimp only at hprovision
    split at hprovision
    · cases hprovision
      exact hdone uuid key hkey
    · split at hprovision
      · cases hprovision
      · next entry hentry =>
        split at hprovision
        · cases hprovision
        · cases hprovision
          rcases OrderedDict.get_set_some hkey with ⟨rfl, -⟩ | hkey
          · exact ⟨entry.2, ((hvars var entry.1 entry.2).mp hentry).1⟩
          · exact hdone uuid key hkey

theorem unprovisioned_eq_nil {keys : OrderedDict String String} :
    unprovisioned recipients keys = [] ↔
      ∀ uuid agent, recipients.get uuid = some agent → (keys.get uuid).isSome = true := by
  unfold unprovisioned
  rw [List.eq_nil_iff_forall_not_mem]
  simp only [List.mem_mergeSort, List.mem_map, List.mem_filter, not_exists, not_and]
  constructor
  · intro h uuid agent hagent
    by_contra hnone
    refine h agent.key (uuid, agent) ⟨OrderedDict.mem_items.mpr hagent, ?_⟩ rfl
    simpa using hnone
  · rintro h key ⟨uuid, agent⟩ ⟨hmem, hnone⟩ -
    have hsome := h uuid agent (OrderedDict.mem_items.mp hmem)
    rw [Option.isNone_iff_eq_none.mp hnone] at hsome
    cases hsome

/-- **A keyring is loaded** exactly if the configuration is safe. -/
theorem loads_iff : (∃ keyring, loadRecipientKeyring py upper recipients env = .ok keyring) ↔
    Provisioned py upper recipients env := by
  constructor
  · rintro ⟨keyring, h⟩
    obtain ⟨hflag, ⟨vars, hvars, hkeys⟩, hretired⟩ := loadRecipientKeyring_ok h
    have hget := claimVars_get hvars
    have hprovisioned := provisions_iff.mp ⟨_, hkeys⟩
    refine ⟨claimVars_iff.mp ⟨vars, hvars⟩, fun var value hvalue hstarts => ?_,
      fun var value hvalue hstarts => (hprovisioned var value hvalue hstarts).2, ?_⟩
    · obtain ⟨⟨uuid, agent⟩, hentry⟩ :=
        Option.isSome_iff_exists.mp (hprovisioned var value hvalue hstarts).1
      exact ⟨uuid, agent, (hget var uuid agent).mp hentry⟩
    · have hread := boolEnv_ok.mp hflag
      cases hfallback : keyring.sharedFallback with
      | true => exact Or.inl (hfallback ▸ hread)
      | false =>
        exact Or.inr ⟨hfallback ▸ hread, fun uuid agent hagent =>
          loadRecipientKeyring_retired h hfallback hagent⟩
  · rintro ⟨hdistinct, hnamed, hfilled, hflag⟩
    obtain ⟨vars, hvars⟩ := claimVars_iff.mpr hdistinct
    have hget := claimVars_get hvars
    have hprovisions : ∃ keys, env.items.foldlM (provision vars) .empty = .ok keys := by
      refine provisions_iff.mpr fun var value hvalue hstarts => ?_
      obtain ⟨uuid, agent, hagent⟩ := hnamed var value hvalue hstarts
      rw [(hget var uuid agent).mpr hagent]
      exact ⟨rfl, hfilled var value hvalue hstarts⟩
    obtain ⟨keys, hkeys⟩ := hprovisions
    unfold loadRecipientKeyring
    rcases hflag with hon | ⟨hoff, hall⟩
    · refine ⟨⟨keys, true⟩, bind_eq_ok.mpr ⟨true, boolEnv_ok.mpr hon, bind_eq_ok.mpr ⟨vars, hvars,
        bind_eq_ok.mpr ⟨keys, hkeys, ?_⟩⟩⟩⟩
      rfl
    · have hnone : unprovisioned recipients keys = [] := by
        refine unprovisioned_eq_nil.mpr fun uuid agent hagent => ?_
        obtain ⟨key, hkey⟩ := hall uuid agent hagent
        rw [provision_get hget hkeys hagent, hkey]
        rfl
      refine ⟨⟨keys, false⟩, bind_eq_ok.mpr
        ⟨false, boolEnv_ok.mpr hoff, bind_eq_ok.mpr ⟨vars, hvars,
        bind_eq_ok.mpr ⟨keys, hkeys, ?_⟩⟩⟩⟩
      rw [hnone]
      rfl

/-- **What is loaded** is what the environment says. -/
theorem loaded_faithful {keyring : RecipientKeyring}
    (h : loadRecipientKeyring py upper recipients env = .ok keyring) :
    Faithful upper recipients env keyring := by
  obtain ⟨hdistinct, hnamed, -, -⟩ := loads_iff.mp ⟨keyring, h⟩
  refine ⟨fun uuid key hkey => ?_, fun uuid uuid' agent agent' hagent hagent' _ hvar =>
    hdistinct uuid uuid' agent agent' hagent hagent' hvar, fun var value hvalue hstarts => ?_,
    fun uuid agent _ => legalName_secretVar upper agent⟩
  · obtain ⟨-, ⟨vars, hvars, hkeys⟩, -⟩ := loadRecipientKeyring_ok h
    obtain ⟨agent, hagent⟩ := provision_own (claimVars_get hvars) hkeys hkey
    exact ⟨agent, hagent, (loadRecipientKeyring_get h hagent).symm.trans hkey⟩
  · obtain ⟨uuid, agent, hagent, rfl⟩ := hnamed var value hvalue hstarts
    exact ⟨uuid, agent, hagent, rfl, (loadRecipientKeyring_get h hagent).trans hvalue⟩

end

/-- **Keyring loading accepts exactly the safe configurations**, and what it loads is faithful to
them. -/
theorem loads_iff_provisioned (py : Runtime) (upper : String → String)
    (recipients : OrderedDict String Agent) (env : OrderedDict String String) :
    ((∃ keyring, loadRecipientKeyring py upper recipients env = .ok keyring) ↔
      Provisioned py upper recipients env) ∧
    ∀ keyring, loadRecipientKeyring py upper recipients env = .ok keyring →
      Faithful upper recipients env keyring :=
  ⟨loads_iff, fun _ => loaded_faithful⟩

end BasecradleRouter.Routes.Basecradle
