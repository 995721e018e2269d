/-
# What is known of a finding

The advisories of a report are pairwise unrelated, so the keys they could have been filed under are
apart (`keys_apart`): refiling one finding touches no other's keys.  What is then known of it is the
most severe of the ratings it was filed at under any of its names (`refiled_leastOf`), and what is
filed of other ecosystems is as it was (`get_refiled_of_notMem`).

A record is `Settled` if each advisory is filed as it is rated and the rest belongs to scanners that
failed.  What a run records is settled, whatever was recorded before (`settled_current`), and of a
settled record nothing is new, rated otherwise, renamed or resolved (`Settled.unchanged`).
-/
import BasecradleRouter.Lib.Least
import BasecradleRouter.SecurityScan.Plans

namespace BasecradleRouter.SecurityScan

open BasecradleRouter.Lib BasecradleRouter.Lib.JsonCodec

/-! ## 1. Keys -/

/-- Of letters, digits, `-`, `_` and `.`. -/
def LegalName (package : PyText) : Prop :=
  ∀ c ∈ package, (charOf c).isAlphanum = true ∨ c ∈ PyText.ofString "-_."

/-- What the scanners return that reached a verdict.  Their names were read of a text, and so is
what the ones that did not are called. -/
structure Reported (scan : DependencySecurityScan) : Prop where
  pypi : ∀ a ∈ scan.advisories, a.ecosystem = "pypi"
  legal : ∀ a ∈ scan.advisories, LegalName a.package
  named : ∀ a ∈ scan.advisories, a.id ∈ a.aliases
  apart : scan.advisories.Pairwise fun a b => related a b = false
  reached : ∀ a ∈ scan.advisories, scan.errors.get a.ecosystem = none
  unpaired : ∀ a ∈ scan.advisories, Unpaired a.severity ∧ ∀ name ∈ a.aliases, Unpaired name
  scanners : ∀ name ∈ scan.errors.keys, Unpaired name

/-- What stands between the parts of a key. -/
def colon : CodePoint := CodePoint.ofChar ':'

theorem key_eq (ecosystem package advisoryId : PyText) :
    key ecosystem package advisoryId = ecosystem ++
      colon :: (package.filter (· ≠ CodePoint.ofChar '@') ++ colon :: advisoryId) := by
  have hcolon : PyText.ofString ":" = [colon] := rfl
  rw [key, hcolon]
  simp only [List.append_assoc, List.cons_append, List.nil_append]

/-- A legal name is kept whole. -/
theorem LegalName.filter {package : PyText} (h : LegalName package) :
    package.filter (· ≠ CodePoint.ofChar '@') = package := by
  refine List.filter_eq_self.mpr fun c hc => ?_
  refine decide_eq_true ?_
  rintro rfl
  rcases h _ hc with h | h
  · exact absurd h (by decide)
  · exact absurd h (by decide)

theorem LegalName.colon {package : PyText} (h : LegalName package) :
    SecurityScan.colon ∉ package := by
  intro hmem
  rcases h _ hmem with h | h
  · exact absurd h (by decide)
  · exact absurd h (by decide)

/-- No surrogate is a letter. -/
theorem LegalName.scalars {package : PyText} (h : LegalName package) : Scalars package := by
  intro c hc
  rcases h c hc with halnum | hmark
  · cases hplain : high c || low c with
    | false => exact Bool.or_eq_false_iff.mp hplain
    | true =>
      rw [charOf, hplain, if_pos rfl] at halnum
      exact absurd halnum (by decide)
  · have hmarks : Scalars (PyText.ofString "-_.") := by decide
    exact hmarks c hmark

/-- A key tells its package and its name. -/
theorem key_inj {p q i j : PyText} (hp : LegalName p) (hq : LegalName q)
    (h : key "pypi" p i = key "pypi" q j) : p = q ∧ i = j := by
  rw [key_eq, key_eq, hp.filter, hq.filter] at h
  obtain ⟨-, hrest⟩ := PyStr.append_sep_inj (by decide) (by decide) h
  exact PyStr.append_sep_inj hp.colon hq.colon hrest

/-- A key tells its ecosystem. -/
theorem failing_key (scan : DependencySecurityScan) (package advisoryId : PyText) :
    scan.failing (key "pypi" package advisoryId) = (scan.errors.get "pypi").isSome := by
  have hecosystem : (key "pypi" package advisoryId).takeWhile (· ≠ CodePoint.ofChar ':') =
      PyText.ofString "pypi" := by
    have hplain : ∀ c ∈ PyText.ofString "pypi", decide (c ≠ CodePoint.ofChar ':') = true :=
      List.all_eq_true.mp (by decide)
    rw [key_eq, List.takeWhile_append_of_pos hplain, List.takeWhile_cons, if_neg (by decide),
      List.append_nil]
  rw [DependencySecurityScan.failing, hecosystem]

/-- A key has no pair where its name has none. -/
theorem unpaired_key {package advisoryId : PyText} (hpackage : LegalName package)
    (hid : Unpaired advisoryId) : Unpaired (key "pypi" package advisoryId) := by
  have hcolon : Scalars [colon] := by decide
  have hstart : Scalars (PyText.ofString "pypi") := by decide
  rw [key_eq, hpackage.filter, ← List.singleton_append, ← List.singleton_append (l := advisoryId)]
  exact hstart.append (hcolon.append (hpackage.scalars.append (hcolon.append hid)))

namespace Reported

variable {scan : DependencySecurityScan} (h : Reported scan) {a b : Advisory PyText}
include h

theorem aliasKey (ha : a ∈ scan.advisories) {k : PyText} :
    k ∈ a.aliasKeys ↔ ∃ name ∈ a.aliases, key "pypi" a.package name = k := by
  rw [Advisory.aliasKeys, h.pypi a ha, List.mem_map]

/-- An advisory's own key is one of those it could have been filed under. -/
theorem key_mem (ha : a ∈ scan.advisories) : a.key ∈ a.aliasKeys :=
  List.mem_map.mpr ⟨a.id, h.named a ha, rfl⟩

theorem unpaired_key (ha : a ∈ scan.advisories) : Unpaired a.key := by
  rw [Advisory.key, h.pypi a ha]
  exact SecurityScan.unpaired_key (h.legal a ha) ((h.unpaired a ha).2 a.id (h.named a ha))

/-- Unrelated advisories share no key. -/
theorem keys_apart (ha : a ∈ scan.advisories) (hb : b ∈ scan.advisories)
    (hab : related a b = false) {k : PyText} (hka : k ∈ a.aliasKeys) : k ∉ b.aliasKeys := by
  intro hkb
  obtain ⟨name, hname, hk⟩ := (h.aliasKey ha).mp hka
  obtain ⟨name', hname', hk'⟩ := (h.aliasKey hb).mp hkb
  obtain ⟨hpackage, rfl⟩ := key_inj (h.legal a ha) (h.legal b hb) (hk.trans hk'.symm)
  have hrelated : related a b = true := by
    simp only [related, Bool.and_eq_true, beq_iff_eq, List.any_eq_true, List.contains_iff_mem]
    exact ⟨⟨(h.pypi a ha).trans (h.pypi b hb).symm, hpackage⟩, name, hname, hname'⟩
  rw [hab] at hrelated
  cases hrelated

/-- No key of an advisory is of a scanner that failed. -/
theorem not_failing (ha : a ∈ scan.advisories) {k : PyText} (hk : k ∈ a.aliasKeys) :
    scan.failing k = false := by
  obtain ⟨name, -, rfl⟩ := (h.aliasKey ha).mp hk
  rw [failing_key, ← h.pypi a ha, h.reached a ha]
  rfl

/-- The advisories before and after one are unrelated to it. -/
theorem split {before after : List (Advisory PyText)}
    (hsplit : scan.advisories = before ++ a :: after) :
    ∀ b ∈ before ++ after, ∀ k ∈ b.aliasKeys, k ∉ a.aliasKeys := by
  have hapart := h.apart
  have ha : a ∈ scan.advisories := by
    rw [hsplit]
    exact List.mem_append_right before List.mem_cons_self
  rw [hsplit, List.pairwise_append, List.pairwise_cons] at hapart
  intro b hb k hkb hka
  rcases List.mem_append.mp hb with hb | hb
  · have hmem : b ∈ scan.advisories := by
      rw [hsplit]
      exact List.mem_append_left _ hb
    exact h.keys_apart hmem ha (hapart.2.2 b hb a List.mem_cons_self) hkb hka
  · have hmem : b ∈ scan.advisories := by
      rw [hsplit]
      exact List.mem_append_right before (List.mem_cons_of_mem a hb)
    exact h.keys_apart ha hmem (hapart.2.1.1 b hb) hka hkb

/-- The key of an advisory under another of its names is not reported. -/
theorem not_reported (ha : a ∈ scan.advisories) {k : PyText} (hk : k ∈ a.aliasKeys)
    (hne : k ≠ a.key) : k ∉ scan.reported := by
  intro hmem
  obtain ⟨before, after, hsplit⟩ := List.append_of_mem ha
  obtain ⟨b, hb, rfl⟩ := List.mem_map.mp hmem
  have hcases : b = a ∨ b ∈ before ++ after := by
    rw [hsplit] at hb
    simp only [List.mem_append, List.mem_cons] at hb ⊢
    tauto
  rcases hcases with rfl | hb'
  · exact hne rfl
  · exact h.split hsplit b hb' b.key (h.key_mem hb) hk

end Reported

/-! ## 2. One name -/

namespace DependencySecurityScan

variable {reported : List PyText} {key earlier k : PyText} {filed : Filed}

/-- A name touches its own key and the one reported. -/
theorem get_fileUnder_of_ne (hkey : k ≠ key) (hearlier : k ≠ earlier) :
    (fileUnder reported key filed earlier).known.get k = filed.known.get k := by
  unfold fileUnder
  split
  · split
    · dsimp only
      rw [OrderedDict.get_set, if_neg hkey, OrderedDict.get_del, if_neg hearlier]
    · rfl
  · rfl

/-- The more severe of two ratings. -/
theorem worse_leastBy (one other : PyText) : LeastBy rankOf [one, other] (worse one other) := by
  unfold worse
  split
  · next hlt => exact ⟨by simp, by simp [hlt.le]⟩
  · next hge => exact ⟨by simp, by simpa using Nat.le_of_not_lt hge⟩

/-- What is the most severe of some ratings, if there are any. -/
def LeastOf (ratings : List PyText) : Option PyText → Prop
  | none => ratings = []
  | some severity => LeastBy rankOf ratings severity

theorem LeastOf.congr {ratings ratings' : List PyText} {severity : Option PyText}
    (hmem : ∀ x, x ∈ ratings ↔ x ∈ ratings') (h : LeastOf ratings severity) :
    LeastOf ratings' severity := by
  cases severity with
  | none =>
    refine List.eq_nil_iff_forall_not_mem.mpr fun x hx => ?_
    rw [← hmem, show ratings = [] from h] at hx
    cases hx
  | some severity => exact LeastBy.congr hmem h

/-- Folding in another rating. -/
theorem LeastOf.fold {ratings : List PyText} {before : Option PyText} (h : LeastOf ratings before)
    (severity : PyText) :
    LeastOf (ratings ++ [severity]) (some (worse (before.getD severity) severity)) := by
  cases before with
  | none =>
    have hsame : worse severity severity = severity := by
      unfold worse
      rw [if_neg (lt_irrefl _)]
    rw [Option.getD_none, hsame, show ratings = [] from h]
    exact ⟨by simp, by simp⟩
  | some before =>
    exact LeastBy.append h ⟨List.mem_singleton_self severity, by simp⟩ (worse_leastBy _ _)

end DependencySecurityScan

/-! ## 3. One finding -/

/-- What a finding was filed at, under any of its names. -/
def ratingsOf (known : OrderedDict PyText PyText) (keys : List PyText) : List PyText :=
  keys.filterMap known.get

namespace DependencySecurityScan

/-- What is known of an advisory after some of its names: the most severe rating of those, which are
no longer filed apart. -/
structure Refiling (a : Advisory PyText) (before : OrderedDict PyText PyText) (done : List PyText)
    (known : OrderedDict PyText PyText) : Prop where
  least : LeastOf (ratingsOf before (a.key :: done)) (known.get a.key)
  others : ∀ k ∈ a.aliasKeys, k ≠ a.key →
    known.get k = if k ∈ done then none else before.get k

variable {a : Advisory PyText} {before known known' : OrderedDict PyText PyText}
  {done reported : List PyText} {filed : Filed} {earlier : PyText}

theorem Refiling.start (a : Advisory PyText) (before : OrderedDict PyText PyText) :
    Refiling a before [] before := by
  constructor
  · cases hget : before.get a.key with
    | none => simp [ratingsOf, LeastOf, hget]
    | some severity =>
      rw [ratingsOf, List.filterMap_cons, hget]
      exact ⟨by simp, by simp⟩
  · intro k _ _
    rw [if_neg List.not_mem_nil]

/-- What other findings' names touch leaves it as it is. -/
theorem Refiling.congr (h : Refiling a before done known) (hkey : a.key ∈ a.aliasKeys)
    (hsame : ∀ k ∈ a.aliasKeys, known'.get k = known.get k) : Refiling a before done known' := by
  constructor
  · rw [hsame _ hkey]
    exact h.least
  · intro k hk hne
    rw [hsame k hk]
    exact h.others k hk hne

theorem mem_ratingsOf {keys : List PyText} {x : PyText} :
    x ∈ ratingsOf known keys ↔ ∃ k ∈ keys, known.get k = some x := by
  rw [ratingsOf, List.mem_filterMap]

/-- Where a name adds nothing new to what was gone through. -/
theorem Refiling.same (h : Refiling a before done known)
    (hseen : earlier = a.key ∨ earlier ∈ done ∨ before.get earlier = none)
    (hunfiled : earlier ≠ a.key → known.get earlier = none) :
    Refiling a before (done ++ [earlier]) known := by
  constructor
  · refine h.least.congr fun x => ?_
    simp only [mem_ratingsOf, List.mem_cons, List.mem_append, List.not_mem_nil, or_false]
    constructor
    · rintro ⟨k, hk, hx⟩
      exact ⟨k, by tauto, hx⟩
    · rintro ⟨k, hk, hx⟩
      have hk' : k = a.key ∨ k ∈ done := by
        rcases hk with hk | hk | rfl
        · exact Or.inl hk
        · exact Or.inr hk
        · rcases hseen with hkey | hdone | hnone
          · exact Or.inl hkey
          · exact Or.inr hdone
          · rw [hnone] at hx
            cases hx
      exact ⟨k, hk', hx⟩
  · intro k hk hne
    have hother := h.others k hk hne
    by_cases heq : k = earlier
    · rw [if_pos (by simp [heq]), heq]
      exact hunfiled (heq ▸ hne)
    · simpa [heq] using hother

/-- One of its own names. -/
theorem Refiling.step (h : Refiling a before done filed.known) (hmem : earlier ∈ a.aliasKeys)
    (hout : earlier ≠ a.key → earlier ∉ reported) :
    Refiling a before (done ++ [earlier]) (fileUnder reported a.key filed earlier).known := by
  by_cases hkey : earlier = a.key
  · have hnoop : fileUnder reported a.key filed earlier = filed := by
      unfold fileUnder
      split
      · rw [if_neg fun hcond => hcond.1 hkey]
      · rfl
    rw [hnoop]
    exact h.same (Or.inl hkey) fun hne => absurd hkey hne
  · have hother := h.others earlier hmem hkey
    cases hget : filed.known.get earlier with
    | none =>
      have hnoop : fileUnder reported a.key filed earlier = filed := by
        unfold fileUnder
        rw [hget]
      rw [hnoop]
      refine h.same (Or.inr ?_) fun _ => hget
      by_cases hdone : earlier ∈ done
      · exact Or.inl hdone
      · rw [if_neg hdone, hget] at hother
        exact Or.inr hother.symm
    | some severity =>
      have hdone : earlier ∉ done := by
        intro hdone
        rw [if_pos hdone, hget] at hother
        cases hother
      rw [if_neg hdone, hget] at hother
      unfold fileUnder
      rw [hget]
      dsimp only
      rw [if_pos ⟨hkey, hout hkey⟩]
      dsimp only
      constructor
      · have hratings : ratingsOf before (a.key :: (done ++ [earlier])) =
            ratingsOf before (a.key :: done) ++ [severity] := by
          rw [ratingsOf, ← List.cons_append, List.filterMap_append,
            List.filterMap_cons (a := earlier),
            ← hother]
          rfl
        rw [OrderedDict.get_set, if_pos rfl, OrderedDict.get_del, if_neg (Ne.symm hkey), hratings]
        exact h.least.fold severity
      · intro k hk hne
        rw [OrderedDict.get_set, if_neg hne, OrderedDict.get_del, h.others k hk hne]
        by_cases heq : k = earlier
        · simp [heq]
        · simp [heq]

theorem Refiling.names (hout : ∀ k ∈ a.aliasKeys, k ≠ a.key → k ∉ reported) :
    ∀ {names done : List PyText} {filed : Filed}, (∀ k ∈ names, k ∈ a.aliasKeys) →
      Refiling a before done filed.known →
      Refiling a before (done ++ names)
        (names.foldl (fileUnder reported a.key) filed).known := by
  intro names
  induction names with
  | nil =>
    intro done filed _ h
    rw [List.append_nil]
    exact h
  | cons earlier names ih =>
    intro done filed hnames h
    obtain ⟨hearlier, hrest⟩ := List.forall_mem_cons.mp hnames
    have hstep := h.step hearlier (hout earlier hearlier)
    have hall := ih hrest hstep
    rw [List.append_assoc, List.singleton_append] at hall
    exact hall

/-! ## 4. All of them -/

/-- What an advisory's names do not touch is as it was. -/
theorem get_names_of_notMem {k : PyText} (hkey : k ≠ a.key) {names : List PyText}
    {filed : Filed} (hout : k ∉ names) :
    (names.foldl (fileUnder reported a.key) filed).known.get k = filed.known.get k := by
  induction names generalizing filed with
  | nil => rfl
  | cons earlier names ih =>
    rw [List.mem_cons, not_or] at hout
    rw [List.foldl_cons, ih hout.2, get_fileUnder_of_ne hkey hout.1]

variable {scan : DependencySecurityScan}

theorem get_foldl_names_of_notMem {k : PyText} {advisories : List (Advisory PyText)} {filed : Filed}
    (h : ∀ b ∈ advisories, b.key ∈ b.aliasKeys ∧ k ∉ b.aliasKeys) :
    (advisories.foldl (fun filed b => b.aliasKeys.foldl (fileUnder reported b.key) filed)
      filed).known.get k = filed.known.get k := by
  induction advisories generalizing filed with
  | nil => rfl
  | cons b advisories ih =>
    obtain ⟨⟨hkey, hout⟩, hrest⟩ := List.forall_mem_cons.mp h
    have hne : k ≠ b.key := by
      rintro rfl
      exact hout hkey
    rw [List.foldl_cons, ih hrest, get_names_of_notMem hne hout]

/-- What no advisory could have been filed under is as it was. -/
theorem get_refiled_of_notMem (h : Reported scan) {k : PyText}
    (hout : ∀ b ∈ scan.advisories, k ∉ b.aliasKeys) (known : OrderedDict PyText PyText) :
    (scan.refiled known).known.get k = known.get k :=
  get_foldl_names_of_notMem fun b hb => ⟨h.key_mem hb, hout b hb⟩

/-- The names of unrelated advisories leave what is known of one as it is. -/
theorem Refiling.pass (reported : List PyText) {advisories : List (Advisory PyText)}
    (h : Refiling a before done filed.known)
    (hkey : a.key ∈ a.aliasKeys)
    (hothers : ∀ b ∈ advisories, b.key ∈ b.aliasKeys ∧ ∀ k ∈ b.aliasKeys, k ∉ a.aliasKeys) :
    Refiling a before done (advisories.foldl
      (fun filed b => b.aliasKeys.foldl (fileUnder reported b.key) filed) filed).known :=
  h.congr hkey fun k hk => get_foldl_names_of_notMem fun b hb =>
    ⟨(hothers b hb).1, fun hkb => (hothers b hb).2 k hkb hk⟩

/-- **What is known of an advisory is the most severe of what it was filed at.** -/
theorem refiled_leastOf (h : Reported scan) (ha : a ∈ scan.advisories)
    (known : OrderedDict PyText PyText) :
    LeastOf (ratingsOf known a.aliasKeys) ((scan.refiled known).known.get a.key) := by
  obtain ⟨earlier, later, hsplit⟩ := List.append_of_mem ha
  have hothers : ∀ b ∈ earlier ++ later,
      b.key ∈ b.aliasKeys ∧ ∀ k ∈ b.aliasKeys, k ∉ a.aliasKeys := by
    intro b hb
    refine ⟨h.key_mem ?_, h.split hsplit b hb⟩
    rw [hsplit]
    simp only [List.mem_append, List.mem_cons] at hb ⊢
    tauto
  have hbegin : Refiling a known [] (Filed.mk known []).known := .start a known
  have hstart := hbegin.pass scan.reported (h.key_mem ha) fun b hb =>
    hothers b (List.mem_append_left later hb)
  have hown := hstart.names (fun k hk hne => h.not_reported ha hk hne) fun k hk => hk
  have hend := hown.pass scan.reported (h.key_mem ha) fun b hb =>
    hothers b (List.mem_append_right earlier hb)
  rw [refiled, hsplit, List.foldl_append, List.foldl_cons]
  refine hend.least.congr fun x => ?_
  rw [List.nil_append]
  simp only [mem_ratingsOf, List.mem_cons]
  constructor
  · rintro ⟨k, rfl | hk, hx⟩
    · exact ⟨a.key, h.key_mem ha, hx⟩
    · exact ⟨k, hk, hx⟩
  · rintro ⟨k, hk, hx⟩
    exact ⟨k, Or.inr hk, hx⟩

/-! ## 5. What a run records -/

theorem nodup_reported (h : Reported scan) : scan.reported.Nodup := by
  refine List.pairwise_map.mpr (h.apart.imp_of_mem ?_)
  intro a b ha hb hab heq
  exact h.keys_apart ha hb hab (h.key_mem ha) (heq ▸ h.key_mem hb)

/-- The advisories as items of a dictionary. -/
def ratings (scan : DependencySecurityScan) : List (PyText × PyText) :=
  scan.advisories.map fun a => (a.key, a.severity)

theorem nodup_ratings (h : Reported scan) : (scan.ratings.map Prod.fst).Nodup := by
  rw [ratings, List.map_map]
  exact nodup_reported h

/-- And as one. -/
def rated (h : Reported scan) : OrderedDict PyText PyText := ⟨scan.ratings, nodup_ratings h⟩

theorem get_current (h : Reported scan) (known : OrderedDict PyText PyText) (k : PyText) :
    (scan.current known).get k =
      ((rated h).get k).or (if scan.failing k then known.get k else none) := by
  have hset : scan.advisories.foldl (fun d a => d.set a.key a.severity) (scan.carried known) =
      scan.ratings.foldl (fun d item => d.set item.1 item.2) (scan.carried known) := by
    rw [ratings, List.foldl_map]
  rw [current, OrderedDict.get_sorted, hset, OrderedDict.get_foldl_set _ (nodup_ratings h),
    carried, OrderedDict.get_retain]
  rfl

theorem get_current_of_mem (h : Reported scan) (known : OrderedDict PyText PyText)
    (ha : a ∈ scan.advisories) : (scan.current known).get a.key = some a.severity := by
  have hitem : (a.key, a.severity) ∈ scan.ratings := List.mem_map.mpr ⟨a, ha, rfl⟩
  have hrated : (rated h).get a.key = some a.severity := OrderedDict.mem_items.mp hitem
  rw [get_current h, hrated, Option.some_or]

theorem get_current_of_notMem (h : Reported scan) (known : OrderedDict PyText PyText) {k : PyText}
    (hk : k ∉ scan.reported) :
    (scan.current known).get k = if scan.failing k then known.get k else none := by
  have hrated : (rated h).get k = none := by
    refine Option.eq_none_iff_forall_ne_some.mpr fun s hs => ?_
    obtain ⟨b, hb, heq⟩ := List.mem_map.mp (OrderedDict.mem_items.mpr hs)
    cases heq
    exact hk (List.mem_map_of_mem hb)
  rw [get_current h, hrated, Option.none_or]

/-- Each advisory is filed as it is rated, and the rest belongs to scanners that failed. -/
structure Settled (scan : DependencySecurityScan) (known : OrderedDict PyText PyText) : Prop where
  rated : ∀ a ∈ scan.advisories, known.get a.key = some a.severity
  rest : ∀ k, k ∉ scan.reported → ∀ s, known.get k = some s → scan.failing k = true

/-- **What a run records is settled**, whatever was known before. -/
theorem settled_current (h : Reported scan) (known : OrderedDict PyText PyText) :
    Settled scan (scan.current known) where
  rated _ ha := get_current_of_mem h known ha
  rest k hk s hs := by
    rw [get_current_of_notMem h known hk] at hs
    split at hs
    · next hfailing => exact hfailing
    · cases hs

theorem Settled.congr (h : Settled scan known) (hsame : ∀ k, known'.get k = known.get k) :
    Settled scan known' where
  rated a ha := (hsame a.key).trans (h.rated a ha)
  rest k hk s hs := h.rest k hk s ((hsame k).symm.trans hs)

/-- Nothing is filed under another name. -/
theorem Settled.refiled (hs : Settled scan known) (h : Reported scan) :
    scan.refiled known = ⟨known, []⟩ := by
  have hname : ∀ a ∈ scan.advisories, ∀ earlier ∈ a.aliasKeys,
      fileUnder scan.reported a.key ⟨known, []⟩ earlier = ⟨known, []⟩ := by
    intro a ha earlier hearlier
    unfold fileUnder
    split
    · next severity hget =>
      refine if_neg fun hcond => ?_
      have hfailing := hs.rest earlier hcond.2 severity hget
      rw [h.not_failing ha hearlier] at hfailing
      cases hfailing
    · rfl
  -- no name of any advisory moves the record, so neither fold does
  have hnames : ∀ a ∈ scan.advisories,
      a.aliasKeys.foldl (fileUnder scan.reported a.key) ⟨known, []⟩ = ⟨known, []⟩ := by
    intro a ha
    refine List.foldlRecOn (motive := (· = (⟨known, []⟩ : Filed))) _ _ rfl ?_
    rintro filed rfl earlier hearlier
    exact hname a ha earlier hearlier
  refine List.foldlRecOn (motive := (· = (⟨known, []⟩ : Filed))) _ _ rfl ?_
  rintro filed rfl a ha
  exact hnames a ha

/-- Nothing is new, rated otherwise, renamed or resolved. -/
structure Unchanged (scan : DependencySecurityScan) (filed : Filed) : Prop where
  added : scan.added filed.known = []
  rerated : scan.rerated filed.known = []
  resolved : scan.resolved filed.known = []
  renamed : filed.renamed = []

/-- **Of a settled record nothing has changed.** -/
theorem Settled.unchanged (hs : Settled scan known) (h : Reported scan) :
    Unchanged scan (scan.refiled known) := by
  rw [hs.refiled h]
  constructor
  · refine List.filter_eq_nil_iff.mpr fun a ha => ?_
    rw [hs.rated a ha]
    exact Bool.false_ne_true
  · refine List.filter_eq_nil_iff.mpr fun a ha => ?_
    rw [hs.rated a ha]
    simp
  · refine List.filter_eq_nil_iff.mpr fun k hk => ?_
    obtain ⟨s, hget⟩ := OrderedDict.mem_keys.mp hk
    have hsome : (scan.current known).get k ≠ none := by
      by_cases hmem : k ∈ scan.reported
      · obtain ⟨a, ha, rfl⟩ := List.mem_map.mp hmem
        rw [get_current_of_mem h known ha]
        exact Option.some_ne_none _
      · rw [get_current_of_notMem h known hmem, if_pos (hs.rest k hmem s hget), hget]
        exact Option.some_ne_none _
    simpa using hsome
  · rfl

/-- What a scanner that failed had found is carried forward: neither resolved nor dropped. -/
theorem carried_forward (h : Reported scan) {k s : PyText} (hk : scan.failing k = true)
    (hs : known.get k = some s) :
    k ∉ scan.resolved (scan.refiled known).known ∧
      (scan.current (scan.refiled known).known).get k = some s := by
  have hout : ∀ b ∈ scan.advisories, k ∉ b.aliasKeys := by
    intro b hb hkb
    rw [h.not_failing hb hkb] at hk
    cases hk
  have hunreported : k ∉ scan.reported := by
    intro hmem
    obtain ⟨b, hb, rfl⟩ := List.mem_map.mp hmem
    exact hout b hb (h.key_mem hb)
  have hcurrent : (scan.current (scan.refiled known).known).get k = some s := by
    rw [get_current_of_notMem h _ hunreported, if_pos hk, get_refiled_of_notMem h hout, hs]
  refine ⟨fun hmem => ?_, hcurrent⟩
  have hgone := (List.mem_filter.mp hmem).2
  rw [hcurrent] at hgone
  cases hgone

/-! ## 6. What is written can be read back -/

/-- A record of strings without a pair. -/
def Unsplit (known : OrderedDict PyText PyText) : Prop :=
  ∀ k s, known.get k = some s → Unpaired k ∧ Unpaired s

theorem unsplit_fileUnder {key : PyText} (hkey : Unpaired key) (h : Unsplit filed.known) :
    Unsplit (fileUnder reported key filed earlier).known := by
  unfold fileUnder
  split
  · next severity hget =>
    split
    · intro k s hs
      dsimp only at hs
      rw [OrderedDict.get_set] at hs
      split at hs
      · next heq =>
        rw [heq, ← Option.some.inj hs]
        refine ⟨hkey, ?_⟩
        unfold worse
        split
        · exact (h earlier severity hget).2
        · cases hold : (filed.known.del earlier).get key with
          | none => exact (h earlier severity hget).2
          | some old =>
            rw [OrderedDict.get_del] at hold
            split at hold
            · cases hold
            · exact (h key old hold).2
      · rw [OrderedDict.get_del] at hs
        split at hs
        · cases hs
        · exact h k s hs
    · exact h
  · exact h

theorem unsplit_refiled (h : Reported scan) (hknown : Unsplit known) :
    Unsplit (scan.refiled known).known := by
  refine List.foldlRecOn (motive := fun filed : Filed => Unsplit filed.known) _ _ hknown ?_
  intro filed hfiled a ha
  refine List.foldlRecOn (motive := fun filed : Filed => Unsplit filed.known) _ _ hfiled ?_
  intro filed hfiled earlier _
  exact unsplit_fileUnder (h.unpaired_key ha) hfiled

/-- **What a run records has no pair**, if what was recorded before has none. -/
theorem unsplit_current (h : Reported scan) (hknown : Unsplit known) :
    Unsplit (scan.current known) := by
  intro k s hs
  rw [get_current h] at hs
  cases hrated : (rated h).get k with
  | some severity =>
    rw [hrated, Option.some_or] at hs
    obtain ⟨a, ha, heq⟩ := List.mem_map.mp (OrderedDict.mem_items.mpr hrated)
    cases heq
    rw [← Option.some.inj hs]
    exact ⟨h.unpaired_key ha, (h.unpaired a ha).1⟩
  | none =>
    rw [hrated, Option.none_or] at hs
    split at hs
    · exact hknown k s hs
    · cases hs

/-! ## 7. What is announced -/

/-- Whether an advisory is new to the issue at its rating: it was filed under none of its names, or
was filed, at its most severe under any of them, below High. -/
def IsNews (known : OrderedDict PyText PyText) (a : Advisory PyText) : Prop :=
  ratingsOf known a.aliasKeys = [] ∨
    ∃ s, LeastBy rankOf (ratingsOf known a.aliasKeys) s ∧ rankOf (PyText.ofString "high") < rankOf s

/-- What is neither of the first two of the order is behind them. -/
theorem one_lt_rankOf {σ : Type} [DecidableEq σ] [Literal σ] {s : σ}
    (hcritical : s ≠ Literal.text "critical") (hhigh : s ≠ Literal.text "high") : 1 < rankOf s := by
  rw [rankOf, severityOrder, List.map_cons, List.map_cons, List.idxOf_cons_ne _ hcritical.symm,
    List.idxOf_cons_ne _ hhigh.symm]
  omega

/-- The ratings that do not page are those below High. -/
theorem not_paging_iff (s : PyText) :
    pagingSeverities.contains s = false ↔ rankOf (PyText.ofString "high") < rankOf s := by
  by_cases hcritical : s = PyText.ofString "critical"
  · rw [hcritical]
    decide
  · by_cases hhigh : s = PyText.ofString "high"
    · rw [hhigh]
      decide
    · have hcontains : pagingSeverities.contains s = false := by
        simp [pagingSeverities, hcritical, hhigh]
      have hrank : rankOf (PyText.ofString "high") = 1 := by decide
      simp only [hcontains, hrank, one_lt_rankOf hcritical hhigh]

/-- What is announced and pages is rated High or Critical and is news. -/
theorem announced_paging_iff (h : Reported scan) (known : OrderedDict PyText PyText) :
    (∃ a ∈ scan.added (scan.refiled known).known ++ scan.escalated (scan.refiled known).known,
      a.pages = true) ↔ ∃ a ∈ scan.advisories, a.pages = true ∧ IsNews known a := by
  constructor
  · rintro ⟨a, hmem, hpages⟩
    rcases List.mem_append.mp hmem with hadded | hescalated
    · obtain ⟨ha, hnone⟩ := List.mem_filter.mp hadded
      have hleast := refiled_leastOf h ha known
      rw [Option.isNone_iff_eq_none.mp hnone] at hleast
      exact ⟨a, ha, hpages, Or.inl hleast⟩
    · obtain ⟨hrerated, hbelow⟩ := List.mem_filter.mp hescalated
      obtain ⟨ha, hdiffers⟩ := List.mem_filter.mp hrerated
      have hleast := refiled_leastOf h ha known
      cases hget : (scan.refiled known).known.get a.key with
      | none =>
        rw [hget] at hdiffers
        cases hdiffers
      | some s =>
        rw [hget] at hleast hbelow
        rw [Option.getD_some, Bool.and_eq_true, Bool.not_eq_true'] at hbelow
        exact ⟨a, ha, hpages, Or.inr ⟨s, hleast, (not_paging_iff s).mp hbelow.2⟩⟩
  · rintro ⟨a, ha, hpages, hnews⟩
    refine ⟨a, ?_, hpages⟩
    have hleast := refiled_leastOf h ha known
    rw [List.mem_append]
    cases hget : (scan.refiled known).known.get a.key with
    | none => exact Or.inl (List.mem_filter.mpr ⟨ha, by rw [hget]; rfl⟩)
    | some s =>
      rw [hget] at hleast
      have hbelow : pagingSeverities.contains s = false := by
        rcases hnews with hnil | ⟨t, ht, hrank⟩
        · have hmem := hleast.1
          rw [hnil] at hmem
          cases hmem
        · exact (not_paging_iff s).mpr (hrank.trans_le (ht.2 s hleast.1))
      have hdiffers : s ≠ a.severity := by
        rintro rfl
        rw [Advisory.pages, hbelow] at hpages
        cases hpages
      refine Or.inr (List.mem_filter.mpr ⟨List.mem_filter.mpr ⟨ha, ?_⟩, ?_⟩)
      · rw [hget]
        simpa using hdiffers
      · rw [hget, hpages, Option.getD_some, hbelow]
        rfl

theorem pagingLabel_mem_labels (known : OrderedDict PyText PyText) :
    pagingLabel ∈ scan.labels known ↔
      ∃ a ∈ scan.added known ++ scan.escalated known, a.pages = true := by
  unfold labels
  dsimp only
  split
  · next hempty =>
    rw [List.isEmpty_iff.mp hempty]
    simp
  · rw [List.mem_singleton, labelFor, ← List.any_eq_true]
    split
    · next hany => simp [hany]
    · next hany =>
      have hlabels : pagingLabel ≠ inboxLabel := by decide
      simp [hany, hlabels]

end DependencySecurityScan

end BasecradleRouter.SecurityScan
