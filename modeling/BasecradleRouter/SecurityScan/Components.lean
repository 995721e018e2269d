/-
# What is merged is one problem

The advisories a report comes to are the connected components of its groups, two groups being
related if they are on one package and share a name.  Each carries the preferred one of its
groups' names, their most severe rating and all of their aliases (`Summarises`).

`parse_components`: this holds of every report the scan can read, and the order of its results,
packages and groups makes no difference.
-/
import BasecradleRouter.Lib.Least
import BasecradleRouter.SecurityScan
import Mathlib.Data.Prod.Lex
import Mathlib.Data.String.Basic

namespace BasecradleRouter.SecurityScan

open BasecradleRouter.Lib BasecradleRouter.Lib.Merging

/-! ## 1. Names and ratings -/

/-- How a name is preferred: GitHub's, then PyPA's, then the others. -/
def nameClass (name : String) : ℕ :=
  if startsWith name "GHSA-" then 0 else if startsWith name "PYSEC-" then 1 else 2

/-- Within a class, as it sorts. -/
def nameRank (name : String) : ℕ ×ₗ String := toLex (nameClass name, name)

theorem nameRank_inj {x y : String} (h : nameRank x = nameRank y) : x = y :=
  congrArg (fun p : ℕ ×ₗ String => (ofLex p).2) h

theorem nameRank_le {x y : String} : nameRank x ≤ nameRank y ↔
    nameClass x < nameClass y ∨ nameClass x = nameClass y ∧ x ≤ y := Prod.Lex.toLex_le_toLex

theorem least_leastBy {texts : List String} (hne : texts ≠ []) :
    LeastBy id texts (least texts) := by
  obtain ⟨x, hx⟩ : ∃ x, texts.argmin id = some x := exists_argmin hne
  rw [least, hx, Option.getD_some]
  exact .of_argmin hx

/-- The least of a class is preferred, where no class before it has a name. -/
theorem leastBy_class {ids : List String} {p : String → Bool} (hsome : ids.any p = true)
    {n : ℕ} (hclass : ∀ x ∈ ids, (p x = true → nameClass x = n) ∧
      (p x = false → n < nameClass x)) : LeastBy nameRank ids (least (ids.filter p)) := by
  obtain ⟨w, hw, hpw⟩ := List.any_eq_true.mp hsome
  have hleast := least_leastBy (List.ne_nil_of_mem (List.mem_filter.mpr ⟨hw, hpw⟩))
  obtain ⟨hmem, hp⟩ := List.mem_filter.mp hleast.1
  refine ⟨hmem, fun y hy => nameRank_le.mpr ?_⟩
  rw [(hclass _ hmem).1 hp]
  cases hpy : p y with
  | true => exact Or.inr ⟨((hclass y hy).1 hpy).symm, hleast.2 y (List.mem_filter.mpr ⟨hy, hpy⟩)⟩
  | false => exact Or.inl ((hclass y hy).2 hpy)

/-- The preferred name is the least by that rank. -/
theorem primaryId_leastBy {ids : List String} (hne : ids ≠ []) :
    LeastBy nameRank ids (primaryId ids) := by
  unfold primaryId
  cases hghsa : ids.any (startsWith · "GHSA-") with
  | true =>
    have hfind : (prefixes.find? fun start => ids.any (startsWith · start)) = some "GHSA-" :=
      List.find?_cons_of_pos hghsa
    rw [hfind]
    refine leastBy_class hghsa (n := 0) fun x _ => ⟨fun hx => ?_, fun hx => ?_⟩
    · rw [nameClass, if_pos hx]
    · rw [nameClass, if_neg (by simp [hx])]
      split <;> decide
  | false =>
    have hnone : ∀ x ∈ ids, startsWith x "GHSA-" = false := by simpa using hghsa
    cases hpysec : ids.any (startsWith · "PYSEC-") with
    | true =>
      have hfind : (prefixes.find? fun start => ids.any (startsWith · start)) = some "PYSEC-" :=
        (List.find?_cons_of_neg (by simp [hghsa])).trans (List.find?_cons_of_pos hpysec)
      rw [hfind]
      refine leastBy_class hpysec (n := 1) fun x hx => ⟨fun hp => ?_, fun hp => ?_⟩
      · rw [nameClass, if_neg (by simp [hnone x hx]), if_pos hp]
      · rw [nameClass, if_neg (by simp [hnone x hx]), if_neg (by simp [hp])]
        decide
    | false =>
      have hnone' : ∀ x ∈ ids, startsWith x "PYSEC-" = false := by simpa using hpysec
      have hfind : (prefixes.find? fun start => ids.any (startsWith · start)) = none := by
        rw [prefixes, List.find?_cons_of_neg (by simp [hghsa]),
          List.find?_cons_of_neg (by simp [hpysec]), List.find?_nil]
      have hclass : ∀ x ∈ ids, nameClass x = 2 := fun x hx => by
        rw [nameClass, if_neg (by simp [hnone x hx]), if_neg (by simp [hnone' x hx])]
      have hleast := least_leastBy hne
      rw [hfind]
      refine ⟨hleast.1, fun y hy => nameRank_le.mpr (Or.inr ⟨?_, hleast.2 y hy⟩)⟩
      rw [hclass _ hleast.1, hclass y hy]

/-- The scan's own ratings are told apart by their rank. -/
theorem rankOf_inj : ∀ x ∈ severityOrder, ∀ y ∈ severityOrder, rankOf x = rankOf y → x = y := by
  decide

/-! ## 2. Related, merged -/

theorem related_iff {a b : Advisory} : related a b = true ↔
    a.ecosystem = b.ecosystem ∧ a.package = b.package ∧ ∃ name ∈ a.aliases, name ∈ b.aliases := by
  simp [related, and_assoc]

theorem mem_aliases_merged {s a : Advisory} {name : String} :
    name ∈ (merged s a).aliases ↔ name ∈ s.aliases ∨ name ∈ a.aliases := by
  simp [merged]

/-- The name of a merged advisory is the preferred one of the two. -/
theorem id_merged (s a : Advisory) : (merged s a).id = primaryId [s.id, a.id] := by
  have hmem := (primaryId_leastBy (List.cons_ne_nil s.id [a.id])).1
  unfold merged
  dsimp only
  split
  · next h => exact h.symm
  · next h =>
    simp only [List.mem_cons, List.not_mem_nil, or_false] at hmem
    exact (hmem.resolve_left h).symm

/-- What is merged is on the package both are on. -/
theorem package_merged {s a : Advisory} (h : related s a = true) :
    (merged s a).ecosystem = a.ecosystem ∧ (merged s a).package = a.package := by
  obtain ⟨hecosystem, hpackage, -⟩ := related_iff.mp h
  unfold merged
  dsimp only
  split
  · exact ⟨hecosystem, hpackage⟩
  · exact ⟨rfl, rfl⟩

theorem absorbs : Absorbs related merged where
  symm {a b} h := by
    obtain ⟨hecosystem, hpackage, name, ha, hb⟩ := related_iff.mp h
    exact related_iff.mpr ⟨hecosystem.symm, hpackage.symm, name, hb, ha⟩
  merged {s a} h x := by
    obtain ⟨hecosystem, hpackage⟩ := package_merged h
    obtain ⟨hsa, hsa', -⟩ := related_iff.mp h
    rw [related_iff, related_iff, related_iff, hecosystem, hpackage, hsa, hsa']
    simp only [mem_aliases_merged]
    constructor
    · rintro ⟨hx, hx', name, hname, hs | ha⟩
      · exact Or.inl ⟨hx, hx', name, hname, hs⟩
      · exact Or.inr ⟨hx, hx', name, hname, ha⟩
    · rintro (⟨hx, hx', name, hname, hs⟩ | ⟨hx, hx', name, hname, ha⟩)
      · exact ⟨hx, hx', name, hname, Or.inl hs⟩
      · exact ⟨hx, hx', name, hname, Or.inr ha⟩

/-! ## 3. What an advisory carries -/

/-- An advisory as one group comes to it. -/
structure OfGroup (a : Advisory) : Prop where
  named : a.aliases ≠ []
  sorted : a.aliases = PyStr.sorted a.aliases.toFinset
  rated : a.severity ∈ severityOrder

/-- An advisory carries what its groups come to. -/
structure Summarises (a : Advisory) (groups : List Advisory) : Prop where
  ecosystem : ∀ g ∈ groups, g.ecosystem = a.ecosystem
  package : ∀ g ∈ groups, g.package = a.package
  id : a.id = primaryId (groups.map Advisory.id)
  severity : mostSevere (groups.map Advisory.severity) = some a.severity
  aliases : a.aliases = PyStr.sorted (groups.flatMap Advisory.aliases).toFinset

theorem leastBy_pair (s a : String) :
    LeastBy rankOf [s, a] (if rankOf a < rankOf s then a else s) := by
  split
  · next h =>
    refine ⟨by simp, fun y hy => ?_⟩
    simp only [List.mem_cons, List.not_mem_nil, or_false] at hy
    rcases hy with rfl | rfl
    · exact h.le
    · exact le_refl _
  · next h =>
    refine ⟨by simp, fun y hy => ?_⟩
    simp only [List.mem_cons, List.not_mem_nil, or_false] at hy
    rcases hy with rfl | rfl
    · exact le_refl _
    · exact not_lt.mp h

theorem severity_merged (s a : Advisory) : (merged s a).severity =
    if rankOf a.severity < rankOf s.severity then a.severity else s.severity := rfl

/-- What an advisory is built from is what it carries. -/
theorem summarises_of_built {a : Advisory} {groups : List Advisory}
    (h : Built related merged a groups) (hgroups : ∀ g ∈ groups, OfGroup g) :
    Summarises a groups := by
  have hcarried : groups ≠ [] ∧ (∀ g ∈ groups, g.ecosystem = a.ecosystem ∧ g.package = a.package) ∧
      LeastBy nameRank (groups.map Advisory.id) a.id ∧
      LeastBy rankOf (groups.map Advisory.severity) a.severity ∧
      (∀ name, name ∈ a.aliases ↔ ∃ g ∈ groups, name ∈ g.aliases) ∧
      a.aliases = PyStr.sorted a.aliases.toFinset := by
    induction h with
    | one a =>
      have ha := hgroups a (List.mem_singleton_self a)
      simpa [LeastBy] using ha.sorted
    | @merge s a g g' hrelated _ _ ihs iha =>
      obtain ⟨hne, hpackage, hid, hseverity, haliases, -⟩ := ihs fun x hx =>
        hgroups x (List.mem_append_left g' hx)
      obtain ⟨-, hpackage', hid', hseverity', haliases', -⟩ := iha fun x hx =>
        hgroups x (List.mem_append_right g hx)
      obtain ⟨hecosystem, hpack⟩ := package_merged hrelated
      obtain ⟨hsa, hsa', -⟩ := related_iff.mp hrelated
      refine ⟨by simp [hne], ?_, ?_, ?_, ?_, ?_⟩
      · intro x hx
        rw [hecosystem, hpack]
        rcases List.mem_append.mp hx with hx | hx
        · rw [← hsa, ← hsa']
          exact hpackage x hx
        · exact hpackage' x hx
      · rw [List.map_append, id_merged]
        exact hid.append hid' (primaryId_leastBy (List.cons_ne_nil _ _))
      · rw [List.map_append, severity_merged]
        exact hseverity.append hseverity' (leastBy_pair _ _)
      · intro name
        rw [mem_aliases_merged, haliases, haliases']
        simp only [List.mem_append, or_and_right, exists_or]
      · have hmerged : (merged s a).aliases = PyStr.sorted (s.aliases ++ a.aliases).toFinset := rfl
        refine hmerged.trans (congrArg PyStr.sorted ?_)
        ext name
        rw [List.mem_toFinset, List.mem_toFinset, mem_aliases_merged, List.mem_append]
  obtain ⟨hne, hpackage, hid, hseverity, haliases, hsorted⟩ := hcarried
  have hmap : groups.map Advisory.severity ≠ [] := by simpa using hne
  have hrated : ∀ x ∈ groups.map Advisory.severity, x ∈ severityOrder := by
    intro x hx
    obtain ⟨g, hg, rfl⟩ := List.mem_map.mp hx
    exact (hgroups g hg).rated
  refine ⟨fun g hg => (hpackage g hg).1, fun g hg => (hpackage g hg).2, ?_, ?_, ?_⟩
  · exact hid.unique (fun _ _ _ _ => nameRank_inj) (primaryId_leastBy (by simpa using hne))
  · obtain ⟨worst, hworst⟩ : ∃ worst, (groups.map Advisory.severity).argmin rankOf = some worst :=
      exists_argmin hmap
    have hsame := (LeastBy.of_argmin hworst).unique
      (fun x hx y hy => rankOf_inj x (hrated x hx) y (hrated y hy)) hseverity
    rw [mostSevere, hworst, hsame]
  · rw [hsorted]
    refine congrArg PyStr.sorted ?_
    ext name
    rw [List.mem_toFinset, List.mem_toFinset, haliases, List.mem_flatMap]

/-- What the order of a report leaves alone. -/
def Advisory.brief (a : Advisory) : String × String × String × String × List String :=
  (a.ecosystem, a.package, a.id, a.severity, a.aliases)

/-- The same groups come to the same advisory. -/
theorem brief_eq {a a' : Advisory} {groups groups' : List Advisory} (h : Summarises a groups)
    (h' : Summarises a' groups') (hne : groups ≠ []) (hgroups : ∀ g ∈ groups, OfGroup g)
    (hmem : ∀ g, g ∈ groups ↔ g ∈ groups') : a.brief = a'.brief := by
  obtain ⟨g, hg⟩ := List.exists_mem_of_ne_nil groups hne
  have hg' := (hmem g).mp hg
  have hmap : ∀ (f : Advisory → String) (x : String), x ∈ groups.map f ↔ x ∈ groups'.map f := by
    intro f x
    simp only [List.mem_map, hmem]
  have hid : a.id = a'.id := by
    have hleast : LeastBy nameRank (groups.map Advisory.id) (primaryId (groups.map Advisory.id)) :=
      primaryId_leastBy (by simpa using hne)
    have hleast' : LeastBy nameRank (groups'.map Advisory.id)
        (primaryId (groups'.map Advisory.id)) :=
      primaryId_leastBy (List.ne_nil_of_mem (List.mem_map.mpr ⟨g, hg', rfl⟩))
    rw [h.id, h'.id]
    exact (hleast.congr (hmap Advisory.id)).unique (fun _ _ _ _ => nameRank_inj) hleast'
  have hseverity : a.severity = a'.severity := by
    have hleast := (LeastBy.of_argmin h.severity).congr (hmap Advisory.severity)
    refine hleast.unique (fun x hx y hy => ?_) (LeastBy.of_argmin h'.severity)
    have hrated : ∀ x ∈ groups'.map Advisory.severity, x ∈ severityOrder := by
      intro x hx
      obtain ⟨g, hg, rfl⟩ := List.mem_map.mp hx
      exact (hgroups g ((hmem g).mpr hg)).rated
    exact rankOf_inj x (hrated x hx) y (hrated y hy)
  have haliases : a.aliases = a'.aliases := by
    rw [h.aliases, h'.aliases]
    refine congrArg PyStr.sorted ?_
    ext name
    simp only [List.mem_toFinset, List.mem_flatMap, hmem]
  simp only [Advisory.brief, ← h.ecosystem g hg, ← h'.ecosystem g hg', ← h.package g hg,
    ← h'.package g hg', hid, hseverity, haliases]

/-! ## 4. The groups of a report -/

section

variable (py : Interp)

/-- The advisories of a result's groups. -/
def resultGroups (result : Fields) : Except Failure (List Advisory) := do
  let entries ← listOfDicts (packagesOf py result)
  (entries.mapM (advisoriesIn py)).map List.flatten

/-- The advisories of a report's groups, none of them merged. -/
def groupsOf (results : List Fields) : Except Failure (List Advisory) :=
  (results.mapM (resultGroups py)).map List.flatten

/-- A report that can be read, with its results and the advisories of its groups. -/
structure Reads (output : String) (results : List Fields) (found : List Advisory) : Prop where
  loaded : (loaded py output).toOption.bind resultsOf = some results
  read : groupsOf py results = .ok found

variable {py}

/-- A report that can be read comes to its groups, absorbed one after another. -/
theorem parse_eq {output : String} {results : List Fields} {found : List Advisory}
    (h : Reads py output results found) (status : ℤ)
    (hstatus : (status = 0 ∧ found.foldl (absorb related merged) [] = []) ∨
      (status = 1 ∧ found.foldl (absorb related merged) [] ≠ [])) :
    parseOsvScanner py output status = .ok (found.foldl (absorb related merged) []) := by
  obtain ⟨report, hreport, hresults⟩ := Option.bind_eq_some_iff.mp h.loaded
  rw [toOption_eq_some] at hreport
  obtain ⟨groups, hgroups, rfl⟩ := map_eq_ok.mp h.read
  have hturn : ∀ (advisories : List Advisory) (result : Fields),
      (do
        let entries ← listOfDicts (packagesOf py result)
        entries.foldlM (fun advisories entry => do
          let new ← advisoriesIn py entry
          pure (new.foldl (absorb related merged) advisories)) advisories) =
        (resultGroups py result).map fun new => new.foldl (absorb related merged) advisories := by
    intro advisories result
    unfold resultGroups
    cases listOfDicts (packagesOf py result) with
    | error e => rfl
    | ok entries =>
      have hinner : (fun (advisories : List Advisory) entry => do
          let new ← advisoriesIn py entry
          pure (new.foldl (absorb related merged) advisories)) = fun advisories entry =>
            (advisoriesIn py entry).map fun new =>
              new.foldl (absorb related merged) advisories := by
        funext advisories entry
        cases advisoriesIn py entry with
        | error e => rfl
        | ok new => rfl
      show entries.foldlM _ advisories = _
      rw [hinner, foldlM_foldl]
      show _ = Except.map _ (Except.map List.flatten (entries.mapM (advisoriesIn py)))
      cases entries.mapM (advisoriesIn py) with
      | error e => rfl
      | ok news => rfl
  unfold parseOsvScanner
  rw [hreport]
  dsimp only
  rw [hresults]
  dsimp only
  simp only [hturn]
  rw [foldlM_foldl, hgroups]
  exact if_pos hstatus

theorem severityOf_mem (maxSeverity : Json) (records : List Fields) :
    severityOf py maxSeverity records ∈ severityOrder := by
  unfold severityOf
  dsimp only
  cases hworst : mostSevere _ with
  | none => decide
  | some worst =>
    rw [Option.getD_some]
    rcases List.mem_append.mp (List.argmin_mem hworst) with hscore | hrecord
    · obtain ⟨score, -, rfl⟩ := Option.map_eq_some_iff.mp (Option.mem_toList.mp hscore)
      unfold cvssRating
      split
      · decide
      · split
        · decide
        · split
          · decide
          · split <;> decide
    · obtain ⟨record, -, hrating⟩ := List.mem_filterMap.mp hrecord
      obtain ⟨rating, -, hrating⟩ := Option.bind_eq_some_iff.mp hrating
      split at hrating
      · next hghsa =>
        cases hrating
        exact (by decide : ∀ x ∈ ghsaSeverities, x ∈ severityOrder) _
          (List.contains_iff_mem.mp hghsa)
      · cases hrating

theorem ofGroup_of_ok {package version : String} {records : List Fields} {group : Json}
    {a : Advisory} (h : groupAdvisory py package version records group = .ok a) : OfGroup a := by
  unfold groupAdvisory at h
  split at h
  · cases h
  · next ids hids =>
    cases h
    have hne : ids ≠ [] := by
      have hfilled := (Option.filter_eq_some_iff.mp hids).2
      simpa using hfilled
    obtain ⟨i, hi⟩ := List.exists_mem_of_ne_nil ids hne
    refine ⟨?_, ?_, severityOf_mem _ _⟩
    · have hmem : i ∈ (ids ++ (((group.asObj.getD []).get "aliases").asArr.getD []).filterMap
          filledText).toFinset := List.mem_toFinset.mpr (List.mem_append_left _ hi)
      exact List.ne_nil_of_mem (PyStr.mem_sorted.mpr hmem)
    · dsimp only
      refine congrArg PyStr.sorted ?_
      ext name
      rw [List.mem_toFinset, List.mem_toFinset, PyStr.mem_sorted, List.mem_toFinset]

theorem ofGroup_of_mem {results : List Fields} {found : List Advisory}
    (h : groupsOf py results = .ok found) : ∀ a ∈ found, OfGroup a := by
  intro a ha
  obtain ⟨groups, hgroups, rfl⟩ := map_eq_ok.mp h
  obtain ⟨group, hgroup, ha⟩ := List.mem_flatten.mp ha
  obtain ⟨result, -, hresult⟩ := mem_made hgroups hgroup
  obtain ⟨entries, -, hentries⟩ := bind_eq_ok.mp hresult
  obtain ⟨news, hnews, rfl⟩ := map_eq_ok.mp hentries
  obtain ⟨new, hnew, ha⟩ := List.mem_flatten.mp ha
  obtain ⟨entry, -, hentry⟩ := mem_made hnews hnew
  unfold advisoriesIn at hentry
  split at hentry
  · cases hentry
  · obtain ⟨dicts, -, hentry⟩ := bind_eq_ok.mp hentry
    obtain ⟨-, -, hentry⟩ := bind_eq_ok.mp hentry
    obtain ⟨json, -, hjson⟩ := mem_made hentry ha
    exact ofGroup_of_ok hjson

/-! ## 5. The order of a report -/

/-- An entry with its groups in another order. -/
structure GroupsReordered (entry entry' : Fields) : Prop where
  package : entry'.get "package" = entry.get "package"
  records : entry'.lookup "vulnerabilities" = entry.lookup "vulnerabilities"
  groups : ∃ groups groups', (entry.lookup "groups").getD (.arr []) = .arr groups ∧
    (entry'.lookup "groups").getD (.arr []) = .arr groups' ∧ groups.Perm groups'

/-- A result with its packages, and their groups, in another order. -/
def PackagesReordered (py : Interp) (result result' : Fields) : Prop :=
  ∃ entries entries', listOfDicts (packagesOf py result) = .ok entries ∧
    listOfDicts (packagesOf py result') = .ok entries' ∧ Rearranged GroupsReordered entries entries'

/-- A report with its results, their packages and their groups in another order. -/
def Reordered (py : Interp) : List Fields → List Fields → Prop :=
  Rearranged (PackagesReordered py)

theorem advisoriesIn_reordered {entry entry' : Fields} {new : List Advisory}
    (h : GroupsReordered entry entry') (hnew : advisoriesIn py entry = .ok new) :
    ∃ new', advisoriesIn py entry' = .ok new' ∧ new.Perm new' := by
  obtain ⟨groups, groups', hgroups, hgroups', hperm⟩ := h.groups
  unfold advisoriesIn at hnew
  split at hnew
  · cases hnew
  · next name version groups₁ records hread =>
    have hread' : groups₁ = groups ∧
        readEntry entry' = some (name, version, groups', records) := by
      have hempty : groups'.isEmpty = groups.isEmpty := by
        rw [Bool.eq_iff_iff, List.isEmpty_iff, List.isEmpty_iff]
        exact ⟨fun h => (h ▸ hperm).eq_nil, fun h => (h ▸ hperm).symm.eq_nil⟩
      unfold readEntry at hread ⊢
      rw [h.package, h.records, hgroups']
      rw [hgroups] at hread
      simp only [Option.bind_eq_bind, Option.bind_eq_some_iff, Json.asArr] at hread ⊢
      obtain ⟨package, hpackage, name', hname, version', hversion, groups₂, hsome, records',
        hrecords, hif⟩ := hread
      cases hsome
      split at hif
      · cases hif
      · next hok =>
        cases hif
        refine ⟨rfl, package, hpackage, name, hname, version, hversion, groups', rfl, records,
          hrecords, ?_⟩
        rw [if_neg (by rw [hempty]; exact hok)]
    obtain ⟨rfl, hread'⟩ := hread'
    obtain ⟨dicts, hdicts, hnew⟩ := bind_eq_ok.mp hnew
    obtain ⟨u, hhash, hnew⟩ := bind_eq_ok.mp hnew
    obtain ⟨new', hnew', hperm'⟩ := mapM_perm hperm hnew
    refine ⟨new', ?_, hperm'⟩
    unfold advisoriesIn
    rw [hread']
    exact bind_eq_ok.mpr ⟨dicts, hdicts, bind_eq_ok.mpr ⟨u, hhash, hnew'⟩⟩

theorem resultGroups_reordered {result result' : Fields} {new : List Advisory}
    (h : PackagesReordered py result result') (hnew : resultGroups py result = .ok new) :
    ∃ new', resultGroups py result' = .ok new' ∧ new.Perm new' := by
  obtain ⟨entries, entries', hentries, hentries', hrearranged⟩ := h
  unfold resultGroups at hnew ⊢
  rw [hentries] at hnew
  rw [hentries']
  obtain ⟨news, hnews, rfl⟩ := map_eq_ok.mp hnew
  obtain ⟨news', hnews', hperm⟩ :=
    mapM_rearranged (fun _ _ _ h hnew => advisoriesIn_reordered h hnew) hrearranged hnews
  exact ⟨_, map_eq_ok.mpr ⟨news', hnews', rfl⟩, hperm⟩

theorem groupsOf_reordered {results results' : List Fields} {found : List Advisory}
    (h : Reordered py results results') (hfound : groupsOf py results = .ok found) :
    ∃ found', groupsOf py results' = .ok found' ∧ found.Perm found' := by
  obtain ⟨news, hnews, rfl⟩ := map_eq_ok.mp hfound
  obtain ⟨news', hnews', hperm⟩ :=
    mapM_rearranged (fun _ _ _ h hnew => resultGroups_reordered h hnew) h hnews
  exact ⟨_, map_eq_ok.mpr ⟨news', hnews', rfl⟩, hperm⟩

end

/-! ## 6. The advisories -/

/-- What the loop keeps of a report's groups. -/
theorem components_of_groups {found : List Advisory} (hgroups : ∀ a ∈ found, OfGroup a) :
    ∃ components, IsComponents related found components ∧
      List.Forall₂ Summarises (found.foldl (absorb related merged) []) components ∧
      (found.foldl (absorb related merged) []).Pairwise fun a b => related a b = false := by
  have hself : ∀ a ∈ found, related a a = true := by
    intro a ha
    obtain ⟨name, hname⟩ := List.exists_mem_of_ne_nil _ (hgroups a ha).named
    exact related_iff.mpr ⟨rfl, rfl, name, hname, hname⟩
  obtain ⟨parts, hparts, hkeeps, hcomponents⟩ := components_foldl absorbs found hself
  refine ⟨parts.map Prod.snd, hcomponents, ?_, ?_⟩
  · rw [← hparts, List.forall₂_map_left_iff, List.forall₂_map_right_iff, List.forall₂_same]
    intro p hp
    refine summarises_of_built (hkeeps.built p hp) fun g hg => hgroups g ?_
    exact hcomponents.mem_found (List.mem_map.mpr ⟨p, hp, rfl⟩) hg
  · rw [← hparts, List.pairwise_map]
    exact hkeeps.unrelated

/-- Each advisory's component, and each component's advisory. -/
theorem mem_of_forall₂ {α β : Type} {R : α → β → Prop} {l : List α} {l' : List β}
    (h : List.Forall₂ R l l') : (∀ a ∈ l, ∃ b ∈ l', R a b) ∧ ∀ b ∈ l', ∃ a ∈ l, R a b := by
  induction h with
  | nil => simp
  | cons hab _ ih =>
    refine ⟨?_, ?_⟩
    · rw [List.forall_mem_cons]
      exact ⟨⟨_, List.mem_cons_self, hab⟩, fun a ha =>
        (ih.1 a ha).imp fun b hb => ⟨List.mem_cons_of_mem _ hb.1, hb.2⟩⟩
    · rw [List.forall_mem_cons]
      exact ⟨⟨_, List.mem_cons_self, hab⟩, fun b hb =>
        (ih.2 b hb).imp fun a ha => ⟨List.mem_cons_of_mem _ ha.1, ha.2⟩⟩

/-- What is kept of some groups is kept of them in any order. -/
theorem brief_subset {found found' : List Advisory} (hgroups : ∀ a ∈ found, OfGroup a)
    (hperm : found.Perm found') :
    ∀ b ∈ (found.foldl (absorb related merged) []).map Advisory.brief,
      b ∈ (found'.foldl (absorb related merged) []).map Advisory.brief := by
  have hgroups' : ∀ a ∈ found', OfGroup a := fun a ha => hgroups a (hperm.mem_iff.mpr ha)
  obtain ⟨components, hcomponents, hsummary, -⟩ := components_of_groups hgroups
  obtain ⟨components', hcomponents', hsummary', -⟩ := components_of_groups hgroups'
  intro b hb
  obtain ⟨a, ha, rfl⟩ := List.mem_map.mp hb
  obtain ⟨c, hc, hac⟩ := (mem_of_forall₂ hsummary).1 a ha
  obtain ⟨c', hc', hmem⟩ :=
    hcomponents.same absorbs.symm hcomponents' (fun x => hperm.mem_iff) hc
  obtain ⟨a', ha', hac'⟩ := (mem_of_forall₂ hsummary').2 c' hc'
  rw [brief_eq hac hac' (hcomponents.connected c hc).1
    (fun g hg => hgroups g (hcomponents.mem_found hc hg)) hmem]
  exact List.mem_map.mpr ⟨a', ha', rfl⟩

theorem nodup_brief {found : List Advisory} (hgroups : ∀ a ∈ found, OfGroup a) :
    ((found.foldl (absorb related merged) []).map Advisory.brief).Nodup := by
  obtain ⟨components, hcomponents, hsummary, hunrelated⟩ := components_of_groups hgroups
  rw [List.Nodup, List.pairwise_map]
  refine hunrelated.imp_of_mem fun {a b} ha _ hab heq => ?_
  simp only [Advisory.brief, Prod.mk.injEq] at heq
  obtain ⟨hecosystem, hpackage, -, -, haliases⟩ := heq
  obtain ⟨c, hc, hac⟩ := (mem_of_forall₂ hsummary).1 a ha
  obtain ⟨g, hg⟩ := List.exists_mem_of_ne_nil c (hcomponents.connected c hc).1
  obtain ⟨name, hname⟩ :=
    List.exists_mem_of_ne_nil _ (hgroups g (hcomponents.mem_found hc hg)).named
  have hmem : name ∈ a.aliases := by
    rw [hac.aliases, PyStr.mem_sorted, List.mem_toFinset, List.mem_flatMap]
    exact ⟨g, hg, hname⟩
  have hrelated : related a b = true :=
    related_iff.mpr ⟨hecosystem, hpackage, name, hmem, haliases ▸ hmem⟩
  rw [hrelated] at hab
  cases hab

/-- Something is kept exactly if something was found. -/
theorem foldl_absorb_eq_nil {found : List Advisory} (hgroups : ∀ a ∈ found, OfGroup a) :
    found.foldl (absorb related merged) [] = [] ↔ found = [] := by
  obtain ⟨components, hcomponents, hsummary, -⟩ := components_of_groups hgroups
  constructor
  · intro hnil
    rw [hnil] at hsummary
    cases hsummary
    exact List.perm_nil.mp hcomponents.perm.symm
  · rintro rfl
    rfl

/-- The exit status of a scanner that found these. -/
def statusOf (found : List Advisory) : ℤ := if found = [] then 0 else 1

theorem parse_ok {py : Interp} {output : String} {results : List Fields} {found : List Advisory}
    (h : Reads py output results found) : parseOsvScanner py output (statusOf found) =
      .ok (found.foldl (absorb related merged) []) := by
  have hnil := foldl_absorb_eq_nil (ofGroup_of_mem h.read)
  refine parse_eq h _ ?_
  unfold statusOf
  split
  · next hempty => exact Or.inl ⟨rfl, hnil.mpr hempty⟩
  · next hfound => exact Or.inr ⟨rfl, fun hkept => hfound (hnil.mp hkept)⟩

/-- **What a report comes to is the connected components of its groups.**  Each advisory carries
what its component's groups come to, no two are related, and none of it depends on the order of the
report. -/
theorem parse_components (py : Interp) (output : String) (results : List Fields)
    (found : List Advisory) (h : Reads py output results found) :
    ∃ advisories components, parseOsvScanner py output (statusOf found) = .ok advisories ∧
      IsComponents related found components ∧
      List.Forall₂ Summarises advisories components ∧
      advisories.Pairwise (fun a b => related a b = false) ∧
      ∀ output' results', (loaded py output').toOption.bind resultsOf = some results' →
        Reordered py results results' →
          ∃ advisories', parseOsvScanner py output' (statusOf found) = .ok advisories' ∧
            (advisories.map Advisory.brief).Perm (advisories'.map Advisory.brief) := by
  have hgroups := ofGroup_of_mem h.read
  obtain ⟨components, hcomponents, hsummary, hunrelated⟩ := components_of_groups hgroups
  refine ⟨_, components, parse_ok h, hcomponents, hsummary, hunrelated, ?_⟩
  intro output' results' hloaded hreordered
  obtain ⟨found', hfound', hperm⟩ := groupsOf_reordered hreordered h.read
  have hgroups' : ∀ a ∈ found', OfGroup a := fun a ha => hgroups a (hperm.mem_iff.mpr ha)
  have hstatus : statusOf found = statusOf found' := by
    have hnil : found = [] ↔ found' = [] :=
      ⟨fun hnil => (hnil ▸ hperm).symm.eq_nil, fun hnil => (hnil ▸ hperm).eq_nil⟩
    simp only [statusOf, hnil]
  refine ⟨_, hstatus ▸ parse_ok ⟨hloaded, hfound'⟩, ?_⟩
  refine (List.perm_ext_iff_of_nodup (nodup_brief hgroups) (nodup_brief hgroups')).mpr fun b => ?_
  exact ⟨brief_subset hgroups hperm b, brief_subset hgroups' hperm.symm b⟩

/-- A package with two groups, the second linked to the first by a name. -/
def linkedReport : String :=
  String.ofList (JsonCodec.dumps JsonString.escape (.obj [("results", .arr [.obj [("packages", .arr
    [.obj
      [("package", .obj [("name", .str "anyio"), ("version", .str "4.0")]),
        ("groups", .arr
          [.obj [("ids", .arr [.str "PYSEC-1"])],
            .obj [("ids", .arr [.str "GHSA-a"]), ("aliases", .arr [.str "PYSEC-1"])]])]])]])]))

theorem parse_components_linked : ∃ results found advisories,
    Reads .ascii linkedReport results found ∧
      parseOsvScanner .ascii linkedReport (statusOf found) = .ok advisories ∧
      advisories.Pairwise fun a b => related a b = false := by
  have hread : ((loaded .ascii linkedReport).toOption.bind resultsOf).any
      (fun results => (groupsOf .ascii results).isOk) = true := by
    decide +kernel
  obtain ⟨results, hresults, hok⟩ := (Option.any_eq_true _ _).mp hread
  cases hfound : groupsOf .ascii results with
  | error e =>
    rw [hfound] at hok
    cases hok
  | ok found =>
    have hreads : Reads .ascii linkedReport results found := ⟨hresults, hfound⟩
    obtain ⟨advisories, -, hparse, -, -, hunrelated, -⟩ :=
      parse_components .ascii linkedReport results found hreads
    exact ⟨results, found, advisories, hreads, hparse, hunrelated⟩

end BasecradleRouter.SecurityScan
