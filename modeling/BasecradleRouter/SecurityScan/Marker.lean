/-
# The marker is read back

An issue's body ends with a line that holds the marker and nothing else.  The JSON in it is
printable ASCII without a `<` or a `>`, so it neither ends the line nor the comment, and the regular
expression takes it whole (`findall_last_line`).  Escaping by code point is undone as any other
escape is.

So `stateIn` returns what was written, whatever stands above: upstream text may hold markers of its
own, newlines and all.  One thing JSON does not keep: of two surrogates that stand alone, one
directly before the other, it makes the character they encode.  Exactly the states without such a
pair are read back as they were (`stateIn_bodies`).
-/
import BasecradleRouter.SecurityScan.Plans

namespace BasecradleRouter.SecurityScan

open BasecradleRouter.Lib BasecradleRouter.Lib.JsonCodec
open BasecradleRouter.Lib.JsonString hiding dumps

/-! ## 1. The escape of a marker -/

/-- `s.replace("<", "\\u003c").replace(">", "\\u003e")`, of one character as JSON has it. -/
def markerEscape (c : CodePoint) : List Char :=
  PyStr.replaceChar '>' "\\u003e".toList (PyStr.replaceChar '<' "\\u003c".toList (escapePoint c))

/-- A text without the character is left as it is. -/
theorem replaceChar_of_notMem {c : Char} {text s : List Char} (h : c ∉ s) :
    PyStr.replaceChar c text s = s := by
  unfold PyStr.replaceChar
  induction s with
  | nil => rfl
  | cons x s ih =>
    rw [List.mem_cons, not_or] at h
    rw [List.flatMap_cons, if_neg (Ne.symm h.1), ih h.2]
    rfl

/-- Each character is escaped as JSON has it, or by its code point. -/
theorem markerEscape_cases (c : CodePoint) : markerEscape c = escapePoint c ∨
    Coded.point c < 0x10000 ∧ markerEscape c = unicode (Coded.point c) := by
  by_cases hopen : c = CodePoint.ofChar '<'
  · rw [hopen]
    exact Or.inr (by decide)
  · by_cases hclose : c = CodePoint.ofChar '>'
    · rw [hclose]
      exact Or.inr (by decide)
    · left
      have hless : '<' ∉ escapePoint c := by
        intro hmem
        rcases mem_escapePoint hmem with h | h
        · exact hopen (eq_ofChar_of_charOf (by decide) h.symm)
        · exact absurd h (by decide)
      have hgreater : '>' ∉ escapePoint c := by
        intro hmem
        rcases mem_escapePoint hmem with h | h
        · exact hclose (eq_ofChar_of_charOf (by decide) h.symm)
        · exact absurd h (by decide)
      rw [markerEscape, replaceChar_of_notMem hless, replaceChar_of_notMem hgreater]

theorem undone_markerEscape : Undone markerEscape := undone_escapePoint.congr markerEscape_cases

theorem printable_of_mem_markerEscape (c : CodePoint) :
    ∀ x ∈ markerEscape c, printable x = true := by
  intro x hx
  rcases markerEscape_cases c with hsame | ⟨-, hcode⟩
  · rw [hsame] at hx
    exact printable_of_mem_escapePoint hx
  · rw [hcode] at hx
    exact (plain_of_mem_unicode hx).1

/-! ## 2. The data of a marker -/

/-- The two replacements are an escape of their own. -/
theorem markerData_eq {state : Json PyText} (h : Textual state) :
    markerData state = dumps markerEscape state := by
  have hless : ∀ c ∈ punctuation, (if c = '<' then "\\u003c".toList else [c]) = [c] := by
    intro c hc
    refine if_neg ?_
    rintro rfl
    exact absurd hc (by decide)
  have hgreater : ∀ c ∈ punctuation, (if c = '>' then "\\u003e".toList else [c]) = [c] := by
    intro c hc
    refine if_neg ?_
    rintro rfl
    exact absurd hc (by decide)
  rw [markerData, PyStr.replaceChar, PyStr.replaceChar, dumps_flatMap hless h,
    dumps_flatMap hgreater h]
  rfl

/-- A marker's state is read back, its surrogates joined. -/
theorem read_markerData {limits : Limits} {state : Json PyText} (h : Textual state)
    (hroom : limits.Room 0 (levels state)) :
    read limits ((markerData state).map CodePoint.ofChar) = .ok (respelled rejoined state) := by
  rw [read_ofChar, markerData_eq h]
  exact read_dumps undone_markerEscape.respells h hroom

theorem printable_of_mem_markerData {state : Json PyText} (h : Textual state) :
    ∀ x ∈ markerData state, printable x = true := by
  have hown : ∀ c ∈ punctuation, printable c = true := List.all_eq_true.mp (by decide)
  rw [markerData_eq h]
  exact of_mem_dumps hown printable_of_mem_markerEscape h

theorem inBraces_markerData {fields : Fields PyText} (h : Textual (.obj fields)) :
    Enclosed.inBraces ((markerData (.obj fields)).map CodePoint.ofChar) = true := by
  rw [markerData_eq h, dumps, List.map_cons, List.map_append, Enclosed.inBraces,
    ← List.cons_append, List.map_singleton, List.getLast?_concat]
  simp

/-- A marker is what the expression finds. -/
theorem marker_eq (state : Json PyText) : marker state = markerExpression.opening ++
    ((markerData state).map CodePoint.ofChar ++ markerExpression.closing) :=
  List.append_assoc _ _ _

/-- A marker's line ends where the body has its next newline. -/
theorem newline_notMem_marker {state : Json PyText} (h : Textual state) : Enclosed.newline ∉
    markerExpression.opening ++
      ((markerData state).map CodePoint.ofChar ++ markerExpression.closing) := by
  rw [List.mem_append, List.mem_append]
  rintro (hmem | hmem | hmem)
  · exact absurd hmem (by decide)
  · obtain ⟨x, hx, hnewline⟩ := List.mem_map.mp hmem
    rw [CodePoint.ofChar_inj hnewline] at hx
    exact absurd (printable_of_mem_markerData h '\n' hx) (by decide)
  · exact absurd hmem (by decide)

/-! ## 3. Reading it back -/

/-- A body that ends with a marker. -/
def ending (text : PyText) (state : Json PyText) : PyText := text ++ "\n\n" ++ marker state ++ "\n"

/-- The last marker of a body is the one on its last line. -/
theorem lastMarker_line {data : PyText} (hbraces : Enclosed.inBraces data = true)
    (hline : Enclosed.newline ∉
      markerExpression.opening ++ (data ++ markerExpression.closing)) (before : PyText) :
    lastMarker (.str (before ++ Enclosed.newline ::
      (markerExpression.opening ++ (data ++ markerExpression.closing) ++ [Enclosed.newline]))) =
        some data := by
  obtain ⟨found, hfound⟩ := Enclosed.findall_last_line (e := markerExpression) hbraces (by decide)
    hline before
  rw [lastMarker, Json.asStr, Option.getD_some, hfound, List.getLast?_append,
    List.getLast?_singleton, Option.some_or]

theorem lastMarker_ending {fields : Fields PyText} (h : Textual (.obj fields)) (text : PyText) :
    lastMarker (.str (ending text (.obj fields))) =
      some ((markerData (.obj fields)).map CodePoint.ofChar) := by
  have hlines : PyText.ofString "\n\n" = [Enclosed.newline, Enclosed.newline] := by decide
  have hline : PyText.ofString "\n" = [Enclosed.newline] := by decide
  have hbody : ending text (.obj fields) = (text ++ [Enclosed.newline]) ++ Enclosed.newline ::
      (markerExpression.opening ++ ((markerData (.obj fields)).map CodePoint.ofChar ++
        markerExpression.closing) ++ [Enclosed.newline]) := by
    rw [ending, hlines, hline, marker_eq]
    simp only [List.append_assoc, List.cons_append, List.nil_append]
  rw [hbody]
  exact lastMarker_line (inBraces_markerData h) (newline_notMem_marker h) _

/-- **What the last line of a body was written for is what it is read as**, surrogates joined. -/
theorem stateIn_ending (py : Python) {fields : Fields PyText} (h : Textual (.obj fields))
    (hlevels : levels (.obj fields) ≤ 2) (text : PyText) :
    stateIn py (.str (ending text (.obj fields))) = .ok (respelledFields rejoined fields []) := by
  have hroom : (Limits.within py.nesting).Room 0 (levels (.obj fields)) := by
    intro n hn
    have hnesting := py.nesting_two
    exact decide_eq_true (by omega)
  unfold stateIn
  rw [lastMarker_ending h]
  dsimp only
  rw [read_markerData h hroom]
  rfl

/-! ## 4. The states that are written -/

theorem textual_texts (d : OrderedDict PyText PyText) : Textual (texts d) := .strings d.nodup

theorem textual_strings (strings : List PyText) : Textual (.arr (strings.map .str)) := by
  refine .arr fun v hv => ?_
  obtain ⟨s, -, rfl⟩ := List.mem_map.mp hv
  exact .str s

/-- A state with one entry. -/
theorem textual_entry {name : PyText} {v : Json PyText} (h : Textual v) :
    Textual (.obj [(name, v)]) := by
  refine .obj (List.nodup_singleton name) fun field hfield => ?_
  rw [List.mem_singleton] at hfield
  rw [hfield]
  exact h

theorem levels_texts (d : OrderedDict PyText PyText) : levels (texts d) = 1 := by
  have hzero : ∀ items : List (PyText × PyText),
      levelsFields (items.map fun item => (item.1, Json.str item.2)) = 0 := by
    intro items
    induction items with
    | nil => rfl
    | cons item items ih =>
      rw [List.map_cons, levelsFields, ih]
      rfl
  rw [texts, levels, hzero]

theorem levels_strings (strings : List PyText) : levels (.arr (strings.map Json.str)) = 1 := by
  have hzero : levelsItems (strings.map Json.str) = 0 := by
    induction strings with
    | nil => rfl
    | cons s strings ih =>
      rw [List.map_cons, levelsItems, ih]
      rfl
  rw [levels, hzero]

theorem levels_entry (name : PyText) (v : Json PyText) :
    levels (.obj [(name, v)]) = levels v + 1 := by
  rw [levels, levelsFields, levelsFields, Nat.max_zero]

/-- A state with one entry, as it is read back. -/
theorem respelled_entry {name : PyText} (hname : Unpaired name) (v : Json PyText) :
    respelledFields rejoined [(name, v)] [] = [(name, respelled rejoined v)] := by
  rw [respelledFields, respelledFields, rejoined_eq_iff.mpr hname]
  rfl

theorem respelled_strings (strings : List PyText) :
    respelled rejoined (.arr (strings.map Json.str)) =
      .arr ((strings.map rejoined).map Json.str) := by
  rw [respelled, respelledItems_eq, List.map_map, List.map_map]
  rfl

theorem every_texts {d : OrderedDict PyText PyText} : Every Unpaired (texts d) ↔
    ∀ item ∈ d.items, Unpaired item.1 ∧ Unpaired item.2 := by
  constructor
  · intro h item hitem
    obtain ⟨hkey, hv⟩ := h.of_obj (item.1, .str item.2) (List.mem_map.mpr ⟨item, hitem, rfl⟩)
    exact ⟨hkey, hv.of_str⟩
  · intro h
    refine .obj (List.forall_mem_map.mpr fun item hitem => (h item hitem).1) ?_
    exact List.forall_mem_map.mpr fun item hitem => .str (h item hitem).2

theorem every_strings {strings : List PyText} : Every Unpaired (.arr (strings.map Json.str)) ↔
    ∀ s ∈ strings, Unpaired s := by
  constructor
  · intro h s hs
    exact (h.of_arr (.str s) (List.mem_map_of_mem hs)).of_str
  · intro h
    exact .arr (List.forall_mem_map.mpr fun s hs => .str (h s hs))

/-! ## 5. The two bodies -/

/-- The table of advisories whose ecosystem has a name. -/
theorem table_returns (py : Python) {advisories : List (Advisory PyText)}
    (h : ∀ a ∈ advisories, a.ecosystem = "pypi") : ∃ rows, table py advisories = .ok rows := by
  have hrow : ∀ a ∈ advisories, ∃ text, row py a = .ok text := by
    intro a ha
    unfold row
    rw [h a ha]
    exact ⟨_, rfl⟩
  obtain ⟨rows, hrows⟩ := mapM_returns hrow
  unfold table
  rw [hrows]
  exact ⟨_, rfl⟩

theorem tableOf_returns (py : Python) {advisories : List (Advisory PyText)}
    (h : ∀ a ∈ advisories, a.ecosystem = "pypi") : ∃ rows, tableOf py advisories = .ok rows := by
  unfold tableOf
  split
  · exact ⟨_, rfl⟩
  · exact table_returns py h

/-- The body of the advisories' issue is read back as the state it was written for, surrogates
joined. -/
theorem advisoriesBody_returns (py : Python) {scan : DependencySecurityScan}
    (h : ∀ a ∈ scan.advisories, a.ecosystem = "pypi")
      (current carried : OrderedDict PyText PyText) :
    ∃ body, scan.advisoriesBody py current carried = .ok body ∧
      stateIn py (.str body) = .ok [("advisories", respelled rejoined (texts current))] := by
  obtain ⟨rows, hrows⟩ := tableOf_returns py h
  refine ⟨scan.advisoriesText py current carried rows, ?_, ?_⟩
  · rw [DependencySecurityScan.advisoriesBody, hrows]
    rfl
  · rw [← respelled_entry (by decide)]
    exact stateIn_ending py (textual_entry (textual_texts current))
      (by rw [levels_entry, levels_texts]) _

theorem stateIn_errorBody (py : Python) (scan : DependencySecurityScan) (failing : List PyText) :
    stateIn py (.str (scan.errorBody py failing)) =
      .ok [("failing", .arr ((failing.map rejoined).map .str))] := by
  rw [← respelled_strings, ← respelled_entry (by decide)]
  exact stateIn_ending py (textual_entry (textual_strings failing))
    (by rw [levels_entry, levels_strings]) _

/-- A state is the one that was written if its value is. -/
theorem entry_inj {name : PyText} {v w : Json PyText} :
    (Except.ok [(name, v)] : Except LoadFault (Fields PyText)) = .ok [(name, w)] ↔ v = w := by
  simp

/-- **Each body is read back as the state it was written for**, whatever the texts in it, exactly
if no string of that state has a first surrogate directly before a second; such a pair is read back
as the character it encodes. -/
theorem stateIn_bodies (py : Python) (scan : DependencySecurityScan)
    (h : ∀ a ∈ scan.advisories, a.ecosystem = "pypi") :
    (∀ current carried : OrderedDict PyText PyText,
      ∃ body, scan.advisoriesBody py current carried = .ok body ∧
        stateIn py (.str body) = .ok [("advisories", respelled rejoined (texts current))] ∧
        (stateIn py (.str body) = .ok [("advisories", texts current)] ↔
          ∀ item ∈ current.items, Unpaired item.1 ∧ Unpaired item.2)) ∧
    ∀ failing : List PyText,
      stateIn py (.str (scan.errorBody py failing)) =
          .ok [("failing", .arr ((failing.map rejoined).map .str))] ∧
        (stateIn py (.str (scan.errorBody py failing)) =
            .ok [("failing", .arr (failing.map .str))] ↔ ∀ name ∈ failing, Unpaired name) := by
  refine ⟨fun current carried => ?_, fun failing => ?_⟩
  · obtain ⟨body, hbody, hstate⟩ := advisoriesBody_returns py h current carried
    refine ⟨body, hbody, hstate, ?_⟩
    rw [hstate, entry_inj, respelled_eq_iff (textual_texts current), every_texts]
  · refine ⟨stateIn_errorBody py scan failing, ?_⟩
    rw [stateIn_errorBody, entry_inj, ← respelled_strings,
      respelled_eq_iff (textual_strings failing), every_strings]

/-- An advisory whose texts hold a marker of their own, and what could end a comment, a row or a
line. -/
def forging : Advisory PyText where
  ecosystem := "pypi"
  package := "a|<b>\n<!-- dependency-security-scan \x7b\x7d -->\n"
  affected := "1.0 -->"
  id := "GHSA-\"\\"
  severity := "high"
  title := "@all <!-- dependency-security-scan \x7b\"advisories\":\x7b\x7d\x7d -->"
  url := none
  aliases := ["GHSA-\"\\"]

def forgingScan : DependencySecurityScan :=
  .init [forging] (OrderedDict.empty.set "osv" "<!-- dependency-security-scan \x7b\x7d -->") "main"
    "0" "url" "2026-11-05 06:00Z"

theorem stateIn_bodies_forging :
    (∃ body, forgingScan.advisoriesBody .ascii (OrderedDict.empty.set forging.key "high") .empty =
        .ok body ∧
      stateIn .ascii (.str body) =
        .ok [("advisories", texts (OrderedDict.empty.set forging.key "high"))]) ∧
    stateIn .ascii (.str (forgingScan.errorBody .ascii ["osv"])) =
      .ok [("failing", .arr [.str "osv"])] := by
  have hpypi : ∀ a ∈ forgingScan.advisories, a.ecosystem = "pypi" := by
    intro a ha
    obtain rfl : a = forging := List.mem_singleton.mp ha
    rfl
  obtain ⟨hadvisories, herror⟩ := stateIn_bodies .ascii forgingScan hpypi
  obtain ⟨body, hbody, -, hstate⟩ :=
    hadvisories (OrderedDict.empty.set forging.key "high") .empty
  exact ⟨⟨body, hbody, hstate.mpr (by decide)⟩, (herror ["osv"]).2.mpr (by decide)⟩

theorem firstHalf_lt : 0xd83d < 0x110000 := by decide

theorem secondHalf_lt : 0xde00 < 0x110000 := by decide

/-- The first of a pair of surrogates. -/
def firstHalf : CodePoint := ⟨0xd83d, firstHalf_lt⟩

/-- The second. -/
def secondHalf : CodePoint := ⟨0xde00, secondHalf_lt⟩

/-- An advisory whose package has an `@` between the two: the key is without it. -/
def parted : Advisory PyText where
  ecosystem := "pypi"
  package := [firstHalf, CodePoint.ofChar '@', secondHalf]
  affected := "1.0"
  id := "GHSA-a"
  severity := "high"
  title := "A race"
  url := none
  aliases := ["GHSA-a"]

def partedScan : DependencySecurityScan :=
  .init [parted] .empty "main" "0" "url" "2026-11-05 06:00Z"

/-- Its key is read back with one character for the two. -/
theorem not_returned : ∃ body,
    partedScan.advisoriesBody .ascii (partedScan.current .empty) .empty = .ok body ∧
      stateIn .ascii (.str body) ≠ .ok [("advisories", texts (partedScan.current .empty))] := by
  have hpypi : ∀ a ∈ partedScan.advisories, a.ecosystem = "pypi" := by
    intro a ha
    obtain rfl : a = parted := List.mem_singleton.mp ha
    rfl
  obtain ⟨body, hbody, hstate⟩ :=
    advisoriesBody_returns .ascii hpypi (partedScan.current .empty) .empty
  refine ⟨body, hbody, ?_⟩
  rw [hstate, ne_eq, entry_inj, respelled_eq_iff (textual_texts _), every_texts]
  decide

end BasecradleRouter.SecurityScan
