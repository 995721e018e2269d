/-
# Python's strings, as far as the router leans on them

`str.strip`, `str.split` and `str.isspace` all mean Unicode white space, which is wider than
ASCII's: `isSpace` lists the code points CPython's table holds.  Text is Lean's `String`; the
functions that walk it work on its characters.
-/
import BasecradleRouter.Lib.Runs
import Mathlib.Data.Finset.Sort
import Mathlib.Data.List.Basic
import Mathlib.Data.String.Basic

namespace BasecradleRouter.Lib.PyStr

/-- The characters `str.split()` splits on and `str.strip()` strips. -/
def isSpace (c : Char) : Bool :=
  let n := c.toNat
  (9 ≤ n && n ≤ 13) || (28 ≤ n && n ≤ 32) || n == 0x85 || n == 0xa0 || n == 0x1680 ||
    (0x2000 ≤ n && n ≤ 0x200a) || n == 0x2028 || n == 0x2029 || n == 0x202f || n == 0x205f ||
    n == 0x3000

/-- `not s.strip()`: nothing but white space. -/
def blank (s : String) : Bool := s.toList.all isSpace

/-- `s.strip()` -/
def strip (s : String) : String :=
  String.ofList ((s.toList.dropWhile isSpace).reverse.dropWhile isSpace).reverse

/-- `s.rstrip()` -/
def rstrip (s : List Char) : List Char := (s.reverse.dropWhile isSpace).reverse

/-- The characters `str.splitlines()` ends a line at. -/
def isBreak (c : Char) : Bool :=
  ['\n', '\r', '\x0b', '\x0c', '\x1c', '\x1d', '\x1e', '\x85', '\u2028', '\u2029'].contains c

/-- The lines of a text, `line` being the one being read (in reverse). -/
def splitlinesFrom : List Char → List Char → List (List Char)
  | [], [] => []
  | line, [] => [line.reverse]
  | line, '\r' :: '\n' :: cs => line.reverse :: splitlinesFrom [] cs
  | line, c :: cs =>
    if isBreak c then line.reverse :: splitlinesFrom [] cs else splitlinesFrom (c :: line) cs

/-- `s.splitlines()` -/
def splitlines (s : List Char) : List (List Char) := splitlinesFrom [] s

/-- The parts of a text between separators, `part` being the one being read (in reverse), after
`skip` characters of a separator. -/
def splitTextFrom (sep : List Char) : ℕ → List Char → List Char → List (List Char)
  | _, part, [] => [part.reverse]
  | skip + 1, part, _ :: cs => splitTextFrom sep skip part cs
  | 0, part, c :: cs =>
    if sep.isPrefixOf (c :: cs) then part.reverse :: splitTextFrom sep (sep.length - 1) [] cs
    else splitTextFrom sep 0 (c :: part) cs

/-- `s.split(sep)` -/
def splitText (sep s : List Char) : List (List Char) := splitTextFrom sep 0 [] s

/-- `s.replace(c, text)`, for one character -/
def replaceChar {α : Type} [DecidableEq α] (c : α) (text s : List α) : List α :=
  s.flatMap fun x => if x = c then text else [x]

/-- `os.path.basename(path)` -/
def basename (path : String) : String :=
  String.ofList (path.toList.reverse.takeWhile (· ≠ '/')).reverse

/-- The runs of non-space characters, `word` being the one being read (in reverse). -/
def splitAux : List Char → List Char → List (List Char)
  | [], [] => []
  | [], word => [word.reverse]
  | c :: cs, word =>
    if isSpace c then
      if word.isEmpty then splitAux cs [] else word.reverse :: splitAux cs []
    else splitAux cs (c :: word)

/-- `s.split()` -/
def split (s : List Char) : List (List Char) := splitAux s []

/-- `sep.join(words)` -/
def join (sep : List Char) : List (List Char) → List Char
  | [] => []
  | [w] => w
  | w :: ws => w ++ sep ++ join sep ws

/-- A word holds characters of the text, and no white space. -/
theorem mem_splitAux : ∀ {cs word w : List Char}, w ∈ splitAux cs word → ∀ c ∈ w,
    (c ∈ cs ∧ isSpace c = false) ∨ c ∈ word
  | [], [], w, hw, c, hc => by simp [splitAux] at hw
  | [], d :: word, w, hw, c, hc => by
    simp only [splitAux, List.mem_singleton] at hw
    rw [hw, List.mem_reverse] at hc
    exact Or.inr hc
  | d :: cs, word, w, hw, c, hc => by
    have hlater : (c ∈ cs ∧ isSpace c = false) → (c ∈ d :: cs ∧ isSpace c = false) :=
      fun h => ⟨List.mem_cons_of_mem d h.1, h.2⟩
    rw [splitAux.eq_def] at hw
    simp only at hw
    split at hw
    · have hrest : w ∈ splitAux cs [] → (c ∈ d :: cs ∧ isSpace c = false) ∨ c ∈ word := by
        intro h
        rcases mem_splitAux h c hc with hmem | hnil
        · exact Or.inl (hlater hmem)
        · cases hnil
      split at hw
      · exact hrest hw
      · rcases List.mem_cons.mp hw with rfl | hw
        · exact Or.inr (List.mem_reverse.mp hc)
        · exact hrest hw
    · next hspace =>
      rcases mem_splitAux hw c hc with hmem | hword
      · exact Or.inl (hlater hmem)
      · rcases List.mem_cons.mp hword with rfl | hword
        · exact Or.inl ⟨List.mem_cons_self, by simpa using hspace⟩
        · exact Or.inr hword

theorem mem_split {s w : List Char} (hw : w ∈ split s) {c : Char} (hc : c ∈ w) :
    c ∈ s ∧ isSpace c = false := by
  rcases mem_splitAux hw c hc with h | h
  · exact h
  · cases h

/-- A text has no word exactly if it is white space. -/
theorem splitAux_eq_nil : ∀ {cs word : List Char},
    splitAux cs word = [] ↔ word = [] ∧ ∀ c ∈ cs, isSpace c = true
  | [], [] => by simp [splitAux]
  | [], d :: word => by simp [splitAux]
  | c :: cs, word => by
    rw [splitAux.eq_def]
    simp only [List.isEmpty_iff]
    split
    · next hspace =>
      split
      · next hword => simp [splitAux_eq_nil, hword, hspace]
      · next hword => simp [hword]
    · next hspace => simp [splitAux_eq_nil, hspace]

theorem ne_nil_of_mem_splitAux : ∀ {cs word w : List Char}, w ∈ splitAux cs word → w ≠ []
  | [], [], w, hw => by simp [splitAux] at hw
  | [], d :: word, w, hw => by
    simp only [splitAux, List.mem_singleton] at hw
    simp [hw]
  | c :: cs, word, w, hw => by
    rw [splitAux.eq_def] at hw
    simp only [List.isEmpty_iff] at hw
    split at hw
    · split at hw
      · exact ne_nil_of_mem_splitAux hw
      · next hword =>
        rcases List.mem_cons.mp hw with rfl | hw
        · simpa using hword
        · exact ne_nil_of_mem_splitAux hw
    · exact ne_nil_of_mem_splitAux hw

/-- No word is empty, so what is joined is empty only without words. -/
theorem join_splitAux_eq_nil {sep cs word : List Char} :
    join sep (splitAux cs word) = [] ↔ splitAux cs word = [] := by
  cases hsplit : splitAux cs word with
  | nil => simp [join]
  | cons w ws =>
    have hw : w ≠ [] := ne_nil_of_mem_splitAux (by
      rw [hsplit]
      exact List.mem_cons_self)
    cases ws with
    | nil => simp [join, hw]
    | cons w' ws => simp [join, hw]

/-- `" ".join(s.split())` is empty exactly if the text is white space. -/
theorem join_split_eq_nil {sep s : List Char} :
    join sep (split s) = [] ↔ ∀ c ∈ s, isSpace c = true := by
  rw [split, join_splitAux_eq_nil, splitAux_eq_nil]
  simp

/-- Squeezing and trimming is splitting and joining, from within a word or from outside of one. -/
theorem join_splitAux : ∀ (cs word : List Char), join [' '] (splitAux cs word) =
    if word.isEmpty then (Runs.squeezeFrom isSpace ' ' true cs).rdropWhile isSpace
    else word.reverse ++ (Runs.squeezeFrom isSpace ' ' false cs).rdropWhile isSpace
  | [], [] => by simp [splitAux, join, Runs.squeezeFrom]
  | [], d :: word => by simp [splitAux, join, Runs.squeezeFrom]
  | c :: cs, word => by
    rw [splitAux.eq_def]
    dsimp only
    cases hspace : isSpace c with
    | false =>
      rw [if_neg Bool.false_ne_true, join_splitAux cs (c :: word), Runs.squeezeFrom,
        Runs.squeezeFrom, hspace, if_neg Bool.false_ne_true, if_neg Bool.false_ne_true,
        Runs.rdropWhile_cons_of_neg hspace]
      cases word with
      | nil => rfl
      | cons d word => simp
    | true =>
      rw [if_pos rfl, Runs.squeezeFrom, Runs.squeezeFrom, hspace, if_pos rfl, if_pos rfl,
        if_pos rfl, if_neg Bool.false_ne_true]
      cases word with
      | nil => exact join_splitAux cs []
      | cons d word =>
        have hrest := join_splitAux cs []
        rw [List.isEmpty_nil, if_pos rfl] at hrest
        rw [List.isEmpty_cons, if_neg Bool.false_ne_true, if_neg Bool.false_ne_true]
        cases hwords : splitAux cs [] with
        | nil =>
          rw [hwords] at hrest
          have hall := List.rdropWhile_eq_nil_iff.mp hrest.symm
          have hnone : (' ' :: Runs.squeezeFrom isSpace ' ' true cs).rdropWhile isSpace = [] := by
            refine List.rdropWhile_eq_nil_iff.mpr fun x hx => ?_
            rcases List.mem_cons.mp hx with rfl | hx
            · decide
            · exact hall x hx
          rw [hnone, join, List.append_nil]
        | cons w words =>
          have hne : (Runs.squeezeFrom isSpace ' ' true cs).rdropWhile isSpace ≠ [] := by
            rw [← hrest, ne_eq, join_splitAux_eq_nil, hwords]
            exact List.cons_ne_nil w words
          rw [Runs.rdropWhile_cons_of_ne_nil hne, ← hrest, hwords, join]
          · simp
          · exact List.cons_ne_nil w words

/-- **`" ".join(s.split())` squeezes and trims.** -/
theorem join_split (s : List Char) :
    join [' '] (split s) = Runs.trim isSpace (Runs.squeeze isSpace ' ' s) := by
  rw [split, join_splitAux, Runs.trim, Runs.dropWhile_squeeze (by decide)]
  rfl

/-- What is joined comes from the separator or a word. -/
theorem mem_join {sep : List Char} {c : Char} : ∀ {words : List (List Char)},
    c ∈ join sep words → c ∈ sep ∨ ∃ w ∈ words, c ∈ w
  | [w], h => Or.inr ⟨w, List.mem_singleton_self w, h⟩
  | w :: w' :: words, h => by
    simp only [join, List.append_assoc, List.mem_append] at h
    rcases h with hw | hsep | hrest
    · exact Or.inr ⟨w, List.mem_cons_self, hw⟩
    · exact Or.inl hsep
    · rcases mem_join hrest with hsep | ⟨w'', hmem, hc⟩
      · exact Or.inl hsep
      · exact Or.inr ⟨w'', List.mem_cons_of_mem w hmem, hc⟩

/-- What stands on either side of the first separator is determined by the joined text. -/
theorem append_sep_inj {α : Type*} {sep : α} : ∀ {a a' b b' : List α}, sep ∉ a → sep ∉ a' →
    a ++ sep :: b = a' ++ sep :: b' → a = a' ∧ b = b'
  | [], [], _, _, _, _, h => by simpa using h
  | [], x :: a', _, _, _, ha', h => by
    simp only [List.nil_append, List.cons_append, List.cons.injEq] at h
    exact absurd (by simp [h.1]) ha'
  | x :: a, [], _, _, ha, _, h => by
    simp only [List.nil_append, List.cons_append, List.cons.injEq] at h
    exact absurd (by simp [h.1]) ha
  | x :: a, y :: a', _, _, ha, ha', h => by
    simp only [List.cons_append, List.cons.injEq] at h
    obtain ⟨h1, h2⟩ := append_sep_inj (fun m => ha (List.mem_cons_of_mem x m))
      (fun m => ha' (List.mem_cons_of_mem y m)) h.2
    exact ⟨by rw [h.1, h1], h2⟩

/-! ## Sorting -/

/-- `sorted(names)` -/
def sorted (names : Finset String) : List String := names.sort (· ≤ ·)

@[simp] theorem mem_sorted {names : Finset String} {name : String} :
    name ∈ sorted names ↔ name ∈ names := Finset.mem_sort _

end BasecradleRouter.Lib.PyStr
