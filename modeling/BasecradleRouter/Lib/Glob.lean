/-
# Shell patterns

A pattern of `[[ … == … ]]` and of a parameter expansion: characters as themselves, `?` for one
character and `*` for any number of them, slashes included.  `removeLongestSuffix` is `${s%%p}` and
`removeShortestPrefix` is `${s#p}`.
-/
import Mathlib.Data.List.Infix
import Mathlib.Data.List.Lemmas

namespace BasecradleRouter.Lib

/-- What a pattern is a row of. -/
inductive Wild
  | char (c : Char)
  | one
  | many
  deriving DecidableEq

abbrev Glob := List Wild

namespace Glob

/-- A quoted text. -/
def literal (text : List Char) : Glob := text.map .char

/-- `"text"*` -/
def starts (text : List Char) : Glob := literal text ++ [.many]

/-- `*"text"` -/
def ends (text : List Char) : Glob := .many :: literal text

/-- `*"text"*` -/
def contains (text : List Char) : Glob := .many :: (literal text ++ [.many])

/-- Whether the pattern fits the whole of a text. -/
def fits : Glob → List Char → Bool
  | [], text => text.isEmpty
  | .many :: p, text => text.tails.any (fits p)
  | .char c :: p, d :: text => c == d && fits p text
  | .one :: p, _ :: text => fits p text
  | _ :: _, [] => false

/-- `${text%%p}` -/
def removeLongestSuffix (p : Glob) : List Char → List Char
  | [] => []
  | c :: text => if p.fits (c :: text) then [] else c :: removeLongestSuffix p text

/-- `${text#p}` -/
def removeShortestPrefix (p : Glob) (text : List Char) : List Char :=
  match (List.range (text.length + 1)).find? fun n => p.fits (text.take n) with
  | some n => text.drop n
  | none => text

variable {p : Glob} {l s t : List Char} {c : Char}

theorem fits_nil : fits [] s = true ↔ s = [] := List.isEmpty_iff

theorem fits_char : fits (.char c :: p) s = true ↔ ∃ t, s = c :: t ∧ fits p t = true := by
  cases s with
  | nil => simp [fits]
  | cons d s =>
    rw [fits, Bool.and_eq_true, beq_iff_eq]
    constructor
    · rintro ⟨rfl, h⟩
      exact ⟨s, rfl, h⟩
    · rintro ⟨t, heq, h⟩
      cases heq
      exact ⟨rfl, h⟩

theorem fits_one : fits (.one :: p) s = true ↔ ∃ d t, s = d :: t ∧ fits p t = true := by
  cases s with
  | nil => simp [fits]
  | cons d s => simp [fits]

theorem fits_many : fits (.many :: p) s = true ↔ ∃ u v, s = u ++ v ∧ fits p v = true := by
  rw [fits, List.any_eq_true]
  constructor
  · rintro ⟨v, hv, h⟩
    obtain ⟨u, rfl⟩ := (List.mem_tails _ _).mp hv
    exact ⟨u, v, rfl, h⟩
  · rintro ⟨u, v, rfl, h⟩
    exact ⟨v, (List.mem_tails _ _).mpr ⟨u, rfl⟩, h⟩

theorem fits_literal_append :
    fits (literal l ++ p) s = true ↔ ∃ t, s = l ++ t ∧ fits p t = true := by
  induction l generalizing s with
  | nil => simp [literal]
  | cons c l ih =>
    show fits (.char c :: (literal l ++ p)) s = true ↔ _
    rw [fits_char]
    constructor
    · rintro ⟨_, rfl, h⟩
      obtain ⟨t, rfl, hrest⟩ := ih.mp h
      exact ⟨t, rfl, hrest⟩
    · rintro ⟨t, rfl, h⟩
      exact ⟨l ++ t, rfl, ih.mpr ⟨t, rfl, h⟩⟩

theorem fits_literal : fits (literal l) s = true ↔ s = l := by
  have h := fits_literal_append (l := l) (p := []) (s := s)
  rw [List.append_nil] at h
  rw [h]
  simp [fits_nil]

theorem fits_star : fits [.many] s = true :=
  fits_many.mpr ⟨s, [], (List.append_nil s).symm, rfl⟩

theorem fits_starts : (starts l).fits s = true ↔ l <+: s := by
  unfold starts
  rw [fits_literal_append]
  simp only [fits_star, and_true]
  exact exists_congr fun _ => eq_comm

theorem fits_ends : (ends l).fits s = true ↔ l <:+ s := by
  unfold ends
  rw [fits_many]
  constructor
  · rintro ⟨u, v, rfl, h⟩
    rw [fits_literal.mp h]
    exact List.suffix_append u l
  · rintro ⟨u, rfl⟩
    exact ⟨u, l, rfl, fits_literal.mpr rfl⟩

theorem fits_contains : (contains l).fits s = true ↔ l <:+: s := by
  unfold contains
  rw [fits_many]
  constructor
  · rintro ⟨u, v, rfl, h⟩
    obtain ⟨w, rfl⟩ := fits_starts.mp h
    exact ⟨u, w, List.append_assoc _ _ _⟩
  · rintro ⟨u, w, rfl⟩
    exact ⟨u, l ++ w, List.append_assoc _ _ _, fits_starts.mpr (List.prefix_append l w)⟩

/-! ## Expansions about a character -/

/-- `${text%%c*}` -/
theorem removeLongestSuffix_char (c : Char) : ∀ text : List Char,
    removeLongestSuffix (starts [c]) text = text.takeWhile (· != c)
  | [] => rfl
  | d :: text => by
    have hstarts : (starts [c]).fits (d :: text) = true ↔ d = c := by
      rw [fits_starts, List.cons_prefix_cons]
      exact ⟨fun h => h.1.symm, fun h => ⟨h.symm, List.nil_prefix⟩⟩
    unfold removeLongestSuffix
    by_cases h : d = c
    · rw [if_pos (hstarts.mpr h), List.takeWhile_cons_of_neg (by simp [h])]
    · rw [if_neg fun hfits => h (hstarts.mp hfits), List.takeWhile_cons_of_pos (by simp [h]),
        removeLongestSuffix_char c text]

/-- The shortest prefix that fits is removed. -/
theorem removeShortestPrefix_append (hfits : p.fits s = true)
    (hshort : ∀ n < s.length, p.fits (s.take n) = false) :
    removeShortestPrefix p (s ++ t) = t := by
  have hfind : ((List.range ((s ++ t).length + 1)).find? fun n => p.fits ((s ++ t).take n)) =
      some s.length := by
    rw [List.find?_range_eq_some]
    have hmem : s.length ∈ List.range ((s ++ t).length + 1) := by
      rw [List.mem_range, List.length_append]
      omega
    refine ⟨by rwa [List.take_left], hmem, fun n hn => ?_⟩
    rw [List.take_append_of_le_length (Nat.le_of_lt hn), hshort n hn]
    rfl
  unfold removeShortestPrefix
  rw [hfind]
  exact List.drop_left

/-- `${text#"prefix"}` -/
theorem removeShortestPrefix_literal (l t : List Char) :
    removeShortestPrefix (literal l) (l ++ t) = t := by
  refine removeShortestPrefix_append (fits_literal.mpr rfl) fun n hn => ?_
  refine eq_false_of_ne_true fun hfits => ?_
  have hlength := congrArg List.length (fits_literal.mp hfits)
  rw [List.length_take] at hlength
  omega

/-- A text that does not begin so is left. -/
theorem removeShortestPrefix_literal_of_not (h : ¬ l <+: s) :
    removeShortestPrefix (literal l) s = s := by
  have hfind : ((List.range (s.length + 1)).find? fun n => (literal l).fits (s.take n)) = none := by
    refine List.find?_eq_none.mpr fun n _ hfits => h ?_
    rw [← fits_literal.mp hfits]
    exact List.take_prefix n s
  unfold removeShortestPrefix
  rw [hfind]

/-- `${text#*c}` -/
theorem removeShortestPrefix_char (hc : c ∉ s) :
    removeShortestPrefix (ends [c]) (s ++ c :: t) = t := by
  have hsplit : s ++ c :: t = (s ++ [c]) ++ t := by simp
  rw [hsplit]
  refine removeShortestPrefix_append (fits_ends.mpr (List.suffix_append s [c])) fun n hn => ?_
  refine eq_false_of_ne_true fun hfits => hc ?_
  rw [List.length_append, List.length_singleton] at hn
  rw [List.take_append_of_le_length (by omega)] at hfits
  exact (List.take_prefix n s).subset ((fits_ends.mp hfits).subset List.mem_cons_self)

end Glob

end BasecradleRouter.Lib
