/-
# Where a word occurs

A word that occurs in a text which is put together from parts occurs in one of them, if what stands
between the parts cannot be in the word.
-/
import Mathlib.Data.List.Infix

namespace BasecradleRouter.Lib

variable {α : Type} {word left right : List α} {a : α}

/-- **A word does not occur across what is not in it.** -/
theorem infix_separated (ha : a ∉ word) :
    word <:+: left ++ a :: right ↔ word <:+: left ∨ word <:+: right := by
  constructor
  · rintro ⟨before, after, h⟩
    rcases List.append_eq_append_iff.mp h with ⟨rest, rfl, -⟩ | ⟨rest, hleft, hright⟩
    · exact Or.inl ⟨before, rest, rfl⟩
    · cases rest with
      | nil =>
        rw [List.append_nil] at hleft
        exact Or.inl ⟨before, [], by rw [List.append_nil, hleft]⟩
      | cons b rest =>
        obtain ⟨rfl, rfl⟩ : a = b ∧ right = rest ++ after := by simpa using hright
        rcases List.append_eq_append_iff.mp hleft with ⟨more, -, hword⟩ | ⟨more, -, hword⟩
        · rw [hword] at ha
          exact absurd (List.mem_append_right more List.mem_cons_self) ha
        · cases more with
          | nil =>
            rw [List.nil_append] at hword
            rw [← hword] at ha
            exact absurd List.mem_cons_self ha
          | cons b more =>
            obtain ⟨rfl, rfl⟩ : a = b ∧ rest = more ++ word := by simpa using hword
            exact Or.inr ⟨more, after, rfl⟩
  · rintro (h | h)
    · exact h.trans (List.prefix_append left (a :: right)).isInfix
    · exact h.trans ⟨left ++ [a], [], by simp⟩

/-- Nor at what it does not begin with. -/
theorem infix_cons_of_ne (hne : word ≠ []) (ha : word.head? ≠ some a) :
    word <:+: a :: right ↔ word <:+: right := by
  rw [List.infix_cons_iff]
  refine or_iff_right fun h => ?_
  obtain ⟨rest, hrest⟩ := h
  cases word with
  | nil => exact hne rfl
  | cons b word =>
    rw [List.cons_append, List.cons.injEq] at hrest
    exact ha (congrArg some hrest.1)

/-- Nor at what it does not end with. -/
theorem infix_concat_of_ne (hne : word ≠ []) (ha : word.getLast? ≠ some a) :
    word <:+: left ++ [a] ↔ word <:+: left := by
  rw [← List.reverse_infix, List.reverse_append, List.reverse_singleton, List.singleton_append,
    infix_cons_of_ne (by simpa using hne) (by simpa using ha), List.reverse_infix]

/-- What a text begins with stands in as much of it as covers it. -/
theorem infix_take {rest : List α} {n : ℕ} (h : left.length + word.length ≤ n) :
    word <:+: (left ++ (word ++ rest)).take n := by
  have htake : (left ++ (word ++ rest)).take n =
      left ++ (word ++ rest.take (n - left.length - word.length)) := by
    rw [List.take_append, List.take_of_length_le (by omega), List.take_append,
      List.take_of_length_le (by omega)]
  rw [htake]
  exact List.infix_append' left word _

end BasecradleRouter.Lib
