/-
# Python's strings, code point by code point

A `str` is a sequence of code points.  A surrogate may be one of them, which no `Char` is: that is
how `json.loads` reads one that is escaped alone.  Where it matters, text is a `PyText`, and what
is written out is cast to it.
-/
import Mathlib.Data.List.Lex
import Mathlib.Order.Fin.Basic

namespace BasecradleRouter.Lib

/-- A code point. -/
abbrev CodePoint := Fin 0x110000

/-- A `str`. -/
abbrev PyText := List CodePoint

/-- The first of the two surrogates of a pair. -/
def high (n : ℕ) : Bool := 0xd800 ≤ n && n < 0xdc00

/-- The second. -/
def low (n : ℕ) : Bool := 0xdc00 ≤ n && n < 0xe000

/-- The code point a pair of surrogates encodes. -/
def paired (n m : ℕ) : ℕ := 0x10000 + (n - 0xd800) * 0x400 + (m - 0xdc00)

/-- The character of a code point, a surrogate's as U+FFFD. -/
def charOf (n : ℕ) : Char := if high n || low n then '\ufffd' else Char.ofNat n

theorem toNat_lt (c : Char) : c.toNat < 0x110000 := by
  have hvalid : c.toNat < 0xd800 ∨ 0xdfff < c.toNat ∧ c.toNat < 0x110000 := c.valid
  omega

theorem high_toNat (c : Char) : high c.toNat = false := by
  have hvalid : c.toNat < 0xd800 ∨ 0xdfff < c.toNat ∧ c.toNat < 0x110000 := c.valid
  simp only [high, Bool.and_eq_false_iff, decide_eq_false_iff_not]
  omega

theorem low_toNat (c : Char) : low c.toNat = false := by
  have hvalid : c.toNat < 0xd800 ∨ 0xdfff < c.toNat ∧ c.toNat < 0x110000 := c.valid
  simp only [low, Bool.and_eq_false_iff, decide_eq_false_iff_not]
  omega

theorem charOf_toNat (c : Char) : charOf c.toNat = c := by
  rw [charOf, high_toNat, low_toNat]
  exact Char.ofNat_toNat c

/-- The code point of a character. -/
def CodePoint.ofChar (c : Char) : CodePoint := ⟨c.toNat, toNat_lt c⟩

instance : Coe Char CodePoint := ⟨CodePoint.ofChar⟩

/-- The code points of a text. -/
def PyText.ofString (s : String) : PyText := s.toList.map CodePoint.ofChar

instance : Coe String PyText := ⟨PyText.ofString⟩

@[simp] theorem CodePoint.val_ofChar (c : Char) : (CodePoint.ofChar c).val = c.toNat := rfl

theorem CodePoint.charOf_ofChar (c : Char) : charOf (CodePoint.ofChar c) = c := charOf_toNat c

theorem CodePoint.ofChar_inj {c d : Char} (h : CodePoint.ofChar c = CodePoint.ofChar d) :
    c = d := by
  rw [← CodePoint.charOf_ofChar c, h, CodePoint.charOf_ofChar]

/-- Strings, among them those that are written out. -/
class Literal (σ : Type) where
  text : String → σ

instance : Literal String := ⟨fun s => s⟩

instance : Literal PyText := ⟨PyText.ofString⟩

end BasecradleRouter.Lib
