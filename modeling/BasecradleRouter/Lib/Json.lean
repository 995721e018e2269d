/-
# JSON values as Python holds them

`json.loads` builds a `dict`, a `list`, a `str`, an `int`, a `float`, a `bool` or `None`.  `Json`
is that value.  A program that reads a payload asks two kinds of question of it: what a key holds
(`Fields.get`, which like `dict.get` answers `null` for a key that is absent), and whether a value
is of a type (`asStr`, `asInt` and the rest, `none` where Python's `isinstance` says no).
A `bool` is an `int` to Python and not to a program that rules it out first; `asInt` does.
-/
import Mathlib.Data.Int.Notation

namespace BasecradleRouter.Lib

/-- A value `json.loads` returns, its strings a `σ`.  A `float` is kept as it was written. -/
inductive Json (σ : Type := String)
  | null
  | bool (b : Bool)
  | int (i : ℤ)
  | float (text : String)
  | str (s : σ)
  | arr (items : List (Json σ))
  | obj (fields : List (σ × Json σ))

/-- A `dict`: what each of its keys holds. -/
abbrev Fields (σ : Type := String) := List (σ × Json σ)

variable {σ : Type}

/-- `d.get(key)` -/
def Fields.get [BEq σ] (d : Fields σ) (key : σ) : Json σ := (d.lookup key).getD .null

namespace Json

/-- `isinstance(v, dict)` -/
def asObj : Json σ → Option (Fields σ)
  | obj fields => some fields
  | _ => none

/-- `isinstance(v, list)` -/
def asArr : Json σ → Option (List (Json σ))
  | arr items => some items
  | _ => none

/-- `isinstance(v, str)` -/
def asStr : Json σ → Option σ
  | str s => some s
  | _ => none

/-- `isinstance(v, int) and not isinstance(v, bool)` -/
def asInt : Json → Option ℤ
  | int i => some i
  | _ => none

/-- `v is None` -/
def isNull : Json → Bool
  | null => true
  | _ => false

/-- `v is True` -/
def isTrue : Json → Bool
  | bool b => b
  | _ => false

/-- `v == text` -/
def isText [BEq σ] (v : Json σ) (text : σ) : Bool := v.asStr == some text

/-- `v in frozenset(texts)`, for a set of strings: a `list` or a `dict` cannot be hashed, and the
test raises the `TypeError` whose text this returns. -/
def inSet (v : Json) (texts : List String) : Except String Bool :=
  match v with
  | arr _ => .error "unhashable type: 'list'"
  | obj _ => .error "unhashable type: 'dict'"
  | v => .ok (texts.any v.isText)

theorem isText_iff [BEq σ] [LawfulBEq σ] {v : Json σ} {text : σ} :
    v.isText text = true ↔ v.asStr = some text := by
  simp [isText]

/-- A test that does not raise tells whether the value is one of the texts. -/
theorem inSet_ok {v : Json} {texts : List String} {b : Bool} (h : v.inSet texts = .ok b) :
    b = texts.any v.isText := by
  cases v with
  | arr items => cases h
  | obj fields => cases h
  | _ => exact (Except.ok.inj h).symm

/-- What passes a set of strings is one of them. -/
theorem inSet_true {v : Json} {texts : List String} (h : v.inSet texts = .ok true) :
    ∃ text ∈ texts, v.asStr = some text := by
  cases v with
  | arr items => simp [inSet] at h
  | obj fields => simp [inSet] at h
  | _ =>
    simp only [inSet, Except.ok.injEq, List.any_eq_true] at h
    obtain ⟨text, hmem, hv⟩ := h
    exact ⟨text, hmem, isText_iff.mp hv⟩

end Json

end BasecradleRouter.Lib
