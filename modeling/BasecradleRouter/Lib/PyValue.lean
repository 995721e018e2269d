/-
# Arithmetic on values of any type

Python adds to whatever a field holds and finds out then whether that is a number.  A `bool` is one,
a `float` stays a `float`, and anything else raises `TypeError`, which is `none` here.  A `float` is
kept as it was written, so what arithmetic makes of it is asked of `FloatText`.

A value written as JSON text and read again is the same value, its dicts' keys in an order of the
text's own: `Same`, which `JsonText` promises of `json.load` after `json.dumps`.
-/
import BasecradleRouter.Lib.Json
import Mathlib.Data.Nat.Notation

namespace BasecradleRouter.Lib

/-- A float's arithmetic, on its text. -/
structure FloatText where
  /-- `x + n` -/
  add : String → ℤ → String
  /-- `x > 0` -/
  positive : String → Bool
  /-- `bool(x)` -/
  truthy : String → Bool
  /-- `x == n` -/
  equals : String → ℤ → Bool

/-- The arithmetic of no float, for values that hold none. -/
def FloatText.unread : FloatText :=
  ⟨fun text _ => text, fun _ => false, fun _ => false, fun _ _ => false⟩

namespace Json

variable (float : FloatText)

/-- What a `bool` counts as. -/
def ofBool (b : Bool) : ℤ := if b then 1 else 0

/-- `v + n` -/
def add (v : Json) (n : ℤ) : Option Json :=
  match v with
  | .int i => some (.int (i + n))
  | .bool b => some (.int (ofBool b + n))
  | .float text => some (.float (float.add text n))
  | _ => none

/-- `max(0, v)`, of a number. -/
def maxZero (v : Json) : Json :=
  match v with
  | .int i => .int (max 0 i)
  | .float text => if float.positive text then v else .int 0
  | v => v

/-- `bool(v)` -/
def truthy : Json → Bool
  | .null => false
  | .bool b => b
  | .int i => i != 0
  | .float text => float.truthy text
  | .str s => s != ""
  | .arr items => !items.isEmpty
  | .obj fields => !fields.isEmpty

/-- `v == n` -/
def equalsInt (v : Json) (n : ℤ) : Bool :=
  match v with
  | .int i => i == n
  | .bool b => ofBool b == n
  | .float text => float.equals text n
  | _ => false

/-- `v is True or v is False` -/
def isBool : Json → Bool
  | .bool _ => true
  | _ => false

/-- The same value: lists hold the same at every index, dicts under every key. -/
inductive Same : Json → Json → Prop
  | refl (v : Json) : Same v v
  | arr {items items' : List Json} (hlength : items.length = items'.length)
      (h : ∀ (i : ℕ) (v v' : Json), items[i]? = some v → items'[i]? = some v' → Same v v') :
      Same (.arr items) (.arr items')
  | obj {d d' : Fields} (hkeys : ∀ key, d.lookup key = none ↔ d'.lookup key = none)
      (h : ∀ key v v', d.lookup key = some v → d'.lookup key = some v' → Same v v') :
      Same (.obj d) (.obj d')

namespace Same

/-- A dict is the same as a dict that holds the same under every key. -/
theorem lookup {d : Fields} {w : Json} (h : Same (.obj d) w) :
    ∃ d' : Fields, w = .obj d' ∧ ∀ key, Option.Rel Same (d.lookup key) (d'.lookup key) := by
  cases h with
  | refl =>
    refine ⟨d, rfl, fun key => ?_⟩
    cases d.lookup key with
    | none => exact .none
    | some v => exact .some (.refl v)
  | @obj _ d' hkeys h =>
    refine ⟨d', rfl, fun key => ?_⟩
    cases hv : d.lookup key with
    | none =>
      rw [(hkeys key).mp hv]
      exact .none
    | some v =>
      cases hv' : d'.lookup key with
      | none =>
        rw [(hkeys key).mpr hv'] at hv
        cases hv
      | some v' => exact .some (h key v v' hv hv')

theorem get {d d' : Fields} (h : Same (.obj d) (.obj d')) (key : String) :
    Same (d.get key) (d'.get key) := by
  obtain ⟨d'', heq, hkeys⟩ := h.lookup
  cases heq
  unfold Fields.get
  have hkey := hkeys key
  generalize d.lookup key = v at hkey
  generalize d'.lookup key = v' at hkey
  cases hkey with
  | none => exact .refl _
  | some hv => exact hv

end Same

/-- A value without parts. -/
def isAtom : Json → Bool
  | .arr _ => false
  | .obj _ => false
  | _ => true

/-- A value without parts is the same as itself alone. -/
theorem Same.eq_of_atom {v w : Json} (h : Same v w) (hv : v.isAtom = true) : w = v := by
  cases h with
  | refl => rfl
  | arr => cases hv
  | obj => cases hv

end Json

/-- JSON text, as what is read back of a value that was written. -/
structure JsonText where
  /-- `json.loads(json.dumps(v, sort_keys=True))` -/
  reread : Json → Json
  reread_same : ∀ v, Json.Same v (reread v)

/-- Text that keeps the keys in order. -/
def JsonText.plain : JsonText := ⟨id, Json.Same.refl⟩

end BasecradleRouter.Lib
