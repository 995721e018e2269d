/-
# Dictionaries that nobody iterates

A `dict` of which a program only ever asks "what does this key hold" is a partial function.
`Dict` is that function, with the four updates such a program makes: set a key, delete a key,
and keep the entries a test accepts.  Each update has its lookup lemma, tagged for `simp`.
-/
import Mathlib.Logic.Basic

namespace BasecradleRouter.Lib

/-- What each key holds; `none` for a key that is absent. -/
def Dict (κ ν : Type*) := κ → Option ν

namespace Dict

variable {κ ν : Type*} [DecidableEq κ]

/-- `{}` -/
def empty : Dict κ ν := fun _ => none

/-- `d.get(k)` -/
def get (d : Dict κ ν) (k : κ) : Option ν := d k

/-- `d[k] = v` -/
def set (d : Dict κ ν) (k : κ) (v : ν) : Dict κ ν := fun k' => if k' = k then some v else d k'

/-- `del d[k]`, or `d.pop(k, None)` -/
def del (d : Dict κ ν) (k : κ) : Dict κ ν := fun k' => if k' = k then none else d k'

/-- The entries whose value passes the test. -/
def retain (d : Dict κ ν) (keep : ν → Bool) : Dict κ ν := fun k => (d k).filter keep

omit [DecidableEq κ] in
@[ext] theorem ext {d d' : Dict κ ν} (h : ∀ k, d.get k = d'.get k) : d = d' := funext h

omit [DecidableEq κ] in
@[simp] theorem get_empty (k : κ) : (empty : Dict κ ν).get k = none := rfl

theorem get_set (d : Dict κ ν) (k k' : κ) (v : ν) :
    (d.set k v).get k' = if k' = k then some v else d.get k' := rfl

@[simp] theorem get_set_self (d : Dict κ ν) (k : κ) (v : ν) : (d.set k v).get k = some v := by
  simp [get_set]

@[simp] theorem get_set_of_ne (d : Dict κ ν) {k k' : κ} (v : ν) (h : k' ≠ k) :
    (d.set k v).get k' = d.get k' := by
  simp [get_set, h]

theorem get_del (d : Dict κ ν) (k k' : κ) :
    (d.del k).get k' = if k' = k then none else d.get k' := rfl

@[simp] theorem get_del_self (d : Dict κ ν) (k : κ) : (d.del k).get k = none := by
  simp [get_del]

@[simp] theorem get_del_of_ne (d : Dict κ ν) {k k' : κ} (h : k' ≠ k) :
    (d.del k).get k' = d.get k' := by
  simp [get_del, h]

omit [DecidableEq κ] in
@[simp] theorem get_retain (d : Dict κ ν) (keep : ν → Bool) (k : κ) :
    (d.retain keep).get k = (d.get k).filter keep := rfl

end Dict

end BasecradleRouter.Lib
