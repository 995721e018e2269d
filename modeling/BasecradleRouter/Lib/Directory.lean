/-
# A directory and its files

A directory's names stand for files, links or directories; a file is known by an identity of its
own, so that whoever has it open keeps it when its name is given to another or taken away.  What is
done to names (`create`, `replace`, `unlink`) and what is done to a content (`append`) are apart: a
file that was opened by its name reads the same whatever happens to that name, and only `append` to
that same file changes it.

Each operation has one lemma that says all it has done.
-/
import Mathlib.Data.Finmap

namespace BasecradleRouter.Lib

/-- What a name stands for. -/
inductive Entry
  | file (id : ℕ)
  | link
  | dir
  deriving DecidableEq, Repr

/-- Whether it is a regular file. -/
def Entry.isFile : Entry → Bool
  | .file _ => true
  | _ => false

/-- The names of a directory. -/
abbrev Entries := Finmap fun _ : String => Entry

/-- No file has an identity from `fresh` on. -/
def Entries.Bounded (fresh : ℕ) (entries : Entries) : Prop :=
  ∀ name id, entries.lookup name = some (.file id) → id < fresh

namespace Entries.Bounded

variable {fresh : ℕ} {entries : Entries}

theorem erase (h : entries.Bounded fresh) (name : String) :
    Entries.Bounded fresh (entries.erase name) := by
  intro name' id hentry
  by_cases hname : name' = name
  · subst hname
    rw [Finmap.lookup_erase] at hentry
    cases hentry
  · rw [Finmap.lookup_erase_ne hname] at hentry
    exact h name' id hentry

theorem insert (h : entries.Bounded fresh) (name : String) {id : ℕ} (hid : id < fresh) :
    Entries.Bounded fresh (entries.insert name (.file id)) := by
  intro name' id' hentry
  by_cases hname : name' = name
  · subst hname
    rw [Finmap.lookup_insert] at hentry
    cases hentry
    exact hid
  · rw [Finmap.lookup_insert_of_ne _ hname] at hentry
    exact h name' id' hentry

theorem succ (h : entries.Bounded fresh) : Entries.Bounded (fresh + 1) entries :=
  fun name id hentry => Nat.lt_succ_of_lt (h name id hentry)

theorem empty (fresh : ℕ) : Entries.Bounded fresh ∅ := fun _ _ hentry => by cases hentry

end Entries.Bounded

/-- A directory with the files it has had: each one's content and mode. -/
structure Directory (β : Type) where
  entries : Entries
  content : ℕ → List β
  mode : ℕ → ℕ
  fresh : ℕ
  bound : entries.Bounded fresh

namespace Directory

variable {β : Type}

/-- A directory with nothing in it. -/
def empty : Directory β := ⟨∅, fun _ => [], fun _ => 0, 0, .empty 0⟩

variable (d : Directory β)

/-- What a name stands for, if anything. -/
def entry (name : String) : Option Entry := d.entries.lookup name

/-- The content of the file of a name. -/
def text (name : String) : Option (List β) :=
  match d.entry name with
  | some (.file id) => some (d.content id)
  | _ => none

/-- The mode of the file of a name. -/
def modeOf (name : String) : Option ℕ :=
  match d.entry name with
  | some (.file id) => some (d.mode id)
  | _ => none

/-- A file of its own, empty, for a name. -/
def create (name : String) (mode : ℕ) : Directory β where
  entries := d.entries.insert name (.file d.fresh)
  content := Function.update d.content d.fresh []
  mode := Function.update d.mode d.fresh mode
  fresh := d.fresh + 1
  bound := d.bound.succ.insert name (Nat.lt_succ_self d.fresh)

/-- Bytes put at the end of a file. -/
def append (id : ℕ) (bytes : List β) : Directory β :=
  { d with content := Function.update d.content id (d.content id ++ bytes) }

/-- `chmod`, of the file of a name; `none` where it has none. -/
def chmod (name : String) (mode : ℕ) : Option (Directory β) :=
  match d.entry name with
  | some (.file id) => some { d with mode := Function.update d.mode id mode }
  | _ => none

/-- `rename`, of a file: the name `target` is given it in one step.  `none` where there is no such
file, or where `target` is a directory. -/
def replace (source target : String) : Option (Directory β) :=
  match hsource : d.entry source with
  | some (.file id) =>
    if d.entry target = some .dir then none
    else some { d with
      entries := (d.entries.erase source).insert target (.file id)
      bound := (d.bound.erase source).insert target (d.bound source id hsource) }
  | _ => none

/-- `unlink`; `none` where there is nothing, or a directory. -/
def unlink (name : String) : Option (Directory β) :=
  match d.entry name with
  | some (.file _) | some .link => some { d with
      entries := d.entries.erase name
      bound := d.bound.erase name }
  | _ => none

/-! ## 1. What each has done -/

variable {d} {d' : Directory β} {name source target : String} {id : ℕ}

theorem entry_lt (h : d.entry name = some (.file id)) : id < d.fresh := d.bound name id h

theorem text_of_file (h : d.entry name = some (.file id)) : d.text name = some (d.content id) := by
  rw [text, h]

theorem modeOf_of_file (h : d.entry name = some (.file id)) : d.modeOf name = some (d.mode id) := by
  rw [modeOf, h]

theorem create_entry (name : String) (mode : ℕ) (other : String) :
    (d.create name mode).entry other =
      if other = name then some (.file d.fresh) else d.entry other := by
  unfold entry create
  dsimp only
  split
  · next h =>
    rw [h]
    exact Finmap.lookup_insert _
  · next h => exact Finmap.lookup_insert_of_ne _ h

theorem create_content (name : String) (mode : ℕ) (hid : id < d.fresh) :
    (d.create name mode).content id = d.content id := Function.update_of_ne hid.ne ..

theorem create_content_self (name : String) (mode : ℕ) :
    (d.create name mode).content d.fresh = [] := Function.update_self ..

theorem create_mode (name : String) (mode : ℕ) (hid : id < d.fresh) :
    (d.create name mode).mode id = d.mode id := Function.update_of_ne hid.ne ..

theorem append_content_self (id : ℕ) (bytes : List β) :
    (d.append id bytes).content id = d.content id ++ bytes := Function.update_self ..

theorem append_content {other : ℕ} (bytes : List β) (h : other ≠ id) :
    (d.append id bytes).content other = d.content other := Function.update_of_ne h ..

/-- What `chmod` has done. -/
theorem chmod_spec {mode : ℕ} (h : d.chmod name mode = some d') :
    (∃ id, d.entry name = some (.file id) ∧ d'.mode = Function.update d.mode id mode) ∧
      (∀ other, d'.entry other = d.entry other) ∧ d'.content = d.content ∧
      d'.fresh = d.fresh := by
  unfold chmod at h
  split at h
  · next id hentry =>
    cases h
    exact ⟨⟨id, hentry, rfl⟩, fun _ => rfl, rfl, rfl⟩
  · cases h

/-- What `replace` has done. -/
theorem replace_spec (h : d.replace source target = some d') :
    (∃ id, d.entry source = some (.file id) ∧ d'.entry target = some (.file id)) ∧
      (source ≠ target → d'.entry source = none) ∧
      (∀ other, other ≠ source → other ≠ target → d'.entry other = d.entry other) ∧
      d'.content = d.content ∧ d'.mode = d.mode ∧ d'.fresh = d.fresh := by
  unfold replace at h
  split at h
  · next id hsource =>
    split at h <;> cases h
    refine ⟨⟨id, hsource, Finmap.lookup_insert _⟩, fun hne => ?_, fun other hs ht => ?_, rfl, rfl,
      rfl⟩
    · exact (Finmap.lookup_insert_of_ne _ hne).trans (Finmap.lookup_erase ..)
    · exact (Finmap.lookup_insert_of_ne _ ht).trans (Finmap.lookup_erase_ne hs)
  · cases h

/-- What `unlink` has done. -/
theorem unlink_spec (h : d.unlink name = some d') :
    d'.entry name = none ∧ (∀ other, other ≠ name → d'.entry other = d.entry other) ∧
      d'.content = d.content ∧ d'.mode = d.mode ∧ d'.fresh = d.fresh := by
  unfold unlink at h
  split at h <;> cases h
  · exact ⟨Finmap.lookup_erase .., fun _ hne => Finmap.lookup_erase_ne hne, rfl, rfl, rfl⟩
  · exact ⟨Finmap.lookup_erase .., fun _ hne => Finmap.lookup_erase_ne hne, rfl, rfl, rfl⟩

end Directory

end BasecradleRouter.Lib
