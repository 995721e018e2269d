/-
# The evidence file

The daemon keeps its document in one file, which other processes read at any time.  `_atomic_write`
writes a file of its own beside it and gives the document's name to that; where it is killed in
between, the file it wrote stays behind, and the next daemon sweeps it away before it loads.

A `Machine` is the directory with the daemon and its readers, and an `Act` one system call of one of
them: a call may raise, and the daemon may be killed between any two.  A byte of the file is a
character here, since `json.dumps` escapes whatever is not ASCII.

`swapped` and `happened` are history: the documents whose file was given the document's name, and
what the store has gone through.
-/
import BasecradleRouter.Evidence.Coherence
import BasecradleRouter.Lib.Directory
import BasecradleRouter.Lib.JsonSorted
import BasecradleRouter.Lib.Transition

namespace BasecradleRouter.Evidence

open BasecradleRouter.Lib

/-! ## 1. The text of a document -/

/-- `json.dumps(doc.to_json(), indent=2, sort_keys=True)` -/
def Document.dumps (doc : Document) : List Char :=
  JsonLayout.write (.indented 2) JsonString.escape 0 doc.toJson.sortKeys

/-- What a file is loaded as: a file that is missing or cannot be parsed as one that holds nothing
of use. -/
def parsed (text : Option (List Char)) : Json := (text.bind JsonCodec.loads).getD .null

/-- `_load`; `none` where it raises. -/
def load (float : FloatText) (text : Option (List Char)) : Option Document :=
  Document.fromJson float (parsed text)

/-! ## 2. What a call does to the document -/

/-- What a `record_*` leaves in memory, and whether it flushes. -/
def Document.recorded (float : FloatText) (doc : Document) (call : Timed) :
    Option (Document × Bool) :=
  match call.operation with
  | .queueDepth agent pending =>
    let wake := doc.wake agent
    if (wake.attributes "queued").equalsInt float pending then
      some ({ doc with agentWakes := doc.agentWakes.insert agent wake }, false)
    else (doc.record float call.now call.operation).map fun doc =>
      ({ doc with updatedAt := some call.stamp.isoformat }, true)
  | operation => (doc.record float call.now operation).map fun doc =>
      ({ doc with updatedAt := some call.stamp.isoformat }, true)

/-- `_discard_stale_queue_depths`, and whether it flushes. -/
def Document.discarded (float : FloatText) (doc : Document) (stamp : Utc) : Document × Bool :=
  if doc.stale float then
    ({ doc.discardQueued float with updatedAt := some stamp.isoformat }, true)
  else (doc, false)

/-- What has happened, by whether its flush reached the file. -/
def StoreEvent.happened (reaches : Bool) : StoreEvent → Happening
  | .record call => .record call reaches
  | .restart stamp => .restart stamp reaches

/-! ## 3. The daemon and its readers -/

/-- `_TEMP_PREFIX` -/
def tempPrefix : String := ".evidence-"

/-- `_TEMP_SUFFIX` -/
def tempSuffix : String := ".tmp"

/-- A name that `mkstemp` makes. -/
def isTemp (name : String) : Bool := name.startsWith tempPrefix && name.endsWith tempSuffix

/-- How far `_atomic_write` has come. -/
inductive Flushing
  /-- it was called -/
  | called
  /-- its file is open, and so much is still to be written -/
  | writing (temp : String) (id : ℕ) (rest : List Char)
  | written (temp : String)
  | widened (temp : String)
  /-- something was raised, and its file is still to be unlinked -/
  | raised (temp : String)

/-- The file that a flush has made so far. -/
def Flushing.temp : Flushing → Option String
  | .called => none
  | .writing temp _ _ | .written temp | .widened temp | .raised temp => some temp

/-- The daemon. -/
inductive Process
  | down
  /-- `_remove_orphaned_temps` has so many still to unlink -/
  | sweeping (orphans : List String)
  /-- what it keeps in memory, and its flush if one is underway -/
  | up (doc : Document) (flush : Option Flushing)

/-- Another process that reads the document, and how many times it had been swapped when it was
opened. -/
inductive Reader
  | off
  | missing (opened : ℕ)
  | reading (id : ℕ) (seen : List Char) (opened : ℕ)
  | finished (text : List Char) (opened : ℕ)

/-- The directory and the processes. -/
structure Machine where
  dir : Directory Char
  process : Process
  readers : ℕ → Reader
  /-- no orphan has been left since the last sweep -/
  clean : Bool
  swapped : List Document
  happened : List Happening
  /-- the one that is flushed now -/
  current : Option StoreEvent

/-- One system call. -/
inductive Act
  /-- the daemon starts, and lists the directory or cannot -/
  | start (listed : Bool)
  /-- `os.unlink` of an orphan, which may raise -/
  | sweep (unlinks : Bool)
  /-- `_load` and `_discard_stale_queue_depths`, with the clock -/
  | load (stamp : Utc)
  /-- a `record_*` call, up to its flush -/
  | record (call : Timed)
  /-- `tempfile.mkstemp` -/
  | mkstemp (name : String)
  /-- `handle.write`: the next bytes reach the file -/
  | write (bytes : ℕ)
  /-- the handle is closed -/
  | close
  /-- `os.chmod` -/
  | chmod
  /-- `os.replace` -/
  | replace
  /-- the call that comes next raises -/
  | raise
  /-- `os.unlink` of what was written, which may raise -/
  | cleanUp (unlinks : Bool)
  /-- the daemon is killed -/
  | kill
  /-- a reader opens the document -/
  | open_ (reader : ℕ)
  /-- it reads on -/
  | read (reader bytes : ℕ)
  /-- it has come to the end -/
  | eof (reader : ℕ)

namespace Machine

/-- Nothing runs yet. -/
def start (dir : Directory Char) : Machine where
  dir := dir
  process := .down
  readers _ := .off
  clean := false
  swapped := []
  happened := []
  current := none

variable (float : FloatText) (document : String) (M : Machine)

/-- The orphans that `os.scandir` lists: regular files of a temp's name, never the document. -/
def orphans : List String :=
  (PyStr.sorted M.dir.entries.keys).filter fun name =>
    isTemp name && name != document && ((M.dir.entry name).map Entry.isFile).getD false

/-- The flush is over, and with it what was happening. -/
def settle (doc : Document) (reaches : Bool) : Machine :=
  { M with
    process := .up doc none
    happened := M.happened ++ (M.current.map (·.happened reaches)).toList
    current := none }

/-- What was changed in memory is flushed, or need not be. -/
def change (event : StoreEvent) (changed : Document × Bool) : Machine :=
  if changed.2 then
    { M with process := .up changed.1 (some .called), current := some event }
  else
    { M with process := .up changed.1 none, happened := M.happened ++ [event.happened true] }

/-- A call of the daemon, `none` where it is not the next one. -/
def daemonStep : Act → Option Machine
  | .start listed =>
    match M.process with
    | .down => some { M with
        process := .sweeping (if listed then M.orphans document else [])
        clean := listed }
    | _ => none
  | .sweep unlinks =>
    match M.process with
    | .sweeping (name :: orphans) =>
      if unlinks then
        (M.dir.unlink name).map fun dir => { M with dir := dir, process := .sweeping orphans }
      else some { M with process := .sweeping orphans, clean := false }
    | _ => none
  | .load stamp =>
    match M.process with
    | .sweeping [] => (load float (M.dir.text document)).map fun doc =>
        M.change (.restart stamp) (doc.discarded float stamp)
    | _ => none
  | .record call =>
    match M.process with
    | .up doc none => (doc.recorded float call).map (M.change (.record call))
    | _ => none
  | .mkstemp name =>
    match M.process with
    | .up doc (some .called) =>
      if isTemp name = true ∧ M.dir.entry name = none then
        some { M with
          dir := M.dir.create name 0o600
          process := .up doc (some (.writing name M.dir.fresh doc.dumps)) }
      else none
    | _ => none
  | .write bytes =>
    match M.process with
    | .up doc (some (.writing temp id rest)) => some { M with
        dir := M.dir.append id (rest.take bytes)
        process := .up doc (some (.writing temp id (rest.drop bytes))) }
    | _ => none
  | .close =>
    match M.process with
    | .up doc (some (.writing temp _ [])) =>
      some { M with process := .up doc (some (.written temp)) }
    | _ => none
  | .chmod =>
    match M.process with
    | .up doc (some (.written temp)) => (M.dir.chmod temp 0o644).map fun dir =>
        { M with dir := dir, process := .up doc (some (.widened temp)) }
    | _ => none
  | .replace =>
    match M.process with
    | .up doc (some (.widened temp)) => (M.dir.replace temp document).map fun dir =>
        { M with dir := dir, swapped := M.swapped ++ [doc] }.settle doc true
    | _ => none
  | .raise =>
    match M.process with
    | .up doc (some .called) => some (M.settle doc false)
    | .up doc (some (.writing temp _ _)) | .up doc (some (.written temp))
    | .up doc (some (.widened temp)) =>
      some { M with process := .up doc (some (.raised temp)) }
    | _ => none
  | .cleanUp unlinks =>
    match M.process with
    | .up doc (some (.raised temp)) =>
      if unlinks then
        (M.dir.unlink temp).map fun dir => { M with dir := dir }.settle doc false
      else some ({ M with clean := false }.settle doc false)
    | _ => none
  | .kill =>
    match M.process with
    | .down => none
    | _ => some { M with
        process := .down
        clean := false
        happened := M.happened ++ (M.current.map (·.happened false)).toList
        current := none }
  | _ => none

/-- A reader is at another point. -/
def setReader (reader : ℕ) (at_ : Reader) : Machine :=
  { M with readers := Function.update M.readers reader at_ }

/-- A call of a reader. -/
def readerStep : Act → Option Machine
  | .open_ reader =>
    match M.readers reader with
    | .off => some (M.setReader reader (match M.dir.entry document with
        | some (.file id) => .reading id [] M.swapped.length
        | _ => .missing M.swapped.length))
    | _ => none
  | .read reader bytes =>
    match M.readers reader with
    | .reading id seen opened => some (M.setReader reader (.reading id
        (seen ++ ((M.dir.content id).drop seen.length).take bytes) opened))
    | _ => none
  | .eof reader =>
    match M.readers reader with
    | .reading id seen opened =>
      if seen.length = (M.dir.content id).length then
        some (M.setReader reader (.finished seen opened))
      else none
    | _ => none
  | _ => none

/-- What an act does, `none` where it is not enabled. -/
def step (act : Act) : Option Machine :=
  (M.daemonStep float document act).or (M.readerStep document act)

/-! ## 4. What a step does -/

/-- The daemon's calls, each with what it finds and what it leaves. -/
inductive Moves : Act → Machine → Prop
  | start (listed : Bool) (hprocess : M.process = .down) : Moves (.start listed) { M with
      process := .sweeping (if listed then M.orphans document else [])
      clean := listed }
  | swept {name : String} {orphans : List String} {dir : Directory Char}
      (hprocess : M.process = .sweeping (name :: orphans))
      (hunlink : M.dir.unlink name = some dir) :
      Moves (.sweep true) { M with dir := dir, process := .sweeping orphans }
  | leftOrphan {name : String} {orphans : List String}
      (hprocess : M.process = .sweeping (name :: orphans)) :
      Moves (.sweep false) { M with process := .sweeping orphans, clean := false }
  | loaded {doc : Document} {stamp : Utc} (hprocess : M.process = .sweeping [])
      (hload : Evidence.load float (M.dir.text document) = some doc) :
      Moves (.load stamp) (M.change (.restart stamp) (doc.discarded float stamp))
  | recorded {doc : Document} {call : Timed} {changed : Document × Bool}
      (hprocess : M.process = .up doc none) (hrecorded : doc.recorded float call = some changed) :
      Moves (.record call) (M.change (.record call) changed)
  | made {doc : Document} {name : String} (hprocess : M.process = .up doc (some .called))
      (hname : isTemp name = true) (hnew : M.dir.entry name = none) : Moves (.mkstemp name) { M with
        dir := M.dir.create name 0o600
        process := .up doc (some (.writing name M.dir.fresh doc.dumps)) }
  | wrote {doc : Document} {temp : String} {id : ℕ} {rest : List Char} {bytes : ℕ}
      (hprocess : M.process = .up doc (some (.writing temp id rest))) :
      Moves (.write bytes) { M with
        dir := M.dir.append id (rest.take bytes)
        process := .up doc (some (.writing temp id (rest.drop bytes))) }
  | closed {doc : Document} {temp : String} {id : ℕ}
      (hprocess : M.process = .up doc (some (.writing temp id []))) :
      Moves .close { M with process := .up doc (some (.written temp)) }
  | widened {doc : Document} {temp : String} {dir : Directory Char}
      (hprocess : M.process = .up doc (some (.written temp)))
      (hchmod : M.dir.chmod temp 0o644 = some dir) :
      Moves .chmod { M with dir := dir, process := .up doc (some (.widened temp)) }
  | replaced {doc : Document} {temp : String} {dir : Directory Char}
      (hprocess : M.process = .up doc (some (.widened temp)))
      (hreplace : M.dir.replace temp document = some dir) :
      Moves .replace ({ M with dir := dir, swapped := M.swapped ++ [doc] }.settle doc true)
  | notMade {doc : Document} (hprocess : M.process = .up doc (some .called)) :
      Moves .raise (M.settle doc false)
  | raised {doc : Document} {f : Flushing} {temp : String}
      (hprocess : M.process = .up doc (some f)) (htemp : f.temp = some temp) :
      Moves .raise { M with process := .up doc (some (.raised temp)) }
  | cleaned {doc : Document} {temp : String} {dir : Directory Char}
      (hprocess : M.process = .up doc (some (.raised temp)))
      (hunlink : M.dir.unlink temp = some dir) :
      Moves (.cleanUp true) ({ M with dir := dir }.settle doc false)
  | leftTemp {doc : Document} {temp : String}
      (hprocess : M.process = .up doc (some (.raised temp))) :
      Moves (.cleanUp false) ({ M with clean := false }.settle doc false)
  | killed (hprocess : M.process ≠ .down) : Moves .kill { M with
      process := .down
      clean := false
      happened := M.happened ++ (M.current.map (·.happened false)).toList
      current := none }

variable {float document M} {M' : Machine} {act : Act}

/-- **What a call of the daemon does.** -/
theorem moves_of_daemonStep (hs : M.daemonStep float document act = some M') :
    M.Moves float document act M' := by
  cases act with
  | start listed =>
    simp only [daemonStep] at hs
    split at hs <;> cases hs
    exact .start listed ‹_›
  | sweep unlinks =>
    simp only [daemonStep] at hs
    split at hs
    · next name orphans hprocess =>
      cases unlinks with
      | true =>
        obtain ⟨dir, hunlink, rfl⟩ := Option.map_eq_some_iff.mp hs
        exact .swept hprocess hunlink
      | false =>
        cases hs
        exact .leftOrphan hprocess
    · cases hs
  | load stamp =>
    simp only [daemonStep] at hs
    split at hs
    · next hprocess =>
      obtain ⟨doc, hload, rfl⟩ := Option.map_eq_some_iff.mp hs
      exact .loaded hprocess hload
    · cases hs
  | record call =>
    simp only [daemonStep] at hs
    split at hs
    · next doc hprocess =>
      obtain ⟨changed, hrecorded, rfl⟩ := Option.map_eq_some_iff.mp hs
      exact .recorded hprocess hrecorded
    · cases hs
  | mkstemp name =>
    simp only [daemonStep] at hs
    split at hs
    · split at hs <;> cases hs
      next hprocess hname =>
      exact .made hprocess hname.1 hname.2
    · cases hs
  | write bytes =>
    simp only [daemonStep] at hs
    split at hs <;> cases hs
    exact .wrote ‹_›
  | close =>
    simp only [daemonStep] at hs
    split at hs <;> cases hs
    exact .closed ‹_›
  | chmod =>
    simp only [daemonStep] at hs
    split at hs
    · next hprocess =>
      obtain ⟨dir, hchmod, rfl⟩ := Option.map_eq_some_iff.mp hs
      exact .widened hprocess hchmod
    · cases hs
  | replace =>
    simp only [daemonStep] at hs
    split at hs
    · next hprocess =>
      obtain ⟨dir, hreplace, rfl⟩ := Option.map_eq_some_iff.mp hs
      exact .replaced hprocess hreplace
    · cases hs
  | raise =>
    simp only [daemonStep] at hs
    split at hs <;> cases hs
    · exact .notMade ‹_›
    all_goals exact .raised ‹_› rfl
  | cleanUp unlinks =>
    simp only [daemonStep] at hs
    split at hs
    · next hprocess =>
      cases unlinks with
      | true =>
        obtain ⟨dir, hunlink, rfl⟩ := Option.map_eq_some_iff.mp hs
        exact .cleaned hprocess hunlink
      | false =>
        cases hs
        exact .leftTemp hprocess
    · cases hs
  | kill =>
    simp only [daemonStep] at hs
    split at hs <;> cases hs
    next hprocess =>
    exact .killed fun hdown => hprocess hdown
  | open_ r => cases hs
  | read r bytes => cases hs
  | eof r => cases hs

/-- A reader changes nothing but where it is. -/
theorem readerStep_eq (hs : M.readerStep document act = some M') :
    ∃ r at_, M' = M.setReader r at_ := by
  cases act with
  | open_ r =>
    simp only [readerStep] at hs
    split at hs <;> cases hs
    exact ⟨r, _, rfl⟩
  | read r bytes =>
    simp only [readerStep] at hs
    split at hs <;> cases hs
    exact ⟨r, _, rfl⟩
  | eof r =>
    simp only [readerStep] at hs
    split at hs
    · split at hs <;> cases hs
      exact ⟨r, _, rfl⟩
    · cases hs
  | _ => cases hs

end Machine

end BasecradleRouter.Evidence
