/-
# Stopping a wake

`Stopper.stop` ends everything a running wake has started: it signals SIGTERM until nothing is left
or the grace period is over, then SIGKILL, and watches what it killed for a while.  All it knows of
the machine are snapshots of the process table; between two of them processes fork, exit, are
reparented, and pids are used again, so that a snapshot is any table.

A wake's members are found in each snapshot anew, by the tree of its root and by the mark its
processes inherit.  A walk down parent links that go round would not end; that is `none`.
-/
import BasecradleRouter.Lib.OrderedDict
import BasecradleRouter.Lib.PyStr
import BasecradleRouter.Lib.Search
import BasecradleRouter.Logfmt
import Mathlib.Algebra.Order.Ring.Unbundled.Rat
import Mathlib.Data.List.Sort

namespace BasecradleRouter.StopWake

open BasecradleRouter.Lib BasecradleRouter.Logfmt

/-- `Proc` -/
structure Proc where
  pid : ℕ
  ppid : ℕ
  uid : ℤ
  start : ℕ
  state : String
  argv : List String
  delivery : Option String
  deriving DecidableEq, Repr

/-- A zombie has already exited. -/
def Proc.alive (p : Proc) : Bool := p.state != "Z" && p.state != "X"

/-- What `read_procs` returns: processes under their pids. -/
structure Procs where
  table : OrderedDict ℕ Proc
  keyed : ∀ pid p, table.get pid = some p → p.pid = pid

/-- `Wake` -/
structure Wake where
  root : Proc
  agent : String
  agentUid : ℤ
  delivery : Option String
  deriving DecidableEq, Repr

/-! ## 1. Members -/

namespace Procs

variable (procs : Procs)

def get (pid : ℕ) : Option Proc := procs.table.get pid

def pids : List ℕ := procs.table.items.map Prod.fst

/-- `children_of(procs, pids).get(parent, ())` -/
def childrenOf (pids : List ℕ) (parent : ℕ) : List ℕ :=
  (pids.insertionSort (· ≤ ·)).filter fun pid => (procs.get pid).map Proc.ppid == some parent

/-- `pid in procs and procs[pid].alive` -/
def aliveAt (pid : ℕ) : Bool := (procs.get pid).any Proc.alive

/-- `tree` -/
def tree (roots : List ℕ) : List ℕ :=
  (Search.reach (procs.childrenOf procs.pids) procs.pids
    (roots.filter (· ∈ procs.pids)).reverse).filter procs.aliveAt

/-- The wake's marked processes. -/
def marked (wake : Wake) : List ℕ :=
  match wake.delivery with
  | none => []
  | some delivery => (procs.table.values.filter fun p =>
      p.alive && p.uid == wake.agentUid && p.delivery == some delivery).map Proc.pid

/-- `members` -/
def members (wake : Wake) : List ℕ := procs.tree (wake.root.pid :: procs.marked wake)

/-! ## 2. Relays, and the order of signals -/

/-- `named` -/
def named (pid : ℕ) (name : String) : Bool :=
  match procs.get pid with
  | some p => (p.argv.head?.map PyStr.basename) == some name
  | none => false

/-- The walk of `left_to_relay`, its path's top first.  A walk of more turns than there are
processes has come by one twice, and does not end. -/
def relayWalk (children : ℕ → List ℕ) : ℕ → List ℕ → List ℕ → Option (List ℕ)
  | _, [], exempt => some exempt
  | 0, _ :: _, _ => none
  | turns + 1, pid :: path, exempt =>
    if procs.named pid "runuser" then relayWalk children turns path (children pid ++ exempt)
    else relayWalk children turns ((children pid).reverse ++ path)
      (if procs.named pid "sudo" then pid :: exempt else exempt)

/-- `left_to_relay` -/
def leftToRelay (wake : Wake) (pids : List ℕ) : Option (List ℕ) :=
  procs.relayWalk (procs.childrenOf pids) pids.length
    (if wake.root.pid ∈ pids then [wake.root.pid] else []) []

/-- The loop of `depth`: how many ancestors are seen when it comes to one again, or to none. -/
def depthFrom : ℕ → List ℕ → ℕ → ℕ
  | 0, seen, _ => seen.length
  | turns + 1, seen, pid =>
    match procs.get pid with
    | some p => if pid ∈ seen then seen.length else depthFrom turns (pid :: seen) p.ppid
    | none => seen.length

/-- `depth` -/
def depth (pid : ℕ) : ℕ := procs.depthFrom (procs.pids.length + 1) [] pid

/-- `by_depth` -/
def byDepth (pids : List ℕ) : List ℕ :=
  pids.insertionSort fun a b =>
    procs.depth a < procs.depth b ∨ (procs.depth a = procs.depth b ∧ a ≤ b)

end Procs

/-! ## 3. The stopper -/

inductive Signal
  | term
  | kill
  deriving DecidableEq, Repr

/-- `_Tracked` -/
structure Tracked where
  start : ℕ
  wake : ℕ
  signalled : Bool
  deriving DecidableEq, Repr

/-- A call of `kill`, and how many snapshots had been read before it. -/
structure Sent where
  read : ℕ
  pid : ℕ
  sig : Signal
  deriving DecidableEq, Repr

/-- The stopper as it runs: what it tracks, how often it has read the process table and the clock,
and what it has signalled and logged.  A line is the pairs it is rendered of. -/
structure Stopper where
  tracked : OrderedDict ℕ Tracked
  reads : ℕ
  times : ℕ
  sent : List Sent
  logged : List (List (String × Value))

/-- What the stopper is given: the snapshots, the clock, and `{:.1f}`. -/
structure Machine where
  read : ℕ → Procs
  now : ℕ → ℚ
  seconds : ℚ → String

namespace Stopper

/-- `Stopper(…)` -/
def new : Stopper := ⟨.empty, 0, 0, [], []⟩

/-- `self.read()` -/
def reading (s : Stopper) : Stopper := { s with reads := s.reads + 1 }

/-- `self.now()` -/
def timing (s : Stopper) : Stopper := { s with times := s.times + 1 }

/-- `self.log(fields(…))` -/
def log (s : Stopper) (line : List (String × Value)) : Stopper :=
  { s with logged := s.logged ++ [line] }

/-- `_live` -/
def live (s : Stopper) (procs : Procs) : List ℕ :=
  ((s.tracked.items.filter fun (pid, t) =>
    (procs.get pid).any fun p => p.start == t.start && p.alive).map Prod.fst).insertionSort (· ≤ ·)

/-- `_send`, to a tracked process; that it has exited meanwhile is suppressed. -/
def send (s : Stopper) (pid : ℕ) (sig : Signal) : Stopper :=
  { s with
    tracked := match s.tracked.get pid with
      | some t => s.tracked.set pid { t with signalled := true }
      | none => s.tracked
    sent := s.sent ++ [⟨s.reads, pid, sig⟩] }

/-- `_send`, unless a relay will deliver it. -/
def sendUnless (relayed : List ℕ) (sig : Signal) (s : Stopper) (pid : ℕ) : Stopper :=
  if pid ∈ relayed then s else s.send pid sig

/-- The loop of `_sweep` over one wake's members: the stopper, and the members tracked first. -/
def sweepMember (procs : Procs) (sig : Signal) (relayed : List ℕ) (index : ℕ)
    (state : Stopper × List ℕ) (pid : ℕ) : Stopper × List ℕ :=
  let (s, fresh) := state
  let start := ((procs.get pid).map Proc.start).getD 0
  match s.tracked.get pid with
  | none =>
    (sendUnless relayed sig { s with tracked := s.tracked.set pid ⟨start, index, false⟩ } pid,
      fresh ++ [pid])
  | some t =>
    if t.signalled || t.start != start then (s, fresh) else (sendUnless relayed sig s pid, fresh)

/-- The loop of `_sweep` over the wakes. -/
def sweepWake (procs : Procs) (sig : Signal) (state : Stopper × List ℕ) (item : Wake × ℕ) :
    Option (Stopper × List ℕ) :=
  let (wake, index) := item
  let pids := procs.members wake
  (if sig = .term then procs.leftToRelay wake pids else some []).map fun relayed =>
    (procs.byDepth pids).foldl (sweepMember procs sig relayed index) state

/-- `_sweep` -/
def sweep (s : Stopper) (procs : Procs) (wakes : List Wake) (sig : Signal) :
    Option (Stopper × List ℕ) :=
  wakes.zipIdx.foldlM (sweepWake procs sig) (s, [])

/-! ## 4. A stop -/

variable (machine : Machine) (wakes : List Wake)

/-- The loop while the wakes drain, of at most so many turns. -/
def drain (started grace : ℚ) : ℕ → Stopper → Option Stopper
  | 0, _ => none
  | turns + 1, s =>
    if machine.now s.times - started < grace then
      let procs := machine.read s.reads
      match s.timing.reading.sweep procs wakes .term with
      | none => none
      | some (s, fresh) =>
        if fresh = [] ∧ s.live procs = [] then some s else drain started grace turns s
    else some s.timing

/-- `KILL_WAIT` in steps of `POLL`: the turns in which what has been waited is less. -/
def killPolls : ℕ := 15

/-- The loop after SIGKILL. -/
def watch : ℕ → Stopper → List ℕ → Stopper × List ℕ
  | 0, s, survivors => (s, survivors)
  | turns + 1, s, survivors =>
    if survivors = [] then (s, survivors)
    else watch turns s.reading (s.reading.live (machine.read s.reads))

/-- `" ".join(map(str, pids)) or None` -/
def pidsText (pids : List ℕ) : Value :=
  if pids = [] then .none else .str (String.intercalate " " (pids.map toString))

/-- The first line, of one wake. -/
def requestedLine (procs : Procs) (who : String) (wake : Wake) : List (String × Value) :=
  [("event", .str "wake_stop_requested"), ("delivery", .ofOption wake.delivery),
    ("agent", .str wake.agent), ("by", .str who), ("signal", .str "TERM"),
    ("pids", .int (procs.members wake).length)]

/-- The last line, of one wake. -/
def doneLine (s : Stopper) (who elapsed : String) (killed survivors : List ℕ)
    (item : Wake × ℕ) : List (String × Value) :=
  let (wake, index) := item
  let own := (s.tracked.items.filter fun (_, t) => t.wake == index)
  let ownSignalled := own.filter fun (_, t) => t.signalled
  let ownKilled := (own.map Prod.fst).filter (· ∈ killed)
  let ownSurvivors := ((own.map Prod.fst).filter (· ∈ survivors)).insertionSort (· ≤ ·)
  let outcome := if ownSurvivors ≠ [] then "survived" else if ownKilled ≠ [] then "killed"
    else "stopped"
  [("event", .str "wake_stop_done"), ("delivery", .ofOption wake.delivery),
    ("agent", .str wake.agent), ("by", .str who), ("outcome", .str outcome),
    ("signalled", .int ownSignalled.length), ("killed", .int ownKilled.length),
    ("survivors", pidsText ownSurvivors), ("duration", .str elapsed)]

/-- What a stop leaves: the pids it returns, the stopper, and how many of the snapshots it read were
swept; the others it only watched. -/
structure Stopped where
  survivors : List ℕ
  stopper : Stopper
  swept : ℕ

/-- `stop`, of at most so many turns while the wakes drain. -/
def stop (who : String) (grace : ℚ) (turns : ℕ) (s : Stopper) : Option Stopped := do
  let started := machine.now s.times
  let procs := machine.read s.reads
  let s := wakes.foldl (fun s wake => s.log (requestedLine procs who wake)) s.timing.reading
  let (s, _) ← s.sweep procs wakes .term
  let s ← drain machine wakes started grace turns s
  let procs := machine.read s.reads
  let killed := s.reading.live procs
  let s := killed.foldl (fun s pid => s.send pid .kill) s.reading
  let (s, fresh) ← s.sweep procs wakes .kill
  let killed := killed ++ fresh
  let swept := s.reads
  let (s, survivors) := watch machine killPolls s killed
  let elapsed := machine.seconds (machine.now s.times - started) ++ "s"
  let s := wakes.zipIdx.foldl (fun s item => s.log (doneLine s who elapsed killed survivors item))
    s.timing
  return ⟨survivors, s, swept⟩

/-- `EXIT_SURVIVED if survivors else EXIT_STOPPED` -/
def exitCode (stopped : Stopped) : ℤ := if stopped.survivors = [] then 0 else 1

end Stopper

end BasecradleRouter.StopWake
