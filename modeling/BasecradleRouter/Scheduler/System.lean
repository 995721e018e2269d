/-
# The scheduler with its threads

`System` is the scheduler together with everything that runs beside it: the jobs the pool is
running, and the notifications that were claimed and not yet settled, each held by the thread
that claimed it.  A `Label` is one atomic step of one thread; critical sections are atomic, and
between them any thread may move, so a list of labels is an interleaving.

The last four fields are history: what was submitted and started, and which pending counts were
read under the condition and handed to the observer.
-/
import BasecradleRouter.Lib.TicketLine
import BasecradleRouter.Lib.Transition
import BasecradleRouter.Scheduler.State

namespace BasecradleRouter.Scheduler

open BasecradleRouter.Lib

/-- The scheduler and the threads around it. -/
structure System where
  sched : WakeScheduler
  running : List (String × Job)
  notes : List (String × Ticket ℕ)
  submitted : List Job
  started : List (String × Job)
  claimed : List (String × ℕ)
  observed : List (String × ℕ)

/-- One step of one thread; a running job and an outstanding notification are named by their
position. -/
inductive Label
  /-- `submit`'s critical section -/
  | submit (job : Job)
  /-- `_run_job`'s `finally`, once the wake has run (returned or raised) -/
  | complete (i : ℕ)
  /-- `_deliver_queue_change`'s `wait_for` returns -/
  | takeTurn (i : ℕ)
  /-- the observer is called, and returns or raises -/
  | observe (i : ℕ) (raised : Bool)
  /-- `_deliver_queue_change`'s `finally` -/
  | settle (i : ℕ)

namespace System

/-- A fresh scheduler with `lanes` lanes. -/
def start (lanes : ℕ) (h : 1 ≤ lanes) : System :=
  ⟨WakeScheduler.new lanes h, [], [], [], [], [], []⟩

/-- A critical section up to its pump, and the agent it is for: `submit` queues the job, a
finished wake frees its lane. -/
def beforePump (S : System) : Label → Option (String × System)
  | .submit job =>
    some (job.key, { S with
      sched := S.sched.enqueue job
      submitted := S.submitted ++ [job] })
  | .complete i =>
    S.running[i]?.map fun r => (r.1, { S with
      sched := S.sched.release r.1
      running := S.running.eraseIdx i })
  | _ => none

/-- A critical section after its pump: the jobs the pump handed over run, the pending count is
read and its notification claimed. -/
def claim (S : System) (key : String) (jobs : List (String × Job)) (sched : WakeScheduler) :
    System where
  sched := (sched.claimNotification key).2
  running := S.running ++ jobs
  notes := S.notes ++ [(key, ⟨(sched.claimNotification key).1, sched.pending key, .waiting⟩)]
  submitted := S.submitted
  started := S.started ++ jobs
  claimed := S.claimed ++ [(key, sched.pending key)]
  observed := S.observed

/-- The rest of a critical section. -/
def pumpAndClaim (S : System) (key : String) : Option System :=
  S.sched.pumpLocked.map fun p => S.claim key p.1 p.2

/-- What a label does, `none` where it is not enabled. -/
def step (S : System) (l : Label) : Option System :=
  match l with
  | .submit _ | .complete _ => (S.beforePump l).bind fun p => p.2.pumpAndClaim p.1
  | .takeTurn i =>
    match S.notes[i]? with
    | some (key, t) =>
      if t.phase = .waiting ∧ S.sched.isTurn key t.number then
        some { S with notes := S.notes.set i (key, { t with phase := .called }) }
      else
        none
    | none => none
  | .observe i _ =>
    match S.notes[i]? with
    | some (key, t) =>
      if t.phase = .called then
        some { S with
          notes := S.notes.set i (key, { t with phase := .told })
          observed := S.observed ++ [(key, t.payload)] }
      else
        none
    | none => none
  | .settle i =>
    match S.notes[i]? with
    | some (key, t) =>
      if t.phase = .told then
        some { S with
          sched := S.sched.settleNotification key t.number
          notes := S.notes.eraseIdx i }
      else
        none
    | none => none

/-- The jobs submitted for an agent, in order. -/
def submittedFor (S : System) (key : String) : List Job := S.submitted.filter (·.key = key)

/-- The jobs started for an agent, in order. -/
def startedFor (S : System) (key : String) : List Job :=
  (S.started.filter (·.1 = key)).map Prod.snd

/-- The pending counts read for an agent, in order. -/
def claimedFor (S : System) (key : String) : List ℕ :=
  (S.claimed.filter (·.1 = key)).map Prod.snd

/-- The pending counts the observer was handed for an agent, in order. -/
def observedFor (S : System) (key : String) : List ℕ :=
  (S.observed.filter (·.1 = key)).map Prod.snd

/-- The outstanding notifications of an agent, in claim order. -/
def notesFor (S : System) (key : String) : List (Ticket ℕ) :=
  (S.notes.filter (·.1 = key)).map Prod.snd

/-- `S` is reached from a fresh scheduler by some interleaving. -/
def Reachable (S : System) : Prop :=
  ∃ lanes h ls, Steps step (start lanes h) ls S

end System

end BasecradleRouter.Scheduler
