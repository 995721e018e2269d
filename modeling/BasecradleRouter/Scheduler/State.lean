/-
# The wake scheduler's state and its critical sections

`WakeScheduler` holds everything the scheduler's condition guards.  Each definition below is
what one method does to it while the condition is held; a method that pops from an empty queue
or indexes a missing key is `none` there.  `executor.submit` does not raise, so `pump` returns
the jobs it handed to the pool, in order.

`pump` walks the ready rotation and never adds to it, so it recurses on the rotation itself.
-/
import BasecradleRouter.Lib.Dict
import BasecradleRouter.Pipeline.Record
import Mathlib.Data.Finset.Card

namespace BasecradleRouter.Scheduler

open BasecradleRouter.Lib BasecradleRouter.Models BasecradleRouter.Pipeline

/-- `_Job`: one queued wake. -/
structure Job where
  agent : Agent
  event : Event
  result : PipelineResult

/-- The key a job is queued under. -/
def Job.key (j : Job) : String := j.agent.harnessKey

/-- A sample job, for the builder `slug`. -/
def Job.sample (slug : String) (h : Required slug) : Job where
  agent := .builder slug h
  event := .message slug "delivery" none h (by decide)
  result := ⟨[], none, none⟩

def Job.alice : Job := .sample "alice" (by decide)

def Job.bob : Job := .sample "bob" required_bob

def Job.carol : Job := .sample "carol" (by decide)

/-- What the scheduler's condition guards. -/
structure WakeScheduler where
  lanes : ℕ
  queues : Dict String (List Job)
  ready : List String
  readySet : Finset String
  inflight : Finset String
  notifying : ℕ
  notifySeq : Dict String ℕ
  notifyTurn : Dict String ℕ
  saturated : Bool
  lanes_pos : 1 ≤ lanes

namespace WakeScheduler

/-- `WakeScheduler(run, lanes=…)` -/
def new (lanes : ℕ) (h : 1 ≤ lanes) : WakeScheduler where
  lanes := lanes
  queues := Dict.empty
  ready := []
  readySet := ∅
  inflight := ∅
  notifying := 0
  notifySeq := Dict.empty
  notifyTurn := Dict.empty
  saturated := false
  lanes_pos := h

variable (s : WakeScheduler)

/-- `self._queues.get(key, ())` -/
def queue (key : String) : List Job := (s.queues.get key).getD []

/-- An agent joins the back of the rotation. -/
def pushReady (key : String) : WakeScheduler :=
  { s with ready := s.ready ++ [key], readySet := insert key s.readySet }

/-- `self._queues.setdefault(key, deque()).append(job)` -/
def addJob (job : Job) : WakeScheduler :=
  { s with queues := s.queues.set job.key (s.queue job.key ++ [job]) }

/-- `submit`, up to the pump: the job joins its agent's queue, and the agent the rotation if it
is neither running nor already there. -/
def enqueue (job : Job) : WakeScheduler :=
  if job.key ∉ s.inflight ∧ job.key ∉ s.readySet then
    (s.addJob job).pushReady job.key
  else
    s.addJob job

/-- `self._inflight.discard(key)` -/
def freeLane (key : String) : WakeScheduler := { s with inflight := s.inflight.erase key }

/-- `_run_job`'s `finally`, up to the pump: the lane is freed, and the agent rejoins at the
back if it has more work. -/
def release (key : String) : WakeScheduler :=
  if s.queue key ≠ [] ∧ key ∉ s.readySet then
    (s.freeLane key).pushReady key
  else
    s.freeLane key

/-- The head of the rotation leaves it for a lane, `rest` being what its queue still holds. -/
def takeLane (key : String) (ready : List String) (rest : List Job) : WakeScheduler :=
  { s with
    ready := ready
    readySet := s.readySet.erase key
    queues := if rest = [] then s.queues.del key else s.queues.set key rest
    inflight := insert key s.inflight }

/-- One turn of `_pump_locked`'s loop, for the rotation `key :: ready`. -/
def dispatch (key : String) (ready : List String) : Option (Job × WakeScheduler) :=
  match s.queues.get key with
  | some (job :: rest) => some (job, s.takeLane key ready rest)
  | _ => none

/-- `_pump_locked`'s loop over the rotation, with the jobs it hands to the pool. -/
def pump (s : WakeScheduler) : List String → Option (List (String × Job) × WakeScheduler)
  | [] => some ([], s)
  | key :: ready =>
    if s.inflight.card < s.lanes then
      match s.dispatch key ready with
      | none => none
      | some (job, s') =>
        match s'.pump ready with
        | none => none
        | some (jobs, s'') => some ((key, job) :: jobs, s'')
    else
      some ([], s)

/-- `_note_saturation_locked`, without its log line. -/
def noteSaturation : WakeScheduler :=
  { s with saturated := s.lanes ≤ s.inflight.card && !s.ready.isEmpty }

/-- `_pump_locked` -/
def pumpLocked : Option (List (String × Job) × WakeScheduler) :=
  (s.pump s.ready).map fun p => (p.1, p.2.noteSaturation)

/-- `_pending_locked` -/
def pending (key : String) : ℕ := (s.queue key).length + if key ∈ s.inflight then 1 else 0

/-- `_claim_notification_locked` -/
def claimNotification (key : String) : ℕ × WakeScheduler :=
  let ticket := (s.notifySeq.get key).getD 0
  (ticket, { s with
    notifySeq := s.notifySeq.set key (ticket + 1)
    notifying := s.notifying + 1 })

/-- The test `_deliver_queue_change` waits for. -/
def isTurn (key : String) (ticket : ℕ) : Bool := (s.notifyTurn.get key).getD 0 == ticket

/-- `_deliver_queue_change`'s `finally`. -/
def settleNotification (key : String) (ticket : ℕ) : WakeScheduler :=
  if some (ticket + 1) = s.notifySeq.get key then
    { s with
      notifySeq := s.notifySeq.del key
      notifyTurn := s.notifyTurn.del key
      notifying := s.notifying - 1 }
  else
    { s with
      notifyTurn := s.notifyTurn.set key (ticket + 1)
      notifying := s.notifying - 1 }

/-- `_idle_locked` -/
def idle : Bool := decide (s.inflight = ∅) && s.ready.isEmpty && s.notifying == 0

end WakeScheduler

end BasecradleRouter.Scheduler
