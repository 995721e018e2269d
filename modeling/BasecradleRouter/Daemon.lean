/-
# The daemon

The front end, the pipeline's two halves and the scheduler, put together as the daemon runs them.
A request that is accepted submits its wake before it is answered; a job that a lane has taken is
executed and then finished; the scheduler's notifications are told to the evidence, which keeps each
agent's queue depth.  An `Act` is one atomic step of one of the threads, so a list of acts is an
interleaving of all of them.

`executor.submit` is taken not to raise: a submit always starts what it pumps.  `exchanges` and
`executed` are history: what was answered, and which wakes were run.
-/
import BasecradleRouter.Pipeline.Router
import BasecradleRouter.Scheduler.System
import BasecradleRouter.Server

namespace BasecradleRouter

open Lib Models Routes Pipeline Evidence Server Scheduler

/-- One exchange: what was sent, and the wake that was taken on. -/
structure Exchange where
  sent : List Sent
  pending : Option (Agent × Event)

/-- The status that was sent. -/
def Exchange.status (exchange : Exchange) : Option ℕ :=
  exchange.sent.findSome? fun
    | .start status _ => some status
    | .body _ => none

/-- The daemon; the agents in `done` have a job that was executed and is not finished yet. -/
structure Daemon where
  objects : Objects
  world : World
  system : System
  done : Finset String
  exchanges : List Exchange
  executed : List (Agent × Event)

/-- One step; a running job and an outstanding notification are named by their position. -/
inductive Act
  /-- `__call__` of an `http` scope, once its body is there -/
  | request (scope : Scope) (received : List Received) (f : Flushes)
  /-- `_run_job`'s `self._run(…)` -/
  | execute (i : ℕ) (readings : Readings)
  /-- `_run_job`'s `finally` -/
  | finish (i : ℕ)
  /-- `_deliver_queue_change`: its turn has come -/
  | takeTurn (i : ℕ)
  /-- the evidence is told, and its flush returns or raises -/
  | observe (i : ℕ) (f : Flush)
  /-- `_deliver_queue_change`'s `finally` -/
  | settle (i : ℕ)

/-- An act of the daemon's own, not a request. -/
def Act.own : Act → Bool
  | .request _ _ _ => false
  | _ => true

namespace Daemon

/-- A daemon that has just started, on what the routes hold and the evidence that was loaded. -/
def start (objects : Objects) (evidence : EvidenceStore) (ttl : PyFloat) (capacity lanes : ℕ)
    (config : Breaker.BreakerConfig) (ht : ttl.lt (.fin 0) = false) (hc : 1 ≤ capacity)
    (hl : 1 ≤ lanes) : Daemon where
  objects := objects
  world := (World.fresh ttl capacity config ht hc).setEvidence evidence
  system := .start lanes hl
  done := ∅
  exchanges := []
  executed := []

-- `stem` is the server's `prefix`.
variable (core : Core Objects) (p : Pipeline) (stem : String) (D : Daemon)

/-- A call has been answered. -/
def exchange (served : Served Objects) : Daemon :=
  { D with
    objects := served.object
    world := D.world.setEvidence (served.calls.foldl called D.world.evidence)
    exchanges := D.exchanges ++ [⟨served.sent, served.pending⟩] }

/-- `_spawn_wake`, where there is a wake. -/
def spawn (served : Served Objects) : Option Daemon :=
  match served.pending with
  | none => some D
  | some (agent, event) =>
    (D.system.step (.submit ⟨agent, event, served.result⟩)).map fun system =>
      { D with system := system }

/-- What a job's execute meets; the recheck is the route's own answer. -/
def delivery (job : Job) (readings : Readings) : Delivery :=
  ⟨job.agent, job.event, { readings with recheck := core.registry.recheck job.event D.objects }⟩

/-- The agent's job has been executed. -/
def ran (key : String) (job : Job) (readings : Readings) : Daemon :=
  { D with
    world := D.world.step p (D.delivery core job readings)
    done := insert key D.done
    executed := D.executed ++ [(job.agent, job.event)] }

/-- What an act does, `none` where it is not enabled. -/
def step : Act → Option Daemon
  | .request scope received f =>
    (respond core stem scope received f D.objects).bind fun served =>
      (D.exchange served).spawn served
  | .execute i readings =>
    D.system.running[i]?.bind fun (key, job) =>
      if key ∈ D.done then none else some (D.ran core p key job readings)
  | .finish i =>
    D.system.running[i]?.bind fun (key, _) =>
      if key ∈ D.done then
        (D.system.step (.complete i)).map fun system =>
          { D with system := system, done := D.done.erase key }
      else none
  | .takeTurn i => (D.system.step (.takeTurn i)).map fun system => { D with system := system }
  | .observe i f =>
    D.system.notes[i]?.bind fun (key, note) =>
      (D.system.step (.observe i f.raised.isSome)).map fun system =>
        { D with
          system := system
          world := D.world.setEvidence (D.world.evidence.recordQueueDepth key note.payload f) }
  | .settle i => (D.system.step (.settle i)).map fun system => { D with system := system }

/-! ## What has become of an agent's wakes -/

/-- The wakes that were taken on for an agent and answered, in order. -/
def acceptedFor (key : String) : List (Agent × Event) :=
  (D.exchanges.filterMap Exchange.pending).filter fun wake => wake.1.harnessKey = key

/-- The wakes that were run for an agent, in order. -/
def executedFor (key : String) : List (Agent × Event) :=
  D.executed.filter fun wake => wake.1.harnessKey = key

/-- The wake of a job. -/
def wakeOf (job : Job) : Agent × Event := (job.agent, job.event)

/-- The agent's wake that a lane has taken and not run yet. -/
def underwayFor (key : String) : List (Agent × Event) :=
  if key ∈ D.done then []
  else (D.system.running.filter (·.1 = key)).map fun r => wakeOf r.2

/-- The agent's wakes that wait for a lane, in order. -/
def queuedFor (key : String) : List (Agent × Event) := (D.system.sched.queue key).map wakeOf

end Daemon

end BasecradleRouter
