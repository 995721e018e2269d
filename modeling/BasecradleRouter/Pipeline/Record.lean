/-
# Stage records

A webhook's trip through the pipeline is an ordered list of stage records, each a stage, an
outcome and the rendered `key=value` run of its fields.
-/
import BasecradleRouter.Logfmt
import BasecradleRouter.Models

namespace BasecradleRouter.Pipeline

open BasecradleRouter.Logfmt BasecradleRouter.Models

/-- The ordered stages a webhook passes through. -/
inductive Stage
  | route
  | verify
  | normalize
  | resolve
  | lock
  | dedup
  | coalesce
  | recheck
  | wakeLock
  | breaker
  | wake
  deriving DecidableEq, Repr

/-- `Stage.value` -/
def Stage.value : Stage → String
  | .route => "route"
  | .verify => "verify"
  | .normalize => "normalize"
  | .resolve => "resolve"
  | .lock => "lock"
  | .dedup => "dedup"
  | .coalesce => "coalesce"
  | .recheck => "recheck"
  | .wakeLock => "wake_lock"
  | .breaker => "breaker"
  | .wake => "wake"

/-- How a stage resolved. -/
inductive Outcome
  | ok
  | ignored
  | rejected
  | failed
  | stopped
  deriving DecidableEq, Repr

/-- `Outcome.value` -/
def Outcome.value : Outcome → String
  | .ok => "ok"
  | .ignored => "ignored"
  | .rejected => "rejected"
  | .failed => "failed"
  | .stopped => "stopped"

/-- One stage's outcome, `detail` being the rendered fields. -/
structure StageRecord where
  stage : Stage
  outcome : Outcome
  detail : String
  deriving DecidableEq, Repr

/-- The record of a single webhook's trip. -/
structure PipelineResult where
  records : List StageRecord
  event : Option Event
  agent : Option Agent

/-- `PipelineResult.stages` -/
def PipelineResult.stages (r : PipelineResult) : List (Stage × Outcome) :=
  r.records.map fun rec => (rec.stage, rec.outcome)

/-- `PipelineResult.terminal` -/
def PipelineResult.terminal (r : PipelineResult) : Option Outcome :=
  r.records.getLast?.map StageRecord.outcome

/-- A record with its fields rendered. -/
def StageRecord.render (stage : Stage) (outcome : Outcome) (fields : List (String × Value)) :
    StageRecord :=
  ⟨stage, outcome, logFields fields⟩

/-- `_who`: the keys every line of the slow half carries. -/
def who (agent : Agent) (event : Event) : List (String × Value) :=
  [("delivery", .str event.deliveryId), ("agent", .str agent.harnessKey),
    ("source", .str event.source)]

end BasecradleRouter.Pipeline
