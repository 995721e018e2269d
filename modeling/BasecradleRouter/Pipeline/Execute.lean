/-
# `Pipeline.execute`

The slow half of the pipeline, for one delivery: the gates in their order, and the wake.  It
runs inside the agent's lock, which makes one execute at a time for an agent, so a run of the
router's slow half is a sequence of executes (the stores' own locks make each of their
operations atomic).

What the outside answers during an execute is its `Readings`: clocks, the route's recheck, the
lock file, the waker, the sleeps and the evidence store's flush.  Everything it does is in the
`World`: the four stores, the stage records, and the `Effect`s in the order they happened.
-/
import BasecradleRouter.Breaker
import BasecradleRouter.Coalesce
import BasecradleRouter.Concurrency
import BasecradleRouter.Dedup
import BasecradleRouter.Evidence
import BasecradleRouter.Pipeline.Record
import BasecradleRouter.WakeLock

namespace BasecradleRouter

/-- The pipeline's own setting: how many times a real wake is tried. -/
structure Pipeline where
  wakeAttempts : ℕ

namespace Pipeline

open BasecradleRouter.Lib BasecradleRouter.Logfmt BasecradleRouter.Models BasecradleRouter.Wake
open BasecradleRouter.Breaker BasecradleRouter.Coalesce BasecradleRouter.Concurrency
open BasecradleRouter.Dedup BasecradleRouter.Evidence BasecradleRouter.WakeLock

/-! ## 1. What an execute meets and what it leaves -/

/-- What one attempt to wake meets: the wall clock at its start, the waker's answer, and the
clock before and after. -/
structure Attempt where
  now : Utc
  started : ℚ
  outcome : Except Raised WakeResult
  ended : ℚ

/-- What one execute meets: the dedup clock at the look-up and at the mark, the route's answer
to the recheck, the guard's reading of the lock file, the breaker's clock, each attempt and the
sleep after it (what it raises, if it does), and the evidence store's flush. -/
structure Readings where
  seenAt : ℚ
  recheck : Option String
  lock : Except Raised WakeLockDecision
  admitAt : ℚ
  attempt : ℕ → Attempt
  sleep : ℕ → Option Raised
  flush : Flush
  markAt : ℚ

/-- A journal line of the wake path: its event token, the verdict's outcome token where it has
one, and its fields. -/
structure Line where
  event : String
  outcome : Option Outcome
  fields : List (String × Value)

/-- What an execute does to the outside, or asks of it. -/
inductive Effect
  /-- the guard read the lock file -/
  | guardRead (decision : Except Raised WakeLockDecision)
  /-- the breaker was asked, and counted the wake -/
  | consulted (outcome : BreakerOutcome)
  /-- the waker was called, for the `k`-th attempt -/
  | launch (k : ℕ)
  /-- the backoff after the `k`-th attempt began -/
  | slept (k : ℕ)
  /-- coverage was recorded from a start -/
  | covered (startedAt : Utc)
  /-- the delivery was marked -/
  | marked (key : String)
  /-- a line was logged -/
  | logged (line : Line)

/-- `_wake`'s local variables. -/
structure Locals where
  lastDuration : ℚ
  lastStartedAt : Option Utc
  verdict : Option (Outcome × List (String × Value))

/-- The stores, one delivery's records, and what happened. -/
structure World where
  deduper : DeliveryDeduper
  coverage : WakeCoverage
  breaker : WakeRateBreaker
  evidence : EvidenceStore
  records : List StageRecord
  effects : List Effect
  locals : Locals

namespace World

variable (W : World)

/-- One more record. -/
@[simps] def addRecord (rec : StageRecord) : World := { W with records := W.records ++ [rec] }

/-- More happened. -/
@[simps] def addEffects (effects : List Effect) : World :=
  { W with effects := W.effects ++ effects }

@[simps] def setDeduper (d : DeliveryDeduper) : World := { W with deduper := d }

@[simps] def setCoverage (c : WakeCoverage) : World := { W with coverage := c }

@[simps] def setBreaker (b : WakeRateBreaker) : World := { W with breaker := b }

@[simps] def setEvidence (e : EvidenceStore) : World := { W with evidence := e }

@[simps] def setLocals (l : Locals) : World := { W with locals := l }

theorem addEffects_addEffects (e e' : List Effect) :
    (W.addEffects e).addEffects e' = W.addEffects (e ++ e') := by
  simp [addEffects]

theorem setLocals_addEffects (l : Locals) (e : List Effect) :
    (W.setLocals l).addEffects e = (W.addEffects e).setLocals l := rfl

theorem setLocals_setLocals (l l' : Locals) : (W.setLocals l).setLocals l' = W.setLocals l' := rfl

end World

/-! ## 2. Small steps -/

/-- A decimal of one place, ties to even. -/
def tenths (q : ℚ) : ℤ :=
  let x := q * 10
  let low := x.floor
  let rest := x - low
  if rest < 1 / 2 then low else if 1 / 2 < rest then low + 1 else
    if low % 2 = 0 then low else low + 1

/-- `_seconds`: `23.1s`. -/
def seconds (elapsed : ℚ) : String :=
  let n := (tenths |elapsed|).toNat
  (if elapsed < 0 then "-" else "") ++ toString (n / 10) ++ "." ++ toString (n % 10) ++ "s"

/-- What `astimezone` raises outside the calendar. -/
def overflow : Raised := .other "date value out of range"

/-- `_instant`: a moment in UTC, `Z`-suffixed. -/
def instant : Option Datetime → Except Raised Value
  | none => .ok .none
  | some d =>
    match d.astimezoneUtc with
    | some u => .ok (.str u.isoformatZ)
    | none => .error overflow

/-- `_record` -/
def record (stage : Stage) (outcome : Outcome) (fields : List (String × Value)) :
    Py World Raised Unit :=
  .change fun W => W.addRecord (.render stage outcome fields)

/-- Something happened. -/
def emit (e : Effect) : Py World Raised Unit := .change fun W => W.addEffects [e]

/-- An evidence update and its flush. -/
def recordEvidence (update : EvidenceStore → EvidenceStore) (f : Flush) : Py World Raised Unit := do
  Py.change fun W => W.setEvidence (update W.evidence)
  Py.ofExcept (f.raised.elim (.ok ()) .error)

/-- `_decide`: the core's later word on a delivery. -/
def decide_ (event : Event) (decision : String) (fields : List (String × Value)) :
    Py World Raised Unit :=
  emit (.logged ⟨"delivery_decision", none,
    [("source", .str event.source), ("event_type", .str (event.eventType.getD "<none>")),
      ("decision", .str decision), ("recipient", .str event.recipient.value),
      ("delivery", .str event.deliveryId)] ++ fields⟩)

/-- `_bookend`: one half of the wake bracket, for real traffic. -/
def bookend (event : Event) (phase : String) (outcome : Option Outcome)
    (fields : List (String × Value)) : Py World Raised Unit :=
  if event.synthetic then pure () else emit (.logged ⟨phase, outcome, fields⟩)

/-- `route_recheck`: a blank answer is no answer. -/
def routeRecheck (answer : Option String) : Option String :=
  answer.filter fun reason => !PyStr.blank reason

/-! ## 3. `_wake` -/

/-- `_wake`'s `attempt`, for the `k`-th time. -/
def attempt (r : Readings) (k : ℕ) : Py World Raised WakeResult := do
  let a := r.attempt k
  Py.change fun W => W.setLocals { W.locals with lastStartedAt := some a.now }
  Py.finallyDo
    (do
      emit (.launch k)
      (Py.ofExcept a.outcome).handle fun exc =>
        match exc with
        | .wakeError message => Py.raise (.transientError message)
        | exc => Py.raise exc)
    (Py.change fun W => W.setLocals { W.locals with lastDuration := a.ended - a.started })

/-- `_wake`'s `on_retry`. -/
def onRetry (agent : Agent) (event : Event) (attempts : ℕ) (failed : ℕ) (exc : Raised) :
    Py World Raised Unit := do
  let duration ← Py.look fun W => W.locals.lastDuration
  emit (.logged ⟨"wake_retry", none,
    ("attempt", .str (toString failed ++ "/" ++ toString attempts)) :: who agent event ++
      [("duration", .str (seconds duration)), ("error", .str exc.text)]⟩)

/-- The backoff after the `k`-th attempt. -/
def backoff (r : Readings) (k : ℕ) : Py World Raised Unit := do
  emit (.slept k)
  Py.ofExcept ((r.sleep k).elim (.ok ()) .error)

/-- `if last_started_at is not None: self.coverage.record(…)` -/
def cover (agent : Agent) (event : Event) : Py World Raised Unit := do
  match ← Py.look fun W => W.locals.lastStartedAt with
  | none => pure ()
  | some startedAt =>
    Py.change fun W => W.setCoverage (W.coverage.record agent.harnessKey event startedAt)
    emit (.covered startedAt)

/-- The stage record and the bracket's verdict, from one run of fields. -/
def conclude (agent : Agent) (event : Event) (outcome : Outcome) (fields : List (String × Value)) :
    Py World Raised Unit := do
  record .wake outcome (who agent event ++ fields)
  Py.change fun W => W.setLocals { W.locals with verdict := some (outcome, fields) }

/-- How many times a delivery is tried. -/
def attempts (p : Pipeline) (event : Event) : ℕ :=
  if event.synthetic then 1 else p.wakeAttempts

/-- `_wake`, up to its `finally`. -/
def wakeBody (p : Pipeline) (agent : Agent) (event : Event) (r : Readings) :
    Py World Raised Bool := do
  let attempts := p.attempts event
  let woke ← (withRetry attempts (attempt r) (backoff r) (onRetry agent event attempts)).catching
  let duration ← Py.look fun W => W.locals.lastDuration
  match woke with
  | .error (.wakeStopped _ signal exitCode) =>
    let stop : List (String × Value) :=
      [("signal", .str signal), ("exit", .int exitCode), ("duration", .str (seconds duration))]
    emit (.logged ⟨"wake_stopped", none, who agent event ++ stop⟩)
    cover agent event
    conclude agent event .stopped stop
    pure true
  | .error (.retryExhausted n cause) =>
    let error := cause.getD (Raised.retryExhausted n cause).text
    recordEvidence
      (·.recordWakeFailed agent.harnessKey error event.source event.synthetic r.flush) r.flush
    conclude agent event .failed
      [("attempts", .int attempts), ("duration", .str (seconds duration)), ("error", .str error)]
    pure false
  | .error exc => Py.raise exc
  | .ok woke =>
    recordEvidence
      (·.recordWakeOk agent.harnessKey event.deliveryId event.source event.synthetic r.flush)
      r.flush
    cover agent event
    conclude agent event .ok
      [("exit", .int woke.exitCode), ("duration", .str (seconds duration))]
    pure true

/-- `_wake`'s `finally`: the bracket closes, with a verdict of its own where there is none. -/
def closeBracket (agent : Agent) (event : Event) : Py World Raised Unit := do
  let l ← Py.look fun W => W.locals
  match l.verdict with
  | some (outcome, fields) => bookend event "wake_end" (some outcome) (who agent event ++ fields)
  | none => bookend event "wake_end" (some .failed) (who agent event ++
      [("duration", .str (seconds l.lastDuration)),
        ("error", .str "unexpected: the wake path raised")])

/-- `_wake` -/
def wake (p : Pipeline) (agent : Agent) (event : Event) (r : Readings) : Py World Raised Bool := do
  Py.change fun W => W.setLocals ⟨0, none, none⟩
  bookend event "wake_start" none (who agent event)
  Py.finallyDo (wakeBody p agent event r) (closeBracket agent event)

/-! ## 4. `execute` -/

/-- `execute`, inside its `try` and the agent's lock. -/
def gates (p : Pipeline) (agent : Agent) (event : Event) (r : Readings) :
    Py World Raised Unit := do
  record .lock .ok (who agent event)
  let duplicate ← Py.call fun W =>
    let (duplicate, deduper) := W.deduper.seen event.dedupKey r.seenAt
    (duplicate, W.setDeduper deduper)
  if duplicate then
    recordEvidence (·.recordWakeDeduped agent.harnessKey event.source event.synthetic r.flush)
      r.flush
    record .dedup .ignored (who agent event ++ [("reason", .str duplicateDelivery)])
  else
    match ← Py.look fun W => W.coverage.covering agent.harnessKey event with
    | some covering =>
      recordEvidence (·.recordWakeDeduped agent.harnessKey event.source event.synthetic r.flush)
        r.flush
      let occurred ← Py.ofExcept (instant event.occurredAt)
      record .coalesce .ignored (who agent event ++
        [("into", .str covering.delivery), ("occurred", occurred),
          ("wake_started", .str covering.startedAt.isoformatZ)])
      decide_ event "coalesced" [("into", .str covering.delivery)]
    | none =>
      match routeRecheck r.recheck with
      | some gone =>
        record .recheck .ignored (who agent event ++ [("reason", .str gone)])
        decide_ event "dropped" [("reason", .str gone)]
      | none =>
        emit (.guardRead r.lock)
        let decision ← Py.ofExcept r.lock
        if !decision.shouldWake then
          recordEvidence
            (·.recordWakeRefused agent.harnessKey decision.detail event.source event.synthetic
              r.flush) r.flush
          record .wakeLock .ignored (who agent event ++ [("reason", .str decision.detail)])
        else
          let outcome ← Py.call fun W =>
            let (outcome, breaker) :=
              W.breaker.admitWake agent.harnessKey (some event.streamKey) r.admitAt
            (outcome, W.setBreaker breaker)
          emit (.consulted outcome)
          if !outcome.admitted then
            recordEvidence
              (·.recordWakeRefused agent.harnessKey outcome.detail event.source event.synthetic
                r.flush) r.flush
            record .breaker .ignored (who agent event ++ [("reason", .str outcome.detail)])
          else
            let done ← wake p agent event r
            if done then
              Py.change fun W => W.setDeduper (W.deduper.mark event.dedupKey r.markAt)
              emit (.marked event.dedupKey)

/-- `execute`; whatever the gates raise becomes a `WAKE`/`FAILED` record. -/
def execute (p : Pipeline) (agent : Agent) (event : Event) (r : Readings) :
    Py World Raised Unit :=
  (gates p agent event r).handle fun exc =>
    record .wake .failed (who agent event ++ [("error", .str ("unexpected: " ++ exc.text))])

end Pipeline

end BasecradleRouter
