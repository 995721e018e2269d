/-
# Running the gates

`execute` is run symbolically once for each way through its gates, and each way has its equation:
`execute_run_duplicate` for the first gate, and so on down to `execute_run_open`, which leaves what
becomes of `_wake`'s answer where every gate is open.  What is said of an execute later is read off
these.
-/
import BasecradleRouter.Pipeline.Exits

namespace BasecradleRouter.Pipeline

open BasecradleRouter.Lib BasecradleRouter.Logfmt BasecradleRouter.Models BasecradleRouter.Wake
open BasecradleRouter.Breaker BasecradleRouter.Coalesce BasecradleRouter.Concurrency
open BasecradleRouter.Dedup BasecradleRouter.Evidence BasecradleRouter.WakeLock

/-! ## 1. Small steps -/

theorem record_run (stage : Stage) (outcome : Outcome) (fields : List (String × Value))
    (W : World) :
    (record stage outcome fields).run W = (.ok (), W.addRecord (.render stage outcome fields)) :=
  rfl

theorem emit_run (e : Effect) (W : World) : (emit e).run W = (.ok (), W.addEffects [e]) := rfl

theorem recordEvidence_run (update : EvidenceStore → EvidenceStore) (f : Flush) (W : World) :
    (recordEvidence update f).run W =
      (f.raised.elim (.ok ()) .error, W.setEvidence (update W.evidence)) := rfl

/-- The line of a later decision. -/
def decisionLine (event : Event) (decision : String) (fields : List (String × Value)) : Line :=
  ⟨"delivery_decision", none,
    [("source", .str event.source), ("event_type", .str (event.eventType.getD "<none>")),
      ("decision", .str decision), ("recipient", .str event.recipient.value),
      ("delivery", .str event.deliveryId)] ++ fields⟩

/-! ## 2. The worlds on the way -/

namespace World

variable (agent : Agent) (event : Event) (r : Readings) (W : World)

/-- The agent's lock is held, and the delivery was looked up. -/
def looked : World :=
  (W.addRecord (.render .lock .ok (who agent event))).setDeduper
    (W.deduper.seen event.dedupKey r.seenAt).2

/-- The guard has read the lock file. -/
def guarded : World := (W.looked agent event r).addEffects [.guardRead r.lock]

/-- The breaker has counted the wake. -/
def consulted : World :=
  ((W.guarded agent event r).setBreaker
    (W.breaker.admitWake agent.harnessKey (some event.streamKey) r.admitAt).2).addEffects
      [.consulted (admission agent event r W)]

/-- What was raised is recorded. -/
@[simps] def failed (exc : Raised) : World :=
  { W with records := W.records ++ [.render .wake .failed
      (who agent event ++ [("error", .str ("unexpected: " ++ exc.text))])] }

/-- A gate has closed: the evidence counts it, and then it is recorded, unless the flush raised. -/
def closed (update : EvidenceStore → EvidenceStore) (stage : Stage) (reason : String) : World :=
  match r.flush.raised with
  | none =>
    (W.setEvidence (update W.evidence)).addRecord
      (.render stage .ignored (who agent event ++ [("reason", .str reason)]))
  | some exc => (W.setEvidence (update W.evidence)).failed agent event exc

/-- The coalesce gate has closed: it renders the delivery's moment, which may raise as well. -/
def coalesced (into : Coverage) : World :=
  let counted := W.setEvidence
    (W.evidence.recordWakeDeduped agent.harnessKey event.source event.synthetic r.flush)
  match r.flush.raised with
  | some exc => counted.failed agent event exc
  | none =>
    match instant event.occurredAt with
    | .error exc => counted.failed agent event exc
    | .ok occurred =>
      (counted.addRecord (.render .coalesce .ignored (who agent event ++
        [("into", .str into.delivery), ("occurred", occurred),
          ("wake_started", .str into.startedAt.isoformatZ)]))).addEffects
        [.logged (decisionLine event "coalesced" [("into", .str into.delivery)])]

/-- The delivery is marked. -/
@[simps] def marked : World :=
  { W with
    deduper := W.deduper.mark event.dedupKey r.markAt
    effects := W.effects ++ [.marked event.dedupKey] }

variable {agent event r W} {update : EvidenceStore → EvidenceStore} {stage : Stage}
  {reason : String}

@[simp] theorem looked_records : (W.looked agent event r).records =
    W.records ++ [.render .lock .ok (who agent event)] := rfl

@[simp] theorem looked_effects : (W.looked agent event r).effects = W.effects := rfl

@[simp] theorem guarded_records : (W.guarded agent event r).records =
    W.records ++ [.render .lock .ok (who agent event)] := rfl

@[simp] theorem guarded_effects : (W.guarded agent event r).effects =
    W.effects ++ [.guardRead r.lock] := rfl

@[simp] theorem consulted_records : (W.consulted agent event r).records =
    W.records ++ [.render .lock .ok (who agent event)] := rfl

@[simp] theorem consulted_effects : (W.consulted agent event r).effects =
    W.effects ++ [.guardRead r.lock] ++ [.consulted (admission agent event r W)] := rfl

@[simp] theorem consulted_deduper : (W.consulted agent event r).deduper =
    (W.deduper.seen event.dedupKey r.seenAt).2 := rfl

@[simp] theorem consulted_coverage :
    (W.consulted agent event r).coverage = W.coverage := rfl

@[simp] theorem consulted_breaker : (W.consulted agent event r).breaker =
    (W.breaker.admitWake agent.harnessKey (some event.streamKey) r.admitAt).2 := rfl

theorem closed_evidence :
    (W.closed agent event r update stage reason).evidence = update W.evidence := by
  unfold closed
  split
  · rfl
  · rfl

theorem closed_effects : (W.closed agent event r update stage reason).effects = W.effects := by
  unfold closed
  split
  · rfl
  · rfl

theorem coalesced_evidence {into : Coverage} : (W.coalesced agent event r into).evidence =
    W.evidence.recordWakeDeduped agent.harnessKey event.source event.synthetic r.flush := by
  unfold coalesced
  split
  · rfl
  · split
    · rfl
    · rfl

theorem coalesced_effects {into : Coverage} :
    (W.coalesced agent event r into).effects = W.effects ∨
      ∃ fields, (W.coalesced agent event r into).effects =
        W.effects ++ [.logged (decisionLine event "coalesced" fields)] := by
  unfold coalesced
  split
  · exact Or.inl rfl
  · split
    · exact Or.inl rfl
    · exact Or.inr ⟨_, rfl⟩

/-- Behind open gates the guard has read and the breaker has counted, and nothing else happened. -/
theorem consulted_effects_eq (hwake : reachesWake agent event r W = true) :
    (W.consulted agent event r).effects = W.effects ++ gateEffects agent event r W := by
  obtain ⟨hbreaker, -⟩ := reachesWake_iff.mp hwake
  obtain ⟨hguard, -⟩ := reachesBreaker_iff.mp hbreaker
  simp [gateEffects, hguard, hbreaker]

end World

/-! ## 3. The ways through the gates -/

section

variable {p : Pipeline} {agent : Agent} {event : Event} {r : Readings} {W : World}

/-- The dedup gate closes. -/
theorem execute_run_duplicate (hdup : duplicate event r W = true) :
    (execute p agent event r).run W = (.ok (), (W.looked agent event r).closed agent event r
      (·.recordWakeDeduped agent.harnessKey event.source event.synthetic r.flush) .dedup
      duplicateDelivery) := by
  have hseen : (W.deduper.seen event.dedupKey r.seenAt).1 = true := hdup
  simp only [execute, gates, Py.run_handle, Py.run_bind, record_run, Py.run_call,
    World.addRecord_deduper, hseen, if_true, recordEvidence_run, World.closed]
  cases r.flush.raised with
  | none => rfl
  | some exc => rfl

/-- The coalesce gate closes: the counter rises before the record's moment is rendered. -/
theorem execute_run_covered (hdup : duplicate event r W = false) {into : Coverage}
    (hcov : covering agent event W = some into) :
    (execute p agent event r).run W =
      (.ok (), (W.looked agent event r).coalesced agent event r into) := by
  have hseen : (W.deduper.seen event.dedupKey r.seenAt).1 = false := hdup
  have hcovers : W.coverage.covering agent.harnessKey event = some into := hcov
  simp only [execute, gates, Py.run_handle, Py.run_bind, record_run, Py.run_call,
    World.addRecord_deduper, hseen, Bool.false_eq_true, if_false, Py.run_look,
    World.setDeduper_coverage, World.addRecord_coverage, hcovers, recordEvidence_run,
    Py.run_ofExcept, World.coalesced]
  cases r.flush.raised with
  | none => cases instant event.occurredAt <;> rfl
  | some exc => rfl

/-- The recheck drops the delivery. -/
theorem execute_run_dropped (hdup : duplicate event r W = false)
    (hcov : covering agent event W = none) {gone : String}
    (hgone : routeRecheck r.recheck = some gone) :
    (execute p agent event r).run W =
      (.ok (), ((W.looked agent event r).addRecord (.render .recheck .ignored
          (who agent event ++ [("reason", .str gone)]))).addEffects
        [.logged (decisionLine event "dropped" [("reason", .str gone)])]) := by
  have hseen : (W.deduper.seen event.dedupKey r.seenAt).1 = false := hdup
  have hcovers : W.coverage.covering agent.harnessKey event = none := hcov
  simp only [execute, gates, Py.run_handle, Py.run_bind, record_run, Py.run_call,
    World.addRecord_deduper, hseen, Bool.false_eq_true, if_false, Py.run_look,
    World.setDeduper_coverage, World.addRecord_coverage, hcovers, hgone]
  rfl

/-- At the guard, the gates before it are open. -/
theorem opened_before_guard (hguard : reachesGuard agent event r W = true) :
    (W.deduper.seen event.dedupKey r.seenAt).1 = false ∧
      W.coverage.covering agent.harnessKey event = none ∧ routeRecheck r.recheck = none :=
  reachesGuard_iff.mp hguard

/-- The guard raises. -/
theorem execute_run_unread (hguard : reachesGuard agent event r W = true) {exc : Raised}
    (hlock : r.lock = .error exc) :
    (execute p agent event r).run W =
      (.ok (), (W.guarded agent event r).failed agent event exc) := by
  obtain ⟨hseen, hcovers, hgone⟩ := opened_before_guard hguard
  simp only [execute, gates, Py.run_handle, Py.run_bind, record_run, Py.run_call,
    World.addRecord_deduper, hseen, Bool.false_eq_true, if_false, Py.run_look,
    World.setDeduper_coverage, World.addRecord_coverage, hcovers, hgone, emit_run,
    Py.run_ofExcept, World.guarded, hlock]
  rfl

/-- The wake-lock refuses. -/
theorem execute_run_locked (hguard : reachesGuard agent event r W = true)
    {decision : WakeLockDecision} (hlock : r.lock = .ok decision)
    (hheld : decision.shouldWake = false) :
    (execute p agent event r).run W = (.ok (), (W.guarded agent event r).closed agent event r
      (·.recordWakeRefused agent.harnessKey decision.detail event.source event.synthetic r.flush)
      .wakeLock decision.detail) := by
  obtain ⟨hseen, hcovers, hgone⟩ := opened_before_guard hguard
  simp only [execute, gates, Py.run_handle, Py.run_bind, record_run, Py.run_call,
    World.addRecord_deduper, hseen, Bool.false_eq_true, if_false, Py.run_look,
    World.setDeduper_coverage, World.addRecord_coverage, hcovers, hgone, emit_run,
    Py.run_ofExcept, World.guarded, hlock, hheld, Bool.not_false, if_true, recordEvidence_run,
    World.closed]
  cases r.flush.raised with
  | none => rfl
  | some exc => rfl

/-- The breaker refuses. -/
theorem execute_run_limited (hbreaker : reachesBreaker agent event r W = true)
    (hfull : (admission agent event r W).admitted = false) :
    (execute p agent event r).run W = (.ok (), (W.consulted agent event r).closed agent event r
      (·.recordWakeRefused agent.harnessKey (admission agent event r W).detail event.source
        event.synthetic r.flush) .breaker (admission agent event r W).detail) := by
  obtain ⟨hguard, decision, hlock, hfree⟩ := reachesBreaker_iff.mp hbreaker
  obtain ⟨hseen, hcovers, hgone⟩ := opened_before_guard hguard
  have hadmit : (W.breaker.admitWake agent.harnessKey (some event.streamKey)
      r.admitAt).1.admitted = false := hfull
  simp only [execute, gates, Py.run_handle, Py.run_bind, record_run, Py.run_call,
    World.addRecord_deduper, hseen, Bool.false_eq_true, if_false, Py.run_look,
    World.setDeduper_coverage, World.addRecord_coverage, hcovers, hgone, emit_run,
    Py.run_ofExcept, World.consulted, World.guarded, hlock, hfree, Bool.not_true,
    World.addEffects_breaker, World.setDeduper_breaker, World.addRecord_breaker, hadmit,
    Bool.not_false, if_true, recordEvidence_run, World.closed]
  cases r.flush.raised with
  | none => rfl
  | some exc => rfl

/-- **Every gate is open**: `_wake` runs, and a delivery that is done is marked. -/
theorem execute_run_open (hwake : reachesWake agent event r W = true) :
    (execute p agent event r).run W =
      match (wake p agent event r).run (W.consulted agent event r) with
      | (.ok true, W') => (.ok (), W'.marked event r)
      | (.ok false, W') => (.ok (), W')
      | (.error exc, W') => (.ok (), W'.failed agent event exc) := by
  obtain ⟨hbreaker, hadmit⟩ := reachesWake_iff.mp hwake
  obtain ⟨hguard, decision, hlock, hfree⟩ := reachesBreaker_iff.mp hbreaker
  obtain ⟨hseen, hcovers, hgone⟩ := opened_before_guard hguard
  have hadmitted : (W.breaker.admitWake agent.harnessKey (some event.streamKey)
      r.admitAt).1.admitted = true := hadmit
  simp only [execute, gates, Py.run_handle, Py.run_bind, record_run, Py.run_call,
    World.addRecord_deduper, hseen, Bool.false_eq_true, if_false, Py.run_look,
    World.setDeduper_coverage, World.addRecord_coverage, hcovers, hgone, emit_run,
    Py.run_ofExcept, World.consulted, World.guarded, World.looked, admission, hlock, hfree,
    Bool.not_true, World.addEffects_breaker, World.setDeduper_breaker, World.addRecord_breaker,
    hadmitted]
  generalize (wake p agent event r).run _ = answer
  rcases answer with ⟨exc | done, W'⟩
  · rfl
  · cases done with
    | true => rfl
    | false => rfl

end

end BasecradleRouter.Pipeline
