/-
# What `execute` writes in the evidence

An execute writes the evidence at most once, by the recorder its exit calls for, with the reason
that exit names (`execute_evidence`).  A flush that raises does so after the update, so what is
written is told by the exit that a flush that returns would have led to: the `calm` readings'.
-/
import BasecradleRouter.Evidence.Rows
import BasecradleRouter.Pipeline.Runs

namespace BasecradleRouter.Pipeline

open BasecradleRouter.Lib BasecradleRouter.Logfmt BasecradleRouter.Models BasecradleRouter.Wake
open BasecradleRouter.Breaker BasecradleRouter.Coalesce BasecradleRouter.Concurrency
open BasecradleRouter.Dedup BasecradleRouter.Evidence BasecradleRouter.WakeLock

/-- The same readings, with a flush that returns. -/
def Readings.calm (r : Readings) : Readings :=
  { r with flush := { r.flush with raised := none } }

/-- What an exit writes. -/
def Exit.recorded (agent : Agent) (event : Event) (f : Flush) (s : EvidenceStore) :
    Exit → EvidenceStore
  | .dedup => s.recordWakeDeduped agent.harnessKey event.source event.synthetic f
  | .coalesce _ _ => s.recordWakeDeduped agent.harnessKey event.source event.synthetic f
  | .locked decision =>
    s.recordWakeRefused agent.harnessKey decision.detail event.source event.synthetic f
  | .limited outcome =>
    s.recordWakeRefused agent.harnessKey outcome.detail event.source event.synthetic f
  | .exhausted error => s.recordWakeFailed agent.harnessKey error event.source event.synthetic f
  | .woke _ => s.recordWakeOk agent.harnessKey event.deliveryId event.source event.synthetic f
  | .unexpected .coalesce _ =>
    s.recordWakeDeduped agent.harnessKey event.source event.synthetic f
  | _ => s

/-- An exit writes nothing, or its event's row. -/
theorem Exit.recorded_cases (agent : Agent) (event : Event) (f : Flush) (x : Exit) :
    (∀ s, x.recorded agent event f s = s) ∨ ∃ onWake onRow, ∀ s,
      x.recorded agent event f s = s.amend agent.harnessKey event.source f onWake onRow := by
  have hdeduped : ∃ onWake onRow, ∀ s : EvidenceStore,
      s.recordWakeDeduped agent.harnessKey event.source event.synthetic f =
        s.amend agent.harnessKey event.source f onWake onRow := by
    unfold EvidenceStore.recordWakeDeduped
    exact ⟨_, _, fun _ => rfl⟩
  have hrefused : ∀ reason, ∃ onWake onRow, ∀ s : EvidenceStore,
      s.recordWakeRefused agent.harnessKey reason event.source event.synthetic f =
        s.amend agent.harnessKey event.source f onWake onRow := by
    unfold EvidenceStore.recordWakeRefused
    exact fun _ => ⟨_, _, fun _ => rfl⟩
  cases x with
  | dedup => exact Or.inr hdeduped
  | coalesce into occurred => exact Or.inr hdeduped
  | recheck gone => exact Or.inl fun _ => rfl
  | locked decision => exact Or.inr (hrefused _)
  | limited outcome => exact Or.inr (hrefused _)
  | stopped signal exitCode => exact Or.inl fun _ => rfl
  | exhausted error =>
    right
    unfold recorded EvidenceStore.recordWakeFailed
    exact ⟨_, _, fun _ => rfl⟩
  | woke result =>
    right
    unfold recorded EvidenceStore.recordWakeOk
    exact ⟨_, _, fun _ => rfl⟩
  | unexpected point exc =>
    cases point with
    | coalesce => exact Or.inr hdeduped
    | _ => exact Or.inl fun _ => rfl

/-! ## 1. Programs that spare the evidence -/

/-- A program that leaves the evidence as it was, whatever it returns or raises. -/
def Spares {α : Type} (x : Py World Raised α) : Prop :=
  ∀ W : World, (x.run W).2.evidence = W.evidence

theorem Spares.bind {α β : Type} {x : Py World Raised α} {f : α → Py World Raised β}
    (hx : Spares x) (hf : ∀ a, Spares (f a)) : Spares (x >>= f) := by
  intro W
  have hevidence := hx W
  rw [Py.run_bind]
  rcases hrun : x.run W with ⟨exc | a, W'⟩ <;> rw [hrun] at hevidence
  · exact hevidence
  · exact (hf a W').trans hevidence

theorem spares_pure {α : Type} (a : α) : Spares (pure a) := fun _ => rfl

theorem spares_emit (e : Effect) : Spares (emit e) := fun _ => rfl

theorem spares_cover (agent : Agent) (event : Event) : Spares (cover agent event) := by
  intro W
  simp only [cover, Py.run_bind, Py.run_look]
  cases W.locals.lastStartedAt with
  | none => rfl
  | some startedAt => rfl

theorem spares_conclude (agent : Agent) (event : Event) (outcome : Outcome)
    (fields : List (String × Value)) : Spares (conclude agent event outcome fields) :=
  fun _ => rfl

theorem spares_closeBracket (agent : Agent) (event : Event) :
    Spares (closeBracket agent event) := by
  intro W
  obtain ⟨line, hrun⟩ := closeBracket_run agent event W
  rw [hrun]
  rfl

/-- The update, whether its flush returns or raises, and then nothing more. -/
theorem recordEvidence_bind {α : Type} {update : EvidenceStore → EvidenceStore} {f : Flush}
    {rest : Unit → Py World Raised α} (hrest : Spares (rest ())) (W : World) :
    ((recordEvidence update f >>= rest).run W).2.evidence = update W.evidence := by
  rw [Py.run_bind, recordEvidence_run]
  cases f.raised with
  | none => exact hrest _
  | some exc => rfl

/-! ## 2. The wake -/

section

variable {p : Pipeline} {agent : Agent} {event : Event} {r : Readings} {W : World}

theorem triesFrom_calm (attempts : ℕ) : ∀ left k,
    triesFrom agent event r.calm attempts left k = triesFrom agent event r attempts left k
  | 0, _ => rfl
  | left + 1, k => by
    unfold triesFrom
    rw [triesFrom_calm attempts left (k + 1)]
    rfl

/-- The attempts do not meet the flush. -/
theorem tries_calm : tries p agent event r.calm = tries p agent event r := by
  unfold tries
  rw [triesFrom_calm]

theorem wakeBody_evidence : ((wakeBody p agent event r).run W).2.evidence =
    (wakeExit p agent event r.calm).recorded agent event r.flush W.evidence := by
  have hconcluded : ∀ (outcome : Outcome) (fields : List (String × Value)), Spares (do
      cover agent event
      conclude agent event outcome fields
      pure true) := fun outcome fields =>
    (spares_cover agent event).bind fun _ =>
      (spares_conclude agent event outcome fields).bind fun _ => spares_pure true
  unfold wakeBody
  simp only [Py.run_bind, Py.run_catching, withRetry_run, Py.run_look, wakeExit, tries_calm]
  cases (tries p agent event r).result with
  | ok result => exact recordEvidence_bind (hconcluded _ _) _
  | error exc =>
    cases exc with
    | wakeStopped message signal exitCode =>
      exact ((spares_emit _).bind fun _ => hconcluded _ _) _
    | retryExhausted n cause =>
      exact recordEvidence_bind ((spares_conclude _ _ _ _).bind fun _ => spares_pure false) _
    | _ => rfl

theorem wake_evidence : ((wake p agent event r).run W).2.evidence =
    (wakeExit p agent event r.calm).recorded agent event r.flush W.evidence := by
  simp only [wake, Py.run_bind, Py.run_change, bookend_run, Py.run_finallyDo]
  generalize hW₀ : World.addEffects _ _ = W₀
  have hevidence₀ : W₀.evidence = W.evidence := by
    rw [← hW₀]
    rfl
  have hbody : ((wakeBody p agent event r).run W₀).2.evidence = _ := wakeBody_evidence
  have hclose := spares_closeBracket agent event ((wakeBody p agent event r).run W₀).2
  rw [hevidence₀] at hbody
  rw [hbody] at hclose
  rcases hrun : (closeBracket agent event).run ((wakeBody p agent event r).run W₀).2 with
    ⟨exc | u, W'⟩ <;> rw [hrun] at hclose
  · exact hclose
  · exact hclose

/-! ## 3. The execute -/

theorem execute_evidence : ((execute p agent event r).run W).2.evidence =
    (exitOf p agent event r.calm W).recorded agent event r.flush W.evidence := by
  refine exitOf_cases (motive := fun x => _ = x.recorded agent event r.flush W.evidence)
    ?_ ?_ ?_ ?_ ?_ ?_ ?_
  · intro hdup
    rw [flushing_of_none rfl, execute_run_duplicate (r := r) hdup]
    exact World.closed_evidence
  · intro into hdup hcov
    rw [flushing_of_none rfl, execute_run_covered (r := r) hdup hcov, coveredExit]
    refine World.coalesced_evidence.trans ?_
    cases instant event.occurredAt <;> rfl
  · intro gone hdup hcov hgone
    rw [execute_run_dropped (r := r) hdup hcov hgone]
    rfl
  · intro exc hguard hlock
    rw [execute_run_unread (r := r) hguard hlock]
    rfl
  · intro decision hguard hlock hheld
    rw [flushing_of_none rfl, execute_run_locked (r := r) hguard hlock hheld]
    exact World.closed_evidence
  · intro hbreaker hfull
    rw [flushing_of_none rfl, execute_run_limited (r := r) hbreaker hfull]
    exact World.closed_evidence
  · intro hwake
    have hevidence : ((wake p agent event r).run (W.consulted agent event r)).2.evidence = _ :=
      wake_evidence
    rw [execute_run_open (r := r) hwake]
    rcases hrun : (wake p agent event r).run (W.consulted agent event r) with ⟨exc | done, W₁⟩ <;>
      rw [hrun] at hevidence
    · exact hevidence
    · cases done with
      | true => exact hevidence
      | false => exact hevidence

end

/-- The evidence, one delivery on. -/
theorem step_evidence {p : Pipeline} {W : World} {d : Delivery} : (W.step p d).evidence =
    (exitOf p d.agent d.event d.readings.calm W).recorded d.agent d.event d.readings.flush
      W.evidence := execute_evidence

end BasecradleRouter.Pipeline
