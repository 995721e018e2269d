/-
# Scheduler fairness

Seen from outside, the rotation is a first-in-first-out queue whose departures are the
dispatches: `rotation` projects a system to its queue and log, and every step of every thread
moves that pair by `Fifo.Move`s (`step_fifo`).  The bound is then `Fifo.overtake`, read at the
moment an agent is appended.
-/
import BasecradleRouter.Lib.Fifo
import BasecradleRouter.Scheduler.Safety

namespace BasecradleRouter.Scheduler

open BasecradleRouter.Lib

namespace System

/-- The agents whose jobs were started, in order. -/
def dispatched (S : System) : List String := S.started.map Prod.fst

/-- The queue and the log of the rotation. -/
def rotation (S : System) : List String × List String := (S.sched.ready, S.dispatched)

/-- `A` enters the rotation in the critical section `l` begins: it was not there before, and
the section's bookkeeping put it there. -/
def Enters (S : System) (l : Label) (A : String) : Prop :=
  A ∉ S.sched.ready ∧ ∃ key M, S.beforePump l = some (key, M) ∧ A ∈ M.sched.ready

/-- The bookkeeping of a section appends at most one agent, at the back. -/
theorem beforePump_ready {S M : System} {l : Label} {key : String}
    (h : S.beforePump l = some (key, M)) :
    M.dispatched = S.dispatched ∧
      (M.sched.ready = S.sched.ready ∨ M.sched.ready = S.sched.ready ++ [key]) := by
  rcases beforePump_cases h with ⟨job, -, rfl, rfl⟩ | ⟨i, job, -, -, rfl⟩
  · refine ⟨rfl, ?_⟩
    simp only [WakeScheduler.enqueue]
    split
    · exact Or.inr rfl
    · exact Or.inl rfl
  · refine ⟨rfl, ?_⟩
    simp only [WakeScheduler.release]
    split
    · exact Or.inr rfl
    · exact Or.inl rfl

/-- Whoever enters stands at the back. -/
theorem Enters.ready {S M : System} {l : Label} {key A : String} (h : S.Enters l A)
    (hM : S.beforePump l = some (key, M)) : M.sched.ready = S.sched.ready ++ [A] := by
  obtain ⟨hout, key', M', hM', hin⟩ := h
  rw [hM, Option.some.injEq, Prod.mk.injEq] at hM'
  obtain ⟨rfl, rfl⟩ := hM'
  rcases (beforePump_ready hM).2 with hr | hr
  · exact absurd (hr ▸ hin) hout
  · rw [hr] at hin ⊢
    have hA : A = key := by simpa [hout] using hin
    rw [hA]

/-- The head of a queue leaves, and the next, until `gone` have left. -/
theorem leaves (gone rest : List String) :
    ∀ log, Relation.ReflTransGen Fifo.Move (gone ++ rest, log) (rest, log ++ gone) := by
  induction gone with
  | nil =>
    intro log
    simp only [List.nil_append, List.append_nil]
    exact .refl
  | cons k gone ih =>
    intro log
    have htail := ih (log ++ [k])
    rw [List.append_assoc, List.singleton_append] at htail
    exact .head (Fifo.Move.leave (gone ++ rest) log k) htail

/-- The pump takes agents off the front of the rotation, each dispatched once. -/
theorem pump_fifo {M : System} {jobs : List (String × Job)} {s' : WakeScheduler}
    (hp : M.sched.Pumped jobs s') (key : String) :
    Relation.ReflTransGen Fifo.Move M.rotation (M.claim key jobs s').rotation := by
  have hend : (M.claim key jobs s').rotation =
      (s'.ready, M.dispatched ++ jobs.map Prod.fst) := by
    simp [rotation, dispatched, claim, WakeScheduler.claimNotification]
  rw [hend, rotation, hp.ready]
  exact leaves (jobs.map Prod.fst) s'.ready M.dispatched

/-- **The step lemma**: every step is joins and departures of the queue. -/
theorem step_fifo {S S' : System} {l : Label} (h : S.Sound) (hs : S.step l = some S') :
    Relation.ReflTransGen Fifo.Move S.rotation S'.rotation := by
  rcases step_cases hs with ⟨key, M, hM, hpc⟩ | ⟨i, key, t, -, hcase⟩
  · obtain ⟨jobs, s', hpc', -, -, hp⟩ := pumpAndClaim_spec (h.beforePump hM).coherent key
    rw [hpc', Option.some.injEq] at hpc
    subst hpc
    have hjoin : Relation.ReflTransGen Fifo.Move S.rotation M.rotation := by
      obtain ⟨hlog, hr | hr⟩ := beforePump_ready hM
      · rw [rotation, rotation, hr, hlog]
      · rw [rotation, rotation, hr, hlog]
        exact .single (Fifo.Move.join _ _ key)
    exact hjoin.trans (pump_fifo hp key)
  · rcases hcase with ⟨-, -, rfl⟩ | ⟨-, rfl⟩ | ⟨-, rfl⟩
    · exact .refl
    · exact .refl
    · obtain ⟨-, -, hr, -, -⟩ := S.sched.settleNotification_frame key t.number
      simp only [rotation, hr]
      exact .refl

/-- A run is a run of the queue. -/
theorem run_fifo {S S' : System} {ls : List Label} (h : S.Sound ∧ S.sched.Busy)
    (hrun : Steps step S ls S') : Relation.ReflTransGen Fifo.Move S.rotation S'.rotation :=
  hrun.abstracts rotation (I := fun S => S.Sound ∧ S.sched.Busy)
    (fun _ _ _ hI hs => ⟨(hI.1.step hI.2 hs).1, (hI.1.step hI.2 hs).2.1⟩)
    (fun _ _ _ hI hs => step_fifo hI.1 hs) h

/-- What has been dispatched since `A` stood in the rotation behind `ahead`: some of `ahead`, in
order, while `A` still waits, or all of `ahead` and then `A`. -/
inductive Since (ahead : List String) (A : String) (S : System) : List String → Prop
  | waiting {gone rest : List String} : ahead = gone ++ rest → A ∈ S.sched.ready →
      Since ahead A S gone
  | served (later : List String) : Since ahead A S (ahead ++ A :: later)

/-- **The fairness bound.**  From the moment `A` enters the rotation, the dispatches up to and
including `A`'s own are exactly the agents ahead of it, each once, in the rotation's order; and
nobody in the rotation, `A` included, is there twice. -/
theorem dispatched_since_entering {lanes : ℕ} {hl : 1 ≤ lanes} {past now : List Label}
    {S S₁ S₂ : System} {l : Label} {A : String} (hpast : Steps step (start lanes hl) past S)
    (hin : S.Enters l A) (hstep : S.step l = some S₁) (hnow : Steps step S₁ now S₂) :
    (S.sched.ready ++ [A]).Nodup ∧
      ∃ since, S₂.dispatched = S.dispatched ++ since ∧ Since S.sched.ready A S₂ since := by
  obtain ⟨hS, hb, -⟩ := sound_of_run hpast
  obtain ⟨-, key, M, hM, -⟩ := id hin
  have hready := hin.ready hM
  have hMs := hS.beforePump hM
  refine ⟨hready ▸ hMs.coherent.ready_nodup, ?_⟩
  -- the section pumps, and then the rest of the run goes on
  obtain ⟨jobs, s', hpc, -, -, hp⟩ := pumpAndClaim_spec hMs.coherent key
  obtain rfl : M.claim key jobs s' = S₁ :=
    Option.some.inj (hpc.symm.trans ((step_of_beforePump hM).symm.trans hstep))
  have hbehind : Fifo.Behind S.sched.ready A S.dispatched S₂.rotation := by
    have hstart : M.rotation = (S.sched.ready ++ A :: [], S.dispatched) := by
      rw [rotation, hready, (beforePump_ready hM).1]
    have hfirst := hstart ▸ pump_fifo hp key
    obtain ⟨h1, h2, -⟩ := hS.step hb hstep
    exact Fifo.overtake (hfirst.trans (run_fifo ⟨h1, h2⟩ hnow))
  rcases hbehind with ⟨gone, rest, post, hahead, hrot⟩ | ⟨later, hlog⟩
  · obtain ⟨hq, hlog⟩ := Prod.mk.inj hrot
    exact ⟨gone, hlog, .waiting hahead (by rw [hq]; simp)⟩
  · exact ⟨S.sched.ready ++ A :: later, by rw [← List.append_assoc]; exact hlog, .served later⟩

/-- One lane, taken by the first agent: the third to come enters behind the second. -/
theorem dispatched_since_entering_behind_bob :
    ∃ S S₁ : System, S.sched.ready = ["bob"] ∧ S.step (.submit .carol) = some S₁ ∧
      ∃ since, S₁.dispatched = S.dispatched ++ since ∧ Since ["bob"] "carol" S₁ since := by
  obtain ⟨S, hrun, hready⟩ := Option.map_eq_some_iff.mp
    (by decide : (Steps.run step (start 1 le_rfl) [.submit .alice, .submit .bob]).map
        (fun S => (S.sched.ready, decide ("carol" ∈ (S.sched.enqueue .carol).ready))) =
      some (["bob"], true))
  obtain ⟨hready, hcarol⟩ := Prod.mk.inj hready
  have hpast := Steps.of_run hrun
  obtain ⟨S₁, hstep⟩ := (section_completes hpast).1 .carol
  have hin : S.Enters (.submit .carol) "carol" :=
    ⟨by simp [hready], _, _, rfl, of_decide_eq_true hcarol⟩
  have h := (dispatched_since_entering hpast hin hstep (.nil S₁)).2
  rw [hready] at h
  exact ⟨S, S₁, hready, hstep, h⟩

end System

end BasecradleRouter.Scheduler
