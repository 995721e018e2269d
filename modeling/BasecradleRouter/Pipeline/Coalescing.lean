/-
# Coalescing over runs

Two results about the coverage store over runs of `execute`.

`coalesced_by_earlier_wake`: a delivery that is coalesced is covered by the completed wake of an
earlier delivery of its own agent and stream, which its record names.  It rests on
`covered_was_done`: whatever entry the store holds was recorded by a delivery that was done.
-/
import BasecradleRouter.Pipeline.Runs

namespace BasecradleRouter.Pipeline

open BasecradleRouter.Lib BasecradleRouter.Logfmt BasecradleRouter.Models
open BasecradleRouter.Coalesce

/-! ## 1. Every entry comes from a completed wake -/

/-- The delivery `d`, at the world `m`, records `entry`. -/
structure Records (p : Pipeline) (m : World) (d : Delivery)
    (entry : (String × String) × Coverage) : Prop where
  done : m.Done p d
  stamped : d.event.occurredAt.isSome
  key : entry.1 = (d.agent.harnessKey, d.event.streamKey)
  coverage : entry.2 = ⟨d.event.deliveryId, lastStart p d.agent d.event d.readings⟩

/-- What the store holds after a delivery is what it recorded, or was held before. -/
theorem held_after_step {p : Pipeline} {m : World} {d : Delivery}
    {entry : (String × String) × Coverage}
    (h : entry ∈ (m.step p d).coverage.streams.toList) :
    Records p m d entry ∨ entry ∈ m.coverage.streams.toList := by
  rw [step_coverage] at h
  split at h
  · rename_i hdone
    rcases WakeCoverage.mem_of_mem_record h with ⟨hstamped, hkey, hcov⟩ | hold
    · exact Or.inl ⟨hdone, hstamped, hkey, hcov⟩
    · exact Or.inr hold
  · exact Or.inr h

/-- **Every entry was recorded on the way**, from a store that starts empty. -/
theorem covered_was_done {p : Pipeline} {W : World} (hfresh : W.coverage.streams = Lru.empty)
    {ds : List Delivery} {entry : (String × String) × Coverage}
    (h : entry ∈ (W.run p ds).coverage.streams.toList) :
    ∃ m d, W.Meets p ds m d ∧ Records p m d entry := by
  let held : World → (String × String) × Coverage → Prop :=
    fun m entry => entry ∈ m.coverage.streams.toList
  have hempty : ∀ entry, ¬ held W entry := by
    simp only [held, hfresh]
    exact fun _ => List.not_mem_nil
  have hstep : ∀ m d entry, held (m.step p d) entry → Records p m d entry ∨ held m entry :=
    fun m d entry => held_after_step
  exact born_of_held hempty hstep ds h

/-- **Coalescing never loses an event.**  A delivery that ends coalesced is covered by an earlier
delivery of the same agent and stream that ended done, is the one its record names, and was last
launched strictly after the delivery's own moment. -/
theorem coalesced_by_earlier_wake (p : Pipeline) (W : World)
    (hfresh : W.coverage.streams = Lru.empty) (ds : List Delivery) (d : Delivery)
    (h : (W.run p ds).ends p d = some (.coalesce, .ignored)) :
    ∃ m e, W.Meets p ds m e ∧
      e.agent.harnessKey = d.agent.harnessKey ∧ e.event.streamKey = d.event.streamKey ∧
      m.Done p e ∧ e.event.occurredAt.isSome ∧
      ∃ occurredAt start, d.event.occurredAt = some occurredAt ∧ m.startedAt p e = some start ∧
        occurredAt.instant < start.instant ∧
        ∃ occurred, ((W.run p ds).step p d).records.getLast? = some (.render .coalesce .ignored
          (who d.agent d.event ++
            [("into", .str e.event.deliveryId), ("occurred", occurred),
              ("wake_started", .str start.isoformatZ)])) := by
  have hterminal : ((W.run p ds).exit p d).terminal = (.coalesce, .ignored) := by
    rw [ends_eq] at h
    exact Option.some.inj h
  obtain ⟨into, occurred, hcov, hexit⟩ := covered_of_terminal hterminal
  obtain ⟨occurredAt, hocc, hget, hlt⟩ := WakeCoverage.covering_eq_some.mp hcov
  obtain ⟨m, e, hmet, hrec⟩ := covered_was_done hfresh (Lru.get_eq_some.mp hget)
  have hinto : into = ⟨e.event.deliveryId, lastStart p e.agent e.event e.readings⟩ := hrec.coverage
  have hkey : d.agent.harnessKey = e.agent.harnessKey ∧ d.event.streamKey = e.event.streamKey := by
    simpa using hrec.key
  have hlast : ((W.run p ds).step p d).records.getLast? = some (.render .coalesce .ignored
      (who d.agent d.event ++ [("into", .str into.delivery), ("occurred", occurred),
        ("wake_started", .str into.startedAt.isoformatZ)])) := by
    rw [step_terminal, World.exit, hexit]
    rfl
  rw [hinto] at hlt hlast
  exact ⟨m, e, hmet, hkey.1.symm, hkey.2.symm, hrec.done, hrec.stamped, occurredAt,
    lastStart p e.agent e.event e.readings, hocc, startedAt_of_done p m e hrec.done, hlt, occurred,
    hlast⟩

/-- Bob is woken for a message, and a second one from before that wake is coalesced. -/
theorem coalesced_by_earlier_wake_bob :
    ∃ m e, World.sample.Meets ⟨3⟩ [.sample "1" (by decide) 5 (by decide) 0 (.ok ⟨0⟩)] m e ∧
      m.Done ⟨3⟩ e := by
  obtain ⟨m, e, hmet, -, -, hdone, -⟩ := coalesced_by_earlier_wake ⟨3⟩ World.sample rfl
    [.sample "1" (by decide) 5 (by decide) 0 (.ok ⟨0⟩)]
      (.sample "2" (by decide) 6 (by decide) 1 (.ok ⟨0⟩)) (by decide)
  exact ⟨m, e, hmet, hdone⟩

/-! ## 2. At most one follow-up for a stream -/

/-- A delivery of the agent `h` on the stream `s`. -/
def OfStream (h s : String) (d : Delivery) : Prop :=
  d.agent.harnessKey = h ∧ d.event.streamKey = s

/-- The (agent, stream) keys recorded along a run. -/
def recordedKeys (p : Pipeline) (W : World) : List Delivery → List (String × String)
  | [] => []
  | d :: ds =>
    (if W.Done p d ∧ d.event.occurredAt.isSome then [(d.agent.harnessKey, d.event.streamKey)]
      else []) ++ recordedKeys p (W.step p d) ds

/-- How many distinct keys are recorded along a run. -/
def distinctKeys (p : Pipeline) (W : World) (ds : List Delivery) : ℕ :=
  (recordedKeys p W ds).toFinset.card

theorem recordedKeys_append (p : Pipeline) (W : World) (ds ds' : List Delivery) :
    recordedKeys p W (ds ++ ds') = recordedKeys p W ds ++ recordedKeys p (W.run p ds) ds' := by
  induction ds generalizing W with
  | nil => rfl
  | cons d ds ih =>
    simp only [List.cons_append, recordedKeys, ih, List.append_assoc]
    rfl

/-- A key recorded on the way is one of them. -/
theorem mem_recordedKeys {p : Pipeline} {W : World} {ds rest : List Delivery} {d : Delivery}
    (hdone : (W.run p ds).Done p d) (hstamped : d.event.occurredAt.isSome) :
    (d.agent.harnessKey, d.event.streamKey) ∈ recordedKeys p W (ds ++ d :: rest) := by
  simp [recordedKeys_append, recordedKeys, hdone, hstamped]

theorem step_capacity (p : Pipeline) (W : World) (d : Delivery) :
    (W.step p d).coverage.capacity = W.coverage.capacity := by
  rw [step_coverage]
  split
  · exact WakeCoverage.record_capacity _ _ _ _
  · rfl

theorem run_capacity (p : Pipeline) (W : World) (ds : List Delivery) :
    (W.run p ds).coverage.capacity = W.coverage.capacity :=
  after_invariant (I := fun _ (m : World) => m.coverage.capacity = W.coverage.capacity) rfl
    (fun _ _ ih => (step_capacity p _ _).trans ih) ds

/-- A delivery whose stream is fresh from a later start is covered, so it does not wake. -/
theorem covered_of_fresh {m : World} {d : Delivery} {known : Coverage}
    {T : Finset (String × String)}
    (hfresh : Lru.Fresh (d.agent.harnessKey, d.event.streamKey) known T m.coverage.streams)
    {occurredAt : Datetime} (hocc : d.event.occurredAt = some occurredAt)
    (hlt : occurredAt.instant < known.startedAt.instant) :
    covering d.agent d.event m = some known :=
  WakeCoverage.covering_eq_some.mpr ⟨occurredAt, hocc, hfresh.get, hlt⟩

theorem not_done_of_covered {p : Pipeline} {m : World} {d : Delivery} {known : Coverage}
    (h : covering d.agent d.event m = some known) : ¬ m.Done p d := by
  intro hdone
  have hwake := reachesWake_of_done ((done_iff p m d).mp hdone)
  rw [not_reachesWake_of_covered h] at hwake
  exact absurd hwake (by simp)

/-- Its moment is representable in UTC and strictly before `start`. -/
def StampedBefore (start : Utc) (d : Delivery) : Prop :=
  ∃ occurredAt, d.event.occurredAt = some occurredAt ∧ occurredAt.astimezoneUtc.isSome ∧
    occurredAt.instant < start.instant

/-- A fresh stream stays fresh along a run whose deliveries of the stream it covers, while fewer
distinct keys are recorded than there is room for. -/
theorem fresh_along {p : Pipeline} {W : World} {h s : String} {known : Coverage}
    {T : Finset (String × String)} {later : List Delivery}
    (hfresh : Lru.Fresh (h, s) known T W.coverage.streams) (hT : T.card < W.coverage.capacity)
    (hkeys : ∀ key ∈ recordedKeys p W later, key ∈ T)
    (hbefore : ∀ d ∈ later, OfStream h s d → StampedBefore known.startedAt d)
    {between rest : List Delivery} (hsplit : later = between ++ rest) :
    Lru.Fresh (h, s) known T (W.run p between).coverage.streams := by
  induction between using List.reverseRecOn generalizing rest with
  | nil => exact hfresh
  | append_singleton between d ih =>
    have hd : later = between ++ d :: rest := by simpa using hsplit
    have hat := ih hd
    rw [run_snoc, step_coverage]
    split
    · rename_i hdone
      refine WakeCoverage.fresh_record_of_ne hat ?_ ?_ fun hstamped => ?_
      · rw [run_capacity]
        exact hT
      · -- were it the stream's own, it would be covered and would not be done
        rintro hkey
        obtain ⟨rfl, rfl⟩ := Prod.mk.inj hkey
        obtain ⟨occurredAt, hocc, -, hlt⟩ := hbefore d (by simp [hd]) ⟨rfl, rfl⟩
        exact not_done_of_covered (covered_of_fresh hat hocc hlt) hdone
      · exact hkeys _ (hd ▸ mem_recordedKeys hdone hstamped)
    · exact hat

/-- What a covered delivery of the stream comes to. -/
theorem covered_ends {p : Pipeline} {m : World} {d : Delivery} {known : Coverage}
    (hcov : covering d.agent d.event m = some known) (hflush : d.readings.flush.raised = none)
    {start : Utc} (hbefore : StampedBefore start d) :
    (m.ends p d = some (.dedup, .ignored) ∨ m.ends p d = some (.coalesce, .ignored)) ∧
      launches (m.step p d).effects = [] := by
  obtain ⟨occurredAt, hocc, hutc, -⟩ := hbefore
  obtain ⟨u, hu⟩ := Option.isSome_iff_exists.mp hutc
  have hinstant : instant d.event.occurredAt = .ok (.str u.isoformatZ) := by
    simp [instant, hocc, hu]
  refine ⟨?_, ?_⟩
  · rw [ends_eq, Option.some.injEq, Option.some.injEq]
    exact terminal_of_covered hflush hcov hinstant
  · rw [step_launches, not_reachesWake_of_covered hcov]
    rfl

/-- **At most one follow-up for a stream.**  Once the first wake of a stream is done, started
after all of the stream's moments, every later delivery of the stream ends as a duplicate or
coalesced and does not call the waker, as long as fewer distinct keys are recorded than the
store has room for; that wake is the stream's only completed one. -/
theorem one_completed_wake (p : Pipeline) (W : World) (h s : String)
    (earlier later : List Delivery) (first : Delivery) (start : Utc)
    (hfirst : OfStream h s first) (hdone : (W.run p earlier).Done p first)
    (hnone : ∀ m d, W.Meets p earlier m d → OfStream h s d → ¬ m.Done p d)
    (hstart : (W.run p earlier).startedAt p first = some start)
    (hbefore : ∀ d ∈ earlier ++ first :: later, OfStream h s d → StampedBefore start d)
    (hcapacity : distinctKeys p (W.run p (earlier ++ [first])) later < W.coverage.capacity)
    (hflush : ∀ d ∈ later, OfStream h s d → d.readings.flush.raised = none) :
    (∀ between d rest, later = between ++ d :: rest → OfStream h s d →
      let m := W.run p (earlier ++ first :: between)
      (m.ends p d = some (.dedup, .ignored) ∨ m.ends p d = some (.coalesce, .ignored)) ∧
        launches (m.step p d).effects = []) ∧
      ∀ before d rest, earlier ++ first :: later = before ++ d :: rest → OfStream h s d →
        (W.run p before).Done p d → before = earlier := by
  have hlast : lastStart p first.agent first.event first.readings = start :=
    Option.some.inj ((startedAt_of_done p _ _ hdone).symm.trans hstart)
  have hstamped : first.event.occurredAt.isSome := by
    obtain ⟨occurredAt, hocc, -⟩ := hbefore first (by simp) hfirst
    simp [hocc]
  obtain ⟨rfl, rfl⟩ := hfirst
  -- the first completed wake leaves its stream fresh, and so it stays
  have hrecord : (W.run p (earlier ++ [first])).coverage =
      (W.run p earlier).coverage.record first.agent.harnessKey first.event start := by
    rw [run_snoc, step_coverage, if_pos hdone, hlast]
  obtain ⟨known, hle, hfresh⟩ : ∃ known : Coverage, start.instant ≤ known.startedAt.instant ∧
      Lru.Fresh (first.agent.harnessKey, first.event.streamKey) known
        (recordedKeys p (W.run p (earlier ++ [first])) later).toFinset
        (W.run p (earlier ++ [first])).coverage.streams := by
    rw [hrecord]
    exact WakeCoverage.fresh_record hstamped (by rw [run_capacity]; exact hcapacity)
  have hcovers : ∀ between d rest, later = between ++ d :: rest →
      OfStream first.agent.harnessKey first.event.streamKey d →
      covering d.agent d.event (W.run p (earlier ++ first :: between)) = some known := by
    intro between d rest hsplit hd
    have hat := fresh_along hfresh (by rw [run_capacity]; exact hcapacity)
      (fun key hkey => List.mem_toFinset.mpr hkey)
      (fun d hd hstream => by
        obtain ⟨occurredAt, hocc, hutc, hlt⟩ := hbefore d (by simp [hd]) hstream
        exact ⟨occurredAt, hocc, hutc, hlt.trans_le hle⟩)
      hsplit
    rw [← run_append, List.append_assoc] at hat
    obtain ⟨occurredAt, hocc, -, hlt⟩ := hbefore d (by simp [hsplit]) hd
    obtain ⟨hagent, hstream⟩ := hd
    rw [← hagent, ← hstream] at hat
    exact covered_of_fresh hat hocc (hlt.trans_le hle)
  refine ⟨fun between d rest hsplit hd => ?_, fun before d rest hsplit hd hdoneD => ?_⟩
  · exact covered_ends (hcovers between d rest hsplit hd) (hflush d (by simp [hsplit]) hd)
      (hbefore d (by simp [hsplit]) hd)
  · rcases List.append_eq_append_iff.mp hsplit with ⟨mid, rfl, hmid⟩ | ⟨mid, rfl, hmid⟩
    · cases mid with
      | nil => simp
      | cons e mid =>
        -- a delivery after the first is covered
        obtain ⟨rfl, hlater⟩ := List.cons.inj hmid
        exact absurd hdoneD (not_done_of_covered (hcovers mid d rest hlater hd))
    · cases mid with
      | nil => simp
      | cons e mid =>
        -- a delivery before the first is not done
        obtain ⟨rfl, hrest⟩ := List.cons.inj hmid
        exact absurd hdoneD (hnone _ _ ⟨before, mid, rfl, rfl⟩ hd)

/-- Bob's first wake fails, the second is done, and a third message from before it is coalesced. -/
theorem one_completed_wake_bob :
    let early : Delivery := .sample "1" (by decide) 5 (by decide) 0 (.error (.wakeError "down"))
    let first : Delivery := .sample "2" (by decide) 6 (by decide) 1 (.ok ⟨0⟩)
    let late : Delivery := .sample "3" (by decide) 7 (by decide) 2 (.ok ⟨0⟩)
    (World.sample.run ⟨1⟩ [early]).Done ⟨1⟩ first ∧
      launches ((World.sample.run ⟨1⟩ [early, first]).step ⟨1⟩ late).effects = [] := by
  intro early first late
  have hnone : ¬ World.sample.Done ⟨1⟩ early := by decide
  have hdone : (World.sample.run ⟨1⟩ [early]).Done ⟨1⟩ first := by decide +kernel
  have h := one_completed_wake ⟨1⟩ World.sample "bob" "timeline" [early] [late] first ⟨8, by decide⟩
    ⟨rfl, rfl⟩ hdone ?_ (by decide +kernel) ?_ (by decide +kernel) ?_
  · exact ⟨hdone, (h.1 [] late [] rfl ⟨rfl, rfl⟩).2⟩
  · rintro m d ⟨before, rest, hsplit, rfl⟩ -
    obtain ⟨rfl, rfl⟩ : before = [] ∧ early = d := by
      rcases List.singleton_eq_append_iff.mp hsplit with ⟨rfl, h⟩ | ⟨-, h⟩
      · exact ⟨rfl, (List.cons.inj h).1.symm⟩
      · exact absurd h (by simp)
    exact hnone
  · simp only [List.cons_append, List.nil_append, List.mem_cons, List.not_mem_nil, or_false,
      forall_eq_or_imp, forall_eq]
    exact ⟨fun _ => ⟨_, rfl, by decide, by decide⟩, fun _ => ⟨_, rfl, by decide, by decide⟩,
      fun _ => ⟨_, rfl, by decide, by decide⟩⟩
  · intro d hd _
    rw [List.mem_singleton.mp hd]
    rfl

end BasecradleRouter.Pipeline
