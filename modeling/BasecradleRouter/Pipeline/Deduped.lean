/-
# What a dedup rests on

The evidence counts a delivery as deduped where the dedup gate or the coalesce gate collapses it.
Both gates read caches that are written where a delivery is done, which is where its wake
succeeded and also where it was stopped by a signal; a stop counts nothing.  So a dedup rests on
an `ok` or on a stop (`deduped_rests_on_done`), and not on an `ok` alone
(`deduped_without_ok`).

The dedup cache is keyed by the delivery and not by the agent.  That a key tells its agent and
source apart is `KeysTell`, which one registry gives (`keysTell_of_registry`).
-/
import BasecradleRouter.Pipeline.Coalescing
import BasecradleRouter.Pipeline.Dedup

namespace BasecradleRouter.Pipeline

open BasecradleRouter.Lib BasecradleRouter.Models BasecradleRouter.Dedup
open BasecradleRouter.Coalesce BasecradleRouter.Evidence

/-! ## 1. Counters only rise -/

section

variable (p : Pipeline)

theorem agentCount_mono (m : World) (d : Delivery) (agent : String) (c : Counter) :
    m.evidence.agentCount agent c ≤ (m.step p d).evidence.agentCount agent c := by
  rw [step_agentCount]
  split <;> omega

theorem routeCount_mono (m : World) (d : Delivery) (agent route : String) (c : Counter) :
    m.evidence.routeCount agent route c ≤ (m.step p d).evidence.routeCount agent route c := by
  rw [step_routeCount]
  split <;> omega

theorem agentCount_nonneg {W : World} (hnew : W.evidence = .new) (ds : List Delivery)
    (agent : String) (c : Counter) : 0 ≤ (W.run p ds).evidence.agentCount agent c := by
  refine after_invariant (I := fun _ (m : World) => 0 ≤ m.evidence.agentCount agent c) ?_
    (fun _ d ih => ih.trans (agentCount_mono p _ d agent c)) ds
  simp [hnew]

theorem routeCount_nonneg {W : World} (hnew : W.evidence = .new) (ds : List Delivery)
    (agent route : String) (c : Counter) :
    0 ≤ (W.run p ds).evidence.routeCount agent route c := by
  refine after_invariant (I := fun _ (m : World) => 0 ≤ m.evidence.routeCount agent route c) ?_
    (fun _ d ih => ih.trans (routeCount_mono p _ d agent route c)) ds
  simp [hnew]

end

/-! ## 2. A done delivery was counted, or stopped -/

/-- A wake of `agent` over `route` on the run was stopped. -/
def Stopped (p : Pipeline) (W : World) (ds : List Delivery) (agent route : String) : Prop :=
  ∃ m d, W.Meets p ds m d ∧ d.agent.harnessKey = agent ∧ d.event.source = route ∧
    m.ends p d = some (.wake, .stopped)

/-- What the evidence says at the end of a run about a delivery done on the way. -/
theorem counted_of_done {p : Pipeline} {W : World} (hnew : W.evidence = .new)
    {ds : List Delivery} {m : World} {d : Delivery} (hmet : W.Meets p ds m d)
    (hdone : m.Done p d) :
    (1 ≤ (W.run p ds).evidence.agentCount d.agent.harnessKey .ok ∧
        1 ≤ (W.run p ds).evidence.routeCount d.agent.harnessKey d.event.source .ok) ∨
      Stopped p W ds d.agent.harnessKey d.event.source := by
  rcases Exit.counted_of_done ((done_iff p m d).mp hdone) with hcount | hstop
  · left
    obtain ⟨earlier, later, hsplit, hm⟩ := id hmet
    constructor
    · refine hmet.persists (Q := fun m : World =>
        1 ≤ m.evidence.agentCount d.agent.harnessKey .ok) ?_ fun m j hone =>
          hone.trans (agentCount_mono p m j _ _)
      have hnonneg : 0 ≤ m.evidence.agentCount d.agent.harnessKey .ok :=
        hm ▸ agentCount_nonneg p hnew earlier d.agent.harnessKey .ok
      rw [step_agentCount, if_pos ⟨rfl, hcount⟩]
      omega
    · refine hmet.persists (Q := fun m : World =>
        1 ≤ m.evidence.routeCount d.agent.harnessKey d.event.source .ok) ?_ fun m j hone =>
          hone.trans (routeCount_mono p m j _ _ _)
      have hnonneg : 0 ≤ m.evidence.routeCount d.agent.harnessKey d.event.source .ok :=
        hm ▸ routeCount_nonneg p hnew earlier d.agent.harnessKey d.event.source .ok
      rw [step_routeCount, if_pos ⟨rfl, rfl, hcount⟩]
      omega
  · exact Or.inr ⟨m, d, hmet, rfl, rfl, by rw [ends_eq, hstop]⟩

/-! ## 3. Where the gates' caches come from -/

/-- A key the dedup cache holds was marked on the way, from a cache that starts empty. -/
theorem held_was_marked {p : Pipeline} {W : World} (hfresh : W.deduper.marked = Dict.empty)
    {ds : List Delivery} {key : String}
    (h : ((W.run p ds).deduper.marked.get key).isSome) :
    ∃ m d, W.Meets p ds m d ∧ World.Marks p key m d := by
  let held : World → String → Prop := fun m key => (m.deduper.marked.get key).isSome
  have hempty : ∀ key, ¬ held W key := by simp [held, hfresh]
  have hstep : ∀ m d key, held (m.step p d) key → World.Marks p key m d ∨ held m key := by
    intro m d key hheld
    simp only [held, step_deduper] at hheld
    split at hheld
    · rename_i hdone
      rcases DeliveryDeduper.held_of_held_mark hheld with rfl | hbefore
      · exact Or.inl ⟨hdone, rfl⟩
      · exact Or.inr (DeliveryDeduper.held_of_held_seen hbefore)
    · exact Or.inr (DeliveryDeduper.held_of_held_seen hheld)
  exact born_of_held hempty hstep ds h

/-- Deliveries of one key are of one agent and one source. -/
def KeysTell (ds : List Delivery) : Prop :=
  ∀ d ∈ ds, ∀ e ∈ ds, d.event.dedupKey = e.event.dedupKey →
    d.agent.harnessKey = e.agent.harnessKey ∧ d.event.source = e.event.source

/-- One registry, sources that each use one recipient kind, and names without `:` give it. -/
theorem keysTell_of_registry {resolve : Recipient → Option Agent} {kind : String → String}
    {ds : List Delivery} (hresolve : ∀ d ∈ ds, resolve d.event.recipient = some d.agent)
    (hkind : ∀ d ∈ ds, d.event.recipient.tag = kind d.event.source)
    (htells : ∀ d ∈ ds, Tells d.event) : KeysTell ds := by
  intro d hd e he hkey
  obtain ⟨hsource, hvalue, -⟩ := (dedupKey_inj (htells d hd).1 (htells e he).1 (htells d hd).2
    (htells e he).2).mp hkey
  have htag : d.event.recipient.tag = e.event.recipient.tag := by
    rw [hkind d hd, hkind e he, hsource]
  have hrecipient : d.event.recipient = e.event.recipient := by
    cases hd' : d.event.recipient
    cases he' : e.event.recipient
    simp_all
  have hagent : d.agent = e.agent := by
    have h := hresolve d hd
    rw [hrecipient, hresolve e he] at h
    exact (Option.some.inj h).symm
  exact ⟨by rw [hagent], hsource⟩

/-- A delivery the dedup gate collapses had a done delivery of its own agent and source. -/
theorem done_of_duplicate {p : Pipeline} {W : World} (hfresh : W.deduper.marked = Dict.empty)
    {ds : List Delivery} (htells : KeysTell ds) {m : World} {d : Delivery}
    (hmet : W.Meets p ds m d) (hdup : duplicate d.event d.readings m = true) :
    ∃ m' e, W.Meets p ds m' e ∧ m'.Done p e ∧ e.agent.harnessKey = d.agent.harnessKey ∧
      e.event.source = d.event.source := by
  obtain ⟨earlier, later, rfl, rfl⟩ := hmet
  obtain ⟨m', e, hmet', hdone, hkey⟩ :=
    held_was_marked hfresh (DeliveryDeduper.held_of_seen hdup)
  have he : e ∈ earlier ++ d :: later := List.mem_append_left _ hmet'.mem
  obtain ⟨hagent, hsource⟩ := htells e he d (by simp) hkey
  exact ⟨m', e, hmet'.append _, hdone, hagent, hsource⟩

/-- A delivery the coalesce gate collapses had a done delivery of its own agent. -/
theorem done_of_covered {p : Pipeline} {W : World} (hfresh : W.coverage.streams = Lru.empty)
    {ds : List Delivery} {m : World} {d : Delivery} (hmet : W.Meets p ds m d)
    (hcov : (covering d.agent d.event m).isSome) :
    ∃ m' e, W.Meets p ds m' e ∧ m'.Done p e ∧ e.agent.harnessKey = d.agent.harnessKey := by
  obtain ⟨earlier, later, rfl, rfl⟩ := hmet
  obtain ⟨into, hinto⟩ := Option.isSome_iff_exists.mp hcov
  obtain ⟨-, -, hget, -⟩ := WakeCoverage.covering_eq_some.mp hinto
  obtain ⟨m', e, hmet', hrec⟩ := covered_was_done hfresh (Lru.get_eq_some.mp hget)
  exact ⟨m', e, hmet'.append _, hrec.done, (Prod.mk.inj hrec.key).1.symm⟩

/-! ## 4. A dedup rests on an `ok` or on a stop -/

/-- **What a dedup rests on.**  An agent with a dedup has an `ok`, or one of its wakes was
stopped; and a row whose delivery the dedup gate collapsed has an `ok` of its own, or one of its
own wakes was stopped. -/
theorem deduped_rests_on_done (p : Pipeline) (W : World) (hnew : W.evidence = .new)
    (hdeduper : W.deduper.marked = Dict.empty) (hcoverage : W.coverage.streams = Lru.empty)
    (ds : List Delivery) (htells : KeysTell ds) :
    (∀ agent, 1 ≤ (W.run p ds).evidence.agentCount agent .deduped →
      1 ≤ (W.run p ds).evidence.agentCount agent .ok ∨ ∃ route, Stopped p W ds agent route) ∧
    ∀ m d, W.Meets p ds m d → duplicate d.event d.readings m = true →
      1 ≤ (W.run p ds).evidence.routeCount d.agent.harnessKey d.event.source .ok ∨
        Stopped p W ds d.agent.harnessKey d.event.source := by
  refine ⟨fun agent hcount => ?_, fun m d hmet hdup => ?_⟩
  · let held : World → String → Prop := fun m agent => 1 ≤ m.evidence.agentCount agent .deduped
    have hempty : ∀ agent, ¬ held W agent := by
      intro agent
      simp [held, hnew]
    have hstep : ∀ m d agent, held (m.step p d) agent →
        (d.agent.harnessKey = agent ∧ (m.exit p d).counter = some .deduped) ∨ held m agent := by
      intro m d agent hheld
      simp only [held, step_agentCount] at hheld
      split at hheld
      · rename_i hcounted
        exact Or.inl hcounted
      · exact Or.inr (by simpa using hheld)
    obtain ⟨m, d, hmet, rfl, hdeduped⟩ := born_of_held hempty hstep ds hcount
    have hdone : ∃ m' e, W.Meets p ds m' e ∧ m'.Done p e ∧
        e.agent.harnessKey = d.agent.harnessKey := by
      rcases gate_of_deduped hdeduped with hdup | hcov
      · obtain ⟨m', e, hmet', hdone, hagent, -⟩ := done_of_duplicate hdeduper htells hmet hdup
        exact ⟨m', e, hmet', hdone, hagent⟩
      · exact done_of_covered hcoverage hmet hcov
    obtain ⟨m', e, hmet', hdone, hagent⟩ := hdone
    rw [← hagent]
    rcases counted_of_done hnew hmet' hdone with ⟨hok, -⟩ | hstopped
    · exact Or.inl hok
    · exact Or.inr ⟨_, hstopped⟩
  · obtain ⟨m', e, hmet', hdone, hagent, hsource⟩ := done_of_duplicate hdeduper htells hmet hdup
    rw [← hagent, ← hsource]
    rcases counted_of_done hnew hmet' hdone with ⟨-, hok⟩ | hstopped
    · exact Or.inl hok
    · exact Or.inr hstopped

/-- Bob is woken for a message, and its duplicate is deduped. -/
theorem deduped_rests_on_done_bob :
    let ds : List Delivery :=
      [.sample "1" (by decide) 5 (by decide) 0 (.ok ⟨0⟩),
        .sample "1" (by decide) 5 (by decide) 1 (.ok ⟨0⟩)]
    1 ≤ (World.sample.run ⟨1⟩ ds).evidence.agentCount "bob" .ok ∨
      ∃ route, Stopped ⟨1⟩ World.sample ds "bob" route := by
  intro ds
  have htells : KeysTell ds := by
    simp only [KeysTell, ds, List.mem_cons, List.not_mem_nil, or_false, forall_eq_or_imp, forall_eq]
    decide
  exact (deduped_rests_on_done ⟨1⟩ World.sample rfl rfl rfl ds htells).1 "bob" (by decide +kernel)

/-- A dedup without an `ok`: of two deliveries of one message, the first is stopped by a signal
and the second is collapsed.  And two recipients whose keys run into each other: the second is
collapsed for the first. -/
theorem deduped_without_ok :
    (let stopped : Delivery :=
        .sample "1" (by decide) 5 (by decide) 0 (.error (.wakeStopped "stopped" "SIGTERM" (-15)))
      let again : Delivery := .sample "1" (by decide) 5 (by decide) 1 (.ok ⟨0⟩)
      let W := World.sample.run ⟨1⟩ [stopped, again]
      W.evidence.agentCount "bob" .deduped = 1 ∧ W.evidence.agentCount "bob" .ok = 0 ∧
        W.evidence.routeCount "bob" "basecradle" .deduped = 1 ∧
        W.evidence.routeCount "bob" "basecradle" .ok = 0) ∧
    (let first : Delivery :=
        { agent := .builder "alice" (by decide)
          event := .message "a:b" "c" none (by decide) (by decide)
          readings := .sample 0 ⟨7, by decide⟩ (.ok ⟨0⟩) }
      let second : Delivery :=
        { agent := .builder "bob" (by decide)
          event := .message "a" "b:c" none (by decide) (by decide)
          readings := .sample 1 ⟨7, by decide⟩ (.ok ⟨0⟩) }
      let W := World.sample.run ⟨1⟩ [first, second]
      W.evidence.agentCount "bob" .deduped = 1 ∧ W.evidence.agentCount "bob" .ok = 0) := by
  decide +kernel

end BasecradleRouter.Pipeline
