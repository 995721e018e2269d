/-
# Coalescing

`WakeCoverage` remembers, per agent and stream, the latest start of a wake that read the stream,
and the delivery that launched it.  A delivery whose event happened strictly before that start
is covered.  A record never moves a stream's start back, and the store forgets the streams
recorded longest ago.
-/
import BasecradleRouter.Lib.Lru
import BasecradleRouter.Models

namespace BasecradleRouter.Coalesce

open BasecradleRouter.Lib BasecradleRouter.Models

/-- `DEFAULT_CAPACITY` -/
def defaultCapacity : ℕ := 4096

/-- The wake that covers a stream: which delivery launched it, and when. -/
structure Coverage where
  delivery : String
  startedAt : Utc
  deriving DecidableEq

/-- The store. -/
structure WakeCoverage where
  capacity : ℕ
  streams : Lru (String × String) Coverage
  capacity_pos : 1 ≤ capacity

namespace WakeCoverage

/-- `WakeCoverage(capacity)` -/
def new (capacity : ℕ) (h : 1 ≤ capacity) : WakeCoverage := ⟨capacity, Lru.empty, h⟩

/-- The later of two coverages, the new one where they start together. -/
def later (known : Option Coverage) (fresh : Coverage) : Coverage :=
  match known with
  | none => fresh
  | some known => if known.startedAt.instant ≤ fresh.startedAt.instant then fresh else known

/-- `record` -/
def record (c : WakeCoverage) (agentKey : String) (event : Event) (startedAt : Utc) :
    WakeCoverage :=
  match event.occurredAt with
  | none => c
  | some _ =>
    let key := (agentKey, event.streamKey)
    let coverage := later (c.streams.get key) ⟨event.deliveryId, startedAt⟩
    { c with streams := (c.streams.touch key coverage).evict c.capacity }

/-- `covering` -/
def covering (c : WakeCoverage) (agentKey : String) (event : Event) : Option Coverage :=
  match event.occurredAt with
  | none => none
  | some occurredAt =>
    match c.streams.get (agentKey, event.streamKey) with
    | none => none
    | some known => if occurredAt.instant < known.startedAt.instant then some known else none

/-! ## What the store holds -/

/-- A delivery is covered by the entry of its own stream, if it is stamped and the entry started
strictly later. -/
theorem covering_eq_some {c : WakeCoverage} {agentKey : String} {event : Event}
    {known : Coverage} :
    c.covering agentKey event = some known ↔
      ∃ occurredAt, event.occurredAt = some occurredAt ∧
        c.streams.get (agentKey, event.streamKey) = some known ∧
        occurredAt.instant < known.startedAt.instant := by
  unfold covering
  cases event.occurredAt with
  | none => simp
  | some occurredAt =>
    cases c.streams.get (agentKey, event.streamKey) with
    | none => simp
    | some entry =>
      simp only [Option.ite_none_right_eq_some, Option.some.injEq, exists_eq_left']
      constructor
      · rintro ⟨hlt, rfl⟩
        exact ⟨rfl, hlt⟩
      · rintro ⟨rfl, hlt⟩
        exact ⟨hlt, rfl⟩

/-- An unstamped delivery covers nothing. -/
theorem record_unstamped {c : WakeCoverage} {agentKey : String} {event : Event} {startedAt : Utc}
    (h : event.occurredAt = none) : c.record agentKey event startedAt = c := by
  simp [record, h]

/-- The later of two coverages is one of the two. -/
theorem later_cases (known : Option Coverage) (fresh : Coverage) :
    later known fresh = fresh ∨ known = some (later known fresh) := by
  cases known with
  | none => exact Or.inl rfl
  | some known =>
    simp only [later]
    split
    · exact Or.inl rfl
    · exact Or.inr rfl

/-- It starts no earlier than either. -/
theorem le_later (known : Option Coverage) (fresh : Coverage) :
    fresh.startedAt.instant ≤ (later known fresh).startedAt.instant := by
  cases known with
  | none => exact le_rfl
  | some known =>
    simp only [later]
    split
    · exact le_rfl
    · rename_i hlt
      exact (not_le.mp hlt).le

/-- What the store holds after a record is what was recorded, or was held before. -/
theorem mem_of_mem_record {c : WakeCoverage} {agentKey : String} {event : Event}
    {startedAt : Utc} {key : String × String} {coverage : Coverage}
    (h : (key, coverage) ∈ (c.record agentKey event startedAt).streams.toList) :
    (event.occurredAt.isSome ∧ key = (agentKey, event.streamKey) ∧
        coverage = ⟨event.deliveryId, startedAt⟩) ∨
      (key, coverage) ∈ c.streams.toList := by
  unfold record at h
  cases hocc : event.occurredAt with
  | none =>
    rw [hocc] at h
    exact Or.inr h
  | some occurredAt =>
    rw [hocc] at h
    rcases Lru.mem_touch.mp (Lru.mem_of_mem_evict h) with ⟨-, hold⟩ | ⟨rfl, rfl⟩
    · exact Or.inr hold
    · -- the stream's own entry: the later of the one it had and the new one
      rcases later_cases (c.streams.get (agentKey, event.streamKey)) ⟨event.deliveryId, startedAt⟩
        with hfresh | hknown
      · exact Or.inl ⟨rfl, rfl, hfresh⟩
      · exact Or.inr (Lru.get_eq_some.mp hknown)

theorem record_capacity (c : WakeCoverage) (agentKey : String) (event : Event) (startedAt : Utc) :
    (c.record agentKey event startedAt).capacity = c.capacity := by
  unfold record
  split <;> rfl

/-- A stamped delivery's record leaves its stream fresh, from no earlier a start. -/
theorem fresh_record {c : WakeCoverage} {agentKey : String} {event : Event} {startedAt : Utc}
    (h : event.occurredAt.isSome) {T : Finset (String × String)} (hT : T.card < c.capacity) :
    ∃ known : Coverage, startedAt.instant ≤ known.startedAt.instant ∧
      Lru.Fresh (agentKey, event.streamKey) known T
        (c.record agentKey event startedAt).streams := by
  obtain ⟨occurredAt, hocc⟩ := Option.isSome_iff_exists.mp h
  refine ⟨_, le_later (c.streams.get (agentKey, event.streamKey)) ⟨event.deliveryId, startedAt⟩, ?_⟩
  rw [record, hocc]
  exact (Lru.fresh_touch_self _ _ _ T).evict hT

/-- A record for another stream leaves a fresh stream fresh. -/
theorem fresh_record_of_ne {c : WakeCoverage} {agentKey : String} {event : Event}
    {startedAt : Utc} {key : String × String} {known : Coverage} {T : Finset (String × String)}
    (hfresh : Lru.Fresh key known T c.streams) (hT : T.card < c.capacity)
    (hne : (agentKey, event.streamKey) ≠ key)
    (hmem : event.occurredAt.isSome → (agentKey, event.streamKey) ∈ T) :
    Lru.Fresh key known T (c.record agentKey event startedAt).streams := by
  unfold record
  cases hocc : event.occurredAt with
  | none => exact hfresh
  | some occurredAt => exact (hfresh.touch hne (hmem (by simp [hocc]))).evict hT

end WakeCoverage

end BasecradleRouter.Coalesce
