/-
# Which rows a recorder writes

A recorder of a delivery writes its route's sink, and a recorder of a wake its agent's row for its
route; no other sink and no other row changes.  `SameRows` is agreement of two stores on every sink
and every row of the routes of a set: a recorder of a route outside the set keeps it on one store
alone, and any recorder keeps it on both.
-/
import BasecradleRouter.Evidence

namespace BasecradleRouter.Evidence.EvidenceStore

open BasecradleRouter.Lib

/-- A route's entry in `delivery_sinks`. -/
def sinkRow (s : EvidenceStore) (route : String) : Option DeliverySinkEvidence :=
  s.doc.deliverySinks.lookup route

/-- A route's entry in an agent's `by_route`. -/
def wakeRow (s : EvidenceStore) (agent route : String) : Option RouteWakeEvidence :=
  (s.doc.agentWakes.lookup agent).bind fun wake => wake.byRoute.lookup route

variable {s s' : EvidenceStore} {R : String → Prop}

theorem wakeRow_eq (s : EvidenceStore) (agent route : String) :
    s.wakeRow agent route = (s.doc.wake agent).byRoute.lookup route := by
  unfold wakeRow EvidenceDocument.wake
  cases s.doc.agentWakes.lookup agent with
  | none => rfl
  | some wake => rfl

/-- A recorder of a delivery writes one sink. -/
theorem sinkRow_amendSink (route route' : String) (f : Flush)
    (onSink : DeliverySinkEvidence → DeliverySinkEvidence) :
    (s.amendSink route f onSink).sinkRow route' =
      if route' = route then some (onSink ((s.sinkRow route).getD .empty))
      else s.sinkRow route' := by
  unfold sinkRow amendSink EvidenceDocument.sink
  dsimp only
  split
  · next heq => rw [heq, Finmap.lookup_insert]
  · next hne => rw [Finmap.lookup_insert_of_ne _ hne]

/-- A recorder of a wake writes one row. -/
theorem wakeRow_amend (agent route agent' route' : String) (f : Flush)
    (onWake : AgentWakeEvidence → AgentWakeEvidence)
    (onRow : RouteWakeEvidence → RouteWakeEvidence) :
    (s.amend agent route f onWake onRow).wakeRow agent' route' =
      if agent' = agent ∧ route' = route then some (onRow ((s.wakeRow agent route).getD .empty))
      else s.wakeRow agent' route' := by
  by_cases hagent : agent' = agent
  · subst hagent
    rw [wakeRow_eq s, wakeRow_eq s]
    unfold wakeRow amend AgentWakeEvidence.row
    dsimp only
    rw [Finmap.lookup_insert, Option.bind_some]
    dsimp only
    by_cases hroute : route' = route
    · rw [hroute, Finmap.lookup_insert, if_pos ⟨rfl, rfl⟩]
    · rw [Finmap.lookup_insert_of_ne _ hroute, if_neg fun h => hroute h.2]
  · rw [if_neg fun h => hagent h.1]
    unfold wakeRow amend
    dsimp only
    rw [Finmap.lookup_insert_of_ne _ hagent]

/-! ## Two stores -/

/-- Two stores with the same sinks and the same rows for the routes in `R`. -/
structure SameRows (R : String → Prop) (s s' : EvidenceStore) : Prop where
  sink : ∀ route, R route → s.sinkRow route = s'.sinkRow route
  wake : ∀ agent route, R route → s.wakeRow agent route = s'.wakeRow agent route

theorem SameRows.refl (R : String → Prop) (s : EvidenceStore) : SameRows R s s :=
  ⟨fun _ _ => rfl, fun _ _ _ => rfl⟩

theorem SameRows.amendSink (h : SameRows R s s') (route : String) (f : Flush)
    (onSink : DeliverySinkEvidence → DeliverySinkEvidence) :
    SameRows R (s.amendSink route f onSink) (s'.amendSink route f onSink) := by
  refine ⟨fun route' hroute' => ?_, fun agent route' hroute' => h.wake agent route' hroute'⟩
  rw [sinkRow_amendSink, sinkRow_amendSink]
  split
  · next heq =>
    subst heq
    rw [h.sink route' hroute']
  · exact h.sink route' hroute'

theorem SameRows.amendSink_left (h : SameRows R s s') {route : String} (hroute : ¬ R route)
    (f : Flush) (onSink : DeliverySinkEvidence → DeliverySinkEvidence) :
    SameRows R (s.amendSink route f onSink) s' := by
  refine ⟨fun route' hroute' => ?_, fun agent route' hroute' => h.wake agent route' hroute'⟩
  have hne : route' ≠ route := fun heq => hroute (heq ▸ hroute')
  rw [sinkRow_amendSink, if_neg hne]
  exact h.sink route' hroute'

theorem SameRows.amend (h : SameRows R s s') (agent route : String) (f : Flush)
    (onWake : AgentWakeEvidence → AgentWakeEvidence)
    (onRow : RouteWakeEvidence → RouteWakeEvidence) :
    SameRows R (s.amend agent route f onWake onRow) (s'.amend agent route f onWake onRow) := by
  refine ⟨fun route' hroute' => h.sink route' hroute', fun agent' route' hroute' => ?_⟩
  rw [wakeRow_amend, wakeRow_amend]
  split
  · next heq =>
    obtain ⟨-, rfl⟩ := heq
    rw [h.wake agent route' hroute']
  · exact h.wake agent' route' hroute'

theorem SameRows.amend_left (h : SameRows R s s') (agent : String) {route : String}
    (hroute : ¬ R route) (f : Flush) (onWake : AgentWakeEvidence → AgentWakeEvidence)
    (onRow : RouteWakeEvidence → RouteWakeEvidence) :
    SameRows R (s.amend agent route f onWake onRow) s' := by
  refine ⟨fun route' hroute' => h.sink route' hroute', fun agent' route' hroute' => ?_⟩
  have hne : ¬ (agent' = agent ∧ route' = route) := fun heq => hroute (heq.2 ▸ hroute')
  rw [wakeRow_amend, if_neg hne]
  exact h.wake agent' route' hroute'

end BasecradleRouter.Evidence.EvidenceStore
