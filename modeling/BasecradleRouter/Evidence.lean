/-
# The evidence document

What the router has demonstrably done: deliveries accepted and rejected by route, wakes by agent
and by (agent, route).  Each `record…` updates both granularities in one step and then flushes.
A flush stamps the document and writes it; an `OSError` while writing is swallowed, so what is
left is a flush that returns or one that raises something else.
-/
import BasecradleRouter.Lib.Datetime
import BasecradleRouter.Wake
import Mathlib.Data.Finmap

namespace BasecradleRouter.Evidence

open BasecradleRouter.Lib BasecradleRouter.Wake

/-- A `dict` keyed by strings. -/
abbrev Rows (α : Type) := Finmap fun _ : String => α

/-- `_MAX_REASON` -/
def maxReason : ℕ := 200

/-- `_reason` -/
def reasonText (text : String) : String := String.ofList (text.toList.take maxReason)

/-- What one route has accepted and rejected. -/
structure DeliverySinkEvidence where
  accepted : ℤ
  rejected : ℤ
  woke : ℤ
  ignored : ℤ
  lastAcceptedAt : Option String
  lastRejectedAt : Option String
  lastRejectReason : Option String
  deriving DecidableEq

/-- One (agent, route) pair's wake proof. -/
structure RouteWakeEvidence where
  ok : ℤ
  failed : ℤ
  refused : ℤ
  deduped : ℤ
  lastOkAt : Option String
  lastOkDelivery : Option String
  lastFailedAt : Option String
  lastFailedReason : Option String
  lastRefusedAt : Option String
  lastRefusedReason : Option String
  lastDedupedAt : Option String
  deriving DecidableEq

/-- What one agent's wake edge has done. -/
structure AgentWakeEvidence where
  ok : ℤ
  failed : ℤ
  refused : ℤ
  deduped : ℤ
  lastOkAt : Option String
  lastOkDelivery : Option String
  lastOkRoute : Option String
  lastOkSynthetic : Option Bool
  lastFailedAt : Option String
  lastFailedReason : Option String
  lastFailedRoute : Option String
  lastFailedSynthetic : Option Bool
  lastRefusedAt : Option String
  lastRefusedReason : Option String
  lastRefusedRoute : Option String
  lastRefusedSynthetic : Option Bool
  lastDedupedAt : Option String
  lastDedupedRoute : Option String
  lastDedupedSynthetic : Option Bool
  queued : ℤ
  byRoute : Rows RouteWakeEvidence

/-- The last freeze-readability self-test result. -/
structure SelfTestEvidence where
  status : Option String
  at_ : Option String
  detail : Option String
  deriving DecidableEq

/-- The whole document. -/
structure EvidenceDocument where
  version : ℕ
  updatedAt : Option String
  deliverySinks : Rows DeliverySinkEvidence
  agentWakes : Rows AgentWakeEvidence
  freezeSelftest : SelfTestEvidence

/-- `EVIDENCE_VERSION` -/
def evidenceVersion : ℕ := 1

/-- `DeliverySinkEvidence()` -/
def DeliverySinkEvidence.empty : DeliverySinkEvidence := ⟨0, 0, 0, 0, none, none, none⟩

/-- `RouteWakeEvidence()` -/
def RouteWakeEvidence.empty : RouteWakeEvidence :=
  ⟨0, 0, 0, 0, none, none, none, none, none, none, none⟩

/-- `AgentWakeEvidence()` -/
def AgentWakeEvidence.empty : AgentWakeEvidence :=
  ⟨0, 0, 0, 0, none, none, none, none, none, none, none, none, none, none, none, none, none, none,
    none, 0, ∅⟩

/-- `EvidenceDocument()` -/
def EvidenceDocument.empty : EvidenceDocument :=
  ⟨evidenceVersion, none, ∅, ∅, ⟨none, none, none⟩⟩

/-- `self._doc.delivery_sinks.setdefault(route, DeliverySinkEvidence())` -/
def EvidenceDocument.sink (doc : EvidenceDocument) (route : String) : DeliverySinkEvidence :=
  (doc.deliverySinks.lookup route).getD .empty

/-- `self._doc.agent_wakes.setdefault(agent, AgentWakeEvidence())` -/
def EvidenceDocument.wake (doc : EvidenceDocument) (agent : String) : AgentWakeEvidence :=
  (doc.agentWakes.lookup agent).getD .empty

/-- `wake.by_route.setdefault(route, RouteWakeEvidence())` -/
def AgentWakeEvidence.row (wake : AgentWakeEvidence) (route : String) : RouteWakeEvidence :=
  (wake.byRoute.lookup route).getD .empty

/-! ## Recording

The three recorders of a delivery are one update of its route's sink, `amendSink`, and the four of
a wake's outcome one update at both granularities, `amend`, each with its own fields. -/

/-- What one record reads: the clock before the update, the clock at the flush, and what the
flush raised, if it did. -/
structure Flush where
  now : Utc
  stamp : Utc
  raised : Option Raised

/-- The store: the live document. -/
structure EvidenceStore where
  doc : EvidenceDocument

namespace EvidenceStore

/-- `EvidenceStore(None)` -/
def new : EvidenceStore := ⟨.empty⟩

/-- One route's sink, updated, and the document stamped for its flush. -/
def amendSink (s : EvidenceStore) (route : String) (f : Flush)
    (onSink : DeliverySinkEvidence → DeliverySinkEvidence) : EvidenceStore :=
  ⟨{ s.doc with
    deliverySinks := s.doc.deliverySinks.insert route (onSink (s.doc.sink route))
    updatedAt := some f.stamp.isoformat }⟩

/-- `record_delivery_accepted` -/
def recordDeliveryAccepted (s : EvidenceStore) (route : String) (f : Flush) : EvidenceStore :=
  s.amendSink route f fun sink => { sink with
    accepted := sink.accepted + 1
    lastAcceptedAt := some f.now.isoformat }

/-- `record_delivery_rejected` -/
def recordDeliveryRejected (s : EvidenceStore) (route reason : String) (f : Flush) :
    EvidenceStore :=
  s.amendSink route f fun sink => { sink with
    rejected := sink.rejected + 1
    lastRejectedAt := some f.now.isoformat
    lastRejectReason := some (reasonText reason) }

/-- `record_delivery_decision` -/
def recordDeliveryDecision (s : EvidenceStore) (route : String) (woke : Bool) (f : Flush) :
    EvidenceStore :=
  s.amendSink route f fun sink =>
    if woke then { sink with woke := sink.woke + 1 } else { sink with ignored := sink.ignored + 1 }

/-- One agent's evidence and its row for one route, updated together, and the document stamped
for its flush. -/
def amend (s : EvidenceStore) (agent route : String) (f : Flush)
    (onWake : AgentWakeEvidence → AgentWakeEvidence)
    (onRow : RouteWakeEvidence → RouteWakeEvidence) : EvidenceStore :=
  let wake := s.doc.wake agent
  let wake' := { onWake wake with byRoute := wake.byRoute.insert route (onRow (wake.row route)) }
  ⟨{ s.doc with
    agentWakes := s.doc.agentWakes.insert agent wake'
    updatedAt := some f.stamp.isoformat }⟩

/-- `record_wake_ok` -/
def recordWakeOk (s : EvidenceStore) (agent delivery route : String) (synthetic : Bool)
    (f : Flush) : EvidenceStore :=
  s.amend agent route f
    (fun w => { w with
      ok := w.ok + 1
      lastOkAt := some f.now.isoformat
      lastOkDelivery := some delivery
      lastOkRoute := some route
      lastOkSynthetic := some synthetic })
    (fun r => { r with
      ok := r.ok + 1
      lastOkAt := some f.now.isoformat
      lastOkDelivery := some delivery })

/-- `record_wake_failed` -/
def recordWakeFailed (s : EvidenceStore) (agent reason route : String) (synthetic : Bool)
    (f : Flush) : EvidenceStore :=
  s.amend agent route f
    (fun w => { w with
      failed := w.failed + 1
      lastFailedAt := some f.now.isoformat
      lastFailedReason := some (reasonText reason)
      lastFailedRoute := some route
      lastFailedSynthetic := some synthetic })
    (fun r => { r with
      failed := r.failed + 1
      lastFailedAt := some f.now.isoformat
      lastFailedReason := some (reasonText reason) })

/-- `record_wake_refused` -/
def recordWakeRefused (s : EvidenceStore) (agent reason route : String) (synthetic : Bool)
    (f : Flush) : EvidenceStore :=
  s.amend agent route f
    (fun w => { w with
      refused := w.refused + 1
      lastRefusedAt := some f.now.isoformat
      lastRefusedReason := some (reasonText reason)
      lastRefusedRoute := some route
      lastRefusedSynthetic := some synthetic })
    (fun r => { r with
      refused := r.refused + 1
      lastRefusedAt := some f.now.isoformat
      lastRefusedReason := some (reasonText reason) })

/-- `record_wake_deduped` -/
def recordWakeDeduped (s : EvidenceStore) (agent route : String) (synthetic : Bool)
    (f : Flush) : EvidenceStore :=
  s.amend agent route f
    (fun w => { w with
      deduped := w.deduped + 1
      lastDedupedAt := some f.now.isoformat
      lastDedupedRoute := some route
      lastDedupedSynthetic := some synthetic })
    (fun r => { r with
      deduped := r.deduped + 1
      lastDedupedAt := some f.now.isoformat })

/-- `record_queue_depth`: the agent has a record from then on, and a depth it has already is not
flushed. -/
def recordQueueDepth (s : EvidenceStore) (agent : String) (pending : ℤ) (f : Flush) :
    EvidenceStore :=
  let wake := s.doc.wake agent
  if wake.queued = pending then
    ⟨{ s.doc with agentWakes := s.doc.agentWakes.insert agent wake }⟩
  else
    ⟨{ s.doc with
      agentWakes := s.doc.agentWakes.insert agent { wake with queued := pending }
      updatedAt := some f.stamp.isoformat }⟩

end EvidenceStore

/-! ## The counters -/

/-- The four outcomes that are counted. -/
inductive Counter
  | ok
  | failed
  | refused
  | deduped
  deriving DecidableEq, Repr

/-- An agent's count of one outcome. -/
def AgentWakeEvidence.count (w : AgentWakeEvidence) : Counter → ℤ
  | .ok => w.ok
  | .failed => w.failed
  | .refused => w.refused
  | .deduped => w.deduped

/-- A row's count of one outcome. -/
def RouteWakeEvidence.count (r : RouteWakeEvidence) : Counter → ℤ
  | .ok => r.ok
  | .failed => r.failed
  | .refused => r.refused
  | .deduped => r.deduped

namespace EvidenceStore

/-- An agent's counters, zero where it has none yet. -/
def agentCount (s : EvidenceStore) (agent : String) (c : Counter) : ℤ := (s.doc.wake agent).count c

/-- An (agent, route) row's counters, zero where it has none yet. -/
def routeCount (s : EvidenceStore) (agent route : String) (c : Counter) : ℤ :=
  ((s.doc.wake agent).row route).count c

@[simp] theorem agentCount_new (agent : String) (c : Counter) : new.agentCount agent c = 0 := by
  cases c <;> rfl

@[simp] theorem routeCount_new (agent route : String) (c : Counter) :
    new.routeCount agent route c = 0 := by
  cases c <;> rfl

/-- `s'` is `s` with one more outcome `c` of `agent` over `route`, at both granularities. -/
def Counts (s s' : EvidenceStore) (agent route : String) (c : Counter) : Prop :=
  (∀ a d, s'.agentCount a d = s.agentCount a d + if a = agent ∧ d = c then 1 else 0) ∧
    ∀ a r d, s'.routeCount a r d =
      s.routeCount a r d + if a = agent ∧ r = route ∧ d = c then 1 else 0

/-- An update that raises one counter by one at both granularities counts one outcome. -/
theorem amend_counts (s : EvidenceStore) (agent route : String) (f : Flush)
    {onWake : AgentWakeEvidence → AgentWakeEvidence}
    {onRow : RouteWakeEvidence → RouteWakeEvidence} {c : Counter}
    (hwake : ∀ w d rows, ({ onWake w with byRoute := rows } : AgentWakeEvidence).count d =
      w.count d + if d = c then 1 else 0)
    (hrow : ∀ r d, (onRow r).count d = r.count d + if d = c then 1 else 0) :
    s.Counts (s.amend agent route f onWake onRow) agent route c := by
  have hother : ∀ a, a ≠ agent →
      (s.amend agent route f onWake onRow).doc.wake a = s.doc.wake a := by
    intro a ha
    simp [EvidenceDocument.wake, amend, Finmap.lookup_insert_of_ne _ ha]
  have hself : (s.amend agent route f onWake onRow).doc.wake agent =
      { onWake (s.doc.wake agent) with
        byRoute := (s.doc.wake agent).byRoute.insert route
          (onRow ((s.doc.wake agent).row route)) } := by
    simp [EvidenceDocument.wake, amend, Finmap.lookup_insert]
  refine ⟨fun a d => ?_, fun a r d => ?_⟩
  · by_cases ha : a = agent
    · subst ha
      rw [agentCount, hself, hwake]
      simp [agentCount]
    · simp [agentCount, hother a ha, ha]
  · by_cases ha : a = agent
    · subst ha
      by_cases hr : r = route
      · subst hr
        rw [routeCount, hself]
        simp [AgentWakeEvidence.row, Finmap.lookup_insert, hrow, routeCount]
      · rw [routeCount, hself]
        simp [AgentWakeEvidence.row, Finmap.lookup_insert_of_ne _ hr, routeCount, hr]
    · simp [routeCount, hother a ha, ha]

theorem recordWakeOk_counts (s : EvidenceStore) (agent delivery route : String) (synthetic : Bool)
    (f : Flush) : s.Counts (s.recordWakeOk agent delivery route synthetic f) agent route .ok :=
  amend_counts s agent route f (fun w d rows => by cases d <;> simp [AgentWakeEvidence.count])
    (fun r d => by cases d <;> simp [RouteWakeEvidence.count])

theorem recordWakeFailed_counts (s : EvidenceStore) (agent reason route : String)
    (synthetic : Bool) (f : Flush) :
    s.Counts (s.recordWakeFailed agent reason route synthetic f) agent route .failed :=
  amend_counts s agent route f (fun w d rows => by cases d <;> simp [AgentWakeEvidence.count])
    (fun r d => by cases d <;> simp [RouteWakeEvidence.count])

theorem recordWakeRefused_counts (s : EvidenceStore) (agent reason route : String)
    (synthetic : Bool) (f : Flush) :
    s.Counts (s.recordWakeRefused agent reason route synthetic f) agent route .refused :=
  amend_counts s agent route f (fun w d rows => by cases d <;> simp [AgentWakeEvidence.count])
    (fun r d => by cases d <;> simp [RouteWakeEvidence.count])

theorem recordWakeDeduped_counts (s : EvidenceStore) (agent route : String) (synthetic : Bool)
    (f : Flush) : s.Counts (s.recordWakeDeduped agent route synthetic f) agent route .deduped :=
  amend_counts s agent route f (fun w d rows => by cases d <;> simp [AgentWakeEvidence.count])
    (fun r d => by cases d <;> simp [RouteWakeEvidence.count])

end EvidenceStore

end BasecradleRouter.Evidence
