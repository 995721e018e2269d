/-
# The document that was loaded

A field read as the type it declares: what is of another type reads as its default.  The daemon's
evidence starts as what its store loaded, read so (`Store.viewed`), and there no agent has a queue
depth, whatever the file held (`construct_cleared`).
-/
import BasecradleRouter.Evidence.Coherence

namespace BasecradleRouter.Evidence

open BasecradleRouter.Lib

/-! ## 1. Fields and rows -/

namespace Record

variable (record : Record) (name : String)

/-- A text or nothing. -/
def text : Option String := (record name).asStr

/-- A `bool` or nothing. -/
def flag : Option Bool :=
  match record name with
  | .bool b => some b
  | _ => none

end Record

/-- Every row read by one rule. -/
def readRows {α β : Type} (read : α → β) (rows : Rows α) : Rows β :=
  ofItems ((sortedItems rows).map fun item => (item.1, read item.2))

@[simp] theorem lookup_readRows {α β : Type} (read : α → β) (rows : Rows α) (name : String) :
    (readRows read rows).lookup name = (rows.lookup name).map read := by
  unfold readRows
  rw [lookup_ofItems, lookup_map_sortedItems]

/-! ## 2. The document -/

/-- A sink's record. -/
def Record.sink (r : Record) : DeliverySinkEvidence where
  accepted := amount "accepted" r
  rejected := amount "rejected" r
  woke := amount "woke" r
  ignored := amount "ignored" r
  lastAcceptedAt := r.text "last_accepted_at"
  lastRejectedAt := r.text "last_rejected_at"
  lastRejectReason := r.text "last_reject_reason"

/-- A row's record. -/
def Record.row (r : Record) : RouteWakeEvidence where
  ok := amount "ok" r
  failed := amount "failed" r
  refused := amount "refused" r
  deduped := amount "deduped" r
  lastOkAt := r.text "last_ok_at"
  lastOkDelivery := r.text "last_ok_delivery"
  lastFailedAt := r.text "last_failed_at"
  lastFailedReason := r.text "last_failed_reason"
  lastRefusedAt := r.text "last_refused_at"
  lastRefusedReason := r.text "last_refused_reason"
  lastDedupedAt := r.text "last_deduped_at"

/-- An agent's record. -/
def WakeRecord.viewed (wake : WakeRecord) : AgentWakeEvidence where
  ok := amount "ok" wake.attributes
  failed := amount "failed" wake.attributes
  refused := amount "refused" wake.attributes
  deduped := amount "deduped" wake.attributes
  lastOkAt := wake.attributes.text "last_ok_at"
  lastOkDelivery := wake.attributes.text "last_ok_delivery"
  lastOkRoute := wake.attributes.text "last_ok_route"
  lastOkSynthetic := wake.attributes.flag "last_ok_synthetic"
  lastFailedAt := wake.attributes.text "last_failed_at"
  lastFailedReason := wake.attributes.text "last_failed_reason"
  lastFailedRoute := wake.attributes.text "last_failed_route"
  lastFailedSynthetic := wake.attributes.flag "last_failed_synthetic"
  lastRefusedAt := wake.attributes.text "last_refused_at"
  lastRefusedReason := wake.attributes.text "last_refused_reason"
  lastRefusedRoute := wake.attributes.text "last_refused_route"
  lastRefusedSynthetic := wake.attributes.flag "last_refused_synthetic"
  lastDedupedAt := wake.attributes.text "last_deduped_at"
  lastDedupedRoute := wake.attributes.text "last_deduped_route"
  lastDedupedSynthetic := wake.attributes.flag "last_deduped_synthetic"
  queued := amount "queued" wake.attributes
  byRoute := readRows Record.row wake.byRoute

/-- The document. -/
def Document.viewed (doc : Document) : EvidenceDocument where
  version := evidenceVersion
  updatedAt := doc.updatedAt
  deliverySinks := readRows Record.sink doc.deliverySinks
  agentWakes := readRows WakeRecord.viewed doc.agentWakes
  freezeSelftest := ⟨doc.freezeSelftest.text "status", doc.freezeSelftest.text "at",
    doc.freezeSelftest.text "detail"⟩

/-- The store's document. -/
def Store.viewed (s : Store) : EvidenceStore := ⟨s.doc.viewed⟩

@[simp] theorem readRows_empty {α β : Type} (read : α → β) : readRows read ∅ = ∅ :=
  Finmap.ext_lookup fun name => by simp

/-- An empty document is the one of a store without a file. -/
theorem new_viewed : Store.new.viewed = .new := by
  unfold Store.viewed Store.new Document.viewed Document.empty
  dsimp only
  rw [readRows_empty, readRows_empty]
  rfl

/-! ## 3. Queue depths -/

namespace EvidenceStore

/-- An agent's queue depth, zero where it has no record. -/
def depth (s : EvidenceStore) (agent : String) : ℤ := (s.doc.wake agent).queued

/-- What `_discard_stale_queue_depths` leaves: no depth that another process's scheduler had. -/
def Cleared (s : EvidenceStore) : Prop := ∀ agent, s.depth agent = 0

end EvidenceStore

/-- A depth that is left is none. -/
theorem discardQueued_viewed (float : FloatText) (wake : WakeRecord) :
    (wake.discardQueued float).viewed.queued = 0 := by
  unfold WakeRecord.discardQueued
  split
  · simp [WakeRecord.viewed, amount, Record.set, Json.asInt]
  · next hfalsy =>
    show amount "queued" wake.attributes = 0
    unfold amount
    cases hqueued : wake.attributes "queued" with
    | int i =>
      rw [hqueued] at hfalsy
      simpa [Json.truthy, Json.asInt] using hfalsy
    | _ => rfl

/-- **A store that was constructed has no queue depth**, whatever its file held. -/
theorem construct_cleared {json : JsonText} {float : FloatText} {raw : Json} {stamp : Utc}
    {s : Store} (h : Store.construct json float raw stamp = some s) : s.viewed.Cleared := by
  obtain ⟨doc, -, -, -, hwakes⟩ := construct_doc h
  intro agent
  unfold EvidenceStore.depth EvidenceDocument.wake Store.viewed Document.viewed
  dsimp only
  rw [lookup_readRows, hwakes]
  cases doc.agentWakes.lookup agent with
  | none => rfl
  | some wake => exact discardQueued_viewed float wake

/-- Where there is no document to load, nothing is. -/
theorem construct_nothing (json : JsonText) (float : FloatText) (stamp : Utc) :
    Store.construct json float .null stamp = some .new := by
  have hfresh : Document.empty.stale float = false := by
    unfold Document.stale
    rw [List.any_eq_false]
    rintro ⟨agent, wake⟩ hmem
    exact nomatch mem_sortedItems.mp hmem
  show some (if Document.empty.stale float then _ else _) = _
  rw [hfresh]
  rfl

end BasecradleRouter.Evidence
