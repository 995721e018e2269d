/-
# The evidence document on disk

The store reads its document back from JSON that any build may have written.  `_rebuild` keeps
whatever a declared field holds, of whatever type, so the document in memory is one of records
whose attributes are JSON values: a `Record` says what each attribute holds, and a `Schema` which
attributes a dataclass declares and what type each is meant to have.

`fromJson`, `reclassifyLegacyDedup` and `discardStaleQueueDepths` run when a store is constructed;
`apply` is one `record_*`.  Each answers `none` where Python raises `TypeError` for adding to what
is no number.  A flush writes the document, and the store keeps what the file then reads as beside
it.  Nesting and integers are as the interpreter has room for: what it does with others is
`Evidence.Limited`.
-/
import BasecradleRouter.Dedup
import BasecradleRouter.Evidence
import BasecradleRouter.Lib.PyStr
import BasecradleRouter.Lib.PyValue
import Mathlib.Data.String.Basic

namespace BasecradleRouter.Evidence

open BasecradleRouter.Lib BasecradleRouter.Dedup

/-! ## 1. Records -/

/-- What a declared field is meant to hold: a count, a text or nothing, a `bool` or nothing. -/
inductive FieldKind
  | counter
  | text
  | flag
  deriving DecidableEq, Repr

/-- A field's default. -/
def FieldKind.default : FieldKind → Json
  | .counter => .int 0
  | .text => .null
  | .flag => .null

/-- Whether a value has the type declared. -/
def FieldKind.fits : FieldKind → Json → Bool
  | .counter, v => v.asInt.isSome
  | .text, v => v.isNull || v.asStr.isSome
  | .flag, v => v.isNull || v.isBool

/-- The fields a dataclass declares, in order. -/
abbrev Schema := List (String × FieldKind)

/-- `DeliverySinkEvidence` -/
def sinkSchema : Schema :=
  [("accepted", .counter), ("rejected", .counter), ("woke", .counter), ("ignored", .counter),
    ("last_accepted_at", .text), ("last_rejected_at", .text), ("last_reject_reason", .text)]

/-- `RouteWakeEvidence` -/
def routeSchema : Schema :=
  [("ok", .counter), ("failed", .counter), ("refused", .counter), ("deduped", .counter),
    ("last_ok_at", .text), ("last_ok_delivery", .text), ("last_failed_at", .text),
    ("last_failed_reason", .text), ("last_refused_at", .text), ("last_refused_reason", .text),
    ("last_deduped_at", .text)]

/-- `AgentWakeEvidence`, its `by_route` apart. -/
def agentSchema : Schema :=
  [("ok", .counter), ("failed", .counter), ("refused", .counter), ("deduped", .counter),
    ("last_ok_at", .text), ("last_ok_delivery", .text), ("last_ok_route", .text),
    ("last_ok_synthetic", .flag), ("last_failed_at", .text), ("last_failed_reason", .text),
    ("last_failed_route", .text), ("last_failed_synthetic", .flag), ("last_refused_at", .text),
    ("last_refused_reason", .text), ("last_refused_route", .text),
    ("last_refused_synthetic", .flag), ("last_deduped_at", .text), ("last_deduped_route", .text),
    ("last_deduped_synthetic", .flag), ("queued", .counter)]

/-- `SelfTestEvidence` -/
def selfTestSchema : Schema := [("status", .text), ("at", .text), ("detail", .text)]

/-- What each attribute of an instance holds, nothing where there is none. -/
abbrev Record := String → Json

/-- `kind()` -/
def Schema.new (schema : Schema) : Record := fun name =>
  match schema.lookup name with
  | some kind => kind.default
  | none => .null

/-- `_rebuild(kind, fields)` -/
def Schema.rebuild (schema : Schema) (fields : Json) : Record := fun name =>
  match schema.lookup name with
  | some kind => ((fields.asObj.getD []).lookup name).getD kind.default
  | none => .null

/-- `asdict(record)` -/
def Schema.asdict (schema : Schema) (record : Record) : Fields :=
  schema.map fun field => (field.1, record field.1)

/-- `record.name = v` -/
def Record.set (record : Record) (name : String) (v : Json) : Record :=
  Function.update record name v

/-- `record.name += 1` -/
def Record.increment (float : FloatText) (record : Record) (name : String) : Option Record :=
  ((record name).add float 1).map (record.set name)

/-- One agent's evidence. -/
structure WakeRecord where
  attributes : Record
  byRoute : Rows Record

/-- `AgentWakeEvidence()` -/
def WakeRecord.new : WakeRecord := ⟨agentSchema.new, ∅⟩

/-- The document in memory. -/
structure Document where
  updatedAt : Option String
  deliverySinks : Rows Record
  agentWakes : Rows WakeRecord
  freezeSelftest : Record

/-- `EvidenceDocument()` -/
def Document.empty : Document := ⟨none, ∅, ∅, selfTestSchema.new⟩

/-! ## 2. To JSON -/

/-- `sorted(rows.items())` -/
def sortedItems {α : Type} (rows : Rows α) : List (String × α) :=
  (PyStr.sorted rows.keys).filterMap fun name => (rows.lookup name).map fun row => (name, row)

/-- A text or nothing. -/
def ofText : Option String → Json
  | some text => .str text
  | none => .null

/-- `{k: f(v) for k, v in sorted(rows.items())}` -/
def rowsJson {α : Type} (f : α → Fields) (rows : Rows α) : Json :=
  .obj ((sortedItems rows).map fun item => (item.1, .obj (f item.2)))

/-- `_wake_json` -/
def wakeJson (wake : WakeRecord) : Fields :=
  agentSchema.asdict wake.attributes ++ [("by_route", rowsJson routeSchema.asdict wake.byRoute)]

/-- `to_json` -/
def Document.toJson (doc : Document) : Json := .obj
  [("version", .int evidenceVersion), ("updated_at", ofText doc.updatedAt),
    ("delivery_sinks", rowsJson sinkSchema.asdict doc.deliverySinks),
    ("agent_wakes", rowsJson wakeJson doc.agentWakes),
    ("freeze_selftest", .obj (selfTestSchema.asdict doc.freezeSelftest))]

/-! ## 3. From JSON -/

variable (json : JsonText) (float : FloatText)

/-- `_LEGACY_DEDUP_PROVENANCE` -/
def legacyDedupProvenance : List (String × String) :=
  [("last_refused_route", "last_deduped_route"),
    ("last_refused_synthetic", "last_deduped_synthetic")]

/-- A refusal's field moved to its dedup's. -/
def moveField (record : Record) (pair : String × String) : Record :=
  (record.set pair.2 (record pair.1)).set pair.1 .null

/-- `_reclassify_legacy_dedup` -/
def reclassifyLegacyDedup (provenance : List (String × String)) (record : Record) :
    Option Record :=
  if !(record "last_refused_reason").isText duplicateDelivery then some record
  else do
    let record ← record.increment float "deduped"
    let fewer ← (record "refused").add float (-1)
    let record := record.set "refused" (fewer.maxZero float)
    let record := moveField record ("last_refused_at", "last_deduped_at")
    let record := record.set "last_refused_reason" .null
    return provenance.foldl moveField record

/-- `_items`: the entries of a dict that are dicts themselves. -/
def items (v : Json) : List (String × Fields) :=
  let dict := v.asObj.getD []
  dict.filterMap fun entry => (dict.get entry.1).asObj.map fun fields => (entry.1, fields)

/-- A dict built entry by entry. -/
def ofItems {α : Type} (entries : List (String × α)) : Rows α :=
  entries.foldr (fun entry rows => rows.insert entry.1 entry.2) ∅

/-- `{name: f(fields) for name, fields in _items(v)}` -/
def rebuildRows {α : Type} (f : Fields → Option α) (v : Json) : Option (Rows α) :=
  ((items v).mapM fun item => (f item.2).map fun row => (item.1, row)).map ofItems

/-- `_rebuild_agent_wake` -/
def rebuildAgentWake (fields : Fields) : Option WakeRecord := do
  let byRoute ← rebuildRows (fun entry =>
    reclassifyLegacyDedup float [] (routeSchema.rebuild (.obj entry))) (fields.get "by_route")
  let attributes ← reclassifyLegacyDedup float legacyDedupProvenance
    (agentSchema.rebuild (.obj fields))
  return ⟨attributes, byRoute⟩

/-- `from_json` -/
def Document.fromJson (raw : Json) : Option Document :=
  match raw.asObj with
  | none => some .empty
  | some fields =>
    if !(fields.get "version").equalsInt float evidenceVersion then some .empty
    else do
      let deliverySinks ← rebuildRows (fun entry => some (sinkSchema.rebuild (.obj entry)))
        (fields.get "delivery_sinks")
      let agentWakes ← rebuildRows (rebuildAgentWake float) (fields.get "agent_wakes")
      return {
        updatedAt := (fields.get "updated_at").asStr
        deliverySinks := deliverySinks
        agentWakes := agentWakes
        freezeSelftest := selfTestSchema.rebuild (fields.get "freeze_selftest") }

/-! ## 4. The store -/

/-- The document in memory, and what the file on disk reads as. -/
structure Store where
  doc : Document
  file : Json

/-- A store where there is no file yet, which reads as one that cannot be used. -/
def Store.new : Store := ⟨.empty, .null⟩

/-- `_flush_locked`, where the write succeeds. -/
def Store.flush (doc : Document) (stamp : Utc) : Store :=
  let doc := { doc with updatedAt := some stamp.isoformat }
  ⟨doc, json.reread doc.toJson⟩

/-- An agent's record with its queue depth, if that was any, cleared. -/
def WakeRecord.discardQueued (wake : WakeRecord) : WakeRecord :=
  if (wake.attributes "queued").truthy float then
    { wake with attributes := wake.attributes.set "queued" (.int 0) }
  else wake

/-- `for agent in stale: self._doc.agent_wakes[agent].queued = 0` -/
def Document.discardQueued (doc : Document) : Document :=
  { doc with agentWakes := ofItems ((sortedItems doc.agentWakes).map fun item =>
      (item.1, item.2.discardQueued float)) }

/-- Whether any queue depth was left behind. -/
def Document.stale (doc : Document) : Bool :=
  (sortedItems doc.agentWakes).any fun item => (item.2.attributes "queued").truthy float

/-- `EvidenceStore(path)`, over a file that holds `raw`: load, then
`_discard_stale_queue_depths`. -/
def Store.construct (raw : Json) (stamp : Utc) : Option Store :=
  (Document.fromJson float raw).map fun doc =>
    if doc.stale float then Store.flush json (doc.discardQueued float) stamp else ⟨doc, raw⟩

/-! ## 5. Recording -/

/-- One `record_*` call. -/
inductive Operation
  | deliveryAccepted (route : String)
  | deliveryRejected (route reason : String)
  | deliveryDecision (route : String) (woke : Bool)
  | wakeOk (agent delivery route : String) (synthetic : Bool)
  | wakeFailed (agent reason route : String) (synthetic : Bool)
  | wakeRefused (agent reason route : String) (synthetic : Bool)
  | wakeDeduped (agent route : String) (synthetic : Bool)
  | queueDepth (agent : String) (pending : ℤ)
  | freezeSelftest (status detail : String)

/-- One call with its clock readings, before the update and at the flush. -/
structure Timed where
  operation : Operation
  now : Utc
  stamp : Utc

namespace Document

/-- The sink of a route, a new one where there is none. -/
def sink (doc : Document) (route : String) : Record :=
  (doc.deliverySinks.lookup route).getD sinkSchema.new

/-- An agent's record, a new one where there is none. -/
def wake (doc : Document) (agent : String) : WakeRecord :=
  (doc.agentWakes.lookup agent).getD .new

/-- A sink changed. -/
def amendSink (doc : Document) (route : String) (change : Record → Option Record) :
    Option Document := do
  let sink ← change (doc.sink route)
  return { doc with deliverySinks := doc.deliverySinks.insert route sink }

/-- An agent's record and its row for a route, changed together. -/
def amendWake (doc : Document) (agent route : String) (onWake onRow : Record → Option Record) :
    Option Document := do
  let wake := doc.wake agent
  let attributes ← onWake wake.attributes
  let row ← onRow ((wake.byRoute.lookup route).getD routeSchema.new)
  return { doc with
    agentWakes := doc.agentWakes.insert agent ⟨attributes, wake.byRoute.insert route row⟩ }

end Document

/-- The attributes an outcome sets, beside its counter. -/
def Record.setAll (record : Record) (values : List (String × Json)) : Record :=
  values.foldl (fun record value => record.set value.1 value.2) record

/-- One more of a counter, with what goes with it. -/
def Record.count (counter : String) (values : List (String × Json)) (record : Record) :
    Option Record :=
  (record.increment float counter).map (·.setAll values)

/-- What a call does to the document before its flush. -/
def Document.record (doc : Document) (now : Utc) : Operation → Option Document
  | .deliveryAccepted route =>
    doc.amendSink route (Record.count float "accepted" [("last_accepted_at", .str now.isoformat)])
  | .deliveryRejected route reason =>
    doc.amendSink route (Record.count float "rejected" [("last_rejected_at", .str now.isoformat),
      ("last_reject_reason", .str (reasonText reason))])
  | .deliveryDecision route woke =>
    doc.amendSink route (Record.count float (if woke then "woke" else "ignored") [])
  | .wakeOk agent delivery route synthetic =>
    doc.amendWake agent route
      (Record.count float "ok" [("last_ok_at", .str now.isoformat),
        ("last_ok_delivery", .str delivery), ("last_ok_route", .str route),
        ("last_ok_synthetic", .bool synthetic)])
      (Record.count float "ok" [("last_ok_at", .str now.isoformat),
        ("last_ok_delivery", .str delivery)])
  | .wakeFailed agent reason route synthetic =>
    doc.amendWake agent route
      (Record.count float "failed" [("last_failed_at", .str now.isoformat),
        ("last_failed_reason", .str (reasonText reason)), ("last_failed_route", .str route),
        ("last_failed_synthetic", .bool synthetic)])
      (Record.count float "failed" [("last_failed_at", .str now.isoformat),
        ("last_failed_reason", .str (reasonText reason))])
  | .wakeRefused agent reason route synthetic =>
    doc.amendWake agent route
      (Record.count float "refused" [("last_refused_at", .str now.isoformat),
        ("last_refused_reason", .str (reasonText reason)), ("last_refused_route", .str route),
        ("last_refused_synthetic", .bool synthetic)])
      (Record.count float "refused" [("last_refused_at", .str now.isoformat),
        ("last_refused_reason", .str (reasonText reason))])
  | .wakeDeduped agent route synthetic =>
    doc.amendWake agent route
      (Record.count float "deduped" [("last_deduped_at", .str now.isoformat),
        ("last_deduped_route", .str route), ("last_deduped_synthetic", .bool synthetic)])
      (Record.count float "deduped" [("last_deduped_at", .str now.isoformat)])
  | .queueDepth agent pending =>
    let wake := doc.wake agent
    let queued := wake.attributes.set "queued" (.int pending)
    some { doc with agentWakes := doc.agentWakes.insert agent ⟨queued, wake.byRoute⟩ }
  | .freezeSelftest status detail =>
    let detail := reasonText detail
    some { doc with freezeSelftest := selfTestSchema.new.setAll [("status", .str status),
      ("at", .str now.isoformat), ("detail", if detail = "" then .null else .str detail)] }

namespace Store

/-- One call: the update, and its flush, which a queue depth that has not changed goes without. -/
def apply (s : Store) (call : Timed) : Option Store :=
  match call.operation with
  | .queueDepth agent pending =>
    let wake := s.doc.wake agent
    if (wake.attributes "queued").equalsInt float pending then
      some { s with doc := { s.doc with agentWakes := s.doc.agentWakes.insert agent wake } }
    else
      (s.doc.record float call.now call.operation).map fun doc => flush json doc call.stamp
  | operation => (s.doc.record float call.now operation).map fun doc => flush json doc call.stamp

/-- Calls one after another. -/
def applyAll (s : Store) (calls : List Timed) : Option Store :=
  calls.foldlM (fun s call => s.apply json float call) s

end Store

end BasecradleRouter.Evidence
