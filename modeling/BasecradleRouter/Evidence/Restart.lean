/-
# Evidence survives restarts

A restart loads what the last process wrote.  `fromJson_toJson`: a document every field of which
has its type, and no refusal in which is a legacy dedup, is read back as it was.  So the run that
restarts `Follows` the run that does not: every sink, every agent's record and rows, and the self
test are the same, but for `queued`, which a restart clears until the agent is reported again.

What a restart reads is the file, and that is the document but for an agent whose record is still
all defaults: a report of depth zero makes one without a flush.  `survives_restarts` is about both,
a restart from the document as it is and a restart from the file.
-/
import BasecradleRouter.Evidence.Loading

namespace BasecradleRouter.Evidence

open BasecradleRouter.Lib BasecradleRouter.Dedup

/-! ## 1. A document read back -/

/-- A value of a declared type has no parts. -/
theorem atom_of_fits {kind : FieldKind} {v : Json} (h : kind.fits v = true) : v.isAtom = true := by
  cases kind <;> cases v <;> first | rfl | cases h

/-- A record's fields, found by name. -/
theorem lookup_asdict {schema : Schema} {record : Record} {rest : Fields} {name : String}
    {kind : FieldKind} (h : schema.lookup name = some kind) :
    (schema.asdict record ++ rest).lookup name = some (record name) := by
  unfold Schema.asdict
  induction schema with
  | nil => cases h
  | cons field schema ih =>
    rw [List.map_cons, List.cons_append, List.lookup_cons]
    rw [List.lookup_cons] at h
    split at h
    · next heq => rw [eq_of_beq heq]
    · exact ih h

/-- A record is rebuilt from its fields. -/
theorem rebuild_asdict {schema : Schema} {record : Record} (rest : Fields)
    (h : record.Typed schema) {fields : Fields}
    (hsame : Json.Same (.obj (schema.asdict record ++ rest)) (.obj fields)) :
    schema.rebuild (.obj fields) = record := by
  funext name
  unfold Schema.rebuild
  cases hkind : schema.lookup name with
  | none => exact (h.declared name hkind).symm
  | some kind =>
    obtain ⟨fields', heq, hkeys⟩ := hsame.lookup
    cases heq
    have hname := hkeys name
    rw [lookup_asdict hkind] at hname
    have hatom := atom_of_fits (h.fits name kind hkind List.not_mem_nil)
    cases hlookup : fields.lookup name with
    | none =>
      rw [hlookup] at hname
      cases hname
    | some v =>
      rw [hlookup] at hname
      cases hname with
      | some hv =>
        simp only [Json.asObj, Option.getD_some, hlookup]
        exact hv.eq_of_atom hatom

/-- Rows are read back where each row is. -/
theorem rebuildRows_rowsJson {α : Type} {f : α → Fields} {g : Fields → Option α} {rows : Rows α}
    {w : Json} (hsame : Json.Same (rowsJson f rows) w)
    (hback : ∀ key a, rows.lookup key = some a → ∀ fields, Json.Same (.obj (f a)) (.obj fields) →
      g fields = some a) : rebuildRows g w = some rows := by
  obtain ⟨d, rfl, hkeys⟩ := hsame.lookup
  have hentry : ∀ key, (entry (.obj d) key).bind g = rows.lookup key ∧
      ∀ fields, entry (.obj d) key = some fields → ∃ a, g fields = some a := by
    intro key
    have hkey := hkeys key
    rw [lookup_map_sortedItems fun a => Json.obj (f a)] at hkey
    unfold entry Fields.get
    rw [Json.asObj, Option.getD_some]
    cases hrow : rows.lookup key with
    | none =>
      rw [hrow, Option.map_none] at hkey
      cases hd : d.lookup key with
      | none =>
        refine ⟨rfl, fun fields hfields => ?_⟩
        cases hfields
      | some v =>
        rw [hd] at hkey
        cases hkey
    | some a =>
      rw [hrow, Option.map_some] at hkey
      cases hd : d.lookup key with
      | none =>
        rw [hd] at hkey
        cases hkey
      | some v =>
        rw [hd] at hkey
        cases hkey with
        | some hv =>
          obtain ⟨fields, rfl, -⟩ := hv.lookup
          have hread := hback key a hrow fields hv
          refine ⟨hread, fun fields' hfields' => ⟨a, ?_⟩⟩
          cases hfields'
          exact hread
  exact rebuildRows_eq (fun key => (hentry key).1) fun key fields => (hentry key).2 fields

/-- A record's last refusal is no dedup. -/
def Record.Settled (record : Record) : Prop :=
  ¬ (record "last_refused_reason").isText duplicateDelivery = true

/-- No refusal of an agent's is a dedup. -/
structure WakeRecord.Settled (wake : WakeRecord) : Prop where
  attributes : wake.attributes.Settled
  rows : ∀ route row, wake.byRoute.lookup route = some row → row.Settled

/-- A document of its types, in which no refusal is a dedup. -/
structure Document.Settled (doc : Document) : Prop where
  typed : doc.Typed
  wakes : ∀ agent wake, doc.agentWakes.lookup agent = some wake → wake.Settled

/-- An agent's record is read back. -/
theorem rebuildAgentWake_wakeJson {float : FloatText} {wake : WakeRecord} (htyped : wake.Typed)
    (hsettled : wake.Settled) {fields : Fields}
    (hsame : Json.Same (.obj (wakeJson wake)) (.obj fields)) :
    rebuildAgentWake float fields = some wake := by
  have hattributes : agentSchema.rebuild (.obj fields) = wake.attributes :=
    rebuild_asdict _ htyped.attributes hsame
  have hbyRoute : Json.Same (rowsJson routeSchema.asdict wake.byRoute) (fields.get "by_route") := by
    have hget := hsame.get "by_route"
    exact hget
  have hrows : rebuildRows (fun entry =>
      reclassifyLegacyDedup float [] (routeSchema.rebuild (.obj entry))) (fields.get "by_route") =
        some wake.byRoute := by
    refine rebuildRows_rowsJson hbyRoute fun route row hrow entry hentry => ?_
    have hrecord : routeSchema.rebuild (.obj entry) = row :=
      rebuild_asdict [] (htyped.rows route row hrow) (by rwa [List.append_nil])
    rw [hrecord]
    exact reclassifyLegacyDedup_other (hsettled.rows route row hrow)
  unfold rebuildAgentWake
  rw [hrows, hattributes, reclassifyLegacyDedup_other hsettled.attributes]
  rfl

/-- **A document is read back as it was.** -/
theorem fromJson_toJson {json : JsonText} {float : FloatText} {doc : Document} (h : doc.Settled) :
    Document.fromJson float (json.reread doc.toJson) = some doc := by
  have hsame := json.reread_same doc.toJson
  obtain ⟨fields, hfields, -⟩ := hsame.lookup
  rw [hfields] at hsame ⊢
  have hversion : fields.get "version" = .int evidenceVersion :=
    (hsame.get "version").eq_of_atom rfl
  have hupdatedAt : fields.get "updated_at" = ofText doc.updatedAt := by
    refine (hsame.get "updated_at").eq_of_atom ?_
    show (ofText doc.updatedAt).isAtom = true
    cases doc.updatedAt <;> rfl
  have hsinks : rebuildRows (fun entry => some (sinkSchema.rebuild (.obj entry)))
      (fields.get "delivery_sinks") = some doc.deliverySinks := by
    refine rebuildRows_rowsJson (f := sinkSchema.asdict) (hsame.get "delivery_sinks")
      fun route sink hsink entry hentry => ?_
    exact congrArg some (rebuild_asdict [] (h.typed.sinks route sink hsink)
      (by rwa [List.append_nil]))
  have hwakes : rebuildRows (rebuildAgentWake float) (fields.get "agent_wakes") =
      some doc.agentWakes := by
    refine rebuildRows_rowsJson (f := wakeJson) (hsame.get "agent_wakes")
      fun agent wake hwake entry hentry => ?_
    exact rebuildAgentWake_wakeJson (h.typed.wakes agent wake hwake) (h.wakes agent wake hwake)
      hentry
  have hselfTest : selfTestSchema.rebuild (fields.get "freeze_selftest") = doc.freezeSelftest := by
    have hget : Json.Same (.obj (selfTestSchema.asdict doc.freezeSelftest))
      (fields.get "freeze_selftest") := hsame.get "freeze_selftest"
    obtain ⟨record, hrecord, -⟩ := hget.lookup
    rw [hrecord] at hget ⊢
    exact rebuild_asdict [] h.typed.selfTest (by rwa [List.append_nil])
  unfold Document.fromJson
  rw [Json.asObj]
  dsimp only
  rw [hversion, hsinks, hwakes, hselfTest, hupdatedAt]
  cases hat : doc.updatedAt <;> simp [Json.equalsInt, ofText, Json.asStr, ← hat]

/-! ## 2. Calls -/

/-- A refusal for the reason that a legacy dedup is told by. -/
def Operation.RefusesDuplicate : Operation → Prop
  | .wakeRefused _ reason _ _ => reason = duplicateDelivery
  | _ => False

/-- Whether a call reports an agent's queue depth. -/
def Operation.reports (agent : String) : Operation → Bool
  | .queueDepth agent' _ => agent == agent'
  | _ => false

/-- A reason cut short is no dedup's, unless it was one. -/
theorem reasonText_duplicate {reason : String} (h : reasonText reason = duplicateDelivery) :
    reason = duplicateDelivery := by
  unfold reasonText at h
  have hlength : (reason.toList.take maxReason).length = duplicateDelivery.toList.length := by
    rw [← h, String.toList_ofList]
  have hshort : reason.toList.length ≤ maxReason := by
    rw [List.length_take] at hlength
    have htext : duplicateDelivery.toList.length = 18 := by decide
    unfold maxReason at hlength ⊢
    omega
  rwa [List.take_of_length_le hshort, String.ofList_toList] at h

/-- Values that give no refusal a dedup's reason. -/
def Quiet (values : List (String × Json)) : Prop :=
  ∀ v, ("last_refused_reason", v) ∈ values → ¬ v.isText duplicateDelivery = true

/-- What a call that is counted does: which counter it raises, and what it sets beside. -/
structure Counting (counter : String) (onWake onRow : List (String × Json)) : Prop where
  queued : "queued" ∉ counter :: onWake.map Prod.fst
  reason : counter ≠ "last_refused_reason"
  onWake : Quiet onWake
  onRow : Quiet onRow

/-- **What a call does**: it amends one sink, or one agent's record and row, or it sets a queue
depth or the self test. -/
theorem record_cases (float : FloatText) (now : Utc) {operation : Operation}
    (h : ¬ operation.RefusesDuplicate) :
    ((∀ agent, operation.reports agent = false) ∧ ∃ route counter values, ∀ doc : Document,
      doc.record float now operation = doc.amendSink route (Record.count float counter values)) ∨
    ((∀ agent, operation.reports agent = false) ∧ ∃ agent route counter onWake onRow,
      Counting counter onWake onRow ∧ ∀ doc : Document, doc.record float now operation =
        doc.amendWake agent route (Record.count float counter onWake)
          (Record.count float counter onRow)) ∨
    (∃ agent pending, operation = .queueDepth agent pending) ∨
    ∃ status detail, operation = .freezeSelftest status detail := by
  have hquiet : ∀ {values : List (String × Json)},
      "last_refused_reason" ∉ values.map Prod.fst → Quiet values :=
    fun hnot v hmem => absurd (List.mem_map_of_mem hmem) hnot
  cases operation with
  | deliveryAccepted route => exact Or.inl ⟨fun _ => rfl, route, _, _, fun _ => rfl⟩
  | deliveryRejected route reason => exact Or.inl ⟨fun _ => rfl, route, _, _, fun _ => rfl⟩
  | deliveryDecision route woke => exact Or.inl ⟨fun _ => rfl, route, _, _, fun _ => rfl⟩
  | wakeOk agent delivery route synthetic =>
    exact Or.inr (Or.inl ⟨fun _ => rfl, agent, route, _, _, _,
      ⟨by simp, by decide, hquiet (by simp), hquiet (by simp)⟩, fun _ => rfl⟩)
  | wakeFailed agent reason route synthetic =>
    exact Or.inr (Or.inl ⟨fun _ => rfl, agent, route, _, _, _,
      ⟨by simp, by decide, hquiet (by simp), hquiet (by simp)⟩, fun _ => rfl⟩)
  | wakeRefused agent reason route synthetic =>
    have hreason : ¬ (Json.str (reasonText reason)).isText duplicateDelivery = true := by
      intro htext
      have hsome : some (reasonText reason) = some duplicateDelivery := Json.isText_iff.mp htext
      exact h (reasonText_duplicate (Option.some.inj hsome))
    refine Or.inr (Or.inl ⟨fun _ => rfl, agent, route, _, _, _, ⟨by simp, by decide, ?_, ?_⟩,
      fun _ => rfl⟩)
    · intro v hmem
      simp only [List.mem_cons, Prod.mk.injEq, String.reduceEq, false_and, true_and, false_or,
        or_false, List.not_mem_nil] at hmem
      rw [hmem]
      exact hreason
    · intro v hmem
      simp only [List.mem_cons, Prod.mk.injEq, String.reduceEq, false_and, true_and, false_or,
        or_false, List.not_mem_nil] at hmem
      rw [hmem]
      exact hreason
  | wakeDeduped agent route synthetic =>
    exact Or.inr (Or.inl ⟨fun _ => rfl, agent, route, _, _, _,
      ⟨by simp, by decide, hquiet (by simp), hquiet (by simp)⟩, fun _ => rfl⟩)
  | queueDepth agent pending => exact Or.inr (Or.inr (Or.inl ⟨agent, pending, rfl⟩))
  | freezeSelftest status detail => exact Or.inr (Or.inr (Or.inr ⟨status, detail, rfl⟩))

theorem Record.Settled.setAll {values : List (String × Json)} {record : Record}
    (h : record.Settled) (hvalues : Quiet values) : (record.setAll values).Settled := by
  induction values generalizing record with
  | nil => exact h
  | cons value values ih =>
    have hset : (record.set value.1 value.2).Settled := by
      unfold Record.Settled Record.set
      rw [Function.update_apply]
      split
      · next heq => exact hvalues value.2 (by rw [heq]; exact List.mem_cons_self)
      · exact h
    exact ih hset fun v hmem => hvalues v (List.mem_cons_of_mem _ hmem)

theorem Record.Settled.count {float : FloatText} {counter : String} {values : List (String × Json)}
    {record record' : Record} (h : record.Settled) (hcounter : counter ≠ "last_refused_reason")
    (hvalues : Quiet values) (hcount : Record.count float counter values record = some record') :
    record'.Settled := by
  unfold Record.count Record.increment at hcount
  obtain ⟨raised, hraised, rfl⟩ := Option.map_eq_some_iff.mp hcount
  obtain ⟨v, -, rfl⟩ := Option.map_eq_some_iff.mp hraised
  refine Record.Settled.setAll ?_ hvalues
  unfold Record.Settled Record.set
  rw [Function.update_of_ne hcounter.symm]
  exact h

/-- A field that a count leaves alone may as well be set before it as after. -/
theorem count_set (float : FloatText) {counter : String} {values : List (String × Json)}
    {name : String} (hname : name ∉ counter :: values.map Prod.fst) (record : Record) (v : Json) :
    Record.count float counter values (record.set name v) =
      (Record.count float counter values record).map (·.set name v) := by
  have hcounter : counter ≠ name := fun heq => hname (by rw [heq]; exact List.mem_cons_self)
  have hvalues : ∀ {values : List (String × Json)}, name ∉ values.map Prod.fst →
      ∀ record : Record, (record.set name v).setAll values = (record.setAll values).set name v := by
    intro values
    induction values with
    | nil => exact fun _ _ => rfl
    | cons value values ih =>
      intro hnot record
      rw [List.map_cons, List.mem_cons, not_or] at hnot
      have hcomm : (record.set name v).set value.1 value.2 =
          (record.set value.1 value.2).set name v := Function.update_comm hnot.1 _ _ _
      have hstep := ih hnot.2 (record.set value.1 value.2)
      unfold Record.setAll at hstep ⊢
      rw [List.foldl_cons, List.foldl_cons, hcomm, hstep]
  unfold Record.count Record.increment
  have hread : (record.set name v) counter = record counter := Function.update_of_ne hcounter _ _
  rw [hread]
  cases (record counter).add float 1 with
  | none => rfl
  | some raised =>
    have hcomm : (record.set name v).set counter raised =
        (record.set counter raised).set name v := Function.update_comm hcounter.symm _ _ _
    simp only [Option.map_some]
    rw [hcomm, hvalues fun hmem => hname (List.mem_cons_of_mem _ hmem)]

namespace Document.Settled

variable {doc doc' : Document} {float : FloatText}

theorem wake (h : doc.Settled) (agent : String) : (doc.wake agent).Settled := by
  unfold Document.wake
  cases hwake : doc.agentWakes.lookup agent with
  | none =>
    refine ⟨?_, fun route row hrow => ?_⟩
    · unfold Record.Settled
      decide
    · simp [WakeRecord.new] at hrow
  | some wake => exact h.wakes agent wake hwake

theorem row (h : doc.Settled) (agent route : String) :
    (((doc.wake agent).byRoute.lookup route).getD routeSchema.new).Settled := by
  cases hrow : (doc.wake agent).byRoute.lookup route with
  | none =>
    unfold Record.Settled
    decide
  | some row => exact (h.wake agent).rows route row hrow

/-- An agent's record put in the document. -/
theorem putWake (h : doc.Settled) (agent : String) {wake : WakeRecord} (htyped : wake.Typed)
    (hwake : wake.Settled) :
    Document.Settled { doc with agentWakes := doc.agentWakes.insert agent wake } where
  typed := h.typed.putWake agent htyped
  wakes agent' wake' hlookup := by
    by_cases heq : agent' = agent
    · subst heq
      rw [Finmap.lookup_insert] at hlookup
      cases hlookup
      exact hwake
    · rw [Finmap.lookup_insert_of_ne _ heq] at hlookup
      exact h.wakes agent' wake' hlookup

/-- **A call leaves a settled document**, unless it refuses for a dedup's reason. -/
theorem record (h : doc.Settled) {now : Utc} {operation : Operation}
    (hoperation : ¬ operation.RefusesDuplicate)
    (hrecord : doc.record float now operation = some doc') : doc'.Settled := by
  obtain ⟨doc'', hdoc'', htyped⟩ := @Document.Typed.record _ float h.typed now operation
  cases hrecord.symm.trans hdoc''
  refine ⟨htyped, ?_⟩
  rcases record_cases float now hoperation with ⟨-, route, counter, values, hdoes⟩ |
    ⟨-, agent, route, counter, onWake, onRow, hcounting, hdoes⟩ | ⟨agent, pending, rfl⟩ |
    ⟨status, detail, rfl⟩
  · rw [hdoes, Document.amendSink] at hrecord
    obtain ⟨sink, -, hdoc'⟩ := Option.bind_eq_some_iff.mp hrecord
    cases hdoc'
    exact h.wakes
  · rw [hdoes, Document.amendWake] at hrecord
    obtain ⟨attributes, hattributes, hrecord⟩ := Option.bind_eq_some_iff.mp hrecord
    obtain ⟨row, hrow, hdoc'⟩ := Option.bind_eq_some_iff.mp hrecord
    cases hdoc'
    intro agent' wake' hlookup
    by_cases heq : agent' = agent
    · subst heq
      rw [Finmap.lookup_insert] at hlookup
      cases hlookup
      refine ⟨(h.wake agent').attributes.count hcounting.reason hcounting.onWake hattributes,
        fun route' row' hlookup => ?_⟩
      by_cases heq' : route' = route
      · subst heq'
        rw [Finmap.lookup_insert] at hlookup
        cases hlookup
        exact (h.row agent' route').count hcounting.reason hcounting.onRow hrow
      · rw [Finmap.lookup_insert_of_ne _ heq'] at hlookup
        exact (h.wake agent').rows route' row' hlookup
    · rw [Finmap.lookup_insert_of_ne _ heq] at hlookup
      exact h.wakes agent' wake' hlookup
  · cases hrecord
    have hqueued : WakeRecord.Settled
        ⟨(doc.wake agent).attributes.set "queued" (.int pending), (doc.wake agent).byRoute⟩ := by
      refine ⟨?_, (h.wake agent).rows⟩
      unfold Record.Settled Record.set
      dsimp only
      rw [Function.update_of_ne (by decide)]
      exact (h.wake agent).attributes
    have hqueuedTyped : WakeRecord.Typed
        ⟨(doc.wake agent).attributes.set "queued" (.int pending), (doc.wake agent).byRoute⟩ :=
      ⟨(h.typed.wake agent).attributes.set rfl rfl, (h.typed.wake agent).rows⟩
    exact (h.putWake agent hqueuedTyped hqueued).wakes
  · cases hrecord
    exact h.wakes

end Document.Settled

/-! ## 3. One document after another -/

/-- An agent's record, its queue depth cleared unless it was reported since. -/
def WakeRecord.since (reported : Bool) (wake : WakeRecord) : WakeRecord :=
  if reported then wake
  else { wake with attributes := wake.attributes.set "queued" (.int 0) }

@[simp] theorem since_true (wake : WakeRecord) : wake.since true = wake := rfl

@[simp] theorem since_byRoute (reported : Bool) (wake : WakeRecord) :
    (wake.since reported).byRoute = wake.byRoute := by
  cases reported <;> rfl

/-- Cleared once is cleared. -/
theorem since_since (reported reported' : Bool) (wake : WakeRecord) :
    (wake.since reported').since reported = wake.since (reported && reported') := by
  cases reported with
  | true => rfl
  | false =>
    cases reported' with
    | true => rfl
    | false => simp [WakeRecord.since, Record.set]

@[simp] theorem since_new (reported : Bool) : WakeRecord.new.since reported = .new := by
  cases reported with
  | true => rfl
  | false =>
    have hqueued : agentSchema.new.set "queued" (.int 0) = agentSchema.new :=
      Function.update_eq_self "queued" agentSchema.new
    unfold WakeRecord.since WakeRecord.new
    rw [if_neg (by decide), hqueued]

/-- What `split` says is what `unsplit` says, but for the queue depth of an agent that is not
`reported`; and where it is `strict`, it has a record for the same agents. -/
structure Document.Follows (strict : Prop) (reported : String → Bool) (split unsplit : Document) :
    Prop where
  sinks : split.deliverySinks = unsplit.deliverySinks
  selfTest : split.freezeSelftest = unsplit.freezeSelftest
  wakes : ∀ agent, split.wake agent = (unsplit.wake agent).since (reported agent)
  entries : strict → ∀ agent, split.agentWakes.lookup agent =
    (unsplit.agentWakes.lookup agent).map (·.since (reported agent))

namespace Document.Follows

variable {strict : Prop} {reported reported' : String → Bool} {split unsplit doc : Document}
  {float : FloatText}

theorem rfl (doc : Document) : doc.Follows strict (fun _ => true) doc where
  sinks := Eq.refl _
  selfTest := Eq.refl _
  wakes _ := Eq.refl _
  entries _ agent := by
    cases doc.agentWakes.lookup agent <;> exact Eq.refl _

theorem trans (h : split.Follows strict reported doc) (h' : doc.Follows strict reported' unsplit) :
    split.Follows strict (fun agent => reported agent && reported' agent) unsplit where
  sinks := h.sinks.trans h'.sinks
  selfTest := h.selfTest.trans h'.selfTest
  wakes agent := by rw [h.wakes, h'.wakes, since_since]
  entries hstrict agent := by
    rw [h.entries hstrict, h'.entries hstrict, Option.map_map]
    congr 1
    funext wake
    exact since_since _ _ wake

/-- An agent's record put in both. -/
theorem putWake (h : split.Follows strict reported unsplit) (reported' : String → Bool)
    (agent : String) (wake : WakeRecord)
    (hothers : ∀ agent', agent' ≠ agent → reported' agent' = reported agent') :
    Document.Follows strict reported'
      { split with agentWakes := split.agentWakes.insert agent (wake.since (reported' agent)) }
      { unsplit with agentWakes := unsplit.agentWakes.insert agent wake } where
  sinks := h.sinks
  selfTest := h.selfTest
  wakes agent' := by
    by_cases heq : agent' = agent
    · subst heq
      simp [Document.wake]
    · have hwake := h.wakes agent'
      unfold Document.wake at hwake ⊢
      rw [Finmap.lookup_insert_of_ne _ heq, Finmap.lookup_insert_of_ne _ heq, hothers _ heq, hwake]
  entries hstrict agent' := by
    by_cases heq : agent' = agent
    · subst heq
      simp
    · rw [Finmap.lookup_insert_of_ne _ heq, Finmap.lookup_insert_of_ne _ heq, hothers _ heq,
        h.entries hstrict]

/-- A sink amended in both. -/
theorem amendSink (h : split.Follows strict reported unsplit) {route : String}
    {change : Record → Option Record} {unsplit' : Document}
    (hunsplit : unsplit.amendSink route change = some unsplit') :
    ∃ split', split.amendSink route change = some split' ∧
      split'.Follows strict reported unsplit' := by
  unfold Document.amendSink at hunsplit ⊢
  obtain ⟨sink, hsink, hunsplit'⟩ := Option.bind_eq_some_iff.mp hunsplit
  cases hunsplit'
  have hread : split.sink route = unsplit.sink route := by
    unfold Document.sink
    rw [h.sinks]
  rw [hread, hsink]
  refine ⟨_, Eq.refl _, ?_, h.selfTest, h.wakes, h.entries⟩
  show split.deliverySinks.insert route sink = unsplit.deliverySinks.insert route sink
  rw [h.sinks]

/-- An agent's record and row counted in both. -/
theorem amendWake (h : split.Follows strict reported unsplit) {agent route counter : String}
    {onWake onRow : List (String × Json)} (hcounting : Counting counter onWake onRow)
    {unsplit' : Document}
    (hunsplit : unsplit.amendWake agent route (Record.count float counter onWake)
      (Record.count float counter onRow) = some unsplit') :
    ∃ split', split.amendWake agent route (Record.count float counter onWake)
        (Record.count float counter onRow) = some split' ∧
      split'.Follows strict reported unsplit' := by
  unfold Document.amendWake at hunsplit ⊢
  obtain ⟨attributes, hattributes, hunsplit⟩ := Option.bind_eq_some_iff.mp hunsplit
  obtain ⟨row, hrow, hunsplit'⟩ := Option.bind_eq_some_iff.mp hunsplit
  cases hunsplit'
  have hput := h.putWake reported agent
    ⟨attributes, (unsplit.wake agent).byRoute.insert route row⟩ fun _ _ => Eq.refl _
  refine ⟨_, ?_, hput⟩
  rw [h.wakes]
  dsimp only
  rw [since_byRoute]
  cases hreported : reported agent with
  | true =>
    rw [since_true, hattributes]
    dsimp only [Option.bind_eq_bind, Option.bind_some]
    rw [hrow]
    exact Eq.refl _
  | false =>
    have hcleared := count_set float hcounting.queued (unsplit.wake agent).attributes
      (.int 0)
    rw [hattributes] at hcleared
    unfold WakeRecord.since
    simp only [Bool.false_eq_true, if_false, Option.bind_eq_bind]
    rw [hcleared, Option.map_some, Option.bind_some, hrow]
    exact Eq.refl _

/-- **The same call to both documents.** -/
theorem record (h : split.Follows strict reported unsplit) {now : Utc} {operation : Operation}
    (hoperation : ¬ operation.RefusesDuplicate) {unsplit' : Document}
    (hunsplit : unsplit.record float now operation = some unsplit') :
    ∃ split', split.record float now operation = some split' ∧
      split'.Follows strict (fun agent => reported agent || operation.reports agent) unsplit' := by
  rcases record_cases float now hoperation with ⟨hreports, route, counter, values, hdoes⟩ |
    ⟨hreports, agent, route, counter, onWake, onRow, hcounting, hdoes⟩ | ⟨agent, pending, rfl⟩ |
    ⟨status, detail, rfl⟩
  · simp only [hreports, Bool.or_false]
    rw [hdoes] at hunsplit ⊢
    exact h.amendSink hunsplit
  · simp only [hreports, Bool.or_false]
    rw [hdoes] at hunsplit ⊢
    exact h.amendWake hcounting hunsplit
  · cases hunsplit
    have hput := h.putWake
      (fun agent' => reported agent' || Operation.reports agent' (.queueDepth agent pending)) agent
      ⟨(unsplit.wake agent).attributes.set "queued" (.int pending), (unsplit.wake agent).byRoute⟩
      fun agent' hne => by simp [Operation.reports, hne]
    refine ⟨_, ?_, hput⟩
    have hqueued : (split.wake agent).attributes.set "queued" (.int pending) =
        (unsplit.wake agent).attributes.set "queued" (.int pending) := by
      rw [h.wakes]
      cases reported agent with
      | true => exact Eq.refl _
      | false => simp [WakeRecord.since, Record.set]
    have hbyRoute : (split.wake agent).byRoute = (unsplit.wake agent).byRoute := by
      rw [h.wakes, since_byRoute]
    simp [Document.record, hqueued, hbyRoute, Operation.reports]
  · cases hunsplit
    simp only [Operation.reports, Bool.or_false]
    exact ⟨_, Eq.refl _, h.sinks, Eq.refl _, h.wakes, h.entries⟩

end Document.Follows

/-! ## 4. Restarts -/

/-- What a store goes through: a call, or a restart, with the clock at the flush it may make. -/
inductive StoreEvent
  | record (call : Timed)
  | restart (stamp : Utc)

/-- The call an event is. -/
def StoreEvent.timed : StoreEvent → Option Timed
  | .record call => some call
  | .restart _ => none

/-- The agents whose queue depth is reported since the last restart, once an event has happened. -/
def StoreEvent.reporting (reported : String → Bool) : StoreEvent → String → Bool
  | .record call => fun agent => reported agent || call.operation.reports agent
  | .restart _ => fun _ => false

namespace Store

/-- What `to_json` and JSON text would make of the document as it is. -/
def written (json : JsonText) (s : Store) : Json := json.reread s.doc.toJson

/-- One event, where a restart loads what the store `holds` on disk. -/
def step (json : JsonText) (float : FloatText) (holds : Store → Json) (s : Store) :
    StoreEvent → Option Store
  | .record call => s.apply json float call
  | .restart stamp => Store.construct json float (holds s) stamp

/-- Events one after another. -/
def run (json : JsonText) (float : FloatText) (holds : Store → Json) (s : Store)
    (events : List StoreEvent) : Option Store :=
  events.foldlM (fun s event => s.step json float holds event) s

/-- A settled document, beside a file that it was read from or written to but for agents' records
that are all defaults. -/
structure Kept (float : FloatText) (s : Store) : Prop where
  doc : s.doc.Settled
  file : ∃ doc, doc.Settled ∧ Document.fromJson float s.file = some doc ∧
    doc.Follows False (fun _ => true) s.doc

variable {json : JsonText} {float : FloatText} {s : Store}

theorem new_kept : Store.new.Kept float := by
  have hsettled : Document.empty.Settled := by
    refine ⟨empty_typed, fun agent wake hwake => ?_⟩
    simp [Document.empty] at hwake
  exact ⟨hsettled, .empty, hsettled, rfl, .rfl _⟩

theorem flush_settled (json : JsonText) {doc : Document} (h : doc.Settled) (stamp : Utc) :
    (flush json doc stamp).doc.Settled :=
  ⟨⟨h.typed.sinks, h.typed.wakes, h.typed.selfTest⟩, h.wakes⟩

/-- A flush leaves the file as the document. -/
theorem flush_kept {doc : Document} (h : doc.Settled) (stamp : Utc) :
    (flush json doc stamp).Kept float where
  doc := flush_settled json h stamp
  file := ⟨(flush json doc stamp).doc, flush_settled json h stamp,
    fromJson_toJson (flush_settled json h stamp), .rfl _⟩

/-- **What a call makes of the store**: what it makes of the document, flushed, unless it reports
the queue depth already known, and then at most a record of all defaults is new. -/
theorem apply_settled (float : FloatText) (json : JsonText) (h : s.doc.Settled) (call : Timed)
    (hcall : ¬ call.operation.RefusesDuplicate) :
    ∃ s' doc', s.apply json float call = some s' ∧
      s.doc.record float call.now call.operation = some doc' ∧ doc'.Settled ∧
      (s' = flush json doc' call.stamp ∨ s' = ⟨doc', s.file⟩ ∧
        ∃ agent, doc' =
          { s.doc with agentWakes := s.doc.agentWakes.insert agent (s.doc.wake agent) }) := by
  obtain ⟨doc', hdoc', -⟩ := @Document.Typed.record _ float h.typed call.now call.operation
  have hsettled : doc'.Settled := h.record hcall hdoc'
  unfold apply
  split
  · next agent pending hoperation =>
    dsimp only
    split
    · next hsame =>
      have hqueued : (s.doc.wake agent).attributes "queued" = .int pending := by
        have hfits := (h.typed.wake agent).attributes.fits "queued" .counter rfl List.not_mem_nil
        cases hv : (s.doc.wake agent).attributes "queued" with
        | int i =>
          rw [hv] at hsame
          rw [eq_of_beq hsame]
        | _ =>
          rw [hv] at hfits
          cases hfits
      have hset : (s.doc.wake agent).attributes.set "queued" (.int pending) =
          (s.doc.wake agent).attributes := by
        rw [← hqueued]
        exact Function.update_eq_self _ _
      have hrecord : doc' =
          { s.doc with agentWakes := s.doc.agentWakes.insert agent (s.doc.wake agent) } := by
        rw [hoperation] at hdoc'
        simp only [Document.record, hset, Option.some.injEq] at hdoc'
        exact hdoc'.symm
      subst hrecord
      exact ⟨_, _, rfl, hdoc', hsettled, Or.inr ⟨rfl, agent, rfl⟩⟩
    · rw [hdoc']
      exact ⟨_, doc', rfl, rfl, hsettled, Or.inl rfl⟩
  · rw [hdoc']
    exact ⟨_, doc', rfl, rfl, hsettled, Or.inl rfl⟩

/-- A call keeps a store whose file reads as its document does. -/
theorem apply_kept (json : JsonText) (h : s.Kept float) (call : Timed)
    (hcall : ¬ call.operation.RefusesDuplicate) :
    ∃ s' doc', s.apply json float call = some s' ∧ s'.Kept float ∧
      s.doc.record float call.now call.operation = some doc' ∧
      s'.doc = { doc' with updatedAt := s'.doc.updatedAt } := by
  obtain ⟨s', doc', hs', hdoc', hsettled, rfl | ⟨rfl, agent, rfl⟩⟩ :=
    apply_settled float json h.doc call hcall
  · exact ⟨_, doc', hs', flush_kept hsettled call.stamp, hdoc', rfl⟩
  · obtain ⟨doc, hdoc, hfile, hfollows⟩ := h.file
    refine ⟨_, _, hs', ⟨hsettled, doc, hdoc, hfile, ?_⟩, hdoc', rfl⟩
    refine ⟨hfollows.sinks, hfollows.selfTest, fun agent' => ?_, nofun⟩
    -- the record of all defaults reads as none did
    have hwake : Document.wake
        { s.doc with agentWakes := s.doc.agentWakes.insert agent (s.doc.wake agent) } agent' =
          s.doc.wake agent' := by
      by_cases heq : agent' = agent
      · subst heq
        simp [Document.wake]
      · simp [Document.wake, Finmap.lookup_insert_of_ne _ heq]
    rw [hwake]
    exact hfollows.wakes agent'

/-- An agent's record of its types is cleared of its queue depth. -/
theorem discardQueued_since {wake : WakeRecord} (h : wake.Typed) :
    wake.discardQueued float = wake.since false := by
  have hfits := h.attributes.fits "queued" .counter rfl List.not_mem_nil
  unfold WakeRecord.discardQueued WakeRecord.since
  rw [if_neg (by decide : ¬ false = true)]
  split
  · rfl
  · next hfalsy =>
    have hqueued : wake.attributes "queued" = .int 0 := by
      cases hv : wake.attributes "queued" with
      | int i =>
        rw [hv] at hfalsy
        simp only [Json.truthy, bne_iff_ne, ne_eq, not_not] at hfalsy
        rw [hfalsy]
      | _ =>
        rw [hv] at hfits
        cases hfits
    have hset : wake.attributes.set "queued" (.int 0) = wake.attributes := by
      rw [← hqueued]
      exact Function.update_eq_self _ _
    rw [hset]

/-- **A store constructed from a settled document** holds it, with every queue depth cleared. -/
theorem construct_kept (json : JsonText) {raw : Json} {doc : Document} (h : doc.Settled)
    (hraw : Document.fromJson float raw = some doc) (stamp : Utc) :
    ∃ s, Store.construct json float raw stamp = some s ∧ s.Kept float ∧
      s.doc.Follows True (fun _ => false) doc := by
  obtain ⟨s, hs⟩ : ∃ s, Store.construct json float raw stamp = some s := by
    unfold Store.construct
    rw [hraw]
    exact ⟨_, rfl⟩
  obtain ⟨doc', hdoc', hsinks, hselfTest, hlookup⟩ := construct_doc hs
  cases hraw.symm.trans hdoc'
  have hentries : ∀ agent, s.doc.agentWakes.lookup agent =
      (doc.agentWakes.lookup agent).map (·.since false) := by
    intro agent
    rw [hlookup]
    cases hwake : doc.agentWakes.lookup agent with
    | none => rfl
    | some wake =>
      rw [Option.map_some, Option.map_some, discardQueued_since (h.typed.wakes _ _ hwake)]
  have hfollows : s.doc.Follows True (fun _ => false) doc := by
    refine ⟨hsinks, hselfTest, fun agent => ?_, fun _ => hentries⟩
    unfold Document.wake
    rw [hentries]
    cases doc.agentWakes.lookup agent with
    | none => exact (since_new false).symm
    | some wake => rfl
  have hsettled : s.doc.Settled := by
    refine ⟨⟨?_, ?_, ?_⟩, ?_⟩
    · rw [hsinks]
      exact h.typed.sinks
    · intro agent wake hwake
      rw [hentries] at hwake
      obtain ⟨wake', hwake', rfl⟩ := Option.map_eq_some_iff.mp hwake
      have htyped := h.typed.wakes agent wake' hwake'
      exact ⟨htyped.attributes.set rfl rfl, htyped.rows⟩
    · rw [hselfTest]
      exact h.typed.selfTest
    · intro agent wake hwake
      rw [hentries] at hwake
      obtain ⟨wake', hwake', rfl⟩ := Option.map_eq_some_iff.mp hwake
      have hwakeSettled := h.wakes agent wake' hwake'
      refine ⟨?_, hwakeSettled.rows⟩
      have hreason : (wake'.since false).attributes "last_refused_reason" =
          wake'.attributes "last_refused_reason" :=
        Function.update_of_ne (by decide : "last_refused_reason" ≠ "queued") (.int 0)
          wake'.attributes
      unfold Record.Settled
      rw [hreason]
      exact hwakeSettled.attributes
  refine ⟨s, hs, ⟨hsettled, ?_⟩, hfollows⟩
  unfold Store.construct at hs
  rw [hraw, Option.map_some] at hs
  split at hs
  · cases hs
    exact ⟨_, hsettled, fromJson_toJson hsettled, .rfl _⟩
  · cases hs
    exact ⟨doc, h, hraw, .rfl _⟩

/-! ## 5. Runs -/

/-- What a store holds on disk reads as its document does. -/
def Holds (float : FloatText) (strict : Prop) (holds : Store → Json) : Prop :=
  ∀ s : Store, s.Kept float → ∃ doc, doc.Settled ∧
    Document.fromJson float (holds s) = some doc ∧ doc.Follows strict (fun _ => true) s.doc

theorem written_holds : Holds float True (written json) :=
  fun s h => ⟨s.doc, h.doc, fromJson_toJson h.doc, .rfl _⟩

theorem file_holds : Holds float False Store.file := fun _ h => h.file

variable {strict : Prop} {holds : Store → Json} {reported : String → Bool} {split unsplit : Store}

/-- One call to both stores. -/
theorem call_follows (json : JsonText) (hsplit : split.Kept float) (hunsplit : unsplit.Kept float)
    (h : split.doc.Follows strict reported unsplit.doc) {call : Timed}
    (hcall : ¬ call.operation.RefusesDuplicate) :
    ∃ split' unsplit', split.apply json float call = some split' ∧
      unsplit.apply json float call = some unsplit' ∧ split'.Kept float ∧ unsplit'.Kept float ∧
      split'.doc.Follows strict (fun agent => reported agent || call.operation.reports agent)
        unsplit'.doc := by
  obtain ⟨split', splitDoc, hsplit', hkept, hsplitDoc, hsplitEq⟩ :=
    apply_kept json hsplit call hcall
  obtain ⟨unsplit', unsplitDoc, hunsplit', hkept', hunsplitDoc, hunsplitEq⟩ :=
    apply_kept json hunsplit call hcall
  obtain ⟨splitDoc', hsplitDoc', hfollows⟩ := h.record hcall hunsplitDoc
  cases hsplitDoc.symm.trans hsplitDoc'
  refine ⟨split', unsplit', hsplit', hunsplit', hkept, hkept', ?_⟩
  rw [hsplitEq, hunsplitEq]
  exact ⟨hfollows.sinks, hfollows.selfTest, hfollows.wakes, hfollows.entries⟩

/-- A restart of one store, while the other goes on. -/
theorem restart_follows (json : JsonText) (hholds : Holds float strict holds)
    (hsplit : split.Kept float) (h : split.doc.Follows strict reported unsplit.doc) (stamp : Utc) :
    ∃ split', Store.construct json float (holds split) stamp = some split' ∧ split'.Kept float ∧
      split'.doc.Follows strict (fun _ => false) unsplit.doc := by
  obtain ⟨doc, hdoc, hread, hfollows⟩ := hholds split hsplit
  obtain ⟨split', hsplit', hkept, hcleared⟩ := construct_kept json hdoc hread stamp
  have hcleared' : split'.doc.Follows strict (fun _ => false) doc :=
    ⟨hcleared.sinks, hcleared.selfTest, hcleared.wakes, fun _ => hcleared.entries trivial⟩
  exact ⟨split', hsplit', hkept, (hcleared'.trans hfollows).trans h⟩

/-- A run with restarts, beside the same calls without. -/
theorem run_follows (json : JsonText) (hholds : Holds float strict holds) (events : List StoreEvent)
    (hevents : ∀ call, StoreEvent.record call ∈ events → ¬ call.operation.RefusesDuplicate)
    (hsplit : split.Kept float) (hunsplit : unsplit.Kept float)
    (h : split.doc.Follows strict reported unsplit.doc) :
    ∃ split' unsplit', split.run json float holds events = some split' ∧
      unsplit.applyAll json float (events.filterMap StoreEvent.timed) = some unsplit' ∧
      split'.doc.Follows strict (events.foldl StoreEvent.reporting reported) unsplit'.doc := by
  induction events generalizing split unsplit reported with
  | nil => exact ⟨split, unsplit, rfl, rfl, h⟩
  | cons event events ih =>
    have hrest : ∀ call, StoreEvent.record call ∈ events → ¬ call.operation.RefusesDuplicate :=
      fun call hmem => hevents call (List.mem_cons_of_mem _ hmem)
    unfold run at ih ⊢
    rw [List.foldlM_cons, List.foldl_cons]
    cases event with
    | record call =>
      obtain ⟨split', unsplit', hsplit', hunsplit', hkept, hkept', hfollows⟩ :=
        call_follows json hsplit hunsplit h (hevents call List.mem_cons_self)
      obtain ⟨split'', unsplit'', hrun, happly, hend⟩ := ih hrest hkept hkept' hfollows
      refine ⟨split'', unsplit'', ?_, ?_, hend⟩
      · rw [step, hsplit']
        exact hrun
      · rw [List.filterMap_cons]
        unfold applyAll at happly ⊢
        rw [StoreEvent.timed]
        dsimp only
        rw [List.foldlM_cons, hunsplit']
        exact happly
    | restart stamp =>
      obtain ⟨split', hsplit', hkept, hfollows⟩ :=
        restart_follows json hholds hsplit h stamp
      obtain ⟨split'', unsplit'', hrun, happly, hend⟩ := ih hrest hkept hunsplit hfollows
      refine ⟨split'', unsplit'', ?_, ?_, hend⟩
      · rw [step, hsplit']
        exact hrun
      · rw [List.filterMap_cons]
        exact happly

/-- A wake that is queued, woken and refused, with a restart after each. -/
def interruptedNova : List StoreEvent :=
  [.record ⟨.queueDepth "nova" 1, .earliest, .earliest⟩, .restart .earliest,
    .record ⟨.wakeOk "nova" "f3c1" "github" false, .earliest, .earliest⟩, .restart .earliest,
    .record ⟨.wakeRefused "nova" "wake_lock" "github" false, .earliest, .earliest⟩,
    .restart .earliest]

end Store

end BasecradleRouter.Evidence
