/-
# What a document counts

The counters of a document are at a `Place` each: a sink's, an agent's, or one of a row of an agent.
`Document.count` is what a document has counted there.

* `record_count`: a call raises the counters it is for, by one, and no other.
* `construct_count`: a store that is constructed counts what its file comes to (`Place.loaded`), of
  whatever types it is.
-/
import BasecradleRouter.Evidence.Coherence
import BasecradleRouter.Evidence.Migration

namespace BasecradleRouter.Evidence

open BasecradleRouter.Lib BasecradleRouter.Dedup

/-! ## 1. Counters -/

/-- The attribute of an outcome's counter. -/
def Counter.name : Counter → String
  | .ok => "ok"
  | .failed => "failed"
  | .refused => "refused"
  | .deduped => "deduped"

/-- A call that counts an outcome. -/
def Counter.raise (agent route : String) : Counter → Operation
  | .ok => .wakeOk agent "" route false
  | .failed => .wakeFailed agent "" route false
  | .refused => .wakeRefused agent "" route false
  | .deduped => .wakeDeduped agent route false

/-- A sink's counters. -/
inductive SinkCounter
  | accepted
  | rejected
  | woke
  | ignored
  deriving DecidableEq, Repr

/-- The attribute of a sink's counter. -/
def SinkCounter.name : SinkCounter → String
  | .accepted => "accepted"
  | .rejected => "rejected"
  | .woke => "woke"
  | .ignored => "ignored"

/-- Where a document counts. -/
inductive Place
  | sink (route : String) (c : SinkCounter)
  | wake (agent : String) (c : Counter)
  | row (agent route : String) (c : Counter)
  deriving DecidableEq

namespace Place

/-- The attribute. -/
def name : Place → String
  | .sink _ c => c.name
  | .wake _ c => c.name
  | .row _ _ c => c.name

/-- The dataclass. -/
def schema : Place → Schema
  | .sink _ _ => sinkSchema
  | .wake _ _ => agentSchema
  | .row _ _ _ => routeSchema

/-- A call that counts there. -/
def raise : Place → Operation
  | .sink route .accepted => .deliveryAccepted route
  | .sink route .rejected => .deliveryRejected route ""
  | .sink route .woke => .deliveryDecision route true
  | .sink route .ignored => .deliveryDecision route false
  | .wake agent c => c.raise agent ""
  | .row agent route c => c.raise agent route

theorem declared (p : Place) : p.schema.lookup p.name = some .counter := by
  cases p with
  | sink route c => cases c <;> rfl
  | wake agent c => cases c <;> rfl
  | row agent route c => cases c <;> rfl

end Place

/-- Where a call counts. -/
def Operation.places : Operation → List Place
  | .deliveryAccepted route => [.sink route .accepted]
  | .deliveryRejected route _ => [.sink route .rejected]
  | .deliveryDecision route woke => [.sink route (if woke then .woke else .ignored)]
  | .wakeOk agent _ route _ => [.wake agent .ok, .row agent route .ok]
  | .wakeFailed agent _ route _ => [.wake agent .failed, .row agent route .failed]
  | .wakeRefused agent _ route _ => [.wake agent .refused, .row agent route .refused]
  | .wakeDeduped agent route _ => [.wake agent .deduped, .row agent route .deduped]
  | .queueDepth _ _ => []
  | .freezeSelftest _ _ => []

theorem Place.raise_places (p : Place) : p ∈ p.raise.places := by
  cases p with
  | sink route c => cases c <;> simp [Place.raise, Operation.places]
  | wake agent c => cases c <;> simp [Place.raise, Counter.raise, Operation.places]
  | row agent route c => cases c <;> simp [Place.raise, Counter.raise, Operation.places]

/-- A count raises its counter by one, and no other counter. -/
theorem count_amount {float : FloatText} {schema : Schema} {record record' : Record}
    (htyped : record.Typed schema) {counter : String} {values : List (String × Json)}
    (hcounter : schema.lookup counter = some .counter)
    (h : Record.count float counter values record = some record') {name : String}
    (hname : name ∉ values.map Prod.fst) :
    amount name record' = amount name record + if name = counter then 1 else 0 := by
  obtain ⟨n, hn⟩ := htyped.counter hcounter
  by_cases heq : name = counter
  · subst heq
    rw [amount_of_eq (count_counter hn h hname), amount_of_eq hn, if_pos rfl]
  · have hsame : record' name = record name := count_of_notMem hn h (by simp [heq, hname])
    simp [amount, hsame, heq]

namespace Document

/-- The record a place is in, a new one where there is none. -/
def holder (doc : Document) : Place → Record
  | .sink route _ => doc.sink route
  | .wake agent _ => (doc.wake agent).attributes
  | .row agent route _ => ((doc.wake agent).byRoute.lookup route).getD routeSchema.new

/-- What is counted at a place. -/
def count (doc : Document) (p : Place) : ℤ := amount p.name (doc.holder p)

variable {doc doc' : Document}

theorem Typed.holder (h : doc.Typed) (p : Place) : (doc.holder p).Typed p.schema := by
  cases p with
  | sink route c => exact h.sink route
  | wake agent c => exact (h.wake agent).attributes
  | row agent route c => exact (h.wake agent).row route

/-- What is counted is what the attribute holds. -/
theorem Typed.count (h : doc.Typed) (p : Place) :
    doc.holder p p.name = .int (doc.count p) := by
  obtain ⟨n, hn⟩ := (h.holder p).counter p.declared
  rw [hn, Document.count, amount_of_eq hn]

section

variable {float : FloatText} {values onWake onRow : List (String × Json)}

theorem amendSink_count (h : doc.Typed) {route : String} {c : SinkCounter}
    (hvalues : ∀ c' : SinkCounter, c'.name ∉ values.map Prod.fst)
    (hdoc : doc.amendSink route (Record.count float c.name values) = some doc') (p : Place) :
    doc'.count p = doc.count p + if p = .sink route c then 1 else 0 := by
  unfold amendSink at hdoc
  obtain ⟨sink, hsink, hdoc⟩ := Option.bind_eq_some_iff.mp hdoc
  cases hdoc
  cases p with
  | sink route' c' =>
    have hcounter : sinkSchema.lookup c.name = some .counter := (Place.sink route c).declared
    have hname : c'.name = c.name ↔ c' = c := by cases c <;> cases c' <;> decide
    by_cases hroute : route' = route
    · subst hroute
      have hamount := count_amount (h.sink route') hcounter hsink (hvalues c')
      simpa [Document.count, Document.holder, Document.sink, Place.name, hname] using hamount
    · simp [Document.count, Document.holder, Document.sink, hroute,
        Finmap.lookup_insert_of_ne _ hroute]
  | wake agent c' => simp [Document.count, Document.holder, Document.wake]
  | row agent route' c' => simp [Document.count, Document.holder, Document.wake]

theorem amendWake_count (h : doc.Typed) {agent route : String} {c : Counter}
    (honWake : ∀ c' : Counter, c'.name ∉ onWake.map Prod.fst)
    (honRow : ∀ c' : Counter, c'.name ∉ onRow.map Prod.fst)
    (hdoc : doc.amendWake agent route (Record.count float c.name onWake)
      (Record.count float c.name onRow) = some doc') (p : Place) :
    doc'.count p =
      doc.count p + if p ∈ [Place.wake agent c, .row agent route c] then 1 else 0 := by
  unfold amendWake at hdoc
  obtain ⟨attributes, hattributes, hdoc⟩ := Option.bind_eq_some_iff.mp hdoc
  obtain ⟨row, hrow, hdoc⟩ := Option.bind_eq_some_iff.mp hdoc
  cases hdoc
  have hname : ∀ c' : Counter, c'.name = c.name ↔ c' = c := by
    intro c'
    cases c <;> cases c' <;> decide
  have hcounter : agentSchema.lookup c.name = some .counter := (Place.wake agent c).declared
  have hrowCounter : routeSchema.lookup c.name = some .counter :=
    (Place.row agent route c).declared
  cases p with
  | sink route' c' => simp [Document.count, Document.holder, Document.sink]
  | wake agent' c' =>
    by_cases hagent : agent' = agent
    · subst hagent
      have hamount := count_amount (h.wake agent').attributes hcounter hattributes (honWake c')
      simpa [Document.count, Document.holder, Document.wake, Place.name, hname] using hamount
    · simp [Document.count, Document.holder, Document.wake, hagent,
        Finmap.lookup_insert_of_ne _ hagent]
  | row agent' route' c' =>
    by_cases hagent : agent' = agent
    · subst hagent
      by_cases hroute : route' = route
      · subst hroute
        have hamount := count_amount ((h.wake agent').row route') hrowCounter hrow (honRow c')
        simpa [Document.count, Document.holder, Document.wake, Place.name, hname] using hamount
      · simp [Document.count, Document.holder, Document.wake, hroute,
          Finmap.lookup_insert_of_ne _ hroute]
    · simp [Document.count, Document.holder, Document.wake, hagent,
        Finmap.lookup_insert_of_ne _ hagent]

/-- **A call counts where it is for**, and nowhere else. -/
theorem record_count (h : doc.Typed) {now : Utc} {operation : Operation}
    (hdoc : doc.record float now operation = some doc') (p : Place) :
    doc'.count p = doc.count p + if p ∈ operation.places then 1 else 0 := by
  cases operation with
  | deliveryAccepted route =>
    have hcount := amendSink_count (c := .accepted) h
      (by intro c; cases c <;> simp [SinkCounter.name]) hdoc p
    simpa [Operation.places] using hcount
  | deliveryRejected route reason =>
    have hcount := amendSink_count (c := .rejected) h
      (by intro c; cases c <;> simp [SinkCounter.name]) hdoc p
    simpa [Operation.places] using hcount
  | deliveryDecision route woke =>
    cases woke with
    | true =>
      simpa [Operation.places] using
        amendSink_count (c := .woke) h (fun _ => List.not_mem_nil) hdoc p
    | false =>
      simpa [Operation.places] using
        amendSink_count (c := .ignored) h (fun _ => List.not_mem_nil) hdoc p
  | wakeOk agent delivery route synthetic =>
    exact amendWake_count (c := .ok) h (by intro c; cases c <;> simp [Counter.name])
      (by intro c; cases c <;> simp [Counter.name]) hdoc p
  | wakeFailed agent reason route synthetic =>
    exact amendWake_count (c := .failed) h (by intro c; cases c <;> simp [Counter.name])
      (by intro c; cases c <;> simp [Counter.name]) hdoc p
  | wakeRefused agent reason route synthetic =>
    exact amendWake_count (c := .refused) h (by intro c; cases c <;> simp [Counter.name])
      (by intro c; cases c <;> simp [Counter.name]) hdoc p
  | wakeDeduped agent route synthetic =>
    exact amendWake_count (c := .deduped) h (by intro c; cases c <;> simp [Counter.name])
      (by intro c; cases c <;> simp [Counter.name]) hdoc p
  | queueDepth agent pending =>
    cases hdoc
    have hqueued : ∀ c : Counter, c.name ≠ "queued" := by
      intro c
      cases c <;> decide
    cases p with
    | sink route c => simp [Document.count, Document.holder, Document.sink, Operation.places]
    | wake agent' c =>
      by_cases hagent : agent' = agent
      · subst hagent
        simp [Document.count, Document.holder, Document.wake, Operation.places, amount,
          Record.set, Place.name, hqueued]
      · simp [Document.count, Document.holder, Document.wake, Operation.places,
          Finmap.lookup_insert_of_ne _ hagent]
    | row agent' route c =>
      by_cases hagent : agent' = agent
      · subst hagent
        simp [Document.count, Document.holder, Document.wake, Operation.places]
      · simp [Document.count, Document.holder, Document.wake, Operation.places,
          Finmap.lookup_insert_of_ne _ hagent]
  | freezeSelftest status detail =>
    cases hdoc
    cases p <;> simp [Document.count, Document.holder, Document.sink, Document.wake,
      Operation.places]

end

end Document

/-! ## 2. Queue depths -/

namespace Document

variable {doc doc' : Document}

/-- An agent's record put back where it was. -/
theorem putWake_wake (doc : Document) (agent agent' : String) :
    Document.wake { doc with agentWakes := doc.agentWakes.insert agent (doc.wake agent) } agent' =
      doc.wake agent' := by
  by_cases hagent : agent' = agent
  · subst hagent
    simp [Document.wake]
  · simp [Document.wake, Finmap.lookup_insert_of_ne _ hagent]

theorem putWake_count (doc : Document) (agent : String) (p : Place) :
    Document.count { doc with agentWakes := doc.agentWakes.insert agent (doc.wake agent) } p =
      doc.count p := by
  cases p with
  | sink route c => rfl
  | wake agent' c =>
    rw [Document.count, holder, putWake_wake]
    rfl
  | row agent' route c =>
    rw [Document.count, holder, putWake_wake]
    rfl

/-- A call sets the queue depth it reports, and no other. -/
theorem record_queued {float : FloatText} {now : Utc} {operation : Operation} (h : doc.Typed)
    (hdoc : doc.record float now operation = some doc') (agent : String) :
    (doc'.wake agent).attributes "queued" = (doc.wake agent).attributes "queued" ∨
      ∃ pending, operation = .queueDepth agent pending ∧
        (doc'.wake agent).attributes "queued" = .int pending := by
  rcases record_outcome float now operation with ⟨route, counter, values, hdoes⟩ |
    ⟨o, ho, agent', route, synthetic, values, hvalues, hdoes⟩ | ⟨agent', pending, rfl⟩ |
    ⟨status, detail, rfl⟩
  · rw [hdoes, amendSink] at hdoc
    obtain ⟨sink, -, hdoc⟩ := Option.bind_eq_some_iff.mp hdoc
    cases hdoc
    exact Or.inl rfl
  · rw [hdoes, amendWake] at hdoc
    obtain ⟨attributes, hattributes, hdoc⟩ := Option.bind_eq_some_iff.mp hdoc
    obtain ⟨row, -, hdoc⟩ := Option.bind_eq_some_iff.mp hdoc
    cases hdoc
    left
    by_cases hagent : agent = agent'
    · subst hagent
      obtain ⟨-, hqueued, hcounter, -⟩ := outcome_names o ho
      obtain ⟨n, hn⟩ := (h.wake agent).attributes.counter hcounter
      have hkept : attributes "queued" = (doc.wake agent).attributes "queued" := by
        refine count_of_notMem hn hattributes ?_
        rw [List.map_append, hvalues]
        simp only [OutcomeFields.names, List.mem_cons, not_or] at hqueued
        simp [hqueued]
      simpa [Document.wake] using hkept
    · simp [Document.wake, Finmap.lookup_insert_of_ne _ hagent]
  · cases hdoc
    by_cases hagent : agent = agent'
    · subst hagent
      exact Or.inr ⟨pending, rfl, by simp [Document.wake, Record.set]⟩
    · exact Or.inl (by simp [Document.wake, Finmap.lookup_insert_of_ne _ hagent])
  · cases hdoc
    exact Or.inl rfl

end Document

/-! ## 3. What a file comes to -/

/-- What a value counts as: a `bool` as 0 or 1, and what is no number as nothing. -/
def numberOf : Json → ℤ
  | .int i => i
  | .bool b => Json.ofBool b
  | _ => 0

/-- What a counter of an entry comes to when it is loaded.  Of a last refusal that was a dedup one
count moves. -/
def loaded (stored : Fields) (name : String) : ℤ :=
  let n := numberOf (stored.get name)
  if (stored.get "last_refused_reason").isText duplicateDelivery then
    if name = "deduped" then n + 1 else if name = "refused" then max 0 (n - 1) else n
  else n

namespace Place

/-- The entry of a place in a file. -/
def entry (stored : Fields) : Place → Fields
  | .sink route _ => (Evidence.entry (stored.get "delivery_sinks") route).getD []
  | .wake agent _ => (Evidence.entry (stored.get "agent_wakes") agent).getD []
  | .row agent route _ =>
    let wake := (Evidence.entry (stored.get "agent_wakes") agent).getD []
    (Evidence.entry (wake.get "by_route") route).getD []

/-- What a file comes to at a place. -/
def loaded (stored : Fields) (p : Place) : ℤ := Evidence.loaded (p.entry stored) p.name

end Place

/-- What a value holds of a document: nothing, if it is none of this version. -/
def documentOf (float : FloatText) (v : Json) : Fields :=
  let stored := v.asObj.getD []
  if (stored.get "version").equalsInt float evidenceVersion then stored else []

/-- A counter of a new record. -/
theorem new_amount {schema : Schema} {name : String} (h : schema.lookup name = some .counter) :
    amount name schema.new = 0 := by
  have hzero : schema.new name = .int 0 := by
    rw [Schema.new, h]
    rfl
  exact amount_of_eq hzero

/-! ## 4. Construction -/

theorem Place.loaded_nil (p : Place) : p.loaded [] = 0 := by
  cases p <;> rfl

/-- A counter that is not there counts as its default does. -/
theorem number_stored (stored : Fields) (name : String) :
    numberOf ((stored.lookup name).getD (.int 0)) = numberOf (stored.get name) := by
  unfold Fields.get
  cases stored.lookup name <;> rfl

/-- Raised by one, a value comes to what it counts as and one more. -/
theorem add_number {float : FloatText} {v : Json} {n : ℤ} (h : v.add float 1 = some (.int n)) :
    n = numberOf v + 1 := by
  cases v with
  | int i =>
    cases h
    rfl
  | bool b =>
    cases h
    rfl
  | _ => cases h

/-- Lowered by one, but not below zero. -/
theorem maxZero_number {float : FloatText} {v w : Json} {n : ℤ} (h : v.add float (-1) = some w)
    (hn : w.maxZero float = .int n) : n = max 0 (numberOf v - 1) := by
  cases v with
  | int i =>
    cases h
    cases hn
    rfl
  | bool b =>
    cases h
    cases hn
    rfl
  | float text =>
    cases h
    unfold Json.maxZero at hn
    dsimp only at hn
    split at hn
    · cases hn
    · cases hn
      rfl
  | _ => cases h

/-- A counter of a record that is reclassified, if it then is an integer. -/
theorem reclassify_loaded {float : FloatText} {schema : Schema} (hschema : Reclassifiable schema)
    {provenance : List (String × String)} (hprovenance : Provenance schema provenance)
    {stored : Fields} {record : Record}
    (h : reclassifyLegacyDedup float provenance (schema.rebuild (.obj stored)) = some record)
    {c : Counter} (hkind : schema.lookup c.name = some .counter)
    (hrest : c.name ∈ ["deduped", "refused"] ∨ c.name ∉ movedNames provenance) {n : ℤ}
    (hn : record c.name = .int n) : loaded stored c.name = n := by
  have hmigrated := migrated hschema hprovenance h
  have hrebuild : ∀ {name : String}, schema.lookup name = some .counter →
      numberOf (schema.rebuild (.obj stored) name) = numberOf (stored.get name) := by
    intro name hkind
    rw [rebuild_asStored schema stored name .counter hkind List.not_mem_nil]
    exact number_stored stored name
  have hnumber : numberOf (record c.name) = n := by
    rw [hn]
    rfl
  unfold loaded
  dsimp only
  split
  · next hlegacy =>
    obtain ⟨fewer, hraised, hlowered, hleft⟩ := reclassify_counters hschema hprovenance hlegacy h
    split
    · next hdeduped =>
      rw [hdeduped] at hn ⊢
      rw [hn] at hraised
      rw [add_number hraised, hrebuild hschema.deduped]
    · next hdeduped =>
      split
      · next hrefused =>
        rw [hrefused] at hn ⊢
        rw [hn] at hleft
        rw [maxZero_number hlowered hleft.symm, hrebuild hschema.refused]
      · next hrefused =>
        have hout : c.name ∉ movedNames provenance := hrest.resolve_left (by simp [*])
        rw [hmigrated.rest _ _ hkind hout] at hnumber
        exact (number_stored stored c.name).symm.trans hnumber
  · next hlegacy =>
    rw [hmigrated.kept hlegacy _ _ hkind List.not_mem_nil] at hnumber
    exact (number_stored stored c.name).symm.trans hnumber

/-- The rows of a document that is loaded, beside the entries of its file. -/
theorem fromJson_rows {float : FloatText} {v : Json} {doc : Document}
    (h : Document.fromJson float v = some doc) :
    (∀ route, Option.Rel (fun stored record => record = sinkSchema.rebuild (.obj stored))
      (entry ((documentOf float v).get "delivery_sinks") route)
      (doc.deliverySinks.lookup route)) ∧
    ∀ agent, Option.Rel (fun stored wake => rebuildAgentWake float stored = some wake)
      (entry ((documentOf float v).get "agent_wakes") agent) (doc.agentWakes.lookup agent) := by
  have hempty : ∀ key name, entry (Fields.get [] name) key = none := fun _ _ => rfl
  unfold Document.fromJson at h
  unfold documentOf
  cases hv : v.asObj with
  | none =>
    rw [hv] at h
    cases h
    have hversion : (Fields.get [] "version").equalsInt float evidenceVersion = false := rfl
    simp only [Option.getD_none, hversion, Bool.false_eq_true, if_false, hempty]
    exact ⟨fun _ => by simp [Document.empty], fun _ => by simp [Document.empty]⟩
  | some stored =>
    rw [hv] at h
    dsimp only [Option.getD_some] at h ⊢
    cases hversion : (stored.get "version").equalsInt float evidenceVersion with
    | false =>
      rw [hversion] at h
      cases h
      simp only [Bool.false_eq_true, if_false, hempty]
      exact ⟨fun _ => by simp [Document.empty], fun _ => by simp [Document.empty]⟩
    | true =>
      rw [hversion, if_neg (by simp)] at h
      obtain ⟨sinks, hsinks, h⟩ := Option.bind_eq_some_iff.mp h
      obtain ⟨wakes, hwakes, h⟩ := Option.bind_eq_some_iff.mp h
      cases h
      rw [if_pos rfl]
      exact ⟨rebuildRows_rel (fun _ _ hrow => (Option.some.inj hrow).symm) hsinks,
        rebuildRows_rel (fun _ _ hrow => hrow) hwakes⟩

/-- Clearing a queue depth leaves what is counted. -/
theorem discardQueued_counter {float : FloatText} (wake : WakeRecord) (c : Counter) :
    (wake.discardQueued float).attributes c.name = wake.attributes c.name := by
  have hqueued : c.name ≠ "queued" := by cases c <;> decide
  unfold WakeRecord.discardQueued
  split
  · exact Function.update_of_ne hqueued _ _
  · rfl

theorem discardQueued_byRoute {float : FloatText} (wake : WakeRecord) :
    (wake.discardQueued float).byRoute = wake.byRoute := by
  unfold WakeRecord.discardQueued
  split <;> rfl

/-- What an agent's record holds once it is loaded. -/
theorem wake_loaded {float : FloatText} {stored : Fields} {wake : WakeRecord}
    (h : rebuildAgentWake float stored = some wake) {c : Counter} {n : ℤ} :
    (wake.attributes c.name = .int n → loaded stored c.name = n) ∧
      ∀ route, Option.Rel (fun stored' row => row c.name = .int n → loaded stored' c.name = n)
        (entry (stored.get "by_route") route) (wake.byRoute.lookup route) := by
  unfold rebuildAgentWake at h
  obtain ⟨byRoute, hbyRoute, h⟩ := Option.bind_eq_some_iff.mp h
  obtain ⟨attributes, hattributes, h⟩ := Option.bind_eq_some_iff.mp h
  cases h
  refine ⟨fun hn => ?_, fun route => rebuildRows_rel (fun stored' row hrow hn => ?_) hbyRoute route⟩
  · exact reclassify_loaded agentSchema_reclassifiable agent_provenance hattributes
      (Place.wake "" c).declared (by cases c <;> decide) hn
  · exact reclassify_loaded routeSchema_reclassifiable route_provenance hrow
      (Place.row "" "" c).declared (by cases c <;> decide) hn

/-- A sink's record holds what its entry does. -/
theorem sink_loaded {stored : Fields} {c : SinkCounter} {n : ℤ}
    (hn : sinkSchema.rebuild (.obj stored) c.name = .int n) : loaded stored c.name = n := by
  have hrest : c.name ≠ "deduped" ∧ c.name ≠ "refused" := by cases c <;> decide
  have hkind : sinkSchema.lookup c.name = some .counter := (Place.sink "" c).declared
  rw [rebuild_asStored sinkSchema stored _ _ hkind List.not_mem_nil] at hn
  have hnumber : numberOf (stored.get c.name) = n := by
    rw [← number_stored]
    exact (congrArg numberOf hn).trans rfl
  simp [loaded, hrest, hnumber]

/-- A record read from its entry, or a new one where there is none. -/
theorem rel_loaded {schema : Schema} {name : String} (hkind : schema.lookup name = some .counter)
    {stored : Option Fields} {record : Option Record} {n : ℤ}
    (hrel : Option.Rel (fun stored record => record name = .int n → loaded stored name = n) stored
      record) (hn : record.getD schema.new name = .int n) : loaded (stored.getD []) name = n := by
  cases hrel with
  | none => exact (new_amount hkind).symm.trans (amount_of_eq hn)
  | some hread => exact hread hn

/-- **A store that is constructed counts what its file comes to.** -/
theorem construct_count {json : JsonText} {float : FloatText} {v : Json} {stamp : Utc} {s : Store}
    (h : Store.construct json float v stamp = some s) (htyped : s.doc.Typed) (p : Place) :
    p.loaded (documentOf float v) = s.doc.count p := by
  obtain ⟨doc, hdoc, hsinks, -, hwakes⟩ := construct_doc h
  obtain ⟨hsinkRows, hwakeRows⟩ := fromJson_rows hdoc
  have hwake : ∀ agent, s.doc.wake agent =
      ((doc.agentWakes.lookup agent).map (·.discardQueued float)).getD .new := fun agent => by
    rw [Document.wake, hwakes]
  have hcount := htyped.count p
  cases p with
  | sink route c =>
    have hrow := hsinkRows route
    rw [← hsinks] at hrow
    refine rel_loaded (Place.sink route c).declared ?_ hcount
    generalize s.doc.count (.sink route c) = n
    generalize entry ((documentOf float v).get "delivery_sinks") route = stored at hrow ⊢
    generalize s.doc.deliverySinks.lookup route = record at hrow ⊢
    cases hrow with
    | none => exact .none
    | some hrecord => exact .some fun hn => sink_loaded (by rwa [← hrecord])
  | wake agent c =>
    have hrow := hwakeRows agent
    change (s.doc.wake agent).attributes c.name = _ at hcount
    change loaded ((entry _ agent).getD []) c.name = _
    rw [hwake] at hcount
    generalize entry ((documentOf float v).get "agent_wakes") agent = stored at hrow ⊢
    generalize doc.agentWakes.lookup agent = wake at hrow hcount
    cases hrow with
    | none => exact (new_amount (Place.wake agent c).declared).symm.trans (amount_of_eq hcount)
    | some hread =>
      refine (wake_loaded hread).1 ?_
      rw [← hcount]
      exact (discardQueued_counter _ c).symm
  | row agent route c =>
    have hrow := hwakeRows agent
    change ((s.doc.wake agent).byRoute.lookup route).getD _ c.name = _ at hcount
    change loaded ((entry (((entry _ agent).getD []).get "by_route") route).getD []) c.name = _
    rw [hwake] at hcount
    generalize entry ((documentOf float v).get "agent_wakes") agent = stored at hrow ⊢
    generalize doc.agentWakes.lookup agent = wake at hrow hcount
    cases hrow with
    | none => exact (new_amount (Place.row agent route c).declared).symm.trans (amount_of_eq hcount)
    | some hread =>
      refine rel_loaded (Place.row agent route c).declared ((wake_loaded hread).2 route) ?_
      rw [← hcount, Option.map_some, Option.getD_some, discardQueued_byRoute]
      rfl

/-- A store that is constructed reports nobody queued. -/
theorem construct_queued {json : JsonText} {float : FloatText} {v : Json} {stamp : Utc} {s : Store}
    (h : Store.construct json float v stamp = some s) (htyped : s.doc.Typed) (agent : String) :
    (s.doc.wake agent).attributes "queued" = .int 0 := by
  obtain ⟨doc, -, -, -, hwakes⟩ := construct_doc h
  have hfits := (htyped.wake agent).attributes.counter
    (show agentSchema.lookup "queued" = some .counter from rfl)
  unfold Document.wake at hfits ⊢
  rw [hwakes] at hfits ⊢
  cases hwake : doc.agentWakes.lookup agent with
  | none => rfl
  | some wake =>
    rw [hwake, Option.map_some, Option.getD_some] at hfits
    rw [Option.map_some, Option.getD_some]
    unfold WakeRecord.discardQueued at hfits ⊢
    split
    · simp [Record.set]
    · next hfalsy =>
      rw [if_neg hfalsy] at hfits
      obtain ⟨n, hn⟩ := hfits
      rw [hn] at hfalsy ⊢
      simpa [Json.truthy] using hfalsy

end BasecradleRouter.Evidence
