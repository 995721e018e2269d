/-
# Two granularities, one history

An agent's record counts its outcomes, and so do its rows, one for each route.
`WakeRecord.Coherent` says that they agree: each counter is the sum of its rows', and what the
record says of the last outcome of a kind is what the row of the route that it names says, or there
was none.

A call writes one record and one row of it alike, so it keeps this (`Document.Coherent.record`).
-/
import BasecradleRouter.Evidence.Restart
import BasecradleRouter.Lib.Total

namespace BasecradleRouter.Evidence

open BasecradleRouter.Lib BasecradleRouter.Dedup

/-! ## 1. The outcomes -/

/-- The fields of one outcome: its counter, what an agent's record and a row both keep of the last
one, and what only the agent's record does. -/
structure OutcomeFields where
  counter : String
  shared : List String
  route : String
  synthetic : String
  deriving DecidableEq

namespace OutcomeFields

def ok : OutcomeFields :=
  ⟨"ok", ["last_ok_at", "last_ok_delivery"], "last_ok_route", "last_ok_synthetic"⟩

def failed : OutcomeFields :=
  ⟨"failed", ["last_failed_at", "last_failed_reason"], "last_failed_route",
    "last_failed_synthetic"⟩

def refused : OutcomeFields :=
  ⟨"refused", ["last_refused_at", "last_refused_reason"], "last_refused_route",
    "last_refused_synthetic"⟩

def deduped : OutcomeFields :=
  ⟨"deduped", ["last_deduped_at"], "last_deduped_route", "last_deduped_synthetic"⟩

/-- Every field's name. -/
def names (o : OutcomeFields) : List String := o.counter :: o.route :: o.synthetic :: o.shared

end OutcomeFields

/-- The outcomes that are counted. -/
def outcomes : List OutcomeFields := [.ok, .failed, .refused, .deduped]

/-- What is told of an outcome is told by its own fields. -/
theorem outcome_names : ∀ o ∈ outcomes, o.names.Nodup ∧ "queued" ∉ o.names ∧
    agentSchema.lookup o.counter = some .counter ∧ routeSchema.lookup o.counter = some .counter ∧
    agentSchema.lookup o.route = some .text ∧
    ∀ o' ∈ outcomes, o' ≠ o → ∀ name ∈ o'.names, name ∉ o.names := by
  decide +kernel

/-- **What a call does**: it amends a sink, or an agent's record and one of its rows, each with the
same values of one outcome, or it sets a queue depth or the self test. -/
theorem record_outcome (float : FloatText) (now : Utc) (operation : Operation) :
    (∃ route counter values, ∀ doc : Document, doc.record float now operation =
      doc.amendSink route (Record.count float counter values)) ∨
    (∃ o ∈ outcomes, ∃ agent route synthetic values, values.map Prod.fst = o.shared ∧
      ∀ doc : Document, doc.record float now operation = doc.amendWake agent route
        (Record.count float o.counter
          (values ++ [(o.route, .str route), (o.synthetic, .bool synthetic)]))
        (Record.count float o.counter values)) ∨
    (∃ agent pending, operation = .queueDepth agent pending) ∨
    ∃ status detail, operation = .freezeSelftest status detail := by
  cases operation with
  | deliveryAccepted route => exact Or.inl ⟨route, _, _, fun _ => rfl⟩
  | deliveryRejected route reason => exact Or.inl ⟨route, _, _, fun _ => rfl⟩
  | deliveryDecision route woke => exact Or.inl ⟨route, _, _, fun _ => rfl⟩
  | wakeOk agent delivery route synthetic =>
    exact Or.inr (Or.inl ⟨.ok, by decide, agent, route, synthetic,
      [("last_ok_at", .str now.isoformat), ("last_ok_delivery", .str delivery)], rfl,
      fun _ => rfl⟩)
  | wakeFailed agent reason route synthetic =>
    exact Or.inr (Or.inl ⟨.failed, by decide, agent, route, synthetic,
      [("last_failed_at", .str now.isoformat), ("last_failed_reason", .str (reasonText reason))],
      rfl, fun _ => rfl⟩)
  | wakeRefused agent reason route synthetic =>
    exact Or.inr (Or.inl ⟨.refused, by decide, agent, route, synthetic,
      [("last_refused_at", .str now.isoformat), ("last_refused_reason", .str (reasonText reason))],
      rfl, fun _ => rfl⟩)
  | wakeDeduped agent route synthetic =>
    exact Or.inr (Or.inl ⟨.deduped, by decide, agent, route, synthetic,
      [("last_deduped_at", .str now.isoformat)], rfl, fun _ => rfl⟩)
  | queueDepth agent pending => exact Or.inr (Or.inr (Or.inl ⟨agent, pending, rfl⟩))
  | freezeSelftest status detail => exact Or.inr (Or.inr (Or.inr ⟨status, detail, rfl⟩))

/-! ## 2. Counting -/

section

variable {float : FloatText} {record record' : Record} {counter : String}
  {values : List (String × Json)}

theorem setAll_append (record : Record) (values values' : List (String × Json)) :
    record.setAll (values ++ values') = (record.setAll values).setAll values' :=
  List.foldl_append

/-- A field that no value is for. -/
theorem setAll_of_notMem {name : String} (h : name ∉ values.map Prod.fst) (record : Record) :
    record.setAll values name = record name := by
  induction values generalizing record with
  | nil => rfl
  | cons value values ih =>
    rw [List.map_cons, List.mem_cons, not_or] at h
    have hset : (record.set value.1 value.2) name = record name := Function.update_of_ne h.1 _ _
    exact (ih h.2 (record.set value.1 value.2)).trans hset

/-- A field that a value is for holds the same whatever it held before. -/
theorem setAll_of_mem {name : String} (h : name ∈ values.map Prod.fst) (record record' : Record) :
    record.setAll values name = record'.setAll values name := by
  induction values generalizing record record' with
  | nil => exact absurd h List.not_mem_nil
  | cons value values ih =>
    by_cases hrest : name ∈ values.map Prod.fst
    · exact ih hrest _ _
    · have hname : name = value.1 := (List.mem_cons.mp h).resolve_right hrest
      have hset : ∀ record : Record,
          record.setAll (value :: values) name = (record.set value.1 value.2) name :=
        fun record => setAll_of_notMem hrest _
      rw [hset, hset, hname]
      unfold Record.set
      rw [Function.update_self, Function.update_self]

/-- A counter that is an integer is raised, and the values are set. -/
theorem count_eq {n : ℤ} (hcounter : record counter = .int n)
    (h : Record.count float counter values record = some record') :
    record' = (record.set counter (.int (n + 1))).setAll values := by
  unfold Record.count Record.increment at h
  rw [hcounter] at h
  cases h
  rfl

/-- A count leaves every other field. -/
theorem count_of_notMem {name : String} {n : ℤ} (hcounter : record counter = .int n)
    (h : Record.count float counter values record = some record')
    (hname : name ∉ counter :: values.map Prod.fst) : record' name = record name := by
  rw [List.mem_cons, not_or] at hname
  rw [count_eq hcounter h, setAll_of_notMem hname.2]
  exact Function.update_of_ne hname.1 _ _

theorem count_counter {n : ℤ} (hcounter : record counter = .int n)
    (h : Record.count float counter values record = some record')
    (hname : counter ∉ values.map Prod.fst) : record' counter = .int (n + 1) := by
  rw [count_eq hcounter h, setAll_of_notMem hname]
  exact Function.update_self _ _ _

end

/-- A counter of its type is an integer. -/
theorem Record.Typed.counter {record : Record} {schema : Schema} (h : record.Typed schema)
    {name : String}
    (hkind : schema.lookup name = some .counter) : ∃ n, record name = .int n := by
  have hfits := h.fits name .counter hkind List.not_mem_nil
  cases hv : record name with
  | int n => exact ⟨n, rfl⟩
  | _ =>
    rw [hv] at hfits
    cases hfits

theorem WakeRecord.Typed.row {wake : WakeRecord} (h : wake.Typed) (route : String) :
    ((wake.byRoute.lookup route).getD routeSchema.new).Typed routeSchema := by
  cases hrow : wake.byRoute.lookup route with
  | none => exact new_typed routeSchema
  | some row => exact h.rows route row hrow

/-! ## 3. Coherence -/

/-- What a record holds of a counter. -/
def amount (name : String) (record : Record) : ℤ := (record name).asInt.getD 0

/-- An agent's record agrees with its rows. -/
structure WakeRecord.Coherent (wake : WakeRecord) : Prop where
  /-- Each counter is the sum of the rows'. -/
  sum : ∀ o ∈ outcomes,
    wake.attributes o.counter = .int (total wake.byRoute (amount o.counter))
  /-- The row of the route named is about the same outcome. -/
  told : ∀ o ∈ outcomes, ∀ route, wake.attributes o.route = .str route →
    ∃ row, wake.byRoute.lookup route = some row ∧
      ∀ name ∈ o.shared, row name = wake.attributes name
  /-- Where no route is named there was no such outcome. -/
  untold : ∀ o ∈ outcomes, wake.attributes o.route = .null → wake.attributes o.counter = .int 0

/-- Every agent's record agrees with its rows. -/
def Document.Coherent (doc : Document) : Prop := ∀ agent, (doc.wake agent).Coherent

theorem new_coherent : WakeRecord.new.Coherent := by
  have hdefault : ∀ {name kind}, agentSchema.lookup name = some kind →
      WakeRecord.new.attributes name = kind.default := by
    intro name kind hkind
    show agentSchema.new name = kind.default
    rw [Schema.new, hkind]
  refine ⟨fun o ho => ?_, fun o ho route h => ?_, fun o ho _ => ?_⟩
  · obtain ⟨-, -, hcounter, -⟩ := outcome_names o ho
    exact hdefault hcounter
  · obtain ⟨-, -, -, -, hroute, -⟩ := outcome_names o ho
    rw [hdefault hroute] at h
    cases h
  · obtain ⟨-, -, hcounter, -⟩ := outcome_names o ho
    exact hdefault hcounter

/-- The queue depth is no part of it. -/
theorem WakeRecord.Coherent.queued {wake : WakeRecord} (h : wake.Coherent) (v : Json) :
    WakeRecord.Coherent ⟨wake.attributes.set "queued" v, wake.byRoute⟩ := by
  have hsame : ∀ o ∈ outcomes, ∀ name ∈ o.names,
      wake.attributes.set "queued" v name = wake.attributes name := by
    intro o ho name hname
    obtain ⟨-, hqueued, -⟩ := outcome_names o ho
    exact Function.update_of_ne (ne_of_mem_of_not_mem hname hqueued) _ _
  refine ⟨fun o ho => ?_, fun o ho route hroute => ?_, fun o ho hroute => ?_⟩
  · exact (hsame o ho o.counter (by simp [OutcomeFields.names])).trans (h.sum o ho)
  · dsimp only at hroute ⊢
    rw [hsame o ho o.route (by simp [OutcomeFields.names])] at hroute
    obtain ⟨row, hrow, hshared⟩ := h.told o ho route hroute
    refine ⟨row, hrow, fun name hname => ?_⟩
    rw [hsame o ho name (by simp [OutcomeFields.names, hname])]
    exact hshared name hname
  · dsimp only at hroute ⊢
    rw [hsame o ho o.route (by simp [OutcomeFields.names])] at hroute
    rw [hsame o ho o.counter (by simp [OutcomeFields.names])]
    exact h.untold o ho hroute

theorem WakeRecord.Coherent.since {wake : WakeRecord} (h : wake.Coherent) (reported : Bool) :
    (wake.since reported).Coherent := by
  cases reported with
  | true => exact h
  | false => exact h.queued (.int 0)

/-- One more of an outcome, in a record and in one of its rows: what each held before and holds
after. -/
structure Counted (o : OutcomeFields) (route : String)
    (attributes row attributes' row' : Record) : Prop where
  raised : ∃ n, attributes o.counter = .int n ∧ attributes' o.counter = .int (n + 1)
  rowRaised : ∃ m, row o.counter = .int m ∧ row' o.counter = .int (m + 1)
  told : attributes' o.route = .str route
  shared : ∀ name ∈ o.shared, row' name = attributes' name
  others : ∀ o' ∈ outcomes, o' ≠ o → ∀ name ∈ o'.names,
    attributes' name = attributes name ∧ row' name = row name

/-- **What counting an outcome does.** -/
theorem counted {float : FloatText} {o : OutcomeFields} (ho : o ∈ outcomes) {route : String}
    {synthetic : Bool} {values : List (String × Json)} (hvalues : values.map Prod.fst = o.shared)
    {attributes row attributes' row' : Record} (hattributesTyped : attributes.Typed agentSchema)
    (hrowTyped : row.Typed routeSchema)
    (hattributes : Record.count float o.counter
      (values ++ [(o.route, .str route), (o.synthetic, .bool synthetic)]) attributes =
        some attributes')
    (hrow : Record.count float o.counter values row = some row') :
    Counted o route attributes row attributes' row' := by
  obtain ⟨hnodup, -, hagentCounter, hrouteCounter, -, hothers⟩ := outcome_names o ho
  simp only [OutcomeFields.names, List.nodup_cons, List.mem_cons, not_or] at hnodup
  obtain ⟨⟨hcounterRoute, hcounterSynthetic, hcounterShared⟩, ⟨hrouteSynthetic, hrouteShared⟩,
    hsyntheticShared, -⟩ := hnodup
  have hnames : (values ++ [(o.route, Json.str route), (o.synthetic, .bool synthetic)]).map
      Prod.fst = o.shared ++ [o.route, o.synthetic] := by
    rw [List.map_append, hvalues]
    rfl
  obtain ⟨n, hn⟩ := hattributesTyped.counter hagentCounter
  obtain ⟨m, hm⟩ := hrowTyped.counter hrouteCounter
  refine ⟨⟨n, hn, count_counter hn hattributes ?_⟩, ⟨m, hm, count_counter hm hrow ?_⟩, ?_, ?_, ?_⟩
  · rw [hnames]
    simp [hcounterShared, hcounterRoute, hcounterSynthetic]
  · rwa [hvalues]
  · rw [count_eq hn hattributes, setAll_append]
    show Record.set _ o.synthetic _ o.route = _
    unfold Record.set
    rw [Function.update_of_ne hrouteSynthetic, Function.update_self]
  · intro name hname
    have hout : name ∉ [(o.route, Json.str route), (o.synthetic, .bool synthetic)].map
        Prod.fst := by
      simp only [List.map_cons, List.map_nil, List.mem_cons, List.not_mem_nil, or_false, not_or]
      exact ⟨ne_of_mem_of_not_mem hname hrouteShared, ne_of_mem_of_not_mem hname hsyntheticShared⟩
    rw [count_eq hn hattributes, count_eq hm hrow, setAll_append, setAll_of_notMem hout]
    exact setAll_of_mem (by rwa [hvalues]) _ _
  · intro o' ho' hne name hname
    have hout := hothers o' ho' hne name hname
    simp only [OutcomeFields.names, List.mem_cons, not_or] at hout
    obtain ⟨hcounter, hroute, hsynthetic, hshared⟩ := hout
    refine ⟨count_of_notMem hn hattributes ?_, count_of_notMem hm hrow ?_⟩
    · rw [hnames]
      simp [hcounter, hroute, hsynthetic, hshared]
    · rw [hvalues]
      simp [hcounter, hshared]

/-- A row that is not there yet counts as a new one. -/
theorem share_amount {o : OutcomeFields} (ho : o ∈ outcomes) (row : Option Record) :
    share (amount o.counter) row = amount o.counter (row.getD routeSchema.new) := by
  cases row with
  | none =>
    obtain ⟨-, -, -, hcounter, -⟩ := outcome_names o ho
    have hzero : routeSchema.new o.counter = .int 0 := by
      rw [Schema.new, hcounter]
      rfl
    rw [share_none, Option.getD_none, amount, hzero]
    rfl
  | some row => rfl

theorem amount_of_eq {name : String} {record : Record} {n : ℤ} (h : record name = .int n) :
    amount name record = n := by
  rw [amount, h]
  rfl

/-- **One outcome counted in a record and in one of its rows.** -/
theorem WakeRecord.Coherent.count {wake : WakeRecord} (h : wake.Coherent) {o : OutcomeFields}
    {route : String} {attributes row : Record}
    (hcounted : Counted o route wake.attributes ((wake.byRoute.lookup route).getD routeSchema.new)
      attributes row) : WakeRecord.Coherent ⟨attributes, wake.byRoute.insert route row⟩ := by
  obtain ⟨⟨n, hn, hn'⟩, ⟨m, hm, hm'⟩, htold', hshared', hothers⟩ := hcounted
  have hcounter : ∀ o : OutcomeFields, o.counter ∈ o.names := fun _ => List.mem_cons_self
  have hroute : ∀ o : OutcomeFields, o.route ∈ o.names := by simp [OutcomeFields.names]
  have hshared : ∀ (o : OutcomeFields), ∀ name ∈ o.shared, name ∈ o.names := by
    intro o name hname
    simp [OutcomeFields.names, hname]
  refine ⟨fun o' ho' => ?_, fun o' ho' route' htold => ?_, fun o' ho' huntold => ?_⟩
  · have htotal := total_insert wake.byRoute route row (amount o'.counter)
    rw [share_amount ho'] at htotal
    dsimp only
    by_cases heq : o' = o
    · subst heq
      have hsum := h.sum o' ho'
      rw [hn, Json.int.injEq] at hsum
      rw [amount_of_eq hm, amount_of_eq hm'] at htotal
      rw [hn', Json.int.injEq]
      omega
    · obtain ⟨hattribute, hrow⟩ := hothers o' ho' heq o'.counter (hcounter o')
      have hamount : amount o'.counter row =
          amount o'.counter ((wake.byRoute.lookup route).getD routeSchema.new) := by
        unfold amount
        rw [hrow]
      rw [hamount] at htotal
      rw [hattribute, h.sum o' ho', add_right_cancel htotal]
  · dsimp only at htold ⊢
    by_cases heq : o' = o
    · subst heq
      rw [htold'] at htold
      cases htold
      exact ⟨row, Finmap.lookup_insert _, hshared'⟩
    · rw [(hothers o' ho' heq o'.route (hroute o')).1] at htold
      obtain ⟨row', hrow', hsame⟩ := h.told o' ho' route' htold
      have hkept := fun name hname => hothers o' ho' heq name (hshared o' name hname)
      by_cases hrouteSame : route' = route
      · -- the row that was told of is the one that is written, in other fields
        subst hrouteSame
        refine ⟨row, Finmap.lookup_insert _, fun name hname => ?_⟩
        rw [(hkept name hname).1, (hkept name hname).2, hrow']
        exact hsame name hname
      · refine ⟨row', by rw [Finmap.lookup_insert_of_ne _ hrouteSame]; exact hrow', ?_⟩
        intro name hname
        rw [(hkept name hname).1]
        exact hsame name hname
  · dsimp only at huntold ⊢
    by_cases heq : o' = o
    · subst heq
      rw [htold'] at huntold
      cases huntold
    · rw [(hothers o' ho' heq o'.route (hroute o')).1] at huntold
      rw [(hothers o' ho' heq o'.counter (hcounter o')).1]
      exact h.untold o' ho' huntold

namespace Document.Coherent

variable {doc doc' : Document} {float : FloatText}

/-- An agent's record put in the document. -/
theorem putWake (h : doc.Coherent) (agent : String) {wake : WakeRecord} (hwake : wake.Coherent) :
    Document.Coherent { doc with agentWakes := doc.agentWakes.insert agent wake } := by
  intro agent'
  unfold Document.wake
  by_cases heq : agent' = agent
  · subst heq
    rw [Finmap.lookup_insert]
    exact hwake
  · rw [Finmap.lookup_insert_of_ne _ heq]
    exact h agent'

/-- **A call keeps the two granularities in agreement.** -/
theorem record (h : doc.Coherent) (htyped : doc.Typed) {now : Utc} {operation : Operation}
    (hrecord : doc.record float now operation = some doc') : doc'.Coherent := by
  rcases record_outcome float now operation with ⟨route, counter, values, hdoes⟩ |
    ⟨o, ho, agent, route, synthetic, values, hvalues, hdoes⟩ | ⟨agent, pending, rfl⟩ |
    ⟨status, detail, rfl⟩
  · rw [hdoes, Document.amendSink] at hrecord
    obtain ⟨sink, -, hdoc'⟩ := Option.bind_eq_some_iff.mp hrecord
    cases hdoc'
    exact h
  · rw [hdoes, Document.amendWake] at hrecord
    obtain ⟨attributes, hattributes, hrecord⟩ := Option.bind_eq_some_iff.mp hrecord
    obtain ⟨row, hrow, hdoc'⟩ := Option.bind_eq_some_iff.mp hrecord
    cases hdoc'
    have hrowTyped : (((doc.wake agent).byRoute.lookup route).getD routeSchema.new).Typed
        routeSchema := (htyped.wake agent).row route
    exact h.putWake agent ((h agent).count
      (counted ho hvalues (htyped.wake agent).attributes hrowTyped hattributes hrow))
  · cases hrecord
    exact h.putWake agent ((h agent).queued _)
  · cases hrecord
    exact h

theorem follows {strict : Prop} {reported : String → Bool} (h : doc.Coherent)
    (hfollows : doc'.Follows strict reported doc) : doc'.Coherent := by
  intro agent
  rw [hfollows.wakes]
  exact (h agent).since _

end Document.Coherent

/-! ## 4. Whatever reaches the disk

A flush that cannot be written leaves the file as it was, and a restart then loads an earlier
document.  A property that a restart keeps holds of the document in memory and of the one on disk.
-/

/-- What a store goes through: a call or a restart, and whether what it flushes reaches the file. -/
inductive Happening
  | record (call : Timed) (reaches : Bool)
  | restart (stamp : Utc) (reaches : Bool)

namespace Store

/-- A store whose flush reached the file, or did not. -/
def flushed (s s' : Store) (reaches : Bool) : Store := if reaches then s' else ⟨s'.doc, s.file⟩

/-- One event. -/
def happen (json : JsonText) (float : FloatText) (s : Store) : Happening → Option Store
  | .record call reaches => (s.apply json float call).map fun s' => s.flushed s' reaches
  | .restart stamp reaches =>
    (Store.construct json float s.file stamp).map fun s' => s.flushed s' reaches

/-- Events one after another. -/
def happenAll (json : JsonText) (float : FloatText) (s : Store) (events : List Happening) :
    Option Store :=
  events.foldlM (fun s event => s.happen json float event) s

/-- One event, and then the others. -/
theorem happenAll_cons {json : JsonText} {float : FloatText} {s s' : Store} {event : Happening}
    (h : s.happen json float event = some s') (events : List Happening) :
    s.happenAll json float (event :: events) = s'.happenAll json float events := by
  unfold happenAll
  rw [List.foldlM_cons, h]
  rfl

@[simp] theorem flushed_doc (s s' : Store) (reaches : Bool) :
    (s.flushed s' reaches).doc = s'.doc := by
  cases reaches <;> rfl

theorem flushed_file (s s' : Store) (reaches : Bool) :
    (s.flushed s' reaches).file = s'.file ∨ (s.flushed s' reaches).file = s.file := by
  cases reaches with
  | true => exact Or.inl rfl
  | false => exact Or.inr rfl

end Store

/-- A property of documents that does not depend on when they were flushed, nor on queue depths. -/
structure Durable (P : Document → Prop) : Prop where
  settled : ∀ {doc}, P doc → doc.Settled
  follows : ∀ {doc doc' reported}, P doc → doc'.Settled → doc'.Follows False reported doc → P doc'

/-- The document in memory and the one on disk, each with its property. -/
structure Sound (float : FloatText) (P Q : Document → Prop) (s : Store) : Prop where
  doc : P s.doc
  file : ∃ doc, Document.fromJson float s.file = some doc ∧ Q doc

section

variable {json : JsonText} {float : FloatText} {P P' Q : Document → Prop} {s : Store}

theorem Durable.stamped (hP : Durable P) {doc doc' : Document} (h : P doc)
    (heq : doc' = { doc with updatedAt := doc'.updatedAt }) : P doc' := by
  have hsettled := hP.settled h
  have hfollows : ({ doc with updatedAt := doc'.updatedAt } : Document).Follows False
      (fun _ => true) doc := ⟨rfl, rfl, fun _ => rfl, nofun⟩
  rw [heq]
  exact hP.follows h ⟨⟨hsettled.typed.sinks, hsettled.typed.wakes, hsettled.typed.selfTest⟩,
    hsettled.wakes⟩ hfollows

/-- **A call** takes one property of the document to another, and the file follows or stays. -/
theorem Sound.record (json : JsonText) (h : Sound float P Q s) (hP : Durable P) (hP' : Durable P')
    (hQ : ∀ {doc}, P' doc → Q doc) {call : Timed} (hcall : ¬ call.operation.RefusesDuplicate)
    (hstep : ∀ doc', s.doc.record float call.now call.operation = some doc' → P' doc')
    (reaches : Bool) : ∃ s', s.happen json float (.record call reaches) = some s' ∧
      Sound float P' Q s' := by
  obtain ⟨s', doc', hs', hdoc', hsettled, hmade⟩ :=
    Store.apply_settled float json (hP.settled h.doc) call hcall
  have hstamped : s'.doc = { doc' with updatedAt := s'.doc.updatedAt } := by
    rcases hmade with rfl | ⟨rfl, -⟩
    · rfl
    · rfl
  have hafter : P' s'.doc := hP'.stamped (hstep doc' hdoc') hstamped
  unfold Store.happen
  dsimp only
  rw [hs']
  refine ⟨_, rfl, ?_, ?_⟩
  · rw [Store.flushed_doc]
    exact hafter
  · rcases s.flushed_file s' reaches with hfile | hfile
    · rw [hfile]
      rcases hmade with rfl | ⟨rfl, -⟩
      · exact ⟨_, fromJson_toJson (hP'.settled hafter), hQ hafter⟩
      · exact h.file
    · rw [hfile]
      exact h.file

/-- **A restart** loads the document on disk, and clears its queue depths. -/
theorem Sound.restart (json : JsonText) (h : Sound float P Q s) (hQ : Durable Q) (stamp : Utc)
    (reaches : Bool) : ∃ s', s.happen json float (.restart stamp reaches) = some s' ∧
      Sound float Q Q s' := by
  obtain ⟨doc, hread, hdoc⟩ := h.file
  obtain ⟨s', hs', hkept, hfollows⟩ :=
    Store.construct_kept json (hQ.settled hdoc) hread stamp
  have hafter : Q s'.doc := hQ.follows hdoc hkept.doc
    ⟨hfollows.sinks, hfollows.selfTest, hfollows.wakes, nofun⟩
  unfold Store.happen
  dsimp only
  rw [hs']
  refine ⟨_, rfl, ?_, ?_⟩
  · rw [Store.flushed_doc]
    exact hafter
  · rcases s.flushed_file s' reaches with hfile | hfile
    · rw [hfile]
      obtain ⟨doc'', hsettled, hread', hfollows'⟩ := hkept.file
      exact ⟨doc'', hread', hQ.follows hafter hsettled hfollows'⟩
    · rw [hfile]
      exact ⟨doc, hread, hdoc⟩

end

/-- A document that is settled and coherent. -/
def Document.Agrees (doc : Document) : Prop := doc.Settled ∧ doc.Coherent

theorem agrees_durable : Durable Document.Agrees where
  settled h := h.1
  follows h hsettled hfollows := ⟨hsettled, h.2.follows hfollows⟩

theorem new_sound {float : FloatText} {P : Document → Prop} (h : P .empty) :
    Sound float P P .new :=
  ⟨h, .empty, rfl, h⟩

theorem empty_agrees : Document.empty.Agrees :=
  ⟨(Store.new_kept : Store.new.Kept .unread).doc, fun _ => new_coherent⟩

end BasecradleRouter.Evidence
