/-
# Loading a document that any build may have written

`from_json` promises that an unusable field falls back to its default.  It drops what is no entry
(`items`), but an entry's fields it takes as they are, whatever their type.

`Tolerable` is what a file must be like for that to do no harm: every field that is kept has the
type declared, but for what `_reclassify_legacy_dedup` and `_discard_stale_queue_depths` put right.
`construct_typed_iff`: the store is constructed, with every field of its declared type, exactly if
the file is tolerable; and it then takes every later call (`Store.applyAll_typed`).
-/
import BasecradleRouter.Evidence.Stored

namespace BasecradleRouter.Evidence

open BasecradleRouter.Lib BasecradleRouter.Dedup

/-! ## 1. Rows -/

/-- The entry of a dict under a key, if it is a dict itself. -/
def entry (v : Json) (key : String) : Option Fields := ((v.asObj.getD []).get key).asObj

theorem mem_of_lookup {α : Type} {l : List (String × α)} {key : String} {a : α}
    (h : l.lookup key = some a) : (key, a) ∈ l := by
  obtain ⟨l₁, l₂, rfl, -⟩ := List.lookup_eq_some_iff.mp h
  simp

/-- Under a key that stands for one thing that is found. -/
theorem lookup_of_mem {α : Type} {l : List (String × α)} {key : String} {a : α}
    (hmem : (key, a) ∈ l) (hone : ∀ b, (key, b) ∈ l → b = a) : l.lookup key = some a := by
  cases h : l.lookup key with
  | none => exact absurd (List.lookup_eq_none_iff.mp h _ hmem) (by simp)
  | some b => rw [hone b (mem_of_lookup h)]

theorem mem_items {v : Json} {key : String} {fields : Fields} :
    (key, fields) ∈ items v ↔ entry v key = some fields := by
  unfold items entry
  simp only [List.mem_filterMap, Option.map_eq_some_iff, Prod.mk.injEq]
  constructor
  · rintro ⟨field, -, fields', hentry, rfl, rfl⟩
    exact hentry
  · intro h
    have hmem : ∃ w, ((v.asObj.getD []).lookup key) = some w := by
      unfold Fields.get at h
      cases hlookup : (v.asObj.getD []).lookup key with
      | none =>
        rw [hlookup] at h
        cases h
      | some w => exact ⟨w, rfl⟩
    obtain ⟨w, hw⟩ := hmem
    exact ⟨(key, w), mem_of_lookup hw, fields, h, rfl, rfl⟩

theorem lookup_ofItems {α : Type} {l : List (String × α)} {key : String} :
    (ofItems l).lookup key = l.lookup key := by
  induction l with
  | nil => rfl
  | cons item l ih =>
    obtain ⟨key', a⟩ := item
    unfold ofItems at ih ⊢
    rw [List.foldr_cons, List.lookup_cons]
    by_cases hkey : key = key'
    · subst hkey
      simp [Finmap.lookup_insert]
    · have hne : (key == key') = false := by simpa using hkey
      rw [Finmap.lookup_insert_of_ne _ hkey, ih, hne]

theorem mem_sortedItems {α : Type} {rows : Rows α} {name : String} {a : α} :
    (name, a) ∈ sortedItems rows ↔ rows.lookup name = some a := by
  unfold sortedItems
  simp only [List.mem_filterMap, PyStr.mem_sorted, Option.map_eq_some_iff, Prod.mk.injEq]
  constructor
  · rintro ⟨name', -, a', hlookup, rfl, rfl⟩
    exact hlookup
  · intro h
    exact ⟨name, Finmap.mem_keys.mpr (Finmap.mem_of_lookup_eq_some h), a, h, rfl, rfl⟩

/-- Items changed one by one. -/
theorem lookup_map_sortedItems {α β : Type} {rows : Rows α} (g : α → β) (name : String) :
    ((sortedItems rows).map fun item => (item.1, g item.2)).lookup name =
      (rows.lookup name).map g := by
  have hmem : ∀ b, (name, b) ∈ (sortedItems rows).map (fun item => (item.1, g item.2)) ↔
      ∃ a, rows.lookup name = some a ∧ g a = b := by
    intro b
    simp only [List.mem_map, Prod.exists, mem_sortedItems, Prod.mk.injEq]
    constructor
    · rintro ⟨name', a, hlookup, rfl, rfl⟩
      exact ⟨a, hlookup, rfl⟩
    · rintro ⟨a, hlookup, rfl⟩
      exact ⟨name, a, hlookup, rfl, rfl⟩
  cases h : rows.lookup name with
  | none =>
    rw [Option.map_none, List.lookup_eq_none_iff]
    rintro ⟨name', b⟩ hin
    by_contra hne
    have heq : name = name' := by simpa using hne
    subst heq
    obtain ⟨a, ha, -⟩ := (hmem b).mp hin
    rw [h] at ha
    cases ha
  | some a =>
    refine lookup_of_mem ((hmem (g a)).mpr ⟨a, h, rfl⟩) fun b hb => ?_
    obtain ⟨a', ha', rfl⟩ := (hmem b).mp hb
    rw [h] at ha'
    cases ha'
    rfl

section

variable {α : Type} {f : Fields → Option α} {v : Json}

/-- Reading entries by one rule: each reads, or one does not. -/
theorem mapM_items : ∀ {l : List (String × Fields)},
    (∃ rows, l.mapM (fun item => (f item.2).map fun row => (item.1, row)) = some rows ∧
      (∀ item ∈ l, ∃ a, f item.2 = some a ∧ (item.1, a) ∈ rows) ∧
      ∀ key a, (key, a) ∈ rows → ∃ fields, (key, fields) ∈ l ∧ f fields = some a) ∨
    (l.mapM (fun item => (f item.2).map fun row => (item.1, row)) = none ∧
      ∃ item ∈ l, f item.2 = none)
  | [] => Or.inl ⟨[], rfl, nofun, nofun⟩
  | item :: l => by
    rw [List.mapM_cons]
    cases hitem : f item.2 with
    | none => exact Or.inr ⟨rfl, item, List.mem_cons_self, hitem⟩
    | some a =>
      rcases mapM_items (l := l) with ⟨rows, hrows, hread, hmem⟩ | ⟨hnone, item', hmem, hitem'⟩
      · refine Or.inl ⟨(item.1, a) :: rows, by simp [hrows], ?_, ?_⟩
        · intro item' hin
          rcases List.mem_cons.mp hin with rfl | hin
          · exact ⟨a, hitem, List.mem_cons_self⟩
          · obtain ⟨a', ha', hmem'⟩ := hread item' hin
            exact ⟨a', ha', List.mem_cons_of_mem _ hmem'⟩
        · intro key b hin
          rcases List.mem_cons.mp hin with heq | hin
          · cases heq
            exact ⟨item.2, List.mem_cons_self, hitem⟩
          · obtain ⟨fields, hfields, hb⟩ := hmem key b hin
            exact ⟨fields, List.mem_cons_of_mem _ hfields, hb⟩
      · exact Or.inr ⟨by simp [hnone], item', List.mem_cons_of_mem _ hmem, hitem'⟩

/-- Rows are read where each entry is, and a row is then what its entry reads as. -/
theorem rebuildRows_spec :
    (∃ rows, rebuildRows f v = some rows ∧ (∀ key, rows.lookup key = (entry v key).bind f) ∧
      ∀ key fields, entry v key = some fields → ∃ a, f fields = some a) ∨
    (rebuildRows f v = none ∧ ∃ key fields, entry v key = some fields ∧ f fields = none) := by
  unfold rebuildRows
  rcases mapM_items (f := f) (l := items v) with ⟨rows, hrows, hread, hmem⟩ | ⟨hnone, item, hin, hf⟩
  · rw [hrows]
    refine Or.inl ⟨ofItems rows, rfl, ?_, ?_⟩
    · intro key
      rw [lookup_ofItems]
      cases hentry : entry v key with
      | none =>
        -- no row without an entry
        cases hlookup : rows.lookup key with
        | none => rfl
        | some a =>
          obtain ⟨fields, hfields, -⟩ := hmem key a (mem_of_lookup hlookup)
          rw [mem_items.mp hfields] at hentry
          cases hentry
      | some fields =>
        obtain ⟨a, ha, hin⟩ := hread (key, fields) (mem_items.mpr hentry)
        refine (lookup_of_mem hin fun b hb => ?_).trans ha.symm
        obtain ⟨fields', hfields', hb'⟩ := hmem key b hb
        rw [mem_items.mp hfields'] at hentry
        cases hentry
        exact Option.some.inj (hb'.symm.trans ha)
    · intro key fields hentry
      obtain ⟨a, ha, -⟩ := hread (key, fields) (mem_items.mpr hentry)
      exact ⟨a, ha⟩
  · rw [hnone]
    exact Or.inr ⟨rfl, item.1, item.2, mem_items.mp hin, hf⟩

/-- Rows that hold what every entry reads as are what is read. -/
theorem rebuildRows_eq {rows : Rows α}
    (hlookup : ∀ key, (entry v key).bind f = rows.lookup key)
    (hread : ∀ key fields, entry v key = some fields → ∃ a, f fields = some a) :
    rebuildRows f v = some rows := by
  rcases rebuildRows_spec (f := f) (v := v) with
    ⟨rows', hrows', hlookup', -⟩ | ⟨-, key, fields, hfields, hnone⟩
  · rw [hrows']
    congr 1
    exact Finmap.ext_lookup fun key => (hlookup' key).trans (hlookup key)
  · obtain ⟨a, ha⟩ := hread key fields hfields
    rw [hnone] at ha
    cases ha

/-- Rows are read, with a property, where each entry is. -/
theorem rebuildRows_all {P : α → Prop} :
    (∃ rows, rebuildRows f v = some rows ∧ ∀ key a, rows.lookup key = some a → P a) ↔
      ∀ key fields, entry v key = some fields → ∃ a, f fields = some a ∧ P a := by
  rcases rebuildRows_spec (f := f) (v := v) with
    ⟨rows, hrows, hlookup, hread⟩ | ⟨hnone, key, fields, hentry, hf⟩
  · rw [hrows]
    constructor
    · rintro ⟨rows', hrows', hall⟩ key fields hentry
      cases hrows'
      obtain ⟨a, ha⟩ := hread key fields hentry
      refine ⟨a, ha, hall key a ?_⟩
      rw [hlookup, hentry]
      exact ha
    · intro hall
      refine ⟨rows, rfl, fun key a ha => ?_⟩
      rw [hlookup] at ha
      obtain ⟨fields, hentry, hfields⟩ := Option.bind_eq_some_iff.mp ha
      obtain ⟨a', ha', hP⟩ := hall key fields hentry
      cases Option.some.inj (hfields.symm.trans ha')
      exact hP
  · rw [hnone]
    refine iff_of_false (by simp) fun hall => ?_
    obtain ⟨a, ha, -⟩ := hall key fields hentry
    rw [hf] at ha
    cases ha

end

/-! ## 2. Records -/

/-- The declared fields of a record have their types, those in `skip` apart. -/
def Record.Fits (schema : Schema) (skip : List String) (record : Record) : Prop :=
  ∀ name kind, schema.lookup name = some kind → name ∉ skip → kind.fits (record name) = true

/-- A record holds nothing but declared fields. -/
def Record.Declared (schema : Schema) (record : Record) : Prop :=
  ∀ name, schema.lookup name = none → record name = .null

/-- A record of its schema: each declared field of its type, and no other. -/
structure Record.Typed (schema : Schema) (record : Record) : Prop where
  fits : record.Fits schema []
  declared : record.Declared schema

/-- The fields kept of an entry have the types declared, those in `skip` apart. -/
def Fits (schema : Schema) (skip : List String) (fields : Fields) : Prop :=
  ∀ name kind v, schema.lookup name = some kind → name ∉ skip → fields.lookup name = some v →
    kind.fits v = true

theorem fits_default (kind : FieldKind) : kind.fits kind.default = true := by
  cases kind <;> rfl

theorem new_typed (schema : Schema) : schema.new.Typed schema where
  fits name kind h _ := by
    rw [Schema.new, h]
    exact fits_default kind
  declared name h := by rw [Schema.new, h]

theorem rebuild_declared (schema : Schema) (v : Json) : (schema.rebuild v).Declared schema := by
  intro name hname
  rw [Schema.rebuild, hname]

/-- What is rebuilt fits where the fields kept do. -/
theorem rebuild_fits {schema : Schema} {skip : List String} {fields : Fields} :
    (schema.rebuild (.obj fields)).Fits schema skip ↔ Fits schema skip fields := by
  constructor
  · intro h name kind v hkind hskip hv
    have hfits := h name kind hkind hskip
    rw [Schema.rebuild, hkind] at hfits
    simpa [Json.asObj, hv] using hfits
  · intro h name kind hkind hskip
    rw [Schema.rebuild, hkind]
    cases hv : fields.lookup name with
    | none => simpa [Json.asObj, hv] using fits_default kind
    | some v => simpa [Json.asObj, hv] using h name kind v hkind hskip hv

theorem rebuild_of_not_obj {schema : Schema} {v : Json} (h : v.asObj = none) :
    schema.rebuild v = schema.new := by
  funext name
  simp [Schema.rebuild, Schema.new, h]

/-- An attribute without a default of its own is what the entry holds. -/
theorem rebuild_apply {schema : Schema} {fields : Fields} {name : String} {kind : FieldKind}
    (hkind : schema.lookup name = some kind) (hdefault : kind.default = .null) :
    schema.rebuild (.obj fields) name = fields.get name := by
  rw [Schema.rebuild, hkind, Fields.get, ← hdefault]
  rfl

theorem Record.Declared.set {schema : Schema} {record : Record} (h : record.Declared schema)
    {name : String} {kind : FieldKind} (hkind : schema.lookup name = some kind) (v : Json) :
    (record.set name v).Declared schema := by
  intro name' hname'
  unfold Record.set
  rw [Function.update_apply]
  split
  · next heq =>
    rw [heq, hkind] at hname'
    cases hname'
  · exact h name' hname'

/-- After a field is set, it fits if the value does and the rest did. -/
theorem set_fits {schema : Schema} {skip : List String} {record : Record} {name : String}
    {kind : FieldKind} {v : Json} (hkind : schema.lookup name = some kind) (hskip : name ∉ skip) :
    (record.set name v).Fits schema skip ↔
      kind.fits v = true ∧ record.Fits schema (name :: skip) := by
  unfold Record.set
  constructor
  · intro h
    refine ⟨?_, fun name' kind' hkind' hskip' => ?_⟩
    · simpa using h name kind hkind hskip
    · rw [List.mem_cons, not_or] at hskip'
      have hfits := h name' kind' hkind' hskip'.2
      rwa [Function.update_of_ne hskip'.1] at hfits
  · rintro ⟨hv, h⟩ name' kind' hkind' hskip'
    rw [Function.update_apply]
    split
    · next heq =>
      rw [heq, hkind] at hkind'
      cases hkind'
      exact hv
    · next hne => exact h name' kind' hkind' (by simp [hne, hskip'])

/-- A field set to a value of its type. -/
theorem Record.Typed.set {schema : Schema} {record : Record} (h : record.Typed schema)
    {name : String} {kind : FieldKind} {v : Json} (hkind : schema.lookup name = some kind)
    (hv : kind.fits v = true) : (record.set name v).Typed schema where
  fits := (set_fits hkind List.not_mem_nil).mpr
    ⟨hv, fun name' kind' hkind' _ => h.fits name' kind' hkind' List.not_mem_nil⟩
  declared := h.declared.set hkind v

/-- A counter of its type is raised, and stays of its type. -/
theorem Record.Typed.increment (float : FloatText) {schema : Schema} {record : Record}
    (h : record.Typed schema) {name : String} (hkind : schema.lookup name = some .counter) :
    ∃ record', record.increment float name = some record' ∧ record'.Typed schema := by
  have hfits := h.fits name .counter hkind List.not_mem_nil
  unfold Record.increment
  cases hv : record name with
  | int i => exact ⟨_, rfl, h.set hkind rfl⟩
  | _ =>
    rw [hv] at hfits
    cases hfits

/-- Values of declared fields, each of its type. -/
def AllFit (schema : Schema) (values : List (String × Json)) : Prop :=
  (values.all fun value => (schema.lookup value.1).any (·.fits value.2)) = true

theorem Record.Typed.setAll {schema : Schema} {values : List (String × Json)} {record : Record}
    (h : record.Typed schema) (hvalues : AllFit schema values) :
    (record.setAll values).Typed schema := by
  induction values generalizing record with
  | nil => exact h
  | cons value values ih =>
    unfold AllFit at hvalues
    rw [List.all_cons, Bool.and_eq_true, Option.any_eq_true] at hvalues
    obtain ⟨⟨kind, hkind, hfits⟩, hrest⟩ := hvalues
    exact ih (h.set hkind hfits) hrest

/-- One more of a counter. -/
theorem Record.Typed.count (float : FloatText) {schema : Schema} {record : Record}
    (h : record.Typed schema) {counter : String} (hcounter : schema.lookup counter = some .counter)
    {values : List (String × Json)} (hvalues : AllFit schema values) :
    ∃ record', Record.count float counter values record = some record' ∧ record'.Typed schema := by
  obtain ⟨record', hrecord', htyped⟩ := h.increment float hcounter
  unfold Record.count
  rw [hrecord']
  exact ⟨_, rfl, htyped.setAll hvalues⟩

/-! ## 3. A document of its types takes every call -/

/-- An agent's record of its types. -/
structure WakeRecord.Typed (wake : WakeRecord) : Prop where
  attributes : wake.attributes.Typed agentSchema
  rows : ∀ route row, wake.byRoute.lookup route = some row → row.Typed routeSchema

/-- A document whose counters are integers, its other fields of the types declared. -/
structure Document.Typed (doc : Document) : Prop where
  sinks : ∀ route sink, doc.deliverySinks.lookup route = some sink → sink.Typed sinkSchema
  wakes : ∀ agent wake, doc.agentWakes.lookup agent = some wake → wake.Typed
  selfTest : doc.freezeSelftest.Typed selfTestSchema

theorem new_wake_typed : WakeRecord.new.Typed where
  attributes := new_typed agentSchema
  rows _ _ h := by
    simp [WakeRecord.new] at h

theorem empty_typed : Document.empty.Typed where
  sinks _ _ h := by simp [Document.empty] at h
  wakes _ _ h := by simp [Document.empty] at h
  selfTest := new_typed selfTestSchema

namespace Document.Typed

variable {doc : Document} {float : FloatText}

theorem sink (h : doc.Typed) (route : String) : (doc.sink route).Typed sinkSchema := by
  unfold Document.sink
  cases hsink : doc.deliverySinks.lookup route with
  | none => exact new_typed sinkSchema
  | some sink => exact h.sinks route sink hsink

theorem wake (h : doc.Typed) (agent : String) : (doc.wake agent).Typed := by
  unfold Document.wake
  cases hwake : doc.agentWakes.lookup agent with
  | none => exact new_wake_typed
  | some wake => exact h.wakes agent wake hwake

/-- A sink put in the document. -/
theorem putSink (h : doc.Typed) (route : String) {sink : Record} (hsink : sink.Typed sinkSchema) :
    Document.Typed { doc with deliverySinks := doc.deliverySinks.insert route sink } where
  sinks route' sink' hlookup := by
    by_cases heq : route' = route
    · subst heq
      rw [Finmap.lookup_insert] at hlookup
      cases hlookup
      exact hsink
    · rw [Finmap.lookup_insert_of_ne _ heq] at hlookup
      exact h.sinks route' sink' hlookup
  wakes := h.wakes
  selfTest := h.selfTest

/-- An agent's record put in the document. -/
theorem putWake (h : doc.Typed) (agent : String) {wake : WakeRecord} (hwake : wake.Typed) :
    Document.Typed { doc with agentWakes := doc.agentWakes.insert agent wake } where
  sinks := h.sinks
  wakes agent' wake' hlookup := by
    by_cases heq : agent' = agent
    · subst heq
      rw [Finmap.lookup_insert] at hlookup
      cases hlookup
      exact hwake
    · rw [Finmap.lookup_insert_of_ne _ heq] at hlookup
      exact h.wakes agent' wake' hlookup
  selfTest := h.selfTest

theorem amendSink (h : doc.Typed) {route counter : String} {values : List (String × Json)}
    (hcounter : sinkSchema.lookup counter = some .counter) (hvalues : AllFit sinkSchema values) :
    ∃ doc', doc.amendSink route (Record.count float counter values) = some doc' ∧ doc'.Typed := by
  obtain ⟨sink, hsink, htyped⟩ := (h.sink route).count float hcounter hvalues
  refine ⟨_, ?_, h.putSink route htyped⟩
  unfold Document.amendSink
  rw [hsink]
  rfl

theorem amendWake (h : doc.Typed) {agent route counter : String}
    {onWake onRow : List (String × Json)}
    (hwakeCounter : agentSchema.lookup counter = some .counter)
    (hrowCounter : routeSchema.lookup counter = some .counter)
    (honWake : AllFit agentSchema onWake) (honRow : AllFit routeSchema onRow) :
    ∃ doc', doc.amendWake agent route (Record.count float counter onWake)
      (Record.count float counter onRow) = some doc' ∧ doc'.Typed := by
  have hwake := h.wake agent
  obtain ⟨attributes, hattributes, htyped⟩ := hwake.attributes.count float hwakeCounter honWake
  have hrow : (((doc.wake agent).byRoute.lookup route).getD routeSchema.new).Typed routeSchema := by
    cases hlookup : (doc.wake agent).byRoute.lookup route with
    | none => exact new_typed routeSchema
    | some row => exact hwake.rows route row hlookup
  obtain ⟨row, hrow', hrowTyped⟩ := hrow.count float hrowCounter honRow
  have hput : WakeRecord.Typed ⟨attributes, (doc.wake agent).byRoute.insert route row⟩ := by
    refine ⟨htyped, fun route' row' hlookup => ?_⟩
    by_cases heq : route' = route
    · subst heq
      rw [Finmap.lookup_insert] at hlookup
      cases hlookup
      exact hrowTyped
    · rw [Finmap.lookup_insert_of_ne _ heq] at hlookup
      exact hwake.rows route' row' hlookup
  refine ⟨_, ?_, h.putWake agent hput⟩
  simp only [Document.amendWake, hattributes, hrow']
  rfl

/-- **Every call succeeds on a document of its types**, and leaves one. -/
theorem record (h : doc.Typed) (now : Utc) (operation : Operation) :
    ∃ doc', doc.record float now operation = some doc' ∧ doc'.Typed := by
  cases operation with
  | deliveryAccepted route => exact h.amendSink rfl rfl
  | deliveryRejected route reason => exact h.amendSink rfl rfl
  | deliveryDecision route woke =>
    cases woke with
    | true => exact h.amendSink rfl rfl
    | false => exact h.amendSink rfl rfl
  | wakeOk agent delivery route synthetic => exact h.amendWake rfl rfl rfl rfl
  | wakeFailed agent reason route synthetic => exact h.amendWake rfl rfl rfl rfl
  | wakeRefused agent reason route synthetic => exact h.amendWake rfl rfl rfl rfl
  | wakeDeduped agent route synthetic => exact h.amendWake rfl rfl rfl rfl
  | queueDepth agent pending =>
    have hwake := h.wake agent
    have hqueued : ((doc.wake agent).attributes.set "queued" (.int pending)).Typed agentSchema :=
      hwake.attributes.set rfl rfl
    exact ⟨_, rfl, h.putWake agent ⟨hqueued, hwake.rows⟩⟩
  | freezeSelftest status detail =>
    refine ⟨_, rfl, h.sinks, h.wakes, (new_typed selfTestSchema).setAll ?_⟩
    cases hdetail : decide (reasonText detail = "") with
    | true =>
      rw [if_pos (of_decide_eq_true hdetail)]
      rfl
    | false =>
      rw [if_neg (of_decide_eq_false hdetail)]
      rfl

end Document.Typed

namespace Store

variable {json : JsonText} {float : FloatText} {s : Store}

theorem apply_typed (h : s.doc.Typed) (call : Timed) :
    ∃ s', s.apply json float call = some s' ∧ s'.doc.Typed := by
  have hflush : ∀ {doc : Document} (stamp : Utc), doc.Typed → (flush json doc stamp).doc.Typed :=
    fun _ hdoc => ⟨hdoc.sinks, hdoc.wakes, hdoc.selfTest⟩
  obtain ⟨doc', hdoc', htyped⟩ : ∃ doc', s.doc.record float call.now call.operation = some doc' ∧
      doc'.Typed := h.record call.now call.operation
  unfold apply
  split
  · next agent pending hoperation =>
    dsimp only
    split
    · exact ⟨_, rfl, h.putWake agent (h.wake agent)⟩
    · rw [hdoc']
      exact ⟨_, rfl, hflush _ htyped⟩
  · rw [hdoc']
    exact ⟨_, rfl, hflush _ htyped⟩

/-- Calls one after another all succeed. -/
theorem applyAll_typed (calls : List Timed) (h : s.doc.Typed) :
    ∃ s', s.applyAll json float calls = some s' ∧ s'.doc.Typed := by
  induction calls generalizing s with
  | nil => exact ⟨s, rfl, h⟩
  | cons call calls ih =>
    obtain ⟨s', hs', htyped⟩ := apply_typed h call
    obtain ⟨s'', hs'', htyped'⟩ := ih htyped
    refine ⟨s'', ?_, htyped'⟩
    unfold applyAll at hs'' ⊢
    rw [List.foldlM_cons, hs']
    exact hs''

end Store

/-! ## 4. What construction puts right -/

/-- A dict whose last refusal was filed before dedups had a counter of their own. -/
def Legacy (fields : Fields) : Prop :=
  (fields.get "last_refused_reason").isText duplicateDelivery = true

/-- What a counter may hold that is raised by one on loading. -/
def Raisable (v : Json) : Prop := v.asInt.isSome = true ∨ v.isBool = true

/-- What a counter may hold that is lowered by one on loading, and not below zero. -/
def Lowerable (float : FloatText) (v : Json) : Prop :=
  v.asInt.isSome = true ∨ v.isBool = true ∨
    ∃ text, v = .float text ∧ float.positive (float.add text (-1)) = false

/-- An entry's fields do no harm: they have the types declared, those in `skip` apart; and in a
legacy one the counters that move may hold whatever can be counted, and the fields in `moved`
anything. -/
def Harmless (float : FloatText) (schema : Schema) (moved skip : List String) (fields : Fields) :
    Prop :=
  (¬ Legacy fields → Fits schema skip fields) ∧
  (Legacy fields → Raisable (schema.rebuild (.obj fields) "deduped") ∧
    Lowerable float (schema.rebuild (.obj fields) "refused") ∧
    Fits schema ("deduped" :: "refused" :: (moved ++ skip)) fields)

/-- A field moved leaves the rest, and its type is that of what it is moved to. -/
theorem moveField_fits {schema : Schema} {skip : List String} {record : Record}
    {pair : String × String} {kind : FieldKind} (hfrom : schema.lookup pair.1 = some kind)
    (hto : schema.lookup pair.2 = some kind) (hnull : kind.fits .null = true)
    (hne : pair.1 ≠ pair.2) (hskip : pair.1 ∉ skip) (hskip' : pair.2 ∉ skip) :
    (moveField record pair).Fits schema skip ↔ record.Fits schema (pair.2 :: skip) := by
  unfold moveField
  rw [set_fits hfrom hskip, set_fits hto (by simp [hskip', hne.symm])]
  constructor
  · rintro ⟨-, hv, h⟩ name' kind' hkind' hskip'
    by_cases heq : name' = pair.1
    · rw [heq, hfrom] at hkind'
      cases hkind'
      rw [heq]
      exact hv
    · rw [List.mem_cons, not_or] at hskip'
      exact h name' kind' hkind' (by simp [heq, hskip'.1, hskip'.2])
  · intro h
    refine ⟨hnull, h _ _ hfrom (by simp [hne, hskip]), fun name' kind' hkind' hskip' => ?_⟩
    simp only [List.mem_cons, not_or] at hskip'
    exact h name' kind' hkind' (by simp [hskip'.1, hskip'.2.2])

theorem moveField_declared {schema : Schema} {record : Record} {pair : String × String}
    {kind : FieldKind} (h : record.Declared schema) (hfrom : schema.lookup pair.1 = some kind)
    (hto : schema.lookup pair.2 = some kind) : (moveField record pair).Declared schema :=
  (h.set hto _).set hfrom _

/-- What can be raised, and to an integer. -/
theorem add_fits_iff (float : FloatText) {v : Json} :
    (∃ w, v.add float 1 = some w ∧ FieldKind.counter.fits w = true) ↔ Raisable v := by
  unfold Raisable FieldKind.fits
  cases v <;> simp [Json.add, Json.asInt, Json.isBool]

/-- What can be lowered, and to an integer. -/
theorem maxZero_fits_iff {float : FloatText} {v : Json} :
    (∃ w, v.add float (-1) = some w ∧ FieldKind.counter.fits (w.maxZero float) = true) ↔
      Lowerable float v := by
  unfold Lowerable FieldKind.fits
  cases v with
  | float text =>
    cases hpositive : float.positive (float.add text (-1)) with
    | true => simp [Json.add, Json.asInt, Json.isBool, Json.maxZero, hpositive]
    | false => simp [Json.add, Json.asInt, Json.isBool, Json.maxZero, hpositive]
  | _ => simp [Json.add, Json.asInt, Json.isBool, Json.maxZero]

/-- A schema with the fields that are reclassified. -/
structure Reclassifiable (schema : Schema) : Prop where
  deduped : schema.lookup "deduped" = some .counter
  refused : schema.lookup "refused" = some .counter
  refusedAt : schema.lookup "last_refused_at" = some .text
  refusedReason : schema.lookup "last_refused_reason" = some .text
  dedupedAt : schema.lookup "last_deduped_at" = some .text

theorem routeSchema_reclassifiable : Reclassifiable routeSchema := ⟨rfl, rfl, rfl, rfl, rfl⟩

theorem agentSchema_reclassifiable : Reclassifiable agentSchema := ⟨rfl, rfl, rfl, rfl, rfl⟩

/-- A record whose last refusal was a dedup, reclassified but for the provenance. -/
def reclassified (record : Record) (deduped refused : Json) : Record :=
  (moveField ((record.set "deduped" deduped).set "refused" refused)
    ("last_refused_at", "last_deduped_at")).set "last_refused_reason" .null

theorem reclassifyLegacyDedup_legacy {float : FloatText} {provenance : List (String × String)}
    {record : Record} (h : (record "last_refused_reason").isText duplicateDelivery = true) :
    reclassifyLegacyDedup float provenance record =
      ((record "deduped").add float 1).bind fun deduped =>
        ((record "refused").add float (-1)).map fun fewer =>
          provenance.foldl moveField (reclassified record deduped (fewer.maxZero float)) := by
  unfold reclassifyLegacyDedup Record.increment
  rw [h]
  cases (record "deduped").add float 1 with
  | none => rfl
  | some deduped =>
    have hrefused : (record.set "deduped" deduped) "refused" = record "refused" :=
      Function.update_of_ne (by decide) _ _
    simp only [Bool.not_true, Bool.false_eq_true, if_false, Option.map_some, Option.bind_eq_bind,
      Option.bind_some, hrefused]
    cases (record "refused").add float (-1) with
    | none => rfl
    | some fewer => rfl

theorem reclassifyLegacyDedup_other {float : FloatText} {provenance : List (String × String)}
    {record : Record} (h : ¬ (record "last_refused_reason").isText duplicateDelivery = true) :
    reclassifyLegacyDedup float provenance record = some record := by
  unfold reclassifyLegacyDedup
  rw [if_pos (by simpa using h)]

theorem reclassified_declared {schema : Schema} (hschema : Reclassifiable schema) {record : Record}
    (h : record.Declared schema) (deduped refused : Json) :
    (reclassified record deduped refused).Declared schema := by
  have hcounted : ((record.set "deduped" deduped).set "refused" refused).Declared schema :=
    (h.set hschema.deduped _).set hschema.refused _
  exact (moveField_declared hcounted hschema.refusedAt hschema.dedupedAt).set
    hschema.refusedReason _

theorem reclassified_fits {schema : Schema} (hschema : Reclassifiable schema)
    {skip : List String} (hskip : ∀ name ∈ skip, name ∉ ["deduped", "refused", "last_refused_at",
      "last_refused_reason", "last_deduped_at"]) {record : Record}
    (h : (record "last_refused_reason").isText duplicateDelivery = true) {deduped refused : Json} :
    (reclassified record deduped refused).Fits schema skip ↔
      FieldKind.counter.fits refused = true ∧ FieldKind.counter.fits deduped = true ∧
        record.Fits schema ("deduped" :: "refused" :: "last_deduped_at" :: skip) := by
  have hout : ∀ {name : String}, name ∈ ["deduped", "refused", "last_refused_at",
      "last_refused_reason", "last_deduped_at"] → name ∉ skip := fun hmem hin => hskip _ hin hmem
  have hreason : (record "last_refused_reason").asStr = some duplicateDelivery :=
    Json.isText_iff.mp h
  unfold reclassified
  rw [set_fits hschema.refusedReason (hout (by simp)),
    moveField_fits hschema.refusedAt hschema.dedupedAt rfl (by decide)
      (by simp [hout]) (by simp [hout]),
    set_fits hschema.refused (by simp [hout]), set_fits hschema.deduped (by simp [hout])]
  constructor
  · rintro ⟨-, hrefused, hdeduped, hfits⟩
    refine ⟨hrefused, hdeduped, fun name kind hkind hname => ?_⟩
    by_cases heq : name = "last_refused_reason"
    · rw [heq, hschema.refusedReason] at hkind
      cases hkind
      simp [heq, FieldKind.fits, hreason]
    · refine hfits name kind hkind ?_
      simp only [List.mem_cons, not_or] at hname ⊢
      exact ⟨hname.1, hname.2.1, hname.2.2.1, heq, hname.2.2.2⟩
  · rintro ⟨hrefused, hdeduped, hfits⟩
    refine ⟨rfl, hrefused, hdeduped, fun name kind hkind hname => hfits name kind hkind ?_⟩
    simp only [List.mem_cons, not_or] at hname ⊢
    exact ⟨hname.1, hname.2.1, hname.2.2.1, hname.2.2.2.2⟩

/-- **An entry is read, with its fields of their types, exactly if they do no harm.** -/
theorem reclassify_iff {float : FloatText} {schema : Schema} (hschema : Reclassifiable schema)
    {provenance : List (String × String)} {skip : List String}
    (hfits : ∀ record : Record, (provenance.foldl moveField record).Fits schema skip ↔
      record.Fits schema (provenance.map Prod.snd ++ skip))
    (hdeclared : ∀ record : Record, record.Declared schema →
      (provenance.foldl moveField record).Declared schema)
    (hskip : ∀ name ∈ provenance.map Prod.snd ++ skip, name ∉ ["deduped", "refused",
      "last_refused_at", "last_refused_reason", "last_deduped_at"]) {fields : Fields} :
    (∃ record, reclassifyLegacyDedup float provenance (schema.rebuild (.obj fields)) =
        some record ∧ record.Fits schema skip ∧ record.Declared schema) ↔
      Harmless float schema ("last_deduped_at" :: provenance.map Prod.snd) skip fields := by
  have hreason : schema.rebuild (.obj fields) "last_refused_reason" =
      fields.get "last_refused_reason" := rebuild_apply hschema.refusedReason rfl
  have hrest := rebuild_declared schema (.obj fields)
  unfold Harmless Legacy
  by_cases hlegacy : (fields.get "last_refused_reason").isText duplicateDelivery = true
  · have hrecord : (schema.rebuild (.obj fields) "last_refused_reason").isText
        duplicateDelivery = true := by rw [hreason]; exact hlegacy
    rw [reclassifyLegacyDedup_legacy hrecord, ← add_fits_iff float,
      ← maxZero_fits_iff, ← rebuild_fits]
    constructor
    · rintro ⟨record, hread, hrecordFits, -⟩
      obtain ⟨deduped, hdeduped, hread⟩ := Option.bind_eq_some_iff.mp hread
      obtain ⟨fewer, hfewer, rfl⟩ := Option.map_eq_some_iff.mp hread
      rw [hfits, reclassified_fits hschema hskip hrecord] at hrecordFits
      obtain ⟨hrefusedFits, hdedupedFits, hothers⟩ := hrecordFits
      exact ⟨fun h => absurd hlegacy h,
        fun _ => ⟨⟨deduped, hdeduped, hdedupedFits⟩, ⟨fewer, hfewer, hrefusedFits⟩,
          rebuild_fits.mp hothers⟩⟩
    · rintro ⟨-, h⟩
      obtain ⟨⟨deduped, hdeduped, hdedupedFits⟩, ⟨fewer, hfewer, hrefusedFits⟩, hothers⟩ :=
        h hlegacy
      rw [hdeduped, hfewer]
      refine ⟨_, rfl, ?_, hdeclared _ (reclassified_declared hschema hrest _ _)⟩
      rw [hfits, reclassified_fits hschema hskip hrecord]
      exact ⟨hrefusedFits, hdedupedFits, rebuild_fits.mpr hothers⟩
  · have hrecord : ¬ (schema.rebuild (.obj fields) "last_refused_reason").isText
        duplicateDelivery = true := by rw [hreason]; exact hlegacy
    rw [reclassifyLegacyDedup_other hrecord, ← rebuild_fits]
    constructor
    · rintro ⟨record, hread, hrecordFits, -⟩
      cases hread
      exact ⟨fun _ => hrecordFits, fun h => absurd h hlegacy⟩
    · rintro ⟨h, -⟩
      exact ⟨_, rfl, h hlegacy, hrest⟩

/-- The `queued` of an agent's entry that construction clears. -/
def cleared (float : FloatText) (fields : Fields) : List String :=
  if (fields.get "queued").truthy float then ["queued"] else []

/-- What the dedup fields of an agent's entry are overwritten in. -/
def agentMoved : List String := ["last_deduped_at", "last_deduped_route", "last_deduped_synthetic"]

theorem route_reclassify_iff {float : FloatText} {fields : Fields} :
    (∃ record, reclassifyLegacyDedup float [] (routeSchema.rebuild (.obj fields)) = some record ∧
        record.Typed routeSchema) ↔
      Harmless float routeSchema ["last_deduped_at"] [] fields := by
  have hread := @reclassify_iff float routeSchema routeSchema_reclassifiable [] []
    (fun _ => Iff.rfl) (fun _ h => h) (fun _ h => absurd h List.not_mem_nil) fields
  rw [List.map_nil] at hread
  rw [← hread]
  constructor
  · rintro ⟨record, hrecord, htyped⟩
    exact ⟨record, hrecord, htyped.fits, htyped.declared⟩
  · rintro ⟨record, hrecord, hfits, hdeclared⟩
    exact ⟨record, hrecord, hfits, hdeclared⟩

/-- Reclassifying leaves the queue depth. -/
theorem reclassify_queued {float : FloatText} {record record' : Record}
    (h : reclassifyLegacyDedup float legacyDedupProvenance record = some record') :
    record' "queued" = record "queued" := by
  by_cases hlegacy : (record "last_refused_reason").isText duplicateDelivery = true
  · rw [reclassifyLegacyDedup_legacy hlegacy] at h
    obtain ⟨deduped, -, h⟩ := Option.bind_eq_some_iff.mp h
    obtain ⟨fewer, -, rfl⟩ := Option.map_eq_some_iff.mp h
    simp [legacyDedupProvenance, reclassified, moveField, Record.set]
  · rw [reclassifyLegacyDedup_other hlegacy] at h
    cases h
    rfl

/-- An agent's attributes are of their types once a queue depth, if there is any, is cleared. -/
theorem discardQueued_typed {float : FloatText} {wake : WakeRecord} {skip : List String}
    (hskip : skip = if (wake.attributes "queued").truthy float then ["queued"] else []) :
    (wake.discardQueued float).attributes.Typed agentSchema ↔
      wake.attributes.Fits agentSchema skip ∧ wake.attributes.Declared agentSchema := by
  have hqueued : agentSchema.lookup "queued" = some .counter := rfl
  unfold WakeRecord.discardQueued
  split
  · next htruthy =>
    rw [if_pos htruthy] at hskip
    subst hskip
    constructor
    · intro h
      refine ⟨((set_fits hqueued List.not_mem_nil).mp h.fits).2, fun name hname => ?_⟩
      have hnull : wake.attributes.set "queued" (.int 0) name = .null := h.declared name hname
      have hne : name ≠ "queued" := by
        rintro rfl
        cases hname
      rwa [Record.set, Function.update_of_ne hne] at hnull
    · rintro ⟨hfits, hdeclared⟩
      exact ⟨(set_fits hqueued List.not_mem_nil).mpr ⟨rfl, hfits⟩, hdeclared.set hqueued _⟩
  · next hfalsy =>
    rw [if_neg hfalsy] at hskip
    subst hskip
    exact ⟨fun h => ⟨h.fits, h.declared⟩, fun h => ⟨h.1, h.2⟩⟩

theorem agent_moves_fit {skip : List String} (hskip : skip = [] ∨ skip = ["queued"])
    (record : Record) : (legacyDedupProvenance.foldl moveField record).Fits agentSchema skip ↔
      record.Fits agentSchema (legacyDedupProvenance.map Prod.snd ++ skip) := by
  have hroute : agentSchema.lookup "last_refused_route" = some .text := rfl
  have hroute' : agentSchema.lookup "last_deduped_route" = some .text := rfl
  have hsynthetic : agentSchema.lookup "last_refused_synthetic" = some .flag := rfl
  have hsynthetic' : agentSchema.lookup "last_deduped_synthetic" = some .flag := rfl
  unfold legacyDedupProvenance
  rw [List.foldl_cons, List.foldl_cons, List.foldl_nil]
  rcases hskip with rfl | rfl
  · rw [moveField_fits hsynthetic hsynthetic' rfl (by decide) (by decide) (by decide),
      moveField_fits hroute hroute' rfl (by decide) (by decide) (by decide)]
    rfl
  · rw [moveField_fits hsynthetic hsynthetic' rfl (by decide) (by decide) (by decide),
      moveField_fits hroute hroute' rfl (by decide) (by decide) (by decide)]
    rfl

theorem agent_reclassify_iff {float : FloatText} {fields : Fields} :
    (∃ record, reclassifyLegacyDedup float legacyDedupProvenance
        (agentSchema.rebuild (.obj fields)) = some record ∧
        record.Fits agentSchema (cleared float fields) ∧ record.Declared agentSchema) ↔
      Harmless float agentSchema agentMoved (cleared float fields) fields := by
  have hcleared : cleared float fields = [] ∨ cleared float fields = ["queued"] := by
    unfold cleared
    split
    · exact Or.inr rfl
    · exact Or.inl rfl
  have hskip : ∀ name ∈ legacyDedupProvenance.map Prod.snd ++ cleared float fields,
      name ∉ ["deduped", "refused", "last_refused_at", "last_refused_reason",
        "last_deduped_at"] := by
    rcases hcleared with h | h
    · rw [h]
      decide
    · rw [h]
      decide
  refine reclassify_iff agentSchema_reclassifiable (agent_moves_fit hcleared) ?_ hskip
  intro record h
  have hroute : (moveField record ("last_refused_route", "last_deduped_route")).Declared
      agentSchema := @moveField_declared _ _ _ .text h rfl rfl
  exact @moveField_declared _ _ ("last_refused_synthetic", "last_deduped_synthetic") .flag hroute
    rfl rfl

/-! ## 5. What a file must be like -/

/-- An agent's entry does no harm. -/
structure TolerableWake (float : FloatText) (fields : Fields) : Prop where
  attributes : Harmless float agentSchema agentMoved (cleared float fields) fields
  rows : ∀ route row, entry (fields.get "by_route") route = some row →
    Harmless float routeSchema ["last_deduped_at"] [] row

/-- A document's fields do no harm. -/
structure TolerableFields (float : FloatText) (fields : Fields) : Prop where
  sinks : ∀ route sink, entry (fields.get "delivery_sinks") route = some sink →
    Fits sinkSchema [] sink
  wakes : ∀ agent wake, entry (fields.get "agent_wakes") agent = some wake →
    TolerableWake float wake
  selfTest : ∀ record, (fields.get "freeze_selftest").asObj = some record →
    Fits selfTestSchema [] record

/-- A file is no document of this version, or one whose fields do no harm. -/
def Tolerable (float : FloatText) (raw : Json) : Prop :=
  ∀ fields, raw.asObj = some fields →
    (fields.get "version").equalsInt float evidenceVersion = true → TolerableFields float fields

theorem rebuildAgentWake_iff {float : FloatText} {fields : Fields} :
    (∃ wake, rebuildAgentWake float fields = some wake ∧ (wake.discardQueued float).Typed) ↔
      TolerableWake float fields := by
  have hqueued : ∀ {record}, reclassifyLegacyDedup float legacyDedupProvenance
      (agentSchema.rebuild (.obj fields)) = some record →
        cleared float fields = if (record "queued").truthy float then ["queued"] else [] := by
    intro record hrecord
    rw [reclassify_queued hrecord, cleared]
    have hlookup : agentSchema.lookup "queued" = some .counter := rfl
    rw [Schema.rebuild, hlookup, Fields.get]
    cases h : fields.lookup "queued" with
    | none => simp [Json.asObj, h, FieldKind.default, Json.truthy]
    | some v => simp [Json.asObj, h]
  have hrows : ∀ wake : WakeRecord, (wake.discardQueued float).byRoute = wake.byRoute := by
    intro wake
    unfold WakeRecord.discardQueued
    split <;> rfl
  constructor
  · rintro ⟨wake, hwake, htyped⟩
    unfold rebuildAgentWake at hwake
    obtain ⟨byRoute, hbyRoute, hwake⟩ := Option.bind_eq_some_iff.mp hwake
    obtain ⟨attributes, hattributes, hwake⟩ := Option.bind_eq_some_iff.mp hwake
    cases hwake
    constructor
    · obtain ⟨hfits, hdeclared⟩ :=
        (discardQueued_typed (hqueued hattributes)).mp htyped.attributes
      exact agent_reclassify_iff.mp ⟨attributes, hattributes, hfits, hdeclared⟩
    · have htypedRows := htyped.rows
      rw [hrows] at htypedRows
      have hall := rebuildRows_all.mp ⟨byRoute, hbyRoute, htypedRows⟩
      intro route row hentry
      exact route_reclassify_iff.mp (hall route row hentry)
  · rintro ⟨hattributes, hentries⟩
    obtain ⟨attributes, hread, hfits, hdeclared⟩ := agent_reclassify_iff.mpr hattributes
    obtain ⟨byRoute, hbyRoute, hall⟩ := rebuildRows_all.mpr fun route row hentry =>
      route_reclassify_iff.mpr (hentries route row hentry)
    refine ⟨⟨attributes, byRoute⟩, ?_, ?_, ?_⟩
    · unfold rebuildAgentWake
      rw [hbyRoute, hread]
      rfl
    · exact (discardQueued_typed (hqueued hread)).mpr ⟨hfits, hdeclared⟩
    · rw [hrows]
      exact hall

/-! ## 6. Construction -/

theorem lookup_discardQueued {float : FloatText} {doc : Document} (agent : String) :
    (doc.discardQueued float).agentWakes.lookup agent =
      (doc.agentWakes.lookup agent).map (·.discardQueued float) := by
  unfold Document.discardQueued
  rw [lookup_ofItems, lookup_map_sortedItems]

/-- Where nothing is stale nothing is cleared. -/
theorem discardQueued_of_not_stale {float : FloatText} {doc : Document}
    (h : doc.stale float = false) {agent : String} {wake : WakeRecord}
    (hwake : doc.agentWakes.lookup agent = some wake) : wake.discardQueued float = wake := by
  unfold Document.stale at h
  rw [List.any_eq_false] at h
  have hfalsy := h (agent, wake) (mem_sortedItems.mpr hwake)
  exact if_neg hfalsy

/-- A store that is constructed holds what was loaded, its queue depths cleared. -/
theorem construct_doc {json : JsonText} {float : FloatText} {raw : Json} {stamp : Utc}
    {s : Store} (h : Store.construct json float raw stamp = some s) :
    ∃ doc, Document.fromJson float raw = some doc ∧ s.doc.deliverySinks = doc.deliverySinks ∧
      s.doc.freezeSelftest = doc.freezeSelftest ∧
      ∀ agent, s.doc.agentWakes.lookup agent =
        (doc.agentWakes.lookup agent).map (·.discardQueued float) := by
  unfold Store.construct at h
  obtain ⟨doc, hdoc, rfl⟩ := Option.map_eq_some_iff.mp h
  refine ⟨doc, hdoc, ?_⟩
  split
  · exact ⟨rfl, rfl, lookup_discardQueued⟩
  · next hfresh =>
    refine ⟨rfl, rfl, fun agent => ?_⟩
    cases hwake : doc.agentWakes.lookup agent with
    | none => rfl
    | some wake =>
      rw [Option.map_some, discardQueued_of_not_stale (by simpa using hfresh) hwake]

/-- A document is read, with every field of its type once queue depths are cleared, exactly if its
file is tolerable. -/
theorem fromJson_iff {float : FloatText} {raw : Json} :
    (∃ doc, Document.fromJson float raw = some doc ∧
      (∀ route sink, doc.deliverySinks.lookup route = some sink → sink.Typed sinkSchema) ∧
      (∀ agent wake, doc.agentWakes.lookup agent = some wake →
        (wake.discardQueued float).Typed) ∧
      doc.freezeSelftest.Typed selfTestSchema) ↔ Tolerable float raw := by
  have hempty : ∀ agent wake, Document.empty.agentWakes.lookup agent = some wake →
      (wake.discardQueued float).Typed := by
    intro agent wake hwake
    simp [Document.empty] at hwake
  unfold Tolerable Document.fromJson
  cases hraw : raw.asObj with
  | none => exact iff_of_true ⟨_, rfl, empty_typed.sinks, hempty, empty_typed.selfTest⟩ nofun
  | some fields =>
    dsimp only
    cases hversion : (fields.get "version").equalsInt float evidenceVersion with
    | false =>
      refine iff_of_true ⟨_, rfl, empty_typed.sinks, hempty, empty_typed.selfTest⟩ ?_
      intro fields' hfields' hversion'
      cases hfields'
      rw [hversion] at hversion'
      cases hversion'
    | true =>
      rw [if_neg (by simp)]
      have hself : (selfTestSchema.rebuild (fields.get "freeze_selftest")).Typed selfTestSchema ↔
          ∀ record, (fields.get "freeze_selftest").asObj = some record →
            Fits selfTestSchema [] record := by
        cases hrecord : (fields.get "freeze_selftest").asObj with
        | none =>
          rw [rebuild_of_not_obj hrecord]
          exact iff_of_true (new_typed selfTestSchema) nofun
        | some record =>
          have hobj : fields.get "freeze_selftest" = .obj record := by
            cases hv : fields.get "freeze_selftest" with
            | obj d =>
              rw [hv] at hrecord
              cases hrecord
              rfl
            | _ =>
              rw [hv] at hrecord
              cases hrecord
          rw [hobj]
          constructor
          · intro h record' hrecord'
            cases hrecord'
            exact rebuild_fits.mp h.fits
          · intro h
            exact ⟨rebuild_fits.mpr (h record rfl), rebuild_declared _ _⟩
      have hsink : ∀ sink : Fields, (∃ record, some (sinkSchema.rebuild (.obj sink)) = some record ∧
          record.Typed sinkSchema) ↔ Fits sinkSchema [] sink := by
        intro sink
        constructor
        · rintro ⟨record, hrecord, htyped⟩
          cases hrecord
          exact rebuild_fits.mp htyped.fits
        · intro h
          exact ⟨_, rfl, rebuild_fits.mpr h, rebuild_declared _ _⟩
      constructor
      · rintro ⟨doc, hdoc, hsinks, hwakes, hselfTest⟩ fields' hfields' -
        cases hfields'
        obtain ⟨deliverySinks, hdeliverySinks, hdoc⟩ := Option.bind_eq_some_iff.mp hdoc
        obtain ⟨agentWakes, hagentWakes, hdoc⟩ := Option.bind_eq_some_iff.mp hdoc
        cases hdoc
        have hreadSinks := rebuildRows_all.mp ⟨deliverySinks, hdeliverySinks, hsinks⟩
        have hreadWakes := rebuildRows_all.mp ⟨agentWakes, hagentWakes, hwakes⟩
        exact ⟨fun route sink hentry => (hsink sink).mp (hreadSinks route sink hentry),
          fun agent wake hentry => rebuildAgentWake_iff.mp (hreadWakes agent wake hentry),
          hself.mp hselfTest⟩
      · intro h
        obtain ⟨hsinks, hwakes, hselfTest⟩ := h fields rfl hversion
        obtain ⟨deliverySinks, hdeliverySinks, hallSinks⟩ := rebuildRows_all.mpr
          fun route sink hentry => (hsink sink).mpr (hsinks route sink hentry)
        obtain ⟨agentWakes, hagentWakes, hallWakes⟩ := rebuildRows_all.mpr
          fun agent wake hentry => rebuildAgentWake_iff.mpr (hwakes agent wake hentry)
        refine ⟨⟨(fields.get "updated_at").asStr, deliverySinks, agentWakes,
          selfTestSchema.rebuild (fields.get "freeze_selftest")⟩, ?_, hallSinks, hallWakes,
          hself.mpr hselfTest⟩
        rw [hdeliverySinks, hagentWakes]
        rfl

/-- **What a file must be like.**  From a file that holds any JSON value the store is constructed,
every counter an integer and every other field of its type, exactly if the file's fields do no
harm. -/
theorem construct_typed_iff {json : JsonText} {float : FloatText} {raw : Json} {stamp : Utc} :
    (∃ s, Store.construct json float raw stamp = some s ∧ s.doc.Typed) ↔ Tolerable float raw := by
  rw [← fromJson_iff]
  constructor
  · rintro ⟨s, hs, htyped⟩
    obtain ⟨doc, hdoc, hsinks, hselfTest, hwakes⟩ := construct_doc hs
    refine ⟨doc, hdoc, ?_, ?_, ?_⟩
    · rw [← hsinks]
      exact htyped.sinks
    · intro agent wake hwake
      refine htyped.wakes agent _ ?_
      rw [hwakes, hwake, Option.map_some]
    · rw [← hselfTest]
      exact htyped.selfTest
  · rintro ⟨doc, hdoc, hsinks, hwakes, hselfTest⟩
    obtain ⟨s, hs⟩ : ∃ s, Store.construct json float raw stamp = some s := by
      unfold Store.construct
      rw [hdoc]
      exact ⟨_, rfl⟩
    obtain ⟨doc', hdoc', hsinks', hselfTest', hwakes'⟩ := construct_doc hs
    cases hdoc.symm.trans hdoc'
    refine ⟨s, hs, ?_, ?_, ?_⟩
    · rw [hsinks']
      exact hsinks
    · intro agent wake hwake
      rw [hwakes'] at hwake
      obtain ⟨wake', hwake', rfl⟩ := Option.map_eq_some_iff.mp hwake
      exact hwakes agent wake' hwake'
    · rw [hselfTest']
      exact hselfTest

end BasecradleRouter.Evidence
