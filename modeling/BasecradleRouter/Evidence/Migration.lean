/-
# Loading moves one dedup, once

Before dedups had a counter of their own they were filed as refusals, and a file may still end in
one.  `_reclassify_legacy_dedup` moves it whenever a document is loaded, at both levels.

* `migrated`: what a record that is loaded holds.  It is as the file has it, but for a last refusal
  that is a dedup: that goes to the dedup fields, with its time and provenance, and one count with
  it.
* `fromJson_toJson_of_loaded`: a document that was loaded is loaded again as it is, whatever the
  types of its fields.
* `loading_idempotent`: both, for a whole document.  What is no entry is dropped on the way, and so
  is an `updated_at` that is no text (`not_as_stored_updated_at`).
-/
import BasecradleRouter.Evidence.Restart

namespace BasecradleRouter.Evidence

open BasecradleRouter.Lib BasecradleRouter.Dedup

/-! ## 1. One record -/

/-- The names in a list of pairs. -/
def namesOf (pairs : List (String × String)) : List String := pairs.flatMap fun p => [p.1, p.2]

/-- A move leaves every other field. -/
theorem moveField_of_notMem {record : Record} {pair : String × String} {name : String}
    (h : name ∉ namesOf [pair]) : moveField record pair name = record name := by
  simp only [namesOf, List.flatMap_cons, List.flatMap_nil, List.append_nil, List.mem_cons,
    List.not_mem_nil, or_false, not_or] at h
  unfold moveField Record.set
  rw [Function.update_of_ne h.1, Function.update_of_ne h.2]

theorem foldl_moveField_of_notMem {pairs : List (String × String)} {record : Record}
    {name : String} (h : name ∉ namesOf pairs) :
      pairs.foldl moveField record name = record name := by
  induction pairs generalizing record with
  | nil => rfl
  | cons pair pairs ih =>
    have happend : namesOf (pair :: pairs) = namesOf [pair] ++ namesOf pairs := rfl
    rw [happend, List.mem_append, not_or] at h
    rw [List.foldl_cons, ih h.2, moveField_of_notMem h.1]

/-- Moves of distinct fields: each arrives, and leaves nothing. -/
theorem foldl_moveField_moved {pairs : List (String × String)} (record : Record)
    (hnodup : (namesOf pairs).Nodup) {pair : String × String} (hmem : pair ∈ pairs) :
    pairs.foldl moveField record pair.2 = record pair.1 ∧
      pairs.foldl moveField record pair.1 = .null := by
  induction pairs generalizing record with
  | nil => exact absurd hmem List.not_mem_nil
  | cons first pairs ih =>
    have happend : namesOf (first :: pairs) = namesOf [first] ++ namesOf pairs := rfl
    rw [happend, List.nodup_append'] at hnodup
    obtain ⟨hfirst, hrest, hdisjoint⟩ := hnodup
    rw [List.foldl_cons]
    rcases List.mem_cons.mp hmem with rfl | hin
    · have hne : pair.2 ≠ pair.1 := by
        rintro heq
        simp [namesOf, heq] at hfirst
      rw [foldl_moveField_of_notMem (List.disjoint_left.mp hdisjoint (by simp [namesOf])),
        foldl_moveField_of_notMem (List.disjoint_left.mp hdisjoint (by simp [namesOf]))]
      unfold moveField Record.set
      rw [Function.update_of_ne hne, Function.update_self, Function.update_self]
      exact ⟨rfl, rfl⟩
    · obtain ⟨harrives, hleft⟩ := ih (moveField record first) hrest hin
      refine ⟨harrives.trans (moveField_of_notMem ?_), hleft⟩
      have hname : pair.1 ∈ namesOf pairs :=
        List.mem_flatMap.mpr ⟨pair, hin, List.mem_cons_self⟩
      exact List.disjoint_right.mp hdisjoint hname

/-- What a file holds of a counter, zero where it holds nothing, if that is an integer. -/
def countStored (stored : Fields) (name : String) : Option ℤ :=
  match stored.lookup name with
  | none => some 0
  | some v => v.asInt

/-- The declared fields of a record, those in `moved` apart, are as the file holds them, at their
defaults where it does not. -/
def AsStored (schema : Schema) (moved : List String) (stored : Fields) (record : Record) : Prop :=
  ∀ name kind, schema.lookup name = some kind → name ∉ moved →
    record name = (stored.lookup name).getD kind.default

/-- The pairs of fields of which one is moved to the other. -/
def movedPairs (provenance : List (String × String)) : List (String × String) :=
  ("last_refused_at", "last_deduped_at") :: provenance

/-- The fields that loading may change. -/
def movedNames (provenance : List (String × String)) : List String :=
  "deduped" :: "refused" :: "last_refused_reason" :: namesOf (movedPairs provenance)

/-- What a record that is loaded holds, beside what is stored of it. -/
structure Migrated (schema : Schema) (provenance : List (String × String)) (stored : Fields)
    (record : Record) : Prop where
  /-- Only a last refusal that is a dedup changes anything. -/
  kept : ¬ Legacy stored → AsStored schema [] stored record
  /-- Nor does that change another field. -/
  rest : AsStored schema (movedNames provenance) stored record
  /-- The refusal's time and provenance are then the dedup's, and there is no last refusal. -/
  moved : Legacy stored → record "last_refused_reason" = .null ∧
    ∀ pair ∈ movedPairs provenance, record pair.2 = stored.get pair.1 ∧ record pair.1 = .null
  /-- One count moves, unless there was none. -/
  counts : Legacy stored → ∀ refused deduped, countStored stored "refused" = some refused →
    countStored stored "deduped" = some deduped →
      record "refused" = .int (max 0 (refused - 1)) ∧ record "deduped" = .int (deduped + 1) ∧
        (1 ≤ refused → max 0 (refused - 1) + (deduped + 1) = refused + deduped)

theorem rebuild_asStored (schema : Schema) (stored : Fields) :
    AsStored schema [] stored (schema.rebuild (.obj stored)) := by
  intro name kind hkind _
  rw [Schema.rebuild, hkind]
  rfl

/-- A counter that is an integer where it is stored is one where it is rebuilt. -/
theorem rebuild_of_countStored {schema : Schema} {stored : Fields} {name : String} {n : ℤ}
    (hkind : schema.lookup name = some .counter) (h : countStored stored name = some n) :
    schema.rebuild (.obj stored) name = .int n := by
  rw [rebuild_asStored schema stored name .counter hkind List.not_mem_nil]
  unfold countStored at h
  split at h
  · next hnone =>
    cases h
    rw [hnone]
    rfl
  · next v hv =>
    rw [hv, Option.getD_some]
    cases v with
    | int i =>
      cases h
      rfl
    | _ => cases h

/-- Pairs of fields of a schema, none of them named twice, nor one that is counted or the
reason. -/
structure Provenance (schema : Schema) (provenance : List (String × String)) : Prop where
  nodup : (movedNames provenance).Nodup
  declared : ∀ pair ∈ movedPairs provenance, ∃ kind kind' : FieldKind,
    schema.lookup pair.1 = some kind ∧ schema.lookup pair.2 = some kind' ∧ kind.default = .null

theorem route_provenance : Provenance routeSchema [] := by
  refine ⟨by decide, ?_⟩
  intro pair hmem
  rw [List.mem_singleton.mp hmem]
  exact ⟨.text, .text, rfl, rfl, rfl⟩

theorem agent_provenance : Provenance agentSchema legacyDedupProvenance := by
  refine ⟨by decide, ?_⟩
  intro pair hmem
  simp only [movedPairs, legacyDedupProvenance, List.mem_cons, List.not_mem_nil, or_false] at hmem
  rcases hmem with rfl | rfl | rfl
  · exact ⟨.text, .text, rfl, rfl, rfl⟩
  · exact ⟨.text, .text, rfl, rfl, rfl⟩
  · exact ⟨.flag, .flag, rfl, rfl, rfl⟩

theorem foldl_moveField_declared {schema : Schema} {pairs : List (String × String)}
    {record : Record} (hpairs : ∀ pair ∈ pairs, ∃ kind kind' : FieldKind,
      schema.lookup pair.1 = some kind ∧ schema.lookup pair.2 = some kind' ∧
        kind.default = .null)
    (h : record.Declared schema) : (pairs.foldl moveField record).Declared schema := by
  induction pairs generalizing record with
  | nil => exact h
  | cons pair pairs ih =>
    obtain ⟨kind, kind', hfrom, hto, -⟩ := hpairs pair List.mem_cons_self
    exact ih (fun pair' hmem => hpairs pair' (List.mem_cons_of_mem _ hmem))
      ((h.set hto _).set hfrom _)

/-- A field that no pair names may as well be set after the moves as before. -/
theorem foldl_moveField_set {pairs : List (String × String)} {name : String}
    (h : name ∉ namesOf pairs) (record : Record) (v : Json) :
    pairs.foldl moveField (record.set name v) = (pairs.foldl moveField record).set name v := by
  induction pairs generalizing record with
  | nil => rfl
  | cons pair pairs ih =>
    have happend : namesOf (pair :: pairs) = namesOf [pair] ++ namesOf pairs := rfl
    rw [happend, List.mem_append, not_or] at h
    obtain ⟨hpair, hpairs⟩ := h
    simp only [namesOf, List.flatMap_cons, List.flatMap_nil, List.append_nil, List.mem_cons,
      List.not_mem_nil, or_false, not_or] at hpair
    have hmove : moveField (record.set name v) pair = (moveField record pair).set name v := by
      unfold moveField Record.set
      rw [Function.update_of_ne (Ne.symm hpair.1), Function.update_comm hpair.2,
        Function.update_comm hpair.1]
    rw [List.foldl_cons, List.foldl_cons, hmove, ih hpairs]

section

variable {float : FloatText} {schema : Schema} {provenance : List (String × String)}
  {stored : Fields} {record : Record}

/-- A record that is reclassified: its counters are set, its pairs moved, and its reason
cleared. -/
theorem foldl_reclassified (hprovenance : Provenance schema provenance) (deduped refused : Json) :
    provenance.foldl moveField (reclassified record deduped refused) =
      ((movedPairs provenance).foldl moveField
        ((record.set "deduped" deduped).set "refused" refused)).set
          "last_refused_reason" .null := by
  have hreason : "last_refused_reason" ∉ namesOf provenance := by
    intro hmem
    have hnodup := hprovenance.nodup
    simp only [movedNames, List.nodup_cons] at hnodup
    exact hnodup.2.2.1 (List.mem_cons_of_mem _ (List.mem_cons_of_mem _ hmem))
  unfold reclassified
  rw [foldl_moveField_set hreason]
  rfl

/-- What a dedup that was filed as a refusal makes of the counters. -/
theorem reclassify_counters (hschema : Reclassifiable schema)
    (hprovenance : Provenance schema provenance) (hlegacy : Legacy stored)
    (h : reclassifyLegacyDedup float provenance (schema.rebuild (.obj stored)) = some record) :
    ∃ fewer, (schema.rebuild (.obj stored) "deduped").add float 1 = some (record "deduped") ∧
      (schema.rebuild (.obj stored) "refused").add float (-1) = some fewer ∧
      record "refused" = fewer.maxZero float := by
  have hreason : schema.rebuild (.obj stored) "last_refused_reason" =
      stored.get "last_refused_reason" := rebuild_apply hschema.refusedReason rfl
  rw [reclassifyLegacyDedup_legacy (by rw [hreason]; exact hlegacy)] at h
  obtain ⟨deduped, hdeduped, h⟩ := Option.bind_eq_some_iff.mp h
  obtain ⟨fewer, hfewer, rfl⟩ := Option.map_eq_some_iff.mp h
  have hnodup := hprovenance.nodup
  simp only [movedNames, List.nodup_cons, List.mem_cons, not_or] at hnodup
  obtain ⟨⟨hne, hne', hdedupedPair⟩, ⟨hne'', hrefusedPair⟩, -, -⟩ := hnodup
  refine ⟨fewer, ?_, hfewer, ?_⟩
  · rw [foldl_reclassified hprovenance]
    unfold Record.set
    rw [Function.update_of_ne hne', foldl_moveField_of_notMem hdedupedPair,
      Function.update_of_ne hne, Function.update_self]
    exact hdeduped
  · rw [foldl_reclassified hprovenance]
    unfold Record.set
    rw [Function.update_of_ne hne'', foldl_moveField_of_notMem hrefusedPair, Function.update_self]

/-- **What a record that is loaded holds.** -/
theorem migrated (hschema : Reclassifiable schema) (hprovenance : Provenance schema provenance)
    (h : reclassifyLegacyDedup float provenance (schema.rebuild (.obj stored)) = some record) :
    Migrated schema provenance stored record := by
  have hasStored := rebuild_asStored schema stored
  have hreason : schema.rebuild (.obj stored) "last_refused_reason" =
      stored.get "last_refused_reason" := rebuild_apply hschema.refusedReason rfl
  by_cases hlegacy : Legacy stored
  · have hcounts : ∀ refused deduped, countStored stored "refused" = some refused →
        countStored stored "deduped" = some deduped →
          record "refused" = .int (max 0 (refused - 1)) ∧ record "deduped" = .int (deduped + 1) ∧
            (1 ≤ refused → max 0 (refused - 1) + (deduped + 1) = refused + deduped) := by
      intro refused deduped hrefused hdeduped
      obtain ⟨fewer, hraised, hlowered, hleft⟩ :=
        reclassify_counters hschema hprovenance hlegacy h
      rw [rebuild_of_countStored hschema.deduped hdeduped] at hraised
      rw [rebuild_of_countStored hschema.refused hrefused] at hlowered
      cases hlowered
      rw [hleft, ← Option.some.inj hraised]
      exact ⟨rfl, rfl, fun hpos => by omega⟩
    rw [reclassifyLegacyDedup_legacy (by rw [hreason]; exact hlegacy)] at h
    obtain ⟨deduped, hdeduped, h⟩ := Option.bind_eq_some_iff.mp h
    obtain ⟨fewer, hfewer, rfl⟩ := Option.map_eq_some_iff.mp h
    rw [foldl_reclassified hprovenance] at hcounts ⊢
    have hnodup := hprovenance.nodup
    simp only [movedNames, List.nodup_cons, List.mem_cons, not_or] at hnodup
    obtain ⟨⟨-, -, hdedupedPair⟩, ⟨-, hrefusedPair⟩, hreasonPair, hpairs⟩ := hnodup
    refine ⟨fun hnot => absurd hlegacy hnot, ?_, fun _ => ⟨Function.update_self _ _ _, ?_⟩,
      fun _ => hcounts⟩
    · intro name kind hkind hname
      simp only [movedNames, List.mem_cons, not_or] at hname
      obtain ⟨hdedupedName, hrefusedName, hreasonName, hpairName⟩ := hname
      unfold Record.set
      rw [Function.update_of_ne hreasonName, foldl_moveField_of_notMem hpairName,
        Function.update_of_ne hrefusedName, Function.update_of_ne hdedupedName]
      exact hasStored name kind hkind List.not_mem_nil
    · intro pair hmem
      obtain ⟨kind, kind', hfrom, hto, hnull⟩ := hprovenance.declared pair hmem
      have hfirst : pair.1 ∈ namesOf (movedPairs provenance) :=
        List.mem_flatMap.mpr ⟨pair, hmem, List.mem_cons_self⟩
      have hsecond : pair.2 ∈ namesOf (movedPairs provenance) :=
        List.mem_flatMap.mpr ⟨pair, hmem, by simp⟩
      obtain ⟨harrives, hleft⟩ := foldl_moveField_moved (((schema.rebuild
        (.obj stored)).set "deduped" deduped).set "refused" (fewer.maxZero float)) hpairs hmem
      unfold Record.set at harrives hleft ⊢
      rw [Function.update_of_ne (ne_of_mem_of_not_mem hsecond hreasonPair),
        Function.update_of_ne (ne_of_mem_of_not_mem hfirst hreasonPair), harrives, hleft,
        Function.update_of_ne (ne_of_mem_of_not_mem hfirst hrefusedPair),
        Function.update_of_ne (ne_of_mem_of_not_mem hfirst hdedupedPair)]
      exact ⟨rebuild_apply hfrom hnull, rfl⟩
  · rw [reclassifyLegacyDedup_other (by rw [hreason]; exact hlegacy)] at h
    cases h
    exact ⟨fun _ => hasStored, fun name kind hkind _ => hasStored name kind hkind List.not_mem_nil,
      fun h => absurd h hlegacy, fun h => absurd h hlegacy⟩

/-- A record that is loaded is declared, and its last refusal is no dedup. -/
theorem reclassify_settled (hschema : Reclassifiable schema)
    (hprovenance : Provenance schema provenance)
    (h : reclassifyLegacyDedup float provenance (schema.rebuild (.obj stored)) = some record) :
    record.Declared schema ∧ record.Settled := by
  have hdeclared := rebuild_declared schema (.obj stored)
  unfold Record.Settled
  by_cases hlegacy : (schema.rebuild (.obj stored) "last_refused_reason").isText
      duplicateDelivery = true
  · rw [reclassifyLegacyDedup_legacy hlegacy] at h
    obtain ⟨deduped, -, h⟩ := Option.bind_eq_some_iff.mp h
    obtain ⟨fewer, -, rfl⟩ := Option.map_eq_some_iff.mp h
    rw [foldl_reclassified hprovenance]
    have hcounted : (((schema.rebuild (.obj stored)).set "deduped" deduped).set "refused"
        (fewer.maxZero float)).Declared schema :=
      (hdeclared.set hschema.deduped _).set hschema.refused _
    refine ⟨(foldl_moveField_declared hprovenance.declared hcounted).set hschema.refusedReason _,
      ?_⟩
    rw [Record.set, Function.update_self]
    decide
  · rw [reclassifyLegacyDedup_other hlegacy] at h
    cases h
    exact ⟨hdeclared, hlegacy⟩

end

/-! ## 2. Rows -/

section

variable {α : Type} {f : Fields → Option α} {g : α → Fields} {rows : Rows α} {v : Json}

/-- Rows that are read are entries, each with what it reads as. -/
theorem rebuildRows_rel {P : Fields → α → Prop} (hP : ∀ stored a, f stored = some a → P stored a)
    (h : rebuildRows f v = some rows) (key : String) :
    Option.Rel P (entry v key) (rows.lookup key) := by
  rcases rebuildRows_spec (f := f) (v := v) with
    ⟨rows', hrows', hlookup, hread⟩ | ⟨hnone, -⟩
  · cases h.symm.trans hrows'
    rw [hlookup key]
    cases hentry : entry v key with
    | none => exact .none
    | some stored =>
      obtain ⟨a, ha⟩ := hread key stored hentry
      rw [Option.bind_some, ha]
      exact .some (hP stored a ha)
  · rw [hnone] at h
    cases h

/-- The rows that are read each read from some entry. -/
theorem rebuildRows_row (h : rebuildRows f v = some rows) {key : String} {a : α}
    (hrow : rows.lookup key = some a) : ∃ stored, f stored = some a := by
  have hrel := rebuildRows_rel (fun _ _ hstored => hstored) h key
  rw [hrow] at hrel
  cases hentry : entry v key with
  | none =>
    rw [hentry] at hrel
    cases hrel
  | some stored =>
    rw [hentry] at hrel
    cases hrel with
    | some hstored => exact ⟨stored, hstored⟩

/-- Rows are read back where each row is. -/
theorem rebuildRows_rowsJson_exact (hback : ∀ key a, rows.lookup key = some a →
    f (g a) = some a) : rebuildRows f (rowsJson g rows) = some rows := by
  have hentry : ∀ key, entry (rowsJson g rows) key = (rows.lookup key).map g := by
    intro key
    unfold entry rowsJson Fields.get
    rw [Json.asObj, Option.getD_some, lookup_map_sortedItems fun a => Json.obj (g a)]
    cases rows.lookup key with
    | none => rfl
    | some a => rfl
  refine rebuildRows_eq (fun key => ?_) fun key stored hstored => ?_
  · rw [hentry]
    cases hrow : rows.lookup key with
    | none => rfl
    | some a => exact hback key a hrow
  · rw [hentry] at hstored
    obtain ⟨a, hrow, rfl⟩ := Option.map_eq_some_iff.mp hstored
    exact ⟨a, hback key a hrow⟩

end

/-! ## 3. A document that was loaded -/

/-- A document whose records hold nothing but declared fields, of whatever types, and in which no
refusal is a dedup. -/
structure Document.Loaded (doc : Document) : Prop where
  sinks : ∀ route sink, doc.deliverySinks.lookup route = some sink → sink.Declared sinkSchema
  wakes : ∀ agent wake, doc.agentWakes.lookup agent = some wake →
    wake.attributes.Declared agentSchema ∧ wake.Settled
  rows : ∀ agent wake, doc.agentWakes.lookup agent = some wake →
    ∀ route row, wake.byRoute.lookup route = some row → row.Declared routeSchema
  selfTest : doc.freezeSelftest.Declared selfTestSchema

/-- A record is rebuilt from its fields, whatever they hold. -/
theorem rebuild_asdict_of_declared {schema : Schema} {record : Record}
    (h : record.Declared schema) (rest : Fields) :
    schema.rebuild (.obj (schema.asdict record ++ rest)) = record := by
  funext name
  unfold Schema.rebuild
  cases hkind : schema.lookup name with
  | none => exact (h name hkind).symm
  | some kind =>
    simp only [Json.asObj, Option.getD_some, lookup_asdict hkind]

/-- **A document that was loaded is loaded again as it is.** -/
theorem fromJson_toJson_of_loaded {float : FloatText} {doc : Document} (h : doc.Loaded) :
    Document.fromJson float doc.toJson = some doc := by
  have hrebuild : ∀ {schema : Schema} {record : Record}, record.Declared schema →
      schema.rebuild (.obj (schema.asdict record)) = record := by
    intro schema record hdeclared
    have hrecord := rebuild_asdict_of_declared hdeclared []
    rwa [List.append_nil] at hrecord
  have hsinks : rebuildRows (fun entry => some (sinkSchema.rebuild (.obj entry)))
      (rowsJson sinkSchema.asdict doc.deliverySinks) = some doc.deliverySinks :=
    rebuildRows_rowsJson_exact fun route sink hsink =>
      congrArg some (hrebuild (h.sinks route sink hsink))
  have hwakes : rebuildRows (rebuildAgentWake float) (rowsJson wakeJson doc.agentWakes) =
      some doc.agentWakes := by
    refine rebuildRows_rowsJson_exact fun agent wake hwake => ?_
    obtain ⟨hdeclared, hsettled⟩ := h.wakes agent wake hwake
    have hbyRoute : (wakeJson wake).get "by_route" = rowsJson routeSchema.asdict wake.byRoute := rfl
    have hrows : rebuildRows (fun entry =>
        reclassifyLegacyDedup float [] (routeSchema.rebuild (.obj entry)))
          (rowsJson routeSchema.asdict wake.byRoute) = some wake.byRoute := by
      refine rebuildRows_rowsJson_exact fun route row hrow => ?_
      rw [hrebuild (h.rows agent wake hwake route row hrow)]
      exact reclassifyLegacyDedup_other (hsettled.rows route row hrow)
    have hattributes : agentSchema.rebuild (.obj (wakeJson wake)) = wake.attributes :=
      rebuild_asdict_of_declared hdeclared _
    unfold rebuildAgentWake
    rw [hbyRoute, hrows, hattributes, reclassifyLegacyDedup_other hsettled.attributes]
    rfl
  have hread : ∀ fields : Fields, doc.toJson = .obj fields →
      fields.get "version" = .int evidenceVersion ∧
        fields.get "updated_at" = ofText doc.updatedAt ∧
        fields.get "delivery_sinks" = rowsJson sinkSchema.asdict doc.deliverySinks ∧
        fields.get "agent_wakes" = rowsJson wakeJson doc.agentWakes ∧
        fields.get "freeze_selftest" = .obj (selfTestSchema.asdict doc.freezeSelftest) := by
    intro fields hfields
    cases hfields
    exact ⟨rfl, rfl, rfl, rfl, rfl⟩
  obtain ⟨hversion, hat, hsinksAt, hwakesAt, hselfTest⟩ := hread _ rfl
  unfold Document.fromJson Document.toJson
  rw [Json.asObj]
  dsimp only
  rw [hversion, hsinksAt, hwakesAt, hselfTest, hsinks, hwakes, hat, hrebuild h.selfTest]
  cases hupdatedAt : doc.updatedAt <;> simp [Json.equalsInt, ofText, Json.asStr, ← hupdatedAt]

/-! ## 4. Loading -/

/-- What an agent's record that is loaded holds, beside its entry. -/
structure MigratedWake (stored : Fields) (wake : WakeRecord) : Prop where
  attributes : Migrated agentSchema legacyDedupProvenance stored wake.attributes
  rows : ∀ route, Option.Rel (Migrated routeSchema []) (entry (stored.get "by_route") route)
    (wake.byRoute.lookup route)

/-- What a document that is loaded holds, beside its file: each entry, and nothing else. -/
structure MigratedDocument (stored : Fields) (doc : Document) : Prop where
  updatedAt : doc.updatedAt = (stored.get "updated_at").asStr
  sinks : ∀ route, Option.Rel (AsStored sinkSchema []) (entry (stored.get "delivery_sinks") route)
    (doc.deliverySinks.lookup route)
  wakes : ∀ agent, Option.Rel MigratedWake (entry (stored.get "agent_wakes") agent)
    (doc.agentWakes.lookup agent)
  selfTest : AsStored selfTestSchema [] ((stored.get "freeze_selftest").asObj.getD [])
    doc.freezeSelftest

/-- An agent's record is loaded. -/
theorem rebuildAgentWake_migrated {float : FloatText} {stored : Fields} {wake : WakeRecord}
    (h : rebuildAgentWake float stored = some wake) :
    MigratedWake stored wake ∧ wake.attributes.Declared agentSchema ∧ wake.Settled ∧
      ∀ route row, wake.byRoute.lookup route = some row → row.Declared routeSchema := by
  unfold rebuildAgentWake at h
  obtain ⟨byRoute, hbyRoute, h⟩ := Option.bind_eq_some_iff.mp h
  obtain ⟨attributes, hattributes, h⟩ := Option.bind_eq_some_iff.mp h
  cases h
  have hrow : ∀ route row, byRoute.lookup route = some row →
      row.Declared routeSchema ∧ row.Settled := by
    intro route row hlookup
    obtain ⟨entry, hentry⟩ := rebuildRows_row hbyRoute hlookup
    exact reclassify_settled routeSchema_reclassifiable route_provenance hentry
  obtain ⟨hdeclared, hsettled⟩ :=
    reclassify_settled agentSchema_reclassifiable agent_provenance hattributes
  refine ⟨⟨migrated agentSchema_reclassifiable agent_provenance hattributes, ?_⟩, hdeclared,
    ⟨hsettled, fun route row hlookup => (hrow route row hlookup).2⟩,
    fun route row hlookup => (hrow route row hlookup).1⟩
  exact rebuildRows_rel (fun _ _ hentry => migrated routeSchema_reclassifiable route_provenance
    hentry) hbyRoute

theorem empty_loaded : Document.empty.Loaded where
  sinks _ _ h := by simp [Document.empty] at h
  wakes _ _ h := by simp [Document.empty] at h
  rows _ _ h := by simp [Document.empty] at h
  selfTest := (new_typed selfTestSchema).declared

/-- **Loading moves one dedup of a record, and loads a document it has loaded as it is.**  A file
that is no document of this version loads as an empty one. -/
theorem loading_idempotent (float : FloatText) (file : Json) (doc : Document)
    (h : Document.fromJson float file = some doc) :
    Document.fromJson float doc.toJson = some doc ∧
      ((∃ stored, file.asObj = some stored ∧
          (stored.get "version").equalsInt float evidenceVersion = true ∧
          MigratedDocument stored doc) ∨
        ((∀ stored, file.asObj = some stored →
          (stored.get "version").equalsInt float evidenceVersion = false) ∧ doc = .empty)) := by
  unfold Document.fromJson at h
  cases hfile : file.asObj with
  | none =>
    rw [hfile] at h
    cases h
    exact ⟨fromJson_toJson_of_loaded empty_loaded, Or.inr ⟨nofun, rfl⟩⟩
  | some stored =>
    rw [hfile] at h
    dsimp only at h
    cases hversion : (stored.get "version").equalsInt float evidenceVersion with
    | false =>
      rw [hversion, if_pos (by decide)] at h
      cases h
      refine ⟨fromJson_toJson_of_loaded empty_loaded, Or.inr ⟨fun stored' hstored' => ?_, rfl⟩⟩
      cases hstored'
      exact hversion
    | true =>
      rw [hversion, if_neg (by decide)] at h
      obtain ⟨deliverySinks, hdeliverySinks, h⟩ := Option.bind_eq_some_iff.mp h
      obtain ⟨agentWakes, hagentWakes, h⟩ := Option.bind_eq_some_iff.mp h
      cases h
      have hselfTest : ∀ v : Json, selfTestSchema.rebuild v =
          selfTestSchema.rebuild (.obj (v.asObj.getD [])) := fun _ => rfl
      refine ⟨fromJson_toJson_of_loaded ⟨?_, ?_, ?_, rebuild_declared _ _⟩,
        Or.inl ⟨stored, rfl, hversion, rfl, ?_, ?_, ?_⟩⟩
      · intro route sink hsink
        obtain ⟨entry, hentry⟩ := rebuildRows_row hdeliverySinks hsink
        cases hentry
        exact rebuild_declared _ _
      · intro agent wake hwake
        obtain ⟨entry, hentry⟩ := rebuildRows_row hagentWakes hwake
        obtain ⟨-, hdeclared, hsettled, -⟩ := rebuildAgentWake_migrated hentry
        exact ⟨hdeclared, hsettled⟩
      · intro agent wake hwake
        obtain ⟨entry, hentry⟩ := rebuildRows_row hagentWakes hwake
        exact (rebuildAgentWake_migrated hentry).2.2.2
      · refine rebuildRows_rel (fun entry sink hentry => ?_) hdeliverySinks
        cases hentry
        exact rebuild_asStored _ _
      · exact rebuildRows_rel (fun _ _ hentry => (rebuildAgentWake_migrated hentry).1) hagentWakes
      · rw [hselfTest]
        exact rebuild_asStored _ _

/-- An agent's last refusal is a dedup, the second of two. -/
def legacyFile : Json :=
  .obj [("version", .int 1), ("agent_wakes", .obj [("nova", .obj [("refused", .int 2),
    ("last_refused_reason", .str duplicateDelivery), ("last_refused_at", .str "2026-07-01")])])]

theorem loading_idempotent_legacy : ∃ doc, Document.fromJson .unread legacyFile = some doc ∧
    Document.fromJson .unread doc.toJson = some doc :=
  ⟨_, rfl, (loading_idempotent .unread legacyFile _ rfl).1⟩

/-- A document dated with a number. -/
def numberedFile : Fields := [("version", .int 1), ("updated_at", .int 5)]

/-- **Not every field is as stored.**  A date that is no text is let go. -/
theorem not_as_stored_updated_at : ∃ doc, ∃ fields : Fields,
    Document.fromJson .unread (.obj numberedFile) = some doc ∧ doc.toJson = .obj fields ∧
      numberedFile.get "updated_at" = .int 5 ∧ fields.get "updated_at" = .null :=
  ⟨_, _, rfl, rfl, rfl, rfl⟩

end BasecradleRouter.Evidence
