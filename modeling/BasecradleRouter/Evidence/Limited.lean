/-
# The document and the interpreter's limits

`_load` catches `OSError` and `ValueError`, and `_flush_locked` only `OSError`.  So a file whose
JSON nests too deep for `json.load` keeps the store from being constructed, one with an integer of
too many digits is taken for a corrupt one, and a counter that has come to such an integer makes
the next flush raise.

* `constructWithin` and `applyAllWithin` are construction and calls with these limits.  Where none
  is met they are `construct` and `applyAll` (`constructWithin_construct`, `applyWithin_apply`).
* `construct_iff`: from which files a store is constructed that holds what is declared and takes so
  many calls.  One direction leaves room at every place (`applyAllWithin_of_room`); the other fills
  one of them up (`applyAllWithin_fills`).
-/
import BasecradleRouter.Evidence.Counts
import BasecradleRouter.Lib.JsonFault
import Mathlib.Tactic.Linarith

namespace BasecradleRouter.Evidence

open BasecradleRouter.Lib BasecradleRouter.Dedup

/-! ## 1. Within the limits -/

/-- For how many levels the interpreter has room. -/
structure Interpreter where
  /-- `json.load` -/
  loading : ℕ
  /-- `asdict` and `json.dumps` -/
  printing : ℕ
  /-- A document, its wakes, one of them, its rows, one of them. -/
  roomy : 5 ≤ printing

namespace Store

variable (json : JsonText) (float : FloatText) (interpreter : Interpreter)

/-- `_flush_locked`, where the write succeeds.  What `asdict` or `json.dumps` raises is no
`OSError`. -/
def flushWithin (doc : Document) (stamp : Utc) : Option Store :=
  let flushed := flush json doc stamp
  match flushed.doc.toJson.fault interpreter.printing with
  | none => some flushed
  | some _ => none

/-- `EvidenceStore(path)`, over a file whose text is that of `raw`. -/
def constructWithin (raw : Json) (stamp : Utc) : Option Store :=
  match raw.fault interpreter.loading with
  | some .recursion => none
  -- a `ValueError`, which `_load` takes for a corrupt file
  | some .digits => some .new
  | none =>
    (Document.fromJson float raw.held).bind fun doc =>
      if doc.stale float then flushWithin json interpreter (doc.discardQueued float) stamp
      else some ⟨doc, raw.held⟩

/-- One call. -/
def applyWithin (s : Store) (call : Timed) : Option Store :=
  match call.operation with
  | .queueDepth agent pending =>
    let wake := s.doc.wake agent
    if (wake.attributes "queued").equalsInt float pending then
      some { s with doc := { s.doc with agentWakes := s.doc.agentWakes.insert agent wake } }
    else
      (s.doc.record float call.now call.operation).bind fun doc =>
        flushWithin json interpreter doc call.stamp
  | operation =>
    (s.doc.record float call.now operation).bind fun doc =>
      flushWithin json interpreter doc call.stamp

/-- Calls one after another. -/
def applyAllWithin (s : Store) (calls : List Timed) : Option Store :=
  calls.foldlM (fun s call => s.applyWithin json float interpreter call) s

end Store

/-! ## 2. What is printed -/

/-- Of values without parts only an integer stops the interpreter. -/
theorem fault_atom {v : Json} (h : v.isAtom = true) {room : ℕ} :
    v.fault room = none ↔ ∀ i, v = .int i → shortInt i = true := by
  cases v with
  | int i => simp [Json.fault]
  | arr items => cases h
  | obj fields => cases h
  | _ => simp [Json.fault]

theorem asdict_fault {schema : Schema} {record : Record} (h : record.Typed schema) {room : ℕ} :
    (∀ field ∈ schema.asdict record, field.2.fault room = none) ↔
      ∀ name, schema.lookup name = some .counter → shortInt (amount name record) = true := by
  have hfits : ∀ {name kind}, schema.lookup name = some kind → kind.fits (record name) = true :=
    fun hkind => h.fits _ _ hkind List.not_mem_nil
  constructor
  · intro hall name hkind
    have hfault := hall (name, record name)
      (List.mem_map.mpr ⟨(name, .counter), mem_of_lookup hkind, rfl⟩)
    obtain ⟨n, hn⟩ := h.counter hkind
    rw [amount_of_eq hn]
    exact (fault_atom (atom_of_fits (hfits hkind))).mp hfault n hn
  · intro hall field hfield
    obtain ⟨⟨name, kind⟩, hmem, rfl⟩ := List.mem_map.mp hfield
    obtain ⟨kind', hkind⟩ : ∃ kind', schema.lookup name = some kind' := by
      by_contra hnone
      have hnone' : schema.lookup name = none := by
        simpa [Option.eq_none_iff_forall_ne_some] using hnone
      exact absurd (List.lookup_eq_none_iff.mp hnone' _ hmem) (by simp)
    refine (fault_atom (atom_of_fits (hfits hkind))).mpr fun i hi => ?_
    have hint := hfits hkind
    rw [show record name = .int i from hi] at hint
    cases kind' with
    | counter =>
      rw [← amount_of_eq (show record name = .int i from hi)]
      exact hall name hkind
    | text => cases hint
    | flag => cases hint

theorem rowsJson_fault {α : Type} {f : α → Fields} {rows : Rows α} {room : ℕ} :
    (rowsJson f rows).fault (room + 2) = none ↔
      ∀ name row, rows.lookup name = some row → ∀ field ∈ f row, field.2.fault room = none := by
  unfold rowsJson
  rw [Json.fault, Json.faultFields_eq_none]
  constructor
  · intro hall name row hrow
    have hfault := hall (name, .obj (f row))
      (List.mem_map.mpr ⟨(name, row), mem_sortedItems.mpr hrow, rfl⟩)
    rwa [Json.fault, Json.faultFields_eq_none] at hfault
  · intro hall field hfield
    obtain ⟨⟨name, row⟩, hmem, rfl⟩ := List.mem_map.mp hfield
    rw [Json.fault, Json.faultFields_eq_none]
    exact hall name row (mem_sortedItems.mp hmem)

theorem sinkSchema_counter {name : String} (h : sinkSchema.lookup name = some .counter) :
    ∃ c : SinkCounter, c.name = name := by
  have hmem := mem_of_lookup h
  simp only [sinkSchema, List.mem_cons, Prod.mk.injEq, List.not_mem_nil, reduceCtorEq, and_true,
    and_false, or_false] at hmem
  rcases hmem with rfl | rfl | rfl | rfl
  · exact ⟨.accepted, rfl⟩
  · exact ⟨.rejected, rfl⟩
  · exact ⟨.woke, rfl⟩
  · exact ⟨.ignored, rfl⟩

theorem routeSchema_counter {name : String} (h : routeSchema.lookup name = some .counter) :
    ∃ c : Counter, c.name = name := by
  have hmem := mem_of_lookup h
  simp only [routeSchema, List.mem_cons, Prod.mk.injEq, List.not_mem_nil, reduceCtorEq, and_true,
    and_false, or_false] at hmem
  rcases hmem with rfl | rfl | rfl | rfl
  · exact ⟨.ok, rfl⟩
  · exact ⟨.failed, rfl⟩
  · exact ⟨.refused, rfl⟩
  · exact ⟨.deduped, rfl⟩

theorem agentSchema_counter {name : String} (h : agentSchema.lookup name = some .counter) :
    name = "queued" ∨ ∃ c : Counter, c.name = name := by
  have hmem := mem_of_lookup h
  simp only [agentSchema, List.mem_cons, Prod.mk.injEq, List.not_mem_nil, reduceCtorEq, and_true,
    and_false, false_or, or_false] at hmem
  rcases hmem with rfl | rfl | rfl | rfl | rfl
  · exact Or.inr ⟨.ok, rfl⟩
  · exact Or.inr ⟨.failed, rfl⟩
  · exact Or.inr ⟨.refused, rfl⟩
  · exact Or.inr ⟨.deduped, rfl⟩
  · exact Or.inl rfl

namespace Document

variable {doc : Document}

/-- Every integer in the document is short. -/
structure Printable (doc : Document) : Prop where
  counts : ∀ p, shortInt (doc.count p) = true
  queued : ∀ agent, shortInt (amount "queued" (doc.wake agent).attributes) = true

/-- A document of its types is printed where the counters of its rows are. -/
theorem Typed.toJson_fault_rows (h : doc.Typed) {room : ℕ} :
    doc.toJson.fault (room + 5) = none ↔
      (∀ route sink, doc.deliverySinks.lookup route = some sink → ∀ name,
        sinkSchema.lookup name = some .counter → shortInt (amount name sink) = true) ∧
      ∀ agent wake, doc.agentWakes.lookup agent = some wake →
        (∀ name, agentSchema.lookup name = some .counter →
          shortInt (amount name wake.attributes) = true) ∧
        ∀ route row, wake.byRoute.lookup route = some row → ∀ name,
          routeSchema.lookup name = some .counter → shortInt (amount name row) = true := by
  have hversion : (Json.int evidenceVersion).fault (room + 4) = none :=
    (fault_atom rfl).mpr fun i hi => by
      cases hi
      decide +kernel
  have hupdatedAt : (ofText doc.updatedAt).fault (room + 4) = none := by
    cases doc.updatedAt <;> rfl
  have hself : (Json.obj (selfTestSchema.asdict doc.freezeSelftest)).fault (room + 4) = none := by
    rw [Json.fault, Json.faultFields_eq_none, asdict_fault h.selfTest]
    intro name hkind
    have hmem := mem_of_lookup hkind
    simp [selfTestSchema] at hmem
  have hparts : doc.toJson.fault (room + 5) = none ↔
      (rowsJson sinkSchema.asdict doc.deliverySinks).fault (room + 4) = none ∧
        (rowsJson wakeJson doc.agentWakes).fault (room + 4) = none := by
    rw [toJson, Json.fault, Json.faultFields_eq_none]
    simp [hversion, hupdatedAt, hself]
  rw [hparts, rowsJson_fault, rowsJson_fault]
  refine and_congr ?_ ?_
  · exact forall₃_congr fun route sink hsink => asdict_fault (h.sinks route sink hsink)
  · refine forall₃_congr fun agent wake hwake => ?_
    have htyped := h.wakes agent wake hwake
    simp only [wakeJson, List.forall_mem_append, List.forall_mem_singleton]
    rw [asdict_fault htyped.attributes, rowsJson_fault]
    exact and_congr Iff.rfl
      (forall₃_congr fun route row hrow => asdict_fault (htyped.rows route row hrow))

/-- **A document of its types is printed exactly if its integers are short.** -/
theorem Typed.toJson_fault (h : doc.Typed) {room : ℕ} :
    doc.toJson.fault (room + 5) = none ↔ doc.Printable := by
  rw [h.toJson_fault_rows]
  constructor
  · rintro ⟨hsinks, hwakes⟩
    -- what is not there yet counts nothing
    have hnew : ∀ {schema : Schema} {name : String}, schema.lookup name = some .counter →
        shortInt (amount name schema.new) = true := by
      intro schema name hkind
      rw [new_amount hkind]
      exact shortInt_zero
    have hwake : ∀ agent name, agentSchema.lookup name = some .counter →
        shortInt (amount name (doc.wake agent).attributes) = true := by
      intro agent name hkind
      unfold Document.wake
      cases hlookup : doc.agentWakes.lookup agent with
      | none => exact hnew hkind
      | some wake => exact (hwakes agent wake hlookup).1 name hkind
    refine ⟨fun p => ?_, fun agent => hwake agent "queued" rfl⟩
    cases p with
    | sink route c =>
      show shortInt (amount c.name (doc.sink route)) = true
      unfold Document.sink
      cases hlookup : doc.deliverySinks.lookup route with
      | none => exact hnew (Place.sink route c).declared
      | some sink => exact hsinks route sink hlookup _ (Place.sink route c).declared
    | wake agent c => exact hwake agent _ (Place.wake agent c).declared
    | row agent route c =>
      show shortInt (amount c.name (((doc.wake agent).byRoute.lookup route).getD _)) = true
      cases hrow : (doc.wake agent).byRoute.lookup route with
      | none => exact hnew (Place.row agent route c).declared
      | some row =>
        cases hlookup : doc.agentWakes.lookup agent with
        | none => simp [Document.wake, hlookup, WakeRecord.new] at hrow
        | some wake =>
          have heq : doc.wake agent = wake := by simp [Document.wake, hlookup]
          rw [heq] at hrow
          exact (hwakes agent wake hlookup).2 route row hrow _ (Place.row agent route c).declared
  · rintro ⟨hcounts, hqueued⟩
    refine ⟨fun route sink hsink name hkind => ?_, fun agent wake hwake => ?_⟩
    · obtain ⟨c, rfl⟩ := sinkSchema_counter hkind
      simpa [Document.count, Document.holder, Document.sink, hsink, Place.name] using
        hcounts (.sink route c)
    · have heq : doc.wake agent = wake := by simp [Document.wake, hwake]
      refine ⟨fun name hkind => ?_, fun route row hrow name hkind => ?_⟩
      · rcases agentSchema_counter hkind with rfl | ⟨c, rfl⟩
        · simpa [heq] using hqueued agent
        · simpa [Document.count, Document.holder, heq, Place.name] using hcounts (.wake agent c)
      · obtain ⟨c, rfl⟩ := routeSchema_counter hkind
        simpa [Document.count, Document.holder, heq, hrow, Place.name] using
          hcounts (.row agent route c)

end Document

/-! ## 3. Calls -/

namespace Store

variable {json : JsonText} {float : FloatText} {interpreter : Interpreter} {s s' : Store}
  {call : Timed}

theorem flushWithin_eq_some {doc : Document} {stamp : Utc} :
    flushWithin json interpreter doc stamp = some s' ↔
      flush json doc stamp = s' ∧ s'.doc.toJson.fault interpreter.printing = none := by
  unfold flushWithin
  dsimp only
  split
  · next hfault =>
    constructor
    · intro h
      cases h
      exact ⟨rfl, hfault⟩
    · rintro ⟨rfl, -⟩
      rfl
  · next hfault =>
    refine iff_of_false nofun ?_
    rintro ⟨rfl, hnone⟩
    rw [hfault] at hnone
    cases hnone

/-- **A call**: a queue depth that has not changed, or an update and its flush. -/
theorem apply_cases (json : JsonText) (float : FloatText) (interpreter : Interpreter) (s : Store)
    (call : Timed) :
    (∃ agent pending s', call.operation = .queueDepth agent pending ∧
      s'.doc = { s.doc with agentWakes := s.doc.agentWakes.insert agent (s.doc.wake agent) } ∧
      s.apply json float call = some s' ∧ s.applyWithin json float interpreter call = some s') ∨
    (s.apply json float call =
        (s.doc.record float call.now call.operation).map (flush json · call.stamp) ∧
      s.applyWithin json float interpreter call =
        (s.doc.record float call.now call.operation).bind
          (flushWithin json interpreter · call.stamp)) := by
  obtain ⟨operation, now, stamp⟩ := call
  cases operation with
  | queueDepth agent pending =>
    by_cases hsame : ((s.doc.wake agent).attributes "queued").equalsInt float pending = true
    · exact Or.inl ⟨agent, pending, _, rfl, rfl, if_pos hsame, if_pos hsame⟩
    · exact Or.inr ⟨if_neg hsame, if_neg hsame⟩
  | _ => exact Or.inr ⟨rfl, rfl⟩

/-- A call that gets through does what it does without the limits, and what it counts is printed. -/
theorem applyWithin_apply (h : s.applyWithin json float interpreter call = some s') :
    s.apply json float call = some s' ∧
      (call.operation.places ≠ [] → s'.doc.toJson.fault interpreter.printing = none) := by
  rcases apply_cases json float interpreter s call with
    ⟨agent, pending, s'', hoperation, -, happly, hwithin⟩ | ⟨happly, hwithin⟩
  · rw [happly, ← hwithin, h, hoperation]
    exact ⟨rfl, fun hcounts => absurd rfl hcounts⟩
  · rw [hwithin] at h
    obtain ⟨doc, hdoc, hflush⟩ := Option.bind_eq_some_iff.mp h
    obtain ⟨hs', hprinted⟩ := flushWithin_eq_some.mp hflush
    rw [happly, hdoc, ← hs']
    exact ⟨rfl, fun _ => hs' ▸ hprinted⟩

/-- A call gets through if what it leaves is printed. -/
theorem apply_applyWithin (h : s.apply json float call = some s')
    (hprinted : s'.doc.toJson.fault interpreter.printing = none) :
    s.applyWithin json float interpreter call = some s' := by
  rcases apply_cases json float interpreter s call with
    ⟨agent, pending, s'', -, -, happly, hwithin⟩ | ⟨happly, hwithin⟩
  · rw [hwithin, ← happly, h]
  · rw [happly] at h
    obtain ⟨doc, hdoc, hflush⟩ := Option.map_eq_some_iff.mp h
    rw [hwithin, hdoc]
    exact flushWithin_eq_some.mpr ⟨hflush, hprinted⟩

/-- **A call counts where it is for**, and sets the queue depth it reports. -/
theorem apply_count (h : s.doc.Typed) (happly : s.apply json float call = some s') :
    (∀ p, s'.doc.count p = s.doc.count p + if p ∈ call.operation.places then 1 else 0) ∧
      ∀ agent, (s'.doc.wake agent).attributes "queued" = (s.doc.wake agent).attributes "queued" ∨
        ∃ pending, call.operation = .queueDepth agent pending ∧
          (s'.doc.wake agent).attributes "queued" = .int pending := by
  rcases apply_cases json float ⟨5, 5, le_rfl⟩ s call with
    ⟨agent, pending, s'', hoperation, hdoc, happly', -⟩ | ⟨happly', -⟩
  · cases happly.symm.trans happly'
    rw [hoperation]
    refine ⟨fun p => ?_, fun agent' => Or.inl ?_⟩
    · rw [hdoc, Document.putWake_count]
      simp [Operation.places]
    · rw [hdoc, Document.putWake_wake]
  · rw [happly'] at happly
    obtain ⟨doc, hdoc, rfl⟩ := Option.map_eq_some_iff.mp happly
    have hcount := Document.record_count h hdoc
    have hqueued := Document.record_queued h hdoc
    exact ⟨hcount, hqueued⟩

end Store

/-! ## 4. Runs -/

/-- The counters of a document leave room for so many more, and its queue depths are short. -/
structure Document.Room (doc : Document) (more : ℕ) : Prop where
  counts : ∀ p, -10 ^ maxStrDigits < doc.count p ∧ doc.count p + more < 10 ^ maxStrDigits
  queued : ∀ agent, shortInt (amount "queued" (doc.wake agent).attributes) = true

theorem Document.Room.printable {doc : Document} {more : ℕ} (h : doc.Room more) :
    doc.Printable where
  counts p := by
    obtain ⟨hlow, hhigh⟩ := h.counts p
    exact shortInt_iff.mpr ⟨hlow, lt_of_le_of_lt (by omega) hhigh⟩
  queued := h.queued

/-- A queue depth that a call reports is short. -/
def Operation.Short : Operation → Prop
  | .queueDepth _ pending => shortInt pending = true
  | _ => True

namespace Interpreter

variable (interpreter : Interpreter)

theorem printing_eq : ∃ room, interpreter.printing = room + 5 :=
  ⟨interpreter.printing - 5, by have := interpreter.roomy; omega⟩

/-- A document of its types is printed exactly if its integers are short. -/
theorem prints {doc : Document} (h : doc.Typed) :
    doc.toJson.fault interpreter.printing = none ↔ doc.Printable := by
  obtain ⟨room, hroom⟩ := interpreter.printing_eq
  rw [hroom, h.toJson_fault]

end Interpreter

namespace Store

variable {json : JsonText} {float : FloatText} {interpreter : Interpreter} {s s' : Store}

/-- A call with room for one more gets through, and leaves room for one less. -/
theorem applyWithin_of_room (json : JsonText) (float : FloatText) (interpreter : Interpreter)
    {more : ℕ} (h : s.doc.Typed) (hroom : s.doc.Room (more + 1))
    {call : Timed} (hshort : call.operation.Short) :
    ∃ s', s.applyWithin json float interpreter call = some s' ∧ s'.doc.Typed ∧
      s'.doc.Room more := by
  obtain ⟨s', hs', htyped⟩ : ∃ s', s.apply json float call = some s' ∧ s'.doc.Typed :=
    apply_typed h call
  obtain ⟨hcount, hqueued⟩ := apply_count h hs'
  have hroom' : s'.doc.Room more := by
    refine ⟨fun p => ?_, fun agent => ?_⟩
    · obtain ⟨hlow, hhigh⟩ := hroom.counts p
      rw [hcount p]
      push_cast at hhigh
      split <;> constructor <;> linarith
    · rcases hqueued agent with hsame | ⟨pending, hoperation, hset⟩
      · rw [amount, hsame]
        exact hroom.queued agent
      · rw [hoperation] at hshort
        rw [amount_of_eq hset]
        exact hshort
  exact ⟨s', apply_applyWithin hs' ((interpreter.prints htyped).mpr hroom'.printable), htyped,
    hroom'⟩

/-- **With room for every call of a run each gets through.** -/
theorem applyAllWithin_of_room {calls : List Timed} (h : s.doc.Typed)
    (hroom : s.doc.Room calls.length) (hshort : ∀ call ∈ calls, call.operation.Short) :
    ∃ s', s.applyAllWithin json float interpreter calls = some s' := by
  induction calls generalizing s with
  | nil => exact ⟨s, rfl⟩
  | cons call calls ih =>
    obtain ⟨s', hs', htyped, hroom'⟩ := applyWithin_of_room json float interpreter h hroom
      (hshort call List.mem_cons_self)
    obtain ⟨s'', hs''⟩ := ih htyped hroom' fun call' hmem =>
      hshort call' (List.mem_cons_of_mem _ hmem)
    refine ⟨s'', ?_⟩
    unfold applyAllWithin at hs'' ⊢
    rw [List.foldlM_cons, hs']
    exact hs''

/-- A run of calls that all count at one place fills that place up. -/
theorem applyAllWithin_fills {p : Place} {calls : List Timed} (h : s.doc.Typed)
    (hcalls : ∀ call ∈ calls, call.operation = p.raise)
    (happly : s.applyAllWithin json float interpreter calls = some s') :
    s'.doc.count p = s.doc.count p + calls.length ∧
      (calls ≠ [] → shortInt (s'.doc.count p) = true) := by
  induction calls generalizing s with
  | nil =>
    cases happly
    simp
  | cons call calls ih =>
    unfold applyAllWithin at happly
    rw [List.foldlM_cons] at happly
    obtain ⟨s'', hs'', happly⟩ := Option.bind_eq_some_iff.mp happly
    have hraise := hcalls call List.mem_cons_self
    obtain ⟨hcall, hprinted⟩ := applyWithin_apply hs''
    have hmem : p ∈ call.operation.places := by
      rw [hraise]
      exact p.raise_places
    obtain ⟨s₃, hs₃, htyped⟩ : ∃ s', s.apply json float call = some s' ∧ s'.doc.Typed :=
      apply_typed h call
    cases hcall.symm.trans hs₃
    have hcount := (apply_count h hcall).1 p
    rw [if_pos hmem] at hcount
    obtain ⟨hrest, hshort⟩ := ih htyped
      (fun call' hin => hcalls call' (List.mem_cons_of_mem _ hin)) happly
    refine ⟨?_, fun _ => ?_⟩
    · rw [hrest, hcount, List.length_cons]
      push_cast
      omega
    · cases calls with
      | nil =>
        cases happly
        exact ((interpreter.prints htyped).mp (hprinted (List.ne_nil_of_mem hmem))).counts p
      | cons call' calls => exact hshort (List.cons_ne_nil _ _)

end Store

/-! ## 5. What is short in a file -/

theorem bound_pos : (0 : ℤ) < 10 ^ maxStrDigits := (shortInt_iff.mp shortInt_zero).2

theorem number_low {v : Json} (h : v.Legible) : -10 ^ maxStrDigits < numberOf v := by
  have hpos := bound_pos
  cases v with
  | int i => exact (shortInt_iff.mp h.int).1
  | bool b =>
    have hnonneg : 0 ≤ numberOf (.bool b) := by cases b <;> decide
    linarith
  | _ => simp [numberOf]

theorem loaded_low {stored : Fields} (h : (Json.obj stored).Legible) (name : String) :
    -10 ^ maxStrDigits < loaded stored name := by
  have hpos := bound_pos
  have hnumber := number_low (h.get name)
  unfold loaded
  dsimp only
  split
  · split
    · linarith
    · split
      · exact lt_of_lt_of_le (by linarith) (le_max_left 0 _)
      · exact hnumber
  · exact hnumber

theorem entry_legible {v : Json} (h : v.Legible) (key : String) :
    (Json.obj ((entry v key).getD [])).Legible :=
  (h.fields.get key).fields

theorem Place.entry_legible {stored : Fields} (h : (Json.obj stored).Legible) (p : Place) :
    (Json.obj (p.entry stored)).Legible := by
  cases p with
  | sink route c => exact Evidence.entry_legible (h.get _) route
  | wake agent c => exact Evidence.entry_legible (h.get _) agent
  | row agent route c =>
    have hwake := Evidence.entry_legible (h.get "agent_wakes") agent
    exact Evidence.entry_legible (hwake.get _) route

theorem documentOf_legible (float : FloatText) {v : Json} (h : v.Legible) :
    (Json.obj (documentOf float v)).Legible := by
  unfold documentOf
  dsimp only
  split
  · exact h.fields
  · exact ⟨1, by simp [Json.fault, Json.faultFields]⟩

/-! ## 6. From which files -/

/-- What is read of a document in a file. -/
def readOf (float : FloatText) (interpreter : Interpreter) (raw : Json) : Fields :=
  match raw.fault interpreter.loading with
  | none => documentOf float raw.held
  | some _ => []

namespace Store

variable {json : JsonText} {float : FloatText} {interpreter : Interpreter} {raw : Json}
  {stamp : Utc} {s : Store}

/-- **Construction**, where it gets through: of a file that is not read nothing, of any other what
there is without the limits. -/
theorem constructWithin_construct
    (h : constructWithin json float interpreter raw stamp = some s) :
    (raw.fault interpreter.loading = some .digits ∧ s = .new) ∨
      (raw.fault interpreter.loading = none ∧
        construct json float raw.held stamp = some s) := by
  unfold constructWithin at h
  cases hfault : raw.fault interpreter.loading with
  | some fault =>
    rw [hfault] at h
    cases fault with
    | recursion => cases h
    | digits =>
      cases h
      exact Or.inl ⟨rfl, rfl⟩
  | none =>
    rw [hfault] at h
    obtain ⟨doc, hdoc, h⟩ := Option.bind_eq_some_iff.mp h
    refine Or.inr ⟨rfl, ?_⟩
    unfold construct
    rw [hdoc, Option.map_some]
    split at h
    · next hstale => rw [if_pos hstale, (flushWithin_eq_some.mp h).1]
    · next hfresh => rw [if_neg hfresh, h]

/-- A store is constructed from a file that is read, if what it then writes is printed. -/
theorem construct_constructWithin (hfault : raw.fault interpreter.loading = none)
    (h : construct json float raw.held stamp = some s)
    (hprinted : s.doc.toJson.fault interpreter.printing = none) :
    constructWithin json float interpreter raw stamp = some s := by
  unfold construct at h
  unfold constructWithin
  obtain ⟨doc, hdoc, h⟩ := Option.map_eq_some_iff.mp h
  simp only [hfault, hdoc, Option.bind_some]
  split at h
  · next hstale =>
    rw [if_pos hstale]
    exact flushWithin_eq_some.mpr ⟨h, hprinted⟩
  · next hfresh => rw [if_neg hfresh, h]

/-- What a store counts that is constructed is what is read of its file. -/
theorem constructWithin_count (h : constructWithin json float interpreter raw stamp = some s)
    (htyped : s.doc.Typed) (p : Place) :
    p.loaded (readOf float interpreter raw) = s.doc.count p := by
  unfold readOf
  rcases constructWithin_construct h with ⟨hfault, rfl⟩ | ⟨hfault, hconstruct⟩
  · rw [hfault]
    refine p.loaded_nil.trans ?_
    cases p with
    | sink route c => exact (new_amount (Place.sink route c).declared).symm
    | wake agent c => exact (new_amount (Place.wake agent c).declared).symm
    | row agent route c => exact (new_amount (Place.row agent route c).declared).symm
  · rw [hfault]
    exact construct_count hconstruct htyped p

end Store

/-- A file that does no harm: it is not nested too deep, its fields are what is declared if it is
read, and each counter has room for so many more. -/
structure Bearable (float : FloatText) (interpreter : Interpreter) (more : ℕ) (raw : Json) :
    Prop where
  shallow : raw.fault interpreter.loading ≠ some .recursion
  tolerable : raw.fault interpreter.loading = none → Tolerable float raw.held
  room : ∀ p : Place, p.loaded (readOf float interpreter raw) + more < 10 ^ maxStrDigits

theorem Place.raise_short (p : Place) : p.raise.Short := by
  cases p with
  | sink route c => cases c <;> trivial
  | wake agent c => cases c <;> trivial
  | row agent route c => cases c <;> trivial

/-- From a file that does no harm a store is constructed with the room there is in it. -/
theorem Bearable.construct {json : JsonText} {float : FloatText} {interpreter : Interpreter}
    {more : ℕ} {raw : Json} {stamp : Utc} (h : Bearable float interpreter more raw) :
    ∃ s, Store.constructWithin json float interpreter raw stamp = some s ∧ s.doc.Typed ∧
      s.doc.Room more := by
  cases hfault : raw.fault interpreter.loading with
  | some fault =>
    cases fault with
    | recursion => exact absurd hfault h.shallow
    | digits =>
      have hs : Store.constructWithin json float interpreter raw stamp = some .new := by
        rw [Store.constructWithin, hfault]
      refine ⟨.new, hs, empty_typed, fun p => ?_, fun agent => ?_⟩
      · have hcount := Store.constructWithin_count hs empty_typed p
        have hroom := h.room p
        rw [hcount] at hroom
        refine ⟨?_, hroom⟩
        rw [← hcount, readOf, hfault, p.loaded_nil]
        exact (shortInt_iff.mp shortInt_zero).1
      · exact shortInt_zero
  | none =>
    obtain ⟨s, hs, htyped⟩ : ∃ s, Store.construct json float raw.held stamp = some s ∧
        s.doc.Typed := construct_typed_iff.mpr (h.tolerable hfault)
    have hcount := construct_count hs htyped
    have hlegible : raw.held.Legible := ⟨_, Json.held_fault raw _ hfault⟩
    have hroom : s.doc.Room more := by
      refine ⟨fun p => ?_, fun agent => ?_⟩
      · have hhigh := h.room p
        rw [readOf, hfault] at hhigh
        rw [← hcount p]
        exact ⟨loaded_low (p.entry_legible (documentOf_legible float hlegible)) _, hhigh⟩
      · rw [amount_of_eq (construct_queued hs htyped agent)]
        exact shortInt_zero
    exact ⟨s, Store.construct_constructWithin hfault hs
      ((interpreter.prints htyped).mpr hroom.printable), htyped, hroom⟩

/-- **What a file must be like.**  From a file that holds any JSON value the store is constructed,
every counter an integer and every other field of its type, and takes every run of so many later
calls, exactly if the file does no harm. -/
theorem construct_iff (json : JsonText) (float : FloatText) (interpreter : Interpreter) (raw : Json)
    (stamp : Utc) (n : ℕ) :
    (∃ s, Store.constructWithin json float interpreter raw stamp = some s ∧ s.doc.Typed ∧
      ∀ calls : List Timed, calls.length ≤ n + 1 → (∀ call ∈ calls, call.operation.Short) →
        ∃ s', s.applyAllWithin json float interpreter calls = some s') ↔
      Bearable float interpreter (n + 1) raw := by
  constructor
  · rintro ⟨s, hs, htyped, hcalls⟩
    have hcase := Store.constructWithin_construct hs
    refine ⟨?_, ?_, fun p => ?_⟩
    · rcases hcase with ⟨hfault, -⟩ | ⟨hfault, -⟩
      · simp [hfault]
      · simp [hfault]
    · intro hread
      rcases hcase with ⟨hfault, -⟩ | ⟨-, hconstruct⟩
      · rw [hread] at hfault
        cases hfault
      · exact construct_typed_iff.mp ⟨s, hconstruct, htyped⟩
    · -- as many calls as there may be, all of them counted there
      have hlength : (List.replicate (n + 1) (Timed.mk p.raise stamp stamp)).length = n + 1 :=
        List.length_replicate
      obtain ⟨s', hs'⟩ := hcalls (List.replicate (n + 1) ⟨p.raise, stamp, stamp⟩) hlength.le
        fun call hmem => by
          rw [List.eq_of_mem_replicate hmem]
          exact p.raise_short
      obtain ⟨hcount, hshort⟩ := Store.applyAllWithin_fills htyped
        (fun call hmem => by rw [List.eq_of_mem_replicate hmem]) hs'
      have hhigh := (shortInt_iff.mp (hshort (by simp))).2
      rw [hcount, hlength] at hhigh
      rw [Store.constructWithin_count hs htyped p]
      exact hhigh
  · intro h
    obtain ⟨s, hs, htyped, hroom⟩ := h.construct
    refine ⟨s, hs, htyped, fun calls hlength hshort => ?_⟩
    refine Store.applyAllWithin_of_room htyped ⟨fun p => ?_, hroom.queued⟩ hshort
    obtain ⟨hlow, hhigh⟩ := hroom.counts p
    exact ⟨hlow, lt_of_le_of_lt (by gcongr) hhigh⟩

/-! ## 7. A file that stops the daemon -/

theorem default_roomy : 5 ≤ 990 := by decide

/-- As many levels as there are where the store is constructed. -/
def defaultInterpreter : Interpreter := ⟨990, 990, default_roomy⟩

/-- An agent's entry with a legacy refusal and no count of dedups. -/
def uncountedFile : Json :=
  .obj [("version", .int 1), ("agent_wakes", .obj [("nova",
    .obj [("deduped", .null), ("last_refused_reason", .str duplicateDelivery)])])]

/-- **A file can stop the daemon from starting.** -/
theorem not_constructed_nova :
    Store.constructWithin .plain .unread defaultInterpreter uncountedFile .earliest = none := by
  decide +kernel

end BasecradleRouter.Evidence
