/-
# What a restart loads

The file is text, and a store keeps what the file reads as.  A settled document's text is read back
as that document (`parsed_dumps`), so the machine is a store: what it has in memory and on disk is
what the store has that went through what `happened` (`recovers`), whenever a call raised and
whenever the daemon was killed.  A flush that was cut short before its swap is one that never
reached the file.

So the document that a restart loads is the one that was swapped in last, and so is the document
that a reader parses from what it was given.
-/
import BasecradleRouter.Evidence.Swapped

namespace BasecradleRouter.Evidence

open BasecradleRouter.Lib BasecradleRouter.Lib.JsonLayout

/-! ## 1. A document's text is read back -/

/-- A value of a declared type is written as it is. -/
theorem plain_of_fits {kind : FieldKind} {v : Json} (h : kind.fits v = true) : Plain v := by
  cases v with
  | null => exact .null
  | bool b => exact .bool b
  | int i => exact .int i
  | str s => exact .str s
  | _ => cases kind <;> cases h

/-- A record of its types, with what is written beside its fields. -/
theorem plain_asdict {schema : Schema} {record : Record} {rest : Fields}
    (hkeys : (schema.map Prod.fst ++ rest.map Prod.fst).Nodup) (h : record.Typed schema)
    (hrest : ∀ p ∈ rest, Plain p.2) : Plain (.obj (schema.asdict record ++ rest)) := by
  have hnames : (schema.asdict record).map Prod.fst = schema.map Prod.fst := by
    rw [Schema.asdict, List.map_map]
    rfl
  refine .obj ?_ fun p hp => ?_
  · rwa [List.map_append, hnames]
  · rcases List.mem_append.mp hp with hp | hp
    · obtain ⟨field, hfield, rfl⟩ := List.mem_map.mp hp
      have hlookup : schema.lookup field.1 = some field.2 :=
        lookup_of_mem hfield fun kind hkind => by
          have hnodup := (List.nodup_append.mp hkeys).1
          exact congrArg Prod.snd (List.inj_on_of_nodup_map hnodup hkind hfield rfl)
      exact plain_of_fits (h.fits field.1 field.2 hlookup List.not_mem_nil)
    · exact hrest p hp

/-- Rows are written in an order, each once. -/
theorem plain_rowsJson {α : Type} {f : α → Fields} {rows : Rows α}
    (h : ∀ name a, rows.lookup name = some a → Plain (.obj (f a))) : Plain (rowsJson f rows) := by
  refine .obj ?_ fun p hp => ?_
  · have hnames : ((sortedItems rows).map fun item => (item.1, Json.obj (f item.2))).map Prod.fst =
        (sortedItems rows).map Prod.fst := by
      rw [List.map_map]
      rfl
    rw [hnames]
    have hsorted : ((sortedItems rows).map Prod.fst).Sublist (PyStr.sorted rows.keys) := by
      unfold sortedItems
      generalize PyStr.sorted rows.keys = names
      induction names with
      | nil => exact .slnil
      | cons name names ih =>
        rw [List.filterMap_cons]
        cases rows.lookup name with
        | none => exact ih.cons name
        | some a => exact ih.cons_cons name
    exact (Finset.sort_nodup _ _).sublist hsorted
  · obtain ⟨item, hitem, rfl⟩ := List.mem_map.mp hp
    exact h item.1 item.2 (mem_sortedItems.mp hitem)

/-- **A document of its types** is written as it is. -/
theorem Document.Typed.plain {doc : Document} (h : doc.Typed) : Plain doc.toJson := by
  have hrecord : ∀ {schema : Schema} {record : Record}, (schema.map Prod.fst).Nodup →
      record.Typed schema → Plain (.obj (schema.asdict record)) := by
    intro schema record hkeys hrecord
    have hplain : Plain (.obj (schema.asdict record ++ [])) :=
      plain_asdict (by rwa [List.map_nil, List.append_nil]) hrecord nofun
    rwa [List.append_nil] at hplain
  have hwake : ∀ agent wake, doc.agentWakes.lookup agent = some wake →
      Plain (.obj (wakeJson wake)) := by
    intro agent wake hlookup
    have htyped := h.wakes agent wake hlookup
    have hkeys : (agentSchema.map Prod.fst ++ ["by_route"]).Nodup := by decide
    refine plain_asdict hkeys htyped.attributes fun p hp => ?_
    rw [List.mem_singleton.mp hp]
    exact plain_rowsJson fun route row hrow => hrecord (by decide) (htyped.rows route row hrow)
  have hkeys : ["version", "updated_at", "delivery_sinks", "agent_wakes",
      "freeze_selftest"].Nodup := by decide
  refine .obj hkeys fun p hp => ?_
  simp only [List.mem_cons, List.not_mem_nil, or_false] at hp
  rcases hp with rfl | rfl | rfl | rfl | rfl
  · exact .int _
  · dsimp only
    cases doc.updatedAt with
    | none => exact .null
    | some text => exact .str text
  · exact plain_rowsJson fun route sink hsink => hrecord (by decide) (h.sinks route sink hsink)
  · exact plain_rowsJson hwake
  · exact hrecord (by decide) h.selfTest

/-- **A document's text** parses as the document does. -/
theorem parsed_dumps {doc : Document} (h : doc.Settled) :
    parsed (some doc.dumps) = JsonText.sorted.reread doc.toJson := by
  have hloads := loads_write (.indented 2) JsonCodec.undone_escape h.typed.plain.sortKeys
  unfold parsed Document.dumps
  rw [Option.bind_some, hloads]
  rfl

/-- And is loaded as it was. -/
theorem load_dumps {float : FloatText} {doc : Document} (h : doc.Settled) :
    load float (some doc.dumps) = some doc := by
  rw [load, parsed_dumps h]
  exact fromJson_toJson h

/-! ## 2. The machine is a store -/

variable {float : FloatText} {document : String} {doc doc' : Document} {file : Json}

/-- **A call in two parts** is what it does to the document, and then the flush. -/
theorem apply_recorded (json : JsonText) {call : Timed} {flushes : Bool}
    (h : doc.recorded float call = some (doc', flushes)) :
    Store.apply json float ⟨doc, file⟩ call =
      some ⟨doc', if flushes then json.reread doc'.toJson else file⟩ := by
  have hflush : ∀ {recorded : Option Document}, (recorded.map fun doc : Document =>
      ({ doc with updatedAt := some call.stamp.isoformat }, true)) = some (doc', flushes) →
      (recorded.map fun doc => Store.flush json doc call.stamp) =
        some ⟨doc', if flushes then json.reread doc'.toJson else file⟩ := by
    intro recorded hrecorded
    obtain ⟨doc'', rfl, heq⟩ := Option.map_eq_some_iff.mp hrecorded
    cases heq
    rfl
  obtain ⟨operation, now, stamp⟩ := call
  cases operation with
  | queueDepth agent pending =>
    simp only [Document.recorded, Store.apply] at h ⊢
    by_cases hsame :
        (((doc.wake agent).attributes "queued").equalsInt float pending) = true
    · rw [if_pos hsame] at h ⊢
      cases h
      rfl
    · rw [if_neg hsame] at h ⊢
      exact hflush h
  | _ =>
    simp only [Document.recorded, Store.apply] at h ⊢
    exact hflush h

/-- **A load in two parts.** -/
theorem construct_discarded (json : JsonText) (h : Document.fromJson float file = some doc)
    (stamp : Utc) : Store.construct json float file stamp =
      some ⟨(doc.discarded float stamp).1, if (doc.discarded float stamp).2 then
        json.reread (doc.discarded float stamp).1.toJson else file⟩ := by
  unfold Store.construct Document.discarded
  rw [h, Option.map_some]
  split <;> rfl

/-- What a flush that is underway will have made of the store. -/
structure Pending (float : FloatText) (s : Store) (doc : Document) (event : StoreEvent) : Prop where
  agrees : doc.Agrees
  reaches : s.happen .sorted float (event.happened true) =
    some ⟨doc, JsonText.sorted.reread doc.toJson⟩
  lost : s.happen .sorted float (event.happened false) = some ⟨doc, s.file⟩

/-- What the daemon has in memory is what the store has, or will have. -/
def Memory (float : FloatText) (s : Store) : Process → Option StoreEvent → Prop
  | .up doc none, current => current = none ∧ doc = s.doc
  | .up doc (some _), current => ∃ event, current = some event ∧ Pending float s doc event
  | _, current => current = none

/-- The event, whether it reached the file or not. -/
def Happening.event : Happening → StoreEvent
  | .record call _ => .record call
  | .restart stamp _ => .restart stamp

/-- The event that an act begins. -/
def Act.begins : Act → List StoreEvent
  | .load stamp => [.restart stamp]
  | .record call => [.record call]
  | _ => []

/-- An act that records no refusal for a dedup's reason. -/
def Act.Admitted : Act → Prop
  | .record call => ¬ call.operation.RefusesDuplicate
  | _ => True

namespace Machine

/-- What has happened, and what is happening. -/
def history (M : Machine) : List StoreEvent :=
  M.happened.map Happening.event ++ M.current.toList

/-- The machine and the store that went through what happened. -/
structure Refined (float : FloatText) (document : String) (s₀ : Store) (M : Machine) (s : Store) :
    Prop where
  ran : s₀.happenAll .sorted float M.happened = some s
  file : parsed (M.dir.text document) = s.file
  sound : Sound float Document.Agrees Document.Agrees s
  memory : Memory float s M.process M.current
  swapped : ∀ doc ∈ M.swapped, doc.Agrees

variable {dir₀ : Directory Char} {s₀ s s' : Store} {M M' : Machine}

theorem happenAll_snoc {json : JsonText} {events : List Happening} {event : Happening}
    (h : s₀.happenAll json float events = some s) (hevent : s.happen json float event = some s') :
    s₀.happenAll json float (events ++ [event]) = some s' := by
  unfold Store.happenAll at h ⊢
  rw [List.foldlM_append, h]
  exact (Option.bind_some ..).trans ((List.foldlM_cons ..).trans (by rw [hevent]; rfl))

/-- The file changes by a swap only. -/
theorem Kept.text_eq (h : M.Kept document dir₀) (h' : M'.Kept document dir₀)
    (hswapped : M'.swapped = M.swapped) : M'.dir.text document = M.dir.text document := by
  rw [h.whole.current, h'.whole.current, hswapped]

/-- Nothing has happened yet. -/
theorem Refined.same (h : M.Refined float document s₀ s) (hkept : M.Kept document dir₀)
    (hkept' : M'.Kept document dir₀) (hswapped : M'.swapped = M.swapped)
    (hhappened : M'.happened = M.happened) (hmemory : Memory float s M'.process M'.current) :
    M'.Refined float document s₀ s where
  ran := hhappened ▸ h.ran
  file := (congrArg parsed (hkept.text_eq hkept' hswapped)).trans h.file
  sound := h.sound
  memory := hmemory
  swapped := hswapped ▸ h.swapped

/-- **A flush is cut short**: the store has the document, and its file stays. -/
theorem Refined.lost (h : M.Refined float document s₀ s) (hkept : M.Kept document dir₀)
    (hkept' : M'.Kept document dir₀) {f : Flushing} (hprocess : M.process = .up doc (some f))
    (hswapped : M'.swapped = M.swapped)
    (hhappened : M'.happened = M.happened ++ (M.current.map (·.happened false)).toList)
    (hcurrent : M'.current = none) (hend : M'.process = .up doc none ∨ M'.process = .down) :
    ∃ s', M'.Refined float document s₀ s' := by
  have hmemory := h.memory
  rw [hprocess] at hmemory
  obtain ⟨event, hevent, hpending⟩ := hmemory
  refine ⟨⟨doc, s.file⟩, ?_, (congrArg parsed (hkept.text_eq hkept' hswapped)).trans h.file,
    ⟨hpending.agrees, h.sound.file⟩, ?_, hswapped ▸ h.swapped⟩
  · rw [hhappened, hevent]
    exact happenAll_snoc h.ran hpending.lost
  · rcases hend with hend | hend
    · rw [hend]
      exact ⟨hcurrent, rfl⟩
    · rw [hend]
      exact hcurrent

/-- **A swap**: the store's file is the document. -/
theorem Refined.swap (h : M.Refined float document s₀ s) (hkept' : M'.Kept document dir₀)
    {f : Flushing} (hprocess : M.process = .up doc (some f))
    (hswapped : M'.swapped = M.swapped ++ [doc])
    (hhappened : M'.happened = M.happened ++ (M.current.map (·.happened true)).toList)
    (hcurrent : M'.current = none) (hend : M'.process = .up doc none) :
    ∃ s', M'.Refined float document s₀ s' := by
  have hmemory := h.memory
  rw [hprocess] at hmemory
  obtain ⟨event, hevent, hpending⟩ := hmemory
  have htext := hkept'.whole.current
  rw [hswapped, List.length_append, List.length_singleton, version,
    List.getElem?_concat_length] at htext
  have hread : Document.fromJson float (JsonText.sorted.reread doc.toJson) = some doc :=
    fromJson_toJson hpending.agrees.1
  refine ⟨⟨doc, JsonText.sorted.reread doc.toJson⟩, ?_, ?_,
    ⟨hpending.agrees, doc, hread, hpending.agrees⟩, ?_, ?_⟩
  · rw [hhappened, hevent]
    exact happenAll_snoc h.ran hpending.reaches
  · rw [htext]
    exact parsed_dumps hpending.agrees.1
  · rw [hend]
    exact ⟨hcurrent, rfl⟩
  · rw [hswapped]
    intro doc' hdoc'
    rcases List.mem_append.mp hdoc' with hdoc' | hdoc'
    · exact h.swapped doc' hdoc'
    · rw [List.mem_singleton.mp hdoc']
      exact hpending.agrees

/-- **A change** is flushed, or it has happened already. -/
theorem Refined.change (h : M.Refined float document s₀ s) {event : StoreEvent}
    {changed : Document × Bool}
    (hsound : ∀ reaches, ∃ s', s.happen .sorted float (event.happened reaches) = some s' ∧
      Sound float Document.Agrees Document.Agrees s')
    (hhappen : ∀ reaches, s.happen .sorted float (event.happened reaches) = some ⟨changed.1,
      if changed.2 && reaches then JsonText.sorted.reread changed.1.toJson else s.file⟩)
    (hcurrent : M.current = none) :
    ∃ s', (M.change event changed).Refined float document s₀ s' := by
  obtain ⟨s', hs', hsound'⟩ := hsound true
  cases hs'.symm.trans (hhappen true)
  obtain ⟨doc, flushes⟩ := changed
  have hagrees : doc.Agrees := hsound'.doc
  cases flushes with
  | true =>
    exact ⟨s, h.ran, h.file, h.sound, ⟨event, rfl, hagrees, hhappen true, hhappen false⟩,
      h.swapped⟩
  | false =>
    exact ⟨⟨doc, s.file⟩, happenAll_snoc h.ran (hhappen true), h.file, ⟨hagrees, h.sound.file⟩,
      ⟨hcurrent, rfl⟩, h.swapped⟩

/-- A document is loaded. -/
theorem Refined.load (h : M.Refined float document s₀ s) (hcurrent : M.current = none)
    (hload : Evidence.load float (M.dir.text document) = some doc) (stamp : Utc) :
    ∃ s', (M.change (.restart stamp) (doc.discarded float stamp)).Refined float document s₀ s' := by
  rw [Evidence.load, h.file] at hload
  refine h.change (fun reaches => h.sound.restart .sorted agrees_durable stamp reaches)
    (fun reaches => ?_) hcurrent
  rw [StoreEvent.happened, Store.happen, construct_discarded .sorted hload, Option.map_some]
  cases reaches <;> cases (doc.discarded float stamp).2 <;> rfl

/-- A call is made. -/
theorem Refined.record (h : M.Refined float document s₀ s)
    (hprocess : M.process = .up doc none) {call : Timed}
    (hcall : ¬ call.operation.RefusesDuplicate) {changed : Document × Bool}
    (hrecorded : doc.recorded float call = some changed) :
    ∃ s', (M.change (.record call) changed).Refined float document s₀ s' := by
  have hmemory := h.memory
  rw [hprocess] at hmemory
  obtain ⟨hcurrent, rfl⟩ := hmemory
  have happly : s.apply .sorted float call = some ⟨changed.1,
      if changed.2 then JsonText.sorted.reread changed.1.toJson else s.file⟩ :=
    apply_recorded .sorted hrecorded
  have hagrees := h.sound.doc
  refine h.change (fun reaches => h.sound.record .sorted agrees_durable agrees_durable id hcall
    (fun doc' hdoc' => ⟨hagrees.1.record hcall hdoc', hagrees.2.record hagrees.1.typed hdoc'⟩)
    reaches) (fun reaches => ?_) hcurrent
  rw [StoreEvent.happened, Store.happen, happly, Option.map_some]
  cases reaches <;> cases changed.2 <;> rfl

/-! ## 3. Runs -/

theorem Refined.current (h : M.Refined float document s₀ s)
    (hidle : ∀ doc f, M.process ≠ .up doc (some f)) : M.current = none := by
  have hmemory := h.memory
  cases hprocess : M.process with
  | down =>
    rw [hprocess] at hmemory
    exact hmemory
  | sweeping orphans =>
    rw [hprocess] at hmemory
    exact hmemory
  | up doc flush =>
    rw [hprocess] at hmemory
    cases flush with
    | none => exact hmemory.1
    | some f => exact absurd hprocess (hidle doc f)

/-- **The step lemma**, for the daemon. -/
theorem Refined.daemon (h : M.Refined float document s₀ s) (hkept : M.Kept document dir₀)
    (hkept' : M'.Kept document dir₀) {act : Act} (hact : act.Admitted)
    (hs : M.Moves float document act M') : ∃ s', M'.Refined float document s₀ s' := by
  have hmemory := h.memory
  cases hs with
  | start _ hprocess | swept hprocess | leftOrphan hprocess | made hprocess | wrote hprocess
  | closed hprocess | widened hprocess | raised hprocess =>
    rw [hprocess] at hmemory
    exact ⟨s, h.same hkept hkept' rfl rfl hmemory⟩
  | @loaded doc stamp hprocess hload =>
    rw [hprocess] at hmemory
    exact h.load hmemory hload stamp
  | recorded hprocess hrecorded => exact h.record hprocess hact hrecorded
  | replaced hprocess => exact h.swap hkept' hprocess rfl rfl rfl rfl
  | notMade hprocess | cleaned hprocess | leftTemp hprocess =>
    exact h.lost hkept hkept' hprocess rfl rfl rfl (Or.inl rfl)
  | killed =>
    by_cases hidle : ∀ doc f, M.process ≠ .up doc (some f)
    · have hcurrent := h.current hidle
      exact ⟨s, h.same hkept hkept' rfl (by rw [hcurrent]; exact List.append_nil _) rfl⟩
    · simp only [ne_eq, not_forall, not_not] at hidle
      obtain ⟨doc, f, hprocess⟩ := hidle
      exact h.lost hkept hkept' hprocess rfl rfl rfl (Or.inr rfl)

/-- **The step lemma.** -/
theorem Refined.step (h : M.Refined float document s₀ s) (hkept : M.Kept document dir₀)
    (hkept' : M'.Kept document dir₀) {act : Act} (hact : act.Admitted)
    (hs : M.step float document act = some M') : ∃ s', M'.Refined float document s₀ s' := by
  rcases Option.or_eq_some_iff.mp hs with hs | ⟨-, hs⟩
  · exact h.daemon hkept hkept' hact (moves_of_daemonStep hs)
  · obtain ⟨r, at_, rfl⟩ := readerStep_eq hs
    exact ⟨s, h.ran, h.file, h.sound, h.memory, h.swapped⟩

theorem Happening.event_happened (event : StoreEvent) (reaches : Bool) :
    (event.happened reaches).event = event := by
  cases event <;> rfl

/-- What is over now has happened. -/
theorem settled_history (M : Machine) (reaches : Bool) :
    (M.happened ++ (M.current.map (·.happened reaches)).toList).map Happening.event =
      M.history := by
  rw [history, List.map_append]
  cases M.current with
  | none => rfl
  | some event =>
    exact congrArg (M.happened.map Happening.event ++ [·]) (Happening.event_happened event reaches)

theorem change_history (hcurrent : M.current = none) (event : StoreEvent)
    (changed : Document × Bool) : (M.change event changed).history = M.history ++ [event] := by
  unfold change history
  rw [hcurrent, Option.toList_none, List.append_nil]
  split
  · rfl
  · rw [List.map_append, List.map_singleton, Happening.event_happened]
    exact List.append_nil _

/-- **The history is what was begun**, in order. -/
theorem Refined.history (h : M.Refined float document s₀ s) {act : Act}
    (hs : M.step float document act = some M') : M'.history = M.history ++ act.begins := by
  have hsame : M.history = M.history ++ [] := (List.append_nil _).symm
  rcases Option.or_eq_some_iff.mp hs with hs | ⟨-, hs⟩
  · have hover : ∀ reaches, (M.happened ++ (M.current.map (·.happened reaches)).toList).map
        Happening.event ++ (none : Option StoreEvent).toList = M.history ++ [] := by
      intro reaches
      rw [settled_history]
      rfl
    have hmemory := h.memory
    cases moves_of_daemonStep hs with
    | start | swept | leftOrphan | made | wrote | closed | widened | raised => exact hsame
    | loaded hprocess =>
      rw [hprocess] at hmemory
      exact change_history hmemory _ _
    | recorded hprocess =>
      rw [hprocess] at hmemory
      exact change_history hmemory.1 _ _
    | replaced => exact hover true
    | notMade | cleaned | leftTemp | killed => exact hover false
  · have hbegins : act.begins = [] := by
      cases act <;> first | rfl | cases hs
    obtain ⟨r, at_, rfl⟩ := readerStep_eq hs
    rw [hbegins]
    exact hsame

/-- The machine with the store that it is. -/
def Invariant (float : FloatText) (document : String) (dir₀ : Directory Char) (M : Machine) :
    Prop :=
  M.Kept document dir₀ ∧
    ∃ s, M.Refined float document ⟨.empty, parsed (dir₀.text document)⟩ s

theorem start_invariant {doc : Document}
    (hload : Evidence.load float (dir₀.text document) = some doc)
    (hagrees : doc.Agrees) : (start dir₀).Invariant float document dir₀ :=
  ⟨start_kept document dir₀, _, rfl, rfl, ⟨empty_agrees, doc, hload, hagrees⟩, rfl,
    fun _ hdoc => absurd hdoc List.not_mem_nil⟩

theorem Invariant.step (hdocument : isTemp document = false)
    (h : M.Invariant float document dir₀) {act : Act} (hact : act.Admitted)
    (hs : M.step float document act = some M') : M'.Invariant float document dir₀ := by
  obtain ⟨hkept, s, hrefined⟩ := h
  have hkept' := hkept.step hdocument hs
  exact ⟨hkept', hrefined.step hkept hkept' hact hs⟩

/-- What is promised of what is in memory and on disk, and of what is read. -/
structure Recovers (float : FloatText) (document : String) (dir₀ : Directory Char)
    (acts : List Act) (M : Machine) : Prop where
  /-- what has happened, or is happening, is what was begun, in order -/
  history : M.history = acts.flatMap Act.begins
  /-- and the store that has gone through it has what is in memory and on disk -/
  refines : ∃ s : Store, Store.happenAll .sorted float
    ⟨.empty, parsed (dir₀.text document)⟩ M.happened = some s ∧
      parsed (M.dir.text document) = s.file ∧ Memory float s M.process M.current
  /-- a restart loads the document that was swapped in last -/
  loads : ∀ doc ∈ M.swapped.getLast?, Evidence.load float (M.dir.text document) = some doc
  /-- and who has read the file to its end has one document, whose records agree with their rows -/
  reads : ∀ r text opened, M.readers r = .finished text opened → ∃ doc,
    Evidence.load float (some text) = some doc ∧ doc.Agrees ∧
      ∀ n, opened = n + 1 → M.swapped[n]? = some doc

/-- **The machine is a store**, over every interleaving of system calls, kills and restarts. -/
theorem recovers (float : FloatText) (document : String) (hdocument : isTemp document = false)
    (dir₀ : Directory Char) (doc : Document)
    (hload : Evidence.load float (dir₀.text document) = some doc) (hagrees : doc.Agrees)
    (acts : List Act) (hacts : ∀ act ∈ acts, act.Admitted)
    (hrun : Steps (step float document) (start dir₀) acts M) :
    M.Recovers float document dir₀ acts := by
  have hstart := start_invariant hload hagrees
  obtain ⟨hkept, s, hrefined⟩ :=
    hrun.invariant_of (fun _ _ _ h hact hs => Invariant.step hdocument h hact hs) hstart hacts
  have htrace := hrun.traces Machine.history Act.begins
    (fun _ _ _ h hact hs => Invariant.step hdocument h hact hs)
    (fun _ _ _ h _ hs => h.2.choose_spec.history hs) hstart hacts
  refine ⟨htrace, ⟨s, hrefined.ran, hrefined.file, hrefined.memory⟩, fun doc' hdoc' => ?_,
    fun r text opened hr => ?_⟩
  · have hlast : M.swapped.length ≠ 0 := fun hnil => by
      rw [List.length_eq_zero_iff.mp hnil] at hdoc'
      cases hdoc'
    have hmem := List.mem_of_getLast? hdoc'
    rw [List.getLast?_eq_getElem?] at hdoc'
    obtain ⟨n, hn⟩ := Nat.exists_eq_succ_of_ne_zero hlast
    have htext := hkept.whole.current
    rw [hn, Nat.succ_eq_add_one, Nat.add_sub_cancel] at hdoc'
    rw [hn, version, hdoc'] at htext
    rw [htext]
    exact load_dumps (hrefined.swapped doc' hmem).1
  · have hreader := hkept.whole.readers r
    rw [hr] at hreader
    obtain ⟨hopened, hversion⟩ := hreader
    cases opened with
    | zero =>
      refine ⟨doc, ?_, hagrees, fun n hn => by cases hn⟩
      rw [← hversion]
      exact hload
    | succ n =>
      obtain ⟨doc', hdoc', rfl⟩ := Option.map_eq_some_iff.mp hversion
      have hagrees' := hrefined.swapped doc' (List.mem_of_getElem? hdoc')
      refine ⟨doc', load_dumps hagrees'.1, hagrees', fun m hm => ?_⟩
      cases hm
      exact hdoc'

theorem recovers_interrupted :
    ∃ M, Steps (step .unread "evidence.json") (start .empty) interruptedFlush M ∧
      M.tally = (1, true) ∧ M.Recovers .unread "evidence.json" .empty interruptedFlush := by
  obtain ⟨M, hrun, htally⟩ := Option.map_eq_some_iff.mp
    (by decide +kernel : (Steps.run (step .unread "evidence.json") (start .empty)
      interruptedFlush).map tally = some (1, true))
  have hacts : ∀ act ∈ interruptedFlush, act.Admitted := by
    simp [interruptedFlush, Act.Admitted, Operation.RefusesDuplicate]
  exact ⟨M, .of_run hrun, htally, recovers .unread "evidence.json" (by decide +kernel) .empty .empty
    rfl empty_agrees _ hacts (.of_run hrun)⟩

end Machine

end BasecradleRouter.Evidence
