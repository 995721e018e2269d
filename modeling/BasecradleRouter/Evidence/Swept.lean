/-
# Nothing is left behind, and nothing else is touched

What the daemon makes beside its document are files of a temp's name, and it unlinks what is left of
them when it starts.  So every name that is not the document's keeps what it stood for, unless it is
a temp's and stands for a regular file or for nothing; and no file that was there is ever written to
(`leaves_others`).  Between the sweep and the next kill, or the next `unlink` that raises, the only
temp there can be is the one of the flush that is underway.
-/
import BasecradleRouter.Evidence.Swapped

namespace BasecradleRouter.Evidence

open BasecradleRouter.Lib

/-- A name that is not the daemon's: another than the document's, and if it is a temp's, one that
stands for what is no regular file. -/
def Foreign (document : String) (dir₀ : Directory Char) (name : String) : Prop :=
  name ≠ document ∧ (isTemp name = true → ∃ e, dir₀.entry name = some e ∧ e.isFile = false)

/-- A name that the daemon will unlink, or give the document's. -/
def Process.Owns (name : String) : Process → Prop
  | .down => False
  | .sweeping orphans => name ∈ orphans
  | .up _ flush => ∃ f ∈ flush, f.temp = some name

namespace Machine

/-- What was there before the daemon is left alone. -/
structure Frame (document : String) (dir₀ dir : Directory Char) : Prop where
  names : ∀ name, Foreign document dir₀ name → dir.entry name = dir₀.entry name
  files : ∀ id < dir₀.fresh, dir.content id = dir₀.content id ∧ dir.mode id = dir₀.mode id
  fresh : dir₀.fresh ≤ dir.fresh

/-- What holds between any two calls. -/
structure Tidy (document : String) (dir₀ : Directory Char) (M : Machine) : Prop where
  frame : Frame document dir₀ M.dir
  made : ∀ doc f temp, M.process = .up doc (some f) → f.temp = some temp →
    ∃ id, M.dir.entry temp = some (.file id) ∧ dir₀.fresh ≤ id
  clean : M.clean = true → ∀ name id, M.dir.entry name = some (.file id) → isTemp name = true →
    M.process.Owns name

variable {float : FloatText} {document : String} {dir₀ dir dir' : Directory Char}
  {M M' : Machine}

theorem start_tidy (document : String) (dir₀ : Directory Char) :
    (start dir₀).Tidy document dir₀ where
  frame := ⟨fun _ _ => rfl, fun _ _ => ⟨rfl, rfl⟩, le_rfl⟩
  made := fun _ _ _ hprocess _ => by cases hprocess
  clean := fun hclean => by cases hclean

/-! ## 1. The frame -/

/-- A temp's name that stands for a file, or for nothing, is not foreign. -/
theorem Frame.not_foreign (h : Frame document dir₀ dir) {name : String} (htemp : isTemp name = true)
    (hentry : ∀ e, dir.entry name = some e → e.isFile = true) : ¬ Foreign document dir₀ name := by
  intro hforeign
  obtain ⟨e, he, hfile⟩ := hforeign.2 htemp
  rw [hentry e ((h.names name hforeign).trans he)] at hfile
  cases hfile

theorem Frame.not_foreign_file (h : Frame document dir₀ dir) {name : String} {id : ℕ}
    (htemp : isTemp name = true) (hentry : dir.entry name = some (.file id)) :
    ¬ Foreign document dir₀ name :=
  h.not_foreign htemp fun e he => by
    cases hentry.symm.trans he
    rfl

theorem Frame.create (h : Frame document dir₀ dir) {name : String} (htemp : isTemp name = true)
    (hnew : dir.entry name = none) (mode : ℕ) : Frame document dir₀ (dir.create name mode) where
  names other hforeign := by
    have hne : other ≠ name := fun heq => by
      subst heq
      exact h.not_foreign htemp (fun e he => by cases hnew.symm.trans he) hforeign
    rw [Directory.create_entry, if_neg hne]
    exact h.names other hforeign
  files id hid := by
    have hlt := hid.trans_le h.fresh
    rw [Directory.create_content name mode hlt, Directory.create_mode name mode hlt]
    exact h.files id hid
  fresh := h.fresh.trans (Nat.le_succ _)

theorem Frame.append (h : Frame document dir₀ dir) {id : ℕ} (hid : dir₀.fresh ≤ id)
    (bytes : List Char) : Frame document dir₀ (dir.append id bytes) where
  names := h.names
  files other hother := by
    rw [Directory.append_content bytes (hother.trans_le hid).ne]
    exact h.files other hother
  fresh := h.fresh

theorem Frame.chmod (h : Frame document dir₀ dir) {name : String} {id mode : ℕ}
    (hentry : dir.entry name = some (.file id)) (hid : dir₀.fresh ≤ id)
    (hchmod : dir.chmod name mode = some dir') : Frame document dir₀ dir' := by
  obtain ⟨⟨id', hentry', hmode⟩, hentries, hcontent, hfresh⟩ := Directory.chmod_spec hchmod
  cases hentry.symm.trans hentry'
  refine ⟨fun other hforeign => (hentries other).trans (h.names other hforeign),
    fun other hother => ?_, hfresh ▸ h.fresh⟩
  rw [hcontent, hmode, Function.update_of_ne (hother.trans_le hid).ne]
  exact h.files other hother

theorem Frame.replace (h : Frame document dir₀ dir) {temp : String} {id : ℕ}
    (htemp : isTemp temp = true) (hentry : dir.entry temp = some (.file id))
    (hreplace : dir.replace temp document = some dir') : Frame document dir₀ dir' := by
  obtain ⟨-, -, hothers, hcontent, hmode, hfresh⟩ := Directory.replace_spec hreplace
  refine ⟨fun other hforeign => ?_, fun other hother => ?_, hfresh ▸ h.fresh⟩
  · have hne : other ≠ temp := fun heq => by
      subst heq
      exact h.not_foreign_file htemp hentry hforeign
    exact (hothers other hne hforeign.1).trans (h.names other hforeign)
  · rw [hcontent, hmode]
    exact h.files other hother

theorem Frame.unlink (h : Frame document dir₀ dir) {temp : String} {id : ℕ}
    (htemp : isTemp temp = true) (hentry : dir.entry temp = some (.file id))
    (hunlink : dir.unlink temp = some dir') : Frame document dir₀ dir' := by
  obtain ⟨-, hothers, hcontent, hmode, hfresh⟩ := Directory.unlink_spec hunlink
  refine ⟨fun other hforeign => ?_, fun other hother => ?_, hfresh ▸ h.fresh⟩
  · have hne : other ≠ temp := fun heq => by
      subst heq
      exact h.not_foreign_file htemp hentry hforeign
    exact (hothers other hne).trans (h.names other hforeign)
  · rw [hcontent, hmode]
    exact h.files other hother

/-! ## 2. Steps -/

theorem orphan_of_file {name : String} {id : ℕ} (hentry : M.dir.entry name = some (.file id))
    (htemp : isTemp name = true) (hother : name ≠ document) : name ∈ M.orphans document := by
  refine List.mem_filter.mpr ⟨PyStr.mem_sorted.mpr ?_, ?_⟩
  · exact Finmap.mem_keys.mpr (Finmap.mem_of_lookup_eq_some hentry)
  · rw [hentry, htemp, bne_iff_ne.mpr hother]
    rfl

/-- Where a process owns nothing, a clean directory holds no temp. -/
theorem Tidy.no_temp (h : M.Tidy document dir₀) (howns : ∀ name, ¬ M.process.Owns name)
    {name : String} {id : ℕ} (hclean : M.clean = true) (hentry : M.dir.entry name = some (.file id))
    (htemp : isTemp name = true) : False :=
  howns name (h.clean hclean name id hentry htemp)

/-- The flush that is underway owns its file alone. -/
theorem owns_flush {doc : Document} {f : Flushing} {name : String}
    (howns : (Process.up doc (some f)).Owns name) : f.temp = some name := by
  obtain ⟨f', hf', htemp⟩ := howns
  cases hf'
  exact htemp

/-- What is owned once a change was made is nothing. -/
theorem Tidy.change (h : M.Tidy document dir₀) (howns : ∀ name, ¬ M.process.Owns name)
    (event : StoreEvent) (changed : Document × Bool) :
    (M.change event changed).Tidy document dir₀ := by
  unfold Machine.change
  split
  · refine ⟨h.frame, fun doc f temp hprocess htemp => ?_, fun hclean name id hentry htemp => ?_⟩
    · cases hprocess
      cases htemp
    · exact (h.no_temp howns hclean hentry htemp).elim
  · refine ⟨h.frame, fun doc f temp hprocess => ?_, fun hclean name id hentry htemp => ?_⟩
    · cases hprocess
    · exact (h.no_temp howns hclean hentry htemp).elim

/-- A flush that is over, its file unlinked or given the document's name. -/
theorem Tidy.over (hframe : Frame document dir₀ M.dir) (doc : Document) (reaches : Bool)
    (hclean : M.clean = true → ∀ name id, M.dir.entry name = some (.file id) →
      isTemp name = true → False) : (M.settle doc reaches).Tidy document dir₀ where
  frame := hframe
  made _ _ _ hprocess := by cases hprocess
  clean h name id hentry htemp := (hclean h name id hentry htemp).elim

/-- **The step lemma**, for the daemon. -/
theorem Tidy.daemon (hdocument : isTemp document = false) (h : M.Tidy document dir₀)
    (hkept : M.Kept document dir₀) {act : Act} (hs : M.Moves float document act M') :
    M'.Tidy document dir₀ := by
  have hother : ∀ {temp}, isTemp temp = true → temp ≠ document := by
    rintro temp htemp rfl
    rw [hdocument] at htemp
    cases htemp
  have howner : ∀ {name id}, M.clean = true → M.dir.entry name = some (.file id) →
      isTemp name = true → M.process.Owns name := fun hclean => h.clean hclean _ _
  cases hs with
  | start listed =>
    refine ⟨h.frame, fun _ _ _ hprocess => (by cases hprocess),
      fun hclean name id hentry htemp => ?_⟩
    dsimp only at hclean
    subst hclean
    exact orphan_of_file hentry htemp (hother htemp)
  | @swept name orphans dir' hprocess hunlink =>
    have hholds := hkept.process
    rw [hprocess] at hholds
    obtain ⟨hname, -⟩ := List.forall_mem_cons.mp hholds.2
    obtain ⟨id, hfile⟩ := hname.file
    refine ⟨h.frame.unlink hname.temp hfile hunlink, fun _ _ _ hprocess => (by cases hprocess),
      fun hclean other id' hentry htemp => ?_⟩
    obtain ⟨hgone, hothers, -⟩ := Directory.unlink_spec hunlink
    have hne : other ≠ name := fun heq => by
      subst heq
      cases hgone.symm.trans hentry
    have howns := howner hclean ((hothers other hne).symm.trans hentry) htemp
    rw [hprocess] at howns
    exact (List.mem_cons.mp howns).resolve_left hne
  | leftOrphan =>
    exact ⟨h.frame, fun _ _ _ hprocess => (by cases hprocess), fun hclean => by cases hclean⟩
  | loaded hprocess =>
    refine h.change (fun name howns => ?_) _ _
    rw [hprocess] at howns
    cases howns
  | recorded hprocess =>
    refine h.change (fun name howns => ?_) _ _
    rw [hprocess] at howns
    obtain ⟨f, hf, -⟩ := howns
    cases hf
  | @made doc name hprocess hname hnew =>
    refine ⟨h.frame.create hname hnew _, fun _ f temp hprocess' htemp => ?_,
      fun hclean other id hentry htemp => ?_⟩
    · cases hprocess'
      cases htemp
      exact ⟨M.dir.fresh, by rw [Directory.create_entry, if_pos rfl], h.frame.fresh⟩
    · rw [Directory.create_entry] at hentry
      split at hentry
      · next heq => exact ⟨_, rfl, congrArg some heq.symm⟩
      · have howns := howner hclean hentry htemp
        rw [hprocess] at howns
        cases owns_flush howns
  | @wrote doc temp id rest bytes hprocess =>
    obtain ⟨⟨hfile, -⟩, -⟩ := hkept.flush hprocess
    obtain ⟨id', hfile', hid⟩ := h.made _ _ temp hprocess rfl
    cases hfile.symm.trans hfile'
    refine ⟨h.frame.append hid _, fun _ f temp' hprocess' htemp => ?_,
      fun hclean other id' hentry htemp => ?_⟩
    · cases hprocess'
      cases htemp
      exact ⟨id, hfile, hid⟩
    · have howns := howner hclean hentry htemp
      rw [hprocess] at howns
      have howned := owns_flush howns
      exact ⟨_, rfl, howned⟩
  | @closed doc temp id hprocess =>
    refine ⟨h.frame, fun _ f temp' hprocess' htemp => ?_, fun hclean other id' hentry htemp => ?_⟩
    · cases hprocess'
      exact h.made _ _ temp' hprocess htemp
    · have howns := howner hclean hentry htemp
      rw [hprocess] at howns
      have howned := owns_flush howns
      exact ⟨_, rfl, howned⟩
  | @widened doc temp dir' hprocess hchmod =>
    obtain ⟨id, hfile, hid⟩ := h.made _ _ temp hprocess rfl
    obtain ⟨-, hentries, -⟩ := Directory.chmod_spec hchmod
    refine ⟨h.frame.chmod hfile hid hchmod, fun _ f temp' hprocess' htemp => ?_,
      fun hclean other id' hentry htemp => ?_⟩
    · cases hprocess'
      cases htemp
      exact ⟨id, (hentries temp).trans hfile, hid⟩
    · have howns := howner hclean ((hentries other).symm.trans hentry) htemp
      rw [hprocess] at howns
      have howned := owns_flush howns
      exact ⟨_, rfl, howned⟩
  | @replaced doc temp dir' hprocess hreplace =>
    obtain ⟨id, hfile, -⟩ := h.made _ _ temp hprocess rfl
    have htemp : isTemp temp = true := (hkept.flush hprocess).2 temp rfl
    obtain ⟨-, hgone, hothers, -⟩ := Directory.replace_spec hreplace
    refine .over (h.frame.replace htemp hfile hreplace) _ _ fun hclean other id' hentry hname => ?_
    have hne : other ≠ temp := fun heq => by
      subst heq
      cases (hgone (hother htemp)).symm.trans hentry
    have howns := howner hclean ((hothers other hne (hother hname)).symm.trans hentry) hname
    rw [hprocess] at howns
    exact hne (Option.some.inj (owns_flush howns)).symm
  | notMade hprocess =>
    refine .over h.frame _ _ fun hclean other id hentry hname => ?_
    have howns := howner hclean hentry hname
    rw [hprocess] at howns
    cases owns_flush howns
  | @raised doc f temp hprocess hmade =>
    refine ⟨h.frame, fun _ f' temp' hprocess' htemp => ?_, fun hclean other id hentry htemp => ?_⟩
    · cases hprocess'
      cases htemp
      exact h.made _ _ temp hprocess hmade
    · have howns := howner hclean hentry htemp
      rw [hprocess] at howns
      exact ⟨_, rfl, hmade.symm.trans (owns_flush howns)⟩
  | @cleaned doc temp dir' hprocess hunlink =>
    obtain ⟨id, hfile, -⟩ := h.made _ _ temp hprocess rfl
    have htemp : isTemp temp = true := (hkept.flush hprocess).2 temp rfl
    obtain ⟨hgone, hothers, -⟩ := Directory.unlink_spec hunlink
    refine .over (h.frame.unlink htemp hfile hunlink) _ _ fun hclean other id' hentry hname => ?_
    have hne : other ≠ temp := fun heq => by
      subst heq
      cases hgone.symm.trans hentry
    have howns := howner hclean ((hothers other hne).symm.trans hentry) hname
    rw [hprocess] at howns
    exact hne (Option.some.inj (owns_flush howns)).symm
  | leftTemp | killed =>
    exact ⟨h.frame, fun _ _ _ hprocess => (by cases hprocess), fun hclean => by cases hclean⟩

/-- **The step lemma.** -/
theorem Tidy.step (hdocument : isTemp document = false) (h : M.Tidy document dir₀)
    (hkept : M.Kept document dir₀) {act : Act} (hs : M.step float document act = some M') :
    M'.Tidy document dir₀ := by
  rcases Option.or_eq_some_iff.mp hs with hs | ⟨-, hs⟩
  · exact h.daemon hdocument hkept (moves_of_daemonStep hs)
  · obtain ⟨r, at_, rfl⟩ := readerStep_eq hs
    exact ⟨h.frame, h.made, h.clean⟩

/-! ## 3. The guarantee -/

/-- What is promised of the directory. -/
structure LeavesOthers (document : String) (dir₀ : Directory Char) (M : Machine) : Prop where
  /-- another's name stands for what it stood for -/
  names : ∀ name, Foreign document dir₀ name → M.dir.entry name = dir₀.entry name
  /-- a file that was there before is as it was -/
  files : ∀ id < dir₀.fresh, M.dir.content id = dir₀.content id ∧ M.dir.mode id = dir₀.mode id
  /-- where no orphan was left since the sweep, the only temp is what is swept or flushed now -/
  owned : M.clean = true → ∀ name id, M.dir.entry name = some (.file id) → isTemp name = true →
    M.process.Owns name

/-- **Nothing else is touched, and nothing is left behind**, over every interleaving of system
calls, kills and restarts. -/
theorem leaves_others (float : FloatText) (document : String) (hdocument : isTemp document = false)
    (dir₀ : Directory Char) (acts : List Act)
    (hrun : Steps (step float document) (start dir₀) acts M) : M.LeavesOthers document dir₀ := by
  have htidy := hrun.invariant (I := fun M => M.Kept document dir₀ ∧ M.Tidy document dir₀)
    (fun _ _ _ hM hs => ⟨hM.1.step hdocument hs, hM.2.step hdocument hM.1 hs⟩)
    ⟨start_kept document dir₀, start_tidy document dir₀⟩
  exact ⟨htidy.2.frame.names, htidy.2.frame.files, htidy.2.clean⟩

theorem leaves_others_interrupted :
    ∃ M, Steps (step .unread "evidence.json") (start .empty) interruptedFlush M ∧
      M.tally = (1, true) ∧ M.LeavesOthers "evidence.json" .empty := by
  obtain ⟨M, hrun, htally⟩ := Option.map_eq_some_iff.mp
    (by decide +kernel : (Steps.run (step .unread "evidence.json") (start .empty)
      interruptedFlush).map tally = some (1, true))
  exact ⟨M, .of_run hrun, htally,
    leaves_others .unread "evidence.json" (by decide +kernel) .empty _ (.of_run hrun)⟩

end Machine

end BasecradleRouter.Evidence
