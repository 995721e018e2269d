/-
# A reader sees one whole document

The content of the evidence file changes by a swap only, so it has versions: what was there at the
start, and then the text of each document that was swapped in.  A reader that opens the file is
given the version of that moment, and reads it whole whatever is swapped, killed or swept while it
reads (`reads_whole`).

`Kept` is the invariant.  What a flush writes to is a file that it made itself, which nobody has
open and which the document's name does not stand for; and what is unlinked is a file with a temp's
name.
-/
import BasecradleRouter.Evidence.AtomicWrite

namespace BasecradleRouter.Evidence

open BasecradleRouter.Lib

/-- The versions of the document's file. -/
def version (document : String) (dir₀ : Directory Char) (swapped : List Document) :
    ℕ → Option (List Char)
  | 0 => dir₀.text document
  | n + 1 => swapped[n]?.map Document.dumps

theorem version_snoc {document : String} {dir₀ : Directory Char} {swapped : List Document} {n : ℕ}
    (hn : n ≤ swapped.length) (doc : Document) :
    version document dir₀ (swapped ++ [doc]) n = version document dir₀ swapped n := by
  cases n with
  | zero => rfl
  | succ n => rw [version, version, List.getElem?_append_left hn]

/-! ## 1. What readers see -/

/-- What a reader has been given, of the version it opened. -/
def Reader.Whole (version : ℕ → Option (List Char)) (dir : Directory Char) (swaps : ℕ) :
    Reader → Prop
  | .off => True
  | .missing opened => opened ≤ swaps ∧ version opened = none
  | .reading id seen opened => opened ≤ swaps ∧ id < dir.fresh ∧
      version opened = some (dir.content id) ∧ seen <+: dir.content id
  | .finished text opened => opened ≤ swaps ∧ version opened = some text

/-- The file is the last version, which everybody may read once it was swapped in, and what each
reader has is of the version it opened. -/
structure Whole (document : String) (dir₀ dir : Directory Char) (readers : ℕ → Reader)
    (swapped : List Document) : Prop where
  current : dir.text document = version document dir₀ swapped swapped.length
  mode : swapped ≠ [] → dir.modeOf document = some 0o644
  readers : ∀ r, (readers r).Whole (version document dir₀ swapped) dir swapped.length

/-- Nobody has a file open, and the document's name does not stand for it. -/
structure Apart (document : String) (dir : Directory Char) (readers : ℕ → Reader) (id : ℕ) :
    Prop where
  document : dir.entry document ≠ some (.file id)
  readers : ∀ r id' seen opened, readers r = .reading id' seen opened → id' ≠ id

variable {float : FloatText} {document : String} {dir₀ dir dir' : Directory Char}
  {readers : ℕ → Reader} {swapped : List Document}

theorem text_congr (hentry : dir'.entry document = dir.entry document)
    (hcontent : ∀ id, dir.entry document = some (.file id) → dir'.content id = dir.content id) :
    dir'.text document = dir.text document := by
  unfold Directory.text
  rw [hentry]
  split
  · next id hid => rw [hcontent id hid]
  · rfl

theorem modeOf_congr (hentry : dir'.entry document = dir.entry document) {mode : ℕ}
    (hmode : ∀ id, dir.entry document = some (.file id) → dir.mode id = mode → dir'.mode id = mode)
    (h : dir.modeOf document = some mode) : dir'.modeOf document = some mode := by
  unfold Directory.modeOf at h ⊢
  rw [hentry]
  split at h
  · next id hid => exact congrArg some (hmode id hid (Option.some.inj h))
  · cases h

/-- **Whatever happens elsewhere in the directory** is not seen. -/
theorem Whole.elsewhere (h : Whole document dir₀ dir readers swapped)
    (hentry : dir'.entry document = dir.entry document) (hfresh : dir.fresh ≤ dir'.fresh)
    (hdocument : ∀ id, dir.entry document = some (.file id) → dir'.content id = dir.content id)
    (hmode : ∀ id, dir.entry document = some (.file id) → dir.mode id = 0o644 →
      dir'.mode id = 0o644)
    (hreaders : ∀ r id seen opened, readers r = .reading id seen opened →
      dir'.content id = dir.content id) : Whole document dir₀ dir' readers swapped where
  current := (text_congr hentry hdocument).trans h.current
  mode hne := modeOf_congr hentry hmode (h.mode hne)
  readers r := by
    have hr := h.readers r
    cases hreader : readers r with
    | off => trivial
    | missing opened =>
      rw [hreader] at hr
      exact hr
    | reading id seen opened =>
      rw [hreader] at hr
      dsimp only [Reader.Whole] at hr ⊢
      rw [hreaders r id seen opened hreader]
      exact ⟨hr.1, hr.2.1.trans_le hfresh, hr.2.2⟩
    | finished text opened =>
      rw [hreader] at hr
      exact hr

/-- Only names change. -/
theorem Whole.names (h : Whole document dir₀ dir readers swapped)
    (hentry : dir'.entry document = dir.entry document) (hcontent : dir'.content = dir.content)
    (hmode : ∀ id, dir.mode id = 0o644 → dir'.mode id = 0o644) (hfresh : dir'.fresh = dir.fresh) :
    Whole document dir₀ dir' readers swapped :=
  h.elsewhere hentry hfresh.ge (fun _ _ => by rw [hcontent]) (fun id _ => hmode id)
    fun _ _ _ _ _ => by rw [hcontent]

/-- Every file that is read was there before. -/
theorem Whole.create (h : Whole document dir₀ dir readers swapped) {name : String}
    (hname : name ≠ document) (mode : ℕ) :
    Whole document dir₀ (dir.create name mode) readers swapped := by
  refine h.elsewhere ?_ (Nat.le_succ _) (fun id hid => ?_) (fun id hid hmode => ?_)
    fun r id seen opened hr => ?_
  · rw [Directory.create_entry, if_neg hname.symm]
  · exact Directory.create_content name mode (Directory.entry_lt hid)
  · exact (Directory.create_mode name mode (Directory.entry_lt hid)).trans hmode
  · have hwhole := h.readers r
    rw [hr] at hwhole
    exact Directory.create_content name mode hwhole.2.1

theorem Whole.append (h : Whole document dir₀ dir readers swapped) {id : ℕ}
    (hapart : Apart document dir readers id) (bytes : List Char) :
    Whole document dir₀ (dir.append id bytes) readers swapped := by
  refine h.elsewhere rfl le_rfl (fun id' hid' => ?_) (fun _ _ hmode => hmode)
    fun r id' seen opened hr => ?_
  · refine Directory.append_content bytes fun heq => hapart.document ?_
    rw [hid', heq]
  · exact Directory.append_content bytes (hapart.readers r id' seen opened hr)

/-- **A swap** is one more version, and those that are being read stay. -/
theorem Whole.replace (h : Whole document dir₀ dir readers swapped) {temp : String} {id : ℕ}
    {doc : Document} (htemp : dir.entry temp = some (.file id))
    (hcontent : dir.content id = doc.dumps) (hmode : dir.mode id = 0o644)
    (hreplace : dir.replace temp document = some dir') :
    Whole document dir₀ dir' readers (swapped ++ [doc]) := by
  obtain ⟨⟨id', hid', hdocument⟩, -, -, hsame, hmodes, hfresh⟩ := Directory.replace_spec hreplace
  cases htemp.symm.trans hid'
  refine ⟨?_, fun _ => ?_, fun r => ?_⟩
  · rw [Directory.text_of_file hdocument, hsame, hcontent, List.length_append,
      List.length_singleton, version, List.getElem?_concat_length]
    rfl
  · rw [Directory.modeOf_of_file hdocument, hmodes, hmode]
  · have hr := h.readers r
    rw [List.length_append, List.length_singleton]
    cases hreader : readers r with
    | off => trivial
    | missing opened =>
      rw [hreader] at hr
      refine ⟨Nat.le_succ_of_le hr.1, ?_⟩
      rw [version_snoc hr.1]
      exact hr.2
    | reading id seen opened =>
      rw [hreader] at hr
      dsimp only [Reader.Whole] at hr ⊢
      rw [version_snoc hr.1, hsame, hfresh]
      exact ⟨Nat.le_succ_of_le hr.1, hr.2⟩
    | finished text opened =>
      rw [hreader] at hr
      refine ⟨Nat.le_succ_of_le hr.1, ?_⟩
      rw [version_snoc hr.1]
      exact hr.2

/-! ## 2. The invariant -/

/-- What a flush has made so far. -/
def Flushing.Holds (document : String) (dir : Directory Char) (readers : ℕ → Reader)
    (doc : Document) : Flushing → Prop
  | .called => True
  | .writing temp id rest => dir.entry temp = some (.file id) ∧
      Apart document dir readers id ∧ dir.content id ++ rest = doc.dumps
  | .written temp => ∃ id, dir.entry temp = some (.file id) ∧ dir.content id = doc.dumps
  | .widened temp => ∃ id, dir.entry temp = some (.file id) ∧ dir.content id = doc.dumps ∧
      dir.mode id = 0o644
  | .raised temp => ∃ id, dir.entry temp = some (.file id)

/-- The file that a flush has made is there. -/
theorem Flushing.Holds.entry {doc : Document} {f : Flushing} {temp : String}
    (h : f.Holds document dir readers doc) (htemp : f.temp = some temp) :
    ∃ id, dir.entry temp = some (.file id) := by
  cases f with
  | called => cases htemp
  | writing =>
    cases htemp
    exact ⟨_, h.1⟩
  | written =>
    cases htemp
    exact ⟨_, h.choose_spec.1⟩
  | widened =>
    cases htemp
    exact ⟨_, h.choose_spec.1⟩
  | raised =>
    cases htemp
    exact h

/-- What may be unlinked. -/
structure Sweepable (document : String) (dir : Directory Char) (name : String) : Prop where
  temp : isTemp name = true
  other : name ≠ document
  file : ∃ id, dir.entry name = some (.file id)

/-- What the daemon relies on. -/
def Process.Holds (document : String) (dir : Directory Char) (readers : ℕ → Reader) :
    Process → Prop
  | .down => True
  | .sweeping orphans => orphans.Nodup ∧ ∀ name ∈ orphans, Sweepable document dir name
  | .up doc flush => ∀ f ∈ flush, Flushing.Holds document dir readers doc f ∧
      ∀ temp ∈ f.temp, isTemp temp = true

namespace Machine

/-- What holds between any two calls. -/
structure Kept (document : String) (dir₀ : Directory Char) (M : Machine) : Prop where
  whole : Whole document dir₀ M.dir M.readers M.swapped
  process : M.process.Holds document M.dir M.readers

theorem start_kept (document : String) (dir₀ : Directory Char) :
    (start dir₀).Kept document dir₀ where
  whole := ⟨rfl, fun h => absurd rfl h, fun _ => trivial⟩
  process := trivial

variable {M M' : Machine}

/-- A reader is given the document's file, or goes on with the one it has. -/
theorem setReader_kept (h : M.Kept document dir₀) {r : ℕ} {at_ : Reader}
    (hreader : at_.Whole (version document dir₀ M.swapped) M.dir M.swapped.length)
    (hopened : ∀ id seen opened, at_ = .reading id seen opened →
      M.dir.entry document = some (.file id) ∨
        ∃ seen' opened', M.readers r = .reading id seen' opened') :
    (M.setReader r at_).Kept document dir₀ := by
  have hreaders : ∀ r', (M.setReader r at_).readers r' = if r' = r then at_ else M.readers r' :=
    fun r' => Function.update_apply ..
  refine ⟨⟨h.whole.current, h.whole.mode, fun r' => ?_⟩, ?_⟩
  · rw [hreaders]
    split
    · exact hreader
    · exact h.whole.readers r'
  · have hprocess := h.process
    show Process.Holds document M.dir _ M.process
    cases hp : M.process with
    | down => trivial
    | sweeping orphans =>
      rw [hp] at hprocess
      exact hprocess
    | up doc flush =>
      rw [hp] at hprocess
      intro f hf
      obtain ⟨hholds, htemp⟩ := hprocess f hf
      refine ⟨?_, htemp⟩
      cases f with
      | writing temp id rest =>
        obtain ⟨hentry, hapart, hcontent⟩ := hholds
        refine ⟨hentry, ⟨hapart.document, fun r' id' seen opened hr' => ?_⟩, hcontent⟩
        rw [hreaders] at hr'
        split at hr'
        · rcases hopened id' seen opened hr' with hdocument | ⟨seen', opened', hold⟩
          · rintro rfl
            exact hapart.document hdocument
          · exact hapart.readers r id' seen' opened' hold
        · exact hapart.readers r' id' seen opened hr'
      | _ => exact hholds

/-- **A reader's call** gives it more of the version it opened. -/
theorem Kept.reader (h : M.Kept document dir₀) {act : Act}
    (hs : M.readerStep document act = some M') : M'.Kept document dir₀ := by
  cases act with
  | open_ r =>
    simp only [readerStep] at hs
    split at hs <;> cases hs
    have hcurrent := h.whole.current
    split
    · next id hid =>
      rw [Directory.text_of_file hid] at hcurrent
      refine setReader_kept h ⟨le_rfl, Directory.entry_lt hid, hcurrent.symm,
        List.nil_prefix⟩ fun id' _ _ heq => ?_
      cases heq
      exact Or.inl hid
    · next hnone =>
      refine setReader_kept h ⟨le_rfl, ?_⟩ fun _ _ _ heq => by cases heq
      rw [← hcurrent, Directory.text]
      split
      · next id hid => exact absurd hid (hnone id)
      · rfl
  | read r bytes =>
    simp only [readerStep] at hs
    split at hs <;> cases hs
    next id seen opened hr =>
    have hreader := h.whole.readers r
    rw [hr] at hreader
    obtain ⟨hopened, hfresh, hversion, rest, hseen⟩ := hreader
    refine setReader_kept h ⟨hopened, hfresh, hversion, ?_⟩ fun id' _ _ heq => ?_
    · rw [← hseen, List.drop_left]
      exact ⟨rest.drop bytes, by rw [List.append_assoc, List.take_append_drop]⟩
    · cases heq
      exact Or.inr ⟨seen, opened, hr⟩
  | eof r =>
    simp only [readerStep] at hs
    split at hs
    · next id seen opened hr =>
      split at hs <;> cases hs
      next hlength =>
      have hreader := h.whole.readers r
      rw [hr] at hreader
      obtain ⟨hopened, -, hversion, hseen⟩ := hreader
      refine setReader_kept h ⟨hopened, ?_⟩ fun _ _ _ heq => by cases heq
      rw [hversion, hseen.eq_of_length hlength]
    · cases hs
  | _ => cases hs

/-! ## 3. The daemon's calls -/

theorem mem_orphans {name : String} (h : name ∈ M.orphans document) :
    Sweepable document M.dir name := by
  obtain ⟨-, hname⟩ := List.mem_filter.mp h
  simp only [Bool.and_eq_true, bne_iff_ne] at hname
  obtain ⟨⟨htemp, hother⟩, hfile⟩ := hname
  refine ⟨htemp, hother, ?_⟩
  cases hentry : M.dir.entry name with
  | none =>
    rw [hentry] at hfile
    cases hfile
  | some e =>
    rw [hentry] at hfile
    cases e with
    | file id => exact ⟨id, rfl⟩
    | link => cases hfile
    | dir => cases hfile

theorem nodup_orphans : (M.orphans document).Nodup :=
  (Finset.sort_nodup _ _).filter _

/-- A flush that is over relies on nothing. -/
theorem Kept.settle (h : M.Kept document dir₀) (doc : Document) (reaches : Bool) :
    (M.settle doc reaches).Kept document dir₀ :=
  ⟨h.whole, fun _ hf => by cases hf⟩

theorem Kept.change (h : M.Kept document dir₀) (event : StoreEvent)
    (changed : Document × Bool) : (M.change event changed).Kept document dir₀ := by
  unfold Machine.change
  split
  · refine ⟨h.whole, fun f hf => ?_⟩
    cases hf
    exact ⟨trivial, fun _ htemp => by cases htemp⟩
  · exact ⟨h.whole, fun _ hf => by cases hf⟩

/-- A flush that is underway. -/
theorem Kept.flush (h : M.Kept document dir₀) {doc : Document} {f : Flushing}
    (hprocess : M.process = .up doc (some f)) :
    Flushing.Holds document M.dir M.readers doc f ∧ ∀ temp ∈ f.temp, isTemp temp = true := by
  have hholds := h.process
  rw [hprocess] at hholds
  exact hholds f rfl

/-- A flush that is underway goes on. -/
theorem holds_flush {readers : ℕ → Reader} {doc : Document} {f : Flushing}
    (hf : Flushing.Holds document dir readers doc f) (htemp : ∀ temp ∈ f.temp, isTemp temp = true) :
    (Process.up doc (some f)).Holds document dir readers := by
  intro f' hf'
  cases hf'
  exact ⟨hf, htemp⟩

/-- A file of a temp's name is unlinked. -/
theorem Kept.unlink (h : M.Kept document dir₀) {name : String} {dir' : Directory Char}
    (hother : name ≠ document) (hunlink : M.dir.unlink name = some dir') :
    Whole document dir₀ dir' M.readers M.swapped := by
  obtain ⟨-, hothers, hcontent, hmode, hfresh⟩ := Directory.unlink_spec hunlink
  exact h.whole.names (hothers _ hother.symm) hcontent (fun _ => by rw [hmode]; exact id) hfresh

/-- **The step lemma**, for the daemon. -/
theorem Kept.daemon (hdocument : isTemp document = false) (h : M.Kept document dir₀) {act : Act}
    (hs : M.Moves float document act M') : M'.Kept document dir₀ := by
  have hother : ∀ {temp}, isTemp temp = true → temp ≠ document := by
    rintro temp htemp rfl
    rw [hdocument] at htemp
    cases htemp
  cases hs with
  | start listed =>
    refine ⟨h.whole, ?_⟩
    cases listed with
    | true => exact ⟨nodup_orphans, fun name hname => mem_orphans hname⟩
    | false => exact ⟨List.nodup_nil, fun name hname => absurd hname List.not_mem_nil⟩
  | @swept name orphans dir' hprocess hunlink =>
    have hholds := h.process
    rw [hprocess] at hholds
    obtain ⟨hnodup, hsweepable⟩ := hholds
    obtain ⟨hfirst, hnodup⟩ := List.nodup_cons.mp hnodup
    obtain ⟨hname, hsweepable⟩ := List.forall_mem_cons.mp hsweepable
    refine ⟨h.unlink hname.other hunlink, hnodup, fun name' hname' => ?_⟩
    obtain ⟨htemp, hother, id, hid⟩ := hsweepable name' hname'
    have hne : name' ≠ name := fun heq => hfirst (heq ▸ hname')
    exact ⟨htemp, hother, id, ((Directory.unlink_spec hunlink).2.1 _ hne).trans hid⟩
  | @leftOrphan name orphans hprocess =>
    have hholds := h.process
    rw [hprocess] at hholds
    exact ⟨h.whole, (List.nodup_cons.mp hholds.1).2, (List.forall_mem_cons.mp hholds.2).2⟩
  | loaded => exact h.change _ _
  | recorded => exact h.change _ _
  | @made doc name hprocess hname hnew =>
    have hlt : ∀ r id seen opened, M.readers r = .reading id seen opened → id < M.dir.fresh := by
      intro r id seen opened hr
      have hreader := h.whole.readers r
      rw [hr] at hreader
      exact hreader.2.1
    refine ⟨h.whole.create (hother hname) _, holds_flush ⟨?_, ⟨?_, ?_⟩, ?_⟩ ?_⟩
    · rw [Directory.create_entry, if_pos rfl]
    · rw [Directory.create_entry, if_neg (hother hname).symm]
      exact fun hid => absurd (Directory.entry_lt hid) (lt_irrefl _)
    · exact fun r id seen opened hr => (hlt r id seen opened hr).ne
    · rw [Directory.create_content_self]
      rfl
    · intro temp htemp
      cases htemp
      exact hname
  | @wrote doc temp id rest bytes hprocess =>
    obtain ⟨⟨hentry, hapart, hcontent⟩, htemp⟩ := h.flush hprocess
    refine ⟨h.whole.append hapart _,
      holds_flush ⟨hentry, ⟨hapart.document, hapart.readers⟩, ?_⟩ htemp⟩
    rw [Directory.append_content_self, List.append_assoc, List.take_append_drop]
    exact hcontent
  | @closed doc temp id hprocess =>
    obtain ⟨⟨hentry, -, hcontent⟩, htemp⟩ := h.flush hprocess
    exact ⟨h.whole, holds_flush ⟨id, hentry, by rw [← hcontent, List.append_nil]⟩ htemp⟩
  | @widened doc temp dir' hprocess hchmod =>
    obtain ⟨⟨id, hentry, hcontent⟩, htemp⟩ := h.flush hprocess
    obtain ⟨⟨id', hentry', hmode⟩, hentries, hsame, hfresh⟩ := Directory.chmod_spec hchmod
    cases hentry.symm.trans hentry'
    refine ⟨h.whole.names (hentries _) hsame (fun other hother => ?_) hfresh,
      holds_flush ⟨id, (hentries temp).trans hentry, ?_, ?_⟩ htemp⟩
    · rw [hmode, Function.update_apply]
      split
      · rfl
      · exact hother
    · rw [hsame]
      exact hcontent
    · rw [hmode, Function.update_self]
  | @replaced doc temp dir' hprocess hreplace =>
    obtain ⟨⟨id, hentry, hcontent, hmode⟩, -⟩ := h.flush hprocess
    exact ⟨h.whole.replace hentry hcontent hmode hreplace, fun _ hf => by cases hf⟩
  | notMade => exact h.settle _ _
  | @raised doc f temp hprocess hmade =>
    obtain ⟨hholds, htemp⟩ := h.flush hprocess
    refine ⟨h.whole, holds_flush (hholds.entry hmade) fun temp' htemp' => ?_⟩
    cases htemp'
    exact htemp temp hmade
  | @cleaned doc temp dir' hprocess hunlink =>
    obtain ⟨-, htemp⟩ := h.flush hprocess
    exact ⟨h.unlink (hother (htemp temp rfl)) hunlink, fun _ hf => by cases hf⟩
  | leftTemp => exact ⟨h.whole, fun _ hf => by cases hf⟩
  | killed => exact ⟨h.whole, trivial⟩

/-- **The step lemma.** -/
theorem Kept.step (hdocument : isTemp document = false) (h : M.Kept document dir₀) {act : Act}
    (hs : M.step float document act = some M') : M'.Kept document dir₀ := by
  rcases Option.or_eq_some_iff.mp hs with hs | ⟨-, hs⟩
  · exact h.daemon hdocument (moves_of_daemonStep hs)
  · exact h.reader hs

/-- The run lemma. -/
theorem kept_of_run (hdocument : isTemp document = false) {acts : List Act}
    (hrun : Steps (step float document) (start dir₀) acts M) : M.Kept document dir₀ :=
  hrun.invariant (I := fun M => M.Kept document dir₀) (fun _ _ _ hM hs => hM.step hdocument hs)
    (start_kept document dir₀)

/-! ## 4. The guarantee -/

/-- What is promised of the file and of those that read it. -/
structure ReadsWhole (document : String) (dir₀ : Directory Char) (M : Machine) : Prop where
  /-- the file is the document that was swapped in last, or what was there at the start -/
  current : M.dir.text document = version document dir₀ M.swapped M.swapped.length
  /-- and everybody may read it -/
  mode : M.swapped ≠ [] → M.dir.modeOf document = some 0o644
  /-- what a reader has seen so far is the beginning of the version it opened -/
  reading : ∀ r id seen opened, M.readers r = .reading id seen opened →
    ∃ text, version document dir₀ M.swapped opened = some text ∧ seen <+: text
  /-- and where it has come to the end, it has seen all of it -/
  finished : ∀ r text opened, M.readers r = .finished text opened →
    opened ≤ M.swapped.length ∧ version document dir₀ M.swapped opened = some text
  /-- it finds no file only where there was none from the start, and before the first swap -/
  missing : ∀ r opened, M.readers r = .missing opened →
    opened = 0 ∧ dir₀.text document = none

/-- **A reader sees one whole document**, over every interleaving of system calls, kills and
restarts. -/
theorem reads_whole (float : FloatText) (document : String) (hdocument : isTemp document = false)
    (dir₀ : Directory Char) (acts : List Act)
    (hrun : Steps (step float document) (start dir₀) acts M) : M.ReadsWhole document dir₀ := by
  have h := kept_of_run hdocument hrun
  refine ⟨h.whole.current, h.whole.mode, fun r id seen opened hr => ?_,
    fun r text opened hr => ?_, fun r opened hr => ?_⟩
  · have hreader := h.whole.readers r
    rw [hr] at hreader
    exact ⟨_, hreader.2.2.1, hreader.2.2.2⟩
  · have hreader := h.whole.readers r
    rw [hr] at hreader
    exact hreader
  · have hreader := h.whole.readers r
    rw [hr] at hreader
    obtain ⟨hopened, hversion⟩ := hreader
    cases opened with
    | zero => exact ⟨rfl, hversion⟩
    | succ n =>
      rw [version, List.getElem?_eq_getElem hopened] at hversion
      cases hversion

/-- A daemon that is killed while it writes, and the next one, which sweeps, loads and flushes; one
reader opens the file before the swap and one after it. -/
def interruptedFlush : List Act :=
  [.start true, .load .earliest, .record ⟨.deliveryAccepted "github", .earliest, .earliest⟩,
    .mkstemp ".evidence-a.tmp", .write 5, .kill, .start true, .sweep true, .load .earliest,
    .record ⟨.deliveryAccepted "github", .earliest, .earliest⟩, .mkstemp ".evidence-b.tmp",
    .write 600, .close, .chmod, .open_ 0, .replace, .open_ 1, .read 1 600, .eof 1]

/-- How often the document was swapped, and whether a temp was left. -/
def tally (M : Machine) : ℕ × Bool := (M.swapped.length, M.clean)

theorem reads_whole_interrupted :
    ∃ M, Steps (step .unread "evidence.json") (start .empty) interruptedFlush M ∧
      M.tally = (1, true) ∧ M.ReadsWhole "evidence.json" .empty := by
  obtain ⟨M, hrun, htally⟩ := Option.map_eq_some_iff.mp
    (by decide +kernel : (Steps.run (step .unread "evidence.json") (start .empty)
      interruptedFlush).map tally = some (1, true))
  exact ⟨M, .of_run hrun, htally,
    reads_whole .unread "evidence.json" (by decide +kernel) .empty _ (.of_run hrun)⟩

end Machine

end BasecradleRouter.Evidence
