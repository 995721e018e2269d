/-
# Runs

A run of `p` in a list is maximal if what stands on either side of it is no `p`.  `squeeze` puts one
separator for each run, and `trim` takes the runs at both ends away.

A list cut in two keeps its first part's runs whole (`Whole`) unless the cut falls inside one: there
the last element before it and the first after it are both `p` (`whole_iff`).  `cutBack` backs the
cut up to the last element outside of a run, so it never does (`whole_cutBack`); nothing is left
only where every shorter cut falls inside the first run (`not_whole_of_cutBack_eq_nil`).
-/
import Mathlib.Data.List.Chain
import Mathlib.Data.List.DropRight

namespace BasecradleRouter.Lib.Runs

variable {α : Type} {p : α → Bool} {sep c : α} {l head rest before run after : List α}

/-! ## 1. Squeezing and trimming -/

/-- One separator for each run, after an element that was of one or was not. -/
def squeezeFrom (p : α → Bool) (sep : α) : Bool → List α → List α
  | _, [] => []
  | inRun, c :: cs =>
    if p c then
      if inRun then squeezeFrom p sep true cs else sep :: squeezeFrom p sep true cs
    else c :: squeezeFrom p sep false cs

def squeeze (p : α → Bool) (sep : α) (l : List α) : List α := squeezeFrom p sep false l

def trim (p : α → Bool) (l : List α) : List α := (l.dropWhile p).rdropWhile p

theorem mem_squeezeFrom {inRun : Bool} (h : c ∈ squeezeFrom p sep inRun l) :
    c = sep ∨ c ∈ l ∧ p c = false := by
  induction l generalizing inRun with
  | nil => cases h
  | cons d l ih =>
    have hlater : (c = sep ∨ c ∈ l ∧ p c = false) → c = sep ∨ c ∈ d :: l ∧ p c = false := by
      rintro (hsep | ⟨hmem, hc⟩)
      · exact Or.inl hsep
      · exact Or.inr ⟨List.mem_cons_of_mem d hmem, hc⟩
    rw [squeezeFrom] at h
    split at h
    · split at h
      · exact hlater (ih h)
      · rcases List.mem_cons.mp h with hsep | h
        · exact Or.inl hsep
        · exact hlater (ih h)
    · next hd =>
      rcases List.mem_cons.mp h with rfl | h
      · exact Or.inr ⟨List.mem_cons_self, by simpa using hd⟩
      · exact hlater (ih h)

/-- Within a run no other separator comes first. -/
theorem head?_squeezeFrom_true (h : c ∈ (squeezeFrom p sep true l).head?) : p c = false := by
  induction l with
  | nil => cases h
  | cons d l ih =>
    rw [squeezeFrom] at h
    split at h
    · rw [if_pos rfl] at h
      exact ih h
    · next hd =>
      cases h
      simpa using hd

/-- No two separators stand next to each other. -/
theorem isChain_squeezeFrom (hsep : p sep = true) (inRun : Bool) (l : List α) :
    (squeezeFrom p sep inRun l).IsChain fun c d => ¬ (c = sep ∧ d = sep) := by
  induction l generalizing inRun with
  | nil => exact List.isChain_nil
  | cons d l ih =>
    rw [squeezeFrom]
    split
    · split
      · exact ih true
      · refine List.isChain_cons.mpr ⟨fun c hc => ?_, ih true⟩
        rintro ⟨-, rfl⟩
        rw [head?_squeezeFrom_true hc] at hsep
        cases hsep
    · next hd =>
      refine List.isChain_cons.mpr ⟨fun c _ => ?_, ih false⟩
      rintro ⟨rfl, -⟩
      exact hd hsep

/-- What has one separator for each run already. -/
theorem squeezeFrom_of_single {inRun : Bool} (hwhite : ∀ c ∈ l, p c = true → c = sep)
    (hsingle : l.IsChain fun c d => ¬ (c = sep ∧ d = sep))
    (hfirst : inRun = true → l.head? ≠ some sep) : squeezeFrom p sep inRun l = l := by
  induction l generalizing inRun with
  | nil => rfl
  | cons c l ih =>
    obtain ⟨hc, hl⟩ := List.forall_mem_cons.mp hwhite
    obtain ⟨hnext, hrest⟩ := List.isChain_cons.mp hsingle
    rw [squeezeFrom]
    cases hpc : p c with
    | true =>
      obtain rfl := hc hpc
      have hout : inRun = false := by
        cases inRun with
        | false => rfl
        | true => exact absurd rfl (hfirst rfl)
      rw [hout, if_pos rfl, if_neg Bool.false_ne_true,
        ih hl hrest fun _ hhead => hnext c hhead ⟨rfl, rfl⟩]
    | false =>
      rw [if_neg Bool.false_ne_true, ih hl hrest fun h => absurd h Bool.false_ne_true]

theorem trim_within (p : α → Bool) (l : List α) : trim p l <:+: l :=
  (List.rdropWhile_prefix p _).isInfix.trans (List.dropWhile_suffix p).isInfix

theorem head?_of_begins (h : head <+: l) (hne : head ≠ []) : head.head? = l.head? := by
  obtain ⟨rest, rfl⟩ := h
  exact (List.head?_append_of_ne_nil head hne).symm

theorem head?_trim (p : α → Bool) (l : List α) : ∀ c ∈ (trim p l).head?, p c = false := by
  intro c hc
  have hne : trim p l ≠ [] := by
    intro hnil
    rw [hnil] at hc
    cases hc
  have hfirst : (trim p l).head? = (l.dropWhile p).head? :=
    head?_of_begins (List.rdropWhile_prefix p _) hne
  rw [hfirst] at hc
  have hhead := List.head?_dropWhile_not p l
  rw [Option.mem_def.mp hc] at hhead
  exact hhead

theorem getLast?_rdropWhile (p : α → Bool) (l : List α) :
    ∀ c ∈ (l.rdropWhile p).getLast?, p c = false := by
  intro c hc
  obtain ⟨hne, hlast⟩ := List.mem_getLast?_eq_getLast hc
  rw [hlast]
  simpa using List.rdropWhile_last_not p l hne

theorem getLast?_trim (p : α → Bool) (l : List α) : ∀ c ∈ (trim p l).getLast?, p c = false :=
  getLast?_rdropWhile p _

/-- Where the first element stays, only the end is trimmed. -/
theorem trim_of_head? (h : ∀ c ∈ l.head?, p c = false) : trim p l = l.rdropWhile p := by
  cases l with
  | nil => rfl
  | cons c l =>
    have hc : p c = false := h c rfl
    rw [trim, List.dropWhile_cons, if_neg (by simp [hc])]

/-- Nothing is left of a list that is one run only. -/
theorem trim_eq_nil_of_head? (h : ∀ c ∈ l.head?, p c = false) : trim p l = [] ↔ l = [] := by
  rw [trim_of_head? h, List.rdropWhile_eq_nil_iff]
  cases l with
  | nil => simp
  | cons c l =>
    have hc : p c = false := h c rfl
    simp [hc]

/-- Dropping the first separator is starting within a run. -/
theorem dropWhile_squeeze (hsep : p sep = true) (l : List α) :
    (squeeze p sep l).dropWhile p = squeezeFrom p sep true l := by
  have hstays : ∀ l : List α, (squeezeFrom p sep true l).dropWhile p =
      squeezeFrom p sep true l := by
    intro l
    cases hl : squeezeFrom p sep true l with
    | nil => rfl
    | cons c cs =>
      have hhead : c ∈ (squeezeFrom p sep true l).head? := by
        rw [hl]
        rfl
      have hc : p c = false := head?_squeezeFrom_true hhead
      rw [List.dropWhile_cons, if_neg (by simp [hc])]
  cases l with
  | nil => rfl
  | cons c l =>
    rw [squeeze, squeezeFrom, squeezeFrom]
    cases hc : p c with
    | true =>
      rw [if_pos rfl, if_pos rfl, if_pos rfl, if_neg Bool.false_ne_true, List.dropWhile_cons, hsep,
        if_pos rfl, hstays]
    | false =>
      rw [if_neg Bool.false_ne_true, if_neg Bool.false_ne_true, List.dropWhile_cons, hc,
        if_neg Bool.false_ne_true]

/-- Only what the elements are taken for matters. -/
theorem squeezeFrom_congr {q : α → Bool} {inRun : Bool} (h : ∀ c ∈ l, p c = q c) :
    squeezeFrom p sep inRun l = squeezeFrom q sep inRun l := by
  induction l generalizing inRun with
  | nil => rfl
  | cons c l ih =>
    obtain ⟨hc, hl⟩ := List.forall_mem_cons.mp h
    rw [squeezeFrom, squeezeFrom, hc, ih hl, ih hl]

theorem dropWhile_congr {q : α → Bool} (h : ∀ c ∈ l, p c = q c) :
    l.dropWhile p = l.dropWhile q := by
  induction l with
  | nil => rfl
  | cons c l ih =>
    obtain ⟨hc, hl⟩ := List.forall_mem_cons.mp h
    rw [List.dropWhile_cons, List.dropWhile_cons, hc, ih hl]

theorem trim_congr {q : α → Bool} (h : ∀ c ∈ l, p c = q c) : trim p l = trim q l := by
  have hreverse : ∀ c ∈ (l.dropWhile q).reverse, p c = q c := fun c hc =>
    h c ((List.dropWhile_suffix q).subset (List.mem_reverse.mp hc))
  rw [trim, trim, dropWhile_congr h, List.rdropWhile, List.rdropWhile, dropWhile_congr hreverse]

/-- An element outside of a run is kept, and what stands before it. -/
theorem rdropWhile_cons_of_neg (hc : p c = false) (l : List α) :
    (c :: l).rdropWhile p = c :: l.rdropWhile p := by
  induction l using List.reverseRecOn with
  | nil => simp [List.rdropWhile_singleton, hc]
  | append_singleton l d ih =>
    rw [← List.cons_append, List.rdropWhile_concat, List.rdropWhile_concat, ih]
    split
    · rfl
    · rfl

/-- An element of a run is kept where anything behind it is. -/
theorem rdropWhile_cons_of_ne_nil (h : l.rdropWhile p ≠ []) :
    (c :: l).rdropWhile p = c :: l.rdropWhile p := by
  induction l using List.reverseRecOn with
  | nil => exact absurd (List.rdropWhile_nil p) h
  | append_singleton l d ih =>
    rw [List.rdropWhile_concat] at h
    rw [← List.cons_append, List.rdropWhile_concat, List.rdropWhile_concat]
    split
    · next hd =>
      rw [if_pos hd] at h
      exact ih h
    · rfl

/-! ## 2. Maximal runs and cuts -/

/-- A maximal run, and what stands before and after it. -/
structure IsRun (p : α → Bool) (before run after : List α) : Prop where
  ne_nil : run ≠ []
  within : ∀ c ∈ run, p c = true
  left : ∀ c ∈ before.getLast?, p c = false
  right : ∀ c ∈ after.head?, p c = false

/-- Each maximal run of the first part is one of the whole. -/
def Whole (p : α → Bool) (head rest : List α) : Prop := ∀ before run after,
  head = before ++ (run ++ after) → IsRun p before run after → IsRun p before run (after ++ rest)

/-- **A cut keeps the runs whole unless it falls inside one.** -/
theorem whole_iff : Whole p head rest ↔
    (∀ c ∈ head.getLast?, p c = false) ∨ ∀ c ∈ rest.head?, p c = false := by
  constructor
  · intro h
    by_contra hinside
    rw [not_or] at hinside
    obtain ⟨hlast, hnext⟩ := hinside
    push Not at hlast hnext
    obtain ⟨c, hc, hpc⟩ := hlast
    obtain ⟨d, hd, hpd⟩ := hnext
    -- the run at the end of the first part goes on in the second
    have hrun : IsRun p (head.rdropWhile p) (head.rtakeWhile p) [] := by
      refine ⟨?_, fun x hx => List.mem_rtakeWhile_imp hx, getLast?_rdropWhile p head, nofun⟩
      intro hnil
      obtain ⟨hne, hlast⟩ := List.mem_getLast?_eq_getLast hc
      rw [List.rtakeWhile_eq_nil_iff] at hnil
      exact hnil hne (hlast ▸ by simpa using hpc)
    have hgoes := (h _ _ [] (by rw [List.append_nil, List.rdropWhile_append_rtakeWhile]) hrun).right
    exact hpd (hgoes d hd)
  · rintro houtside before run after rfl hrun
    refine ⟨hrun.ne_nil, hrun.within, hrun.left, fun d hd => ?_⟩
    cases after with
    | cons x after => exact hrun.right d hd
    | nil =>
      rcases houtside with hlast | hnext
      · obtain ⟨c, hc⟩ : ∃ c, run.getLast? = some c :=
          Option.ne_none_iff_exists'.mp fun hnone =>
            hrun.ne_nil (List.getLast?_eq_none_iff.mp hnone)
        have hmem : c ∈ run := List.mem_of_getLast? hc
        have hout : p c = false := by
          refine hlast c ?_
          rw [List.append_nil, List.getLast?_append_of_ne_nil before hrun.ne_nil]
          exact hc
        rw [hrun.within c hmem] at hout
        cases hout
      · exact hnext d hd

/-- The first part without the run the cut falls into. -/
def cutBack (p : α → Bool) (head : List α) (next : Option α) : List α :=
  if next.any p then head.rdropWhile p else head

theorem cutBack_begins (p : α → Bool) (head : List α) (next : Option α) :
    cutBack p head next <+: head := by
  unfold cutBack
  split
  · exact List.rdropWhile_prefix p head
  · exact List.prefix_rfl

/-- **A cut that is backed up falls inside no run.** -/
theorem cutBack_outside (p : α → Bool) (head rest : List α) :
    (∀ c ∈ (cutBack p head rest.head?).getLast?, p c = false) ∨
      (cutBack p head rest.head? = head ∧ ∀ c ∈ rest.head?, p c = false) := by
  unfold cutBack
  split
  · exact Or.inl (getLast?_rdropWhile p head)
  · next hnext =>
    refine Or.inr ⟨rfl, fun c hc => ?_⟩
    rw [Option.mem_def.mp hc] at hnext
    simpa using hnext

/-- Where nothing is left, every shorter cut falls inside the first run. -/
theorem not_whole_of_cutBack_eq_nil (hne : head ≠ []) (hnil : cutBack p head rest.head? = [])
    {head' rest' : List α} (hne' : head' ≠ []) (hlength : head'.length ≤ head.length)
    (hsame : head' ++ rest' = head ++ rest) : ¬ Whole p head' rest' := by
  unfold cutBack at hnil
  split at hnil
  · next hnext =>
    have hall := List.rdropWhile_eq_nil_iff.mp hnil
    obtain ⟨mid, hmid⟩ : ∃ mid, head = head' ++ mid := by
      have hprefix : head' <+: head ++ rest := ⟨rest', hsame⟩
      exact (List.prefix_of_prefix_length_le hprefix (List.prefix_append head rest)
        hlength).imp fun _ h => h.symm
    have hrest' : rest' = mid ++ rest := by
      rw [hmid, List.append_assoc] at hsame
      exact List.append_cancel_left hsame
    rw [whole_iff, not_or]
    constructor
    · intro hlast
      obtain ⟨c, hc⟩ : ∃ c, head'.getLast? = some c :=
        Option.ne_none_iff_exists'.mp fun hnone => hne' (List.getLast?_eq_none_iff.mp hnone)
      have hin := hall c (by rw [hmid]; exact List.mem_append_left mid (List.mem_of_getLast? hc))
      rw [hlast c hc] at hin
      cases hin
    · intro hfirst
      rw [hrest'] at hfirst
      cases mid with
      | nil =>
        rw [List.nil_append] at hfirst
        cases hhead : rest.head? with
        | none =>
          rw [hhead] at hnext
          cases hnext
        | some c =>
          rw [hhead, Option.any_some, hfirst c hhead] at hnext
          cases hnext
      | cons d mid =>
        have hin := hall d (by rw [hmid]; simp)
        rw [hfirst d rfl] at hin
        cases hin
  · exact absurd hnil hne

end BasecradleRouter.Lib.Runs
