/-
# Rolling windows

An instant `t` has *aged* out of a window at `now` when `t <= now - window`; what has not is
`recent`.  Ageing is for good (`aged_later`), so looking through a window twice is looking once
(`recent_recent`), and in a list of instants in order the aged ones come first
(`dropWhile_aged`).

The window is any float: one that is NaN ages nothing, nor does an infinite one.  The difference may
be rounded (`r`); that a greater one is never rounded to a smaller one is all that is used.
-/
import BasecradleRouter.Lib.PyFloat

namespace BasecradleRouter.Lib

/-- `t <= now - window` -/
def aged (r : Rounding) (window : PyFloat) (now t : ℚ) : Bool :=
  (PyFloat.fin t).le (r.sub (.fin now) window)

/-- The instants the window still holds. -/
def recent (r : Rounding) (window : PyFloat) (now : ℚ) (ts : List ℚ) : List ℚ :=
  ts.filter fun t => !aged r window now t

variable {r : Rounding} {window : PyFloat} {now now' t t' : ℚ}

theorem aged_exact (window : PyFloat) (now t : ℚ) :
    aged .exact window now t = window.le (.fin (now - t)) :=
  (Rounding.le_exact_sub now t window).symm

/-- What has aged stays aged. -/
theorem aged_later (h : aged r window now t = true) (hnow : now ≤ now') :
    aged r window now' t = true :=
  Rounding.le_sub_mono h hnow

/-- What is older than something aged has aged. -/
theorem aged_older (h : aged r window now t = true) (ht : t' ≤ t) :
    aged r window now t' = true := by
  have hle : (PyFloat.fin t').le (.fin t) = true := decide_eq_true ht
  exact PyFloat.le_trans hle h

@[simp] theorem recent_nil : recent r window now [] = [] := rfl

theorem recent_append (ts ts' : List ℚ) :
    recent r window now (ts ++ ts') = recent r window now ts ++ recent r window now ts' :=
  List.filter_append ..

theorem mem_recent {ts : List ℚ} :
    t ∈ recent r window now ts ↔ t ∈ ts ∧ aged r window now t = false := by
  simp [recent]

/-- Looking again later is looking later. -/
theorem recent_recent (hnow : now ≤ now') (ts : List ℚ) :
    recent r window now' (recent r window now ts) = recent r window now' ts := by
  unfold recent
  rw [List.filter_filter]
  refine List.filter_congr fun t _ => ?_
  cases h' : aged r window now' t with
  | true => rfl
  | false =>
    have h : aged r window now t = false := by
      by_contra hne
      rw [aged_later (by simpa using hne) hnow] at h'
      cases h'
    rw [h]
    rfl

/-- Where all has aged nothing is recent. -/
theorem recent_eq_nil {ts : List ℚ} :
    recent r window now ts = [] ↔ ∀ t ∈ ts, aged r window now t = true := by
  simp [recent, List.filter_eq_nil_iff]

theorem recent_sublist (ts : List ℚ) : (recent r window now ts).Sublist ts := List.filter_sublist

/-- A sublist is looked at as a sublist. -/
theorem recent_mono {ts ts' : List ℚ} (h : ts.Sublist ts') :
    (recent r window now ts).Sublist (recent r window now ts') := h.filter _

/-- In order, the aged instants come first. -/
theorem dropWhile_aged : ∀ {ts : List ℚ}, ts.Pairwise (· ≤ ·) →
    ts.dropWhile (aged r window now) = recent r window now ts
  | [], _ => rfl
  | t :: ts, h => by
    rw [List.pairwise_cons] at h
    rw [List.dropWhile_cons]
    split
    · next haged =>
      rw [dropWhile_aged h.2]
      simp [recent, haged]
    · next hrecent =>
      have hall : ∀ t' ∈ t :: ts, aged r window now t' = false := by
        intro t' ht'
        rcases List.mem_cons.mp ht' with rfl | hmem
        · simpa using hrecent
        · by_contra hne
          exact hrecent (aged_older (by simpa using hne) (h.1 t' hmem))
      rw [recent, List.filter_eq_self.mpr]
      intro t' ht'
      rw [hall t' ht']
      rfl

/-- In order, nothing is recent where the newest has aged. -/
theorem recent_eq_nil_of_newest {ts : List ℚ} (hts : ts.Pairwise (· ≤ ·))
    (h : ∀ t, ts.getLast? = some t → aged r window now t = true) : recent r window now ts = [] := by
  rw [recent_eq_nil]
  intro t ht
  rcases List.eq_nil_or_concat ts with rfl | ⟨older, newest, rfl⟩
  · exact absurd ht List.not_mem_nil
  · rw [List.concat_eq_append] at *
    have hnewest : aged r window now newest = true := h newest (by simp)
    rcases List.mem_append.mp ht with hmem | hmem
    · exact aged_older hnewest ((List.pairwise_append.mp hts).2.2 t hmem newest (by simp))
    · rw [List.mem_singleton.mp hmem]
      exact hnewest

end BasecradleRouter.Lib
