/-
# The rolling-window bound

A wake is admitted on a scope that counts fewer than its threshold, so a stretch of one window's
length holds no more admitted wakes than that, as long as the scope still counts all of them.  What
it no longer counts it has forgotten (`Forgets`): a sweep took the window, the scope was reset after
its cooldown, or the call pruned the instant as aged.

The breaker tells an age by a rounded difference, and the end of a cooldown by a rounded sum, and so
it may forget a wake that is less than a window old: `not_bounded_max`, under the default
thresholds.  `admitted_bounded` is the bound for the runs in which it forgets none such.  Where
nothing is rounded and a cooldown lasts at least a window, every run is one
(`runForgetsOld_of_unrounded`).
-/
import BasecradleRouter.Breaker.Isolation
import BasecradleRouter.Lib.Binary64

namespace BasecradleRouter.Breaker

open BasecradleRouter.Lib

/-- `t - window < x <= t`, nothing rounded. -/
def within (window : PyFloat) (t x : ℚ) : Bool := !aged .exact window t x && decide (x ≤ t)

/-- How many wakes a scope allows in a window. -/
def BreakerConfig.limit (config : BreakerConfig) : ScopeKey → ℕ
  | .agent _ => config.maxWakes
  | .stream _ _ => config.streamMaxWakes

theorem threshold_of_mem_scopes {config : BreakerConfig} {call : Call} {scope : Scope}
    (h : scope ∈ call.scopes config) : scope.threshold = config.limit scope.window := by
  rcases mem_scopes.mp h with rfl | ⟨stream, -, -, rfl⟩
  · rfl
  · rfl

/-! ## 1. What a call forgets -/

/-- The wakes a window counts; the one that tripped it was refused. -/
def Window.counts (w : Window) : List ℚ :=
  match w.trippedUntil with
  | none => w.timestamps
  | some _ => w.timestamps.dropLast

/-- The wakes that count on a scope. -/
def WakeRateBreaker.counts (b : WakeRateBreaker) (k : ScopeKey) : List ℚ :=
  (b.windows.get k).elim [] Window.counts

namespace Standings

/-- A scope is mid-cooldown. -/
def refuses (now : ℚ) (s : Standings) (k : ScopeKey) : Bool :=
  match s k with
  | .cooling until_ => (PyFloat.fin now).lt until_
  | .counting _ => false

/-- A scope whose cooldown, if it had one, is over has no room for one more wake. -/
def full (s : Standings) (scope : Scope) : Bool :=
  match s scope.window with
  | .cooling _ => false
  | .counting ts => decide (scope.threshold < ts.length + 1)

/-- The first pass comes to a scope whose cooldown is over. -/
def Heals (now : ℚ) (s : Standings) : List Scope → ScopeKey → Prop
  | [], _ => False
  | scope :: rest, k => s.refuses now scope.window = false ∧
      ((scope.window = k ∧ ∃ until_, s k = .cooling until_) ∨ Heals now s rest k)

/-- The second pass comes to a scope. -/
def Records (s : Standings) : List Scope → ScopeKey → Prop
  | [], _ => False
  | scope :: rest, k => scope.window = k ∨ (s.full scope = false ∧ Records s rest k)

end Standings

namespace WakeRateBreaker

/-- A wake that counts on a scope when a call comes, and does no longer when the scope has been
swept, reset or pruned. -/
inductive Forgets (interval : ℕ) (b : WakeRateBreaker) (call : Call) (k : ScopeKey) (t : ℚ) : Prop
  | swept (w : Window) (hdue : interval ≤ b.admitsSinceGc + 1) (hw : b.windows.get k = some w)
      (hstale : kept b.config.rounding b.config.window call.now w = false)
  | reset (hheals : (b.standing call.now).Heals call.now (call.scopes b.config) k)
  | pruned (hopen : ∀ scope ∈ call.scopes b.config,
        (b.standing call.now).refuses call.now scope.window = false)
      (hrecords : (b.standing call.now).Records (call.scopes b.config) k)
      (haged : aged b.config.rounding b.config.window call.now t = true)

/-- A call forgets only wakes that are a window old. -/
def ForgetsOld (interval : ℕ) (b : WakeRateBreaker) (call : Call) : Prop :=
  ∀ k, ∀ t ∈ b.counts k, b.Forgets interval call k t →
    aged .exact b.config.window call.now t = true

/-- So do all calls of a run. -/
def RunForgetsOld (interval : ℕ) : WakeRateBreaker → List Call → Prop
  | _, [] => True
  | b, call :: calls => b.ForgetsOld interval call ∧
      RunForgetsOld interval (b.admitEvery interval call.agentKey call.streamKey call.now).2 calls

end WakeRateBreaker

/-! ## 2. One scope -/

/-- The wakes that count on a scope against those admitted on it, at the clock reading `clock`. -/
structure Kept (window : PyFloat) (limit : ℕ) (clock : ℚ) (counts wakes : List ℚ) : Prop where
  past : ∀ x ∈ wakes, x ≤ clock
  held : (recent .exact window clock wakes).Sublist counts
  bound : ∀ t, (wakes.filter (within window t)).length ≤ limit

section

variable {window : PyFloat} {limit : ℕ} {clock now : ℚ} {counts wakes : List ℚ}

theorem kept_fresh : Kept window limit clock [] [] where
  past := nofun
  held := List.nil_sublist _
  bound _ := Nat.zero_le _

theorem Kept.later (h : Kept window limit clock counts wakes) (hnow : clock ≤ now) :
    Kept window limit now counts wakes where
  past x hx := (h.past x hx).trans hnow
  held := by
    rw [← recent_recent hnow wakes]
    exact (recent_sublist _).trans h.held
  bound := h.bound

/-- What is forgotten was not recent. -/
theorem Kept.forgets (h : Kept window limit now counts wakes) {keep : ℚ → Bool}
    (hold : ∀ t ∈ counts, keep t = false → aged .exact window now t = true) :
    Kept window limit now (counts.filter keep) wakes where
  past := h.past
  held := by
    have hkeep : (recent .exact window now wakes).filter keep = recent .exact window now wakes := by
      refine List.filter_eq_self.mpr fun t ht => ?_
      by_contra hforgotten
      have haged := hold t (h.held.subset ht) (by simpa using hforgotten)
      rw [(mem_recent.mp ht).2] at haged
      cases haged
    rw [← hkeep]
    exact h.held.filter keep
  bound := h.bound

theorem Kept.reset (h : Kept window limit now counts wakes)
    (hold : ∀ t ∈ counts, aged .exact window now t = true) : Kept window limit now [] wakes := by
  have hnone : counts.filter (fun _ => false) = [] := by simp
  rw [← hnone]
  exact h.forgets fun t ht _ => hold t ht

/-- A wake recorded that another scope refused leaves more than was admitted. -/
theorem Kept.refused (h : Kept window limit now counts wakes) :
    Kept window limit now (counts ++ [now]) wakes where
  past := h.past
  held := h.held.trans (List.sublist_append_left _ _)
  bound := h.bound

/-- A wake admitted below the threshold keeps the bound. -/
theorem Kept.admitted (h : Kept window limit now counts wakes)
    (hlimit : counts.length + 1 ≤ limit) :
    Kept window limit now (counts ++ [now]) (wakes ++ [now]) where
  past x hx := by
    rcases List.mem_append.mp hx with hmem | hmem
    · exact h.past x hmem
    · rw [List.mem_singleton.mp hmem]
  held := by
    rw [recent_append]
    exact h.held.append (recent_sublist [now])
  bound t := by
    rw [List.filter_append, List.length_append]
    rcases lt_or_ge t now with ht | ht
    · -- the stretch ends before this wake
      have hnone : [now].filter (within window t) = [] := by simp [within, not_le.mpr ht]
      rw [hnone]
      exact h.bound t
    · -- whatever else the stretch holds is recent, and so counted
      have hsub : (wakes.filter (within window t)).Sublist (recent .exact window now wakes) := by
        have heq : wakes.filter (within window t) =
            (recent .exact window now wakes).filter (within window t) := by
          rw [recent, List.filter_filter]
          refine List.filter_congr fun x _ => ?_
          cases hx : aged .exact window now x with
          | false => simp
          | true => simp [within, aged_later hx ht]
        rw [heq]
        exact List.filter_sublist
      have hle := (hsub.trans h.held).length_le
      have hone : ([now].filter (within window t)).length ≤ 1 := List.length_filter_le ..
      omega

end

/-! ## 3. One call -/

namespace Standings

variable {now : ℚ} {s s' : Standings} {k k' : ScopeKey}

/-- A reset scope refuses no more than one whose cooldown is over. -/
theorem refuses_of_reset (hover : s.refuses now k' = false)
    (h : refuses now (Function.update s k' (.counting [])) k = false) :
    s.refuses now k = false := by
  by_cases hk : k = k'
  · rw [hk]
    exact hover
  · unfold refuses at h ⊢
    rwa [Function.update_of_ne hk] at h

theorem Heals.of_reset (hover : s.refuses now k' = false) : ∀ {scopes : List Scope},
    Heals now (Function.update s k' (.counting [])) scopes k → Heals now s scopes k
  | scope :: rest, ⟨hpasses, h⟩ => by
    refine ⟨refuses_of_reset hover hpasses, ?_⟩
    rcases h with ⟨hwindow, until_, hcooling⟩ | h
    · rw [Function.update_apply] at hcooling
      split at hcooling
      · cases hcooling
      · exact Or.inl ⟨hwindow, until_, hcooling⟩
    · exact Or.inr (h.of_reset hover)

theorem Records.mono : ∀ {scopes : List Scope},
    (∀ scope ∈ scopes, s'.full scope = false → s.full scope = false) →
      Records s' scopes k → Records s scopes k
  | scope :: rest, hfull, h => by
    rcases h with hwindow | ⟨hroom, h⟩
    · exact Or.inl hwindow
    · exact Or.inr ⟨hfull scope List.mem_cons_self hroom,
        h.mono fun scope' hmem => hfull scope' (List.mem_cons_of_mem _ hmem)⟩

theorem Records.mem : ∀ {scopes : List Scope}, Records s scopes k →
    ∃ scope ∈ scopes, scope.window = k
  | scope :: rest, h => by
    rcases h with hwindow | ⟨-, h⟩
    · exact ⟨scope, List.mem_cons_self, hwindow⟩
    · obtain ⟨scope', hmem, hwindow⟩ := h.mem
      exact ⟨scope', List.mem_cons_of_mem _ hmem, hwindow⟩

/-- A first pass that refuses nothing found no scope mid-cooldown. -/
theorem open_of_checkCooldowns : ∀ {scopes : List Scope} {s s' : Standings},
    checkCooldowns now scopes s = (none, s') →
      ∀ scope ∈ scopes, s.refuses now scope.window = false
  | [], _, _, _ => nofun
  | scope :: rest, s, s', h => by
    unfold checkCooldowns at h
    split at h
    · next until_ hcooling =>
      split at h
      · cases h
      · next hover =>
        have hopen : s.refuses now scope.window = false := by
          unfold refuses
          rw [hcooling]
          simpa using hover
        exact List.forall_mem_cons.mpr ⟨hopen, fun scope' hmem =>
          refuses_of_reset hopen (open_of_checkCooldowns h scope' hmem)⟩
    · next ts hcounting =>
      have hopen : s.refuses now scope.window = false := by
        unfold refuses
        rw [hcounting]
      exact List.forall_mem_cons.mpr ⟨hopen, open_of_checkCooldowns h⟩

/-- The first pass leaves a scope that counts. -/
theorem checkCooldowns_keeps : ∀ (scopes : List Scope) {s : Standings} {ts : List ℚ},
    s k = .counting ts → (checkCooldowns now scopes s).2 k = .counting ts
  | [], _, _, h => h
  | scope :: rest, s, ts, h => by
    unfold checkCooldowns
    split
    · next until_ hcooling =>
      split
      · exact h
      · refine checkCooldowns_keeps rest ?_
        rw [Function.update_of_ne, h]
        rintro rfl
        rw [h] at hcooling
        cases hcooling
    · exact checkCooldowns_keeps rest h

/-- A scope that is full stays so in the first pass. -/
theorem full_of_checkCooldowns {scopes : List Scope} {scope : Scope}
    (h : (checkCooldowns now scopes s).2.full scope = false) : s.full scope = false := by
  unfold full at h ⊢
  cases hs : s scope.window with
  | cooling until_ => rfl
  | counting ts =>
    rw [checkCooldowns_keeps scopes hs] at h
    exact h

/-- A refusal by the first pass is no admission. -/
theorem opened_of_checkCooldowns : ∀ {scopes : List Scope} {s s' : Standings}
    {outcome : BreakerOutcome}, checkCooldowns now scopes s = (some outcome, s') →
      outcome.admitted = false
  | scope :: rest, s, s', outcome, h => by
    unfold checkCooldowns at h
    split at h
    · split at h
      · cases h
        rfl
      · exact opened_of_checkCooldowns h
    · exact opened_of_checkCooldowns h

end Standings

namespace WakeRateBreaker

variable {b : WakeRateBreaker} {clock now : ℚ} {k : ScopeKey} {wakes : ScopeKey → List ℚ}

theorem counts_set (b : WakeRateBreaker) (k : ScopeKey) (w : Window) (k' : ScopeKey) :
    counts { b with windows := b.windows.set k w } k' =
      if k' = k then w.counts else b.counts k' := by
  unfold counts
  rw [Dict.get_set]
  split
  · rfl
  · rfl

/-- Every scope against the wakes admitted on it. -/
def AllKept (config : BreakerConfig) (clock : ℚ) (b : WakeRateBreaker)
    (wakes : ScopeKey → List ℚ) : Prop :=
  ∀ k, Kept config.window (config.limit k) clock (b.counts k) (wakes k)

theorem AllKept.set {config : BreakerConfig} (h : b.AllKept config now wakes) {w : Window}
    (hw : Kept config.window (config.limit k) now w.counts (wakes k)) :
    AllKept config now { b with windows := b.windows.set k w } wakes := by
  intro k'
  rw [counts_set]
  split
  · next hk =>
    rw [hk]
    exact hw
  · exact h k'

/-- A sweep forgets the windows it takes. -/
theorem countEvery_kept {interval : ℕ} (h : b.AllKept b.config now wakes)
    (hold : ∀ k w, interval ≤ b.admitsSinceGc + 1 → b.windows.get k = some w →
      kept b.config.rounding b.config.window now w = false →
        ∀ t ∈ b.counts k, aged .exact b.config.window now t = true) :
    (b.countEvery interval now).AllKept b.config now wakes ∧
      ∀ k, ∀ t ∈ (b.countEvery interval now).counts k, t ∈ b.counts k := by
  unfold countEvery
  split
  · next hdue =>
    have hcases : ∀ k, (b.gc now).counts k = b.counts k ∨ (b.gc now).counts k = [] ∧
        ∀ t ∈ b.counts k, aged .exact b.config.window now t = true := by
      intro k
      have hswept := gc_get b now k
      cases hw : b.windows.get k with
      | none =>
        rw [hw, Option.filter_none] at hswept
        exact Or.inl (by rw [counts, counts, hswept, hw])
      | some w =>
        rw [hw, Option.filter_some] at hswept
        split at hswept
        · exact Or.inl (by rw [counts, counts, hswept, hw])
        · next hstale =>
          exact Or.inr ⟨by rw [counts, hswept]; rfl, hold k w hdue hw (by simpa using hstale)⟩
    refine ⟨fun k => ?_, fun k t ht => ?_⟩
    · change Kept _ _ _ ((b.gc now).counts k) _
      rcases hcases k with hsame | ⟨hnone, haged⟩
      · rw [hsame]
        exact h k
      · rw [hnone]
        exact (h k).reset haged
    · change t ∈ (b.gc now).counts k at ht
      rcases hcases k with hsame | ⟨hnone, -⟩
      · rwa [hsame] at ht
      · rw [hnone] at ht
        cases ht
  · exact ⟨h, fun k t ht => ht⟩

/-- The first pass forgets what counted on the scopes it resets. -/
theorem checkCooldowns_kept : ∀ {scopes : List Scope} {b : WakeRateBreaker},
    b.AllKept b.config now wakes →
    (∀ k, (b.standing now).Heals now scopes k →
      ∀ t ∈ b.counts k, aged .exact b.config.window now t = true) →
        (checkCooldowns now scopes b).2.AllKept b.config now wakes ∧
          ∀ k, ∀ t ∈ (checkCooldowns now scopes b).2.counts k, t ∈ b.counts k
  | [], _, h, _ => ⟨h, fun _ _ ht => ht⟩
  | scope :: rest, b, h, hold => by
    unfold checkCooldowns
    split
    · next ts until_ hw =>
      have hcooling : b.standing now scope.window = .cooling until_ := by
        rw [standing, hw]
        rfl
      split
      · exact ⟨h, fun _ _ ht => ht⟩
      · next hover =>
        have hopen : (b.standing now).refuses now scope.window = false := by
          unfold Standings.refuses
          rw [hcooling]
          simpa using hover
        have hreset : AllKept b.config now
            { b with windows := b.windows.set scope.window ⟨[], none⟩ } wakes :=
          h.set ((h scope.window).reset
            (hold scope.window ⟨hopen, Or.inl ⟨rfl, until_, hcooling⟩⟩))
        have hcounts : ∀ k, ∀ t ∈ counts
            { b with windows := b.windows.set scope.window ⟨[], none⟩ } k, t ∈ b.counts k := by
          intro k t ht
          rw [counts_set] at ht
          split at ht
          · cases ht
          · exact ht
        obtain ⟨hkept, hfewer⟩ := @checkCooldowns_kept rest _ hreset fun k hheals t ht => by
          rw [standing_set] at hheals
          exact hold k ⟨hopen, Or.inr (hheals.of_reset hopen)⟩ t (hcounts k t ht)
        exact ⟨hkept, fun k t ht => hcounts k t (hfewer k t ht)⟩
    · next hw =>
      have hopen : (b.standing now).refuses now scope.window = false := by
        unfold Standings.refuses standing
        rcases hget : b.windows.get scope.window with _ | ⟨ts, _ | until_⟩
        · rfl
        · rfl
        · exact absurd hget (hw ts until_)
      exact checkCooldowns_kept h fun k hheals => hold k ⟨hopen, Or.inr hheals⟩

/-- The second pass leaves what counts on other scopes. -/
theorem counts_recordWake : ∀ {scopes : List Scope} {b : WakeRateBreaker},
    (∀ scope ∈ scopes, scope.window ≠ k) → (recordWake now scopes b).2.counts k = b.counts k
  | [], _, _ => rfl
  | scope :: rest, b, hscopes => by
    obtain ⟨hscope, hrest⟩ := List.forall_mem_cons.mp hscopes
    unfold recordWake
    dsimp only
    split
    · rw [counts_set, if_neg hscope.symm]
    · rw [counts_recordWake hrest, counts_set, if_neg hscope.symm]

/-- The wakes with this one, on the scopes it counts for. -/
def withWake (scopes : List Scope) (now : ℚ) (wakes : ScopeKey → List ℚ) : ScopeKey → List ℚ :=
  fun k => if ∃ scope ∈ scopes, scope.window = k then wakes k ++ [now] else wakes k

/-- The second pass keeps every scope, the wake counted where it was admitted. -/
theorem recordWake_kept : ∀ {scopes : List Scope} {b : WakeRateBreaker},
    (scopes.map Scope.window).Nodup →
    (∀ scope ∈ scopes, scope.threshold = b.config.limit scope.window) →
    (∀ scope ∈ scopes, ∃ ts, b.standing now scope.window = .counting ts) →
    b.Ordered now → b.AllKept b.config now wakes →
    (∀ k, (b.standing now).Records scopes k → ∀ t ∈ b.counts k,
      aged b.config.rounding b.config.window now t = true →
        aged .exact b.config.window now t = true) →
      if (recordWake now scopes b).1.admitted then
        (recordWake now scopes b).2.AllKept b.config now (withWake scopes now wakes)
      else (recordWake now scopes b).2.AllKept b.config now wakes
  | [], b, _, _, _, _, h, _ => by
    have hwakes : withWake [] now wakes = wakes := by
      funext k
      simp [withWake]
    rw [hwakes]
    simpa [recordWake, BreakerOutcome.admitted] using h
  | scope :: rest, b, hdistinct, hlimit, hcounting, hordered, h, hold => by
    rw [List.map_cons, List.nodup_cons] at hdistinct
    obtain ⟨⟨ts, hts⟩, hrest⟩ := List.forall_mem_cons.mp hcounting
    obtain ⟨hlimit₁, hlimit'⟩ := List.forall_mem_cons.mp hlimit
    obtain ⟨stored, hstored, hsorted, hle, hts'⟩ := stored_of_counting hordered hts
    have hcounts : b.counts scope.window = stored := by
      unfold counts
      cases hw : b.windows.get scope.window with
      | none =>
        rw [hw] at hstored
        exact congrArg Window.timestamps hstored
      | some w =>
        rw [hw, Option.getD_some] at hstored
        rw [hstored]
        rfl
    have hpruned : stored.dropWhile (fun t => (PyFloat.fin t).le (b.cutoff now)) = ts := by
      rw [← hts']
      exact dropWhile_aged hsorted
    -- the scope with what has aged pruned
    have hkept : Kept b.config.window (b.config.limit scope.window) now ts
        (wakes scope.window) := by
      rw [← hts', ← hcounts]
      refine (h scope.window).forgets fun t ht hforgotten => ?_
      exact hold scope.window (Or.inl rfl) t ht (by simpa using hforgotten)
    obtain ⟨hsnoc, hclock⟩ := pruned_ordered b.config.rounding b.config.window hsorted hle
    rw [hts'] at hsnoc hclock
    unfold recordWake
    simp only [hstored, hpruned, List.length_append, List.length_singleton]
    split
    · refine h.set ?_
      rw [Window.counts, List.dropLast_concat]
      exact hkept
    · next hunder =>
      have hother : ∀ scope' ∈ rest, scope'.window ≠ scope.window := fun scope' hmem heq =>
        hdistinct.1 (heq ▸ List.mem_map_of_mem hmem)
      -- the rest of the call's scopes stand as before
      have hsame : ∀ scope' ∈ rest, standing
          { b with windows := b.windows.set scope.window ⟨ts ++ [now], none⟩ } now scope'.window =
            b.standing now scope'.window := by
        intro scope' hmem
        rw [standing_set, Function.update_of_ne (hother scope' hmem)]
      have hrest' : ∀ scope' ∈ rest, ∃ ts', standing
          { b with windows := b.windows.set scope.window ⟨ts ++ [now], none⟩ } now scope'.window =
            .counting ts' := by
        intro scope' hmem
        rw [hsame scope' hmem]
        exact hrest scope' hmem
      have hold' : ∀ k, (standing
          { b with windows := b.windows.set scope.window ⟨ts ++ [now], none⟩ } now).Records rest k →
          ∀ t ∈ counts { b with windows := b.windows.set scope.window ⟨ts ++ [now], none⟩ } k,
            aged b.config.rounding b.config.window now t = true →
              aged .exact b.config.window now t = true := by
        intro k hrecords t ht haged
        obtain ⟨scope', hmem, rfl⟩ := hrecords.mem
        rw [counts_set, if_neg (hother scope' hmem)] at ht
        have hroom : (b.standing now).full scope = false := by
          unfold Standings.full
          rw [hts]
          simpa using hunder
        refine hold scope'.window (Or.inr ⟨hroom, hrecords.mono fun other hmem' => ?_⟩) t ht haged
        unfold Standings.full
        rw [hsame other hmem']
        exact id
      have hset : AllKept b.config now
          { b with windows := b.windows.set scope.window ⟨ts ++ [now], none⟩ } wakes :=
        h.set hkept.refused
      have hrun := @recordWake_kept rest
        { b with windows := b.windows.set scope.window ⟨ts ++ [now], none⟩ }
        hdistinct.2 hlimit' hrest' (hordered.set hsnoc hclock) hset hold'
      split at hrun
      · next hadmitted =>
        rw [if_pos hadmitted]
        intro k
        by_cases hk : scope.window = k
        · -- this scope: the rest of the pass leaves it, with the wake on it
          subst hk
          have hwith : withWake (scope :: rest) now wakes scope.window =
              wakes scope.window ++ [now] := by
            simp [withWake]
          rw [counts_recordWake hother, counts_set, if_pos rfl, hwith]
          exact hkept.admitted (by omega)
        · have hwith : withWake (scope :: rest) now wakes k = withWake rest now wakes k := by
            simp [withWake, hk]
          rw [hwith]
          exact hrun k
      · next hadmitted =>
        rw [if_neg hadmitted]
        exact hrun

/-- **A call that forgets only wakes that are a window old** keeps every scope, its wake counted
where it was admitted. -/
theorem admitEvery_kept {interval : ℕ} {call : Call} (hordered : b.Ordered clock)
    (hnow : clock ≤ call.now) (hold : b.ForgetsOld interval call)
    (h : b.AllKept b.config clock wakes) :
    if (b.admitEvery interval call.agentKey call.streamKey call.now).1.admitted then
      (b.admitEvery interval call.agentKey call.streamKey call.now).2.AllKept b.config call.now
        (withWake (call.scopes b.config) call.now wakes)
    else (b.admitEvery interval call.agentKey call.streamKey call.now).2.AllKept b.config call.now
      wakes := by
  have hscopes : b.scopes call.agentKey call.streamKey = call.scopes b.config := rfl
  have hstands : (b.countEvery interval call.now).standing call.now = b.standing call.now :=
    countEvery_standing (hordered.later hnow) interval
  have hconfig := countEvery_config b interval call.now
  -- the sweep
  have hlater : b.AllKept b.config call.now wakes := fun k => (h k).later hnow
  obtain ⟨hswept, hfewer⟩ := @countEvery_kept b call.now wakes interval hlater
    fun k w hdue hw hstale t ht => hold k t ht (.swept w hdue hw hstale)
  have hcounted : (b.countEvery interval call.now).Ordered call.now :=
    (hordered.later hnow).countEvery interval
  rw [← hconfig] at hswept
  -- the first pass
  have hhealed : ∀ k, ((b.countEvery interval call.now).standing call.now).Heals call.now
      (call.scopes b.config) k → ∀ t ∈ (b.countEvery interval call.now).counts k,
        aged .exact (b.countEvery interval call.now).config.window call.now t = true := by
    intro k hheals t ht
    rw [hstands] at hheals
    rw [hconfig]
    exact hold k t (hfewer k t ht) (.reset hheals)
  obtain ⟨hfirst, hfewer'⟩ := checkCooldowns_kept hswept hhealed
  obtain ⟨hrun, hordered', hconfig'⟩ :=
    checkCooldowns_standing (call.scopes b.config) _ hcounted
  rw [hstands] at hrun
  rw [hconfig] at hfirst hconfig'
  unfold admitEvery
  rw [hscopes]
  rcases hcheck :
    checkCooldowns call.now (call.scopes b.config) (b.countEvery interval call.now) with
    ⟨_ | outcome, b'⟩
  · rw [hcheck] at hfirst hfewer' hrun hordered' hconfig'
    dsimp only at hfirst hfewer' hrun hordered' hconfig' ⊢
    have hopen := Standings.open_of_checkCooldowns hrun.symm
    have hleft : (Standings.checkCooldowns call.now (call.scopes b.config)
        (b.standing call.now)).2 = b'.standing call.now := by rw [← hrun]
    have hcounting := (counting_of_checkCooldowns _ _ hrun.symm).2
    -- the second pass
    have hpruned : ∀ k, (b'.standing call.now).Records (call.scopes b.config) k →
        ∀ t ∈ b'.counts k, aged b'.config.rounding b'.config.window call.now t = true →
          aged .exact b'.config.window call.now t = true := by
      intro k hrecords t ht haged
      rw [hconfig'] at haged ⊢
      rw [← hleft] at hrecords
      have hbefore := hrecords.mono fun scope _ => Standings.full_of_checkCooldowns
      exact hold k t (hfewer k t (hfewer' k t ht)) (.pruned hopen hbefore haged)
    have hlimit : ∀ scope ∈ call.scopes b.config,
        scope.threshold = b'.config.limit scope.window := by
      rw [hconfig']
      exact fun scope hmem => threshold_of_mem_scopes hmem
    rw [← hconfig'] at hfirst
    have hsecond := recordWake_kept (scopes_distinct b.config call) hlimit hcounting hordered'
      hfirst hpruned
    rw [hconfig'] at hsecond
    simp only [hcheck]
    exact hsecond
  · rw [hcheck] at hfirst hrun
    dsimp only at hfirst hrun ⊢
    have hopened := Standings.opened_of_checkCooldowns hrun.symm
    simp only [hcheck]
    rw [if_neg (by simpa using hopened)]
    exact hfirst

end WakeRateBreaker

/-! ## 4. Rounding -/

theorem Standings.Heals.over {now : ℚ} {s : Standings} {k : ScopeKey} : ∀ {scopes : List Scope},
    s.Heals now scopes k → s.refuses now k = false ∧ ∃ until_, s k = .cooling until_
  | scope :: rest, ⟨hopen, h⟩ => by
    rcases h with ⟨rfl, hcooling⟩ | h
    · exact ⟨hopen, hcooling⟩
    · exact h.over

/-- At a reading neither the cutoff nor the end of a cooldown is rounded. -/
def BreakerConfig.Unrounded (config : BreakerConfig) (now : ℚ) : Prop :=
  config.rounding.sub (.fin now) config.window = Rounding.exact.sub (.fin now) config.window ∧
    config.rounding.add (.fin now) config.cooldown =
      Rounding.exact.add (.fin now) config.cooldown

instance (config : BreakerConfig) (now : ℚ) : Decidable (config.Unrounded now) :=
  inferInstanceAs (Decidable (_ ∧ _))

namespace WakeRateBreaker

variable {b : WakeRateBreaker} {clock now : ℚ} {k : ScopeKey} {w : Window}

/-- The second pass leaves a window as it was, untripped or just tripped. -/
theorem windows_recordWake : ∀ {scopes : List Scope} {b : WakeRateBreaker},
    (∀ scope ∈ scopes, ∃ ts, b.standing now scope.window = .counting ts) →
    (recordWake now scopes b).2.windows.get k = some w →
      b.windows.get k = some w ∨ w.trippedUntil = none ∨
        w.trippedUntil = some (b.config.rounding.add (.fin now) b.config.cooldown)
  | [], _, _, h => Or.inl h
  | scope :: rest, b, hcounting, h => by
    obtain ⟨⟨ts, hts⟩, hrest⟩ := List.forall_mem_cons.mp hcounting
    have huntripped : ((b.windows.get scope.window).getD ⟨[], none⟩).trippedUntil = none := by
      unfold standing at hts
      rcases hw : b.windows.get scope.window with _ | ⟨stored, _ | until_⟩
      · rfl
      · rfl
      · rw [hw] at hts
        cases hts
    unfold recordWake at h
    dsimp only at h
    rw [huntripped] at h
    split at h
    · rw [Dict.get_set] at h
      split at h
      · cases h
        exact Or.inr (Or.inr rfl)
      · exact Or.inl h
    · have hrest' : ∀ left, ∀ scope' ∈ rest, ∃ ts', standing
          { b with windows := b.windows.set scope.window ⟨left, none⟩ } now scope'.window =
            .counting ts' := by
        intro left scope' hmem
        rw [standing_set, Function.update_apply]
        split
        · exact ⟨_, rfl⟩
        · exact hrest scope' hmem
      rcases windows_recordWake (hrest' _) h with hbefore | hafter
      · rw [Dict.get_set] at hbefore
        split at hbefore
        · cases hbefore
          exact Or.inr (Or.inl rfl)
        · exact Or.inl hbefore
      · exact Or.inr hafter

/-- The first pass leaves a window as it was, or reset. -/
theorem windows_checkCooldowns : ∀ {scopes : List Scope} {b : WakeRateBreaker},
    (checkCooldowns now scopes b).2.windows.get k = some w →
      b.windows.get k = some w ∨ w.trippedUntil = none
  | [], _, h => Or.inl h
  | scope :: rest, b, h => by
    unfold checkCooldowns at h
    split at h
    · split at h
      · exact Or.inl h
      · rcases windows_checkCooldowns h with hbefore | hafter
        · rw [Dict.get_set] at hbefore
          split at hbefore
          · cases hbefore
            exact Or.inr rfl
          · exact Or.inl hbefore
        · exact Or.inr hafter
    · exact windows_checkCooldowns h

/-- What a call leaves of a window. -/
theorem windows_admitEvery {interval : ℕ} {call : Call} (hordered : b.Ordered call.now)
    (h : (b.admitEvery interval call.agentKey call.streamKey call.now).2.windows.get k = some w) :
    b.windows.get k = some w ∨ w.trippedUntil = none ∨
      w.trippedUntil = some (b.config.rounding.add (.fin call.now) b.config.cooldown) := by
  have hcounted : (b.countEvery interval call.now).Ordered call.now :=
    hordered.countEvery interval
  have hswept : ∀ w', (b.countEvery interval call.now).windows.get k = some w' →
      b.windows.get k = some w' := by
    intro w' hw'
    unfold countEvery at hw'
    split at hw'
    · change (b.gc call.now).windows.get k = some w' at hw'
      rw [gc_get] at hw'
      exact (Option.filter_eq_some_iff.mp hw').1
    · exact hw'
  unfold admitEvery at h
  rcases hcheck : checkCooldowns call.now (b.scopes call.agentKey call.streamKey)
    (b.countEvery interval call.now) with ⟨_ | outcome, b'⟩
  · simp only [hcheck] at h
    obtain ⟨hrun, -, hconfig⟩ :=
      checkCooldowns_standing (b.scopes call.agentKey call.streamKey) _ hcounted
    rw [hcheck] at hrun hconfig
    have hcounting := (counting_of_checkCooldowns _ _ hrun.symm).2
    rcases windows_recordWake hcounting h with hfirst | hafter
    · have hw : (checkCooldowns call.now (b.scopes call.agentKey call.streamKey)
          (b.countEvery interval call.now)).2.windows.get k = some w := by rw [hcheck]; exact hfirst
      rcases windows_checkCooldowns hw with hbefore | hreset
      · exact Or.inl (hswept w hbefore)
      · exact Or.inr (Or.inl hreset)
    · rw [hconfig, countEvery_config] at hafter
      exact Or.inr hafter
  · simp only [hcheck] at h
    have hw : (checkCooldowns call.now (b.scopes call.agentKey call.streamKey)
        (b.countEvery interval call.now)).2.windows.get k = some w := by rw [hcheck]; exact h
    rcases windows_checkCooldowns hw with hbefore | hreset
    · exact Or.inl (hswept w hbefore)
    · exact Or.inr (Or.inl hreset)

/-- A tripped window refuses from its trip on for the cooldown, nothing rounded, and holds nothing
later. -/
def Cooling (b : WakeRateBreaker) : Prop :=
  ∀ k ts until_, b.windows.get k = some ⟨ts, some until_⟩ →
    ∃ tripped, until_ = Rounding.exact.add (.fin tripped) b.config.cooldown ∧ ∀ t ∈ ts, t ≤ tripped

/-- After a cooldown that lasts at least a window all has aged. -/
theorem aged_of_over {config : BreakerConfig} {tripped t : ℚ}
    (hcooldown : config.window.le config.cooldown = true) (ht : t ≤ tripped)
    (hover : (PyFloat.fin now).lt (Rounding.exact.add (.fin tripped) config.cooldown) = false) :
    aged .exact config.window now t = true := by
  rw [aged_exact]
  have hpositive := config.cooldown_ok
  cases hc : config.cooldown with
  | fin c =>
    rw [hc] at hover hcooldown
    have hnow : tripped + c ≤ now := by
      simpa [Rounding.add, Rounding.exact, PyFloat.lt] using hover
    exact PyFloat.le_fin_mono hcooldown (by linarith)
  | inf =>
    rw [hc] at hover
    cases hover
  | negInf =>
    rw [hc] at hpositive
    cases hpositive
  | nan =>
    rw [hc] at hcooldown
    cases hw : config.window <;> rw [hw] at hcooldown <;> cases hcooldown

/-- Where nothing is rounded and a cooldown lasts at least a window, a call forgets only wakes that
are a window old. -/
theorem forgetsOld_of_unrounded {interval : ℕ} {call : Call} (hexact : b.config.Unrounded call.now)
    (hcooldown : b.config.window.le b.config.cooldown = true) (hordered : b.Ordered call.now)
    (hcooling : b.Cooling) : b.ForgetsOld interval call := by
  have hsame : ∀ t, aged b.config.rounding b.config.window call.now t =
      aged .exact b.config.window call.now t := by
    intro t
    rw [aged, hexact.1]
    rfl
  intro k t ht hforgets
  cases hforgets with
  | swept w hdue hw hstale =>
    obtain ⟨ts, _ | until_⟩ := w
    · rw [counts, hw] at ht
      have hnone : recent b.config.rounding b.config.window call.now ts = [] :=
        Standing.counting.inj (standing_of_not_kept (hordered k _ hw).1 hstale)
      rw [← hsame]
      exact recent_eq_nil.mp hnone t ht
    · cases hstale
  | reset hheals =>
    obtain ⟨hopen, until_, hs⟩ := hheals.over
    unfold Standings.refuses at hopen
    rw [hs] at hopen
    unfold standing at hs
    rcases hw : b.windows.get k with _ | ⟨ts, _ | until'⟩
    · rw [hw] at hs
      cases hs
    · rw [hw] at hs
      cases hs
    · rw [hw] at hs
      cases hs
      obtain ⟨tripped, rfl, hpast⟩ := hcooling k ts _ hw
      rw [counts, hw] at ht
      exact aged_of_over hcooldown (hpast t (List.mem_of_mem_dropLast ht)) hopen
  | pruned hopen hrecords haged =>
    rwa [← hsame]

/-- **Where nothing is rounded** and a cooldown lasts at least a window, the calls of a run do. -/
theorem runForgetsOld_of_unrounded {interval : ℕ} : ∀ (calls : List Call) {b : WakeRateBreaker}
    {clock : ℚ}, (∀ call ∈ calls, b.config.Unrounded call.now) →
    b.config.window.le b.config.cooldown = true → b.Ordered clock → b.Cooling →
    (∀ call ∈ calls, clock ≤ call.now) → Nondecreasing calls → b.RunForgetsOld interval calls
  | [], _, _, _, _, _, _, _, _ => trivial
  | call :: calls, b, clock, hexact, hcooldown, hordered, hcooling, hclock, hcalls => by
    obtain ⟨hnow, -⟩ := List.forall_mem_cons.mp hclock
    obtain ⟨hlater, hrest⟩ := List.pairwise_cons.mp hcalls
    obtain ⟨hunrounded, hexact'⟩ := List.forall_mem_cons.mp hexact
    obtain ⟨-, hordered', hconfig⟩ :=
      admitEvery_standing hordered hnow interval call.agentKey call.streamKey
    refine ⟨forgetsOld_of_unrounded hunrounded hcooldown (hordered.later hnow) hcooling, ?_⟩
    have hcooling' :
        (b.admitEvery interval call.agentKey call.streamKey call.now).2.Cooling := by
      intro k ts until_ hw
      rw [hconfig]
      rcases windows_admitEvery (hordered.later hnow) hw with hbefore | hnone | htripped
      · exact hcooling k ts until_ hbefore
      · cases hnone
      · refine ⟨call.now, ?_, (hordered' k _ hw).2⟩
        rw [← hunrounded.2]
        exact Option.some.inj htripped
    rw [← hconfig] at hexact' hcooldown
    exact runForgetsOld_of_unrounded calls hexact' hcooldown hordered' hcooling' hlater hrest

end WakeRateBreaker

/-! ## 5. A run -/

/-- When the wakes of a run were admitted that count for a scope. -/
def admittedOn (config : BreakerConfig) (k : ScopeKey) :
    List (Call × BreakerOutcome) → List ℚ
  | [] => []
  | step :: trace =>
    if step.2.admitted ∧ ∃ scope ∈ step.1.scopes config, scope.window = k then
      step.1.now :: admittedOn config k trace
    else
      admittedOn config k trace

/-- Over a run the wakes admitted on a scope, with those before it, keep the scope's bound. -/
theorem run_kept {interval : ℕ} : ∀ (calls : List Call) {b : WakeRateBreaker} {clock : ℚ}
    {wakes : ScopeKey → List ℚ}, b.Ordered clock → b.AllKept b.config clock wakes →
      b.RunForgetsOld interval calls → (∀ call ∈ calls, clock ≤ call.now) → Nondecreasing calls →
        ∀ k t, ((wakes k ++ admittedOn b.config k (b.run interval calls)).filter
          (within b.config.window t)).length ≤ b.config.limit k
  | [], b, clock, wakes, _, h, _, _, _, k, t => by
    have hbound := (h k).bound t
    simpa [WakeRateBreaker.run, admittedOn] using hbound
  | call :: calls, b, clock, wakes, hordered, h, hold, hclock, hcalls, k, t => by
    obtain ⟨hnow, -⟩ := List.forall_mem_cons.mp hclock
    obtain ⟨hlater, hrest⟩ := List.pairwise_cons.mp hcalls
    have hstep := WakeRateBreaker.admitEvery_kept hordered hnow hold.1 h
    obtain ⟨-, hordered', hconfig⟩ := WakeRateBreaker.admitEvery_standing hordered hnow interval
      call.agentKey call.streamKey
    rw [WakeRateBreaker.run_cons, admittedOn]
    rw [← hconfig] at hstep
    split at hstep
    · next hadmitted =>
      have hrun := run_kept calls hordered' hstep hold.2 hlater hrest k t
      rw [hconfig] at hrun
      by_cases hk : ∃ scope ∈ call.scopes b.config, scope.window = k
      · rw [WakeRateBreaker.withWake, if_pos hk] at hrun
        rw [if_pos ⟨hadmitted, hk⟩]
        simpa using hrun
      · rw [WakeRateBreaker.withWake, if_neg hk] at hrun
        rw [if_neg fun hboth => hk hboth.2]
        exact hrun
    · next hrefused =>
      rw [if_neg fun hboth => hrefused hboth.1]
      have hrun := run_kept calls hordered' hstep hold.2 hlater hrest k t
      rwa [hconfig] at hrun

/-- A selection of steps that count for a scope is bounded by what was admitted on it. -/
theorem filter_le_admittedOn {config : BreakerConfig} {k : ScopeKey} {t : ℚ}
    {p : Call → Bool}
    (hp : ∀ call, p call = true → ∃ scope ∈ call.scopes config, scope.window = k) :
    ∀ trace : List (Call × BreakerOutcome),
      (trace.filter fun step => step.2.admitted && p step.1 &&
        within config.window t step.1.now).length ≤
      ((admittedOn config k trace).filter (within config.window t)).length
  | [] => le_rfl
  | step :: trace => by
    have hrest := filter_le_admittedOn (t := t) hp trace
    rw [List.filter_cons, admittedOn]
    split
    · next hstep =>
      simp only [Bool.and_eq_true] at hstep
      rw [if_pos ⟨hstep.1.1, hp _ hstep.1.2⟩, List.filter_cons_of_pos hstep.2]
      simpa using hrest
    · split
      · rw [List.filter_cons]
        split
        · exact hrest.trans (Nat.le_succ _)
        · exact hrest
      · exact hrest

/-- **The rolling-window bound.**  Along a run in which each call forgets only wakes that are a
window old, no stretch `(t - window, t]` holds more admitted wakes of an agent than its threshold,
nor of one of its streams than the streams' where they are limited, whatever the interval of the
sweep. -/
theorem admitted_bounded (config : BreakerConfig) (interval : ℕ) (calls : List Call)
    (h : Nondecreasing calls) (hold : (WakeRateBreaker.new config).RunForgetsOld interval calls)
    (agent : String) (t : ℚ) :
    (((WakeRateBreaker.new config).run interval calls).filter fun step =>
        step.2.admitted && decide (step.1.agentKey = agent) &&
          within config.window t step.1.now).length ≤ config.maxWakes ∧
    (0 < config.streamMaxWakes → ∀ stream : String,
      (((WakeRateBreaker.new config).run interval calls).filter fun step =>
        step.2.admitted &&
          (decide (step.1.agentKey = agent) && decide (step.1.streamKey = some stream)) &&
            within config.window t step.1.now).length ≤ config.streamMaxWakes) := by
  have hbound : ∀ k, ((admittedOn config k ((WakeRateBreaker.new config).run interval calls)).filter
      (within config.window t)).length ≤ config.limit k := by
    intro k
    cases calls with
    | nil => exact Nat.zero_le _
    | cons call calls =>
      have hclock : ∀ call' ∈ call :: calls, call.now ≤ call'.now :=
        List.forall_mem_cons.mpr ⟨le_rfl, (List.pairwise_cons.mp h).1⟩
      have hfresh : (WakeRateBreaker.new config).AllKept config call.now fun _ => [] :=
        fun _ => kept_fresh
      exact run_kept _ (WakeRateBreaker.new_ordered config call.now) hfresh hold hclock h k t
  constructor
  · refine (filter_le_admittedOn (p := fun call => decide (call.agentKey = agent)) ?_ _).trans
      (hbound (.agent agent))
    intro call hcall
    rw [decide_eq_true_eq] at hcall
    exact ⟨_, List.mem_cons_self, congrArg ScopeKey.agent hcall⟩
  · intro hstreams stream
    refine (filter_le_admittedOn (p := fun call => decide (call.agentKey = agent) &&
      decide (call.streamKey = some stream)) ?_ _).trans (hbound (.stream agent stream))
    intro call hcall
    rw [Bool.and_eq_true, decide_eq_true_eq, decide_eq_true_eq] at hcall
    obtain ⟨hagent, hstream⟩ := hcall
    exact ⟨_, mem_scopes.mpr (.inr ⟨stream, hstream, hstreams, rfl⟩),
      congrArg (ScopeKey.stream · stream) hagent⟩

/-- The default thresholds under the arithmetic of doubles. -/
def binary64Config : BreakerConfig := { BreakerConfig.default with rounding := .binary64 }

/-- Max's calls: twenty-one at the double next to 2097151.3, and one at the double next to
2097211.3, which is where the cooldown of the last of these ends. -/
def roundedCooldown : List Call :=
  List.replicate 21 ⟨"max", none, 9007196248263885 / 4294967296⟩ ++
    [⟨"max", none, 2251863486575411 / 1073741824⟩]

/-- **The bound fails in doubles.**  The sum of the trip's instant and the cooldown is rounded down,
and so 21 wakes are admitted within less than the window's 60 seconds. -/
theorem not_bounded_max :
    binary64Config.window.le binary64Config.cooldown = true ∧ Nondecreasing roundedCooldown ∧
      binary64Config.maxWakes <
        (((WakeRateBreaker.new binary64Config).run gcInterval roundedCooldown).filter fun step =>
          step.2.admitted && decide (step.1.agentKey = "max") &&
            within binary64Config.window (2251863486575411 / 1073741824) step.1.now).length :=
  ⟨by decide +kernel, by decide +kernel, by decide +kernel⟩

/-- Max's calls on one timeline, and one more off it a minute later: in whole seconds nothing is
rounded. -/
theorem admitted_bounded_max :
    (((WakeRateBreaker.new binary64Config).run gcInterval
        (List.replicate 21 ⟨"max", some "t1", 2097151⟩ ++ [⟨"max", none, 2097211⟩])).filter
      fun step => step.2.admitted && decide (step.1.agentKey = "max") &&
        within binary64Config.window 2097211 step.1.now).length ≤ 20 :=
  (admitted_bounded binary64Config gcInterval _ (by decide +kernel)
    (WakeRateBreaker.runForgetsOld_of_unrounded _ (by decide +kernel) (by decide +kernel)
      (WakeRateBreaker.new_ordered _ 2097151) nofun (by decide +kernel) (by decide +kernel))
    "max" 2097211).1

end BasecradleRouter.Breaker
