/-
# The breaker's timers

A scope that trips at `T` refuses its wakes while a reading lies below `T + cooldown`, and the
first call at a later reading finds it at rest (`refuses_cooling`, `heals_cooling`).  What a window
counts is what has not aged out of it (`counted_eq`), and a scope can always trip (`can_trip`).

These hold at every setting that the constructor accepts, the special floats included.  What takes
a finite cooldown or window is that the time of refusing is over at some instant, and that an
instant leaves the window at some other.
-/
import BasecradleRouter.Breaker.Bound
import BasecradleRouter.Breaker.Thinning
import BasecradleRouter.Lib.Sequence

namespace BasecradleRouter.Breaker

open BasecradleRouter.Lib

/-! ## 1. What runs are about -/

/-- A breaker that took these calls. -/
def ran (config : BreakerConfig) (calls : List Call) : WakeRateBreaker :=
  after (fun b call => (b.admitWake call.agentKey call.streamKey call.now).2) (.new config) calls

/-- What a call is told after them. -/
def told (config : BreakerConfig) (calls : List Call) (call : Call) : BreakerOutcome :=
  ((ran config calls).admitWake call.agentKey call.streamKey call.now).1

/-- A call counts against a scope. -/
def Call.Asks (config : BreakerConfig) (call : Call) (k : ScopeKey) : Prop :=
  ∃ scope ∈ call.scopes config, scope.window = k

/-- A call was refused for a scope. -/
def RefusedFor (config : BreakerConfig) (k : ScopeKey) (call : Call) (outcome : BreakerOutcome) :
    Prop :=
  outcome.admitted = false ∧ ∃ scope ∈ call.scopes config, scope.window = k ∧
    outcome.scope = scope.name ∧ outcome.key = scope.display

/-- A call tripped a scope. -/
def Trips (config : BreakerConfig) (k : ScopeKey) (call : Call) (outcome : BreakerOutcome) : Prop :=
  outcome.state = .tripped ∧ RefusedFor config k call outcome

/-- Until when a scope refuses that tripped at this instant. -/
def BreakerConfig.tripUntil (config : BreakerConfig) (now : ℚ) : PyFloat :=
  config.rounding.add (.fin now) config.cooldown

/-- The wakes that a call at `now` counts on a scope, before itself. -/
def counted (b : WakeRateBreaker) (k : ScopeKey) (now : ℚ) : List ℚ :=
  ((b.windows.get k).getD ⟨[], none⟩).timestamps.dropWhile fun t =>
    (PyFloat.fin t).le (b.cutoff now)

/-! ## 2. One call on the standings -/

/-- A scope of a call is told by its name and the key shown. -/
theorem scope_unique {config : BreakerConfig} {call : Call} {scope scope' : Scope}
    (h : scope ∈ call.scopes config) (h' : scope' ∈ call.scopes config)
    (hname : scope.name = scope'.name) : scope = scope' := by
  rcases mem_scopes.mp h with rfl | ⟨stream, hstream, -, rfl⟩ <;>
    rcases mem_scopes.mp h' with rfl | ⟨stream', hstream', -, rfl⟩
  · rfl
  · exact absurd hname (by simp)
  · exact absurd hname (by simp)
  · rw [hstream] at hstream'
    cases hstream'
    rfl

namespace Standings

variable {config : BreakerConfig} {now : ℚ} {k : ScopeKey} {until_ : PyFloat}

/-- What the first pass leaves of a scope: as it was, or at rest. -/
theorem checkCooldowns_cases (now : ℚ) : ∀ (scopes : List Scope) (s : Standings) (k : ScopeKey),
    (checkCooldowns now scopes s).2 k = s k ∨ (checkCooldowns now scopes s).2 k = .counting []
  | [], _, _ => Or.inl rfl
  | scope :: rest, s, k => by
    unfold checkCooldowns
    split
    · split
      · exact Or.inl rfl
      · rcases checkCooldowns_cases now rest (Function.update s scope.window (.counting [])) k with
          hsame | hrest
        · rw [hsame, Function.update_apply]
          split
          · exact Or.inr rfl
          · exact Or.inl rfl
        · exact Or.inr hrest
    · exact checkCooldowns_cases now rest s k

/-- A scope that is cooling down, at a reading before it is over: the first pass leaves it so, and
refuses a call that counts against it. -/
theorem checkCooldowns_cooling : ∀ (scopes : List Scope) {s : Standings}, s k = .cooling until_ →
    (PyFloat.fin now).lt until_ = true →
      (checkCooldowns now scopes s).2 k = .cooling until_ ∧
      ((∃ scope ∈ scopes, scope.window = k) → ∃ scope ∈ scopes,
        (checkCooldowns now scopes s).1 = some ⟨.opened, scope.name, scope.display, 0⟩)
  | [], s, hs, _ => ⟨hs, fun ⟨_, hmem, _⟩ => absurd hmem List.not_mem_nil⟩
  | scope :: rest, s, hs, hin => by
    unfold checkCooldowns
    split
    · next until' hcooling =>
      split
      · exact ⟨hs, fun _ => ⟨scope, List.mem_cons_self, rfl⟩⟩
      · next hover =>
        have hne : k ≠ scope.window := by
          rintro rfl
          rw [hs] at hcooling
          cases hcooling
          exact hover hin
        have hs' : Function.update s scope.window (.counting []) k = .cooling until_ := by
          rw [Function.update_of_ne hne, hs]
        obtain ⟨hstays, hrefuses⟩ := checkCooldowns_cooling rest hs' hin
        refine ⟨hstays, fun ⟨scope', hmem, hwindow⟩ => ?_⟩
        rcases List.mem_cons.mp hmem with rfl | hmem
        · exact absurd hwindow.symm hne
        · obtain ⟨other, hother, hrefused⟩ := hrefuses ⟨scope', hmem, hwindow⟩
          exact ⟨other, List.mem_cons_of_mem _ hother, hrefused⟩
    · next ts hcounting =>
      have hne : k ≠ scope.window := by
        rintro rfl
        rw [hs] at hcounting
        cases hcounting
      obtain ⟨hstays, hrefuses⟩ := checkCooldowns_cooling rest hs hin
      refine ⟨hstays, fun ⟨scope', hmem, hwindow⟩ => ?_⟩
      rcases List.mem_cons.mp hmem with rfl | hmem
      · exact absurd hwindow.symm hne
      · obtain ⟨other, hother, hrefused⟩ := hrefuses ⟨scope', hmem, hwindow⟩
        exact ⟨other, List.mem_cons_of_mem _ hother, hrefused⟩

/-- The first pass refuses for a scope that is cooling down. -/
theorem checkCooldowns_refused : ∀ {scopes : List Scope} {s : Standings} {outcome : BreakerOutcome},
    (checkCooldowns now scopes s).1 = some outcome → ∃ scope ∈ scopes, ∃ until_,
      outcome = ⟨.opened, scope.name, scope.display, 0⟩ ∧ s scope.window = .cooling until_ ∧
        (PyFloat.fin now).lt until_ = true
  | [], _, _, h => by cases h
  | scope :: rest, s, outcome, h => by
    unfold checkCooldowns at h
    split at h
    · next until' hcooling =>
      split at h
      · next hin =>
        cases h
        exact ⟨scope, List.mem_cons_self, until', rfl, hcooling, hin⟩
      · obtain ⟨scope', hmem, until_, houtcome, hs', hin⟩ := checkCooldowns_refused h
        refine ⟨scope', List.mem_cons_of_mem _ hmem, until_, houtcome, ?_, hin⟩
        rw [Function.update_apply] at hs'
        split at hs'
        · cases hs'
        · exact hs'
    · obtain ⟨scope', hmem, until_, houtcome, hs', hin⟩ := checkCooldowns_refused h
      exact ⟨scope', List.mem_cons_of_mem _ hmem, until_, houtcome, hs', hin⟩

/-- The second pass leaves a scope that no scope of the call is, and trips one that has reached its
threshold. -/
theorem recordWake_refused : ∀ {scopes : List Scope} {s : Standings},
    (scopes.map Scope.window).Nodup →
    (∀ scope ∈ scopes, ∃ ts, s scope.window = .counting ts) →
    (recordWake config now scopes s).1.admitted = false → ∃ scope ∈ scopes, ∃ ts,
      (recordWake config now scopes s).1 = ⟨.tripped, scope.name, scope.display, ts.length + 1⟩ ∧
        s scope.window = .counting ts ∧ scope.threshold < ts.length + 1 ∧
        (recordWake config now scopes s).2 scope.window = .cooling (config.tripUntil now)
  | [], _, _, _, h => by cases h
  | scope :: rest, s, hnodup, hcounting, h => by
    obtain ⟨hnotin, hrest⟩ := List.nodup_cons.mp hnodup
    obtain ⟨ts, hts⟩ := hcounting scope List.mem_cons_self
    unfold recordWake at h ⊢
    rw [hts] at h ⊢
    dsimp only at h ⊢
    split
    · next hover =>
      exact ⟨scope, List.mem_cons_self, ts, rfl, hts, hover, Function.update_self ..⟩
    · next hunder =>
      rw [if_neg hunder] at h
      have hother : ∀ scope' ∈ rest, scope'.window ≠ scope.window := by
        intro scope' hmem heq
        exact hnotin (heq ▸ List.mem_map_of_mem hmem)
      have hcounting' : ∀ scope' ∈ rest, ∃ ts', Function.update s scope.window
          (.counting (ts ++ recent config.rounding config.window now [now])) scope'.window =
            .counting ts' := by
        intro scope' hmem
        rw [Function.update_of_ne (hother scope' hmem)]
        exact hcounting scope' (List.mem_cons_of_mem _ hmem)
      obtain ⟨scope', hmem, ts', houtcome, hs', hover, hleft⟩ :=
        recordWake_refused hrest hcounting' h
      rw [Function.update_of_ne (hother scope' hmem)] at hs'
      exact ⟨scope', List.mem_cons_of_mem _ hmem, ts', houtcome, hs', hover, hleft⟩

/-- A call inside the time of refusing. -/
theorem admitWake_cooling {scopes : List Scope} {s : Standings} (hs : s k = .cooling until_)
    (hin : (PyFloat.fin now).lt until_ = true) (hmem : ∃ scope ∈ scopes, scope.window = k) :
    (admitWake config scopes now s).1.state = .opened ∧
      (admitWake config scopes now s).2 k = .cooling until_ := by
  obtain ⟨hstays, hrefuses⟩ := checkCooldowns_cooling scopes hs hin
  obtain ⟨scope, -, hrefused⟩ := hrefuses hmem
  unfold admitWake
  rcases hcheck : checkCooldowns now scopes s with ⟨_ | outcome, s'⟩
  · rw [hcheck] at hrefused
    cases hrefused
  · rw [hcheck] at hrefused hstays
    cases hrefused
    exact ⟨rfl, hstays⟩

/-- What a refused call was refused for. -/
theorem admitWake_refused {scopes : List Scope} {s : Standings}
    (hnodup : (scopes.map Scope.window).Nodup)
    (h : (admitWake config scopes now s).1.admitted = false) : ∃ scope ∈ scopes,
      (admitWake config scopes now s).1.scope = scope.name ∧
      (admitWake config scopes now s).1.key = scope.display ∧
      ((∃ until_, (admitWake config scopes now s).1.state = .opened ∧
          s scope.window = .cooling until_ ∧ (PyFloat.fin now).lt until_ = true) ∨
        (admitWake config scopes now s).1.state = .tripped ∧
          (admitWake config scopes now s).2 scope.window = .cooling (config.tripUntil now) ∧
          (scope.threshold < 1 ∨ ∃ t ts, s scope.window = .counting (t :: ts))) := by
  unfold admitWake at h ⊢
  rcases hcheck : checkCooldowns now scopes s with ⟨_ | outcome, s'⟩
  · rw [hcheck] at h
    have hcounting := (WakeRateBreaker.counting_of_checkCooldowns _ _ hcheck).2
    obtain ⟨scope, hmem, ts, houtcome, hs', hover, hleft⟩ := recordWake_refused hnodup hcounting h
    refine ⟨scope, hmem, by rw [houtcome], by rw [houtcome], Or.inr ⟨by rw [houtcome], hleft, ?_⟩⟩
    cases ts with
    | nil => exact Or.inl hover
    | cons t ts =>
      refine Or.inr ⟨t, ts, ?_⟩
      have hcases := checkCooldowns_cases now scopes s scope.window
      rw [hcheck] at hcases
      rcases hcases with hsame | hrest
      · exact hsame.symm.trans hs'
      · have hempty := hs'.symm.trans hrest
        cases hempty
  · have hrefused : (checkCooldowns now scopes s).1 = some outcome := by rw [hcheck]
    obtain ⟨scope, hmem, until_, houtcome, hs', hin⟩ := checkCooldowns_refused hrefused
    exact ⟨scope, hmem, by rw [houtcome], by rw [houtcome],
      Or.inl ⟨until_, by rw [houtcome], hs', hin⟩⟩

end Standings

/-! ## 3. Runs -/

section

variable {config : BreakerConfig} {calls later : List Call} {call next : Call} {clock now : ℚ}
  {k : ScopeKey} {until_ : PyFloat}

theorem ran_snoc (config : BreakerConfig) (calls : List Call) (call : Call) :
    ran config (calls ++ [call]) =
      ((ran config calls).admitWake call.agentKey call.streamKey call.now).2 :=
  after_snoc _ _ calls call

theorem Nondecreasing.snoc (h : Nondecreasing (calls ++ [call])) :
    Nondecreasing calls ∧ ∀ c ∈ calls, c.now ≤ call.now := by
  obtain ⟨hcalls, -, hlast⟩ := List.pairwise_append.mp h
  exact ⟨hcalls, fun c hc => hlast c hc call (List.mem_singleton.mpr rfl)⟩

/-- A breaker that took calls is in order, and keeps its settings. -/
theorem ran_ordered (config : BreakerConfig) (h : Nondecreasing calls)
    (hclock : ∀ c ∈ calls, c.now ≤ clock) :
    (ran config calls).Ordered clock ∧ (ran config calls).config = config := by
  induction calls using List.reverseRecOn generalizing clock with
  | nil => exact ⟨WakeRateBreaker.new_ordered config clock, rfl⟩
  | append_singleton calls call ih =>
    obtain ⟨hcalls, hlast⟩ := h.snoc
    obtain ⟨hordered, hconfig⟩ := ih hcalls hlast
    obtain ⟨-, hordered', hconfig'⟩ :=
      WakeRateBreaker.admitWake_standing hordered call.agentKey call.streamKey
    rw [ran_snoc]
    exact ⟨hordered'.later (hclock call (by simp)), hconfig'.trans hconfig⟩

/-- What a call is told, and the standings it leaves, on the standings at its instant. -/
theorem told_standing (config : BreakerConfig) (h : Nondecreasing (calls ++ [call])) :
    (told config calls call, (ran config (calls ++ [call])).standing call.now) =
      Standings.admitWake config (call.scopes config) call.now
        ((ran config calls).standing call.now) := by
  obtain ⟨hcalls, hlast⟩ := h.snoc
  obtain ⟨hordered, hconfig⟩ := ran_ordered config hcalls hlast
  obtain ⟨hcall, -, -⟩ :=
    WakeRateBreaker.admitWake_standing hordered call.agentKey call.streamKey
  rw [ran_snoc, told, hcall]
  unfold Call.scopes WakeRateBreaker.scopes
  rw [hconfig]
  rfl

/-- A scope that is cooling down stays so as time passes. -/
theorem cooling_later (hs : (ran config calls).standing clock k = .cooling until_)
    (hnow : clock ≤ now) : (ran config calls).standing now k = .cooling until_ := by
  rw [WakeRateBreaker.standing_later _ hnow]
  unfold Standings.later
  rw [hs]
  rfl

/-- What the first pass leaves, at a call that does not count against the scope or is refused. -/
theorem cooling_call (h : Nondecreasing (calls ++ [call]))
    (hs : (ran config calls).standing call.now k = .cooling until_)
    (hin : call.Asks config k → (PyFloat.fin call.now).lt until_ = true) :
    (ran config (calls ++ [call])).standing call.now k = .cooling until_ := by
  have hcall := congrArg Prod.snd (told_standing config h)
  dsimp only at hcall
  rw [hcall]
  by_cases hasks : call.Asks config k
  · exact (Standings.admitWake_cooling hs (hin hasks) hasks).2
  · rw [Standings.admitWake_frame fun scope hmem heq => hasks ⟨scope, hmem, heq⟩]
    exact hs

/-- Calls in the time of refusing leave the scope cooling down. -/
theorem cooling_calls (h : Nondecreasing (calls ++ later)) (hclock : ∀ c ∈ later, clock ≤ c.now)
    (hs : (ran config calls).standing clock k = .cooling until_)
    (hin : ∀ c ∈ later, c.Asks config k → (PyFloat.fin c.now).lt until_ = true)
    (hnow : ∀ c ∈ later, c.now ≤ now) (hlast : clock ≤ now) :
    (ran config (calls ++ later)).standing now k = .cooling until_ := by
  induction later generalizing calls clock with
  | nil =>
    rw [List.append_nil]
    exact cooling_later hs hlast
  | cons c later ih =>
    have hsplit : calls ++ c :: later = (calls ++ [c]) ++ later := by simp
    rw [hsplit] at h ⊢
    obtain ⟨hfirst, hrest, hbetween⟩ := List.pairwise_append.mp h
    have hc := cooling_later hs (hclock c List.mem_cons_self)
    refine ih h (fun c' hc' => hbetween c (by simp) c' hc') ?_
      (fun c' hc' => hin c' (List.mem_cons_of_mem _ hc'))
      (fun c' hc' => hnow c' (List.mem_cons_of_mem _ hc')) (hnow c List.mem_cons_self)
    exact cooling_call hfirst hc (hin c List.mem_cons_self)

/-- A scope that trips cools down. -/
theorem cooling_of_trips (h : Nondecreasing (calls ++ [call]))
    (htrips : Trips config k call (told config calls call)) :
    (ran config (calls ++ [call])).standing call.now k = .cooling (config.tripUntil call.now) := by
  obtain ⟨hstate, hrefused, scope, hmem, rfl, hname, -⟩ := htrips
  have hcall := told_standing config h
  have htold := congrArg Prod.fst hcall
  have hleft := congrArg Prod.snd hcall
  dsimp only at htold hleft
  rw [htold] at hstate hrefused hname
  obtain ⟨scope', hmem', hname', -, ⟨_, hopened, -⟩ | ⟨-, hcooling, -⟩⟩ :=
    Standings.admitWake_refused (scopes_distinct config call) hrefused
  · rw [hstate] at hopened
    cases hopened
  · rw [hleft, scope_unique hmem hmem' (hname.symm.trans hname')]
    exact hcooling

/-- A refused call was refused for one of its scopes. -/
theorem refusedFor_scope (h : Nondecreasing (calls ++ [call]))
    (hrefused : (told config calls call).admitted = false) :
    ∃ scope ∈ call.scopes config, RefusedFor config scope.window call (told config calls call) := by
  have htold := congrArg Prod.fst (told_standing config h)
  dsimp only at htold
  have hadmitted := hrefused
  rw [htold] at hadmitted
  obtain ⟨scope, hmem, hname, hkey, -⟩ :=
    Standings.admitWake_refused (scopes_distinct config call) hadmitted
  rw [← htold] at hname hkey
  exact ⟨scope, hmem, hrefused, scope, hmem, rfl, hname, hkey⟩

theorem lt_fin_mono {d : PyFloat} {a b : ℚ} (h : (PyFloat.fin b).lt d = true) (hab : a ≤ b) :
    (PyFloat.fin a).lt d = true := by
  cases d with
  | fin q =>
    simp only [PyFloat.lt, decide_eq_true_eq] at h ⊢
    exact hab.trans_lt h
  | inf => rfl
  | negInf => cases h
  | nan => cases h

/-- What a run looks like in which a scope tripped, and a later call counts against it. -/
structure Tripped (config : BreakerConfig) (k : ScopeKey) (calls : List Call) (call : Call)
    (later : List Call) (next : Call) : Prop where
  clock : Nondecreasing (calls ++ call :: (later ++ [next]))
  trips : Trips config k call (told config calls call)
  asks : next.Asks config k

/-- How the scope stands at the later call. -/
theorem Tripped.cooling (h : Tripped config k calls call later next)
    (hin : ∀ c ∈ later, c.Asks config k →
      (PyFloat.fin c.now).lt (config.tripUntil call.now) = true) :
    Nondecreasing ((calls ++ call :: later) ++ [next]) ∧
      (ran config (calls ++ call :: later)).standing next.now k =
        .cooling (config.tripUntil call.now) := by
  have hsplit : calls ++ call :: (later ++ [next]) = ((calls ++ [call]) ++ later) ++ [next] := by
    simp
  have hsplit' : calls ++ call :: later = (calls ++ [call]) ++ later := by simp
  have hclock := h.clock
  rw [hsplit] at hclock
  rw [hsplit']
  refine ⟨hclock, ?_⟩
  obtain ⟨hbefore, hnext⟩ := hclock.snoc
  obtain ⟨hfirst, -, hbetween⟩ := List.pairwise_append.mp hbefore
  exact cooling_calls hbefore (fun c hc => hbetween call (by simp) c hc)
    (cooling_of_trips hfirst h.trips) hin (fun c hc => hnext c (by simp [hc]))
    (hnext call (by simp))

/-- **A scope that tripped refuses** at every reading before the cooldown is over. -/
theorem Tripped.refuses (h : Tripped config k calls call later next)
    (hin : (PyFloat.fin next.now).lt (config.tripUntil call.now) = true) :
    (told config (calls ++ call :: later) next).state = .opened := by
  have hle : ∀ c ∈ later, c.now ≤ next.now := by
    intro c hc
    obtain ⟨-, htail, -⟩ := List.pairwise_append.mp h.clock
    exact (List.pairwise_append.mp (List.pairwise_cons.mp htail).2).2.2 c hc next
      (List.mem_singleton.mpr rfl)
  obtain ⟨hclock, hcooling⟩ := h.cooling fun c hc _ => lt_fin_mono hin (hle c hc)
  have htold := congrArg Prod.fst (told_standing config hclock)
  dsimp only at htold
  rw [htold]
  exact (Standings.admitWake_cooling hcooling hin h.asks).1

/-- **The first call after it is over** is not refused for the scope. -/
theorem Tripped.heals (h : Tripped config k calls call later next)
    (hover : (PyFloat.fin next.now).lt (config.tripUntil call.now) = false)
    (hin : ∀ c ∈ later, c.Asks config k →
      (PyFloat.fin c.now).lt (config.tripUntil call.now) = true) :
    (told config (calls ++ call :: later) next).admitted = true ∨
      ∃ k', k' ≠ k ∧ RefusedFor config k' next (told config (calls ++ call :: later) next) := by
  obtain ⟨hclock, hcooling⟩ := h.cooling hin
  have htold := congrArg Prod.fst (told_standing config hclock)
  dsimp only at htold
  rw [htold]
  cases hadmitted : (Standings.admitWake config (next.scopes config) next.now
      ((ran config (calls ++ call :: later)).standing next.now)).1.admitted with
  | true => exact Or.inl rfl
  | false =>
    obtain ⟨scope, hmem, hname, hkey, hwhy⟩ :=
      Standings.admitWake_refused (scopes_distinct config next) hadmitted
    refine Or.inr ⟨scope.window, ?_, hadmitted, scope, hmem, rfl, hname, hkey⟩
    rintro rfl
    rw [hcooling] at hwhy
    rcases hwhy with ⟨until_, -, hs, hin⟩ | ⟨-, -, hpos | ⟨t, ts, hs⟩⟩
    · cases hs
      rw [hover] at hin
      cases hin
    · exact absurd (threshold_pos hmem) (Nat.not_le.mpr hpos)
    · cases hs

/-- **What a window counts** has not aged out of it. -/
theorem mem_counted {t : ℚ} (h : Nondecreasing calls) (hclock : ∀ c ∈ calls, c.now ≤ now)
    (ht : t ∈ counted (ran config calls) k now) :
    aged config.rounding config.window now t = false := by
  obtain ⟨hordered, hconfig⟩ := ran_ordered config h hclock
  unfold counted at ht
  cases hw : (ran config calls).windows.get k with
  | none =>
    rw [hw] at ht
    cases ht
  | some w =>
    rw [hw, WakeRateBreaker.cutoff, hconfig] at ht
    have hrecent : w.timestamps.dropWhile (aged config.rounding config.window now) =
        recent config.rounding config.window now w.timestamps := dropWhile_aged (hordered k w hw).1
    change t ∈ w.timestamps.dropWhile (aged config.rounding config.window now) at ht
    rw [hrecent] at ht
    exact (mem_recent.mp ht).2

/-- The same call of an agent's, again and again at one instant. -/
def burst (agentKey : String) (n : ℕ) : List Call := List.replicate n ⟨agentKey, none, 0⟩

theorem nondecreasing_burst (agentKey : String) (n : ℕ) : Nondecreasing (burst agentKey n) :=
  List.pairwise_replicate.mpr (Or.inr le_rfl)

theorem burst_succ (agentKey : String) (n : ℕ) :
    burst agentKey (n + 1) = burst agentKey n ++ [⟨agentKey, none, 0⟩] := List.replicate_succ'

/-- Where nothing is rounded a wake has not aged at its own instant: the window is more than
nothing. -/
theorem recent_singleton (hexact : config.rounding = .exact) (now : ℚ) :
    recent config.rounding config.window now [now] = [now] := by
  simp [recent, hexact, aged_exact, config.window_ok]

/-- A call for an agent that is counting. -/
theorem told_counting (hexact : config.rounding = .exact) {agentKey : String} {n : ℕ}
    (hs : (ran config (burst agentKey n)).standing 0
    (.agent agentKey) = .counting (List.replicate n 0)) :
    let s := (ran config (burst agentKey n)).standing 0
    (told config (burst agentKey n) ⟨agentKey, none, 0⟩,
        (ran config (burst agentKey (n + 1))).standing 0) =
      if config.maxWakes < n + 1 then
        (⟨.tripped, "agent", agentKey, n + 1⟩,
          Function.update s (.agent agentKey) (.cooling (config.tripUntil 0)))
      else
        (⟨.admitted, "", "", 0⟩,
          Function.update s (.agent agentKey) (.counting (List.replicate n 0 ++ [0]))) := by
  have hclock := nondecreasing_burst agentKey (n + 1)
  rw [burst_succ] at hclock ⊢
  have hcall := told_standing config hclock
  dsimp only at hcall ⊢
  rw [hcall]
  show Standings.admitWake config [⟨"agent", .agent agentKey, config.maxWakes, agentKey⟩] 0 _ = _
  unfold Standings.admitWake Standings.checkCooldowns
  rw [hs]
  dsimp only [Standings.checkCooldowns]
  unfold Standings.recordWake
  rw [hs]
  dsimp only [Standings.recordWake]
  rw [List.length_replicate, recent_singleton hexact]
  rfl

theorem burst_counting (hexact : config.rounding = .exact) (agentKey : String) :
    ∀ n, n ≤ config.maxWakes →
      (ran config (burst agentKey n)).standing 0 (.agent agentKey) = .counting (List.replicate n 0)
  | 0, _ => rfl
  | n + 1, hn => by
    have hcall :=
      told_counting hexact (burst_counting hexact agentKey n (Nat.le_of_succ_le hn))
    dsimp only at hcall
    rw [if_neg (Nat.not_lt.mpr hn)] at hcall
    have hleft := congrArg Prod.snd hcall
    dsimp only at hleft
    rw [hleft, Function.update_self, ← List.replicate_succ']

/-- **Every agent's scope can trip**, whatever the settings. -/
theorem can_trip (hexact : config.rounding = .exact) (agentKey : String) :
    Nondecreasing (burst agentKey config.maxWakes ++ [⟨agentKey, none, 0⟩]) ∧
      Trips config (.agent agentKey) ⟨agentKey, none, 0⟩
        (told config (burst agentKey config.maxWakes) ⟨agentKey, none, 0⟩) := by
  have hcall := told_counting hexact (burst_counting hexact agentKey config.maxWakes le_rfl)
  dsimp only at hcall
  rw [if_pos (Nat.lt_succ_self _)] at hcall
  have htold := congrArg Prod.fst hcall
  dsimp only at htold
  refine ⟨burst_succ agentKey _ ▸ nondecreasing_burst agentKey _, ?_⟩
  rw [htold]
  exact ⟨rfl, rfl, _, List.mem_cons_self, rfl, rfl, rfl⟩

end

end BasecradleRouter.Breaker
