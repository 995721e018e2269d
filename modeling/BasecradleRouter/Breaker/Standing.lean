/-
# What a scope amounts to

A window's stored timestamps say more than the breaker ever acts on: what has aged is pruned
before it is counted, and a window with nothing else in it may be swept away.  A scope's
`Standing` at an instant is what remains: it is cooling down until some time, or it counts the
recent instants.

`admitWake` is a function of the standings alone (`admitEvery_standing`): it answers as
`Standings.admitWake` does, and leaves the standings that leaves.  The sweep is not visible there,
and so neither is its interval; `admitEvery` takes it as a parameter.
-/
import BasecradleRouter.Breaker
import BasecradleRouter.Lib.RollingWindow
import Mathlib.Logic.Function.Basic

namespace BasecradleRouter.Breaker

open BasecradleRouter.Lib

/-! ## 1. Standings -/

/-- What a scope amounts to at an instant. -/
inductive Standing
  | counting (recent : List ℚ)
  | cooling (until_ : PyFloat)
  deriving DecidableEq

/-- What it amounts to later. -/
def Standing.later (rounding : Rounding) (window : PyFloat) (now : ℚ) : Standing → Standing
  | .counting ts => .counting (recent rounding window now ts)
  | .cooling until_ => .cooling until_

/-- What a window amounts to, one that is not there included. -/
def Window.standing (rounding : Rounding) (window : PyFloat) (now : ℚ) : Option Window → Standing
  | none => .counting []
  | some ⟨ts, none⟩ => .counting (recent rounding window now ts)
  | some ⟨_, some until_⟩ => .cooling until_

/-- Every scope's standing. -/
abbrev Standings := ScopeKey → Standing

namespace Standings

/-- Every scope at rest. -/
def fresh : Standings := fun _ => .counting []

def later (rounding : Rounding) (window : PyFloat) (now : ℚ) (s : Standings) : Standings :=
  fun k => (s k).later rounding window now

/-- The first pass. -/
def checkCooldowns (now : ℚ) : List Scope → Standings → Option BreakerOutcome × Standings
  | [], s => (none, s)
  | scope :: rest, s =>
    match s scope.window with
    | .cooling until_ =>
      if (PyFloat.fin now).lt until_ then
        (some ⟨.opened, scope.name, scope.display, 0⟩, s)
      else
        checkCooldowns now rest (Function.update s scope.window (.counting []))
    | .counting _ => checkCooldowns now rest s

/-- The second pass; no scope is cooling down by then.  Where the window is lost in the rounding
even the wake just recorded has aged. -/
def recordWake (config : BreakerConfig) (now : ℚ) :
    List Scope → Standings → BreakerOutcome × Standings
  | [], s => (⟨.admitted, "", "", 0⟩, s)
  | scope :: rest, s =>
    match s scope.window with
    | .counting ts =>
      if scope.threshold < ts.length + 1 then
        (⟨.tripped, scope.name, scope.display, ts.length + 1⟩,
          Function.update s scope.window
            (.cooling (config.rounding.add (.fin now) config.cooldown)))
      else
        recordWake config now rest (Function.update s scope.window
          (.counting (ts ++ recent config.rounding config.window now [now])))
    | .cooling _ => recordWake config now rest s

/-- One call, on the standings at its instant. -/
def admitWake (config : BreakerConfig) (scopes : List Scope) (now : ℚ) (s : Standings) :
    BreakerOutcome × Standings :=
  match checkCooldowns now scopes s with
  | (some outcome, s) => (outcome, s)
  | (none, s) => recordWake config now scopes s

end Standings

namespace WakeRateBreaker

/-- A scope's standing at an instant. -/
def standing (b : WakeRateBreaker) (now : ℚ) : Standings :=
  fun k => Window.standing b.config.rounding b.config.window now (b.windows.get k)

/-! ## 2. The sweep, at any interval -/

/-- The sweep every `interval` calls. -/
def countEvery (interval : ℕ) (b : WakeRateBreaker) (now : ℚ) : WakeRateBreaker :=
  if interval ≤ b.admitsSinceGc + 1 then
    { b.gc now with admitsSinceGc := 0 }
  else
    { b with admitsSinceGc := b.admitsSinceGc + 1 }

/-- `admit`, with a sweep every `interval` calls. -/
def admitEvery (interval : ℕ) (b : WakeRateBreaker) (agentKey : String)
    (streamKey : Option String) (now : ℚ) : BreakerOutcome × WakeRateBreaker :=
  let scopes := b.scopes agentKey streamKey
  match checkCooldowns now scopes (b.countEvery interval now) with
  | (some outcome, b) => (outcome, b)
  | (none, b) => recordWake now scopes b

/-! ## 3. Timestamps stand in order -/

/-- What the windows hold is in order, and none of it lies ahead of the clock. -/
def Ordered (clock : ℚ) (b : WakeRateBreaker) : Prop :=
  ∀ k w, b.windows.get k = some w →
    w.timestamps.Pairwise (· ≤ ·) ∧ ∀ t ∈ w.timestamps, t ≤ clock

variable {b : WakeRateBreaker} {clock now : ℚ}

theorem new_ordered (config : BreakerConfig) (clock : ℚ) : (new config).Ordered clock := by
  intro k w h
  cases h

theorem Ordered.later (h : b.Ordered clock) (hnow : clock ≤ now) : b.Ordered now :=
  fun k w hw => ⟨(h k w hw).1, fun t ht => ((h k w hw).2 t ht).trans hnow⟩

/-- A window put in order leaves the windows in order. -/
theorem Ordered.set (h : b.Ordered clock) {k : ScopeKey} {w : Window}
    (hw : w.timestamps.Pairwise (· ≤ ·)) (hclock : ∀ t ∈ w.timestamps, t ≤ clock) :
    Ordered clock { b with windows := b.windows.set k w } := by
  intro k' w' hw'
  change (b.windows.set k w).get k' = some w' at hw'
  rw [Dict.get_set] at hw'
  split at hw'
  · cases hw'
    exact ⟨hw, hclock⟩
  · exact h k' w' hw'

theorem Ordered.gc (h : b.Ordered clock) : (b.gc now).Ordered clock := by
  intro k w hw
  change (b.windows.retain _).get k = some w at hw
  rw [Dict.get_retain] at hw
  exact h k w (Option.filter_eq_some_iff.mp hw).1

theorem Ordered.countEvery (h : b.Ordered clock) (interval : ℕ) :
    (b.countEvery interval now).Ordered clock := by
  unfold WakeRateBreaker.countEvery
  split
  · exact h.gc
  · exact h

/-- What is left of a window in order, with the reading after it, is in order. -/
theorem pruned_ordered (rounding : Rounding) (window : PyFloat) {ts : List ℚ}
    (hts : ts.Pairwise (· ≤ ·)) (hnow : ∀ t ∈ ts, t ≤ now) :
    (recent rounding window now ts ++ [now]).Pairwise (· ≤ ·) ∧
      ∀ t ∈ recent rounding window now ts ++ [now], t ≤ now := by
  have hpast : ∀ t ∈ recent rounding window now ts, t ≤ now :=
    fun t ht => hnow t (mem_recent.mp ht).1
  constructor
  · refine List.pairwise_append.mpr
      ⟨hts.sublist (recent_sublist ts), List.pairwise_singleton _ _, ?_⟩
    intro t ht t' ht'
    rw [List.mem_singleton.mp ht']
    exact hpast t ht
  · intro t ht
    rcases List.mem_append.mp ht with hmem | hmem
    · exact hpast t hmem
    · rw [List.mem_singleton.mp hmem]

/-! ## 4. The standings tell all -/

@[simp] theorem new_standing (config : BreakerConfig) (now : ℚ) :
    (new config).standing now = Standings.fresh := rfl

/-- A breaker at rest stands later as it stood, aged. -/
theorem standing_later (b : WakeRateBreaker) (hnow : clock ≤ now) :
    b.standing now = (b.standing clock).later b.config.rounding b.config.window now := by
  funext k
  simp only [standing, Standings.later]
  rcases b.windows.get k with _ | ⟨ts, _ | until_⟩
  · rfl
  · simp only [Window.standing, Standing.later, recent_recent hnow]
  · rfl

theorem standing_set (b : WakeRateBreaker) (k : ScopeKey) (w : Window) :
    standing { b with windows := b.windows.set k w } now =
      Function.update (b.standing now) k
        (Window.standing b.config.rounding b.config.window now (some w)) := by
  funext k'
  unfold standing
  rw [Dict.get_set, Function.update_apply]
  split <;> rfl

/-- Whether the sweep keeps a window. -/
def kept (rounding : Rounding) (window : PyFloat) (now : ℚ) (w : Window) : Bool :=
  !(w.trippedUntil.isNone &&
    match w.timestamps.getLast? with
    | none => true
    | some newest => aged rounding window now newest)

theorem gc_get (b : WakeRateBreaker) (now : ℚ) (k : ScopeKey) :
    (b.gc now).windows.get k = 
      (b.windows.get k).filter (kept b.config.rounding b.config.window now) := rfl

/-- A window the sweep does not keep amounts to nothing. -/
theorem standing_of_not_kept {rounding : Rounding} {window : PyFloat} {w : Window}
    (hw : w.timestamps.Pairwise (· ≤ ·)) (h : kept rounding window now w = false) :
    Window.standing rounding window now (some w) = .counting [] := by
  obtain ⟨ts, _ | until_⟩ := w
  · refine congrArg Standing.counting (recent_eq_nil_of_newest hw fun t ht => ?_)
    have hlast : ts.getLast? = some t := ht
    simpa [kept, hlast] using h
  · cases h

/-- The sweep takes only what amounts to nothing. -/
theorem gc_standing (h : b.Ordered clock) : (b.gc now).standing now = b.standing now := by
  funext k
  change Window.standing b.config.rounding b.config.window now ((b.gc now).windows.get k) = _
  rw [gc_get, standing]
  cases hw : b.windows.get k with
  | none => rfl
  | some w =>
    rw [Option.filter_some]
    split
    · rfl
    · next hswept =>
      exact (standing_of_not_kept (h k w hw).1 (by simpa using hswept)).symm

theorem countEvery_standing (h : b.Ordered clock) (interval : ℕ) :
    (b.countEvery interval now).standing now = b.standing now := by
  unfold countEvery
  split
  · exact gc_standing h
  · rfl

@[simp] theorem countEvery_config (b : WakeRateBreaker) (interval : ℕ) (now : ℚ) :
    (b.countEvery interval now).config = b.config := by
  unfold countEvery
  split <;> rfl

/-- The first pass on the windows is the first pass on the standings. -/
theorem checkCooldowns_standing : ∀ (scopes : List Scope) (b : WakeRateBreaker),
    b.Ordered now →
      ((checkCooldowns now scopes b).1, (checkCooldowns now scopes b).2.standing now) =
        Standings.checkCooldowns now scopes (b.standing now) ∧
      (checkCooldowns now scopes b).2.Ordered now ∧
      (checkCooldowns now scopes b).2.config = b.config
  | [], _, h => ⟨rfl, h, rfl⟩
  | scope :: rest, b, h => by
    have hstanding : b.standing now scope.window =
        Window.standing b.config.rounding b.config.window now (b.windows.get scope.window) := rfl
    unfold checkCooldowns Standings.checkCooldowns
    rw [hstanding]
    rcases b.windows.get scope.window with _ | ⟨ts, _ | until_⟩
    · exact checkCooldowns_standing rest b h
    · exact checkCooldowns_standing rest b h
    · simp only [Window.standing]
      split
      · exact ⟨rfl, h, rfl⟩
      · have hset := h.set (k := scope.window) (w := ⟨[], none⟩) List.Pairwise.nil nofun
        obtain ⟨hrun, hordered, hconfig⟩ := checkCooldowns_standing rest _ hset
        rw [hrun, standing_set]
        exact ⟨rfl, hordered, hconfig⟩

/-- The window of a scope that counts, one that is not there read as empty. -/
theorem stored_of_counting (h : b.Ordered now) {k : ScopeKey} {ts : List ℚ}
    (hts : b.standing now k = .counting ts) :
    ∃ stored, (b.windows.get k).getD ⟨[], none⟩ = ⟨stored, none⟩ ∧
      stored.Pairwise (· ≤ ·) ∧ (∀ t ∈ stored, t ≤ now) ∧
      recent b.config.rounding b.config.window now stored = ts := by
  unfold standing at hts
  cases hw : b.windows.get k with
  | none =>
    rw [hw] at hts
    exact ⟨[], rfl, List.Pairwise.nil, nofun, Standing.counting.inj hts⟩
  | some w =>
    obtain ⟨stored, _ | until_⟩ := w
    · rw [hw] at hts
      exact ⟨stored, rfl, (h _ _ hw).1, (h _ _ hw).2, Standing.counting.inj hts⟩
    · rw [hw] at hts
      cases hts

/-- The second pass, where no scope of the call is cooling down. -/
theorem recordWake_standing : ∀ (scopes : List Scope) (b : WakeRateBreaker), b.Ordered now →
    (∀ scope ∈ scopes, ∃ ts, b.standing now scope.window = .counting ts) →
      ((recordWake now scopes b).1, (recordWake now scopes b).2.standing now) =
        Standings.recordWake b.config now scopes (b.standing now) ∧
      (recordWake now scopes b).2.Ordered now ∧
      (recordWake now scopes b).2.config = b.config
  | [], _, h, _ => ⟨rfl, h, rfl⟩
  | scope :: rest, b, h, hcounting => by
    obtain ⟨ts, hts⟩ := hcounting scope (by simp)
    obtain ⟨stored, hstored, hordered, hle, hts'⟩ := stored_of_counting h hts
    have hpruned : stored.dropWhile (fun t => (PyFloat.fin t).le (b.cutoff now)) = ts := by
      rw [← hts']
      exact dropWhile_aged hordered
    obtain ⟨hsnoc, hclock⟩ := pruned_ordered b.config.rounding b.config.window hordered hle
    rw [hts'] at hsnoc hclock
    unfold recordWake Standings.recordWake
    simp only [hstored, hpruned, hts, List.length_append, List.length_singleton]
    split
    · refine ⟨?_, h.set hsnoc hclock, rfl⟩
      rw [standing_set]
      rfl
    · have hset := h.set (k := scope.window) (w := ⟨ts ++ [now], none⟩) hsnoc hclock
      have hstays : standing
          { b with windows := b.windows.set scope.window ⟨ts ++ [now], none⟩ } now =
            Function.update (b.standing now) scope.window
              (.counting (ts ++ recent b.config.rounding b.config.window now [now])) := by
        rw [standing_set]
        simp only [Window.standing, recent_append, ← hts', recent_recent le_rfl]
      have hrest : ∀ scope' ∈ rest, ∃ ts', standing
          { b with windows := b.windows.set scope.window ⟨ts ++ [now], none⟩ } now scope'.window =
            .counting ts' := by
        intro scope' hmem
        rw [hstays, Function.update_apply]
        split
        · exact ⟨_, rfl⟩
        · exact hcounting scope' (List.mem_cons_of_mem _ hmem)
      obtain ⟨hrun, hordered', hconfig⟩ := recordWake_standing rest _ hset hrest
      rw [hrun, hstays]
      exact ⟨rfl, hordered', hconfig⟩

/-- After a first pass that refuses nothing, no scope of the call is cooling down. -/
theorem counting_of_checkCooldowns : ∀ (scopes : List Scope) (s : Standings) {s' : Standings},
    Standings.checkCooldowns now scopes s = (none, s') →
      (∀ k, (∃ ts, s k = .counting ts) → ∃ ts, s' k = .counting ts) ∧
      ∀ scope ∈ scopes, ∃ ts, s' scope.window = .counting ts
  | [], _, _, h => by
    cases h
    exact ⟨fun _ hk => hk, nofun⟩
  | scope :: rest, s, s', h => by
    unfold Standings.checkCooldowns at h
    split at h
    · split at h
      · cases h
      · obtain ⟨hkeeps, hrest⟩ := counting_of_checkCooldowns rest _ h
        have hself := hkeeps scope.window ⟨[], Function.update_self ..⟩
        refine ⟨fun k hk => hkeeps k ?_, List.forall_mem_cons.mpr ⟨hself, hrest⟩⟩
        rw [Function.update_apply]
        split
        · exact ⟨[], rfl⟩
        · exact hk
    · next ts hts =>
      obtain ⟨hkeeps, hrest⟩ := counting_of_checkCooldowns rest _ h
      exact ⟨hkeeps, List.forall_mem_cons.mpr ⟨hkeeps _ ⟨ts, hts⟩, hrest⟩⟩

/-- **A call is a function of the standings**, at any interval of the sweep. -/
theorem admitEvery_standing (h : b.Ordered clock) (hnow : clock ≤ now) (interval : ℕ)
    (agentKey : String) (streamKey : Option String) :
    ((admitEvery interval b agentKey streamKey now).1,
        (admitEvery interval b agentKey streamKey now).2.standing now) =
      Standings.admitWake b.config (b.scopes agentKey streamKey) now
        ((b.standing clock).later b.config.rounding b.config.window now) ∧
    (admitEvery interval b agentKey streamKey now).2.Ordered now ∧
    (admitEvery interval b agentKey streamKey now).2.config = b.config := by
  have hcounted : (b.countEvery interval now).Ordered now := (h.later hnow).countEvery interval
  obtain ⟨hfirst, hordered, hconfig⟩ :=
    checkCooldowns_standing (b.scopes agentKey streamKey) _ hcounted
  rw [countEvery_standing (h.later hnow), standing_later b hnow] at hfirst
  unfold admitEvery Standings.admitWake
  rw [← hfirst]
  rcases hcheck : checkCooldowns now (b.scopes agentKey streamKey) (b.countEvery interval now) with
    ⟨_ | outcome, b'⟩
  · rw [hcheck] at hfirst hordered hconfig
    have hcounting := (counting_of_checkCooldowns _ _ hfirst.symm).2
    obtain ⟨hrun, hordered', hconfig'⟩ := recordWake_standing _ b' hordered hcounting
    rw [hconfig, countEvery_config] at hrun hconfig'
    simp only [hcheck]
    exact ⟨hrun, hordered', hconfig'⟩
  · rw [hcheck] at hordered hconfig
    simp only [hcheck]
    exact ⟨trivial, hordered, hconfig.trans (countEvery_config b interval now)⟩

end WakeRateBreaker

/-! ## 5. Runs -/

/-- One call of `admit`, at its clock reading. -/
structure Call where
  agentKey : String
  streamKey : Option String
  now : ℚ
  deriving DecidableEq

/-- A clock that does not run backwards. -/
def Nondecreasing (calls : List Call) : Prop := calls.Pairwise (·.now ≤ ·.now)

instance (calls : List Call) : Decidable (Nondecreasing calls) :=
  inferInstanceAs (Decidable (List.Pairwise _ _))

/-- The scopes a call is counted against. -/
def Call.scopes (config : BreakerConfig) (call : Call) : List Scope :=
  (WakeRateBreaker.new config).scopes call.agentKey call.streamKey

/-- A run of calls, each with its outcome. -/
def WakeRateBreaker.run (interval : ℕ) :
    WakeRateBreaker → List Call → List (Call × BreakerOutcome)
  | _, [] => []
  | b, call :: calls =>
    let step := b.admitEvery interval call.agentKey call.streamKey call.now
    (call, step.1) :: run interval step.2 calls

/-- The same on the standings. -/
def Standings.run (config : BreakerConfig) : Standings → List Call → List (Call × BreakerOutcome)
  | _, [] => []
  | s, call :: calls =>
    let step := admitWake config (call.scopes config) call.now
      (s.later config.rounding config.window call.now)
    (call, step.1) :: run config step.2 calls

theorem WakeRateBreaker.run_cons (interval : ℕ) (b : WakeRateBreaker) (call : Call)
    (calls : List Call) : b.run interval (call :: calls) =
      (call, (b.admitEvery interval call.agentKey call.streamKey call.now).1) ::
        (b.admitEvery interval call.agentKey call.streamKey call.now).2.run interval calls := rfl

theorem Standings.run_cons (config : BreakerConfig) (s : Standings) (call : Call)
    (calls : List Call) : s.run config (call :: calls) =
      (call, (admitWake config (call.scopes config) call.now
          (s.later config.rounding config.window call.now)).1) ::
        (admitWake config (call.scopes config) call.now
          (s.later config.rounding config.window call.now)).2.run config calls := rfl

theorem run_standing (interval : ℕ) : ∀ (calls : List Call) (b : WakeRateBreaker) {clock : ℚ},
    b.Ordered clock → (∀ call ∈ calls, clock ≤ call.now) → Nondecreasing calls →
      b.run interval calls = (b.standing clock).run b.config calls
  | [], _, _, _, _, _ => rfl
  | call :: calls, b, clock, h, hclock, hcalls => by
    obtain ⟨hstep, hordered, hconfig⟩ := WakeRateBreaker.admitEvery_standing h
      (hclock call (by simp)) interval call.agentKey call.streamKey
    have hrest := run_standing interval calls _ hordered (List.pairwise_cons.mp hcalls).1
      (List.pairwise_cons.mp hcalls).2
    have hscopes : b.scopes call.agentKey call.streamKey = call.scopes b.config := rfl
    rw [hscopes] at hstep
    rw [WakeRateBreaker.run_cons, Standings.run_cons, ← hstep, hrest, hconfig]

/-- **A run from the start is a run of the standings**, at any interval of the sweep. -/
theorem run_new (interval : ℕ) (config : BreakerConfig) {calls : List Call}
    (h : Nondecreasing calls) :
    (WakeRateBreaker.new config).run interval calls = Standings.fresh.run config calls := by
  cases calls with
  | nil => rfl
  | cons call calls =>
    have hclock : ∀ call' ∈ call :: calls, call.now ≤ call'.now :=
      List.forall_mem_cons.mpr ⟨le_rfl, (List.pairwise_cons.mp h).1⟩
    exact run_standing interval _ _ (WakeRateBreaker.new_ordered config call.now) hclock h

end BasecradleRouter.Breaker
