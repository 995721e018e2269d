/-
# Agents do not see each other

All agents share one dictionary of windows and one sweep counter.  A call reads and writes the
standings of its own scopes only (`admitWake_congr`, `admitWake_frame`), and every scope has one
owner, so an agent's calls fare as they do alone: `outcomes_isolated`, whatever the intervals of
the sweep.
-/
import BasecradleRouter.Breaker.Standing

namespace BasecradleRouter.Breaker

open BasecradleRouter.Lib

/-- The agent a scope belongs to. -/
def ScopeKey.owner : ScopeKey → String
  | .agent agentKey => agentKey
  | .stream agentKey _ => agentKey

theorem mem_scopes {config : BreakerConfig} {call : Call} {scope : Scope} :
    scope ∈ call.scopes config ↔
      scope = ⟨"agent", .agent call.agentKey, config.maxWakes, call.agentKey⟩ ∨
      ∃ stream, call.streamKey = some stream ∧ 0 < config.streamMaxWakes ∧
        scope = ⟨"stream", .stream call.agentKey stream, config.streamMaxWakes, stream⟩ := by
  unfold Call.scopes WakeRateBreaker.scopes WakeRateBreaker.new
  rw [List.mem_cons]
  cases call.streamKey with
  | none => simp
  | some stream =>
    by_cases hstreams : 0 < config.streamMaxWakes
    · simp [hstreams]
    · simp [hstreams]

theorem scopes_distinct (config : BreakerConfig) (call : Call) :
    ((call.scopes config).map Scope.window).Nodup := by
  unfold Call.scopes WakeRateBreaker.scopes
  cases call.streamKey with
  | none => simp
  | some stream =>
    dsimp only
    split <;> simp

theorem threshold_pos {config : BreakerConfig} {call : Call} {scope : Scope}
    (h : scope ∈ call.scopes config) : 1 ≤ scope.threshold := by
  rcases mem_scopes.mp h with rfl | ⟨stream, -, hpos, rfl⟩
  · exact config.maxWakes_pos
  · exact hpos

theorem owner_of_mem_scopes {config : BreakerConfig} {call : Call} {scope : Scope}
    (h : scope ∈ call.scopes config) : scope.window.owner = call.agentKey := by
  rcases mem_scopes.mp h with rfl | ⟨stream, -, -, rfl⟩
  · rfl
  · rfl

/-! ## 1. What a call reads -/

namespace Standings

/-- Two standings of scopes agree on those `K` is about. -/
def Agree (K : ScopeKey → Prop) (s s' : Standings) : Prop := ∀ k, K k → s k = s' k

variable {K : ScopeKey → Prop} {s s' : Standings} {now : ℚ} {config : BreakerConfig}

theorem Agree.update (h : Agree K s s') (k : ScopeKey) (v : Standing) :
    Agree K (Function.update s k v) (Function.update s' k v) := by
  intro k' hk'
  rw [Function.update_apply, Function.update_apply, h k' hk']

theorem checkCooldowns_congr : ∀ {scopes : List Scope} {s s' : Standings},
    (∀ scope ∈ scopes, K scope.window) → Agree K s s' →
      (checkCooldowns now scopes s).1 = (checkCooldowns now scopes s').1 ∧
        Agree K (checkCooldowns now scopes s).2 (checkCooldowns now scopes s').2
  | [], _, _, _, h => ⟨rfl, h⟩
  | scope :: rest, s, s', hscopes, h => by
    obtain ⟨hscope, hrest⟩ := List.forall_mem_cons.mp hscopes
    unfold checkCooldowns
    rw [h _ hscope]
    split
    · split
      · exact ⟨rfl, h⟩
      · exact checkCooldowns_congr hrest (h.update _ _)
    · exact checkCooldowns_congr hrest h

theorem recordWake_congr : ∀ {scopes : List Scope} {s s' : Standings},
    (∀ scope ∈ scopes, K scope.window) → Agree K s s' →
      (recordWake config now scopes s).1 = (recordWake config now scopes s').1 ∧
        Agree K (recordWake config now scopes s).2 (recordWake config now scopes s').2
  | [], _, _, _, h => ⟨rfl, h⟩
  | scope :: rest, s, s', hscopes, h => by
    obtain ⟨hscope, hrest⟩ := List.forall_mem_cons.mp hscopes
    unfold recordWake
    rw [h _ hscope]
    split
    · split
      · exact ⟨rfl, h.update _ _⟩
      · exact recordWake_congr hrest (h.update _ _)
    · exact recordWake_congr hrest h

/-- **What a call answers, and leaves of `K`, is told by `K`**, if its scopes are among `K`. -/
theorem admitWake_congr {scopes : List Scope} (hscopes : ∀ scope ∈ scopes, K scope.window)
    (h : Agree K s s') :
    (admitWake config scopes now s).1 = (admitWake config scopes now s').1 ∧
      Agree K (admitWake config scopes now s).2 (admitWake config scopes now s').2 := by
  obtain ⟨houtcome, hagree⟩ := @checkCooldowns_congr K now scopes s s' hscopes h
  unfold admitWake
  rcases hcheck : checkCooldowns now scopes s with ⟨_ | outcome, t⟩
  · rcases hcheck' : checkCooldowns now scopes s' with ⟨_ | outcome', t'⟩
    · rw [hcheck, hcheck'] at hagree
      exact recordWake_congr hscopes hagree
    · rw [hcheck, hcheck'] at houtcome
      cases houtcome
  · rcases hcheck' : checkCooldowns now scopes s' with ⟨_ | outcome', t'⟩
    · rw [hcheck, hcheck'] at houtcome
      cases houtcome
    · rw [hcheck, hcheck'] at houtcome hagree
      exact ⟨Option.some.inj houtcome, hagree⟩

/-! ## 2. What a call writes -/

theorem checkCooldowns_frame : ∀ {scopes : List Scope} {s : Standings} {k : ScopeKey},
    (∀ scope ∈ scopes, scope.window ≠ k) → (checkCooldowns now scopes s).2 k = s k
  | [], _, _, _ => rfl
  | scope :: rest, s, k, hscopes => by
    obtain ⟨hscope, hrest⟩ := List.forall_mem_cons.mp hscopes
    unfold checkCooldowns
    split
    · split
      · rfl
      · rw [checkCooldowns_frame hrest, Function.update_of_ne hscope.symm]
    · exact checkCooldowns_frame hrest

theorem recordWake_frame : ∀ {scopes : List Scope} {s : Standings} {k : ScopeKey},
    (∀ scope ∈ scopes, scope.window ≠ k) → (recordWake config now scopes s).2 k = s k
  | [], _, _, _ => rfl
  | scope :: rest, s, k, hscopes => by
    obtain ⟨hscope, hrest⟩ := List.forall_mem_cons.mp hscopes
    unfold recordWake
    split
    · split
      · exact Function.update_of_ne hscope.symm _ _
      · rw [recordWake_frame hrest, Function.update_of_ne hscope.symm]
    · exact recordWake_frame hrest

/-- **A call leaves every scope but its own.** -/
theorem admitWake_frame {scopes : List Scope} {k : ScopeKey}
    (hscopes : ∀ scope ∈ scopes, scope.window ≠ k) :
    (admitWake config scopes now s).2 k = s k := by
  have hfirst := @checkCooldowns_frame now scopes s k hscopes
  unfold admitWake
  rcases hcheck : checkCooldowns now scopes s with ⟨_ | outcome, t⟩
  · rw [hcheck] at hfirst
    exact (recordWake_frame hscopes).trans hfirst
  · rw [hcheck] at hfirst
    exact hfirst

/-! ## 3. An agent's calls, alone -/

/-- Ageing twice is ageing once. -/
theorem later_later {rounding : Rounding} {window : PyFloat} {clock now : ℚ} (h : clock ≤ now)
    (s : Standings) :
    (s.later rounding window clock).later rounding window now = s.later rounding window now := by
  funext k
  simp only [later]
  cases s k with
  | counting ts => simp only [Standing.later, recent_recent h]
  | cooling until_ => rfl

/-- What belongs to `agent`. -/
def Owned (agent : String) (k : ScopeKey) : Prop := k.owner = agent

/-- Agreement lasts as both age. -/
theorem Agree.later {rounding : Rounding} {window : PyFloat} {clock now : ℚ}
    (h : Agree K (s.later rounding window clock) (s'.later rounding window clock))
    (hnow : clock ≤ now) :
    Agree K (s.later rounding window now) (s'.later rounding window now) := by
  intro k hk
  rw [← later_later hnow s, ← later_later hnow s']
  exact congrArg (Standing.later rounding window now) (h k hk)

theorem run_filter (agent : String) : ∀ (calls : List Call) (s s' : Standings) {clock : ℚ},
    Agree (Owned agent) (s.later config.rounding config.window clock)
        (s'.later config.rounding config.window clock) →
      (∀ call ∈ calls, clock ≤ call.now) → Nondecreasing calls →
        (s.run config calls).filter (fun step => step.1.agentKey = agent) =
          s'.run config (calls.filter fun call => call.agentKey = agent)
  | [], _, _, _, _, _, _ => rfl
  | call :: calls, s, s', clock, h, hclock, hcalls => by
    obtain ⟨hnow, -⟩ := List.forall_mem_cons.mp hclock
    obtain ⟨hlater, hrest⟩ := List.pairwise_cons.mp hcalls
    have hagree := h.later hnow
    have hself : ∀ {t t' : Standings}, Agree (Owned agent) t t' →
        Agree (Owned agent) (t.later config.rounding config.window call.now)
          (t'.later config.rounding config.window call.now) :=
      fun ht k hk => congrArg (Standing.later config.rounding config.window call.now) (ht k hk)
    rw [run_cons]
    by_cases hcall : call.agentKey = agent
    · -- the agent's own call: both sides take it, on standings that agree
      rw [List.filter_cons_of_pos (by simpa using hcall),
        List.filter_cons_of_pos (by simpa using hcall), run_cons]
      have howned : ∀ scope ∈ call.scopes config, Owned agent scope.window :=
        fun scope hmem => (owner_of_mem_scopes hmem).trans hcall
      obtain ⟨houtcome, hagree'⟩ :=
        @admitWake_congr (Owned agent) _ _ call.now config _ howned hagree
      rw [houtcome, run_filter agent calls _ _ (hself hagree') hlater hrest]
    · -- another's: the agent's standings only age
      rw [List.filter_cons_of_neg (by simpa using hcall),
        List.filter_cons_of_neg (by simpa using hcall)]
      refine @run_filter agent calls _ s' call.now ?_ hlater hrest
      intro k hk
      have hframe : (admitWake config (call.scopes config) call.now
          (s.later config.rounding config.window call.now)).2 k =
            s.later config.rounding config.window call.now k := by
        refine admitWake_frame fun scope hmem hscope => hcall ?_
        rw [← owner_of_mem_scopes hmem, hscope]
        exact hk
      have haged : (admitWake config (call.scopes config) call.now
          (s.later config.rounding config.window call.now)).2.later config.rounding config.window
            call.now k =
            (s.later config.rounding config.window call.now).later config.rounding config.window
              call.now k :=
        congrArg (Standing.later config.rounding config.window call.now) hframe
      rw [haged, later_later le_rfl]
      exact hagree k hk

end Standings

/-- **An agent's calls fare as they do alone.**  Whatever other agents' calls stand between them
and whatever the intervals of the sweep, the outcomes an agent's calls receive are those they
receive on a fresh breaker that is asked nothing else, at the same instants. -/
theorem outcomes_isolated (config : BreakerConfig) (interval interval' : ℕ) (agent : String)
    (calls : List Call) (h : Nondecreasing calls) :
    ((WakeRateBreaker.new config).run interval calls).filter (fun step => step.1.agentKey = agent) =
      (WakeRateBreaker.new config).run interval'
        (calls.filter fun call => call.agentKey = agent) := by
  have halone : Nondecreasing (calls.filter fun call => call.agentKey = agent) := h.filter _
  rw [run_new interval config h, run_new interval' config halone]
  cases calls with
  | nil => rfl
  | cons call calls =>
    have hclock : ∀ call' ∈ call :: calls, call.now ≤ call'.now :=
      List.forall_mem_cons.mpr ⟨le_rfl, (List.pairwise_cons.mp h).1⟩
    exact @Standings.run_filter config agent _ _ _ call.now (fun _ _ => rfl) hclock h

/-- Nova's call between two of Max's does not show. -/
theorem outcomes_isolated_max :
    ((WakeRateBreaker.new .default).run gcInterval
        [⟨"max", none, 0⟩, ⟨"nova", none, 1⟩, ⟨"max", none, 2⟩]).filter
          (fun step => step.1.agentKey = "max") =
      (WakeRateBreaker.new .default).run 1 [⟨"max", none, 0⟩, ⟨"max", none, 2⟩] :=
  outcomes_isolated .default gcInterval 1 "max" _ (by decide +kernel)

end BasecradleRouter.Breaker
