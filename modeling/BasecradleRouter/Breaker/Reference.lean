/-
# The wakes a scope counts

`admit`'s description has it that a refused wake is not recorded.  `Reference` is the breaker that
keeps to this: a scope counts the wakes admitted on it since its last reset, and a call looks at
every scope before it counts for any.

The breaker looks at one scope and counts for it before it looks at the next.  A wake that its
stream refuses has then been counted for its agent, and stands in the agent's window as if it had
been admitted.  `counts_admitted_iff`: the breaker counts as described exactly along the runs in
which no call finds its stream full while its agent has room.
-/
import BasecradleRouter.Breaker.Bound

namespace BasecradleRouter.Breaker

open BasecradleRouter.Lib

/-! ## 1. The description -/

/-- A scope as described: when the wakes since its last reset were admitted, and until when it
refuses. -/
structure Tally where
  admitted : List ℚ
  refusesUntil : Option PyFloat
  deriving DecidableEq

/-- What a tally amounts to at an instant. -/
def Tally.standing (rounding : Rounding) (window : PyFloat) (now : ℚ) (t : Tally) : Standing :=
  match t.refusesUntil with
  | none => .counting (recent rounding window now t.admitted)
  | some until_ => .cooling until_

/-- How many admitted wakes a tally still counts. -/
def Tally.count (rounding : Rounding) (window : PyFloat) (now : ℚ) (t : Tally) : ℕ :=
  (recent rounding window now t.admitted).length

/-- Every scope's tally. -/
abbrev Reference := ScopeKey → Tally

namespace Reference

/-- Every scope at rest. -/
def fresh : Reference := fun _ => ⟨[], none⟩

def standing (rounding : Rounding) (window : PyFloat) (now : ℚ) (r : Reference) : Standings :=
  fun k => (r k).standing rounding window now

/-- A scope that refuses answers; one whose cooldown is over is reset. -/
def checkCooldowns (now : ℚ) : List Scope → Reference → Option BreakerOutcome × Reference
  | [], r => (none, r)
  | scope :: rest, r =>
    match (r scope.window).refusesUntil with
    | some until_ =>
      if (PyFloat.fin now).lt until_ then
        (some ⟨.opened, scope.name, scope.display, 0⟩, r)
      else
        checkCooldowns now rest (Function.update r scope.window ⟨[], none⟩)
    | none => checkCooldowns now rest r

/-- The first scope whose count stands at its threshold trips; where there is none, the wake
counts for each. -/
def countWake (config : BreakerConfig) (now : ℚ) (scopes : List Scope) (r : Reference) :
    BreakerOutcome × Reference :=
  match scopes.find? fun scope =>
    (r scope.window).count config.rounding config.window now = scope.threshold with
  | some scope =>
    (⟨.tripped, scope.name, scope.display, scope.threshold + 1⟩,
      Function.update r scope.window
        ⟨(r scope.window).admitted, some (config.rounding.add (.fin now) config.cooldown)⟩)
  | none =>
    (⟨.admitted, "", "", 0⟩, fun k =>
      if ∃ scope ∈ scopes, scope.window = k then ⟨(r k).admitted ++ [now], (r k).refusesUntil⟩
      else r k)

/-- One call as described. -/
def admitWake (config : BreakerConfig) (scopes : List Scope) (now : ℚ) (r : Reference) :
    BreakerOutcome × Reference :=
  match checkCooldowns now scopes r with
  | (some outcome, r) => (outcome, r)
  | (none, r) => countWake config now scopes r

/-- A run as described. -/
def run (config : BreakerConfig) : Reference → List Call → List (Call × BreakerOutcome)
  | _, [] => []
  | r, call :: calls =>
    let step := admitWake config (call.scopes config) call.now r
    (call, step.1) :: run config step.2 calls

end Reference

/-- Two wakes fill an agent's window, one fills a stream's. -/
def narrow : BreakerConfig where
  maxWakes := 2
  window := BreakerConfig.default.window
  cooldown := BreakerConfig.default.cooldown
  streamMaxWakes := 1
  rounding := .binary64
  maxWakes_pos := Nat.le_succ 1
  window_ok := BreakerConfig.default.window_ok
  cooldown_ok := BreakerConfig.default.cooldown_ok

/-- Two wakes on one timeline, the second refused there, and the first on another. -/
def noisyTimeline : List Call :=
  [⟨"max", some "t1", 0⟩, ⟨"max", some "t1", 1⟩, ⟨"max", some "t2", 2⟩]

/-- **The breaker does not count as described.**  One wake of Max's was admitted and one refused
when a third trips the agent's scope, whose threshold is two. -/
theorem not_counts_admitted_max :
    (WakeRateBreaker.new narrow).run gcInterval noisyTimeline ≠
      Reference.fresh.run narrow noisyTimeline := by
  decide +kernel

/-! ## 2. One call -/

/-- No scope counts more than its threshold, nor what lies ahead of the clock. -/
def Standings.Within (config : BreakerConfig) (clock : ℚ) (s : Standings) : Prop :=
  ∀ k ts, s k = .counting ts → ts.length ≤ config.limit k ∧ ∀ t ∈ ts, t ≤ clock

/-- At a call's instant its stream is full, neither scope refuses, and its agent has room. -/
def Standings.StreamFull (config : BreakerConfig) (s : Standings) (call : Call) : Prop :=
  ∃ stream ts, call.streamKey = some stream ∧ 0 < config.streamMaxWakes ∧
    s (.stream call.agentKey stream) = .counting ts ∧ config.streamMaxWakes ≤ ts.length ∧
    match s (.agent call.agentKey) with
    | .counting ts' => ts'.length < config.maxWakes
    | .cooling until_ => (PyFloat.fin call.now).lt until_ = false

/-- At a call's instant its stream is full, neither scope refuses, and its agent has room. -/
def WakeRateBreaker.StreamFull (b : WakeRateBreaker) (call : Call) : Prop :=
  (b.standing call.now).StreamFull b.config call

namespace Reference

variable {config : BreakerConfig} {rounding : Rounding} {window : PyFloat} {clock now : ℚ}

@[simp] theorem fresh_standing (rounding : Rounding) (window : PyFloat) (now : ℚ) :
    fresh.standing rounding window now = Standings.fresh := rfl

/-- Tallies stand later as they stood, aged. -/
theorem standing_later (r : Reference) (hnow : clock ≤ now) :
    (r.standing rounding window clock).later rounding window now =
      r.standing rounding window now := by
  funext k
  simp only [standing, Standings.later, Tally.standing]
  cases (r k).refusesUntil with
  | none => simp only [Standing.later, recent_recent hnow]
  | some until_ => rfl

theorem standing_update (r : Reference) (k : ScopeKey) (t : Tally) :
    standing rounding window now (Function.update r k t) =
      Function.update (r.standing rounding window now) k (t.standing rounding window now) := by
  funext k'
  unfold standing
  rw [Function.update_apply, Function.update_apply]
  split <;> rfl

/-- The first pass of the breaker is the first pass as described. -/
theorem checkCooldowns_standing : ∀ (scopes : List Scope) (r : Reference),
    Standings.checkCooldowns now scopes (r.standing rounding window now) =
      ((checkCooldowns now scopes r).1,
        (checkCooldowns now scopes r).2.standing rounding window now)
  | [], _ => rfl
  | scope :: rest, r => by
    have hstanding : r.standing rounding window now scope.window =
        (r scope.window).standing rounding window now := rfl
    unfold checkCooldowns Standings.checkCooldowns
    rw [hstanding, Tally.standing]
    cases (r scope.window).refusesUntil with
    | none => exact checkCooldowns_standing rest r
    | some until_ =>
      dsimp only
      split
      · rfl
      · rw [← checkCooldowns_standing rest, standing_update]
        rfl

end Reference

namespace Standings

variable {config : BreakerConfig} {now : ℚ} {s : Standings} {call : Call}

theorem fresh_within (config : BreakerConfig) (clock : ℚ) : fresh.Within config clock := by
  intro k ts h
  cases h
  exact ⟨Nat.zero_le _, nofun⟩

theorem Within.later {clock : ℚ} (h : s.Within config clock) (hnow : clock ≤ now) :
    (s.later config.rounding config.window now).Within config now := by
  intro k ts hts
  simp only [Standings.later] at hts
  cases hk : s k with
  | counting ts' =>
    rw [hk] at hts
    cases hts
    obtain ⟨hle, hpast⟩ := h k ts' hk
    exact ⟨(recent_sublist ts').length_le.trans hle,
      fun t ht => (hpast t (mem_recent.mp ht).1).trans hnow⟩
  | cooling until_ =>
    rw [hk] at hts
    cases hts

theorem Within.update (h : s.Within config now) {k : ScopeKey} {v : Standing}
    (hv : ∀ ts, v = .counting ts → ts.length ≤ config.limit k ∧ ∀ t ∈ ts, t ≤ now) :
    Standings.Within config now (Function.update s k v) := by
  intro k' ts hts
  rw [Function.update_apply] at hts
  split at hts
  · next hk =>
    rw [hk]
    exact hv ts hts
  · exact h k' ts hts

theorem checkCooldowns_within : ∀ {scopes : List Scope} {s : Standings}, s.Within config now →
    (checkCooldowns now scopes s).2.Within config now
  | [], _, h => h
  | scope :: rest, s, h => by
    unfold checkCooldowns
    split
    · split
      · exact h
      · refine checkCooldowns_within (h.update fun ts hts => ?_)
        cases hts
        exact ⟨Nat.zero_le _, nofun⟩
    · exact checkCooldowns_within h

theorem recordWake_within : ∀ {scopes : List Scope} {s : Standings},
    (∀ scope ∈ scopes, scope.threshold = config.limit scope.window) → s.Within config now →
      (recordWake config now scopes s).2.Within config now
  | [], _, _, h => h
  | scope :: rest, s, hlimit, h => by
    obtain ⟨hscope, hrest⟩ := List.forall_mem_cons.mp hlimit
    unfold recordWake
    split
    · next ts hts =>
      split
      · exact h.update nofun
      · next hunder =>
        refine recordWake_within hrest (h.update fun ts' hts' => ?_)
        cases hts'
        have hone : (recent config.rounding config.window now [now]).length ≤ 1 :=
          (recent_sublist [now]).length_le
        refine ⟨?_, fun t ht => ?_⟩
        · rw [← hscope, List.length_append]
          omega
        · rcases List.mem_append.mp ht with hmem | hmem
          · exact (h scope.window ts hts).2 t hmem
          · rw [List.mem_singleton.mp (mem_recent.mp hmem).1]
    · exact recordWake_within hrest h

/-- A call keeps every scope within its threshold. -/
theorem admitWake_within (h : s.Within config call.now) :
    (admitWake config (call.scopes config) call.now s).2.Within config call.now := by
  have hfirst : (checkCooldowns call.now (call.scopes config) s).2.Within config call.now :=
    checkCooldowns_within h
  unfold admitWake
  rcases hcheck : checkCooldowns call.now (call.scopes config) s with ⟨_ | outcome, t⟩
  · rw [hcheck] at hfirst
    exact recordWake_within (fun scope hmem => threshold_of_mem_scopes hmem) hfirst
  · rw [hcheck] at hfirst
    exact hfirst

/-- A wake counted on every scope of a call. -/
def counted (config : BreakerConfig) (scopes : List Scope) (now : ℚ) (s : Standings) : Standings :=
  fun k =>
  if ∃ scope ∈ scopes, scope.window = k then
    match s k with
    | .counting ts => .counting (ts ++ recent config.rounding config.window now [now])
    | .cooling until_ => .cooling until_
  else s k

/-- Where every scope has room the second pass counts the wake on each. -/
theorem recordWake_of_room : ∀ {scopes : List Scope} {s : Standings},
    (scopes.map Scope.window).Nodup →
    (∀ scope ∈ scopes, ∃ ts, s scope.window = .counting ts ∧ ts.length < scope.threshold) →
      recordWake config now scopes s = (⟨.admitted, "", "", 0⟩, s.counted config scopes now)
  | [], s, _, _ => by
    have hcounted : s.counted config [] now = s := by
      funext k
      simp [counted]
    rw [hcounted]
    rfl
  | scope :: rest, s, hdistinct, hroom => by
    rw [List.map_cons, List.nodup_cons] at hdistinct
    obtain ⟨⟨ts, hts, hlt⟩, hrest⟩ := List.forall_mem_cons.mp hroom
    have hother : ∀ scope' ∈ rest, scope'.window ≠ scope.window := fun scope' hmem heq =>
      hdistinct.1 (heq ▸ List.mem_map_of_mem hmem)
    have hroom' : ∀ scope' ∈ rest, ∃ ts', Function.update s scope.window
        (.counting (ts ++ recent config.rounding config.window now [now])) scope'.window =
          .counting ts' ∧ ts'.length < scope'.threshold := by
      intro scope' hmem
      rw [Function.update_of_ne (hother scope' hmem)]
      exact hrest scope' hmem
    have hcounted : Standings.counted config rest now (Function.update s scope.window
        (.counting (ts ++ recent config.rounding config.window now [now]))) =
          s.counted config (scope :: rest) now := by
      funext k
      unfold counted
      by_cases hk : scope.window = k
      · subst hk
        rw [if_neg fun ⟨scope', hmem, heq⟩ => hother scope' hmem heq, Function.update_self,
          if_pos ⟨scope, List.mem_cons_self, rfl⟩, hts]
      · rw [Function.update_of_ne (Ne.symm hk)]
        simp [hk]
    unfold recordWake
    simp only [hts]
    rw [if_neg (by omega), recordWake_of_room hdistinct.2 hroom', hcounted]

/-- A scope at its threshold trips, the first of the call's. -/
theorem recordWake_of_full {scope : Scope} {rest : List Scope} {ts : List ℚ}
    (hts : s scope.window = .counting ts) (hfull : ts.length = scope.threshold) :
    recordWake config now (scope :: rest) s =
      (⟨.tripped, scope.name, scope.display, scope.threshold + 1⟩,
        Function.update s scope.window
          (.cooling (config.rounding.add (.fin now) config.cooldown))) := by
  unfold recordWake
  simp only [hts]
  rw [if_pos (by omega), hfull]

end Standings

namespace Reference

variable {config : BreakerConfig} {now : ℚ} {r : Reference}

/-- What a tally still counts is recent. -/
theorem recent_of_standing {k : ScopeKey} {ts : List ℚ} {t : ℚ}
    (h : r.standing config.rounding config.window now k = .counting ts) (ht : t ∈ ts) :
    aged config.rounding config.window now t = false := by
  unfold standing Tally.standing at h
  cases hu : (r k).refusesUntil with
  | none =>
    rw [hu] at h
    rw [← Standing.counting.inj h] at ht
    exact (mem_recent.mp ht).2
  | some until_ =>
    rw [hu] at h
    cases h

theorem count_of_standing {k : ScopeKey} {ts : List ℚ}
    (h : r.standing config.rounding config.window now k = .counting ts) :
    (r k).count config.rounding config.window now = ts.length := by
  unfold standing Tally.standing at h
  cases hu : (r k).refusesUntil with
  | none =>
    rw [hu] at h
    exact congrArg List.length (Standing.counting.inj h)
  | some until_ =>
    rw [hu] at h
    cases h

/-- Where every scope has room the wake counts for each. -/
theorem countWake_of_room {scopes : List Scope}
    (hroom : ∀ scope ∈ scopes, ∃ ts,
      r.standing config.rounding config.window now scope.window = .counting ts ∧
      ts.length < scope.threshold) :
    (countWake config now scopes r).1 = ⟨.admitted, "", "", 0⟩ ∧
      (countWake config now scopes r).2.standing config.rounding config.window now =
        (r.standing config.rounding config.window now).counted config scopes now := by
  have hnone : (scopes.find? fun scope =>
      decide ((r scope.window).count config.rounding config.window now = scope.threshold)) =
        none := by
    rw [List.find?_eq_none]
    intro scope hmem hfull
    obtain ⟨ts, hts, hlt⟩ := hroom scope hmem
    rw [decide_eq_true_eq, count_of_standing hts] at hfull
    omega
  unfold countWake
  rw [hnone]
  refine ⟨rfl, ?_⟩
  funext k
  simp only [standing, Standings.counted]
  split
  · unfold Tally.standing
    cases (r k).refusesUntil with
    | none => simp only [recent_append]
    | some until_ => rfl
  · rfl

/-- The first scope at its threshold trips. -/
theorem countWake_of_full {scopes : List Scope} {scope : Scope}
    (hfirst : (scopes.find? fun scope =>
      decide ((r scope.window).count config.rounding config.window now = scope.threshold)) =
        some scope) :
    (countWake config now scopes r).1 =
        ⟨.tripped, scope.name, scope.display, scope.threshold + 1⟩ ∧
      (countWake config now scopes r).2.standing config.rounding config.window now =
        Function.update (r.standing config.rounding config.window now) scope.window
          (.cooling (config.rounding.add (.fin now) config.cooldown)) := by
  unfold countWake
  rw [hfirst]
  exact ⟨rfl, standing_update ..⟩

end Reference

/-! ## 3. Where the two part -/

namespace Standings

variable {config : BreakerConfig} {now : ℚ} {s : Standings} {call : Call}

/-- What a call whose stream is full comes to, when neither scope is cooling down any more. -/
def Lopsided (config : BreakerConfig) (s : Standings) (call : Call) : Prop :=
  ∃ stream ts ts', call.streamKey = some stream ∧ 0 < config.streamMaxWakes ∧
    s (.stream call.agentKey stream) = .counting ts ∧ config.streamMaxWakes ≤ ts.length ∧
    s (.agent call.agentKey) = .counting ts' ∧ ts'.length < config.maxWakes

/-- The scopes of a call that names a stream, where streams are limited. -/
theorem scopes_of_stream {stream : String} (hstream : call.streamKey = some stream)
    (hpos : 0 < config.streamMaxWakes) :
    call.scopes config = [⟨"agent", .agent call.agentKey, config.maxWakes, call.agentKey⟩,
      ⟨"stream", .stream call.agentKey stream, config.streamMaxWakes, stream⟩] := by
  simp [Call.scopes, WakeRateBreaker.scopes, WakeRateBreaker.new, hstream, hpos]

/-- A first pass over one scope that leaves it counting something left all as it was. -/
theorem checkCooldowns_singleton {scope : Scope} {s s' : Standings} {t : ℚ} {ts : List ℚ}
    (h : checkCooldowns now [scope] s = (none, s')) (hts : s' scope.window = .counting (t :: ts)) :
    s' = s := by
  unfold checkCooldowns at h
  split at h
  · split at h
    · cases h
    · cases h
      rw [Function.update_self] at hts
      cases hts
  · cases h
    rfl

theorem streamFull_iff : s.StreamFull config call ↔
    ∃ s', checkCooldowns call.now (call.scopes config) s = (none, s') ∧
      s'.Lopsided config call := by
  constructor
  · rintro ⟨stream, ts, hstream, hpos, hts, hfull, hagent⟩
    rw [scopes_of_stream hstream hpos]
    cases ha : s (.agent call.agentKey) with
    | counting ts' =>
      rw [ha] at hagent
      exact ⟨s, by simp [checkCooldowns, ha, hts],
        stream, ts, ts', hstream, hpos, hts, hfull, ha, hagent⟩
    | cooling until_ =>
      rw [ha] at hagent
      have hts' : Function.update s (.agent call.agentKey) (.counting [])
          (.stream call.agentKey stream) = .counting ts := by
        rw [Function.update_of_ne (by simp)]
        exact hts
      exact ⟨_, by simp [checkCooldowns, ha, hagent, hts],
        stream, ts, [], hstream, hpos, hts', hfull, Function.update_self .., config.maxWakes_pos⟩
  · rintro ⟨s', hcheck, stream, ts, ts', hstream, hpos, hts, hfull, hagent, hroom⟩
    rw [scopes_of_stream hstream hpos] at hcheck
    obtain ⟨t, rest, rfl⟩ : ∃ t rest, ts = t :: rest := by
      cases ts with
      | nil => exact absurd hfull (not_le.mpr hpos)
      | cons t rest => exact ⟨t, rest, rfl⟩
    unfold checkCooldowns at hcheck
    cases ha : s (.agent call.agentKey) with
    | counting ts₀ =>
      simp only [ha] at hcheck
      obtain rfl := checkCooldowns_singleton hcheck hts
      refine ⟨stream, _, hstream, hpos, hts, hfull, ?_⟩
      rw [hagent]
      exact hroom
    | cooling until_ =>
      simp only [ha] at hcheck
      split at hcheck
      · cases hcheck
      · next hover =>
        obtain rfl := checkCooldowns_singleton hcheck hts
        rw [Function.update_of_ne (by simp)] at hts
        refine ⟨stream, _, hstream, hpos, hts, hfull, ?_⟩
        rw [ha]
        simpa using hover

/-- The second pass counts as described exactly if it is not that the stream alone is full. -/
theorem recordWake_counts_iff {r : Reference}
    (hwithin : (r.standing config.rounding config.window now).Within config now)
    (hcounting : ∀ scope ∈ call.scopes config, ∃ ts,
      r.standing config.rounding config.window now scope.window = .counting ts) :
    ((recordWake config now (call.scopes config) (r.standing config.rounding config.window now)).1 =
        (r.countWake config now (call.scopes config)).1 ∧
      (recordWake config now (call.scopes config)
        (r.standing config.rounding config.window now)).2 =
        (r.countWake config now (call.scopes config)).2.standing config.rounding config.window
          now) ↔
      ¬ (r.standing config.rounding config.window now).Lopsided config call := by
  obtain ⟨tsA, htsA⟩ := hcounting _ List.mem_cons_self
  have hleA : tsA.length ≤ config.maxWakes := (hwithin _ tsA htsA).1
  rcases hleA.eq_or_lt with hfullA | hroomA
  · -- the agent is full: it trips either way
    have hfirst : ((call.scopes config).find? fun scope =>
        decide ((r scope.window).count config.rounding config.window now = scope.threshold)) =
          some ⟨"agent", .agent call.agentKey, config.maxWakes, call.agentKey⟩ := by
      refine List.find?_cons_of_pos ?_
      rw [decide_eq_true_eq, Reference.count_of_standing htsA]
      exact hfullA
    obtain ⟨hout, hstand⟩ := Reference.countWake_of_full hfirst
    rw [hout, hstand]
    refine iff_of_true ?_ ?_
    · have hrecord := @recordWake_of_full config now _ _ (call.scopes config).tail _ htsA hfullA
      exact ⟨congrArg Prod.fst hrecord, congrArg Prod.snd hrecord⟩
    · rintro ⟨_, _, tsA', _, _, _, _, htsA', hroomA⟩
      rw [htsA] at htsA'
      cases htsA'
      omega
  · by_cases hfull : (r.standing config.rounding config.window now).Lopsided config call
    · -- the stream alone is full: by then the wake stands in the agent's window
      refine iff_of_false ?_ (not_not.mpr hfull)
      rintro ⟨-, hstand⟩
      obtain ⟨stream, tsS, _, hstream, hpos, htsS, hfullS, -, -⟩ := hfull
      have hscopes := scopes_of_stream hstream hpos
      have hS : tsS.length = config.streamMaxWakes := le_antisymm (hwithin _ tsS htsS).1 hfullS
      have hfirst : ((call.scopes config).find? fun scope =>
          decide ((r scope.window).count config.rounding config.window now = scope.threshold)) =
            some ⟨"stream", .stream call.agentKey stream, config.streamMaxWakes, stream⟩ := by
        rw [hscopes, List.find?_cons_of_neg, List.find?_cons_of_pos]
        · rw [decide_eq_true_eq, Reference.count_of_standing htsS]
          exact hS
        · rw [decide_eq_true_eq, Reference.count_of_standing htsA]
          exact hroomA.ne
      rw [(Reference.countWake_of_full hfirst).2, hscopes] at hstand
      have hagent := congrFun hstand (.agent call.agentKey)
      unfold recordWake at hagent
      simp only [htsA] at hagent
      rw [if_neg (by omega), recordWake_frame (by simp), Function.update_self,
        Function.update_of_ne (by simp), htsA] at hagent
      -- the window is not lost in the rounding: the stream counts a wake that has not aged
      obtain ⟨t, ht⟩ := List.exists_mem_of_length_pos (hpos.trans_le hfullS)
      have hfresh : aged config.rounding config.window now now = false := by
        by_contra haged
        have hold := aged_older (by simpa using haged) ((hwithin _ tsS htsS).2 t ht)
        rw [Reference.recent_of_standing htsS ht] at hold
        cases hold
      simp [recent, hfresh] at hagent
    · -- there is room on every scope of the call
      refine iff_of_true ?_ hfull
      have hroom : ∀ scope ∈ call.scopes config, ∃ ts,
          r.standing config.rounding config.window now scope.window = .counting ts ∧
            ts.length < scope.threshold := by
        intro scope hmem
        obtain ⟨ts, hts⟩ := hcounting scope hmem
        refine ⟨ts, hts, ?_⟩
        have hle : ts.length ≤ scope.threshold := by
          rw [threshold_of_mem_scopes hmem]
          exact (hwithin _ ts hts).1
        refine lt_of_le_of_ne hle fun heq => ?_
        rcases mem_scopes.mp hmem with rfl | ⟨stream, hstream, hpos, rfl⟩
        · rw [htsA] at hts
          cases hts
          exact hroomA.ne heq
        · exact hfull ⟨stream, ts, tsA, hstream, hpos, hts, heq.ge, htsA, hroomA⟩
      obtain ⟨hout, hstand⟩ := Reference.countWake_of_room hroom
      rw [hout, hstand, recordWake_of_room (scopes_distinct config call) hroom]
      exact ⟨rfl, rfl⟩

/-- **A call resolves, and leaves every scope, as described** exactly if it does not find its
stream full while its agent has room. -/
theorem admitWake_counts_iff {r : Reference}
    (hwithin : (r.standing config.rounding config.window call.now).Within config call.now) :
    ((admitWake config (call.scopes config) call.now
        (r.standing config.rounding config.window call.now)).1 =
        (r.admitWake config (call.scopes config) call.now).1 ∧
      (admitWake config (call.scopes config) call.now
        (r.standing config.rounding config.window call.now)).2 =
        (r.admitWake config (call.scopes config) call.now).2.standing config.rounding config.window
          call.now) ↔
      ¬ (r.standing config.rounding config.window call.now).StreamFull config call := by
  have hfirst := @Reference.checkCooldowns_standing config.rounding config.window call.now
    (call.scopes config) r
  have hkept : (checkCooldowns call.now (call.scopes config)
      (r.standing config.rounding config.window call.now)).2.Within config call.now :=
    checkCooldowns_within hwithin
  rw [streamFull_iff]
  unfold admitWake Reference.admitWake
  rcases hcheck : r.checkCooldowns call.now (call.scopes config) with ⟨_ | outcome, r'⟩
  · rw [hcheck] at hfirst
    rw [hfirst] at hkept
    simp only [hfirst]
    have hcounting := (WakeRateBreaker.counting_of_checkCooldowns _ _ hfirst).2
    rw [recordWake_counts_iff hkept hcounting]
    refine not_congr ⟨fun h => ⟨_, rfl, h⟩, ?_⟩
    rintro ⟨s', hs', h⟩
    cases hs'
    exact h
  · rw [hcheck] at hfirst
    simp only [hfirst]
    refine iff_of_true ⟨trivial, trivial⟩ ?_
    rintro ⟨s', hs', -⟩
    cases hs'

end Standings

/-! ## 4. A run -/

/-- Along a run every call resolves as described, and leaves every scope counting as described. -/
def CountsAdmitted (interval : ℕ) : WakeRateBreaker → Reference → List Call → Prop
  | _, _, [] => True
  | b, r, call :: calls =>
    let step := b.admitEvery interval call.agentKey call.streamKey call.now
    let described := r.admitWake b.config (call.scopes b.config) call.now
    (step.1 = described.1 ∧
      step.2.standing call.now = described.2.standing b.config.rounding b.config.window call.now) ∧
      CountsAdmitted interval step.2 described.2 calls

/-- No call of a run finds its stream full while its agent has room. -/
def NoStreamFull (interval : ℕ) : WakeRateBreaker → List Call → Prop
  | _, [] => True
  | b, call :: calls =>
    ¬ b.StreamFull call ∧
      NoStreamFull interval (b.admitEvery interval call.agentKey call.streamKey call.now).2 calls

theorem countsAdmitted_iff (interval : ℕ) : ∀ (calls : List Call) (b : WakeRateBreaker)
    (r : Reference) {clock : ℚ}, b.Ordered clock → (b.standing clock).Within b.config clock →
      b.standing clock = r.standing b.config.rounding b.config.window clock →
      (∀ call ∈ calls, clock ≤ call.now) → Nondecreasing calls →
        (CountsAdmitted interval b r calls ↔ NoStreamFull interval b calls)
  | [], _, _, _, _, _, _, _, _ => Iff.rfl
  | call :: calls, b, r, clock, hordered, hwithin, hr, hclock, hcalls => by
    obtain ⟨hnow, -⟩ := List.forall_mem_cons.mp hclock
    obtain ⟨hlater, hrest⟩ := List.pairwise_cons.mp hcalls
    obtain ⟨hstep, hordered', hconfig⟩ := WakeRateBreaker.admitEvery_standing hordered hnow interval
      call.agentKey call.streamKey
    have hnow' : b.standing call.now = r.standing b.config.rounding b.config.window call.now := by
      rw [WakeRateBreaker.standing_later b hnow, hr, Reference.standing_later r hnow]
    have hwithin' :
        (r.standing b.config.rounding b.config.window call.now).Within b.config call.now := by
      rw [← hnow', WakeRateBreaker.standing_later b hnow]
      exact hwithin.later hnow
    have hscopes : b.scopes call.agentKey call.streamKey = call.scopes b.config := rfl
    rw [hscopes, hr, Reference.standing_later r hnow] at hstep
    have hcall := Standings.admitWake_counts_iff hwithin'
    have hafter := Standings.admitWake_within hwithin'
    rw [← hstep] at hcall hafter
    unfold CountsAdmitted NoStreamFull WakeRateBreaker.StreamFull
    rw [hnow', ← hcall]
    refine and_congr_right fun ⟨_, hstands⟩ => ?_
    rw [← hconfig] at hafter
    refine countsAdmitted_iff interval calls _ _ hordered' hafter ?_ hlater hrest
    rw [hconfig]
    exact hstands

/-- **The wakes a scope counts.**  Along a run from the start every call resolves as described,
and leaves every scope counting just the wakes admitted on it since its last reset, exactly if no
call finds its stream full while its agent has room. -/
theorem counts_admitted_iff (config : BreakerConfig) (interval : ℕ) (calls : List Call)
    (h : Nondecreasing calls) :
    CountsAdmitted interval (WakeRateBreaker.new config) Reference.fresh calls ↔
      NoStreamFull interval (WakeRateBreaker.new config) calls := by
  cases calls with
  | nil => exact Iff.rfl
  | cons call calls =>
    have hclock : ∀ call' ∈ call :: calls, call.now ≤ call'.now :=
      List.forall_mem_cons.mpr ⟨le_rfl, (List.pairwise_cons.mp h).1⟩
    exact countsAdmitted_iff interval _ _ _ (WakeRateBreaker.new_ordered config call.now)
      (Standings.fresh_within config call.now) rfl hclock h

/-- Max's wakes, one on a timeline and the others on none. -/
theorem counts_admitted_iff_max :
    CountsAdmitted gcInterval (WakeRateBreaker.new narrow) Reference.fresh
      [⟨"max", some "t1", 0⟩, ⟨"max", none, 1⟩, ⟨"max", none, 2⟩] := by
  refine (counts_admitted_iff narrow gcInterval _ (by decide +kernel)).mpr
    ⟨?_, nofun, nofun, trivial⟩
  -- the timeline has counted nothing yet
  rintro ⟨stream, ts, -, hpos, hts, hfull, -⟩
  cases hts
  exact absurd hfull (not_le.mpr hpos)

end BasecradleRouter.Breaker
