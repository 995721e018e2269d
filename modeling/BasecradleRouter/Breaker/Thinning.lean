/-
# Fewer calls

Where a breaker admits every call, it admits every call that is left when some are taken out.  A
scope that only counts is `Thinner` than another if it counts fewer of the same instants; a call
admitted on the fuller standings is admitted on the thinner ones, and leaves them thinner
(`Thinner.admitWake`), and a call made on the fuller ones alone leaves them fuller still
(`Thinner.admitWake_left`).

A breaker at rest admits every call, and is at rest again when the call has aged
(`admitWake_resting`).
-/
import BasecradleRouter.Breaker.Isolation

namespace BasecradleRouter.Breaker

open BasecradleRouter.Lib

/-- What the breaker says of a call it admits. -/
def BreakerOutcome.clear : BreakerOutcome := ⟨.admitted, "", "", 0⟩

/-! ## 1. Standings -/

namespace Standings

/-- Every scope counts, and counts no instant that the fuller standings do not. -/
def Thinner (s s' : Standings) : Prop :=
  ∀ k, ∃ ts ts', s k = .counting ts ∧ s' k = .counting ts' ∧ ts'.Sublist ts

variable {s s' : Standings} {config : BreakerConfig} {rounding : Rounding} {window : PyFloat}
  {now : ℚ}

theorem thinner_fresh : Thinner fresh fresh :=
  fun _ => ⟨[], [], rfl, rfl, List.Sublist.refl []⟩

theorem Thinner.later (h : Thinner s s') :
    Thinner (s.later rounding window now) (s'.later rounding window now) := by
  intro k
  obtain ⟨ts, ts', hs, hs', hsub⟩ := h k
  refine ⟨recent rounding window now ts, recent rounding window now ts', ?_, ?_,
    recent_mono hsub⟩
  · rw [Standings.later, hs, Standing.later]
  · rw [Standings.later, hs', Standing.later]

/-- One more instant on both. -/
theorem Thinner.update (h : Thinner s s') {k : ScopeKey} {ts ts' : List ℚ}
    (hsub : ts'.Sublist ts) :
    Thinner (Function.update s k (.counting ts)) (Function.update s' k (.counting ts')) := by
  intro k'
  rw [Function.update_apply, Function.update_apply]
  split
  · exact ⟨ts, ts', rfl, rfl, hsub⟩
  · exact h k'

/-- More instants on the fuller one. -/
theorem Thinner.update_left (h : Thinner s s') {k : ScopeKey} {ts : List ℚ}
    (hs : s k = .counting ts) (more : List ℚ) :
    Thinner (Function.update s k (.counting (ts ++ more))) s' := by
  intro k'
  rw [Function.update_apply]
  split
  · next heq =>
    obtain ⟨us, us', hus, hus', hsub⟩ := h k
    rw [hs, Standing.counting.injEq] at hus
    subst hus
    rw [heq]
    exact ⟨ts ++ more, us', rfl, hus', hsub.trans (List.sublist_append_left ts more)⟩
  · exact h k'

/-- No scope is cooling down, so the first pass changes nothing. -/
theorem checkCooldowns_counting {scopes : List Scope} (h : ∀ k, ∃ ts, s k = .counting ts) :
    checkCooldowns now scopes s = (none, s) := by
  induction scopes with
  | nil => rfl
  | cons scope rest ih =>
    obtain ⟨ts, hts⟩ := h scope.window
    unfold checkCooldowns
    rw [hts]
    exact ih

theorem Thinner.admitWake_eq (h : Thinner s s') (config : BreakerConfig) (now : ℚ)
    (scopes : List Scope) :
    admitWake config scopes now s = recordWake config now scopes s ∧
      admitWake config scopes now s' = recordWake config now scopes s' := by
  have hs : ∀ k, ∃ ts, s k = .counting ts := fun k => by
    obtain ⟨ts, -, hts, -⟩ := h k
    exact ⟨ts, hts⟩
  have hs' : ∀ k, ∃ ts, s' k = .counting ts := fun k => by
    obtain ⟨-, ts', -, hts', -⟩ := h k
    exact ⟨ts', hts'⟩
  unfold admitWake
  rw [checkCooldowns_counting hs, checkCooldowns_counting hs']
  exact ⟨rfl, rfl⟩

/-- A wake that trips no scope of the fuller standings trips none of the thinner. -/
theorem Thinner.recordWake {scopes : List Scope} (h : Thinner s s')
    (hpass : (recordWake config now scopes s).1.admitted = true) :
    (Standings.recordWake config now scopes s).1 = .clear ∧
      (Standings.recordWake config now scopes s').1 = .clear ∧
      Thinner (Standings.recordWake config now scopes s).2
        (Standings.recordWake config now scopes s').2 := by
  induction scopes generalizing s s' with
  | nil => exact ⟨rfl, rfl, h⟩
  | cons scope rest ih =>
    obtain ⟨ts, ts', hs, hs', hsub⟩ := h scope.window
    have hle := hsub.length_le
    unfold Standings.recordWake at hpass ⊢
    rw [hs] at hpass ⊢
    rw [hs']
    dsimp only at hpass ⊢
    split at hpass
    · cases hpass
    · next hroom =>
      have hroom' : ¬ scope.threshold < ts'.length + 1 := by omega
      rw [if_neg hroom, if_neg hroom']
      exact ih (h.update (hsub.append_right _)) hpass

/-- A wake on the fuller standings alone. -/
theorem Thinner.recordWake_left {scopes : List Scope} (h : Thinner s s')
    (hpass : (Standings.recordWake config now scopes s).1.admitted = true) :
    Thinner (Standings.recordWake config now scopes s).2 s' := by
  induction scopes generalizing s with
  | nil => exact h
  | cons scope rest ih =>
    obtain ⟨ts, -, hs, -, -⟩ := h scope.window
    unfold Standings.recordWake at hpass ⊢
    rw [hs] at hpass ⊢
    dsimp only at hpass ⊢
    split at hpass
    · cases hpass
    · next hroom =>
      rw [if_neg hroom]
      exact ih (h.update_left hs _) hpass

end Standings

/-! ## 2. Breakers -/

namespace WakeRateBreaker

/-- Two breakers at the clock reading `clock`, the second of which was asked less. -/
structure Thinner (clock : ℚ) (b b' : WakeRateBreaker) : Prop where
  config : b.config = b'.config
  ordered : b.Ordered clock
  ordered' : b'.Ordered clock
  standing : Standings.Thinner (b.standing clock) (b'.standing clock)

variable {b b' : WakeRateBreaker} {clock now : ℚ} {agentKey : String} {streamKey : Option String}

theorem thinner_new (config : BreakerConfig) (clock : ℚ) :
    Thinner clock (new config) (new config) :=
  ⟨rfl, new_ordered config clock, new_ordered config clock, Standings.thinner_fresh⟩

theorem Thinner.later (h : Thinner clock b b') (hnow : clock ≤ now) : Thinner now b b' := by
  refine ⟨h.config, h.ordered.later hnow, h.ordered'.later hnow, ?_⟩
  rw [standing_later b hnow, standing_later b' hnow, h.config]
  exact h.standing.later

/-- A call on the standings at its own instant. -/
theorem admitWake_standing (h : b.Ordered now) (agentKey : String) (streamKey : Option String) :
    ((b.admitWake agentKey streamKey now).1, (b.admitWake agentKey streamKey now).2.standing now) =
      Standings.admitWake b.config (b.scopes agentKey streamKey) now (b.standing now) ∧
    (b.admitWake agentKey streamKey now).2.Ordered now ∧
    (b.admitWake agentKey streamKey now).2.config = b.config := by
  have hcall := admitEvery_standing h le_rfl gcInterval agentKey streamKey
  rwa [← standing_later b le_rfl] at hcall

/-- **A call that the fuller breaker admits, the thinner one admits**, and they stay as they
were to each other. -/
theorem Thinner.admitWake (h : Thinner now b b')
    (hpass : (b.admitWake agentKey streamKey now).1.admitted = true) :
    (b.admitWake agentKey streamKey now).1 = .clear ∧
      (b'.admitWake agentKey streamKey now).1 = .clear ∧
      Thinner now (b.admitWake agentKey streamKey now).2
        (b'.admitWake agentKey streamKey now).2 := by
  obtain ⟨hcall, hordered, hconfig⟩ := admitWake_standing h.ordered agentKey streamKey
  obtain ⟨hcall', hordered', hconfig'⟩ := admitWake_standing h.ordered' agentKey streamKey
  have hscopes : b'.scopes agentKey streamKey = b.scopes agentKey streamKey := by
    unfold scopes
    rw [h.config]
  obtain ⟨heq, heq'⟩ := h.standing.admitWake_eq b.config now (b.scopes agentKey streamKey)
  rw [heq] at hcall
  rw [hscopes, ← h.config, heq'] at hcall'
  obtain ⟨houtcome, hstanding⟩ := Prod.ext_iff.mp hcall
  obtain ⟨houtcome', hstanding'⟩ := Prod.ext_iff.mp hcall'
  dsimp only at houtcome hstanding houtcome' hstanding'
  rw [houtcome] at hpass
  obtain ⟨hclear, hclear', hthinner⟩ := h.standing.recordWake hpass
  refine ⟨houtcome.trans hclear, houtcome'.trans hclear', ?_, hordered, hordered', ?_⟩
  · rw [hconfig, hconfig', h.config]
  · rw [hstanding, hstanding']
    exact hthinner

/-- A call that only the fuller breaker is asked. -/
theorem Thinner.admitWake_left (h : Thinner now b b')
    (hpass : (b.admitWake agentKey streamKey now).1.admitted = true) :
    Thinner now (b.admitWake agentKey streamKey now).2 b' := by
  obtain ⟨hcall, hordered, hconfig⟩ := admitWake_standing h.ordered agentKey streamKey
  obtain ⟨heq, -⟩ := h.standing.admitWake_eq b.config now (b.scopes agentKey streamKey)
  rw [heq] at hcall
  obtain ⟨houtcome, hstanding⟩ := Prod.ext_iff.mp hcall
  dsimp only at houtcome hstanding
  rw [houtcome] at hpass
  refine ⟨hconfig.trans h.config, hordered, h.ordered', ?_⟩
  rw [hstanding]
  exact h.standing.recordWake_left hpass

end WakeRateBreaker

/-! ## 3. A breaker at rest -/

/-- Standings that count nothing but the reading itself. -/
def Standings.Only (now : ℚ) (s : Standings) : Prop :=
  ∀ k, ∃ ts, s k = .counting ts ∧ ∀ t ∈ ts, t = now

/-- A wake on scopes that have counted nothing is admitted, and counts nothing but itself. -/
theorem Standings.recordWake_resting {config : BreakerConfig} {now : ℚ} :
    ∀ {scopes : List Scope} {s : Standings}, (scopes.map Scope.window).Nodup →
      (∀ scope ∈ scopes, s scope.window = .counting [] ∧ 1 ≤ scope.threshold) → s.Only now →
        (recordWake config now scopes s).1.admitted = true ∧
          (recordWake config now scopes s).2.Only now
  | [], _, _, _, h => ⟨rfl, h⟩
  | scope :: rest, s, hdistinct, hscopes, h => by
    rw [List.map_cons, List.nodup_cons] at hdistinct
    obtain ⟨⟨hs, hpos⟩, hrest⟩ := List.forall_mem_cons.mp hscopes
    unfold recordWake
    rw [hs]
    dsimp only [List.length_nil]
    rw [if_neg (by omega)]
    refine recordWake_resting hdistinct.2 (fun scope' hmem => ⟨?_, (hrest scope' hmem).2⟩) ?_
    · rw [Function.update_of_ne]
      · exact (hrest scope' hmem).1
      · exact fun heq => hdistinct.1 (heq ▸ List.mem_map_of_mem hmem)
    · intro k
      rw [Function.update_apply]
      split
      · exact ⟨_, rfl, fun t ht => List.mem_singleton.mp (mem_recent.mp ht).1⟩
      · exact h k

/-- **A breaker at rest admits**, and is at rest again once the wake has aged. -/
theorem WakeRateBreaker.admitWake_resting {b : WakeRateBreaker} {now : ℚ} {agentKey : String}
    {streamKey : Option String} (hordered : b.Ordered now) (h : b.standing now = .fresh) :
    (b.admitWake agentKey streamKey now).1.admitted = true ∧
      ∀ later, now ≤ later → aged b.config.rounding b.config.window later now = true →
        (b.admitWake agentKey streamKey now).2.standing later = .fresh := by
  obtain ⟨hcall, -, hconfig⟩ := admitWake_standing hordered agentKey streamKey
  have hscopes : b.scopes agentKey streamKey =
      Call.scopes b.config ⟨agentKey, streamKey, now⟩ := rfl
  have hpass : Standings.admitWake b.config (b.scopes agentKey streamKey) now Standings.fresh =
      Standings.recordWake b.config now (b.scopes agentKey streamKey) Standings.fresh :=
    (Standings.thinner_fresh.admitWake_eq b.config now _).1
  rw [h, hpass, hscopes] at hcall
  have hfresh : Standings.fresh.Only now := fun k => ⟨[], rfl, nofun⟩
  obtain ⟨hadmitted, honly⟩ := @Standings.recordWake_resting b.config now _ _
    (scopes_distinct b.config ⟨agentKey, streamKey, now⟩)
    (fun scope hmem => ⟨rfl, threshold_pos hmem⟩) hfresh
  obtain ⟨houtcome, hleft⟩ := Prod.ext_iff.mp hcall
  dsimp only at houtcome hleft
  rw [← houtcome] at hadmitted
  rw [← hleft] at honly
  refine ⟨hadmitted, fun later hlater haged => ?_⟩
  rw [standing_later _ hlater, hconfig]
  funext k
  obtain ⟨ts, hts, hall⟩ := honly k
  rw [Standings.later, hts]
  refine congrArg Standing.counting (recent_eq_nil.mpr fun t ht => ?_)
  rw [hall t ht]
  exact haged

/-- Two calls at one instant on a breaker at rest. -/
theorem WakeRateBreaker.admitWake_twice {b : WakeRateBreaker} {now : ℚ}
    {agentKey agentKey' : String} {streamKey streamKey' : Option String}
    (hordered : b.Ordered now) (h : b.standing now = .fresh) :
    ((b.admitWake agentKey streamKey now).2.admitWake agentKey' streamKey' now).1 =
      (Standings.admitWake b.config (Call.scopes b.config ⟨agentKey', streamKey', now⟩) now
        (Standings.admitWake b.config (Call.scopes b.config ⟨agentKey, streamKey, now⟩) now
          .fresh).2).1 := by
  obtain ⟨hfirst, hordered', hconfig⟩ := admitWake_standing hordered agentKey streamKey
  obtain ⟨hsecond, -, -⟩ := admitWake_standing hordered' agentKey' streamKey'
  have hscopes : (b.admitWake agentKey streamKey now).2.scopes agentKey' streamKey' =
      Call.scopes b.config ⟨agentKey', streamKey', now⟩ := by
    rw [← hconfig]
    rfl
  have hleft : (b.admitWake agentKey streamKey now).2.standing now =
      (Standings.admitWake b.config (Call.scopes b.config ⟨agentKey, streamKey, now⟩) now
        .fresh).2 := by
    rw [h] at hfirst
    exact congrArg Prod.snd hfirst
  rw [hconfig, hscopes, hleft] at hsecond
  exact congrArg Prod.fst hsecond

end BasecradleRouter.Breaker
