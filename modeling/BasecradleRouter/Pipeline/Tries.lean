/-
# The attempts of one wake

`tries` reads off the readings, without any state, how the retry of one wake goes: how often
the waker is called, what is logged and slept between the calls, and what comes out.
`withRetry_run` is the one place where the retry loop is executed; everything about it after
that is read off `tries`.
-/
import BasecradleRouter.Pipeline.Execute

namespace BasecradleRouter.Pipeline

open BasecradleRouter.Lib BasecradleRouter.Logfmt BasecradleRouter.Models BasecradleRouter.Wake
open BasecradleRouter.Concurrency

/-- How the attempts of a wake go: the number of calls of the waker, what happened along the
way, and what the retry comes back with. -/
structure Tries where
  launched : ℕ
  effects : List Effect
  result : Except Raised WakeResult

/-- How long the `k`-th attempt took. -/
def duration (r : Readings) (k : ℕ) : ℚ := (r.attempt k).ended - (r.attempt k).started

/-- The message of a failure that is retried. -/
def transient : Raised → Option String
  | .wakeError message => some message
  | .transientError message => some message
  | _ => none

/-- What an attempt raises as far as the retry is concerned: a `WakeError` as a
`TransientError`, anything else as it is. -/
def asTransient : Raised → Raised
  | .wakeError message => .transientError message
  | exc => exc

/-- The line logged for a failed attempt that a retry follows. -/
def retryLine (agent : Agent) (event : Event) (r : Readings) (attempts k : ℕ) (message : String) :
    Line :=
  ⟨"wake_retry", none, ("attempt", .str (toString k ++ "/" ++ toString attempts)) ::
    who agent event ++ [("duration", .str (seconds (duration r k))), ("error", .str message)]⟩

/-- The attempts from the `k`-th on, with `left` to go. -/
def triesFrom (agent : Agent) (event : Event) (r : Readings) (attempts : ℕ) : ℕ → ℕ → Tries
  | 0, k => ⟨k - 1, [],
      .error (.other "with_retry exhausted its loop without returning or raising")⟩
  | left + 1, k =>
    match (r.attempt k).outcome with
    | .ok result => ⟨k, [.launch k], .ok result⟩
    | .error exc =>
      match transient exc with
      | none => ⟨k, [.launch k], .error exc⟩
      | some message =>
        if attempts ≤ k then
          ⟨k, [.launch k], .error (.retryExhausted attempts (some message))⟩
        else
          let tried := [.launch k, .logged (retryLine agent event r attempts k message), .slept k]
          match r.sleep k with
          | some exc => ⟨k, tried, .error exc⟩
          | none =>
            let rest := triesFrom agent event r attempts left (k + 1)
            ⟨rest.launched, tried ++ rest.effects, rest.result⟩

/-- The attempts of one delivery's wake. -/
def tries (p : Pipeline) (agent : Agent) (event : Event) (r : Readings) : Tries :=
  if p.attempts event < 1 then
    ⟨0, [], .error (.other ("attempts must be >= 1, got " ++ toString (p.attempts event)))⟩
  else
    triesFrom agent event r (p.attempts event) (p.attempts event) 1

/-! ## 1. Running the loop -/

/-- The world after the waker was last called for the `k`-th time. -/
def World.tried (W : World) (r : Readings) (k : ℕ) (effects : List Effect) : World :=
  (W.addEffects effects).setLocals
    (if k = 0 then W.locals else
      { W.locals with lastDuration := duration r k, lastStartedAt := some (r.attempt k).now })

theorem tried_eq (W : World) (r : Readings) {k : ℕ} (hk : k ≠ 0) (e : List Effect) :
    W.tried r k e = (W.addEffects e).setLocals
      ⟨duration r k, some (r.attempt k).now, W.locals.verdict⟩ := by
  simp [World.tried, hk]

theorem tried_tried (W : World) (r : Readings) (k k' : ℕ) (e e' : List Effect) (h : k' ≠ 0) :
    (W.tried r k e).tried r k' e' = W.tried r k' (e ++ e') := by
  by_cases hk : k = 0 <;>
    simp [World.tried, h, hk, World.setLocals_addEffects, World.addEffects_addEffects,
      World.setLocals_setLocals]

/-- One attempt. -/
theorem attempt_run (r : Readings) (k : ℕ) (hk : k ≠ 0) (W : World) :
    (attempt r k).run W =
      ((match (r.attempt k).outcome with
        | .ok result => .ok result
        | .error exc => .error (asTransient exc)), W.tried r k [.launch k]) := by
  simp only [attempt, emit, World.tried, duration, hk, Py.run_bind, Py.run_change,
    Py.run_finallyDo, Py.run_handle, Py.run_ofExcept, if_false]
  cases (r.attempt k).outcome with
  | ok result => rfl
  | error exc => cases exc <;> rfl

theorem onRetry_run (agent : Agent) (event : Event) (r : Readings) (attempts k : ℕ)
    (message : String) (hk : k ≠ 0) (W : World) (e : List Effect) :
    (onRetry agent event attempts k (.transientError message)).run (W.tried r k e) =
      (.ok (), W.tried r k (e ++ [.logged (retryLine agent event r attempts k message)])) := by
  have hd : (W.tried r k e).locals.lastDuration = duration r k := by
    simp [World.tried, hk]
  simp only [onRetry, Py.run_bind, Py.run_look, hd]
  simp only [emit, Py.run_change, World.tried, World.setLocals_addEffects,
    World.addEffects_addEffects]
  rfl

theorem backoff_run (r : Readings) (k : ℕ) (W : World) (e : List Effect) :
    (backoff r k).run (W.tried r k e) =
      ((r.sleep k).elim (.ok ()) .error, W.tried r k (e ++ [.slept k])) := by
  simp only [backoff, emit, World.tried, Py.run_bind, Py.run_change, Py.run_ofExcept,
    World.setLocals_addEffects, World.addEffects_addEffects]

theorem asTransient_of_none {exc : Raised} (h : transient exc = none) : asTransient exc = exc := by
  cases exc <;> first | rfl | exact absurd h (by simp [transient])

theorem asTransient_of_some {exc : Raised} {message : String} (h : transient exc = some message) :
    asTransient exc = .transientError message := by
  cases exc with
  | wakeError m => exact congrArg _ (Option.some.inj h)
  | transientError m => exact congrArg _ (Option.some.inj h)
  | wakeStopped m signal exitCode => exact absurd h (by simp [transient])
  | retryExhausted n cause => exact absurd h (by simp [transient])
  | other text => exact absurd h (by simp [transient])

/-- What the loop does with an attempt that raised: a transient failure is retried or exhausts
the bound, anything else goes straight up. -/
theorem retryFrom_raised {agent : Agent} {event : Event} {r : Readings} {attempts left k : ℕ}
    {exc : Raised} (hk : k ≠ 0) (hexc : (r.attempt k).outcome = .error exc) (W : World) :
    (retryFrom attempts (attempt r) (backoff r) (onRetry agent event attempts) (left + 1) k).run W =
      match transient exc with
      | none => (.error exc, W.tried r k [.launch k])
      | some message =>
        if attempts ≤ k then
          (.error (.retryExhausted attempts (some message)), W.tried r k [.launch k])
        else
          let W' := W.tried r k
            [.launch k, .logged (retryLine agent event r attempts k message), .slept k]
          match r.sleep k with
          | some exc => (.error exc, W')
          | none => (retryFrom attempts (attempt r) (backoff r) (onRetry agent event attempts) left
              (k + 1)).run W' := by
  simp only [retryFrom, Py.run_handle, attempt_run r k hk W, hexc]
  cases ht : transient exc with
  | none =>
    rw [asTransient_of_none ht]
    cases exc <;> first | rfl | exact absurd ht (by simp [transient])
  | some message =>
    rw [asTransient_of_some ht]
    simp only [Py.run_ite]
    split
    · rfl
    · simp only [Py.run_bind, onRetry_run agent event r attempts k message hk, backoff_run,
        List.cons_append, List.nil_append]
      cases r.sleep k <;> rfl

/-- The waker is called at least until the attempt the loop stands at. -/
theorem le_launched (agent : Agent) (event : Event) (r : Readings) (attempts : ℕ) :
    ∀ left k, attempts + 1 = k + left → left ≠ 0 →
      k ≤ (triesFrom agent event r attempts left k).launched
  | 0, _, _, hleft => absurd rfl hleft
  | left + 1, k, hsum, _ => by
    unfold triesFrom
    split
    · exact le_rfl
    · split
      · exact le_rfl
      · split
        · exact le_rfl
        · rename_i hmore
          simp only
          split
          · exact le_rfl
          · have hrest := le_launched agent event r attempts left (k + 1) (by omega) (by omega)
            exact (Nat.le_succ k).trans hrest

/-- The retry loop, executed. -/
theorem retryFrom_run (agent : Agent) (event : Event) (r : Readings) (attempts : ℕ) :
    ∀ left k (W : World), k ≠ 0 → attempts + 1 = k + left → left ≠ 0 →
      (retryFrom attempts (attempt r) (backoff r) (onRetry agent event attempts) left k).run W =
        ((triesFrom agent event r attempts left k).result,
          W.tried r (triesFrom agent event r attempts left k).launched
            (triesFrom agent event r attempts left k).effects)
  | 0, _, _, _, _, hleft => absurd rfl hleft
  | left + 1, k, W, hk, hsum, _ => by
    cases hout : (r.attempt k).outcome with
    | ok result =>
      simp only [retryFrom, Py.run_handle, attempt_run r k hk W, triesFrom, hout]
    | error exc =>
      rw [retryFrom_raised hk hout]
      simp only [triesFrom, hout]
      cases ht : transient exc with
      | none => rfl
      | some message =>
        simp only
        split
        · rfl
        · rename_i hmore
          cases hs : r.sleep k with
          | some exc => rfl
          | none =>
            have hleft : left ≠ 0 := by omega
            have hrest := le_launched agent event r attempts left (k + 1) (by omega) hleft
            simp only [retryFrom_run agent event r attempts left (k + 1) _ (by omega) (by omega)
              hleft]
            rw [tried_tried W r k _ _ _ (by omega)]

/-- **The retry, executed**: it is what `tries` says. -/
theorem withRetry_run (p : Pipeline) (agent : Agent) (event : Event) (r : Readings) (W : World) :
    (withRetry (p.attempts event) (attempt r) (backoff r)
        (onRetry agent event (p.attempts event))).run W =
      ((tries p agent event r).result,
        W.tried r (tries p agent event r).launched (tries p agent event r).effects) := by
  unfold withRetry tries
  split
  · simp [World.tried, World.addEffects, World.setLocals]
  · rename_i hpos
    exact retryFrom_run agent event r _ _ 1 W (by omega) (by omega) (by omega)

/-- A retry that came back with anything but an exception of its own called the waker. -/
theorem launched_ne_zero {p : Pipeline} {agent : Agent} {event : Event} {r : Readings}
    (h : ∀ text, (tries p agent event r).result ≠ .error (.other text)) :
    (tries p agent event r).launched ≠ 0 := by
  unfold tries at h ⊢
  split
  · rename_i hpos
    rw [if_pos hpos] at h
    exact absurd rfl (h _)
  · rename_i hpos
    have hone := le_launched agent event r (p.attempts event) (p.attempts event) 1 (by omega)
      (by omega)
    omega

/-- When the last attempt started. -/
def lastStart (p : Pipeline) (agent : Agent) (event : Event) (r : Readings) : Utc :=
  (r.attempt (tries p agent event r).launched).now

/-- How long the last attempt took. -/
def took (p : Pipeline) (agent : Agent) (event : Event) (r : Readings) : ℚ :=
  duration r (tries p agent event r).launched

/-- After attempts that called the waker, `_wake`'s locals are the last one's. -/
theorem tried_tries (p : Pipeline) (agent : Agent) (event : Event) (r : Readings) (W : World)
    (h : ∀ text, (tries p agent event r).result ≠ .error (.other text)) :
    W.tried r (tries p agent event r).launched (tries p agent event r).effects =
      (W.addEffects (tries p agent event r).effects).setLocals
        ⟨took p agent event r, some (lastStart p agent event r), W.locals.verdict⟩ :=
  tried_eq W r (launched_ne_zero h) _

/-! ## 2. What the attempts were -/

/-- The attempts among what happened. -/
def launches (effects : List Effect) : List ℕ :=
  effects.filterMap fun e =>
    match e with
    | .launch k => some k
    | _ => none

theorem launches_append (e e' : List Effect) :
    launches (e ++ e') = launches e ++ launches e' := List.filterMap_append

theorem launches_triesFrom (agent : Agent) (event : Event) (r : Readings) (attempts : ℕ) :
    ∀ left k, attempts + 1 = k + left → left ≠ 0 →
      launches (triesFrom agent event r attempts left k).effects =
        List.range' k ((triesFrom agent event r attempts left k).launched + 1 - k)
  | 0, _, _, hleft => absurd rfl hleft
  | left + 1, k, hsum, _ => by
    have hone : k + 1 - k = 1 := by omega
    unfold triesFrom
    split
    · simp [launches, hone]
    · split
      · simp [launches, hone]
      · split
        · simp [launches, hone]
        · rename_i hmore
          simp only
          split
          · simp [launches, hone]
          · have hrest := le_launched agent event r attempts left (k + 1) (by omega) (by omega)
            have ih := launches_triesFrom agent event r attempts left (k + 1) (by omega) (by omega)
            have hlen : (triesFrom agent event r attempts left (k + 1)).launched + 1 - k =
                (triesFrom agent event r attempts left (k + 1)).launched + 1 - (k + 1) + 1 := by
              omega
            rw [launches_append, ih, hlen, List.range'_succ]
            rfl

/-- **The calls of the waker are numbered from one on.** -/
theorem launches_tries (p : Pipeline) (agent : Agent) (event : Event) (r : Readings) :
    launches (tries p agent event r).effects = List.range' 1 (tries p agent event r).launched := by
  unfold tries
  split
  · rfl
  · rename_i hpos
    exact launches_triesFrom agent event r _ _ 1 (by omega) (by omega)

/-- The `i`-th attempt failed, and the sleep after it was slept: another attempt follows. -/
def Retried (r : Readings) (i : ℕ) : Prop :=
  (∃ exc, (r.attempt i).outcome = .error exc ∧ (transient exc).isSome) ∧ r.sleep i = none

/-- There is a second call of the waker iff there is a second attempt to go and the first one is
retried. -/
theorem one_lt_launched_iff (p : Pipeline) (agent : Agent) (event : Event) (r : Readings) :
    1 < (tries p agent event r).launched ↔ 1 < p.attempts event ∧ Retried r 1 := by
  unfold tries
  generalize p.attempts event = n
  match n with
  | 0 => simp
  | 1 =>
    simp only [triesFrom, Retried]
    cases (r.attempt 1).outcome with
    | ok result => simp
    | error exc => cases ht : transient exc <;> simp [ht]
  | left + 2 =>
    have hlt : ¬ left + 2 < 1 := by omega
    have hmore : ¬ left + 2 ≤ 1 := by omega
    rw [if_neg hlt, triesFrom]
    cases hout : (r.attempt 1).outcome with
    | ok result => simp [Retried, hout]
    | error exc =>
      cases ht : transient exc with
      | none => simp [Retried, hout, ht]
      | some message =>
        cases hs : r.sleep 1 with
        | some exc' => simp [ht, hmore, Retried, hs]
        | none =>
          have hrest := le_launched agent event r (left + 2) (left + 1) 2 (by omega) (by omega)
          simp only [ht, hmore, if_false, Retried, hout, hs]
          simp [ht]
          omega

/-- The waker is called as soon as there is an attempt to go. -/
theorem launched_pos (p : Pipeline) (agent : Agent) (event : Event) (r : Readings) :
    0 < (tries p agent event r).launched ↔ 0 < p.attempts event := by
  unfold tries
  split
  · rename_i hzero
    simp
    omega
  · rename_i hpos
    have hone := le_launched agent event r (p.attempts event) (p.attempts event) 1 (by omega)
      (by omega)
    omega

/-- What the attempts themselves do: call the waker, sleep, log. -/
def Effect.ofAttempt : Effect → Bool
  | .launch _ => true
  | .slept _ => true
  | .logged _ => true
  | _ => false

theorem triesFrom_ofAttempt (agent : Agent) (event : Event) (r : Readings) (attempts : ℕ) :
    ∀ left k, ∀ e ∈ (triesFrom agent event r attempts left k).effects, e.ofAttempt = true
  | 0, _ => by simp [triesFrom]
  | left + 1, k => by
    have ih := triesFrom_ofAttempt agent event r attempts left (k + 1)
    unfold triesFrom
    split
    · simp [Effect.ofAttempt]
    · split
      · simp [Effect.ofAttempt]
      · split
        · simp [Effect.ofAttempt]
        · simp only
          split
          · simp [Effect.ofAttempt]
          · intro e he
            rcases List.mem_append.mp he with he | he
            · simp only [List.mem_cons, List.not_mem_nil, or_false] at he
              rcases he with rfl | rfl | rfl <;> rfl
            · exact ih e he

/-- The attempts do nothing else. -/
theorem tries_ofAttempt (p : Pipeline) (agent : Agent) (event : Event) (r : Readings) :
    ∀ e ∈ (tries p agent event r).effects, e.ofAttempt = true := by
  unfold tries
  split
  · simp
  · exact triesFrom_ofAttempt agent event r _ _ 1

end BasecradleRouter.Pipeline
