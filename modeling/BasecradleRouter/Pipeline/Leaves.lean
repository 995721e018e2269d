/-
# What `execute` leaves

`execute` is run symbolically once for each way through the gates, and the pieces are put
together by `execute_left`: whatever the readings, an execute returns, and leaves what its exit
says.
-/
import BasecradleRouter.Pipeline.Gates

namespace BasecradleRouter.Pipeline

open BasecradleRouter.Lib BasecradleRouter.Logfmt BasecradleRouter.Models BasecradleRouter.Wake
open BasecradleRouter.Breaker BasecradleRouter.Coalesce BasecradleRouter.Concurrency
open BasecradleRouter.Dedup BasecradleRouter.Evidence BasecradleRouter.WakeLock

/-! ## 1. Running `_wake` -/

/-- The bracket's line, for real traffic. -/
def bracketLine (event : Event) (line : Line) : List Effect :=
  if event.synthetic then [] else [.logged line]

theorem onlyLines_nil : OnlyLines [] := by simp [OnlyLines]

theorem onlyLines_logged (line : Line) : OnlyLines [.logged line] := by simp [OnlyLines]

theorem onlyLines_bracket (event : Event) (line : Line) : OnlyLines (bracketLine event line) := by
  unfold bracketLine
  split
  · exact onlyLines_nil
  · exact onlyLines_logged line

theorem OnlyLines.append {l l' : List Effect} (h : OnlyLines l) (h' : OnlyLines l') :
    OnlyLines (l ++ l') := by
  intro e he
  rcases List.mem_append.mp he with he | he
  · exact h e he
  · exact h' e he

theorem bookend_run (event : Event) (phase : String) (outcome : Option Outcome)
    (fields : List (String × Value)) (W : World) :
    (bookend event phase outcome fields).run W =
      (.ok (), W.addEffects (bracketLine event ⟨phase, outcome, fields⟩)) := by
  unfold bookend bracketLine
  split <;> simp [emit, World.addEffects]

/-- The bracket always closes, and its close raises nothing. -/
theorem closeBracket_run (agent : Agent) (event : Event) (W : World) :
    ∃ line, (closeBracket agent event).run W =
      (.ok (), W.addEffects (bracketLine event line)) := by
  simp only [closeBracket, Py.run_bind, Py.run_look]
  cases W.locals.verdict with
  | none => exact ⟨_, bookend_run event _ _ _ W⟩
  | some v => exact ⟨_, bookend_run event _ _ _ W⟩

/-- What is left when `_wake` is over, by the exit it prepares: an exception it did not expect
has no record yet. -/
structure WakeLeft (p : Pipeline) (agent : Agent) (event : Event) (r : Readings) (x : Exit)
    (W W' : World) : Prop where
  deduper : W'.deduper = W.deduper
  breaker : W'.breaker = W.breaker
  coverage : W'.coverage =
    if x.done then W.coverage.record agent.harnessKey event (lastStart p agent event r)
    else W.coverage
  evidence : match x.counter with
    | none => W'.evidence = W.evidence
    | some c => W.evidence.Counts W'.evidence agent.harnessKey event.source c
  records : W'.records = W.records ++
    match x.answer with
    | .ok _ => [terminalRecord p agent event r x]
    | .error _ => []
  effects : ∃ l₁ l₂ l₃, OnlyLines l₁ ∧ OnlyLines l₂ ∧ OnlyLines l₃ ∧
    W'.effects = W.effects ++ l₁ ++ (tries p agent event r).effects ++ l₂ ++
      (if x.done then [.covered (lastStart p agent event r)] else []) ++ l₃

/-- The line a stop logs. -/
def stopLine (p : Pipeline) (agent : Agent) (event : Event) (r : Readings) (signal : String)
    (exitCode : ℤ) : Line :=
  ⟨"wake_stopped", none, who agent event ++
    [("signal", .str signal), ("exit", .int exitCode),
      ("duration", .str (seconds (took p agent event r)))]⟩

/-- `_wake`'s body, case by case on what the retry comes back with. -/
theorem wakeBody_left (p : Pipeline) (agent : Agent) (event : Event) (r : Readings) (W : World) :
    ∃ W', (wakeBody p agent event r).run W = ((wakeExit p agent event r).answer, W') ∧
      WakeLeft p agent event r (wakeExit p agent event r) W W' := by
  have hcalled := tried_tries p agent event r W
  simp only [wakeBody, Py.run_bind, Py.run_catching, withRetry_run, Py.run_look, wakeExit]
  cases hres : (tries p agent event r).result with
  | ok result =>
    simp only [hcalled (by simp [hres]), Py.run_bind, recordEvidence_run, flushing]
    cases hf : r.flush.raised with
    | none =>
      refine ⟨_, rfl, rfl, rfl, rfl, W.evidence.recordWakeOk_counts _ _ _ _ _, rfl, ?_⟩
      exact ⟨[], [], [], onlyLines_nil, onlyLines_nil, onlyLines_nil, by simp [Exit.done]⟩
    | some exc =>
      refine ⟨_, rfl, rfl, rfl, rfl, W.evidence.recordWakeOk_counts _ _ _ _ _,
        by simp [Exit.answer], ?_⟩
      exact ⟨[], [], [], onlyLines_nil, onlyLines_nil, onlyLines_nil, by simp [Exit.done]⟩
  | error exc =>
    cases exc with
    | wakeStopped message signal exitCode =>
      simp only [hcalled (by simp [hres])]
      refine ⟨_, rfl, rfl, rfl, rfl, rfl, rfl, ?_⟩
      refine ⟨[], [.logged (stopLine p agent event r signal exitCode)], [], onlyLines_nil,
        onlyLines_logged _, onlyLines_nil, ?_⟩
      simp [Exit.done, stopLine]
    | retryExhausted n cause =>
      simp only [hcalled (by simp [hres]), Py.run_bind, recordEvidence_run, flushing]
      cases hf : r.flush.raised with
      | none =>
        refine ⟨_, rfl, rfl, rfl, rfl, W.evidence.recordWakeFailed_counts _ _ _ _ _, rfl, ?_⟩
        exact ⟨[], [], [], onlyLines_nil, onlyLines_nil, onlyLines_nil, by simp [Exit.done]⟩
      | some exc =>
        refine ⟨_, rfl, rfl, rfl, rfl, W.evidence.recordWakeFailed_counts _ _ _ _ _,
          by simp [Exit.answer], ?_⟩
        exact ⟨[], [], [], onlyLines_nil, onlyLines_nil, onlyLines_nil, by simp [Exit.done]⟩
    | _ =>
      refine ⟨_, rfl, rfl, rfl, rfl, rfl, by simp [Exit.answer, World.tried], ?_⟩
      exact ⟨[], [], [], onlyLines_nil, onlyLines_nil, onlyLines_nil,
        by simp [Exit.done, World.tried]⟩

/-- `_wake`: its body, inside the bracket. -/
theorem wake_left (p : Pipeline) (agent : Agent) (event : Event) (r : Readings) (W : World) :
    ∃ W', (wake p agent event r).run W = ((wakeExit p agent event r).answer, W') ∧
      WakeLeft p agent event r (wakeExit p agent event r) W W' := by
  let W₀ := (W.setLocals ⟨0, none, none⟩).addEffects
    (bracketLine event ⟨"wake_start", none, who agent event⟩)
  obtain ⟨W₁, hrun, hleft⟩ := wakeBody_left p agent event r W₀
  obtain ⟨line, hclose⟩ := closeBracket_run agent event W₁
  refine ⟨W₁.addEffects (bracketLine event line), ?_, ?_⟩
  · simp only [wake, Py.run_bind, Py.run_change, bookend_run, Py.run_finallyDo]
    rw [hrun]
    simp only [hclose]
  · obtain ⟨l₁, l₂, l₃, h₁, h₂, h₃, heff⟩ := hleft.effects
    refine ⟨hleft.deduper, hleft.breaker, hleft.coverage, hleft.evidence, hleft.records,
      bracketLine event ⟨"wake_start", none, who agent event⟩ ++ l₁, l₂,
        l₃ ++ bracketLine event line,
      ?_, h₂, ?_, ?_⟩
    · exact (onlyLines_bracket event _).append h₁
    · exact h₃.append (onlyLines_bracket event line)
    · rw [World.addEffects_effects, heff]
      simp [W₀]

/-! ## 2. Running `execute` -/

section

variable {p : Pipeline} {agent : Agent} {event : Event} {r : Readings} {W : World} {x : Exit}

/-- Before the guard nothing happens but lines. -/
theorem Happened.early (hguard : reachesGuard agent event r W = false) (hdone : x.done = false)
    {effects : List Effect} (h : OnlyLines effects) : Happened p agent event r W x effects :=
  ⟨[], [], effects, onlyLines_nil, onlyLines_nil, h, by
    simp [gateEffects, reachesWake, reachesBreaker, hguard, hdone]⟩

/-- Where a gate refuses, nothing happens after it. -/
theorem Happened.refused (hwake : reachesWake agent event r W = false) (hdone : x.done = false) :
    Happened p agent event r W x (gateEffects agent event r W) :=
  ⟨[], [], [], onlyLines_nil, onlyLines_nil, onlyLines_nil, by simp [hwake, hdone]⟩

/-- The dedup gate closes. -/
theorem execute_duplicate (hdup : duplicate event r W = true) :
    ∃ W', (execute p agent event r).run W = (.ok (), W') ∧
      Left p agent event r (flushing r .dedup .dedup) W W' := by
  have hguard : reachesGuard agent event r W = false := by simp [reachesGuard, hdup]
  rw [execute_run_duplicate hdup]
  unfold World.closed flushing
  cases r.flush.raised with
  | none =>
    refine ⟨_, rfl, rfl, rfl, rfl, W.evidence.recordWakeDeduped_counts _ _ _ _, ?_, [], ?_, ?_⟩
    · simp [terminalRecord, Exit.terminal, Exit.fields]
    · simp
    · exact Happened.early hguard rfl onlyLines_nil
  | some exc =>
    refine ⟨_, rfl, rfl, rfl, rfl, W.evidence.recordWakeDeduped_counts _ _ _ _, ?_, [], ?_, ?_⟩
    · simp [terminalRecord, Exit.terminal, Exit.fields]
    · simp
    · exact Happened.early hguard rfl onlyLines_nil

/-- The coalesce gate closes: the counter rises before the record's moment is rendered. -/
theorem execute_covered (hdup : duplicate event r W = false) {into : Coverage}
    (hcov : covering agent event W = some into) :
    ∃ W', (execute p agent event r).run W = (.ok (), W') ∧
      Left p agent event r (flushing r .coalesce (coveredExit event into)) W W' := by
  have hguard : reachesGuard agent event r W = false := by simp [reachesGuard, hcov]
  rw [execute_run_covered hdup hcov]
  unfold World.coalesced flushing coveredExit
  cases r.flush.raised with
  | none =>
    cases hocc : instant event.occurredAt with
    | ok occurred =>
      refine ⟨_, rfl, rfl, rfl, rfl, W.evidence.recordWakeDeduped_counts _ _ _ _, ?_,
        [.logged _], rfl, ?_⟩
      · simp [terminalRecord, Exit.terminal, Exit.fields]
      · exact Happened.early hguard rfl (onlyLines_logged _)
    | error exc =>
      refine ⟨_, rfl, rfl, rfl, rfl, W.evidence.recordWakeDeduped_counts _ _ _ _, ?_, [], ?_, ?_⟩
      · simp [terminalRecord, Exit.terminal, Exit.fields]
      · simp
      · exact Happened.early hguard rfl onlyLines_nil
  | some exc =>
    refine ⟨_, rfl, rfl, rfl, rfl, W.evidence.recordWakeDeduped_counts _ _ _ _, ?_, [], ?_, ?_⟩
    · simp [terminalRecord, Exit.terminal, Exit.fields]
    · simp
    · exact Happened.early hguard rfl onlyLines_nil

/-- The recheck drops the delivery. -/
theorem execute_dropped (hdup : duplicate event r W = false)
    (hcov : covering agent event W = none) {gone : String}
    (hgone : routeRecheck r.recheck = some gone) :
    ∃ W', (execute p agent event r).run W = (.ok (), W') ∧
      Left p agent event r (.recheck gone) W W' := by
  have hguard : reachesGuard agent event r W = false := by simp [reachesGuard, hgone]
  rw [execute_run_dropped hdup hcov hgone]
  refine ⟨_, rfl, rfl, rfl, rfl, rfl, ?_, [.logged _], rfl, ?_⟩
  · simp [terminalRecord, Exit.terminal, Exit.fields]
  · exact Happened.early hguard rfl (onlyLines_logged _)

/-- The guard raises. -/
theorem execute_unread (hguard : reachesGuard agent event r W = true) {exc : Raised}
    (hlock : r.lock = .error exc) :
    ∃ W', (execute p agent event r).run W = (.ok (), W') ∧
      Left p agent event r (.unexpected .guard exc) W W' := by
  have hbreaker : reachesBreaker agent event r W = false := by simp [reachesBreaker, hlock]
  rw [execute_run_unread hguard hlock]
  refine ⟨_, rfl, rfl, rfl, rfl, rfl, ?_, [.guardRead r.lock], rfl, ?_⟩
  · simp [terminalRecord, Exit.terminal, Exit.fields]
  · have hwake : reachesWake agent event r W = false := by simp [reachesWake, hbreaker]
    have h := Happened.refused (p := p) (x := .unexpected .guard exc) hwake rfl
    simpa [gateEffects, hguard, hbreaker, hlock] using h

/-- The wake-lock refuses. -/
theorem execute_locked (hguard : reachesGuard agent event r W = true)
    {decision : WakeLockDecision} (hlock : r.lock = .ok decision)
    (hheld : decision.shouldWake = false) :
    ∃ W', (execute p agent event r).run W = (.ok (), W') ∧
      Left p agent event r (flushing r .locked (.locked decision)) W W' := by
  have hbreaker : reachesBreaker agent event r W = false := by
    simp [reachesBreaker, hlock, hheld]
  have hwake : reachesWake agent event r W = false := by simp [reachesWake, hbreaker]
  have hgates : gateEffects agent event r W = [.guardRead r.lock] := by
    simp [gateEffects, hguard, hbreaker]
  rw [execute_run_locked hguard hlock hheld]
  unfold World.closed flushing
  cases r.flush.raised with
  | none =>
    refine ⟨_, rfl, rfl, rfl, rfl, W.evidence.recordWakeRefused_counts _ _ _ _ _, ?_,
      [.guardRead r.lock], rfl, ?_⟩
    · simp [terminalRecord, Exit.terminal, Exit.fields]
    · exact hgates ▸ Happened.refused hwake rfl
  | some exc =>
    refine ⟨_, rfl, rfl, rfl, rfl, W.evidence.recordWakeRefused_counts _ _ _ _ _, ?_,
      [.guardRead r.lock], rfl, ?_⟩
    · simp [terminalRecord, Exit.terminal, Exit.fields]
    · exact hgates ▸ Happened.refused hwake rfl

/-- The breaker refuses. -/
theorem execute_limited (hbreaker : reachesBreaker agent event r W = true)
    (hfull : (admission agent event r W).admitted = false) :
    ∃ W', (execute p agent event r).run W = (.ok (), W') ∧
      Left p agent event r (flushing r .limited (.limited (admission agent event r W))) W W' := by
  obtain ⟨hguard, -⟩ := reachesBreaker_iff.mp hbreaker
  have hwake : reachesWake agent event r W = false := by simp [reachesWake, hfull]
  have hgates : gateEffects agent event r W =
      [.guardRead r.lock, .consulted (admission agent event r W)] := by
    simp [gateEffects, hguard, hbreaker]
  rw [execute_run_limited hbreaker hfull]
  unfold World.closed flushing
  cases r.flush.raised with
  | none =>
    refine ⟨_, rfl, rfl, rfl, rfl, W.evidence.recordWakeRefused_counts _ _ _ _ _, ?_,
      [.guardRead r.lock, .consulted (admission agent event r W)], ?_, ?_⟩
    · simp [terminalRecord, Exit.terminal, Exit.fields, admission]
    · simp
    · exact hgates ▸ Happened.refused hwake rfl
  | some exc =>
    refine ⟨_, rfl, rfl, rfl, rfl, W.evidence.recordWakeRefused_counts _ _ _ _ _, ?_,
      [.guardRead r.lock, .consulted (admission agent event r W)], ?_, ?_⟩
    · simp [terminalRecord, Exit.terminal, Exit.fields]
    · simp
    · exact hgates ▸ Happened.refused hwake rfl

theorem wakeExit_consulted (p : Pipeline) (agent : Agent) (event : Event) (r : Readings) :
    (wakeExit p agent event r).consulted = true := by
  unfold wakeExit flushing
  split
  · rfl
  · split <;> rfl
  · rfl
  · split <;> rfl

/-- `_wake` answers that the delivery is done exactly at the exits that are. -/
theorem Exit.done_of_answer {x : Exit} {done : Bool} (h : x.answer = .ok done) : x.done = done := by
  cases x with
  | unexpected point exc => exact absurd h (by simp [Exit.answer])
  | _ => exact Except.ok.inj h

/-- An exit by an exception is no success, and its record names the exception. -/
theorem Exit.unexpected_of_answer {x : Exit} {exc : Raised} (h : x.answer = .error exc) :
    ∃ point, x = .unexpected point exc := by
  cases x with
  | unexpected point exc' => exact ⟨point, congrArg _ (Except.error.inj h)⟩
  | _ => exact absurd h (by simp [Exit.answer])

/-- Every gate is open: the wake, and the mark of a delivery that is done. -/
theorem execute_woken (hwake : reachesWake agent event r W = true) :
    ∃ W', (execute p agent event r).run W = (.ok (), W') ∧
      Left p agent event r (wakeExit p agent event r) W W' := by
  have hcons := wakeExit_consulted p agent event r
  obtain ⟨W₁, hrun, hleft⟩ := wake_left p agent event r (W.consulted agent event r)
  obtain ⟨l₁, l₂, l₃, h₁, h₂, h₃, heff⟩ := hleft.effects
  rw [World.consulted_effects_eq hwake] at heff
  rw [execute_run_open hwake]
  generalize hx : wakeExit p agent event r = x at hrun hleft heff hcons ⊢
  have hdeduper := hleft.deduper
  have hcoverage := hleft.coverage
  have hbreaker₁ := hleft.breaker
  have hevidence := hleft.evidence
  have hrecords := hleft.records
  rw [hrun]
  cases hanswer : x.answer with
  | ok done =>
    have hdone := Exit.done_of_answer hanswer
    simp only [hanswer] at hrecords
    cases done with
    | true =>
      simp only [hdone, if_true] at hcoverage heff
      refine ⟨_, rfl, ?_, ?_, ?_, ?_, ?_, ?_⟩
      · simp [hdone, hdeduper]
      · simp [hdone, hcoverage]
      · simp [hcons, hbreaker₁]
      · exact hevidence
      · simp [hrecords]
      · refine ⟨gateEffects agent event r W ++ l₁ ++ (tries p agent event r).effects ++ l₂ ++
          [.covered (lastStart p agent event r)] ++ l₃ ++ [.marked event.dedupKey], ?_,
          l₁, l₂, l₃, h₁, h₂, h₃, ?_⟩
        · simp [heff]
        · simp [hwake, hdone]
    | false =>
      simp only [hdone] at hcoverage heff
      refine ⟨_, rfl, ?_, ?_, ?_, ?_, ?_, ?_⟩
      · simp [hdone, hdeduper]
      · simp [hdone, hcoverage]
      · simp [hcons, hbreaker₁]
      · exact hevidence
      · simp [hrecords]
      · refine ⟨gateEffects agent event r W ++ l₁ ++ (tries p agent event r).effects ++ l₂ ++
          [] ++ l₃ ++ [], ?_, l₁, l₂, l₃, h₁, h₂, h₃, ?_⟩
        · simp [heff]
        · simp [hwake, hdone]
  | error exc =>
    obtain ⟨point, rfl⟩ := Exit.unexpected_of_answer hanswer
    simp only [hanswer] at hrecords
    refine ⟨_, rfl, ?_, ?_, ?_, ?_, ?_, ?_⟩
    · simp [Exit.done, hdeduper]
    · simp [Exit.done, hcoverage]
    · simp [hcons, hbreaker₁]
    · exact hevidence
    · simp [hrecords, terminalRecord, Exit.terminal, Exit.fields]
    · refine ⟨gateEffects agent event r W ++ l₁ ++ (tries p agent event r).effects ++ l₂ ++
        [] ++ l₃ ++ [], ?_, l₁, l₂, l₃, h₁, h₂, h₃, ?_⟩
      · simp [heff, Exit.done]
      · simp [hwake, Exit.done]

end

/-- **What an execute leaves**, by its exit.  It never raises. -/
theorem execute_left (p : Pipeline) (agent : Agent) (event : Event) (r : Readings) (W : World) :
    ∃ W', (execute p agent event r).run W = (.ok (), W') ∧
      Left p agent event r (exitOf p agent event r W) W W' :=
  exitOf_cases
    (motive := fun x => ∃ W', (execute p agent event r).run W = (.ok (), W') ∧
      Left p agent event r x W W')
    execute_duplicate (fun _ hdup => execute_covered hdup)
    (fun _ hdup hcov => execute_dropped hdup hcov)
    (fun _ hguard => execute_unread hguard) (fun _ hguard => execute_locked hguard)
    execute_limited execute_woken

/-! ## 3. The effects of an execute -/

theorem launches_of_onlyLines {l : List Effect} (h : OnlyLines l) : launches l = [] := by
  refine List.filterMap_eq_nil_iff.mpr fun e he => ?_
  obtain ⟨line, rfl⟩ := h e he
  rfl

theorem launches_gateEffects (agent : Agent) (event : Event) (r : Readings) (W : World) :
    launches (gateEffects agent event r W) = [] := by
  unfold gateEffects
  split
  · split <;> rfl
  · rfl

/-- The waker is called behind open gates only, and then for the attempts in their order. -/
theorem Happened.launches {p : Pipeline} {agent : Agent} {event : Event} {r : Readings}
    {W : World} {x : Exit} {effects : List Effect} (h : Happened p agent event r W x effects) :
    launches effects =
      if reachesWake agent event r W then List.range' 1 (tries p agent event r).launched
      else [] := by
  obtain ⟨l₁, l₂, l₃, h₁, h₂, h₃, rfl⟩ := h.split
  have hcovered : Pipeline.launches
      (if x.done then [Effect.covered (lastStart p agent event r)] else []) = [] := by
    split <;> rfl
  have hmarked : Pipeline.launches
      (if x.done then [Effect.marked event.dedupKey] else []) = [] := by
    split <;> rfl
  simp only [launches_append, launches_gateEffects, launches_of_onlyLines h₁,
    launches_of_onlyLines h₂, launches_of_onlyLines h₃, hcovered, hmarked, List.append_nil,
    List.nil_append]
  split
  · exact launches_tries p agent event r
  · rfl

/-- A wake that is done called the waker. -/
theorem launched_of_done {p : Pipeline} {agent : Agent} {event : Event} {r : Readings}
    (h : (wakeExit p agent event r).done = true) : (tries p agent event r).launched ≠ 0 := by
  refine launched_ne_zero fun text hres => ?_
  simp [wakeExit, hres, Exit.done] at h

theorem ofAttempt_of_onlyLines {l : List Effect} (h : OnlyLines l) {e : Effect} (he : e ∈ l) :
    e.ofAttempt = true := by
  obtain ⟨line, rfl⟩ := h e he
  rfl

/-- What an execute does besides its attempts: the gates', and the two of a delivery that is
done. -/
theorem Happened.mem {p : Pipeline} {agent : Agent} {event : Event} {r : Readings} {W : World}
    {x : Exit} {effects : List Effect} (h : Happened p agent event r W x effects) {e : Effect}
    (he : e.ofAttempt = false) :
    e ∈ effects ↔ e ∈ gateEffects agent event r W ∨
      (x.done = true ∧ (e = .covered (lastStart p agent event r) ∨
        e = .marked event.dedupKey)) := by
  obtain ⟨l₁, l₂, l₃, h₁, h₂, h₃, rfl⟩ := h.split
  have hno : ∀ l : List Effect, (∀ e ∈ l, e.ofAttempt = true) → e ∉ l := by
    intro l hl hmem
    simp [hl e hmem] at he
  have hl₁ := hno l₁ fun e => ofAttempt_of_onlyLines h₁
  have hl₂ := hno l₂ fun e => ofAttempt_of_onlyLines h₂
  have hl₃ := hno l₃ fun e => ofAttempt_of_onlyLines h₃
  have htries : e ∉ (if reachesWake agent event r W then (tries p agent event r).effects
      else []) := by
    split
    · exact hno _ (tries_ofAttempt p agent event r)
    · exact List.not_mem_nil
  simp only [List.mem_append, hl₁, hl₂, hl₃, htries, or_false]
  cases x.done <;> simp [or_assoc]

end BasecradleRouter.Pipeline
