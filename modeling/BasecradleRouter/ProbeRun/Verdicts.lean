/-
# Whose outcome a verdict reports

The daemon takes its turns while a run waits, and each turn is an execute of some delivery: the
run's own, an agent's real work, or what another run of the probe has left in the queue.  A success
is read by its delivery, and so is the run's own.  The other outcomes are read by a counter of the
agent's row for the probe's route, and every delivery of that route moves it.

`verdict_own`: in a run during which no other delivery of the probe's route for the agent is
recorded as anything but a success, each verdict is about the run's own delivery, and `proven` is in
any run.
`not_own_leftover` is a run that meets such a delivery.
-/
import BasecradleRouter.Pipeline.Recorded
import BasecradleRouter.ProbeRun

namespace BasecradleRouter.ProbeRun

open BasecradleRouter.Lib BasecradleRouter.Logfmt BasecradleRouter.Evidence
open BasecradleRouter.Pipeline

/-! ## 1. The daemon's turns -/

/-- One execute of the daemon: a delivery, and the world it meets. -/
structure Turn where
  world : World
  delivery : Delivery

/-- The daemon, as far as its evidence goes: the executes it records, in the order it records them.
The world of a turn may be any, but for the evidence. -/
structure Daemon where
  pipeline : Pipeline
  turns : ℕ → Turn

namespace Daemon

variable (daemon : Daemon)

/-- The evidence after so many turns. -/
def evidence : ℕ → EvidenceStore
  | 0 => .new
  | n + 1 =>
    (((daemon.turns n).world.setEvidence (evidence n)).step daemon.pipeline
      (daemon.turns n).delivery).evidence

/-- The row for a route of an agent after so many turns. -/
def row (n : ℕ) (agent route : String) : RouteWakeEvidence :=
  ((daemon.evidence n).doc.wake agent).row route

/-- The turn records an outcome of this delivery in this row. -/
structure Records (n : ℕ) (agent route id : String) (c : Counter) : Prop where
  agent : (daemon.turns n).delivery.agent.harnessKey = agent
  route : (daemon.turns n).delivery.event.source = route
  id : (daemon.turns n).delivery.event.deliveryId = id
  counter : ((daemon.turns n).world.exit daemon.pipeline (daemon.turns n).delivery).counter = some c

end Daemon

/-! ## 2. What moves a row -/

/-- A recorder of a wake writes one row of one agent. -/
theorem row_amend (s : EvidenceStore) (agent route agent' route' : String) (f : Flush)
    (onWake : AgentWakeEvidence → AgentWakeEvidence)
    (onRow : RouteWakeEvidence → RouteWakeEvidence) :
    ((s.amend agent route f onWake onRow).doc.wake agent').row route' =
      if agent' = agent ∧ route' = route then onRow ((s.doc.wake agent').row route')
      else (s.doc.wake agent').row route' := by
  unfold AgentWakeEvidence.row
  rw [← EvidenceStore.wakeRow_eq, ← EvidenceStore.wakeRow_eq, EvidenceStore.wakeRow_amend]
  split
  · next heq =>
    obtain ⟨rfl, rfl⟩ := heq
    rfl
  · rfl

/-- What an exit writes leaves a row's last success as it is, or is a success of this row. -/
theorem recorded_row (agent : Models.Agent) (event : Models.Event) (f : Flush) (s : EvidenceStore)
    (agent' route' : String) (x : Exit) :
    let row := (s.doc.wake agent').row route'
    let row' := ((x.recorded agent event f s).doc.wake agent').row route'
    row'.lastOkDelivery = row.lastOkDelivery ∨
      row'.lastOkDelivery = some event.deliveryId ∧ row'.ok = row.ok + 1 := by
  have hkept : ∀ (onWake : AgentWakeEvidence → AgentWakeEvidence)
      (onRow : RouteWakeEvidence → RouteWakeEvidence),
      (∀ row, (onRow row).lastOkDelivery = row.lastOkDelivery) →
      (((s.amend agent.harnessKey event.source f onWake onRow).doc.wake agent').row
        route').lastOkDelivery = ((s.doc.wake agent').row route').lastOkDelivery := by
    intro onWake onRow hrow
    rw [row_amend]
    split
    · exact hrow _
    · rfl
  cases x with
  | woke result =>
    dsimp only [Exit.recorded, EvidenceStore.recordWakeOk]
    rw [row_amend]
    split
    · exact Or.inr ⟨rfl, rfl⟩
    · exact Or.inl rfl
  | unexpected point exc =>
    cases point with
    | coalesce => exact Or.inl (hkept _ _ fun _ => rfl)
    | _ => exact Or.inl rfl
  | recheck gone => exact Or.inl rfl
  | stopped signal exitCode => exact Or.inl rfl
  | _ => exact Or.inl (hkept _ _ fun _ => rfl)

namespace Daemon

variable {daemon : Daemon} {agent route id : String} {n i j : ℕ}

/-- A turn leaves a row's last success as it is, or is one. -/
theorem row_succ (daemon : Daemon) (n : ℕ) (agent route : String) :
    (daemon.row (n + 1) agent route).lastOkDelivery = (daemon.row n agent route).lastOkDelivery ∨
      (daemon.row (n + 1) agent route).lastOkDelivery =
          some (daemon.turns n).delivery.event.deliveryId ∧
        (daemon.row (n + 1) agent route).ok = (daemon.row n agent route).ok + 1 := by
  have hevidence : daemon.evidence (n + 1) = _ := step_evidence
  unfold row
  rw [hevidence]
  exact recorded_row _ _ _ _ agent route _

/-- A counter that a turn moves counts the turn's delivery. -/
theorem records_of_count {c : Counter}
    (h : (daemon.row (n + 1) agent route).count c ≠ (daemon.row n agent route).count c) :
    daemon.Records n agent route (daemon.turns n).delivery.event.deliveryId c := by
  have hstep := step_routeCount daemon.pipeline
    ((daemon.turns n).world.setEvidence (daemon.evidence n)) (daemon.turns n).delivery agent route c
  change (daemon.row (n + 1) agent route).count c = (daemon.row n agent route).count c + _ at hstep
  split at hstep
  · next hcounted => exact ⟨hcounted.1, hcounted.2.1, rfl, hcounted.2.2⟩
  · exact absurd (hstep.trans (add_zero _)) h

/-- A counter that has moved was moved by a turn. -/
theorem records_of_moved {c : Counter} (hij : i ≤ j)
    (h : (daemon.row j agent route).count c ≠ (daemon.row i agent route).count c) :
    ∃ n id, i ≤ n ∧ n < j ∧ daemon.Records n agent route id c := by
  induction j, hij using Nat.le_induction with
  | base => exact absurd rfl h
  | succ j hij ih =>
    by_cases hlast : (daemon.row (j + 1) agent route).count c = (daemon.row j agent route).count c
    · obtain ⟨n, id, hin, hnj, hrecords⟩ := ih (hlast ▸ h)
      exact ⟨n, id, hin, hnj.trans j.lt_succ_self, hrecords⟩
    · exact ⟨j, _, hij, j.lt_succ_self, records_of_count hlast⟩

/-- A success that a row shows was recorded by a turn. -/
theorem records_of_lastOk (h : (daemon.row j agent route).lastOkDelivery = some id) :
    ∃ n < j, daemon.Records n agent route id .ok := by
  induction j with
  | zero => cases h
  | succ j ih =>
    rcases daemon.row_succ j agent route with hkept | ⟨hid, hok⟩
    · obtain ⟨n, hn, hrecords⟩ := ih (hkept ▸ h)
      exact ⟨n, hn.trans j.lt_succ_self, hrecords⟩
    · have hmoved : (daemon.row (j + 1) agent route).count .ok ≠
          (daemon.row j agent route).count .ok := by
        change (daemon.row (j + 1) agent route).ok ≠ (daemon.row j agent route).ok
        omega
      have hrecords := records_of_count hmoved
      rw [Option.some.inj (hid.symm.trans h)] at hrecords
      exact ⟨j, j.lt_succ_self, hrecords⟩

end Daemon

/-! ## 3. The run -/

/-- The documents a run reads are the daemon's, each as it was after so many turns. -/
structure Shows (daemon : Daemon) (read : ℕ → EvidenceDocument) (seen : ℕ → ℕ)
    (agent route : String) : Prop where
  monotone : Monotone seen
  row : ∀ k, ((read k).wake agent).row route = daemon.row (seen k) agent route

/-- No turn from `i` on and before `j` records another delivery of this row, but as a success. -/
def Undisturbed (daemon : Daemon) (agent route id : String) (i j : ℕ) : Prop :=
  ∀ n id' c, i ≤ n → n < j → daemon.Records n agent route id' c → c ≠ .ok → id' = id

/-- A verdict on the run's own delivery: what it reports was recorded of this delivery by the turn
that the verdict was read after. -/
structure Own (daemon : Daemon) (seen : ℕ → ℕ) (result : ProbeResult) : Prop where
  proven : result.status = .proven → ∃ n < seen result.lastRead,
    daemon.Records n result.harnessKey result.route result.deliveryId .ok
  broken : result.injection.accepted = true → result.status = .broken →
    ∃ n < seen result.lastRead,
      daemon.Records n result.harnessKey result.route result.deliveryId .failed
  refused : ∀ reason, result.verdict = .refused reason → ∃ n < seen result.lastRead,
    daemon.Records n result.harnessKey result.route result.deliveryId .refused
  deduped : result.verdict = .deduped → ∃ n < seen result.lastRead,
    daemon.Records n result.harnessKey result.route result.deliveryId .deduped

/-- The counter a verdict is about, if it was read from one or from the last success. -/
def Verdict.counter : Verdict → Option Counter
  | .answered _ _ => some .ok
  | .incomplete _ => some .failed
  | .failed _ => some .failed
  | .refused _ => some .refused
  | .deduped => some .deduped
  | _ => none

theorem Verdict.counter_of_proven {v : Verdict} (h : v.status = .proven) :
    v.counter = some .ok := by
  cases v with
  | answered delivery time => rfl
  | _ => cases h

theorem Verdict.counter_of_broken {v : Verdict} {c : Counter} (h : v.status = .broken)
    (hc : v.counter = some c) : c = .failed := by
  cases v with
  | failed reason => exact (Option.some.inj hc).symm
  | unsigned => cases hc
  | declined status terminal => cases hc
  | _ => cases h

/-- A reading, as the row it was read from. -/
def WakeProof.ReadFrom (proof : WakeProof) (row : RouteWakeEvidence) : Prop :=
  proof.routeLastOkDelivery = row.lastOkDelivery ∧ proof.routeFailed = row.failed ∧
    proof.routeRefused = row.refused ∧ proof.routeDeduped = row.deduped

theorem Shows.readFrom {daemon : Daemon} {around : Surroundings} {seen : ℕ → ℕ}
    {probe : WakeProbe} {harnessKey : String}
    (h : Shows daemon around.read seen harnessKey probe.route) (k : ℕ) :
    (probe.proof around harnessKey k).ReadFrom (daemon.row (seen k) harnessKey probe.route) := by
  rw [← h.row k]
  exact ⟨rfl, rfl, rfl, rfl⟩

/-- A reading decides by the last success, or by another counter that has moved. -/
theorem decided_counter {delivery : String} {before after : WakeProof} {v : Verdict}
    {row row' : RouteWakeEvidence} (hbefore : before.ReadFrom row) (hafter : after.ReadFrom row')
    (h : decided delivery before after = some v) :
    (v.counter = some .ok ∧ row'.lastOkDelivery = some delivery) ∨
      ∃ c, v.counter = some c ∧ c ≠ .ok ∧ row'.count c ≠ row.count c := by
  obtain ⟨-, hfailed, hrefused, hdeduped⟩ := hbefore
  obtain ⟨hok', hfailed', hrefused', hdeduped'⟩ := hafter
  unfold decided at h
  rw [hok', hfailed, hfailed', hrefused, hrefused', hdeduped, hdeduped'] at h
  split at h
  · next hok =>
    cases h
    exact Or.inl ⟨rfl, hok⟩
  split at h
  · next hmoved =>
    right
    dsimp only at h
    split at h <;> cases h
    · exact ⟨.failed, rfl, by decide, hmoved⟩
    · exact ⟨.failed, rfl, by decide, hmoved⟩
  split at h
  · next hmoved =>
    cases h
    exact Or.inr ⟨.refused, rfl, by decide, hmoved⟩
  split at h
  · next hmoved =>
    cases h
    exact Or.inr ⟨.deduped, rfl, by decide, hmoved⟩
  · cases h

namespace WakeProbe

variable {probe : WakeProbe} {around : Surroundings} {harnessKey delivery marker : String}
variable {before after : WakeProof} {deadline : ℚ} {v : Verdict} {turns k k' : ℕ}

/-- The loop ends at one of its readings, which decides or is the last before the deadline. -/
theorem await_spec
    (h : probe.await around harnessKey delivery before deadline turns k = some (v, after, k')) :
    decided delivery before (probe.proof around harnessKey k') = some v ∨
      v.counter = none ∧ v.status = .unprovable := by
  induction turns generalizing k with
  | zero => cases h
  | succ turns ih =>
    unfold await at h
    dsimp only at h
    split at h
    · next verdict hdecided =>
      cases h
      exact Or.inl hdecided
    split at h
    · cases h
      exact Or.inr ⟨rfl, rfl⟩
    · exact ih h

theorem injectionVerdict_counter (i : Injection) : (injectionVerdict i).counter = none := by
  unfold injectionVerdict
  split
  · rfl
  split
  · rfl
  · rfl

/-- What the waiting returns: what one of its readings decides, or a verdict that is about no
outcome, and that is `unprovable` once the delivery was accepted. -/
theorem awaitOutcome_spec {injection : Injection}
    (h : probe.awaitOutcome around harnessKey delivery before injection turns =
      some (v, after, k)) :
    decided delivery before (probe.proof around harnessKey k) = some v ∨
      v.counter = none ∧ (injection.accepted = true → v.status = .unprovable) := by
  unfold awaitOutcome at h
  split at h
  · exact (await_spec h).imp_right fun hquiet => ⟨hquiet.1, fun _ => hquiet.2⟩
  · next hdeclined =>
    cases h
    exact Or.inr ⟨injectionVerdict_counter injection,
      fun haccepted => absurd haccepted hdeclined⟩

/-- What a run returns is what its waiting returns, with the run's own names. -/
theorem run_spec {result : ProbeResult}
    (h : probe.run around harnessKey marker turns = some (.ok result)) :
    result.harnessKey = harnessKey ∧ result.route = probe.route ∧
      result.deliveryId = around.mint ∧
      probe.awaitOutcome around harnessKey around.mint (probe.proof around harnessKey 0)
        result.injection turns = some (result.verdict, result.after, result.lastRead) := by
  unfold run at h
  split at h
  · cases h
  dsimp only at h
  split at h
  · cases h
  obtain ⟨⟨verdict, after, lastRead⟩, hawait, hresult⟩ := Option.map_eq_some_iff.mp h
  cases hresult
  exact ⟨rfl, rfl, rfl, hawait⟩

variable {daemon : Daemon} {seen : ℕ → ℕ}

/-- A success is read by the run's own delivery, whatever disturbed the row. -/
theorem records_of_proven (hshows : Shows daemon around.read seen harnessKey probe.route)
    (hproven : v.status = .proven)
    (h : decided delivery (probe.proof around harnessKey 0) (probe.proof around harnessKey k) =
      some v) : ∃ n < seen k, daemon.Records n harnessKey probe.route delivery .ok := by
  rcases decided_counter (hshows.readFrom 0) (hshows.readFrom k) h with ⟨-, hlast⟩ | ⟨c, hc, hne, -⟩
  · exact Daemon.records_of_lastOk hlast
  · cases hc.symm.trans (Verdict.counter_of_proven hproven)
    exact absurd rfl hne

/-- A verdict about an outcome is about one that a turn recorded of the run's own delivery, if no
other delivery disturbed the row until it was read. -/
theorem records_of_decided (hshows : Shows daemon around.read seen harnessKey probe.route)
    (hundisturbed : Undisturbed daemon harnessKey probe.route delivery (seen 0) (seen k))
    {c : Counter} (hc : v.counter = some c)
    (h : decided delivery (probe.proof around harnessKey 0) (probe.proof around harnessKey k) =
      some v) : ∃ n < seen k, daemon.Records n harnessKey probe.route delivery c := by
  rcases decided_counter (hshows.readFrom 0) (hshows.readFrom k) h with
    ⟨hok, hlast⟩ | ⟨c', hc', hne, hmoved⟩
  · cases hc.symm.trans hok
    exact Daemon.records_of_lastOk hlast
  · cases hc.symm.trans hc'
    obtain ⟨n, id, hlow, hhigh, hrecords⟩ :=
      Daemon.records_of_moved (hshows.monotone (Nat.zero_le k)) hmoved
    have hid : id = delivery := hundisturbed n id c hlow hhigh hrecords hne
    exact ⟨n, hhigh, hid ▸ hrecords⟩

/-- **Whose outcome a verdict reports**: what `proven` reports was recorded of the run's own
delivery, in any run; and so is what every verdict reports, if no other delivery of the probe's
route for the agent is recorded as anything but a success between the first reading and the one
that the verdict was read from. -/
theorem verdict_own (probe : WakeProbe) (around : Surroundings) (harnessKey marker : String)
    (turns : ℕ) (daemon : Daemon) (seen : ℕ → ℕ) (result : ProbeResult)
    (hshows : Shows daemon around.read seen harnessKey probe.route)
    (hrun : probe.run around harnessKey marker turns = some (.ok result)) :
    (result.status = .proven → ∃ n < seen result.lastRead,
      daemon.Records n result.harnessKey result.route result.deliveryId .ok) ∧
    (Undisturbed daemon harnessKey probe.route around.mint (seen 0) (seen result.lastRead) →
      Own daemon seen result) := by
  obtain ⟨hkey, hroute, hid, hawait⟩ := run_spec hrun
  have hverdict := awaitOutcome_spec hawait
  have hproven : result.status = .proven → ∃ n < seen result.lastRead,
      daemon.Records n result.harnessKey result.route result.deliveryId .ok := by
    intro hproven
    rw [hkey, hroute, hid]
    rcases hverdict with hdecided | ⟨hquiet, -⟩
    · exact records_of_proven hshows hproven hdecided
    · cases hquiet.symm.trans (Verdict.counter_of_proven hproven)
  refine ⟨hproven, fun hundisturbed => ?_⟩
  have hown : ∀ c, result.verdict.counter = some c → ∃ n < seen result.lastRead,
      daemon.Records n result.harnessKey result.route result.deliveryId c := by
    intro c hc
    rw [hkey, hroute, hid]
    rcases hverdict with hdecided | ⟨hquiet, -⟩
    · exact records_of_decided hshows hundisturbed hc hdecided
    · cases hc.symm.trans hquiet
  constructor
  case proven => exact hproven
  case broken =>
    intro haccepted hbroken
    obtain ⟨c, hc⟩ : ∃ c, result.verdict.counter = some c := by
      rcases hverdict with hdecided | ⟨-, hquiet⟩
      · rcases decided_counter (hshows.readFrom 0) (hshows.readFrom _) hdecided with
          ⟨hok, -⟩ | ⟨c, hc, -⟩
        · exact ⟨.ok, hok⟩
        · exact ⟨c, hc⟩
      · cases hbroken.symm.trans (hquiet haccepted)
    cases Verdict.counter_of_broken hbroken hc
    exact hown .failed hc
  case refused =>
    intro reason hrefused
    exact hown .refused (congrArg Verdict.counter hrefused)
  case deduped =>
    intro hdeduped
    exact hown .deduped (congrArg Verdict.counter hdeduped)

end WakeProbe

/-! ## 4. Two runs

Two probes of bob: the daemon wakes him for one delivery while the run for another waits. -/

/-- A marker for bob. -/
def bobMarker : String :=
  "BCNOC1 n1 0123456789abcdef0123456789abcdef0123456789abcdef0123456789abcdef"

theorem no_eventType : ∀ t ∈ (none : Option String), Models.Required t := by
  intro t h
  cases h

theorem required_harnessKey : Models.Required "harness_key" := by decide

theorem required_probe : Models.Required "probe" := by decide

theorem required_bobMarker : Models.Required bobMarker := by decide

theorem required_own : Models.Required "own" := by decide

theorem required_leftover : Models.Required "leftover" := by decide

/-- The daemon's event for a probe of bob. -/
def bobEvent (id : String) (h : Models.Required id) : Models.Event where
  source := "probe"
  kind := .syntheticProbe
  recipient := ⟨"harness_key", "bob", required_harnessKey, Models.required_bob⟩
  wakeArg := bobMarker
  deliveryId := id
  origin := none
  occurredAt := none
  eventType := none
  source_ok := required_probe
  wakeArg_ok := required_bobMarker
  deliveryId_ok := h
  eventType_ok := no_eventType

/-- A wake of bob for this delivery, with this outcome. -/
def bobTurn (id : String) (h : Models.Required id)
    (outcome : Except Wake.Raised Wake.WakeResult) : Turn :=
  ⟨.sample, .builder "bob" Models.required_bob, bobEvent id h, .sample 0 ⟨0, span_pos⟩ outcome⟩

/-- The run's own delivery, woken. -/
def ownTurn : Turn := bobTurn "own" required_own (.ok ⟨0⟩)

/-- What an earlier run left in the queue, failing. -/
def leftoverTurn : Turn := bobTurn "leftover" required_leftover (.error (.wakeError "down"))

/-- A daemon that takes these turns. -/
def bobDaemon (first second : Turn) : Daemon := ⟨⟨1⟩, fun n => if n = 0 then first else second⟩

def bobProbe : WakeProbe := ⟨"secret", none, "http://127.0.0.1:8000", "probe", 300⟩

/-- A run for the delivery `own` that reads the evidence before the daemon's first turn, and
after. -/
def bobSurroundings (daemon : Daemon) : Surroundings where
  mint := "own"
  read k := (daemon.evidence (min k 1)).doc
  post _ _ _ := .ok ⟨202, [("resolve", "ok")], ""⟩
  started := 0
  waiting := 0
  polled _ := 1
  ended := 1
  now := ⟨0, span_pos⟩
  hmac _ _ := ""
  dumps _ := []
  whole _ := "300"

theorem bob_shows (daemon : Daemon) :
    Shows daemon (bobSurroundings daemon).read (min · 1) "bob" "probe" where
  monotone _ _ h := min_le_min_right 1 h
  row _ := rfl

/-- A run of bob's ends at the first reading in the loop, if that decides. -/
theorem bob_run (daemon : Daemon) (status : Status)
    (h : (decided "own" (bobProbe.proof (bobSurroundings daemon) "bob" 0)
      (bobProbe.proof (bobSurroundings daemon) "bob" 1)).map Verdict.status = some status) :
    ∃ result, bobProbe.run (bobSurroundings daemon) "bob" bobMarker 1 = some (.ok result) ∧
      result.status = status ∧ result.injection.accepted = true ∧ result.lastRead = 1 := by
  obtain ⟨v, hdecided, hstatus⟩ := Option.map_eq_some_iff.mp h
  have hawait : bobProbe.awaitOutcome (bobSurroundings daemon) "bob" "own"
      (bobProbe.proof (bobSurroundings daemon) "bob" 0) ⟨202, [("resolve", "ok")], ""⟩ 1 =
        some (v, bobProbe.proof (bobSurroundings daemon) "bob" 1, 1) := by
    unfold WakeProbe.awaitOutcome WakeProbe.await
    dsimp only
    simp only [hdecided]
    rfl
  have hmarker : Wake.isMarker bobMarker = true := by decide +kernel
  unfold WakeProbe.run
  rw [hmarker]
  dsimp only [Bool.not_true, Bool.false_eq_true, if_false, WakeProbe.inject,
    bobSurroundings] at hawait ⊢
  rw [hawait]
  exact ⟨_, rfl, hstatus, rfl, rfl⟩

/-- A run whose own wake succeeds. -/
theorem WakeProbe.verdict_own_bob : ∃ result,
    bobProbe.run (bobSurroundings (bobDaemon ownTurn leftoverTurn)) "bob" bobMarker 1 =
      some (.ok result) ∧ result.status = .proven ∧
      Own (bobDaemon ownTurn leftoverTurn) (min · 1) result := by
  obtain ⟨result, hrun, hproven, -, hlast⟩ :=
    bob_run (bobDaemon ownTurn leftoverTurn) .proven (by decide +kernel)
  have hundisturbed : Undisturbed (bobDaemon ownTurn leftoverTurn) "bob" "probe" "own"
      (min 0 1) (min result.lastRead 1) := by
    intro n id c _ hn hrecords _
    rw [hlast] at hn
    cases Nat.lt_one_iff.mp hn
    exact hrecords.id.symm
  exact ⟨result, hrun, hproven, (verdict_own bobProbe _ "bob" bobMarker 1 _ _ result
    (bob_shows _) hrun).2 hundisturbed⟩

/-- A run that meets what another left in the queue: `broken`, though its own delivery has not had
its turn, and succeeds in it. -/
theorem WakeProbe.not_own_leftover : ∃ result,
    Shows (bobDaemon leftoverTurn ownTurn) (bobSurroundings (bobDaemon leftoverTurn ownTurn)).read
        (min · 1) "bob" "probe" ∧
      bobProbe.run (bobSurroundings (bobDaemon leftoverTurn ownTurn)) "bob" bobMarker 1 =
        some (.ok result) ∧ result.status = .broken ∧
      (bobDaemon leftoverTurn ownTurn).Records 1 "bob" "probe" "own" .ok ∧
      ¬ Own (bobDaemon leftoverTurn ownTurn) (min · 1) result := by
  obtain ⟨result, hrun, hbroken, haccepted, hlast⟩ :=
    bob_run (bobDaemon leftoverTurn ownTurn) .broken (by decide +kernel)
  refine ⟨result, bob_shows _, hrun, hbroken, ⟨rfl, rfl, rfl, by decide +kernel⟩, ?_⟩
  intro hown
  obtain ⟨n, hn, hrecords⟩ := hown.broken haccepted hbroken
  rw [hlast] at hn
  cases Nat.lt_one_iff.mp hn
  have hid : "leftover" = result.deliveryId := hrecords.id
  rw [(WakeProbe.run_spec hrun).2.2.1] at hid
  exact absurd hid (by decide)

end BasecradleRouter.ProbeRun
