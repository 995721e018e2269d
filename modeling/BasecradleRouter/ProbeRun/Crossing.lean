/-
# The verdict of the far side

What a probe finds out on the far side of the boundary comes back as an exit code, goes into the
evidence as the text of a failure, and is read from there by who has asked.  `probe_verdict` is the
way of it: a probe that gets to its agent is proven exactly if the agent's own secret has signed the
marker, unprovable exactly if the agent has no secret or the wrapper has not what it takes to ask,
and broken otherwise.

So much holds of an agent's key that is not so long that the evidence cuts the answer off, and of a
key and texts that do not say themselves that something could not be proven.  An agent whose
environment or account has the interpreter load other code may answer what it likes.
-/
import BasecradleRouter.ProbeRun.Verdicts
import BasecradleRouter.WakeRunner.Agreement
import BasecradleRouter.WakeRunner.FarSide

namespace BasecradleRouter.ProbeRun

open BasecradleRouter.Lib BasecradleRouter.Models BasecradleRouter.Wake BasecradleRouter.Evidence
open BasecradleRouter.Config BasecradleRouter.Pipeline BasecradleRouter.ProbeAck
open BasecradleRouter.WakeRunner

/-! ## 1. How a probe's execute ends -/

section

variable {p : Pipeline} {agent : Agent} {event : Event} {r : Readings} {W : World}

/-- A probe is tried once. -/
theorem tries_probe (h : event.synthetic = true) : (tries p agent event r).result =
    match (r.attempt 1).outcome with
    | .ok result => .ok result
    | .error exc =>
      match transient exc with
      | none => .error exc
      | some message => .error (.retryExhausted 1 (some message)) := by
  have hone : p.attempts event = 1 := by
    unfold Pipeline.attempts
    rw [h]
    rfl
  unfold tries
  rw [hone, if_neg (by decide)]
  unfold triesFrom
  cases (r.attempt 1).outcome with
  | ok result => rfl
  | error exc =>
    dsimp only
    cases transient exc with
    | none => rfl
    | some message => rfl

/-- The exit of a probe that gets to its wake, by what came back. -/
theorem exitOf_probe (h : event.synthetic = true) (hreaches : reachesWake agent event r W = true)
    {ended : Ended} (houtcome : (r.attempt 1).outcome = resultOrRaise agent ended) :
    exitOf p agent event r.calm W =
      if ended.code = 0 then .woke ⟨ended.code⟩
      else
        match stopSignal ended.code with
        | some signal => .stopped signal ended.code
        | none => .exhausted (failure agent ended) := by
  have hcalm : reachesWake agent event r.calm W = true := hreaches
  have hresult : (tries p agent event r.calm).result = _ := tries_probe h
  have hfirst : (r.calm.attempt 1).outcome = resultOrRaise agent ended := houtcome
  rw [exitOf_eq_wakeExit hcalm]
  unfold wakeExit
  rw [hresult, hfirst]
  unfold resultOrRaise
  by_cases hcode : ended.code = 0
  · rw [if_pos hcode, if_pos hcode]
    rfl
  · rw [if_neg hcode, if_neg hcode]
    cases stopSignal ended.code with
    | some signal => rfl
    | none => rfl

end

/-! ## 2. What is read of it -/

/-- What the evidence says of an agent and a route. -/
def reading (W : World) (agent : Agent) (event : Event) : WakeProof :=
  .read W.evidence.doc agent.harnessKey event.source

/-- The verdict of who has read the evidence before a delivery and after. -/
def verdict (p : Pipeline) (W : World) (d : Delivery) : Option Verdict :=
  decided d.event.deliveryId (reading W d.agent d.event) (reading (W.step p d) d.agent d.event)

variable {p : Pipeline} {W : World} {d : Delivery} {ended : Ended}

/-- A row after a recorder. -/
theorem row_amended (s : EvidenceStore) (agent route : String) (f : Flush)
    (onWake : AgentWakeEvidence → AgentWakeEvidence)
    (onRow : RouteWakeEvidence → RouteWakeEvidence) :
    ((s.amend agent route f onWake onRow).doc.wake agent).row route =
      onRow ((s.doc.wake agent).row route) := by
  rw [row_amend, if_pos ⟨rfl, rfl⟩]

/-- What is read after a failure was recorded. -/
theorem reading_failed {W' : World} {agent : Agent} {event : Event} {f : Flush} {reason : String}
    (h : W'.evidence =
      W.evidence.recordWakeFailed agent.harnessKey reason event.source event.synthetic f) :
    (reading W' agent event).routeLastOkDelivery = (reading W agent event).routeLastOkDelivery ∧
      (reading W' agent event).routeFailed = (reading W agent event).routeFailed + 1 ∧
      (reading W' agent event).routeLastFailedReason = some (reasonText reason) := by
  have hrow : (W'.evidence.doc.wake agent.harnessKey).row event.source =
      { (W.evidence.doc.wake agent.harnessKey).row event.source with
        failed := ((W.evidence.doc.wake agent.harnessKey).row event.source).failed + 1
        lastFailedAt := some f.now.isoformat
        lastFailedReason := some (reasonText reason) } := by
    rw [h]
    exact row_amended _ _ _ _ _ _
  unfold reading WakeProof.read
  dsimp only
  rw [hrow]
  exact ⟨rfl, rfl, rfl⟩

/-- **What is read of a probe that got to its wake**, by what came back. -/
theorem verdict_of_ended (hsynthetic : d.event.synthetic = true)
    (hreaches : reachesWake d.agent d.event d.readings W = true)
    (houtcome : (d.readings.attempt 1).outcome = resultOrRaise d.agent ended)
    (hfresh : (reading W d.agent d.event).routeLastOkDelivery ≠ some d.event.deliveryId) :
    (verdict p W d).map Verdict.status =
      if ended.code = 0 then some .proven
      else if (stopSignal ended.code).isSome then none
      else if unprovableMarker.toList <:+: (reasonText (failure d.agent ended)).toList then
        some .unprovable
      else some .broken := by
  have hexit := exitOf_probe (p := p) hsynthetic hreaches houtcome
  have hevidence := step_evidence (p := p) (W := W) (d := d)
  rw [hexit] at hevidence
  unfold verdict
  by_cases hcode : ended.code = 0
  · rw [if_pos hcode] at hevidence ⊢
    have hok : (reading (W.step p d) d.agent d.event).routeLastOkDelivery =
        some d.event.deliveryId := by
      unfold reading
      rw [hevidence]
      exact congrArg RouteWakeEvidence.lastOkDelivery (row_amended _ _ _ _ _ _)
    unfold decided
    rw [if_pos hok]
    rfl
  · rw [if_neg hcode] at hevidence ⊢
    cases hstop : stopSignal ended.code with
    | some signal =>
      rw [hstop] at hevidence
      have hsame : reading (W.step p d) d.agent d.event = reading W d.agent d.event := by
        unfold reading
        rw [hevidence]
        rfl
      unfold decided
      rw [hsame, if_neg hfresh]
      simp
    | none =>
      rw [hstop] at hevidence
      obtain ⟨hkept, hfailed, hreason⟩ := reading_failed hevidence
      unfold decided
      rw [hkept, if_neg hfresh, hfailed, if_pos (by omega), hreason]
      by_cases hmarked : unprovableMarker.toList <:+: (reasonText (failure d.agent ended)).toList
      · simp [hmarked, Verdict.status]
      · simp [hmarked, Verdict.status]

/-! ## 3. Across and back -/

variable {Id : Type} {box : Box Id} {side : AgentSide} {arguments : List String}

/-- A probe that gets to its waker, and crosses the boundary from there. -/
structure Crosses (W : World) (d : Delivery) (box : Box Id) (side : AgentSide)
    (arguments : List String) : Prop where
  synthetic : d.event.synthetic = true
  reaches : reachesWake d.agent d.event d.readings W = true
  asked : ∃ repr invocation,
    homeServerInvocation repr wakeRunner d.agent d.event = .ok invocation ∧
      arguments = invocation.argv.drop 2
  outcome : (d.readings.attempt 1).outcome = resultOrRaise d.agent (probeSide box side arguments)
  /-- the delivery's id is new -/
  fresh : (reading W d.agent d.event).routeLastOkDelivery ≠ some d.event.deliveryId
  short : d.agent.key.toList.length ≤ maxKey
  key : ¬ unprovableMarker.toList <:+: d.agent.key.toList
  complaint : ¬ unprovableMarker.toList <:+: side.complaint.toList
  runs : side.RunsVerifier
  userSite : side.userSite = false

/-- What the verdict of a probe says of the far side. -/
structure Faithful (p : Pipeline) (W : World) (d : Delivery) (box : Box Id) (side : AgentSide)
    (arguments : List String) : Prop where
  /-- the agent has been reached, and has no other code loaded: its own secret decides -/
  reached : ∀ launch env, run box arguments = .ok launch →
    side.environment launch.delivery = some env → Plain env → ∃ word given,
      d.event.wakeArg = scheme ++ " " ++ word ++ " " ++ given ∧
      (verdict p W d).map Verdict.status = some
        (let secret := ((env probeSecretEnv.toList).map String.ofList).getD ""
        if secret = "" then .unprovable
        else if side.hmac secret (scheme ++ " " ++ word) = given then .proven
        else .broken)
  /-- its environment or its clone has not -/
  lost : ∀ launch, run box arguments = .ok launch → side.environment launch.delivery = none →
    (verdict p W d).map Verdict.status = some .broken
  /-- the wrapper has not the means to ask -/
  unproven : ∀ refusal, run box arguments = .error refusal → refusal.code = 75 →
    (verdict p W d).map Verdict.status = some .unprovable
  /-- it refuses -/
  refused : ∀ refusal, run box arguments = .error refusal → refusal.code ≠ 75 →
    ¬ unprovableMarker.toList <:+: refusal.line.toList →
    (verdict p W d).map Verdict.status = some .broken
  /-- and whatever it says of that, nothing is proven -/
  honest : ∀ refusal, run box arguments = .error refusal →
    (verdict p W d).map Verdict.status ≠ some .proven

/-- What the wrapper reads of a probe that crosses. -/
theorem Crosses.read (h : Crosses W d box side arguments) :
    isMarker d.event.wakeArg = true ∧ readArguments arguments = .ok (⟨d.agent.osUser,
      d.agent.clonePath, (correlationId d.event).getD "", d.event.wakeArg⟩, []) := by
  obtain ⟨repr, invocation, hinvocation, rfl⟩ := h.asked
  exact ⟨(homeServerInvocation_probe h.synthetic hinvocation).1,
    read_probe h.synthetic hinvocation⟩

/-- It is proven if the answer is. -/
theorem Crosses.proven (h : Crosses W d box side arguments) {ended : Ended}
    (hended : probeSide box side arguments = ended) (hcode : ended.code = 0) :
    (verdict p W d).map Verdict.status = some .proven := by
  have houtcome := h.outcome
  rw [hended] at houtcome
  rw [verdict_of_ended h.synthetic h.reaches houtcome h.fresh, if_pos hcode]

/-- Of an answer that is none, the text decides. -/
theorem Crosses.told (h : Crosses W d box side arguments) {ended : Ended}
    (hended : probeSide box side arguments = ended) (hcode : ended.code = 1 ∨ ended.code = 75) :
    (verdict p W d).map Verdict.status =
      if unprovableMarker.toList <:+: (reasonText (failure d.agent ended)).toList then
        some .unprovable
      else some .broken := by
  have houtcome := h.outcome
  rw [hended] at houtcome
  have hsome : ended.code ≠ 0 := by omega
  have hnone : ¬ (stopSignal ended.code).isSome = true := by
    rcases hcode with hcode | hcode <;> rw [hcode] <;> decide
  rw [verdict_of_ended h.synthetic h.reaches houtcome h.fresh, if_neg hsome, if_neg hnone]

theorem Crosses.unprovable (h : Crosses W d box side arguments) {ended : Ended}
    (hended : probeSide box side arguments = ended) (hcode : ended.code = 75)
    {program : List Char}
    (hprogram : program = "wake-runner: ".toList ∨ program = "probe-ack: ".toList)
    (hline : program ++ unprovableMarker.toList <+: ended.stderr.toList) :
    (verdict p W d).map Verdict.status = some .unprovable := by
  rw [h.told hended (Or.inr hcode), if_pos (carried h.short hcode hprogram hline)]

theorem Crosses.broken (h : Crosses W d box side arguments) {ended : Ended}
    (hended : probeSide box side arguments = ended) (hcode : ended.code = 1)
    (hstdout : ended.stdout = "") (hline : ¬ unprovableMarker.toList <:+: ended.stderr.toList) :
    (verdict p W d).map Verdict.status = some .broken := by
  rw [h.told hended (Or.inl hcode), if_neg (not_carried h.key hcode hstdout hline)]

/-- An answer that is none proves nothing. -/
theorem Crosses.unproven (h : Crosses W d box side arguments) {ended : Ended}
    (hended : probeSide box side arguments = ended) (hcode : ended.code = 1 ∨ ended.code = 75) :
    (verdict p W d).map Verdict.status ≠ some .proven := by
  rw [h.told hended hcode]
  split
  · simp
  · simp

/-- What a refusal comes back as. -/
theorem probeSide_refused {refusal : Refusal} (hrun : run box arguments = .error refusal) :
    probeSide box side arguments = ⟨refusal.code, "", refusal.line⟩ := by
  unfold probeSide
  rw [hrun]

/-- What comes back where the agent's side does not get to the verifier. -/
theorem probeSide_lost {launch : Launch} (hrun : run box arguments = .ok launch)
    (henv : side.environment launch.delivery = none) :
    probeSide box side arguments = ⟨1, "", side.complaint⟩ := by
  unfold probeSide
  rw [hrun]
  dsimp only
  rw [henv]

/-- What the verifier is given of a probe that is launched. -/
theorem Crosses.launched (h : Crosses W d box side arguments) {launch : Launch}
    (hrun : run box arguments = .ok launch) :
    ∃ bin, launch.args = [probeAck, d.event.wakeArg, bin] := by
  obtain ⟨hmarker, hread⟩ := h.read
  obtain ⟨-, o, command, clone, bin, hread', -, hlaunch⟩ := run_ok.mp hrun
  cases hread.symm.trans hread'
  rw [if_pos (ne_empty d.event.wakeArg_ok)] at hlaunch
  obtain ⟨-, python, -, rfl⟩ := launchProbe_ok.mp hlaunch
  exact ⟨bin, rfl⟩

/-- What comes back where it does: what the verifier says of the agent's environment. -/
theorem Crosses.verified (h : Crosses W d box side arguments) {launch : Launch}
    {env : Environment} (hrun : run box arguments = .ok launch)
    (henv : side.environment launch.delivery = some env) (hplain : Plain env) :
    ∃ bin, probeSide box side arguments = verify side.hmac
      (fun name => (env name.toList).map String.ofList) launch.cwd d.event.wakeArg bin := by
  obtain ⟨bin, hargs⟩ := h.launched hrun
  refine ⟨bin, ?_⟩
  unfold probeSide
  rw [hrun]
  dsimp only
  rw [henv]
  dsimp only
  rw [hargs, h.runs h.userSite env hplain]
  rfl

/-- An agent without a secret says so. -/
theorem unarmed_begins (environ : String → Option String) :
    "probe-ack: ".toList ++ unprovableMarker.toList <+: (unarmed environ).toList := by
  have hhead : "probe-ack: ".toList ++ unprovableMarker.toList <+:
      "probe-ack: could not prove: no ".toList := by decide
  unfold unarmed
  simp only [String.toList_append, List.append_assoc]
  exact hhead.trans (List.prefix_append _ _)

/-- An agent that is reached answers by its own secret. -/
theorem Crosses.reached (h : Crosses W d box side arguments) {launch : Launch}
    {env : Environment} (hrun : run box arguments = .ok launch)
    (henv : side.environment launch.delivery = some env) (hplain : Plain env) :
    ∃ word given, d.event.wakeArg = scheme ++ " " ++ word ++ " " ++ given ∧
      (verdict p W d).map Verdict.status = some
        (let secret := ((env probeSecretEnv.toList).map String.ofList).getD ""
        if secret = "" then .unprovable
        else if side.hmac secret (scheme ++ " " ++ word) = given then .proven
        else .broken) := by
  obtain ⟨word, given, hgroups⟩ := groups_isSome h.read.1
  obtain ⟨bin, hside⟩ := h.verified hrun henv hplain
  refine ⟨word, given, (groups_iff.mp hgroups).2.2, ?_⟩
  unfold verify at hside
  rw [hgroups] at hside
  dsimp only at hside ⊢
  by_cases hsecret : ((env probeSecretEnv.toList).map String.ofList).getD "" = ""
  · rw [if_pos hsecret] at hside ⊢
    exact h.unprovable hside rfl (Or.inr rfl) (unarmed_begins _)
  · rw [if_neg hsecret] at hside ⊢
    unfold signature at hside
    by_cases hgiven : side.hmac (((env probeSecretEnv.toList).map String.ofList).getD "")
        (scheme ++ " " ++ word) = given
    · rw [if_neg (not_not.mpr hgiven)] at hside
      rw [if_pos hgiven]
      exact h.proven hside rfl
    · rw [if_pos hgiven] at hside
      rw [if_neg hgiven]
      exact h.broken hside rfl rfl (by decide +kernel)

/-- **A probe's verdict is the far side's answer.** -/
theorem probe_verdict (p : Pipeline) (h : Crosses W d box side arguments) :
    Faithful p W d box side arguments := by
  have hrefused {refusal : Refusal} (hrun : run box arguments = .error refusal) :=
    run_refused h.read.2 (ne_empty d.event.wakeArg_ok) hrun
  refine ⟨fun launch env hrun henv hplain => ?_, fun launch hrun henv => ?_,
    fun refusal hrun hcode => ?_, fun refusal hrun hcode hline => ?_, fun refusal hrun => ?_⟩
  · exact h.reached hrun henv hplain
  · exact h.broken (probeSide_lost hrun henv) rfl rfl h.complaint
  · rcases hrefused hrun with hone | ⟨hcode', hline⟩
    · omega
    · exact h.unprovable (probeSide_refused hrun) (by rw [hcode]; rfl) (Or.inl rfl) hline
  · rcases hrefused hrun with hone | ⟨hcode', -⟩
    · exact h.broken (probeSide_refused hrun) (by rw [hone]; rfl) rfl hline
    · exact absurd hcode' hcode
  · rcases hrefused hrun with hone | ⟨hcode', -⟩
    · exact h.unproven (probeSide_refused hrun) (Or.inl (by rw [hone]; rfl))
    · exact h.unproven (probeSide_refused hrun) (Or.inr (by rw [hcode']; rfl))

theorem required_nova : Required "nova" := by decide

theorem required_novaKey : Required "basecradle/nova" := by decide

theorem required_novaClone : Required "/home/nova/w" := by decide

theorem nova_claude : WakeKind.claude = .claude → ∃ slug ∈ some "nova", Required slug :=
  fun _ => ⟨"nova", rfl, required_nova⟩

/-- The agent of `novaBox`. -/
def novaAgent : Agent where
  key := "basecradle/nova"
  osUser := "nova"
  clonePath := "/home/nova/w"
  wakeKind := .claude
  botSlug := some "nova"
  recipientUuid := none
  wakeBin := none
  key_ok := required_novaKey
  osUser_ok := required_nova
  clonePath_ok := required_novaClone
  claude_ok := nova_claude
  harness_ok := no_harness

/-- How digests are made for one secret and one message. -/
def novaHmac (secret message : String) : String :=
  if secret = "s" ∧ message = "BCNOC1 n1" then
    "0123456789abcdef0123456789abcdef0123456789abcdef0123456789abcdef"
  else "0000000000000000000000000000000000000000000000000000000000000000"

/-- An agent with a secret, and a marker that is signed with it. -/
def novaSide : AgentSide where
  inherited _ := none
  envFile := some "NOC_PROBE_SECRET=s\n".toList
  ownNames _ _ shell _ := some shell.env
  enters := true
  complaint := "wake-runner: line 51: cd: /home/nova/w: No such file or directory\n"
  userSite := false
  interpreter env cwd args :=
    main novaHmac (fun name => (env name.toList).map String.ofList) cwd args.tail
  hmac := novaHmac

/-- What the daemon has `sudo` run for a probe of nova. -/
def novaArguments : List String :=
  ["--user", "nova", "--cwd", "/home/nova/w", "--delivery", "own", "--probe", bobMarker]

def novaProbe : Delivery :=
  ⟨novaAgent, bobEvent "own" required_own,
    .sample 0 ⟨0, span_pos⟩ (resultOrRaise novaAgent (probeSide novaBox novaSide novaArguments))⟩

/-- The environment that the verifier is given. -/
def novaEnvironment : Environment :=
  Function.update (Function.update (fun _ => none) probeSecretEnv.toList (some ['s']))
    deliveryIdEnv.toList (some "own".toList)

theorem plain_nova : Plain novaEnvironment := by
  rintro name ⟨head, hhead, hname⟩
  have hother : ∀ own : List Char, ¬ (loaderHeads.any fun head => head.isPrefixOf own) = true →
      name ≠ own := by
    rintro own hown rfl
    exact hown (List.any_eq_true.mpr ⟨head, hhead, List.isPrefixOf_iff_prefix.mpr hname⟩)
  unfold novaEnvironment
  rw [Function.update_of_ne (hother _ (by decide)), Function.update_of_ne (hother _ (by decide))]

theorem run_nova : run novaBox novaArguments = .ok ⟨none, "nova", "/home/nova/w", "own",
    "/usr/bin/python3", [probeAck, bobMarker, "/usr/bin/claude"]⟩ := by
  refine run_ok.mpr ⟨rfl, ⟨"nova", "/home/nova/w", "own", bobMarker⟩, [], "/home/nova/w",
    "/usr/bin/claude", by decide +kernel, resolve_ok.mpr ?_, by decide +kernel⟩
  refine ⟨⟨1001, rfl, by decide⟩, ⟨(entered_eq (by decide)).symm, nova_confined⟩,
    "basecradle/nova".toList, "github".toList, [], rfl, ?_⟩
  exact sanctioned_ok.mpr (Or.inl ⟨rfl, by simp, rfl⟩)

/-- A probe of nova, who is reached. -/
theorem probe_verdict_nova : Faithful ⟨1⟩ .sample novaProbe novaBox novaSide novaArguments ∧
    ∃ launch env, run novaBox novaArguments = .ok launch ∧
      novaSide.environment launch.delivery = some env ∧ Plain env := by
  refine ⟨probe_verdict ⟨1⟩ ⟨rfl, by decide +kernel, ?_, rfl, by decide +kernel, by decide,
    by decide, by decide +kernel, fun _ _ _ _ _ => rfl, rfl⟩, _, novaEnvironment, run_nova, rfl,
    plain_nova⟩
  have hmode : modeArgs id novaAgent (bobEvent "own" required_own) =
      .ok ["--probe", bobMarker] := by decide +kernel
  obtain ⟨invocation, hinvocation, hargv⟩ := homeServerInvocation_ok wakeRunner hmode
  refine ⟨id, invocation, hinvocation, ?_⟩
  rw [hargv]
  decide +kernel

end BasecradleRouter.ProbeRun
