/-
# What a waker runs

`wakeCommand` is the command of an agent's kind, with the event's one value as its last argument.
`HomeServerWaker` runs it through the wake-runner: `sudo`, the wrapper, its options, then either
`--` and the command or, for a probe, `--probe` and the marker.  `SubprocessWaker` runs it as it is.

A delivery id is passed on only if it is inert (`correlationId`); a probe's marker is refused unless
it has the form of one.
-/
import BasecradleRouter.Lib.OrderedDict
import BasecradleRouter.Lib.Pattern
import BasecradleRouter.Models
import BasecradleRouter.Wake

namespace BasecradleRouter.Wake

open BasecradleRouter.Lib BasecradleRouter.Models

/-- `_SAFE_DELIVERY_ID`: `\A[A-Za-z0-9_.:-]{1,128}\Z` -/
def safeDeliveryId : Pattern :=
  [⟨[('A', 'Z'), ('a', 'z'), ('0', '9'), ('_', '_'), ('.', '.'), (':', ':'), ('-', '-')], 1, 128⟩]

/-- `SCHEME` -/
def scheme : String := "BCNOC1"

/-- `_NONCE`: `[A-Za-z0-9_-]{1,128}` -/
def nonce : Piece := ⟨[('A', 'Z'), ('a', 'z'), ('0', '9'), ('_', '_'), ('-', '-')], 1, 128⟩

/-- `MARKER_RE`: the scheme, the nonce and `[0-9a-f]{64}`, a space between them. -/
def markerRe : Pattern :=
  Pattern.literal (scheme ++ " ") ++ [nonce] ++ Pattern.literal " " ++
    [⟨[('0', '9'), ('a', 'f')], 64, 64⟩]

/-- `is_marker` -/
def isMarker (value : String) : Bool := markerRe.fits value.toList

/-- `DELIVERY_ID_ENV` -/
def deliveryIdEnv : String := "BASECRADLE_DELIVERY_ID"

/-- `WAKE_RUNNER` -/
def wakeRunner : String := "/opt/basecradle-router/bin/wake-runner"

/-- `PROBE_FLAG` -/
def probeFlag : String := "--probe"

/-- The value the enumeration gives a kind. -/
def kindValue : EventKind → String
  | .handoff => "handoff"
  | .platformEvent => "platform_event"
  | .syntheticProbe => "synthetic_probe"

/-- `agent.wake_bin`, of an agent that has one. -/
def wakeBin (agent : Agent) : String := agent.wakeBin.getD ""

/-- `wake_command` -/
def wakeCommand (agent : Agent) (event : Event) : Except Raised (List String) :=
  if event.synthetic then
    .error (.wakeError ("refusing to build a wake command for a synthetic " ++
      kindValue event.kind ++ " event: " ++
      "a probe must never launch the agent's model — it travels the wake-runner's " ++
      "--probe mode, which acks after the privilege drop without exec'ing anything"))
  else
    match agent.wakeKind with
    | .harness => .ok [wakeBin agent, "--timeline", event.wakeArg]
    | .claude => .ok ["claude", "-p", event.wakeArg]

/-- `_correlation_id` -/
def correlationId (event : Event) : Option String :=
  if safeDeliveryId.fits event.deliveryId.toList then some event.deliveryId else none

/-- The command assembled for one wake. -/
structure WakeInvocation where
  argv : List String
  cwd : String
  env : OrderedDict String String
  runAsUser : String

/-- `SubprocessWaker.invocation_for` -/
def subprocessInvocation (envProvider : Agent → OrderedDict String String) (agent : Agent)
    (event : Event) : Except Raised WakeInvocation := do
  let argv ← wakeCommand agent event
  let env := envProvider agent
  return {
    argv := argv
    cwd := agent.clonePath
    env :=
      match correlationId event with
      | some delivery => env.set deliveryIdEnv delivery
      | none => env
    runAsUser := agent.osUser }

/-- `_mode_args`; `repr` is the interpreter's. -/
def modeArgs (repr : String → String) (agent : Agent) (event : Event) :
    Except Raised (List String) :=
  if !event.synthetic then do
    let command ← wakeCommand agent event
    return "--" :: command
  else if !isMarker event.wakeArg then
    .error (.wakeError ("refusing to wake " ++ agent.key ++ ": probe delivery " ++
      event.deliveryId ++ " carries a malformed BCNOC1 marker (" ++ repr event.wakeArg ++ ")"))
  else .ok [probeFlag, event.wakeArg]

/-- `HomeServerWaker.invocation_for` -/
def homeServerInvocation (repr : String → String) (wrapper : String) (agent : Agent)
    (event : Event) : Except Raised WakeInvocation := do
  let delivery :=
    match correlationId event with
    | none => []
    | some delivery => ["--delivery", delivery]
  let mode ← modeArgs repr agent event
  return {
    argv := ["sudo", wrapper, "--user", agent.osUser, "--cwd", agent.clonePath] ++ delivery ++ mode
    cwd := "/"
    env := .empty
    runAsUser := agent.osUser }

end BasecradleRouter.Wake
