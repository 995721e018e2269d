/-
# Three programs, one argument list

`parseWake` is how the stop op reads a wake off a process's arguments, `optionLoop` and `modeChecks`
how the wake-runner reads its own.  Both take a flag with the argument after it, whatever that is,
until a `--` in the place of a flag; so what a value looks like is nothing to them
(`loop_options`).

`argv_agreement`: of a wake both read the agent's user and the delivery that the home server's waker
put there, and the wake-runner is left with exactly the command.  A probe is no wake to the stop op,
and to the wake-runner a marker without a command.
-/
import BasecradleRouter.Lib.Checked
import BasecradleRouter.Lib.PyStr
import BasecradleRouter.Wake.Invocation

namespace BasecradleRouter.Wake

open BasecradleRouter.Lib BasecradleRouter.Models

/-! ## 1. Reading options -/

/-- Options as they stand in an argument list. -/
def spelled (options : List (String × String)) : List String :=
  options.flatMap fun option => [option.1, option.2]

/-- **A loop that takes a flag with the argument after it** takes options one by one, whatever their
values are. -/
theorem loop_options {σ ρ : Type} {loop : σ → List String → ρ} {put : σ → String × String → σ}
    {known : String → Prop}
    (hstep : ∀ s flag value rest, known flag →
      loop s (flag :: value :: rest) = loop (put s (flag, value)) rest)
    {options : List (String × String)} (hknown : ∀ option ∈ options, known option.1) (s : σ)
    (rest : List String) : loop s (spelled options ++ rest) = loop (options.foldl put s) rest := by
  induction options generalizing s with
  | nil => rfl
  | cons option options ih =>
    have hrest : ∀ option ∈ options, known option.1 :=
      fun option hmem => hknown option (List.mem_cons_of_mem _ hmem)
    calc
      loop s (spelled (option :: options) ++ rest)
          = loop s (option.1 :: option.2 :: (spelled options ++ rest)) := rfl
      _ = loop (put s option) (spelled options ++ rest) :=
          hstep s option.1 option.2 _ (hknown option List.mem_cons_self)
      _ = loop (options.foldl put (put s option)) rest := ih hrest (put s option)

/-! ## 2. The stop op -/

/-- The loop of `parse_wake`, over the user and the delivery read so far. -/
def parseFlags (read : Option String × Option String) :
    List String → Option (String × Option String)
  | [] => none
  | ["--"] => (read.1.filter (· ≠ "")).map fun user => (user, read.2)
  | [_] => none
  | flag :: value :: rest =>
    if flag = "--" then (read.1.filter (· ≠ "")).map fun user => (user, read.2)
    else if flag = "--user" then parseFlags (some value, read.2) rest
    else if flag = "--cwd" then parseFlags read rest
    else if flag = "--delivery" then parseFlags (read.1, some value) rest
    else none

/-- `parse_wake` -/
def parseWake (argv : List String) : Option (String × Option String) :=
  match argv with
  | program :: wrapper :: rest =>
    if PyStr.basename program ≠ "sudo" ∨ wrapper ≠ wakeRunner then none
    else parseFlags (none, none) rest
  | _ => none

/-! ## 3. The wake-runner -/

/-- The variables the option loop sets, each empty until then. -/
structure Options where
  user : String
  cwd : String
  delivery : String
  probe : String
  deriving DecidableEq, Repr

def Options.unset : Options := ⟨"", "", "", ""⟩

/-- An option's value, under its flag. -/
def Options.put (o : Options) (option : String × String) : Options :=
  if option.1 = "--user" then { o with user := option.2 }
  else if option.1 = "--cwd" then { o with cwd := option.2 }
  else if option.1 = "--delivery" then { o with delivery := option.2 }
  else { o with probe := option.2 }

/-- The flags that take a value. -/
def runnerFlags : List String := ["--user", "--cwd", "--delivery", "--probe"]

/-- The option loop: the variables set, and what is left after the `--`; or the text it dies
with. -/
def optionLoop (o : Options) : List String → Except String (Options × List String)
  | [] => .ok (o, [])
  | [flag] =>
    if flag ∈ runnerFlags then .error (flag ++ " needs a value")
    else if flag = "--" then .ok (o, [])
    else .error ("unexpected argument before '--': " ++ flag)
  | flag :: value :: rest =>
    if flag ∈ runnerFlags then optionLoop (o.put (flag, value)) rest
    else if flag = "--" then .ok (o, value :: rest)
    else .error ("unexpected argument before '--': " ++ flag)

/-- `^BCNOC1\ [A-Za-z0-9_-]{1,128}\ [0-9a-f]{64}$` -/
def runnerMarker : Pattern := Pattern.literal "BCNOC1 " ++
  [⟨[('A', 'Z'), ('a', 'z'), ('0', '9'), ('_', '_'), ('-', '-')], 1, 128⟩] ++
  Pattern.literal " " ++ [⟨[('0', '9'), ('a', 'f')], 64, 64⟩]

/-- `^[A-Za-z0-9_.:-]{1,128}$` -/
def runnerDelivery : Pattern :=
  [⟨[('A', 'Z'), ('a', 'z'), ('0', '9'), ('_', '_'), ('.', '.'), (':', ':'), ('-', '-')], 1, 128⟩]

/-- The checks after the loop: a user and a clone; a probe without a command, its marker well
formed, or a command; a delivery that is inert, if there is any. -/
def modeChecks (o : Options) (command : List String) : Except String Unit := do
  if o.user = "" then .error "missing --user"
  if o.cwd = "" then .error "missing --cwd"
  if o.probe ≠ "" then
    match command with
    | first :: _ =>
      .error ("refusing: --probe takes no command after '--' (got: " ++ first ++ ")")
    | [] =>
      if !runnerMarker.fits o.probe.toList then
        .error "refusing: --probe must be 'BCNOC1 <nonce> <64-hex-hmac>'"
  else if command = [] then .error "missing command after '--' (expected: claude -p <trigger>)"
  if o.delivery ≠ "" then
    if !runnerDelivery.fits o.delivery.toList then
      .error "refusing: --delivery must match [A-Za-z0-9_.:-]\x7b1,128\x7d"

/-- What the wake-runner makes of its arguments: the variables, and the command. -/
def readArguments (arguments : List String) : Except String (Options × List String) := do
  let (o, command) ← optionLoop .unset arguments
  modeChecks o command
  return (o, command)

/-! ## 4. What they agree on -/

/-- The options of the home server's waker. -/
def wakeOptions (agent : Agent) (event : Event) : List (String × String) :=
  [("--user", agent.osUser), ("--cwd", agent.clonePath)] ++
    (correlationId event).toList.map fun delivery => ("--delivery", delivery)

/-- Both consumers know the waker's flags. -/
theorem wakeOptions_known {agent : Agent} {event : Event} {option : String × String}
    (h : option ∈ wakeOptions agent event) : option.1 ∈ ["--user", "--cwd", "--delivery"] := by
  unfold wakeOptions at h
  rw [List.mem_append, List.mem_map] at h
  rcases h with hfixed | ⟨delivery, -, rfl⟩
  · simp only [List.mem_cons, List.not_mem_nil, or_false] at hfixed
    rcases hfixed with rfl | rfl
    · simp
    · simp
  · simp

/-- What the stop op reads of the wrapper's call. -/
theorem parseWake_sudo (rest : List String) :
    parseWake ("sudo" :: wakeRunner :: rest) = parseFlags (none, none) rest := by
  unfold parseWake
  exact if_neg (by decide)

/-- The separator ends the options. -/
theorem parseFlags_separator (read : Option String × Option String) (rest : List String) :
    parseFlags read ("--" :: rest) =
      (read.1.filter (· ≠ "")).map fun user => (user, read.2) := by
  cases rest with
  | nil => rfl
  | cons _ _ => rfl

/-- The stop op takes the waker's options, whatever follows them. -/
theorem parseFlags_wakeOptions (agent : Agent) (event : Event) (rest : List String) :
    parseFlags (none, none) (spelled (wakeOptions agent event) ++ rest) =
      parseFlags (some agent.osUser, correlationId event) rest := by
  let put := fun (read : Option String × Option String) (option : String × String) =>
    if option.1 = "--user" then (some option.2, read.2)
    else if option.1 = "--cwd" then read
    else (read.1, some option.2)
  have hstep : ∀ read flag value rest, flag ∈ ["--user", "--cwd", "--delivery"] →
      parseFlags read (flag :: value :: rest) = parseFlags (put read (flag, value)) rest := by
    intro read flag value rest hflag
    simp only [List.mem_cons, List.not_mem_nil, or_false] at hflag
    rcases hflag with rfl | rfl | rfl
    · rfl
    · rfl
    · rfl
  rw [loop_options hstep fun option hmem => wakeOptions_known hmem]
  unfold wakeOptions
  cases correlationId event with
  | none => rfl
  | some delivery => rfl

/-- The wake-runner takes the waker's options, whatever follows them. -/
theorem optionLoop_wakeOptions (agent : Agent) (event : Event) (rest : List String) :
    optionLoop .unset (spelled (wakeOptions agent event) ++ rest) =
      optionLoop ⟨agent.osUser, agent.clonePath, (correlationId event).getD "", ""⟩ rest := by
  have hstep : ∀ (o : Options) flag value rest, flag ∈ runnerFlags →
      optionLoop o (flag :: value :: rest) = optionLoop (o.put (flag, value)) rest := by
    intro o flag value rest hflag
    rw [optionLoop, if_pos hflag]
  have hknown : ∀ option ∈ wakeOptions agent event, option.1 ∈ runnerFlags :=
    fun option hmem => List.mem_append_left ["--probe"] (wakeOptions_known hmem)
  rw [loop_options hstep hknown]
  unfold wakeOptions
  cases correlationId event with
  | none => rfl
  | some delivery => rfl

/-- What the home server's waker runs. -/
theorem homeServerInvocation_ok (wrapper : String) {repr : String → String} {agent : Agent}
    {event : Event} {mode : List String} (h : modeArgs repr agent event = .ok mode) :
    ∃ invocation, homeServerInvocation repr wrapper agent event = .ok invocation ∧
      invocation.argv = "sudo" :: wrapper :: (spelled (wakeOptions agent event) ++ mode) := by
  unfold homeServerInvocation
  rw [h]
  refine ⟨_, rfl, ?_⟩
  unfold wakeOptions spelled
  cases correlationId event with
  | none => rfl
  | some delivery => rfl

/-- What a probe runs, if it does not raise. -/
theorem homeServerInvocation_probe {repr : String → String} {wrapper : String} {agent : Agent}
    {event : Event} (hsynthetic : event.synthetic = true) {invocation : WakeInvocation}
    (h : homeServerInvocation repr wrapper agent event = .ok invocation) :
    isMarker event.wakeArg = true ∧ invocation.argv =
      "sudo" :: wrapper :: (spelled (wakeOptions agent event) ++ [probeFlag, event.wakeArg]) := by
  have hmode : modeArgs repr agent event =
      if !isMarker event.wakeArg then .error (.wakeError ("refusing to wake " ++ agent.key ++
        ": probe delivery " ++ event.deliveryId ++ " carries a malformed BCNOC1 marker (" ++
        repr event.wakeArg ++ ")"))
      else .ok [probeFlag, event.wakeArg] := by
    unfold modeArgs
    rw [hsynthetic]
    rfl
  cases hmarker : isMarker event.wakeArg with
  | false =>
    rw [hmarker] at hmode
    unfold homeServerInvocation at h
    rw [hmode] at h
    cases h
  | true =>
    rw [hmarker] at hmode
    obtain ⟨invocation', hinvocation', hargv⟩ := homeServerInvocation_ok wrapper hmode
    cases h.symm.trans hinvocation'
    exact ⟨rfl, hargv⟩

/-- A blank is no value. -/
theorem ne_empty {s : String} (h : Required s) : s ≠ "" := by
  rintro rfl
  cases h

/-- A delivery that is passed on is inert to the wake-runner as well. -/
theorem correlationId_fits {event : Event} {delivery : String}
    (h : correlationId event = some delivery) :
    delivery ≠ "" ∧ runnerDelivery.fits delivery.toList = true := by
  unfold correlationId at h
  split at h
  · next hfits =>
    cases h
    exact ⟨ne_empty event.deliveryId_ok, hfits⟩
  · cases h

/-- The wake-runner's checks of the delivery pass what the waker sends. -/
theorem modeChecks_ok (agent : Agent) (event : Event) {probe : String} {command : List String}
    (hmode : (probe = "" ∧ command ≠ []) ∨
      (probe ≠ "" ∧ command = [] ∧ runnerMarker.fits probe.toList = true)) :
    modeChecks ⟨agent.osUser, agent.clonePath, (correlationId event).getD "", probe⟩ command =
      .ok () := by
  have huser : agent.osUser ≠ "" := ne_empty agent.osUser_ok
  have hcwd : agent.clonePath ≠ "" := ne_empty agent.clonePath_ok
  have hdelivery : (correlationId event).getD "" ≠ "" →
      runnerDelivery.fits ((correlationId event).getD "").toList = true := by
    intro hne
    cases hid : correlationId event with
    | none => exact absurd (by rw [hid]; rfl) hne
    | some delivery => exact (correlationId_fits hid).2
  unfold modeChecks
  dsimp only
  by_cases hgiven : (correlationId event).getD "" = ""
  · rcases hmode with ⟨rfl, hcommand⟩ | ⟨hprobe, rfl, hfits⟩
    · simp [huser, hcwd, hcommand, hgiven, pure, Except.pure]
    · simp [huser, hcwd, hprobe, hfits, hgiven, pure, Except.pure]
  · have hinert := hdelivery hgiven
    rcases hmode with ⟨rfl, hcommand⟩ | ⟨hprobe, rfl, hfits⟩
    · simp [huser, hcwd, hcommand, hgiven, hinert, pure, Except.pure]
    · simp [huser, hcwd, hprobe, hfits, hgiven, hinert, pure, Except.pure]

/-- What an argument list has run: its own first word, and where the wake-runner takes it the first
word of the command that is left. -/
def launched (argv : List String) : List String :=
  argv.head?.toList ++
    match readArguments (argv.drop 2) with
    | .ok (_, command) => command.head?.toList
    | .error _ => []

/-- **The three programs agree on the arguments of a wake**, and on those of a probe. -/
theorem argv_agreement (repr : String → String) (envProvider : Agent → OrderedDict String String)
    (agent : Agent) (event : Event) :
    (event.synthetic = false → ∃ invocation command,
      homeServerInvocation repr wakeRunner agent event = .ok invocation ∧
      wakeCommand agent event = .ok command ∧
      parseWake invocation.argv = some (agent.osUser, correlationId event) ∧
      readArguments (invocation.argv.drop 2) =
        .ok (⟨agent.osUser, agent.clonePath, (correlationId event).getD "", ""⟩, command)) ∧
    (event.synthetic = true →
      (∀ invocation, homeServerInvocation repr wakeRunner agent event = .ok invocation →
        parseWake invocation.argv = none ∧
        readArguments (invocation.argv.drop 2) = .ok
          (⟨agent.osUser, agent.clonePath, (correlationId event).getD "", event.wakeArg⟩, [])) ∧
      (∀ invocation, subprocessInvocation envProvider agent event ≠ .ok invocation) ∧
      ∀ wrapper invocation, homeServerInvocation repr wrapper agent event = .ok invocation →
        launched invocation.argv = ["sudo"]) := by
  have hprobe : ∀ {wrapper invocation}, event.synthetic = true →
      homeServerInvocation repr wrapper agent event = .ok invocation →
      readArguments (invocation.argv.drop 2) = .ok
        (⟨agent.osUser, agent.clonePath, (correlationId event).getD "", event.wakeArg⟩, []) := by
    intro wrapper invocation hsynthetic hinvocation
    obtain ⟨hmarker, hargv⟩ := homeServerInvocation_probe hsynthetic hinvocation
    have hchecks := modeChecks_ok agent event
      (Or.inr ⟨ne_empty event.wakeArg_ok, rfl, hmarker⟩)
    have hloop : optionLoop ⟨agent.osUser, agent.clonePath, (correlationId event).getD "", ""⟩
        [probeFlag, event.wakeArg] = .ok (⟨agent.osUser, agent.clonePath,
          (correlationId event).getD "", event.wakeArg⟩, []) := rfl
    unfold readArguments
    rw [hargv, List.drop_succ_cons, List.drop_succ_cons, List.drop_zero, optionLoop_wakeOptions]
    exact bind_eq_ok.mpr ⟨_, hloop, bind_eq_ok.mpr ⟨(), hchecks, rfl⟩⟩
  constructor
  · intro hreal
    obtain ⟨first, command, hcommand⟩ : ∃ first command,
        wakeCommand agent event = .ok (first :: command) := by
      unfold wakeCommand
      rw [hreal]
      cases agent.wakeKind with
      | claude => exact ⟨_, _, rfl⟩
      | harness => exact ⟨_, _, rfl⟩
    have hmode : modeArgs repr agent event = .ok ("--" :: first :: command) := by
      unfold modeArgs
      rw [hreal, hcommand]
      rfl
    obtain ⟨invocation, hinvocation, hargv⟩ :=
      homeServerInvocation_ok wakeRunner hmode
    have hchecks := modeChecks_ok agent event
      (Or.inl ⟨rfl, List.cons_ne_nil first command⟩)
    refine ⟨invocation, first :: command, hinvocation, hcommand, ?_, ?_⟩
    · have huser : (some agent.osUser).filter (fun x => decide (x ≠ "")) = some agent.osUser := by
        rw [Option.filter_some, if_pos (decide_eq_true (ne_empty agent.osUser_ok))]
      rw [hargv, parseWake_sudo, parseFlags_wakeOptions, parseFlags_separator, huser]
      rfl
    · have hloop : optionLoop ⟨agent.osUser, agent.clonePath, (correlationId event).getD "", ""⟩
          ("--" :: first :: command) = .ok (⟨agent.osUser, agent.clonePath,
            (correlationId event).getD "", ""⟩, first :: command) := rfl
      unfold readArguments
      rw [hargv, List.drop_succ_cons, List.drop_succ_cons, List.drop_zero, optionLoop_wakeOptions]
      exact bind_eq_ok.mpr ⟨_, hloop, bind_eq_ok.mpr ⟨(), hchecks, rfl⟩⟩
  · intro hsynthetic
    refine ⟨fun invocation hinvocation => ⟨?_, hprobe hsynthetic hinvocation⟩, ?_, ?_⟩
    · obtain ⟨-, hargv⟩ := homeServerInvocation_probe hsynthetic hinvocation
      rw [hargv]
      rw [parseWake_sudo, parseFlags_wakeOptions]
      rfl
    · intro invocation h
      unfold subprocessInvocation wakeCommand at h
      rw [if_pos hsynthetic] at h
      cases h
    · intro wrapper invocation hinvocation
      obtain ⟨-, hargv⟩ := homeServerInvocation_probe hsynthetic hinvocation
      unfold launched
      rw [hprobe hsynthetic hinvocation, hargv]
      rfl

end BasecradleRouter.Wake
