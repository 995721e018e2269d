/-
# Across the boundary and back

A probe crosses the boundary and comes back as an exit code and a text.  `probeSide` is the whole
of the far side: the wrapper, the agent's shell that loads the agent's environment and enters its
clone, and the verifier.  `resultOrRaise` is what the waker makes of what comes back.

The verifier is a program of an interpreter that is started in the agent's environment and as the
agent, and looks there for code to load before it comes to the verifier.  So the interpreter is a
parameter, and runs the verifier as it is installed where there is no such code (`RunsVerifier`).

The code itself goes no further than the waker's text.  So whoever reads the text later has to find
in it that nothing was proven: `carried` and `not_carried` say when it is found, in as much of the
text as the evidence keeps.
-/
import BasecradleRouter.Lib.Occurs
import BasecradleRouter.Lib.PyStr
import BasecradleRouter.ProbeAck
import BasecradleRouter.ProbeRun
import BasecradleRouter.WakeRunner.Boundary

namespace BasecradleRouter.WakeRunner

open BasecradleRouter.Lib BasecradleRouter.Models BasecradleRouter.Wake BasecradleRouter.ProbeAck
open BasecradleRouter.Evidence BasecradleRouter.ProbeRun

/-! ## 1. The far side -/

/-- What a probe meets behind the wrapper: the environment that `runuser` gives, the agent's
`agent.env` where it can be read, what its shell makes of the shell's own names there, whether the
clone can be entered, what the shell says where one of the two fails, whether the account has site
packages of its own, how the interpreter runs a program in an environment and a directory, and how
digests are made. -/
structure AgentSide where
  inherited : Environment
  envFile : Option (List Char)
  ownNames : OwnNames
  enters : Bool
  complaint : String
  userSite : Bool
  interpreter : Environment → String → List String → Ended
  hmac : String → String → String

/-- How the names begin that have code loaded into a process: the interpreter's, the dynamic
linker's, the C library's, and those of the library that makes digests. -/
def loaderHeads : List (List Char) :=
  ["PYTHON".toList, "LD_".toList, "GLIBC_TUNABLES".toList, "GCONV_PATH".toList, "LOCPATH".toList,
    "MALLOC_".toList, "OPENSSL_".toList]

/-- An environment with none of them. -/
def Plain (env : Environment) : Prop :=
  ∀ name, (∃ head ∈ loaderHeads, head <+: name) → env name = none

/-- The interpreter runs the verifier as it is installed, in a plain environment and of an account
without site packages. -/
def AgentSide.RunsVerifier (side : AgentSide) : Prop :=
  side.userSite = false → ∀ env, Plain env → ∀ cwd argv,
    side.interpreter env cwd (probeAck :: argv) =
      main side.hmac (fun name => (env name.toList).map String.ofList) cwd argv

/-- The environment of the program that `AGENT_SCRIPT` execs; `none` where it does not come to
that. -/
def AgentSide.environment (side : AgentSide) (delivery : String) : Option Environment :=
  (match side.envFile with
    | some text => loadAgentEnv side.ownNames side.inherited text
    | none => some side.inherited).bind fun env =>
  if !side.enters then none
  else if delivery = "" then some env
  else some (Function.update env deliveryIdEnv.toList (some delivery.toList))

/-- What a probe's argument list comes back with. -/
def probeSide {Id : Type} (box : Box Id) (side : AgentSide) (arguments : List String) : Ended :=
  match run box arguments with
  | .error refusal => ⟨refusal.code, "", refusal.line⟩
  | .ok launch =>
    match side.environment launch.delivery with
    | none => ⟨1, "", side.complaint⟩
    | some env => side.interpreter env launch.cwd launch.args

/-- `STOP_SIGNALS` -/
def stopSignal (code : ℤ) : Option String :=
  if code = -15 then some "TERM" else if code = -9 then some "KILL" else none

/-- `result.stderr.strip() or result.stdout.strip() or "(no output)"` -/
def detail (ended : Ended) : String :=
  if PyStr.strip ended.stderr ≠ "" then PyStr.strip ended.stderr
  else if PyStr.strip ended.stdout ≠ "" then PyStr.strip ended.stdout
  else "(no output)"

/-- `_result_or_raise` -/
def resultOrRaise (agent : Agent) (ended : Ended) : Except Raised WakeResult :=
  if ended.code = 0 then .ok ⟨ended.code⟩
  else
    match stopSignal ended.code with
    | some signal => .error (.wakeStopped ("wake of " ++ agent.key ++ " stopped by SIG" ++ signal ++
        " (exit " ++ toString ended.code ++ "): " ++ detail ended) signal ended.code)
    | none => .error (.wakeError ("wake of " ++ agent.key ++ " exited " ++ toString ended.code ++
        ": " ++ detail ended))

/-! ## 2. What the wrapper says -/

/-- How a line begins that says that nothing could be proven. -/
def unprovenHead : List Char := "wake-runner: could not prove:".toList

theorem launchProbe_refused {Id : Type} {box : Box Id} {o : Options} {clone bin : String}
    {refusal : Refusal} (h : launchProbe box o clone bin = .error refusal) :
    refusal.code = 75 ∧ unprovenHead <+: refusal.line.toList := by
  unfold launchProbe at h
  cases hverifier : box.executable probeAck.toList with
  | false =>
    rw [hverifier] at h
    cases h
    exact ⟨rfl, by decide +kernel⟩
  | true =>
    rw [hverifier] at h
    cases hpython : box.trusted "python3" with
    | none =>
      rw [hpython] at h
      cases h
      exact ⟨rfl, by decide⟩
    | some python =>
      rw [hpython] at h
      cases h

/-- A probe that is refused has one of two codes, and says so where it could not prove anything. -/
theorem run_refused {Id : Type} {box : Box Id} {arguments : List String} {o : Options}
    (hread : readArguments arguments = .ok (o, [])) (hprobe : o.probe ≠ "") {refusal : Refusal}
    (h : run box arguments = .error refusal) :
    refusal.code = 1 ∨ (refusal.code = 75 ∧ unprovenHead <+: refusal.line.toList) := by
  unfold run at h
  rcases bind_eq_error.mp h with h | ⟨-, -, h⟩
  · exact Or.inl (dies_require _ h)
  rw [hread] at h
  rcases bind_eq_error.mp h with h | ⟨_, heq, h⟩
  · cases h
  cases heq
  rcases bind_eq_error.mp h with h | ⟨⟨clone, bin⟩, -, h⟩
  · exact Or.inl (dies_resolve _ _ _ h)
  · dsimp only at h
    rw [if_pos hprobe] at h
    exact Or.inr (launchProbe_refused h)

/-! ## 3. What is read from it -/

theorem toList_strip (text : String) : (PyStr.strip text).toList =
    (text.toList.dropWhile PyStr.isSpace).rdropWhile PyStr.isSpace := String.toList_ofList

/-- A text's spaces at its ends are all that is stripped. -/
theorem strip_within (text : String) : (PyStr.strip text).toList <:+: text.toList := by
  rw [toList_strip]
  exact (List.rdropWhile_prefix PyStr.isSpace _).isInfix.trans
    (List.dropWhile_suffix PyStr.isSpace).isInfix

/-- What a text begins with stays, where it neither begins nor ends with a space. -/
theorem strip_keeps {text : String} {c d : Char} {word : List Char}
    (h : c :: (word ++ [d]) <+: text.toList) (hc : PyStr.isSpace c = false)
    (hd : PyStr.isSpace d = false) : c :: (word ++ [d]) <+: (PyStr.strip text).toList := by
  obtain ⟨rest, hrest⟩ := h
  rw [toList_strip, ← hrest, List.cons_append, List.dropWhile_cons_of_neg (by simp [hc])]
  have hkept : ∀ rest : List Char, c :: (word ++ [d]) <+:
      (c :: (word ++ [d] ++ rest)).rdropWhile PyStr.isSpace := by
    intro rest
    induction rest using List.reverseRecOn with
    | nil =>
      rw [List.append_nil, ← List.cons_append, List.rdropWhile_concat_neg _ _ _ (by simp [hd])]
    | append_singleton rest e ih =>
      have hsnoc : c :: (word ++ [d] ++ (rest ++ [e])) = c :: (word ++ [d] ++ rest) ++ [e] := by
        simp
      rw [hsnoc]
      by_cases he : PyStr.isSpace e = true
      · rw [List.rdropWhile_concat_pos _ _ _ he]
        exact ih
      · rw [List.rdropWhile_concat_neg _ _ _ he]
        exact ⟨rest ++ [e], by simp⟩
  exact hkept rest

/-! ## 4. What is left of it in the evidence -/

/-- The text of a wake that failed. -/
def failure (agent : Agent) (ended : Ended) : String :=
  "wake of " ++ agent.key ++ " exited " ++ toString ended.code ++ ": " ++ detail ended

/-- How long a key may be for what comes after it to be kept. -/
def maxKey : ℕ := 151

/-- A line that says that nothing could be proven keeps its head. -/
theorem detail_unproven {ended : Ended} {program : List Char}
    (hprogram : program = "wake-runner: ".toList ∨ program = "probe-ack: ".toList)
    (h : program ++ unprovableMarker.toList <+: ended.stderr.toList) :
    program ++ unprovableMarker.toList <+: (detail ended).toList := by
  have hstrip : program ++ unprovableMarker.toList <+: (PyStr.strip ended.stderr).toList := by
    have hrunner : "wake-runner: ".toList ++ unprovableMarker.toList =
        'w' :: ("ake-runner: could not prove".toList ++ [':']) := by decide
    have hack : "probe-ack: ".toList ++ unprovableMarker.toList =
        'p' :: ("robe-ack: could not prove".toList ++ [':']) := by decide
    rcases hprogram with rfl | rfl
    · rw [hrunner] at h ⊢
      exact strip_keeps h (by decide) (by decide)
    · rw [hack] at h ⊢
      exact strip_keeps h (by decide) (by decide)
  have hne : PyStr.strip ended.stderr ≠ "" := by
    intro hempty
    rw [hempty] at hstrip
    have hnil := List.prefix_nil.mp hstrip
    rw [List.append_eq_nil_iff] at hnil
    exact absurd hnil.2 (by decide)
  unfold detail
  rwa [if_pos hne]

/-- **What could not be proven is found** after a key that is not too long. -/
theorem carried {agent : Agent} (hkey : agent.key.toList.length ≤ maxKey) {ended : Ended}
    (hcode : ended.code = 75) {program : List Char}
    (hprogram : program = "wake-runner: ".toList ∨ program = "probe-ack: ".toList)
    (h : program ++ unprovableMarker.toList <+: ended.stderr.toList) :
    unprovableMarker.toList <:+: (reasonText (failure agent ended)).toList := by
  obtain ⟨rest, hrest⟩ := detail_unproven hprogram h
  have hfailure : (failure agent ended).toList =
      ("wake of ".toList ++ (agent.key.toList ++ (" exited 75: ".toList ++ program))) ++
        (unprovableMarker.toList ++ rest) := by
    unfold failure
    rw [hcode]
    simp only [String.toList_append, ← hrest, List.append_assoc]
    rfl
  have hlength : program.length ≤ 13 := by
    rcases hprogram with rfl | rfl
    · decide
    · decide
  have hwake : "wake of ".toList.length = 8 := rfl
  have hexited : " exited 75: ".toList.length = 12 := rfl
  have hmarker : unprovableMarker.toList.length = 16 := rfl
  unfold reasonText
  rw [String.toList_ofList, hfailure]
  refine infix_take ?_
  rw [List.length_append, List.length_append, List.length_append, hwake, hexited, hmarker]
  unfold maxKey at hkey
  unfold maxReason
  omega

/-- **And nothing else is**, where the key and what was said do not have the words themselves. -/
theorem not_carried {agent : Agent}
    (hkey : ¬ unprovableMarker.toList <:+: agent.key.toList) {ended : Ended}
    (hcode : ended.code = 1) (hstdout : ended.stdout = "")
    (h : ¬ unprovableMarker.toList <:+: ended.stderr.toList) :
    ¬ unprovableMarker.toList <:+: (reasonText (failure agent ended)).toList := by
  have hne : unprovableMarker.toList ≠ [] := by decide
  have hdetail : ¬ unprovableMarker.toList <:+: (detail ended).toList := by
    unfold detail
    rw [hstdout]
    by_cases hstderr : PyStr.strip ended.stderr ≠ ""
    · rw [if_pos hstderr]
      exact fun hmem => h (hmem.trans (strip_within ended.stderr))
    · rw [if_neg hstderr]
      decide
  have hfailure : (failure agent ended).toList = (['w', 'a', 'k', 'e', ' ', 'o'] ++
      'f' :: (' ' :: ((agent.key.toList ++ [' ']) ++ ['e']))) ++
        'x' :: (['i', 't', 'e', 'd', ' '] ++ '1' :: (':' :: ' ' :: (detail ended).toList)) := by
    unfold failure
    rw [hcode]
    simp
    rfl
  intro hmem
  unfold reasonText at hmem
  rw [String.toList_ofList] at hmem
  have hmem := hmem.trans (List.take_prefix _ _).isInfix
  rw [hfailure, infix_separated (by decide), infix_separated (by decide),
    infix_separated (by decide)] at hmem
  rcases hmem with (hmem | hmem) | hmem | hmem
  · exact absurd hmem (by decide)
  · rw [infix_cons_of_ne hne (by decide), infix_concat_of_ne hne (by decide),
      infix_concat_of_ne hne (by decide)] at hmem
    exact hkey hmem
  · exact absurd hmem (by decide)
  · rw [infix_cons_of_ne hne (by decide), infix_cons_of_ne hne (by decide)] at hmem
    exact hdetail hmem

end BasecradleRouter.WakeRunner
