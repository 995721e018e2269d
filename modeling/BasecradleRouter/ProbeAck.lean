/-
# `probe-ack`

The last program of a probe: the wrapper has dropped to the agent, whose shell has loaded the
agent's environment and execs this with the probe's marker and the name of the binary that a wake
would have run.  It verifies the marker with the agent's own secret, and runs nothing.

A marker is the scheme, a nonce and a signature (`groups_iff`), so what the program verifies is all
there is in it.
-/
import BasecradleRouter.Lib.Pattern
import BasecradleRouter.Wake.Invocation
import Mathlib.Data.List.TakeWhile

namespace BasecradleRouter.ProbeAck

open BasecradleRouter.Lib BasecradleRouter.Wake

/-- What a program leaves: its exit code, and what it has printed. -/
structure Ended where
  code : ℤ
  stdout : String
  stderr : String
  deriving DecidableEq, Repr

/-- `ACK_TAG` -/
def ackTag : String := scheme ++ "-ACK"

/-- `PROBE_SECRET_ENV` -/
def probeSecretEnv : String := "NOC_PROBE_SECRET"

/-- The groups of `_MARKER_RE`: the nonce, and the signature after it. -/
def groups (marker : String) : Option (String × String) :=
  if isMarker marker then
    let rest := marker.toList.drop (scheme ++ " ").length
    some (String.ofList (rest.takeWhile (· ≠ ' ')),
      String.ofList ((rest.dropWhile (· ≠ ' ')).drop 1))
  else none

/-! ## 1. The program -/

section

variable (hmac : String → String → String) (environ : String → Option String) (cwd : String)

/-- `_signature`; `hmac` is the hex HMAC-SHA256 of a message, keyed by a secret. -/
def signature (nonce secret : String) : String := hmac secret (scheme ++ " " ++ nonce)

/-- `os.environ.get('USER') or os.environ.get('LOGNAME') or default` -/
def account (default : String) : String :=
  (((environ "USER").filter (· ≠ "")).or ((environ "LOGNAME").filter (· ≠ ""))).getD default

/-- What is said where the agent has no secret. -/
def unarmed : String :=
  "probe-ack: could not prove: no " ++ probeSecretEnv ++ " armed for " ++
    account environ "this agent" ++ "; " ++
    "arm it with `basecradle-noc mint-probe-secret --agent <slug>`. " ++
    "Refusing rather than falling through to a real wake.\n"

/-- What is said where the agent's secret is not the one that signed. -/
def drifted : String :=
  "probe-ack: proven broken: the marker does not verify against this agent's " ++
    probeSecretEnv ++ " — the NOC's copy and this agent's copy have drifted; " ++
    "re-run `basecradle-noc mint-probe-secret`, which writes both.\n"

/-- `main`, of a marker and the binary that a wake would have run. -/
def verify (marker wouldExec : String) : Ended :=
  match groups marker with
  | none => ⟨1, "", "probe-ack: refusing: not a well-formed " ++ scheme ++ " marker\n"⟩
  | some (nonce, given) =>
    let secret := (environ probeSecretEnv).getD ""
    if secret = "" then ⟨75, "", unarmed environ⟩
    else if signature hmac nonce secret ≠ given then ⟨1, "", drifted⟩
    else ⟨0, ackTag ++ " " ++ nonce ++ "\n" ++ "probe-ack: acked as " ++ account environ "?" ++
      " in " ++ cwd ++ "; a real wake would have exec'd " ++ wouldExec ++ "\n", ""⟩

/-- `main` -/
def main (argv : List String) : Ended :=
  match argv with
  | [marker] => verify hmac environ cwd marker "(unknown)"
  | [marker, wouldExec] => verify hmac environ cwd marker wouldExec
  | _ => ⟨75, "", "probe-ack: usage: probe-ack '" ++ scheme ++ " <nonce> <hmac>' [would-exec]\n"⟩

end

/-! ## 2. What a marker is -/

/-- A text without a space. -/
theorem spaceless {p : Piece} {text : List Char} (hspace : p.accepts ' ' = false)
    (h : ∀ c ∈ text, p.accepts c = true) : ∀ c ∈ text, decide (c ≠ ' ') = true := by
  intro c hc
  rw [decide_eq_true_iff]
  rintro rfl
  rw [h ' ' hc] at hspace
  cases hspace

/-- The form of a marker. -/
theorem isMarker_iff {marker : String} : isMarker marker = true ↔ ∃ word given : List Char,
    Pattern.fits [nonce] word = true ∧
      Pattern.fits [⟨[('0', '9'), ('a', 'f')], 64, 64⟩] given = true ∧
      marker.toList = (scheme ++ " ").toList ++ (word ++ ' ' :: given) := by
  unfold isMarker markerRe
  simp only [Pattern.fits_append, Pattern.fits_literal]
  constructor
  · rintro ⟨_, given, hmarker, ⟨_, _, rfl, ⟨_, word, rfl, rfl, hword⟩, rfl⟩, hgiven⟩
    exact ⟨word, given, hword, hgiven, by simp [hmarker]⟩
  · rintro ⟨word, given, hword, hgiven, hmarker⟩
    exact ⟨_, given, by simp [hmarker], ⟨_, _, rfl, ⟨_, word, rfl, rfl, hword⟩, rfl⟩, hgiven⟩

/-- **A marker is its scheme, its nonce and its signature.** -/
theorem groups_iff {marker word given : String} : groups marker = some (word, given) ↔
    Pattern.fits [nonce] word.toList = true ∧
      Pattern.fits [⟨[('0', '9'), ('a', 'f')], 64, 64⟩] given.toList = true ∧
      marker = scheme ++ " " ++ word ++ " " ++ given := by
  have hgroups : ∀ word given : List Char, Pattern.fits [nonce] word = true →
      marker.toList = (scheme ++ " ").toList ++ (word ++ ' ' :: given) →
      isMarker marker = true →
      groups marker = some (String.ofList word, String.ofList given) := by
    intro word given hword hmarker hform
    have hspaceless := spaceless (by decide) (Pattern.fits_one.mp hword).2.2
    have hdrop : marker.toList.drop (scheme ++ " ").length = word ++ ' ' :: given := by
      rw [hmarker]
      rfl
    unfold groups
    rw [if_pos hform]
    dsimp only
    rw [hdrop, List.takeWhile_append_of_pos hspaceless, List.dropWhile_append_of_pos hspaceless]
    simp
  constructor
  · intro h
    have hform : isMarker marker = true := by
      unfold groups at h
      by_contra hform
      rw [if_neg hform] at h
      cases h
    obtain ⟨word', given', hword, hgiven, hmarker⟩ := isMarker_iff.mp hform
    rw [hgroups word' given' hword hmarker hform] at h
    cases h
    refine ⟨by simpa using hword, by simpa using hgiven, String.ext ?_⟩
    simp [hmarker]
  · rintro ⟨hword, hgiven, rfl⟩
    have hmarker : (scheme ++ " " ++ word ++ " " ++ given).toList =
        (scheme ++ " ").toList ++ (word.toList ++ ' ' :: given.toList) := by simp
    rw [hgroups word.toList given.toList hword hmarker
      (isMarker_iff.mpr ⟨_, _, hword, hgiven, hmarker⟩), String.ofList_toList, String.ofList_toList]

theorem groups_isSome {marker : String} (h : isMarker marker = true) :
    ∃ word given, groups marker = some (word, given) := by
  unfold groups
  rw [if_pos h]
  exact ⟨_, _, rfl⟩

end BasecradleRouter.ProbeAck
