/-
# The wake-lock guard's decision

The guard reads the NOC's lock file for an agent and decides whether the wake may fire.  This
module holds what it decides; the pipeline takes each decision as a reading of the file.
-/
import Mathlib.Tactic.Common

namespace BasecradleRouter.WakeLock

/-- What a lock file amounts to when it is read. -/
inductive WakeLockState
  | absent
  | held
  | stale
  | unparseable
  | unreadable
  deriving DecidableEq, Repr

/-- `_WAKE_STATES` -/
def WakeLockState.waking : WakeLockState → Bool
  | .absent => true
  | .stale => true
  | .unreadable => true
  | .held => false
  | .unparseable => false

/-- What the guard decided for one agent: the state, the one-line reason a stage record carries,
and the decision's raw parts. -/
structure WakeLockDecision where
  state : WakeLockState
  detail : String
  reason : String
  lockReason : String
  expiresAt : String
  deriving DecidableEq, Repr

/-- `WakeLockDecision.should_wake` -/
def WakeLockDecision.shouldWake (d : WakeLockDecision) : Bool := d.state.waking

/-- `WakeLockDecision(WakeLockState.ABSENT)` -/
def WakeLockDecision.noLock : WakeLockDecision := ⟨.absent, "", "", "", ""⟩

end BasecradleRouter.WakeLock
