/-
# What a wake ends in

A waker returns a clean run or raises.  `Raised` is what may come up through the pipeline: a
`WakeError` (a failure the pipeline retries), a `WakeStopped` (an operator's stop), the retry
machinery's own two exceptions (`RetryExhausted` with its cause's text), and any other
exception by its text.
-/
import Mathlib.Data.Int.Notation
import Mathlib.Data.Nat.Notation

namespace BasecradleRouter.Wake

/-- An exception on its way up. -/
inductive Raised
  | wakeError (message : String)
  | wakeStopped (message signal : String) (exitCode : ℤ)
  | transientError (message : String)
  | retryExhausted (attempts : ℕ) (cause : Option String)
  | other (text : String)
  deriving DecidableEq, Repr

/-- `str(exc)` -/
def Raised.text : Raised → String
  | .wakeError message => message
  | .wakeStopped message _ _ => message
  | .transientError message => message
  | .retryExhausted attempts _ =>
    "operation still failing after " ++ toString attempts ++ " attempt(s); giving up"
  | .other text => text

/-- A clean run. -/
structure WakeResult where
  exitCode : ℤ
  deriving DecidableEq, Repr

end BasecradleRouter.Wake
