/-
# The retry

`withRetry` runs an operation until it returns, retrying only a `TransientError` and sleeping
between tries.  The operation, the sleep and the hook are given the number of the attempt they
belong to, so that what each attempt meets can be told apart.
-/
import BasecradleRouter.Lib.Py
import BasecradleRouter.Wake

namespace BasecradleRouter.Concurrency

open BasecradleRouter.Lib BasecradleRouter.Wake

variable {σ α : Type}

/-- The loop of `with_retry`, with `left` attempts to go and `attempt` the next one. -/
def retryFrom (attempts : ℕ) (operation : ℕ → Py σ Raised α) (sleep : ℕ → Py σ Raised Unit)
    (onRetry : ℕ → Raised → Py σ Raised Unit) : ℕ → ℕ → Py σ Raised α
  | 0, _ => .raise (.other "with_retry exhausted its loop without returning or raising")
  | left + 1, attempt =>
    (operation attempt).handle fun exc =>
      match exc with
      | .transientError message =>
        if attempts ≤ attempt then
          .raise (.retryExhausted attempts (some message))
        else do
          onRetry attempt exc
          sleep attempt
          retryFrom attempts operation sleep onRetry left (attempt + 1)
      | exc => .raise exc

/-- `with_retry` -/
def withRetry (attempts : ℕ) (operation : ℕ → Py σ Raised α) (sleep : ℕ → Py σ Raised Unit)
    (onRetry : ℕ → Raised → Py σ Raised Unit) : Py σ Raised α :=
  if attempts < 1 then
    .raise (.other ("attempts must be >= 1, got " ++ toString attempts))
  else
    retryFrom attempts operation sleep onRetry attempts 1

end BasecradleRouter.Concurrency
