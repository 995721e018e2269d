/-
# Aware datetimes

Python's aware `datetime` is a wall clock reading together with an offset from UTC.  The
reading lies in years 1 to 9999 and the offset within a day, but the *instant* the two denote
may fall outside that range: such a datetime compares like any other and cannot be converted
to UTC.  `Datetime` keeps both halves, `Utc` is a datetime already in UTC, and
`Datetime.astimezoneUtc` is the conversion, `none` where Python raises `OverflowError`.

Calendar dates are read off the proleptic Gregorian ordinal the way CPython does it, so that
`Utc.isoformat` is the text CPython prints.
-/
import Mathlib.Algebra.Order.Group.Unbundled.Int
import Mathlib.Tactic.Common

namespace BasecradleRouter.Lib

/-- Microseconds in a day. -/
def dayMicros : ℕ := 86400 * 1000000

/-- Microseconds from `datetime.min` to just past `datetime.max`. -/
def spanMicros : ℕ := 3652059 * dayMicros

theorem span_pos : 0 < spanMicros := by decide

/-- UTC's own offset is one. -/
theorem no_offset_lt : |(0 : ℤ)| < dayMicros := by decide

/-- An aware datetime: microseconds since 0001-01-01T00:00:00 on its own clock, and how far
that clock stands ahead of UTC. -/
structure Datetime where
  wall : ℕ
  offset : ℤ
  wall_lt : wall < spanMicros
  offset_lt : |offset| < dayMicros
  deriving DecidableEq

/-- A datetime in UTC. -/
structure Utc where
  micros : ℕ
  micros_lt : micros < spanMicros
  deriving DecidableEq

namespace Datetime

/-- The instant denoted, in microseconds since 0001-01-01T00:00:00Z; aware datetimes compare
by it. -/
def instant (d : Datetime) : ℤ := d.wall - d.offset

/-- `d.astimezone(timezone.utc)` -/
def astimezoneUtc (d : Datetime) : Option Utc :=
  if h : 0 ≤ d.instant ∧ d.instant < spanMicros then
    some ⟨d.instant.toNat, by omega⟩
  else
    none

end Datetime

namespace Utc

/-- `datetime.min`, in UTC. -/
def earliest : Utc := ⟨0, span_pos⟩

/-- The instant, on the scale `Datetime.instant` uses. -/
def instant (u : Utc) : ℤ := u.micros

def daysBeforeMonth : List ℕ := [0, 0, 31, 59, 90, 120, 151, 181, 212, 243, 273, 304, 334]

def daysInMonth : List ℕ := [0, 31, 28, 31, 30, 31, 30, 31, 31, 30, 31, 30, 31]

/-- CPython's `_ord2ymd`: the year, month and day of an ordinal. -/
def ord2ymd (ordinal : ℕ) : ℕ × ℕ × ℕ :=
  let n := ordinal - 1
  let n400 := n / 146097
  let n := n % 146097
  let n100 := n / 36524
  let n := n % 36524
  let n4 := n / 1461
  let n := n % 1461
  let n1 := n / 365
  let n := n % 365
  let year := n400 * 400 + 1 + n100 * 100 + n4 * 4 + n1
  if n1 = 4 ∨ n100 = 4 then
    (year - 1, 12, 31)
  else
    let leap := n1 = 3 ∧ (n4 ≠ 24 ∨ n100 = 3)
    let month := (n + 50) / 32
    let preceding := daysBeforeMonth.getD month 0 + (if month > 2 ∧ leap then 1 else 0)
    if preceding > n then
      let month := month - 1
      let preceding := preceding - (daysInMonth.getD month 0 + if month = 2 ∧ leap then 1 else 0)
      (year, month, n - preceding + 1)
    else
      (year, month, n - preceding + 1)

/-- `n` in decimal, padded with zeros to `width`. -/
def padded (width n : ℕ) : String :=
  let digits := toString n
  String.ofList (List.replicate (width - digits.length) '0') ++ digits

/-- Date and time of day, with the microseconds only where there are any. -/
def wallText (u : Utc) : String :=
  let (year, month, day) := ord2ymd (u.micros / dayMicros + 1)
  let rest := u.micros % dayMicros
  let seconds := rest / 1000000
  let micros := rest % 1000000
  padded 4 year ++ "-" ++ padded 2 month ++ "-" ++ padded 2 day ++ "T" ++
    padded 2 (seconds / 3600) ++ ":" ++ padded 2 (seconds / 60 % 60) ++ ":" ++
    padded 2 (seconds % 60) ++ (if micros = 0 then "" else "." ++ padded 6 micros)

/-- `u.isoformat()` -/
def isoformat (u : Utc) : String := u.wallText ++ "+00:00"

/-- `u.isoformat().replace("+00:00", "Z")`: the offset is the only place that text occurs. -/
def isoformatZ (u : Utc) : String := u.wallText ++ "Z"

end Utc

end BasecradleRouter.Lib
