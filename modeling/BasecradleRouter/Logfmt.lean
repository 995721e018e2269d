/-
# The grammar of a log line

`logFields` renders a run of `key=value` tokens and drops the empty ones; `renderValue` is its
value rule (flatten, then quote).  The rendered run is what a stage record keeps as its
`detail`, so the pipeline's records are built from this module.  Colour is presentation and
never enters a record; it is left to the line handed to the logger.
-/
import BasecradleRouter.Lib.PyStr
import Mathlib.Data.Int.Notation

namespace BasecradleRouter.Logfmt

open BasecradleRouter.Lib

/-- What a field may hold: Python's `None`, a `bool`, an `int` or a `str`. -/
inductive Value
  | none
  | bool (b : Bool)
  | int (i : ℤ)
  | str (s : String)
  deriving DecidableEq, Repr

/-- A field whose string may be absent. -/
def Value.ofOption : Option String → Value
  | .none => .none
  | .some s => .str s

/-- `_CONTROL`: C0, DEL and C1. -/
def isControl (c : Char) : Bool := c.toNat ≤ 0x1f || (0x7f ≤ c.toNat && c.toNat ≤ 0x9f)

/-- `" ".join(_CONTROL.sub(" ", text).split())` -/
def flatten (text : List Char) : List Char :=
  PyStr.join [' '] (PyStr.split (text.map fun c => if isControl c then ' ' else c))

/-- Quote a value that holds a space, an `=` or a double quote, its own quotes made single. -/
def quote (text : List Char) : List Char :=
  if text.contains ' ' || text.contains '=' || text.contains '"' then
    '"' :: (text.map fun c => if c = '"' then '\'' else c) ++ ['"']
  else
    text

/-- `str(value)`, with a `bool` in lower case. -/
def Value.text : Value → String
  | .none => "None"
  | .bool b => if b then "true" else "false"
  | .int i => toString i
  | .str s => s

/-- `_render_value` -/
def renderValue (v : Value) : List Char := quote (flatten v.text.toList)

/-- One field's token, absent where the value is `None` or renders empty. -/
def field (pair : String × Value) : Option (List Char) :=
  match pair.2 with
  | .none => Option.none
  | v =>
    let text := renderValue v
    if text.isEmpty then Option.none else some (pair.1.toList ++ '=' :: text)

/-- `log_fields(**pairs)` -/
def logFields (pairs : List (String × Value)) : String :=
  String.ofList (PyStr.join [' '] (pairs.filterMap field))

example : logFields [("delivery", .str "d 1"), ("exit", .int 0), ("error", .none)] =
    "delivery=\"d 1\" exit=0" := by decide

end BasecradleRouter.Logfmt
