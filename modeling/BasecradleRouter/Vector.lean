/-
# A failed model call, as the log pipeline writes it

`ai_otel_llm` renders a builder's model call as one `llm` line.  For a call that failed this module
has what the line says of the failure: the reason, by the status that came back, and the error text
as `detail`, which is flattened, bounded at 240 characters and quoted.

The redaction that runs after it knows a credential by a run of letters, digits, `_` and `-` of some
length, so the bound backs up to where no such run is cut.
-/
import BasecradleRouter.Lib.Json
import BasecradleRouter.Lib.JsonCodec
import BasecradleRouter.Lib.Runs
import BasecradleRouter.Logfmt

namespace BasecradleRouter.Vector

open BasecradleRouter.Lib

/-! ## 1. The detail -/

/-- `\s`, which is Unicode's `White_Space`. -/
def isWhitespace (c : Char) : Bool :=
  let n := c.toNat
  (9 ≤ n && n ≤ 13) || n == 32 || n == 0x85 || n == 0xa0 || n == 0x1680 ||
    (0x2000 ≤ n && n ≤ 0x200a) || n == 0x2028 || n == 0x2029 || n == 0x202f || n == 0x205f ||
    n == 0x3000

/-- `[A-Za-z0-9_-]`, what a credential is made of. -/
def inCredential (c : Char) : Bool := c.isAlphanum || c == '_' || c == '-'

/-- `strip_whitespace(replace(replace(detail, r'\p{Cc}', " "), r'\s+', " "))` -/
def flatten (text : List Char) : List Char :=
  Runs.trim isWhitespace (Runs.squeeze isWhitespace ' '
    (text.map fun c => if Logfmt.isControl c then ' ' else c))

/-- `parse_regex(detail, r'\A(?P<head>.{239})(?P<next>.)')`; `.` is no newline. -/
def cut (detail : List Char) : Option (List Char × Char) :=
  match detail.drop 239 with
  | [] => none
  | next :: _ =>
    if (detail.take 240).all (· ≠ '\n') then some (detail.take 239, next) else none

/-- 239 characters and an ellipsis, never cut inside a run. -/
def bound (detail : List Char) : List Char :=
  if 240 < detail.length then
    let head := ((cut detail).map Prod.fst).getD []
    let next := (cut detail).map Prod.snd
    let head := Runs.trim isWhitespace (Runs.cutBack inCredential head next)
    if head.isEmpty then [] else head ++ ['…']
  else detail

/-- A value with a space, an `=` or a double quote in quotes, its own made single. -/
def quoted (detail : List Char) : List Char :=
  if detail.contains ' ' || detail.contains '=' || detail.contains '"' then
    '"' :: (detail.map fun c => if c = '"' then '\'' else c) ++ ['"']
  else detail

/-- `string(attrs.error) ?? ""` -/
def errorText (attrs : Fields) : List Char := ((attrs.get "error").asStr.getD "").toList

/-- The detail, before it is quoted. -/
def detail (attrs : Fields) : List Char := bound (flatten (errorText attrs))

/-! ## 2. The failure -/

/-- A number that was stated, as such or as a string. -/
def number (v : Json) : Option ℕ :=
  match v with
  | .int i => if 0 ≤ i ∧ i < 1000000000000000000 then some i.toNat else none
  | .str s =>
    if !s.isEmpty && s.length ≤ 18 && s.toList.all Char.isDigit then
      some (JsonCodec.natOf s.toList)
    else none
  | _ => none

/-- The contract's fault slug. -/
def reason (attrs : Fields) : String :=
  if (attrs.get "status_code").isNull then
    if (attrs.get "error").isText "Request timed out." then "timeout" else "transport"
  else
    match number (attrs.get "status_code") with
    | none => "api_error"
    | some code =>
      if code = 401 ∨ code = 403 then "config:auth"
      else if code = 402 then "config:billing"
      else if code = 404 then "config:model_not_found"
      else if code = 413 then "payload_too_large"
      else if code = 429 then "rate_limited"
      else if code = 504 then "timeout"
      else if 500 ≤ code ∧ code ≤ 599 then "server_error"
      else "api_error"

/-- What the line of a failed call says of the failure. -/
def failedFields (attrs : Fields) : String :=
  " outcome=failed reason=" ++ reason attrs ++
    (if (detail attrs).isEmpty then ""
    else " detail=" ++ String.ofList (quoted (detail attrs)))

end BasecradleRouter.Vector
