/-
# How a pull request names an issue

`_ISSUE_REFERENCE` matches `#12`, `owner/name#12` and `github.com/owner/name/issues/12`.  Every run
in it stands before a character the run cannot hold (`/`, `#`, or a word boundary after digits,
which are word characters themselves), so a run is always taken whole and the matcher never has
to back up: `referenceAt` reads each alternative from left to right.
-/
import BasecradleRouter.Routes.Base
import Mathlib.Data.Finset.Insert
import Mathlib.Data.Finset.Lattice.Basic

namespace BasecradleRouter.Routes

open BasecradleRouter.Lib

variable (py : Runtime)

/-! ## 1. The pattern -/

/-- A match: the repository it names, if any, and the digits of its number. -/
structure Reference where
  repo : Option String
  digits : List ℕ
  deriving DecidableEq, Repr

/-- `[\w.-]` -/
def nameChar (c : Char) : Bool := py.isWord c || c == '.' || c == '-'

/-- `[\w.-]+/[\w.-]+` at the front of a text, and what follows it. -/
def repoName (cs : List Char) : Option (String × List Char) :=
  let owner := cs.takeWhile (nameChar py)
  match cs.dropWhile (nameChar py) with
  | '/' :: rest =>
    let name := rest.takeWhile (nameChar py)
    if owner.isEmpty || name.isEmpty then none
    else some (String.ofList (owner ++ '/' :: name), rest.dropWhile (nameChar py))
  | _ => none

/-- `\d+\b` -/
def number (cs : List Char) : Option (List ℕ × List Char) :=
  let digits := (cs.takeWhile fun c => (py.digit c).isSome).filterMap py.digit
  let rest := cs.dropWhile fun c => (py.digit c).isSome
  if digits.isEmpty || rest.head?.any py.isWord then none else some (digits, rest)

/-- A literal at the front of a text. -/
def literal (word : String) (cs : List Char) : Option (List Char) :=
  if word.toList.isPrefixOf cs then some (cs.drop word.toList.length) else none

/-- `(?<![\w/.-])(?:(?P<repo>[\w.-]+/[\w.-]+))?#(?P<number>\d+)\b`, after the character `prev`. -/
def hashReference (prev : Option Char) (cs : List Char) : Option (Reference × List Char) :=
  if prev.any fun c => nameChar py c || c == '/' then none
  else
    match cs with
    | '#' :: rest => (number py rest).map fun (digits, rest) => (⟨none, digits⟩, rest)
    | cs =>
      match repoName py cs with
      | some (repo, '#' :: rest) =>
        (number py rest).map fun (digits, rest) => (⟨some repo, digits⟩, rest)
      | _ => none

/-- `github\.com/(?P<url_repo>[\w.-]+/[\w.-]+)/issues/(?P<url_number>\d+)\b` -/
def urlReference (cs : List Char) : Option (Reference × List Char) := do
  let (repo, rest) ← repoName py (← literal "github.com/" cs)
  let (digits, rest) ← number py (← literal "/issues/" rest)
  return (⟨some repo, digits⟩, rest)

/-- A match at the front of a text, and what follows it. -/
def referenceAt (prev : Option Char) (cs : List Char) : Option (Reference × List Char) :=
  (hashReference py prev cs).or (urlReference py cs)

/-- `_ISSUE_REFERENCE.finditer`, after the character `prev` and with `skip` characters of the last
match still to pass. -/
def findReferences (prev : Option Char) : ℕ → List Char → List Reference
  | _, [] => []
  | skip + 1, c :: cs => findReferences (some c) skip cs
  | 0, c :: cs =>
    match referenceAt py prev (c :: cs) with
    | some (reference, rest) =>
      reference :: findReferences (some c) (cs.length - rest.length) cs
    | none => findReferences (some c) 0 cs

/-! ## 2. The issues named -/

/-- The longest numeral `int` reads. -/
def maxStrDigits : ℕ := 4300

/-- `int(text)`, for a text that is all digits. -/
def readInt (digits : List ℕ) : Except Raised ℕ :=
  if maxStrDigits < digits.length then
    .error (.valueError ("Exceeds the limit (4300 digits) for integer string conversion: value has "
      ++ toString digits.length ++
        " digits; use sys.set_int_max_str_digits() to increase the limit"))
  else .ok (digits.foldl (fun n d => 10 * n + d) 0)

/-- A reference names an issue of `repo`: it names that repository, or none. -/
def Reference.isOf (reference : Reference) (repo : String) : Bool :=
  match reference.repo with
  | none => true
  | some named => py.lower named == py.lower repo

/-- The issue numbers a run of references names in `repo`. -/
def collect (repo : String) : List Reference → Finset ℕ → Except Raised (Finset ℕ)
  | [], named => .ok named
  | reference :: rest, named =>
    if reference.isOf py repo then
      match readInt reference.digits with
      | .error e => .error e
      | .ok n => collect repo rest (insert n named)
    else collect repo rest named

/-- The text a pull request names issues in. -/
def pullText (pull : Fields) : List Char :=
  PyStr.join [' '] ([pull.get "title", pull.get "body"].filterMap fun v => v.asStr.map (·.toList))

/-- `_named_issues` -/
def namedIssues (pull : Fields) (repo : String) : Except Raised (Finset ℕ) :=
  collect py repo (findReferences py none 0 (pullText pull)) ∅

end BasecradleRouter.Routes
