/-
# The daily dependency scan: what was found

`parse_osv_scanner` reads the scanner's report.  Each group of records in it is one advisory, and
those on one package that share a name are merged into one.  The report is any JSON, so that
each step of the reading may find something it cannot read.

A name is preferred that GitHub gave, then one that PyPA gave, then whatever sorts first; a rating
is as severe as the most severe one at hand.
-/
import BasecradleRouter.Lib.Checked
import BasecradleRouter.Lib.JsonCodec
import BasecradleRouter.Lib.Merging
import BasecradleRouter.Lib.PyFloat
import BasecradleRouter.Lib.PyStr
import BasecradleRouter.Lib.PyValue
import Mathlib.Data.List.MinMax

namespace BasecradleRouter.SecurityScan

open BasecradleRouter.Lib

/-- What the interpreter brings: Unicode's tables, how it reads a number, and how deep `json.loads`
goes. -/
structure Interp where
  /-- `s.lower()` -/
  lower : String → String
  /-- so many containers within each other -/
  nesting : ℕ
  /-- `float(v)`, `none` where it raises `TypeError` or `ValueError` -/
  float : Json → Option PyFloat
  floats : FloatText

/-- An interpreter that is right about ASCII, and reads no number. -/
def Interp.ascii : Interp where
  lower s := String.ofList (s.toList.map Char.toLower)
  nesting := 1000
  float _ := none
  floats := .unread

/-! ## 1. Advisories -/

def severityOrder : List String :=
  ["critical", "high", "medium", "moderate", "low", "none", "unknown"]

def ghsaSeverities : List String := ["critical", "high", "moderate", "low"]

/-- `_rank_of`; a rating that is not in the order is behind all of it. -/
def rankOf {σ : Type} [DecidableEq σ] [Literal σ] (severity : σ) : ℕ :=
  (severityOrder.map Literal.text).idxOf severity

/-- `Advisory`, its texts of type `σ` -/
structure Advisory (σ : Type := String) where
  ecosystem : σ
  package : σ
  affected : σ
  id : σ
  severity : σ
  title : σ
  url : Option σ
  aliases : List σ
  deriving DecidableEq

/-! ## 2. Names and ratings -/

/-- `min(texts)`, of a list that is not empty -/
def least (texts : List String) : String := (texts.argmin id).getD ""

/-- The prefixes of the names that are preferred. -/
def prefixes : List String := ["GHSA-", "PYSEC-"]

def startsWith (text start : String) : Bool := start.toList.isPrefixOf text.toList

/-- `_primary_id` -/
def primaryId (ids : List String) : String :=
  match prefixes.find? fun start => ids.any (startsWith · start) with
  | some start => least (ids.filter (startsWith · start))
  | none => least ids

/-- `min(ratings, key=_rank_of)`, of a list that is not empty -/
def mostSevere (ratings : List String) : Option String := ratings.argmin rankOf

/-- `_cvss_rating` -/
def cvssRating (score : PyFloat) : String :=
  if (PyFloat.fin 9).le score then "critical"
  else if (PyFloat.fin 7).le score then "high"
  else if (PyFloat.fin 4).le score then "moderate"
  else if (PyFloat.fin 0).lt score then "low"
  else "none"

/-- A record's rating by GitHub's reviewers. -/
def ratingOf (py : Interp) (record : Fields) : Option String :=
  ((record.get "database_specific").asObj.bind fun specific =>
    (specific.get "severity").asStr).bind fun rating =>
      if ghsaSeverities.contains (py.lower rating) then some (py.lower rating) else none

/-- `_severity_of` -/
def severityOf (py : Interp) (maxSeverity : Json) (records : List Fields) : String :=
  let scored := ((py.float maxSeverity).filter fun score =>
    (PyFloat.fin 0).le score && score.le (.fin 10)).map cvssRating
  (mostSevere (scored.toList ++ records.filterMap (ratingOf py))).getD "unknown"

/-! ## 3. Titles -/

def titleLimit : ℕ := 200

/-- `BOLD_HEADING.fullmatch(line)` -/
def boldHeading (line : List Char) : Bool :=
  [['*', '*'], ['_', '_']].any fun mark =>
    let body := if line.getLast? = some ':' then line.dropLast else line
    let heading := (body.drop 2).take (body.length - 4)
    mark.isPrefixOf body && mark.isSuffixOf body && !heading.isEmpty &&
      heading.all fun c => c ≠ '*' && c ≠ '_'

/-- A line that says nothing, before what follows it. -/
def saysNothing (line following : List Char) : Bool :=
  line.isEmpty || line.head? == some '#' || line.all ("-=*_`~ ".toList.contains ·) ||
    (!following.isEmpty && following.all ("-=".toList.contains ·)) || boldHeading line

/-- The loop of `_first_line`. -/
def firstLineFrom (inFence : Bool) : List (List Char) → Option (List Char)
  | [] => none
  | line :: rest =>
    if "```".toList.isPrefixOf line || "~~~".toList.isPrefixOf line then
      firstLineFrom (!inFence) rest
    else if inFence || saysNothing line (rest.headD []) then firstLineFrom inFence rest
    else some line

/-- `_first_line` -/
def firstLine (text : Json) : Option (List Char) :=
  match text with
  | .str s =>
    firstLineFrom false ((PyStr.splitlines s.toList).map fun line =>
      (PyStr.strip (String.ofList line)).toList)
  | _ => none

/-- `_title_of` -/
def titleOf (primary : String) (records : List Fields) : String :=
  let ofPrimary : Fields → Bool := fun record => (record.get "id").isText primary
  let ordered := records.filter ofPrimary ++ records.filter (!ofPrimary ·)
  let texts := ordered.map (·.get "summary") ++ ordered.map (·.get "details")
  match texts.findSome? firstLine with
  | some line =>
    if line.length ≤ titleLimit then String.ofList line
    else String.ofList (PyStr.rstrip (line.take (titleLimit - 1)) ++ ['…'])
  | none => primary

/-! ## 4. Reading a report -/

/-- How the reading of a report ends early. -/
inductive Failure
  | scan (message : String)
  | type (message : String)
  | load (fault : LoadFault)
  deriving DecidableEq

/-- `_list_of_dicts` -/
def listOfDicts (value : Json) : Except Failure (List Fields) :=
  match value.asArr.bind fun items => items.mapM Json.asObj with
  | some dicts => .ok dicts
  | none => .error (.scan "osv-scanner printed a list this scan cannot read")

/-- A string that is not empty. -/
def filledText (v : Json) : Option String := v.asStr.filter (· ≠ "")

/-- `isinstance(ids, list) and ids and all(isinstance(i, str) and i for i in ids)` -/
def idsOf (group : Json) : Option (List String) :=
  (group.asObj.bind fun d => (d.get "ids").asArr.bind fun ids => ids.mapM filledText).filter
    (!·.isEmpty)

/-- Building `by_id` hashes each record's id. -/
def hashIds (records : List Fields) : Except Failure Unit :=
  records.forM fun record =>
    match record.lookup "id" with
    | some (.arr _) => .error (.type "unhashable type: 'list'")
    | some (.obj _) => .error (.type "unhashable type: 'dict'")
    | _ => .ok ()

/-- `by_id.get(i)`: the last record with that id. -/
def byId (records : List Fields) (i : String) : Option Fields :=
  records.reverse.find? fun record => (record.get "id").isText i

/-- One group's advisory. -/
def groupAdvisory (py : Interp) (package version : String) (records : List Fields)
    (group : Json) : Except Failure Advisory :=
  match idsOf group with
  | none => .error (.scan "osv-scanner printed an advisory group this scan cannot read")
  | some ids =>
    let d := group.asObj.getD []
    let primary := primaryId ids
    let groupRecords := ids.filterMap (byId records)
    let names := ((d.get "aliases").asArr.getD []).filterMap filledText
    .ok
      { ecosystem := "pypi"
        package := package
        affected := version
        id := primary
        severity := severityOf py (d.get "max_severity") groupRecords
        title := titleOf primary groupRecords
        url := some (if startsWith primary "GHSA-" then "https://github.com/advisories/" ++ primary
          else "https://osv.dev/vulnerability/" ++ primary)
        aliases := PyStr.sorted (ids ++ names).toFinset }

/-- What `_advisories_in` requires of an entry: the package's name and version, its groups and its
records. -/
def readEntry (entry : Fields) : Option (String × String × List Json × List Json) := do
  let package ← (entry.get "package").asObj
  let name ← filledText (package.get "name")
  let version ← (package.get "version").asStr
  let groups ← ((entry.lookup "groups").getD (.arr [])).asArr
  let records ← ((entry.lookup "vulnerabilities").getD (.arr [])).asArr
  if !records.isEmpty && groups.isEmpty then none else some (name, version, groups, records)

/-- `_advisories_in` -/
def advisoriesIn (py : Interp) (entry : Fields) : Except Failure (List Advisory) :=
  match readEntry entry with
  | none => .error (.scan "osv-scanner printed a package this scan cannot read")
  | some (name, version, groups, records) => do
    let dicts ← listOfDicts (.arr records)
    hashIds dicts
    groups.mapM (groupAdvisory py name version dicts)

/-! ## 5. Merging -/

/-- `_related` -/
def related {σ : Type} [DecidableEq σ] (one other : Advisory σ) : Bool :=
  one.ecosystem == other.ecosystem && one.package == other.package &&
    one.aliases.any (other.aliases.contains ·)

/-- `_merged` -/
def merged (seen other : Advisory) : Advisory :=
  let (first, second) :=
    if primaryId [seen.id, other.id] = seen.id then (seen, other) else (other, seen)
  let versions := PyStr.splitText ", ".toList seen.affected.toList
  let new := (PyStr.splitText ", ".toList other.affected.toList).filter (!versions.contains ·)
  { first with
    affected := String.ofList (PyStr.join ", ".toList (versions ++ new))
    severity :=
      if rankOf other.severity < rankOf seen.severity then other.severity else seen.severity
    aliases := PyStr.sorted (seen.aliases ++ other.aliases).toFinset
    title := if first.title = first.id then second.title else first.title }

/-- The results of a report. -/
def resultsOf (report : Json) : Option (List Fields) :=
  report.asObj.bind fun d => (d.get "results").asArr.bind fun results => results.mapM Json.asObj

/-- `result.get("packages") or []` -/
def packagesOf (py : Interp) (result : Fields) : Json :=
  if (result.get "packages").truthy py.floats then result.get "packages" else .arr []

/-- `json.loads(output)` -/
def loaded (py : Interp) (output : String) : Except LoadError Json :=
  JsonCodec.read (.within py.nesting) output.toList

/-- `parse_osv_scanner` -/
def parseOsvScanner (py : Interp) (output : String) (exitStatus : ℤ) :
    Except Failure (List Advisory) :=
  match loaded py output with
  | .error (.fault fault) => .error (.load fault)
  | .error .decode =>
    .error (.scan ("osv-scanner produced no readable report (exit " ++ toString exitStatus ++
      "): JSONDecodeError"))
  | .ok report =>
    match resultsOf report with
    | none =>
      .error (.scan ("osv-scanner produced no results list (exit " ++ toString exitStatus ++ ")"))
    | some results => do
      let advisories ← results.foldlM (fun advisories result => do
        let entries ← listOfDicts (packagesOf py result)
        entries.foldlM (fun advisories entry => do
          let new ← advisoriesIn py entry
          pure (new.foldl (Merging.absorb related merged) advisories)) advisories) []
      if (exitStatus = 0 ∧ advisories = []) ∨ (exitStatus = 1 ∧ advisories ≠ []) then
        pure advisories
      else
        .error (.scan ("osv-scanner exited " ++ toString exitStatus ++ " with " ++
          toString advisories.length ++ " advisories"))

end BasecradleRouter.SecurityScan
