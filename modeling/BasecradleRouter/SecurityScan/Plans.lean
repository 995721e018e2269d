/-
# The daily dependency scan: what is done about it

`DependencySecurityScan.plans` takes the advisories, the scanners that failed and the open issues,
and returns what to do on GitHub: file an issue, update the one already open, close it, or nothing.
Each issue of the scan's own carries in its body, within an HTML comment, the state it was written
for; the next run reads it back from there.

Texts are `PyText`s: what an issue's marker holds may be any string of Python's.  An ecosystem
without a name is a `KeyError`.  A marker that is no JSON is none, but where `json.loads` raises
anything else so do the plans.  `Repository` is what the workflow applies them to.
-/
import BasecradleRouter.Lib.Enclosed
import BasecradleRouter.Lib.JsonPoints
import BasecradleRouter.Lib.OrderedDict
import BasecradleRouter.SecurityScan
import Mathlib.Data.Prod.Lex

namespace BasecradleRouter.SecurityScan

open BasecradleRouter.Lib

/-- What the interpreter brings: Unicode's tables, and how deep `json.loads` goes. -/
structure Python where
  /-- `s.capitalize()` -/
  capitalize : PyText → PyText
  /-- `\w` -/
  isWord : CodePoint → Bool
  /-- so many containers within each other -/
  nesting : ℕ
  /-- a dict within a dict is what a marker holds -/
  nesting_two : 2 ≤ nesting

theorem two_le_thousand : 2 ≤ 1000 := by decide

/-- An interpreter that is right about ASCII. -/
def Python.ascii : Python where
  capitalize s := (s.take 1).map (fun c => CodePoint.ofChar (charOf c).toUpper) ++
    (s.drop 1).map fun c => CodePoint.ofChar (charOf c).toLower
  isWord c := (charOf c).isAlphanum || c == CodePoint.ofChar '_'
  nesting := 1000
  nesting_two := two_le_thousand

/-- What `plans` raises. -/
inductive PlanError
  /-- `KeyError` -/
  | key (ecosystem : PyText)
  | load (fault : LoadFault)
  deriving DecidableEq

/-! ## 1. Names -/

def advisoriesTitle : PyText := "[SECURITY] Dependency Advisories Against main (Daily Scan)"

def errorTitle : PyText := "Daily Dependency Security Scan Could Not Reach a Verdict"

def pagingSeverities : List PyText := ["critical", "high"]

def pagingLabel : PyText := "needs-human"

def inboxLabel : PyText := "needs-capital"

def ecosystemNames : List (PyText × PyText) := [("pypi", "Python package")]

/-- `ECOSYSTEM_NAMES.get(ecosystem, ecosystem)` -/
def ecosystemName (ecosystem : PyText) : PyText :=
  (ecosystemNames.lookup ecosystem).getD ecosystem

/-- The only author whose issues are the scan's own. -/
def scanAuthor : PyText := "app/basecradle-ai"

/-- `_key` -/
def key (ecosystem package advisoryId : PyText) : PyText :=
  ecosystem ++ ":" ++ package.filter (· ≠ CodePoint.ofChar '@') ++ ":" ++ advisoryId

namespace Advisory

variable (a : Advisory PyText)

def key : PyText := SecurityScan.key a.ecosystem a.package a.id

def aliasKeys : List PyText :=
  a.aliases.map fun name => SecurityScan.key a.ecosystem a.package name

def pages : Bool := pagingSeverities.contains a.severity

def rank : ℕ ×ₗ PyText ×ₗ PyText ×ₗ PyText :=
  toLex (rankOf a.severity, toLex (a.ecosystem, toLex (a.package, a.key)))

end Advisory

/-! ## 2. Issues and the state they carry -/

/-- An open issue, as `gh issue list --json number,title,body,author` has it. -/
structure Issue where
  number : ℕ
  title : Json PyText
  body : Json PyText
  author : Json PyText

/-- `_author_of` -/
def Issue.authorOf (issue : Issue) : Option PyText :=
  (issue.author.asObj.map fun author => author.get "login").bind Json.asStr

/-- Whether the scan wrote it. -/
def Issue.isOwn (issue : Issue) : Bool := issue.authorOf == some scanAuthor

def Issue.titled (issue : Issue) (title : PyText) : Bool := issue.title.isText title

/-- `MARKER` -/
def markerExpression : Enclosed.Expression where
  opening := "<!-- dependency-security-scan "
  closing := " -->"

/-- What the last marker of a body holds. -/
def lastMarker (body : Json PyText) : Option PyText :=
  (markerExpression.findall (body.asStr.getD [])).getLast?

/-- `_state_in` -/
def stateIn (py : Python) (body : Json PyText) : Except LoadFault (Fields PyText) :=
  match lastMarker body with
  | none => .ok []
  | some data =>
    match JsonCodec.read (.within py.nesting) data with
    | .ok state => .ok (state.asObj.getD [])
    | .error .decode => .ok []
    | .error (.fault fault) => .error fault

/-- The state as JSON, with what could end the comment early escaped. -/
def markerData (state : Json PyText) : List Char :=
  PyStr.replaceChar '>' "\\u003e".toList
    (PyStr.replaceChar '<' "\\u003c".toList (JsonCodec.dumps JsonCodec.escapePoint state))

/-- `_marker` -/
def marker (state : Json PyText) : PyText :=
  "<!-- dependency-security-scan " ++ (markerData state).map CodePoint.ofChar ++ " -->"

/-- A `dict` of strings. -/
def texts (d : OrderedDict PyText PyText) : Json PyText :=
  .obj (d.items.map fun item => (item.1, .str item.2))

/-- The severity each finding is filed at, in a state. -/
def knownOf (state : Fields PyText) : OrderedDict PyText PyText :=
  let advisories := (state.lookup (PyText.ofString "advisories")).getD (.obj [])
  .ofItems ((advisories.asObj.getD []).filterMap fun field => field.2.asStr.map (field.1, ·))

/-- And in the issue, if there is one. -/
def knownIn (py : Python) (existing : Option Issue) :
    Except LoadFault (OrderedDict PyText PyText) :=
  match existing with
  | some issue => (stateIn py issue.body).map knownOf
  | none => .ok (knownOf [])

/-! ## 3. Upstream text -/

/-- `separator.join(parts)` -/
def join (separator : PyText) (parts : List PyText) : PyText := separator.intercalate parts

/-- `re.sub(r"\s+", " ", text)` -/
def squeeze (text : PyText) : PyText :=
  Runs.squeeze (fun c => PyStr.isSpace (charOf c)) (.ofChar ' ') text

/-- `text.replace(c, replacement)` -/
def replace (c : Char) (replacement : String) (text : PyText) : PyText :=
  PyStr.replaceChar (.ofChar c) replacement text

/-- A name behind an `@`, which was read in reverse, in a code span. -/
def spanned (name : PyText) : PyText :=
  if name.isEmpty then "@" else "\x60@" ++ name.reverse ++ "\x60"

/-- Each mention in a code span; `name` is the one being read. -/
def mentionsFrom (isName : CodePoint → Bool) : Option PyText → PyText → PyText
  | none, [] => []
  | some name, [] => spanned name
  | none, c :: cs =>
    if c = '@' then mentionsFrom isName (some []) cs else c :: mentionsFrom isName none cs
  | some name, c :: cs =>
    if isName c then mentionsFrom isName (some (c :: name)) cs
    else if c = '@' then spanned name ++ mentionsFrom isName (some []) cs
    else spanned name ++ c :: mentionsFrom isName none cs

/-- Each `@name` of a text in a code span, a name being of word characters, `-`, `/` and `.`. -/
def spanMentions (py : Python) (text : PyText) : PyText :=
  mentionsFrom (fun c => py.isWord c || List.contains (PyText.ofString "-/.") c) none text

/-- `_cell` -/
def cell (py : Python) (text : PyText) : PyText :=
  spanMentions py (replace '|' "\\|" (replace '<' "&lt;" (replace '\x60' "" (squeeze text))))

/-- `_code` -/
def code (text : PyText) : PyText :=
  let escaped := replace '|' "\\|" (squeeze text)
  if escaped.isEmpty then "" else "\x60" ++ replace '<' "&lt;" escaped ++ "\x60"

/-- `ECOSYSTEM_NAMES[ecosystem]` -/
def ecosystemNameAt (ecosystem : PyText) : Except PlanError PyText :=
  match ecosystemNames.lookup ecosystem with
  | some name => .ok name
  | none => .error (.key ecosystem)

/-- A row of `_table`. -/
def row (py : Python) (a : Advisory PyText) : Except PlanError PyText := do
  let link : PyText := match a.url.filter (!·.isEmpty) with
    | some url => "[" ++ a.id ++ "](" ++ url ++ ")"
    | none => a.id
  let name ← ecosystemNameAt a.ecosystem
  pure ("| " ++ py.capitalize a.severity ++ " | " ++ name ++ " | " ++ code a.package ++ " | " ++
    code a.affected ++ " | " ++ cell py link ++ " | " ++ cell py a.title ++ " |")

/-- `_table` -/
def table (py : Python) (advisories : List (Advisory PyText)) : Except PlanError PyText := do
  let rows ← advisories.mapM (row py)
  pure (join "\n"
    ("| Severity | Ecosystem | Package | Installed or Affected | Advisory | Title |" ::
      "|---|---|---|---|---|---|" :: rows) ++ "\n")

/-- The table, if there is anything in it. -/
def tableOf (py : Python) (advisories : List (Advisory PyText)) : Except PlanError PyText :=
  if advisories.isEmpty then pure "" else table py advisories

/-- `_count_of` -/
def countOf (advisories : List (Advisory PyText)) : PyText :=
  toString advisories.length ++ " " ++
    (if advisories.length = 1 then "advisory" else "advisories")

/-- `_tally` -/
def tally (py : Python) (advisories : List (Advisory PyText)) : PyText :=
  let severities := advisories.map Advisory.severity
  let ordered := severities.eraseDups.insertionSort fun x y => rankOf x ≤ rankOf y
  join ", " (ordered.map fun severity =>
    toString (severities.count severity) ++ " " ++ py.capitalize severity)

/-- `_names`, of names that are sorted -/
def names (ecosystems : List PyText) : PyText :=
  join " and " (ecosystems.map fun ecosystem => ecosystemName ecosystem ++ " scan")

/-- `_label_for` -/
def labelFor (advisories : List (Advisory PyText)) : PyText :=
  if advisories.any Advisory.pages then pagingLabel else inboxLabel

/-! ## 4. Fixed paragraphs -/

def advisoriesNext : PyText :=
  "The fix is a bump on its own branch: `uv lock --upgrade-package <package>==<fixed " ++
  "version>`, the minimum version that resolves the advisory, then the Critical and High " ++
  "advisories read against the router on this issue (CLAUDE.md → \"Responding to the Daily " ++
  "Dependency Scan\"). `uv.lock` is what the daemon's box installs, development group " ++
  "included (the deploy's `uv sync --locked`), so the fix is live only once the NOC's " ++
  "unattended deploy has carried that merge to the box; nothing here is released. An " ++
  "advisory that does not apply here is dismissed in `osv-scanner.toml` (`[[IgnoredVulns]]`, " ++
  "with its reason and an `ignoreUntil`). Closing this issue dismisses nothing: while an " ++
  "advisory stands, the next scan files a new issue."

def errorHappened : PyText :=
  "The daily dependency security scan of `main` ran and could not reach a verdict, so it " ++
  "says nothing about whether `main` is clean. While this stands, a new advisory goes " ++
  "unseen."

def errorNext : PyText :=
  "Read the run's log, fix what stopped the scan, and re-run the workflow by hand " ++
  "(`Dependency Security Scan`, *Run workflow*). One issue is filed while the scan cannot " ++
  "run, not one a day, and the run that reaches a verdict again closes it."

/-! ## 5. A scan -/

inductive Action
  | create
  | update
  | close
  deriving DecidableEq

/-- `Plan` -/
structure Plan where
  action : Action
  number : Option ℕ
  title : PyText
  body : Option PyText
  comment : Option PyText
  labels : List PyText
  deriving DecidableEq

/-- `DependencySecurityScan`, its advisories sorted. -/
structure DependencySecurityScan where
  advisories : List (Advisory PyText)
  errors : OrderedDict PyText PyText
  ref : PyText
  sha : PyText
  runUrl : PyText
  /-- The time, as `_when` writes it. -/
  now : PyText
  sorted : advisories.Pairwise fun a b => a.rank ≤ b.rank

instance : Std.Total fun a b : Advisory PyText => a.rank ≤ b.rank := ⟨fun _ _ => le_total _ _⟩

instance : IsTrans (Advisory PyText) fun a b => a.rank ≤ b.rank := ⟨fun _ _ _ => le_trans⟩

namespace DependencySecurityScan

/-- `__init__` -/
def init (advisories : List (Advisory PyText)) (errors : OrderedDict PyText PyText)
    (ref sha runUrl now : PyText) : DependencySecurityScan where
  advisories := advisories.insertionSort fun a b => a.rank ≤ b.rank
  errors := errors
  ref := ref
  sha := sha
  runUrl := runUrl
  now := now
  sorted := List.pairwise_insertionSort _ _

/-! ## 6. What has changed -/

/-- What is filed, and which findings were filed under another name. -/
structure Filed where
  known : OrderedDict PyText PyText
  renamed : List (PyText × PyText)

/-- `min(one, other, key=_rank_of)` -/
def worse (one other : PyText) : PyText := if rankOf other < rankOf one then other else one

/-- One name a finding could have been filed under, the inner loop's body. -/
def fileUnder (reported : List PyText) (key : PyText) (filed : Filed) (earlier : PyText) : Filed :=
  match filed.known.get earlier with
  | some severity =>
    if earlier ≠ key ∧ earlier ∉ reported then
      let known := filed.known.del earlier
      { known := known.set key (worse ((known.get key).getD severity) severity)
        renamed := filed.renamed ++ [(earlier, key)] }
    else filed
  | none => filed

variable (scan : DependencySecurityScan)

def reported : List PyText := scan.advisories.map Advisory.key

/-- Each finding under the name it is reported by now. -/
def refiled (known : OrderedDict PyText PyText) : Filed :=
  scan.advisories.foldl (fun filed a => a.aliasKeys.foldl (fileUnder scan.reported a.key) filed)
    ⟨known, []⟩

/-- `key.split(":")[0] in self.errors` -/
def failing (key : PyText) : Bool :=
  (scan.errors.get (key.takeWhile (· ≠ CodePoint.ofChar ':'))).isSome

def carried (known : OrderedDict PyText PyText) : OrderedDict PyText PyText :=
  known.retain scan.failing

def current (known : OrderedDict PyText PyText) : OrderedDict PyText PyText :=
  (scan.advisories.foldl (fun d a => d.set a.key a.severity) (scan.carried known)).sorted

def added (known : OrderedDict PyText PyText) : List (Advisory PyText) :=
  scan.advisories.filter fun a => (known.get a.key).isNone

def rerated (known : OrderedDict PyText PyText) : List (Advisory PyText) :=
  scan.advisories.filter fun a => (known.get a.key).any (· ≠ a.severity)

def escalated (known : OrderedDict PyText PyText) : List (Advisory PyText) :=
  (scan.rerated known).filter fun a =>
    a.pages && !(pagingSeverities.contains ((known.get a.key).getD ""))

def resolved (known : OrderedDict PyText PyText) : List PyText :=
  known.keys.filter fun key => ((scan.current known).get key).isNone

def labels (known : OrderedDict PyText PyText) : List PyText :=
  let announced := scan.added known ++ scan.escalated known
  if announced.isEmpty then [] else [labelFor announced]

/-! ## 7. Bodies and comments -/

def headline (py : Python) (carried : OrderedDict PyText PyText) : PyText :=
  if scan.advisories.isEmpty && !carried.items.isEmpty then
    "This run found no advisory in what it could scan, and could not scan everything."
  else if scan.advisories.isEmpty then
    "The daily scan of `main` finds no advisory now. Close this issue by hand."
  else
    "The daily scan of `main` found **" ++ countOf scan.advisories ++ "** against what " ++
      "`main` resolves: " ++ tally py scan.advisories ++ "."

def routing : PyText :=
  if scan.advisories.isEmpty then "Nothing is reported now, so this run applied no label."
  else if scan.advisories.any Advisory.pages then
    "`" ++ pagingLabel ++ "` is applied when an advisory rated High or Critical appears, " ++
      "and it pages `@origin` (his ruling, 2026-11-05, basecradle#750)."
  else
    "`" ++ inboxLabel ++ "`: nothing here is rated High or Critical, so nothing paged. Only " ++
      "High and Critical page `@origin` (his ruling, 2026-11-05, basecradle#750)."

def carriedNote (carried : OrderedDict PyText PyText) : PyText :=
  if carried.items.isEmpty then ""
  else
    "\n**Not Re-Checked This Run:** the " ++ names scan.errors.sorted.keys ++
      " could not run, so " ++ toString carried.items.length ++ " earlier " ++
      (if carried.items.length = 1 then "finding is" else "findings are") ++
      " carried forward unlisted, neither confirmed nor cleared.\n"

/-- The body of the advisories' issue around its table. -/
def advisoriesText (py : Python) (current carried : OrderedDict PyText PyText) (rows : PyText) :
    PyText :=
  "## What Was Found\n\n" ++ scan.headline py carried ++ "\n\n" ++
    "- **Where:** `uv.lock` at `" ++ scan.sha ++ "` (`" ++ scan.ref ++ "`).\n" ++
    "- **When:** scanned " ++ scan.now ++
    ", by the scheduled scan and not by a session: " ++ scan.runUrl ++ "\n" ++
    "- **Actor:** none. These are public upstream disclosures, not events on our systems.\n" ++
    "- **Class:** a dependency advisory.\n" ++
    "- **Contained So Far:** nothing. Nobody has read these against the router yet.\n\n" ++
    rows ++ "\n" ++ scan.carriedNote carried ++ "\n## What Happens Next\n\n" ++
    advisoriesNext ++ "\n\n## How This Was Routed\n\n" ++ scan.routing ++ "\n\n" ++
    marker (.obj [("advisories", texts current)]) ++ "\n"

/-- `_advisories_body` -/
def advisoriesBody (py : Python) (current carried : OrderedDict PyText PyText) :
    Except PlanError PyText :=
  (tableOf py scan.advisories).map (scan.advisoriesText py current carried)

/-- `_change_comment` -/
def changeComment (py : Python) (filed : Filed) : Except PlanError PyText := do
  let added := scan.added filed.known
  let rerated := scan.rerated filed.known
  let resolved := scan.resolved filed.known
  let rows ← tableOf py added
  let parts : List PyText :=
    (if added.isEmpty then [] else
      ["**New Since the Last Scan (" ++ countOf added ++ ": " ++ tally py added ++ "):**\n\n" ++
        rows]) ++
    (if rerated.isEmpty then [] else
      ["**Re-Rated:** " ++ join ", " (rerated.map fun a =>
        "`" ++ a.key ++ "` " ++ py.capitalize ((filed.known.get a.key).getD "") ++ " → " ++
          py.capitalize a.severity)]) ++
    (if resolved.isEmpty then [] else
      ["**No Longer Reported (" ++ toString resolved.length ++ "):** " ++
        join ", " (resolved.map fun key => "`" ++ key ++ "`")]) ++
    (if filed.renamed.isEmpty then [] else
      ["**Known by Another Name Now:** " ++ join ", " (filed.renamed.map fun name =>
        "`" ++ name.1 ++ "` is now `" ++ name.2 ++ "`")]) ++
    (scan.labels filed.known).map (fun label : PyText => "`" ++ label ++
      "` applied for what is new here.") ++
    (if (scan.current filed.known).items.isEmpty then
      ["The scan of `main` at `" ++ scan.sha ++ "` is clean. Close this issue by hand."] else []) ++
    ["Run: " ++ scan.runUrl]
  pure (join "\n\n" parts)

/-- `_error_list` -/
def errorList (py : Python) : PyText :=
  join "\n" (scan.errors.sorted.items.map fun error =>
    "- **" ++ ecosystemName error.1 ++ " scan:** " ++ cell py error.2)

/-- `_error_body` -/
def errorBody (py : Python) (failing : List PyText) : PyText :=
  "## What Happened\n\n" ++ errorHappened ++ "\n\n- **Where:** `" ++ scan.sha ++ "` (`" ++
    scan.ref ++ "`), " ++ scan.now ++ ": " ++ scan.runUrl ++ "\n\n" ++ scan.errorList py ++
    "\n\n## What Happens Next\n\n" ++ errorNext ++ "\n\n" ++
    marker (.obj [("failing", .arr (failing.map .str))]) ++ "\n"

/-! ## 8. Plans -/

/-- The advisories plan, where this is on file. -/
def planFrom (py : Python) (existing : Option Issue) (filed : Filed) :
    Except PlanError (Option Plan) :=
  let known := filed.known
  if (scan.added known).isEmpty && (scan.rerated known).isEmpty &&
      (scan.resolved known).isEmpty && filed.renamed.isEmpty then
    pure none
  else do
    let body ← scan.advisoriesBody py (scan.current known) (scan.carried known)
    match existing with
    | some issue =>
      let comment ← scan.changeComment py filed
      pure (some
        { action := .update, number := some issue.number, title := advisoriesTitle,
          body := some body, comment := some comment, labels := scan.labels known })
    | none =>
      pure (some
        { action := .create, number := none, title := advisoriesTitle, body := some body,
          comment := none, labels := scan.labels known })

/-- `_advisories_plan` -/
def advisoriesPlan (py : Python) (openIssues : List Issue) : Except PlanError (Option Plan) := do
  let existing := openIssues.find? (·.titled advisoriesTitle)
  let known ← (knownIn py existing).mapError .load
  scan.planFrom py existing (scan.refiled known)

/-- What a run does that reaches a verdict again. -/
def closing (issue : Issue) : Plan :=
  { action := .close, number := some issue.number, title := errorTitle, body := none,
    comment := some ("Every scanner reached a verdict on `" ++ scan.sha ++ "` (`" ++ scan.ref ++
      "`), so the clock is running again. Closed by that run: " ++ scan.runUrl),
    labels := [] }

/-- `failing == state.get("failing")` -/
def isFailing (failing : List PyText) (state : Json PyText) : Bool :=
  (state.asArr.bind fun items => items.mapM Json.asStr) == some failing

/-- `_error_plan` -/
def errorPlan (py : Python) (openIssues : List Issue) : Except PlanError (Option Plan) :=
  let failing := scan.errors.sorted.keys
  match openIssues.find? (·.titled errorTitle) with
  | none =>
    if failing.isEmpty then pure none
    else
      pure (some
        { action := .create, number := none, title := errorTitle,
          body := some (scan.errorBody py failing), comment := none, labels := [inboxLabel] })
  | some issue =>
    if failing.isEmpty then pure (some (scan.closing issue))
    else do
      let state ← (stateIn py issue.body).mapError .load
      if isFailing failing (state.get "failing") then pure none
      else
        pure (some
          { action := .update, number := some issue.number, title := errorTitle,
            body := some (scan.errorBody py failing),
            comment := some ("Which scans fail has changed. Now failing: the " ++ names failing ++
              ". `" ++ inboxLabel ++ "` applied for the change.\n\n" ++ scan.errorList py ++
              "\n\nRun: " ++ scan.runUrl),
            labels := [inboxLabel] })

/-- `plans` -/
def plans (py : Python) (openIssues : List Issue) : Except PlanError (List Plan) := do
  let own := openIssues.filter Issue.isOwn
  let advisories ← scan.advisoriesPlan py own
  let error ← scan.errorPlan py own
  pure (advisories.toList ++ error.toList)

end DependencySecurityScan

/-! ## 9. Applying them -/

/-- The open issues of a repository, and the number of the next one. -/
structure Repository where
  issues : List Issue
  next : ℕ
  below : ∀ issue ∈ issues, issue.number < next
  distinct : (issues.map Issue.number).Nodup

namespace Repository

variable (repo : Repository)

/-- An issue the scan has just filed. -/
def filedIssue (number : ℕ) (title body : PyText) : Issue where
  number := number
  title := .str title
  body := .str body
  author := .obj [("login", .str scanAuthor)]

theorem below_create (title body : PyText) :
    ∀ issue ∈ filedIssue repo.next title body :: repo.issues, issue.number < repo.next + 1 := by
  intro issue hissue
  rcases List.mem_cons.mp hissue with rfl | hissue
  · exact Nat.lt_succ_self _
  · exact (repo.below issue hissue).trans (Nat.lt_succ_self _)

theorem distinct_create (title body : PyText) :
    ((filedIssue repo.next title body :: repo.issues).map Issue.number).Nodup := by
  rw [List.map_cons, List.nodup_cons]
  refine ⟨fun hmem => ?_, repo.distinct⟩
  obtain ⟨issue, hissue, hnumber⟩ := List.mem_map.mp hmem
  have hbelow := repo.below issue hissue
  rw [hnumber] at hbelow
  exact Nat.lt_irrefl _ hbelow

/-- `gh issue create` -/
def create (title body : PyText) : Repository :=
  ⟨filedIssue repo.next title body :: repo.issues, repo.next + 1, repo.below_create title body,
    repo.distinct_create title body⟩

/-- An issue whose body is written, if it has the number. -/
def rewritten (number : ℕ) (body : PyText) (issue : Issue) : Issue :=
  if issue.number = number then { issue with body := .str body } else issue

@[simp] theorem number_rewritten (number : ℕ) (body : PyText) (issue : Issue) :
    (rewritten number body issue).number = issue.number := by
  unfold rewritten
  split
  · rfl
  · rfl

theorem below_edit (number : ℕ) (body : PyText) :
    ∀ issue ∈ repo.issues.map (rewritten number body), issue.number < repo.next := by
  intro issue hissue
  obtain ⟨old, hold, rfl⟩ := List.mem_map.mp hissue
  rw [number_rewritten]
  exact repo.below old hold

theorem distinct_edit (number : ℕ) (body : PyText) :
    ((repo.issues.map (rewritten number body)).map Issue.number).Nodup := by
  have hnumbers : (repo.issues.map (rewritten number body)).map Issue.number =
      repo.issues.map Issue.number := by
    rw [List.map_map]
    exact List.map_congr_left fun issue _ => number_rewritten number body issue
  rw [hnumbers]
  exact repo.distinct

/-- `gh issue edit --body-file` -/
def edit (number : ℕ) (body : PyText) : Repository :=
  ⟨repo.issues.map (rewritten number body), repo.next, repo.below_edit number body,
    repo.distinct_edit number body⟩

theorem below_close (number : ℕ) :
    ∀ issue ∈ repo.issues.filter (·.number ≠ number), issue.number < repo.next :=
  fun issue hissue => repo.below issue (List.mem_filter.mp hissue).1

theorem distinct_close (number : ℕ) :
    ((repo.issues.filter (·.number ≠ number)).map Issue.number).Nodup :=
  repo.distinct.sublist (List.filter_sublist.map Issue.number)

/-- `gh issue close` -/
def close (number : ℕ) : Repository :=
  ⟨repo.issues.filter (·.number ≠ number), repo.next, repo.below_close number,
    repo.distinct_close number⟩

/-- What the workflow does for a plan; its comment and labels are not of the open issues' list. -/
def apply (plan : Plan) : Repository :=
  match plan.action, plan.number with
  | .create, _ => repo.create plan.title (plan.body.getD "")
  | .update, some number => repo.edit number (plan.body.getD "")
  | .close, some number => repo.close number
  | _, none => repo

def applyAll (plans : List Plan) : Repository := plans.foldl apply repo

end Repository

end BasecradleRouter.SecurityScan
