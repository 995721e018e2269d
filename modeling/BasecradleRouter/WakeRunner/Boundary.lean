/-
# The privilege boundary

`wake-runner` runs as root on what the unprivileged daemon asks for.  `run` is the program from its
first check to the `exec`: a `Launch` is what it execs, `runuser` to the agent with a program, and a
`Refusal` the line on standard error and the code it exits with instead.

A `Box` is what it looks at: who runs it, the accounts, the registry, the file system and the
trusted path.  What it asks `jq` of the registry is `registryLines`, and `readFields` is how `read`
takes one line of the answer apart.

`stays_within` is what the wrapper promises of every launch, and `probe_parity` that a probe comes
as far as a wake of the same agent would.
-/
import BasecradleRouter.Lib.Json
import BasecradleRouter.Wake.Options
import BasecradleRouter.WakeRunner
import BasecradleRouter.WakeRunner.AgentEnv

namespace BasecradleRouter.WakeRunner

open BasecradleRouter.Lib BasecradleRouter.Lib.Filesystem BasecradleRouter.Wake

/-! ## 1. What the registry says -/

/-- `.name`, of an object or of null. -/
def field (name : String) : Json → Option Json
  | .obj fields => some (Fields.get fields name)
  | .null => some .null
  | _ => none

/-- `to_entries[]` -/
def toEntries : Json → Option (List (String × Json))
  | .obj fields => some fields
  | .arr items => some (items.zipIdx.map fun item => (toString item.2, item.1))
  | _ => none

/-- `v // "default"` -/
def alternative (default : String) : Json → Json
  | .null => .str default
  | .bool false => .str default
  | v => v

/-- A character in a field of `@tsv`. -/
def tsvEscape (c : Char) : List Char :=
  if c = '\\' then ['\\', '\\']
  else if c = '\t' then ['\\', 't']
  else if c = '\n' then ['\\', 'n']
  else if c = '\r' then ['\\', 'r']
  else [c]

/-- What `@tsv` makes a field of; `none` for what cannot be one. -/
def tsvText : Json → Option String
  | .null => some ""
  | .bool b => some (if b then "true" else "false")
  | .int i => some (toString i)
  | .float text => some text
  | .str s => some s
  | _ => none

/-- A field of `@tsv`. -/
def tsvField (text : String) : List Char := text.toList.flatMap tsvEscape

/-- The line for an entry, if it is selected; `none` where `jq` fails. -/
def registryLine (user cwd : String) (entry : String × Json) : Option (Option (List Char)) := do
  let osUser ← field "os_user" entry.2
  let clonePath ← field "clone_path" entry.2
  if osUser.isText user && clonePath.isText cwd then
    let kind ← tsvText (alternative "github" (← field "kind" entry.2))
    let wakeBin ← tsvText (alternative "" (← field "wake_bin" entry.2))
    return some (tsvField entry.1 ++ '\t' :: (tsvField kind ++ '\t' :: tsvField wakeBin))
  else return none

/-- What `jq` answers. -/
def registryLines (user cwd : String) (registry : Json) : Option (List (List Char)) := do
  let entries ← toEntries registry
  let lines ← entries.mapM (registryLine user cwd)
  return lines.filterMap id

/-- `IFS=$'\t' read -r match kind wake_bin`, of one line. -/
def readFields (line : List Char) : List Char × List Char × List Char :=
  let tab := fun c => c == '\t'
  let rest := line.dropWhile tab
  let rest' := (rest.dropWhile fun c => !tab c).dropWhile tab
  (rest.takeWhile fun c => !tab c, rest'.takeWhile fun c => !tab c,
    ((rest'.dropWhile fun c => !tab c).dropWhile tab).rdropWhile tab)

/-! ## 2. The program -/

/-- What the wrapper looks at. -/
structure Box (Id : Type) where
  euid : ℕ
  /-- `id -u` -/
  uid : String → Option ℕ
  /-- whether there is a `jq` -/
  jq : Bool
  /-- the registry, where it can be read, and where it is JSON -/
  registry : Option (Option Json)
  fs : Filesystem Id
  /-- `[[ -x path ]]` -/
  executable : List Char → Bool
  /-- `PATH="$TRUSTED_PATH" command -v` -/
  trusted : String → Option String

/-- How it ends where it launches nothing. -/
structure Refusal where
  code : ℕ
  line : String
  deriving DecidableEq, Repr

/-- What it execs: the program and its arguments as the agent, in the journal of an identifier or
not. -/
structure Launch where
  journal : Option (String × String)
  user : String
  cwd : String
  delivery : String
  program : String
  args : List String
  deriving DecidableEq, Repr

/-- `REGISTRY` -/
def registryPath : String := "/etc/basecradle-router/agents.json"

/-- `MIN_UID` -/
def minUid : ℕ := 1000

/-- `PROBE_ACK` -/
def probeAck : String := "/opt/basecradle-router/bin/probe-ack"

/-- `EXIT_UNPROVABLE` -/
def exitUnprovable : ℕ := 75

/-- `refuse` -/
def refuse {α : Type} (code : ℕ) (text : String) : Except Refusal α :=
  .error ⟨code, "wake-runner: " ++ text ++ "\n"⟩

/-- `die` -/
def die {α : Type} (text : String) : Except Refusal α := refuse 1 text

/-- `[[ p ]] || die text` -/
def require (p : Prop) [Decidable p] (text : String) : Except Refusal Unit :=
  if p then .ok () else die text

/-- `x="$(…)" || die text` -/
def given {α : Type} (text : String) : Option α → Except Refusal α
  | some a => .ok a
  | none => die text

/-- What ends in a text to die with. -/
def orDie {α : Type} : Except String α → Except Refusal α
  | .ok a => .ok a
  | .error text => die text

/-- What `$(…)` takes of what is printed: all of it but the newlines at its end. -/
def captured (out : List Char) : List Char := out.rdropWhile (· == '\n')

/-- `"$(confined_path …)" || exit 1` -/
def gated : Except (List Char) (List Char) → Except Refusal String
  | .ok out => .ok (String.ofList (captured out))
  | .error line => .error ⟨1, String.ofList line⟩

variable {Id : Type} (box : Box Id)

/-- The target must be an agent's login. -/
def login (user : String) : Except Refusal Unit := do
  let uid ← given ("no such user: " ++ user) (box.uid user)
  require (minUid ≤ uid)
    ("refusing: " ++ user ++ " (uid " ++ toString uid ++ ") is not an agent login user")

/-- The entry that the registry has for a user and a clone: its key, kind and `wake_bin`.  A line of
`jq`'s holds two tabs, so its answer is empty only where it has no line. -/
def registered (user cwd : String) : Except Refusal (List Char × List Char × List Char) := do
  require (box.jq = true) "jq is required to validate against the registry"
  let registry ← given ("registry not readable: " ++ registryPath) box.registry
  let lines ← given ("could not read registry " ++ registryPath)
    (registry.bind (registryLines user cwd))
  let line ← given ("refusing: (" ++ user ++ ", " ++ cwd ++ ") is not a registered agent clone")
    lines.head?
  return readFields (line.filter (· != '\x00'))

/-- `/home/$user` -/
def home (user : String) : List Char := ("/home/" ++ user).toList

/-- The binary that the entry sanctions; where there is a command, its first word must name it. -/
def sanctioned (user : String) (word : Option String) (key kind wakeBin : List Char) :
    Except Refusal String :=
  if kind = "github".toList then do
    require (∀ w ∈ word, w = "claude")
      ("refusing: command must be the bare word 'claude', got '" ++ word.getD "" ++ "'")
    given "claude not found on the trusted PATH" (box.trusted "claude")
  else if kind = "harness".toList then do
    require (wakeBin ≠ [])
      ("refusing: harness agent " ++ String.ofList key ++ " has no wake_bin in the registry")
    require (∀ w ∈ word, w.toList = wakeBin)
      ("refusing: command must be the registered wake_bin '" ++ String.ofList wakeBin ++
        "', got '" ++ word.getD "" ++ "'")
    let bin ← gated (confinedPath box.fs "wake_bin".toList (home user) wakeBin)
    require (box.executable bin.toList = true) ("wake_bin is not executable: " ++ bin)
    return bin
  else
    die ("refusing: agent " ++ String.ofList key ++ " has unknown kind '" ++ String.ofList kind ++
      "'")

/-- What stands before the two modes part: the clone, and the binary. -/
def resolve (o : Options) (word : Option String) : Except Refusal (String × String) := do
  login box o.user
  let (key, kind, wakeBin) ← registered box o.user o.cwd
  let cwd ← gated (confinedPath box.fs "clone path".toList (home o.user) o.cwd.toList)
  let bin ← sanctioned box o.user word key kind wakeBin
  return (cwd, bin)

/-- Probe mode: the verifier, told what a wake would have run. -/
def launchProbe (o : Options) (cwd bin : String) : Except Refusal Launch :=
  if !box.executable probeAck.toList then
    refuse exitUnprovable ("could not prove: probe verifier is missing or not executable: " ++
      probeAck ++ " (install it root-owned: install -o root -g root -m 0755 deploy/bin/probe-ack" ++
      " /opt/basecradle-router/bin/)")
  else
    match box.trusted "python3" with
    | none => refuse exitUnprovable "could not prove: python3 not found on the trusted PATH"
    | some python => .ok ⟨none, o.user, cwd, o.delivery, python, [probeAck, o.probe, bin]⟩

/-- A wake: the binary, with the arguments after its name. -/
def launchWake (o : Options) (cwd bin : String) (args : List String) : Except Refusal Launch := do
  let cat ← given "systemd-cat not found on the trusted PATH" (box.trusted "systemd-cat")
  return ⟨some (cat, "basecradle-wake-" ++ o.user), o.user, cwd, o.delivery, bin, args⟩

/-- The program. -/
def run (arguments : List String) : Except Refusal Launch := do
  require (box.euid = 0) "must run as root (via the sudoers rule)"
  let (o, command) ← orDie (readArguments arguments)
  let (cwd, bin) ← resolve box o command.head?
  if o.probe ≠ "" then launchProbe box o cwd bin
  else launchWake box o cwd bin command.tail

/-! ## 3. What the registry's answer is -/

/-- An entry of the registry for a user and a clone. -/
def Registers (registry : Json) (user cwd key : String) (fields : Fields) : Prop :=
  (∃ entries, toEntries registry = some entries ∧ (key, .obj fields) ∈ entries) ∧
    (Fields.get fields "os_user").isText user = true ∧
    (Fields.get fields "clone_path").isText cwd = true

/-- A text as `jq` writes it and the shell holds it. -/
def asRead (text : String) : List Char := (tsvField text).filter (· != '\x00')

/-- No field of `@tsv` has a tab in it. -/
theorem tab_not_mem_tsvField (text : String) : '\t' ∉ tsvField text := by
  intro h
  obtain ⟨c, -, hc⟩ := List.mem_flatMap.mp h
  unfold tsvEscape at hc
  by_cases hbackslash : c = '\\'
  · simp [hbackslash] at hc
  · by_cases htab : c = '\t'
    · simp [htab] at hc
    · by_cases hnewline : c = '\n'
      · simp [hnewline] at hc
      · by_cases hreturn : c = '\r'
        · simp [hreturn] at hc
        · simp [hbackslash, htab, hnewline, hreturn, eq_comm] at hc

/-- The line for an entry. -/
theorem registryLine_iff {user cwd key : String} {value : Json} {line : List Char} :
    registryLine user cwd (key, value) = some (some line) ↔ ∃ fields kind wakeBin,
      value = .obj fields ∧ (Fields.get fields "os_user").isText user = true ∧
      (Fields.get fields "clone_path").isText cwd = true ∧
      tsvText (alternative "github" (Fields.get fields "kind")) = some kind ∧
      tsvText (alternative "" (Fields.get fields "wake_bin")) = some wakeBin ∧
      line = tsvField key ++ '\t' :: (tsvField kind ++ '\t' :: tsvField wakeBin) := by
  cases value with
  | obj fields =>
    by_cases huser : (Fields.get fields "os_user").isText user = true
    · by_cases hcwd : (Fields.get fields "clone_path").isText cwd = true
      · cases hkind : tsvText (alternative "github" (Fields.get fields "kind")) with
        | none => simp [registryLine, field, huser, hcwd, hkind]
        | some kind =>
          cases hwake : tsvText (alternative "" (Fields.get fields "wake_bin")) with
          | none => simp [registryLine, field, huser, hcwd, hkind, hwake]
          | some wakeBin =>
            have hline : registryLine user cwd (key, .obj fields) = some (some
                (tsvField key ++ '\t' :: (tsvField kind ++ '\t' :: tsvField wakeBin))) := by
              simp [registryLine, field, huser, hcwd, hkind, hwake]
            rw [hline]
            constructor
            · intro h
              cases h
              exact ⟨fields, kind, wakeBin, rfl, huser, hcwd, hkind, hwake, rfl⟩
            · rintro ⟨fields, kind', wakeBin', hfields, -, -, hkind', hwake', rfl⟩
              cases hfields
              cases hkind.symm.trans hkind'
              cases hwake.symm.trans hwake'
              rfl
      · simp [registryLine, field, hcwd]
    · simp [registryLine, field, huser]
  | null => simp [registryLine, field, Json.isText, Json.asStr]
  | bool b => simp [registryLine, field]
  | int i => simp [registryLine, field]
  | float text => simp [registryLine, field]
  | str text => simp [registryLine, field]
  | arr items => simp [registryLine, field]

/-- What came of every element. -/
theorem mapM_eq_some {α β : Type} {f : α → Option β} {l : List α} {bs : List β} :
    l.mapM f = some bs ↔ l.map f = bs.map some := by
  induction l generalizing bs with
  | nil => cases bs <;> simp
  | cons a l ih =>
    rw [List.mapM_cons]
    cases ha : f a with
    | none => cases bs <;> simp [ha]
    | some b =>
      cases bs with
      | nil => cases hl : l.mapM f <;> simp
      | cons b' bs =>
        rw [List.map_cons, List.map_cons, List.cons.injEq, ha, ← ih]
        cases hl : l.mapM f with
        | none => simp
        | some made => simp [Option.bind_eq_bind]

/-- The answer has a line for each entry that is selected, in their order. -/
theorem registryLines_iff {user cwd : String} {registry : Json} {lines : List (List Char)} :
    registryLines user cwd registry = some lines ↔ ∃ entries answers,
      toEntries registry = some entries ∧ entries.mapM (registryLine user cwd) = some answers ∧
      lines = answers.filterMap id := by
  unfold registryLines
  cases toEntries registry with
  | none => simp
  | some entries =>
    cases hanswers : entries.mapM (registryLine user cwd) with
    | none => simp [hanswers]
    | some answers => simp [hanswers, eq_comm]

/-- A line of the answer is that of an entry. -/
theorem exists_entry {user cwd : String} {registry : Json} {lines : List (List Char)}
    (h : registryLines user cwd registry = some lines) {line : List Char} (hline : line ∈ lines) :
    ∃ entries, toEntries registry = some entries ∧
      ∃ entry ∈ entries, registryLine user cwd entry = some (some line) := by
  obtain ⟨entries, answers, hentries, hanswers, rfl⟩ := registryLines_iff.mp h
  obtain ⟨answer, hmem, hanswer⟩ := List.mem_filterMap.mp hline
  cases hanswer
  have hmem := List.mem_map_of_mem (f := some) hmem
  rw [← mapM_eq_some.mp hanswers] at hmem
  obtain ⟨entry, hentry, hanswer⟩ := List.mem_map.mp hmem
  exact ⟨entries, hentries, entry, hentry, hanswer⟩

/-! ## 4. What `read` makes of it -/

/-- A text without a tab. -/
def Untabbed (text : List Char) : Prop := ∀ c ∈ text, (c == '\t') = false

section

variable {word : List Char} (hword : Untabbed word)
include hword

/-- A word of `read`, and what comes after it. -/
theorem word_read (rest : List Char) :
    (word ++ '\t' :: rest).takeWhile (fun d => !(d == '\t')) = word ∧
      ((word ++ '\t' :: rest).dropWhile fun d => !(d == '\t')).dropWhile (fun d => d == '\t') =
        rest.dropWhile fun d => d == '\t' := by
  have hall : ∀ d ∈ word, (!(d == '\t')) = true := fun d hd => by rw [hword d hd]; rfl
  constructor
  · rw [List.takeWhile_append_of_pos hall, List.takeWhile_cons_of_neg (by simp), List.append_nil]
  · rw [List.dropWhile_append_of_pos hall, List.dropWhile_cons_of_neg (by simp),
      List.dropWhile_cons_of_pos (by simp)]

/-- Nothing comes after the last. -/
theorem last_read :
    (word.dropWhile fun d => !(d == '\t')).dropWhile (fun d => d == '\t') = [] := by
  have hall : ∀ d ∈ word, (!(d == '\t')) = true := fun d hd => by rw [hword d hd]; rfl
  rw [List.dropWhile_eq_nil_iff.mpr hall]
  rfl

/-- A word has no tab to skip. -/
theorem skip_word : word.dropWhile (fun d => d == '\t') = word ∧
    word.rdropWhile (fun d => d == '\t') = word := by
  constructor
  · refine List.dropWhile_eq_self_iff.mpr fun hlength => ?_
    rw [hword _ (List.getElem_mem hlength)]
    simp
  · refine List.rdropWhile_eq_self_iff.mpr fun hne => ?_
    rw [hword _ (List.getLast_mem hne)]
    simp

theorem skip_before (hne : word ≠ []) (rest : List Char) :
    (word ++ rest).dropWhile (fun d => d == '\t') = word ++ rest :=
  @dropWhile_pad _ [] word rest (by simp) hne hword

end

section

variable {a b c : List Char} (ha : Untabbed a) (hb : Untabbed b) (hc : Untabbed c)
include ha hb hc

/-- Three fields are read as they are where the first two are there. -/
theorem readFields_full (hane : a ≠ []) (hbne : b ≠ []) :
    readFields (a ++ '\t' :: (b ++ '\t' :: c)) = (a, b, c) := by
  unfold readFields
  dsimp only
  rw [skip_before ha hane, (word_read ha _).1, (word_read ha _).2, skip_before hb hbne,
    (word_read hb _).1, (word_read hb _).2, (skip_word hc).1, (skip_word hc).2]

/-- To `read` a tab is a space: where one of the two is empty, there is no third. -/
theorem readFields_short (h : a = [] ∨ b = []) :
    (readFields (a ++ '\t' :: (b ++ '\t' :: c))).2.2 = [] := by
  have hskip : ∀ rest : List Char, ('\t' :: rest).dropWhile (fun d => d == '\t') =
      rest.dropWhile fun d => d == '\t' := fun rest => List.dropWhile_cons_of_pos (by simp)
  unfold readFields
  dsimp only
  by_cases hane : a = []
  · subst hane
    rw [List.nil_append, hskip]
    by_cases hbne : b = []
    · subst hbne
      rw [List.nil_append, hskip, (skip_word hc).1, last_read hc]
      rfl
    · rw [skip_before hb hbne, (word_read hb _).2, (skip_word hc).1, last_read hc]
      rfl
  · obtain rfl : b = [] := h.resolve_left hane
    rw [skip_before ha hane, (word_read ha _).2, List.nil_append, hskip, (skip_word hc).1,
      last_read hc]
    rfl

end

/-! ## 5. What each check lets through -/

section

variable {α : Type} {text : String}

@[simp] theorem die_ok {a : α} : die text = .ok a ↔ False := by
  simp [die, refuse]

@[simp] theorem require_ok {p : Prop} [Decidable p] {u : Unit} : require p text = .ok u ↔ p := by
  unfold require
  by_cases hp : p <;> simp [hp]

@[simp] theorem given_ok {answer : Option α} {a : α} :
    given text answer = .ok a ↔ answer = some a := by
  cases answer <;> simp [given]

@[simp] theorem orDie_ok {answer : Except String α} {a : α} :
    orDie answer = .ok a ↔ answer = .ok a := by
  cases answer <;> simp [orDie]

end

variable {box} {user cwd : String}

/-- A path is captured as it is, unless it ends in a newline. -/
theorem captured_eq {path : List Char} (h : path.getLast? ≠ some '\n') : captured path = path := by
  unfold captured
  refine List.rdropWhile_eq_self_iff.mpr fun hne hlast => h ?_
  rw [List.getLast?_eq_some_getLast hne, beq_iff_eq.mp hlast]

/-- A path that passes the gate goes on as it is captured. -/
theorem gated_ok {label root path : List Char} {out : String} :
    gated (confinedPath box.fs label root path) = .ok out ↔
      out.toList = captured path ∧ Confined box.fs root path := by
  cases hpath : confinedPath box.fs label root path with
  | ok out' =>
    obtain ⟨rfl, hconfined⟩ := confinedPath_iff.mp hpath
    have hout : gated (.ok out') = .ok out ↔ out.toList = captured out' := by
      unfold gated
      rw [Except.ok.injEq]
      constructor
      · rintro rfl
        exact String.toList_ofList
      · intro h
        rw [← h, String.ofList_toList]
    rw [hout]
    exact (and_iff_left hconfined).symm
  | error line =>
    refine iff_of_false (by simp [gated]) fun h => ?_
    have hok : confinedPath box.fs label root path = .ok path := confinedPath_iff.mpr ⟨rfl, h.2⟩
    rw [hpath] at hok
    cases hok

theorem login_ok {u : Unit} :
    login box user = .ok u ↔ ∃ uid, box.uid user = some uid ∧ minUid ≤ uid := by
  simp [login, bind_eq_ok]

theorem registered_ok {answer : List Char × List Char × List Char} :
    registered box user cwd = .ok answer ↔ box.jq = true ∧ ∃ registry lines line,
      box.registry = some (some registry) ∧ registryLines user cwd registry = some lines ∧
      lines.head? = some line ∧ answer = readFields (line.filter (· != '\x00')) := by
  unfold registered
  simp only [bind_eq_ok, require_ok, given_ok, Option.bind_eq_some_iff, pure, Except.pure,
    Except.ok.injEq]
  constructor
  · rintro ⟨-, hjq, _, hregistry, lines, ⟨registry, rfl, hlines⟩, line, hline, rfl⟩
    exact ⟨hjq, registry, lines, line, hregistry, hlines, hline, rfl⟩
  · rintro ⟨hjq, registry, lines, line, hregistry, hlines, hline, rfl⟩
    exact ⟨(), hjq, some registry, hregistry, lines, ⟨registry, rfl, hlines⟩, line, hline, rfl⟩

theorem sanctioned_ok {word : Option String} {key kind wakeBin : List Char} {bin : String} :
    sanctioned box user word key kind wakeBin = .ok bin ↔
      (kind = "github".toList ∧ (∀ w ∈ word, w = "claude") ∧ box.trusted "claude" = some bin) ∨
      (kind = "harness".toList ∧ wakeBin ≠ [] ∧ (∀ w ∈ word, w.toList = wakeBin) ∧
        bin.toList = captured wakeBin ∧ Confined box.fs (home user) wakeBin ∧
        box.executable (captured wakeBin) = true) := by
  have hne : "github".toList ≠ "harness".toList := by decide
  unfold sanctioned
  by_cases hgithub : kind = "github".toList
  · subst hgithub
    rw [if_pos rfl]
    simp only [bind_eq_ok, require_ok, given_ok]
    constructor
    · rintro ⟨-, hword, hclaude⟩
      exact Or.inl ⟨trivial, hword, hclaude⟩
    · rintro (⟨-, hword, hclaude⟩ | ⟨hkind, -⟩)
      · exact ⟨(), hword, hclaude⟩
      · exact absurd hkind hne
  · rw [if_neg hgithub]
    by_cases hharness : kind = "harness".toList
    · subst hharness
      rw [if_pos rfl]
      simp only [bind_eq_ok, require_ok, gated_ok, pure, Except.pure, Except.ok.injEq]
      constructor
      · rintro ⟨-, hwake, -, hword, out, ⟨hout, hconfined⟩, -, hexecutable, rfl⟩
        exact Or.inr ⟨trivial, hwake, hword, hout, hconfined, hout ▸ hexecutable⟩
      · rintro (⟨hkind, -⟩ | ⟨-, hwake, hword, hout, hconfined, hexecutable⟩)
        · exact absurd hkind.symm hne
        · exact ⟨(), hwake, (), hword, bin, ⟨hout, hconfined⟩, (), hout ▸ hexecutable, rfl⟩
    · rw [if_neg hharness, die_ok]
      exact iff_of_false id fun h => h.elim (fun h => hgithub h.1) fun h => hharness h.1

/-- The directory that is entered for a clone. -/
def entered (cwd : String) : String := String.ofList (captured cwd.toList)

/-- It is the clone, unless its path ends in a newline. -/
theorem entered_eq {cwd : String} (h : cwd.toList.getLast? ≠ some '\n') : entered cwd = cwd := by
  unfold entered
  rw [captured_eq h, String.ofList_toList]

theorem entered_eq_iff {cwd out : String} :
    out = entered cwd ↔ out.toList = captured cwd.toList := by
  unfold entered
  constructor
  · rintro rfl
    exact String.toList_ofList
  · intro h
    rw [← h, String.ofList_toList]

theorem resolve_ok {o : Options} {word : Option String} {clone bin : String} :
    resolve box o word = .ok (clone, bin) ↔ (∃ uid, box.uid o.user = some uid ∧ minUid ≤ uid) ∧
      (clone = entered o.cwd ∧ Confined box.fs (home o.user) o.cwd.toList) ∧
      ∃ key kind wakeBin, registered box o.user o.cwd = .ok (key, kind, wakeBin) ∧
        sanctioned box o.user word key kind wakeBin = .ok bin := by
  unfold resolve
  simp only [bind_eq_ok, login_ok, gated_ok, pure, Except.pure, Except.ok.injEq, Prod.mk.injEq]
  constructor
  · rintro ⟨-, hlogin, ⟨key, kind, wakeBin⟩, hregistered, out, ⟨hout, hconfined⟩, bin', hbin, rfl,
      rfl⟩
    exact ⟨hlogin, ⟨entered_eq_iff.mpr hout, hconfined⟩, key, kind, wakeBin, hregistered, hbin⟩
  · rintro ⟨hlogin, ⟨hout, hconfined⟩, key, kind, wakeBin, hregistered, hbin⟩
    exact ⟨(), hlogin, (key, kind, wakeBin), hregistered, clone,
      ⟨entered_eq_iff.mp hout, hconfined⟩, bin, hbin, rfl, rfl⟩

theorem launchProbe_ok {o : Options} {clone bin : String} {launch : Launch} :
    launchProbe box o clone bin = .ok launch ↔ box.executable probeAck.toList = true ∧
      ∃ python, box.trusted "python3" = some python ∧
        launch = ⟨none, o.user, clone, o.delivery, python, [probeAck, o.probe, bin]⟩ := by
  unfold launchProbe
  cases box.executable probeAck.toList with
  | false => simp [refuse]
  | true => cases box.trusted "python3" <;> simp [refuse, eq_comm]

theorem launchWake_ok {o : Options} {clone bin : String} {args : List String} {launch : Launch} :
    launchWake box o clone bin args = .ok launch ↔
      ∃ cat, box.trusted "systemd-cat" = some cat ∧
        launch = ⟨some (cat, "basecradle-wake-" ++ o.user), o.user, clone, o.delivery, bin,
          args⟩ := by
  unfold launchWake
  simp [bind_eq_ok, pure, Except.pure, eq_comm (a := launch)]

theorem run_ok {arguments : List String} {launch : Launch} :
    run box arguments = .ok launch ↔ box.euid = 0 ∧ ∃ o command clone bin,
      readArguments arguments = .ok (o, command) ∧
      resolve box o command.head? = .ok (clone, bin) ∧
      (if o.probe ≠ "" then launchProbe box o clone bin
        else launchWake box o clone bin command.tail) = .ok launch := by
  unfold run
  simp only [bind_eq_ok, require_ok, orDie_ok]
  constructor
  · rintro ⟨-, hroot, ⟨o, command⟩, hread, ⟨clone, bin⟩, hresolve, hlaunch⟩
    exact ⟨hroot, o, command, clone, bin, hread, hresolve, hlaunch⟩
  · rintro ⟨hroot, o, command, clone, bin, hread, hresolve, hlaunch⟩
    exact ⟨(), hroot, (o, command), hread, (clone, bin), hresolve, hlaunch⟩

/-! ## 6. Where it stays -/

/-- What an entry of the registry has run: `claude` off the trusted path, or the binary that it
pins, which is there to be run below the agent's home with no link on the way. -/
inductive Sanctions (box : Box Id) (user : String) (fields : Fields) (bin : String) : Prop
  | claude (htrusted : box.trusted "claude" = some bin)
  | pinned {kind wakeBin : String}
      (hkind : tsvText (alternative "github" (Fields.get fields "kind")) = some kind)
      (hharness : asRead kind = "harness".toList)
      (hwake : tsvText (alternative "" (Fields.get fields "wake_bin")) = some wakeBin)
      (hbin : bin.toList = asRead wakeBin)
      (hconfined : Confined box.fs (home user) bin.toList)
      (hexecutable : box.executable bin.toList = true)

/-- Nor has what is read a newline. -/
theorem captured_asRead (text : String) : captured (asRead text) = asRead text := by
  refine captured_eq fun hlast => ?_
  obtain ⟨c, -, hc⟩ := List.mem_flatMap.mp
    (List.mem_of_mem_filter (List.mem_of_getLast? hlast))
  unfold tsvEscape at hc
  by_cases hbackslash : c = '\\'
  · simp [hbackslash] at hc
  · by_cases htab : c = '\t'
    · simp [htab] at hc
    · by_cases hnewline : c = '\n'
      · simp [hnewline] at hc
      · by_cases hreturn : c = '\r'
        · simp [hreturn] at hc
        · simp [hbackslash, htab, hnewline, hreturn, eq_comm] at hc

theorem untabbed_asRead (text : String) : Untabbed (asRead text) := by
  intro c hc
  refine beq_false_of_ne fun heq => tab_not_mem_tsvField text ?_
  rw [← heq]
  exact List.mem_of_mem_filter hc

/-- What is read of an entry's line, in terms of the entry. -/
theorem registered_entry {answer : List Char × List Char × List Char}
    (h : registered box user cwd = .ok answer) : ∃ registry key fields kind wakeBin,
      box.registry = some (some registry) ∧ Registers registry user cwd key fields ∧
      tsvText (alternative "github" (Fields.get fields "kind")) = some kind ∧
      tsvText (alternative "" (Fields.get fields "wake_bin")) = some wakeBin ∧
      answer = readFields (asRead key ++ '\t' :: (asRead kind ++ '\t' :: asRead wakeBin)) := by
  obtain ⟨-, registry, lines, line, hregistry, hlines, hline, rfl⟩ := registered_ok.mp h
  obtain ⟨entries, hentries, ⟨key, value⟩, hentry, hanswer⟩ :=
    exists_entry hlines (List.mem_of_head? hline)
  obtain ⟨fields, kind, wakeBin, rfl, huser, hcwd, hkind, hwake, rfl⟩ := registryLine_iff.mp hanswer
  refine ⟨registry, key, fields, kind, wakeBin, hregistry, ⟨⟨entries, hentries, hentry⟩, huser,
    hcwd⟩, hkind, hwake, ?_⟩
  unfold asRead
  rw [List.filter_append, List.filter_cons_of_pos (by decide), List.filter_append,
    List.filter_cons_of_pos (by decide)]

/-- What is resolved is what an entry has run. -/
theorem sanctions_of_sanctioned {word : Option String} {answer : List Char × List Char × List Char}
    {bin : String} (hregistered : registered box user cwd = .ok answer)
    (hbin : sanctioned box user word answer.1 answer.2.1 answer.2.2 = .ok bin) :
    ∃ registry key fields, box.registry = some (some registry) ∧
      Registers registry user cwd key fields ∧ Sanctions box user fields bin := by
  obtain ⟨registry, key, fields, kind, wakeBin, hregistry, hregisters, hkind, hwake, rfl⟩ :=
    registered_entry hregistered
  refine ⟨registry, key, fields, hregistry, hregisters, ?_⟩
  rcases sanctioned_ok.mp hbin with ⟨-, -, hclaude⟩ | ⟨hharness, hne, -, heq, hconfined, hexec⟩
  · exact .claude hclaude
  · have hfull : asRead key ≠ [] ∧ asRead kind ≠ [] := by
      by_contra hshort
      refine hne (readFields_short (untabbed_asRead key) (untabbed_asRead kind)
        (untabbed_asRead wakeBin) ?_)
      rwa [not_and_or, not_not, not_not] at hshort
    rw [readFields_full (untabbed_asRead key) (untabbed_asRead kind) (untabbed_asRead wakeBin)
      hfull.1 hfull.2] at hharness heq hconfined hexec
    rw [captured_asRead] at heq hexec
    exact .pinned hkind hharness hwake heq (heq ▸ hconfined) (heq ▸ hexec)

/-- What the wrapper promises of a launch: it is root's, of an agent's account, for a clone that the
registry has for it and that no link leads to, of a program that the registry has run for it, with
a delivery that is inert. -/
structure Within (box : Box Id) (arguments : List String) (launch : Launch) : Prop where
  root : box.euid = 0
  account : ∃ uid, box.uid launch.user = some uid ∧ minUid ≤ uid
  delivery : launch.delivery = "" ∨ runnerDelivery.fits launch.delivery.toList = true
  registered : ∃ o command registry key fields bin,
    readArguments arguments = .ok (o, command) ∧ launch.user = o.user ∧
    launch.delivery = o.delivery ∧ box.registry = some (some registry) ∧
    Registers registry o.user o.cwd key fields ∧ Sanctions box o.user fields bin ∧
    -- the clone is confined, and entered but for the newlines at its path's end
    Confined box.fs (home o.user) o.cwd.toList ∧ launch.cwd = entered o.cwd ∧
    (o.cwd.toList.getLast? ≠ some '\n' → launch.cwd = o.cwd) ∧
      -- a wake: the program is the entry's, only what comes after its name is the caller's
      ((o.probe = "" ∧ launch.program = bin ∧ launch.args = command.tail ∧
          ∃ cat, box.trusted "systemd-cat" = some cat ∧
            launch.journal = some (cat, "basecradle-wake-" ++ launch.user)) ∨
        -- a probe: the verifier with a marker and the name of that program, which is not run
        (runnerMarker.fits o.probe.toList = true ∧ launch.journal = none ∧
          box.trusted "python3" = some launch.program ∧
          launch.args = [probeAck, o.probe, bin] ∧ box.executable probeAck.toList = true))

/-- What the checks after the option loop let through. -/
theorem modeChecks_inert {command : List String} {o : Options}
    (h : modeChecks o command = .ok ()) :
    (o.probe ≠ "" → runnerMarker.fits o.probe.toList = true) ∧
      (o.delivery = "" ∨ runnerDelivery.fits o.delivery.toList = true) := by
  unfold modeChecks at h
  by_cases huser : o.user = ""
  · simp [huser, bind, Except.bind] at h
  by_cases hcwd : o.cwd = ""
  · simp [huser, hcwd, bind, Except.bind] at h
  by_cases hprobe : o.probe = ""
  · refine ⟨fun hne => absurd hprobe hne, ?_⟩
    by_cases hdelivery : o.delivery = ""
    · exact Or.inl hdelivery
    · cases hfits : runnerDelivery.fits o.delivery.toList with
      | true => exact Or.inr rfl
      | false =>
        by_cases hcommand : command = [] <;>
          simp [huser, hcwd, hprobe, hcommand, hdelivery, hfits, bind, Except.bind] at h
  · cases command with
    | cons first rest => simp [huser, hcwd, hprobe, bind, Except.bind] at h
    | nil =>
      cases hmarker : runnerMarker.fits o.probe.toList with
      | false => simp [huser, hcwd, hprobe, hmarker, bind, Except.bind] at h
      | true =>
        refine ⟨fun _ => rfl, ?_⟩
        by_cases hdelivery : o.delivery = ""
        · exact Or.inl hdelivery
        · cases hfits : runnerDelivery.fits o.delivery.toList with
          | true => exact Or.inr rfl
          | false =>
            simp [huser, hcwd, hprobe, hmarker, hdelivery, hfits] at h

theorem readArguments_inert {arguments command : List String} {o : Options}
    (h : readArguments arguments = .ok (o, command)) :
    (o.probe ≠ "" → runnerMarker.fits o.probe.toList = true) ∧
      (o.delivery = "" ∨ runnerDelivery.fits o.delivery.toList = true) := by
  obtain ⟨⟨o', command'⟩, -, hchecks⟩ := bind_eq_ok.mp h
  obtain ⟨⟨⟩, hchecks, heq⟩ := bind_eq_ok.mp hchecks
  cases heq
  exact modeChecks_inert hchecks

/-- **The wrapper stays within the registry**, whatever it is asked for. -/
theorem stays_within (box : Box Id) (arguments : List String) {launch : Launch}
    (h : run box arguments = .ok launch) : Within box arguments launch := by
  obtain ⟨hroot, o, command, clone, bin, hread, hresolve, hlaunch⟩ := run_ok.mp h
  obtain ⟨haccount, ⟨rfl, hclone⟩, key, kind, wakeBin, hregistered, hbin⟩ := resolve_ok.mp hresolve
  obtain ⟨registry, key, fields, hregistry, hregisters, hsanctions⟩ :=
    sanctions_of_sanctioned hregistered hbin
  obtain ⟨hmarker, hdelivery⟩ := readArguments_inert hread
  by_cases hprobe : o.probe = ""
  · rw [if_neg (not_not.mpr hprobe)] at hlaunch
    obtain ⟨cat, hcat, rfl⟩ := launchWake_ok.mp hlaunch
    exact ⟨hroot, haccount, hdelivery, o, command, registry, key, fields, bin, hread, rfl, rfl,
      hregistry, hregisters, hsanctions, hclone, rfl, entered_eq,
      Or.inl ⟨hprobe, rfl, rfl, cat, hcat, rfl⟩⟩
  · rw [if_pos hprobe] at hlaunch
    obtain ⟨hverifier, python, hpython, rfl⟩ := launchProbe_ok.mp hlaunch
    exact ⟨hroot, haccount, hdelivery, o, command, registry, key, fields, bin, hread, rfl, rfl,
      hregistry, hregisters, hsanctions, hclone, rfl, entered_eq,
      Or.inr ⟨hmarker hprobe, rfl, hpython, rfl, hverifier⟩⟩

/-- A registry of one agent. -/
def novaEntries : Fields :=
  [("basecradle/nova", .obj [("os_user", .str "nova"), ("clone_path", .str "/home/nova/w"),
    ("bot_slug", .str "nova")])]

/-- A box with one agent, `nova`, who has a clone in its home. -/
def novaBox : Box ℕ where
  euid := 0
  uid := fun user => if user = "nova" then some 1001 else none
  jq := true
  registry := some (some (.obj novaEntries))
  fs :=
    { inode := fun
        | 0 => .dir (fun name => if name = ['h', 'o', 'm', 'e'] then some 1 else none) 0
        | 1 => .dir (fun name => if name = ['n', 'o', 'v', 'a'] then some 2 else none) 0
        | 2 => .dir (fun name => if name = ['w'] then some 3 else none) 1
        | _ => .dir (fun _ => none) 2
      root := 0
      cwd := 0 }
  executable := fun path => path = probeAck.toList
  trusted := fun name => some ("/usr/bin/" ++ name)

theorem nova_confined : Confined novaBox.fs (home "nova") "/home/nova/w".toList := by
  have htop : novaBox.fs.lstat (home "nova") = some 2 := by decide
  have hclone : novaBox.fs.lstat "/home/nova/w".toList = some 3 := by decide
  have hnova : Canonical (home "nova") := canonical_iff.mpr
    ⟨[['h', 'o', 'm', 'e'], ['n', 'o', 'v', 'a']], by simp, by decide, by decide⟩
  have hw : Canonical "/home/nova/w".toList := canonical_iff.mpr
    ⟨[['h', 'o', 'm', 'e'], ['n', 'o', 'v', 'a'], ['w']], by simp, by decide, by decide⟩
  have hsolid : novaBox.fs.Solid (home "nova") [['w']] := by
    refine solid_cons.mpr ⟨⟨3, hclone, ?_, fun h => absurd rfl h⟩, ?_⟩
    · rintro ⟨target, h⟩
      cases h
    · intro n hpos hn
      exact absurd hpos (Nat.not_lt.mpr hn)
  refine ⟨hnova, by decide, ⟨2, htop, _, _, rfl⟩, hw, [['w']], by simp, by decide, ?_, hsolid⟩
  intro name hname
  rw [List.mem_singleton] at hname
  subst hname
  exact ⟨by decide, by decide, by decide, by decide⟩

/-- A wake of `nova`. -/
theorem stays_within_nova : Within novaBox
    ["--user", "nova", "--cwd", "/home/nova/w", "--", "claude", "-p", "hello"]
    ⟨some ("/usr/bin/systemd-cat", "basecradle-wake-nova"), "nova", "/home/nova/w", "",
      "/usr/bin/claude", ["-p", "hello"]⟩ := by
  refine stays_within novaBox _ (run_ok.mpr ⟨rfl, ⟨"nova", "/home/nova/w", "", ""⟩,
    ["claude", "-p", "hello"], "/home/nova/w", "/usr/bin/claude", rfl, resolve_ok.mpr ?_, rfl⟩)
  refine ⟨⟨1001, rfl, by decide⟩, ⟨(entered_eq (by decide)).symm, nova_confined⟩,
    "basecradle/nova".toList, "github".toList, [], rfl, ?_⟩
  exact sanctioned_ok.mpr (Or.inl ⟨rfl, by simp, rfl⟩)

/-- A box whose registry has a newline at the end of the clone's path, where there is such a
directory and a link that goes by the name without it. -/
def strayBox : Box ℕ where
  euid := 0
  uid := novaBox.uid
  jq := true
  registry := some (some (.obj [("basecradle/nova", .obj [("os_user", .str "nova"),
    ("clone_path", .str "/home/nova/w\n"), ("bot_slug", .str "nova")])]))
  fs :=
    { inode := fun
        | 0 => .dir (fun name => if name = ['h', 'o', 'm', 'e'] then some 1 else none) 0
        | 1 => .dir (fun name => if name = ['n', 'o', 'v', 'a'] then some 2 else none) 0
        | 2 => .dir (fun name => if name = ['w', '\n'] then some 3 else
            if name = ['w'] then some 4 else none) 1
        | 4 => .link ['/', 'e', 't', 'c']
        | _ => .dir (fun _ => none) 2
      root := 0
      cwd := 0 }
  executable := novaBox.executable
  trusted := novaBox.trusted

/-- **What is entered for such a path was not checked.** -/
theorem strays_newline : ∃ launch,
    run strayBox ["--user", "nova", "--cwd", "/home/nova/w\n", "--", "claude"] = .ok launch ∧
      launch.cwd = "/home/nova/w" ∧ strayBox.fs.testLink launch.cwd.toList = true := by
  have hentered : entered "/home/nova/w\n" = "/home/nova/w" := by decide
  have htop : strayBox.fs.lstat (home "nova") = some 2 := by decide
  have hclone : strayBox.fs.lstat "/home/nova/w\n".toList = some 3 := by decide
  have hnova : Canonical (home "nova") := canonical_iff.mpr
    ⟨[['h', 'o', 'm', 'e'], ['n', 'o', 'v', 'a']], by simp, by decide, by decide⟩
  have hw : Canonical "/home/nova/w\n".toList := canonical_iff.mpr
    ⟨[['h', 'o', 'm', 'e'], ['n', 'o', 'v', 'a'], ['w', '\n']], by simp, by decide, by decide⟩
  have hsolid : strayBox.fs.Solid (home "nova") [['w', '\n']] := by
    refine solid_cons.mpr ⟨⟨3, hclone, ?_, fun h => absurd rfl h⟩, ?_⟩
    · rintro ⟨target, h⟩
      cases h
    · intro n hpos hn
      exact absurd hpos (Nat.not_lt.mpr hn)
  have hconfined : Confined strayBox.fs (home "nova") "/home/nova/w\n".toList := by
    refine ⟨hnova, by decide, ⟨2, htop, _, _, rfl⟩, hw, [['w', '\n']], by simp, by decide, ?_,
      hsolid⟩
    intro name hname
    rw [List.mem_singleton] at hname
    subst hname
    exact ⟨by decide, by decide, by decide, by decide⟩
  refine ⟨⟨some ("/usr/bin/systemd-cat", "basecradle-wake-nova"), "nova", "/home/nova/w", "",
    "/usr/bin/claude", []⟩, run_ok.mpr ⟨rfl, ⟨"nova", "/home/nova/w\n", "", ""⟩, ["claude"],
    "/home/nova/w", "/usr/bin/claude", rfl, resolve_ok.mpr ?_, rfl⟩, rfl, by decide⟩
  refine ⟨⟨1001, rfl, by decide⟩, ⟨hentered.symm, hconfined⟩, "basecradle/nova".toList,
    "github".toList, [], rfl, ?_⟩
  exact sanctioned_ok.mpr (Or.inl ⟨rfl, by simp, rfl⟩)

/-! ## 7. A probe goes where a wake goes -/

/-- Nothing but the code 1 on the way. -/
def Dies {α : Type} (x : Except Refusal α) : Prop :=
  ∀ refusal, x = .error refusal → refusal.code = 1

section

variable {α β : Type} {text : String}

theorem dies_ok {a : α} : Dies (.ok a) := fun _ h => by cases h

theorem dies_die : Dies (die text : Except Refusal α) := by
  intro refusal h
  cases h
  rfl

theorem dies_require {p : Prop} [Decidable p] : Dies (require p text) := by
  unfold require
  by_cases hp : p
  · rw [if_pos hp]
    exact dies_ok
  · rw [if_neg hp]
    exact dies_die

theorem dies_given {answer : Option α} : Dies (given text answer) := by
  cases answer with
  | none => exact dies_die
  | some a => exact dies_ok

theorem dies_gated {gate : Except (List Char) (List Char)} : Dies (gated gate) := by
  cases gate with
  | ok out => exact dies_ok
  | error line =>
    intro refusal h
    cases h
    rfl

theorem dies_bind {x : Except Refusal α} {f : α → Except Refusal β} (hx : Dies x)
    (hf : ∀ a, Dies (f a)) : Dies (x >>= f) := by
  intro refusal h
  rcases bind_eq_error.mp h with h | ⟨a, -, h⟩
  · exact hx refusal h
  · exact hf a refusal h

end

/-- Before the modes part the wrapper has no other code than 1. -/
theorem dies_resolve (o : Options) (word : Option String) : Dies (resolve box o word) := by
  have hsanctioned : ∀ key kind wakeBin, Dies (sanctioned box o.user word key kind wakeBin) := by
    intro key kind wakeBin
    unfold sanctioned
    by_cases hgithub : kind = "github".toList
    · rw [if_pos hgithub]
      exact dies_bind dies_require fun _ => dies_given
    · rw [if_neg hgithub]
      by_cases hharness : kind = "harness".toList
      · rw [if_pos hharness]
        exact dies_bind dies_require fun _ => dies_bind dies_require fun _ =>
          dies_bind dies_gated fun _ => dies_bind dies_require fun _ => dies_ok
      · rw [if_neg hharness]
        exact dies_die
  unfold resolve login registered
  exact dies_bind (dies_bind dies_given fun _ => dies_require) fun _ =>
    dies_bind (dies_bind dies_require fun _ => dies_bind dies_given fun _ =>
      dies_bind dies_given fun _ => dies_bind dies_given fun _ => dies_ok) fun _ =>
    dies_bind dies_gated fun _ => dies_bind (hsanctioned _ _ _) fun _ => dies_ok

theorem require_holds {p : Prop} [Decidable p] (hp : p) (text : String) :
    require p text = .ok () := if_pos hp

/-- One word goes as far as no word, and no other word gets through. -/
theorem exists_word (user : String) (key kind wakeBin : List Char) : ∃ word,
    sanctioned box user (some word) key kind wakeBin = sanctioned box user none key kind wakeBin ∧
    ∀ word' bin, sanctioned box user (some word') key kind wakeBin = .ok bin → word' = word := by
  by_cases hgithub : kind = "github".toList
  · have hword : ∀ w ∈ some "claude", w = "claude" := fun w hw => (Option.some.inj hw).symm
    have hnone : ∀ w ∈ (none : Option String), w = "claude" := by simp
    refine ⟨"claude", ?_, fun word' bin h => ?_⟩
    · unfold sanctioned
      rw [if_pos hgithub, if_pos hgithub, require_holds hword, require_holds hnone]
    · rcases sanctioned_ok.mp h with ⟨-, hword, -⟩ | ⟨hharness, -⟩
      · exact hword word' rfl
      · rw [hgithub] at hharness
        exact absurd hharness (by decide)
  · have hword : ∀ w ∈ some (String.ofList wakeBin), w.toList = wakeBin := by
      intro w hw
      rw [← Option.some.inj hw, String.toList_ofList]
    have hnone : ∀ w ∈ (none : Option String), w.toList = wakeBin := by simp
    refine ⟨String.ofList wakeBin, ?_, fun word' bin h => ?_⟩
    · unfold sanctioned
      rw [if_neg hgithub, if_neg hgithub, require_holds hword, require_holds hnone]
    · rcases sanctioned_ok.mp h with ⟨hkind, -⟩ | ⟨-, -, hword, -⟩
      · exact absurd hkind hgithub
      · rw [← hword word' rfl, String.ofList_toList]

theorem resolve_word (o : Options) : ∃ word,
    resolve box o (some word) = resolve box o none ∧
    ∀ word' resolved, resolve box o (some word') = .ok resolved → word' = word := by
  cases hregistered : registered box o.user o.cwd with
  | error refusal =>
    refine ⟨"", ?_, fun word' resolved h => ?_⟩
    · unfold resolve
      rw [hregistered]
      rfl
    · obtain ⟨-, -, key, kind, wakeBin, hok, -⟩ := resolve_ok.mp h
      rw [hregistered] at hok
      cases hok
  | ok answer =>
    obtain ⟨key, kind, wakeBin⟩ := answer
    obtain ⟨word, hsame, honly⟩ := @exists_word Id box o.user key kind wakeBin
    refine ⟨word, ?_, fun word' resolved h => ?_⟩
    · unfold resolve
      rw [hregistered]
      simp only [bind, Except.bind, hsame]
    · obtain ⟨-, -, key', kind', wakeBin', hok, hbin⟩ := resolve_ok.mp h
      cases hregistered.symm.trans hok
      exact honly word' _ hbin

/-- The options of a request. -/
def requested (user cwd delivery : String) : List (String × String) :=
  [("--user", user), ("--cwd", cwd), ("--delivery", delivery)]

/-- A marker takes the place of a command. -/
theorem modeChecks_probe {user cwd delivery marker word : String} {args : List String}
    (h : runnerMarker.fits marker.toList = true) :
    modeChecks ⟨user, cwd, delivery, marker⟩ [] =
      modeChecks ⟨user, cwd, delivery, ""⟩ (word :: args) := by
  have hmarker : marker ≠ "" := by
    rintro rfl
    exact absurd h (by decide)
  unfold modeChecks
  simp [h, hmarker]

/-- What is left of the checks once the options are read. -/
theorem readArguments_read {arguments command : List String} {o : Options}
    (h : optionLoop .unset arguments = .ok (o, command)) :
    readArguments arguments = (modeChecks o command).map fun _ => (o, command) := by
  unfold readArguments
  rw [h]
  cases hchecks : modeChecks o command with
  | error text => simp [hchecks, Except.map, bind, Except.bind]
  | ok u => simp [hchecks, Except.map, bind, Except.bind, pure, Except.pure]

variable (box) (user cwd delivery : String)

/-- A wake as the home server asks for it. -/
def wakeOf (word : String) (args : List String) : Except Refusal Launch :=
  run box (spelled (requested user cwd delivery) ++ "--" :: word :: args)

/-- A probe as the home server asks for it. -/
def probeOf (marker : String) : Except Refusal Launch :=
  run box (spelled (requested user cwd delivery) ++ ["--probe", marker])

/-- What a probe says about a wake of the same agent, where there is a `systemd-cat` for the wake's
journal, which a probe does without. -/
structure Parity (marker word : String) : Prop where
  /-- no other word begins a command that is launched -/
  only : ∀ word' args launch, wakeOf box user cwd delivery word' args = .ok launch → word' = word
  /-- a probe that gets through names the binary that the wake launches -/
  proven : ∀ args python, box.executable probeAck.toList = true →
    box.trusted "python3" = some python → ∀ bin,
    (probeOf box user cwd delivery marker =
        .ok ⟨none, user, entered cwd, delivery, python, [probeAck, marker, bin]⟩ ↔
      ∃ launch, wakeOf box user cwd delivery word args = .ok launch ∧ launch.program = bin)
  /-- it cannot prove anything exactly where the wake is launched and it has not its own tools -/
  unprovable : ∀ args, (∃ line, probeOf box user cwd delivery marker = .error ⟨75, line⟩) ↔
    (∃ launch, wakeOf box user cwd delivery word args = .ok launch) ∧
      ¬ (box.executable probeAck.toList = true ∧ ∃ python, box.trusted "python3" = some python)
  /-- and it is refused where the wake is, with the same line -/
  broken : ∀ args refusal, wakeOf box user cwd delivery word args = .error refusal →
    refusal.code = 1 ∧ probeOf box user cwd delivery marker = .error refusal

variable {box user cwd delivery}

/-- Both are one way up to the binary. -/
theorem run_requested {marker : String} (hmarker : runnerMarker.fits marker.toList = true) :
    ∃ checked : Except Refusal Unit, Dies checked ∧
      (∀ word args, wakeOf box user cwd delivery word args = (checked >>= fun _ =>
        resolve box ⟨user, cwd, delivery, marker⟩ (some word) >>= fun resolved =>
          launchWake box ⟨user, cwd, delivery, marker⟩ resolved.1 resolved.2 args)) ∧
      probeOf box user cwd delivery marker = (checked >>= fun _ =>
        resolve box ⟨user, cwd, delivery, marker⟩ none >>= fun resolved =>
          launchProbe box ⟨user, cwd, delivery, marker⟩ resolved.1 resolved.2) := by
  have hne : marker ≠ "" := by
    rintro rfl
    exact absurd hmarker (by decide)
  refine ⟨require (box.euid = 0) "must run as root (via the sudoers rule)" >>= fun _ =>
    orDie (modeChecks ⟨user, cwd, delivery, marker⟩ []), ?_, fun word args => ?_, ?_⟩
  · refine dies_bind dies_require fun _ => ?_
    cases modeChecks ⟨user, cwd, delivery, marker⟩ [] with
    | ok u => exact dies_ok
    | error text => exact dies_die
  · have hloop : optionLoop .unset (spelled (requested user cwd delivery) ++
        "--" :: word :: args) = .ok (⟨user, cwd, delivery, ""⟩, word :: args) := rfl
    unfold wakeOf run
    rw [readArguments_read hloop, ← modeChecks_probe hmarker]
    cases require (box.euid = 0) "must run as root (via the sudoers rule)" with
    | error refusal => rfl
    | ok u =>
      cases modeChecks ⟨user, cwd, delivery, marker⟩ [] with
      | error text => rfl
      | ok u => rfl
  · have hloop : optionLoop .unset (spelled (requested user cwd delivery) ++
        ["--probe", marker]) = .ok (⟨user, cwd, delivery, marker⟩, []) := rfl
    unfold probeOf run
    rw [readArguments_read hloop]
    cases require (box.euid = 0) "must run as root (via the sudoers rule)" with
    | error refusal => rfl
    | ok u =>
      cases modeChecks ⟨user, cwd, delivery, marker⟩ [] with
      | error text => rfl
      | ok u =>
        simp only [bind, Except.bind, Except.map, orDie, if_pos hne]
        rfl

/-- With the word that the agent's entry sanctions, both come to one outcome before they part. -/
theorem found_alike {marker : String} (hmarker : runnerMarker.fits marker.toList = true)
    {cat : String} (hcat : box.trusted "systemd-cat" = some cat) :
    ∃ (word : String) (found : Except Refusal (String × String)), Dies found ∧
      (∀ resolved, found = .ok resolved → resolved.1 = entered cwd) ∧
      (∀ word' args launch, wakeOf box user cwd delivery word' args = .ok launch →
        word' = word) ∧
      (∀ args, wakeOf box user cwd delivery word args = (found >>= fun resolved =>
        .ok ⟨some (cat, "basecradle-wake-" ++ user), user, resolved.1, delivery, resolved.2,
          args⟩)) ∧
      probeOf box user cwd delivery marker = (found >>= fun resolved =>
        launchProbe box ⟨user, cwd, delivery, marker⟩ resolved.1 resolved.2) := by
  obtain ⟨checked, hchecked, hwake, hprobe⟩ :=
    @run_requested Id box user cwd delivery marker hmarker
  obtain ⟨word, hsame, honly⟩ := @resolve_word Id box ⟨user, cwd, delivery, marker⟩
  refine ⟨word, checked >>= fun _ => resolve box ⟨user, cwd, delivery, marker⟩ none,
    dies_bind hchecked fun _ => dies_resolve _ _, fun resolved h => ?_,
    fun word' args launch h => ?_, fun args => ?_, ?_⟩
  · obtain ⟨-, -, h⟩ := bind_eq_ok.mp h
    exact (resolve_ok.mp h).2.1.1
  · rw [hwake] at h
    obtain ⟨-, -, h⟩ := bind_eq_ok.mp h
    obtain ⟨resolved, h, -⟩ := bind_eq_ok.mp h
    exact honly word' resolved h
  · rw [hwake, hsame, bind_assoc]
    unfold launchWake
    rw [hcat]
    rfl
  · rw [hprobe, bind_assoc]

/-- Where the wake is refused. -/
theorem parity_refused {marker word : String} {refusal : Refusal}
    (honly : ∀ word' args launch, wakeOf box user cwd delivery word' args = .ok launch →
      word' = word)
    (hcode : refusal.code = 1)
    (hwake : ∀ args, wakeOf box user cwd delivery word args = .error refusal)
    (hprobe : probeOf box user cwd delivery marker = .error refusal) :
    Parity box user cwd delivery marker word := by
  refine ⟨honly, fun args python _ _ bin => ?_, fun args => ?_, fun args refusal' h => ?_⟩
  · rw [hwake, hprobe]
    simp
  · rw [hwake, hprobe]
    refine iff_of_false ?_ fun h => ?_
    · rintro ⟨line, h⟩
      cases h
      simp at hcode
    · obtain ⟨⟨launch, h⟩, -⟩ := h
      cases h
  · rw [hwake] at h
    cases h
    exact ⟨hcode, hprobe⟩

/-- Where it is launched. -/
theorem parity_launched {marker word bin : String} {journal : Option (String × String)}
    (honly : ∀ word' args launch, wakeOf box user cwd delivery word' args = .ok launch →
      word' = word)
    (hwake : ∀ args, wakeOf box user cwd delivery word args =
      .ok ⟨journal, user, entered cwd, delivery, bin, args⟩)
    (hprobe : probeOf box user cwd delivery marker =
      launchProbe box ⟨user, cwd, delivery, marker⟩ (entered cwd) bin) :
    Parity box user cwd delivery marker word := by
  refine ⟨honly, fun args python hverifier hpython bin' => ?_, fun args => ?_,
    fun args refusal h => ?_⟩
  · rw [hprobe, launchProbe_ok, hwake, hpython]
    simp [hverifier, eq_comm]
  · rw [hprobe, hwake]
    unfold launchProbe
    cases box.executable probeAck.toList with
    | false => simp [refuse, exitUnprovable]
    | true => cases box.trusted "python3" <;> simp [refuse, exitUnprovable]
  · rw [hwake] at h
    cases h

/-- **A probe says what a wake would do.** -/
theorem probe_parity (user cwd delivery : String) {marker : String}
    (hmarker : runnerMarker.fits marker.toList = true) {cat : String}
    (hcat : box.trusted "systemd-cat" = some cat) :
    ∃ word, Parity box user cwd delivery marker word := by
  obtain ⟨word, found, hdies, hclone, honly, hwake, hprobe⟩ :=
    @found_alike Id box user cwd delivery marker hmarker cat hcat
  refine ⟨word, ?_⟩
  cases hcase : found with
  | error refusal =>
    rw [hcase] at hprobe
    refine parity_refused honly (hdies refusal hcase) (fun args => ?_) hprobe
    rw [hwake, hcase]
    rfl
  | ok resolved =>
    obtain ⟨clone, bin⟩ := resolved
    obtain rfl : clone = entered cwd := hclone _ hcase
    rw [hcase] at hprobe
    have hlaunched : ∀ args, wakeOf box user cwd delivery word args =
        .ok ⟨some (cat, "basecradle-wake-" ++ user), user, entered cwd, delivery, bin, args⟩ := by
      intro args
      rw [hwake, hcase]
      rfl
    exact parity_launched honly hlaunched hprobe

/-- A probe of `nova`. -/
theorem probe_parity_nova : ∃ word, Parity novaBox "nova" "/home/nova/w" ""
    "BCNOC1 n 0000000000000000000000000000000000000000000000000000000000000000" word :=
  probe_parity "nova" "/home/nova/w" "" (by decide)
    (show novaBox.trusted "systemd-cat" = some "/usr/bin/systemd-cat" from rfl)

end BasecradleRouter.WakeRunner
