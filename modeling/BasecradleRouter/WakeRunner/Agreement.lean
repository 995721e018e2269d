/-
# One registry, two readers

The daemon and the wrapper read the same file.  The daemon builds an agent from each entry and asks
for a wake of one by its OS user and its clone; the wrapper takes the first entry that has both, and
knows of it what `jq` and `read` leave.

`wake_agrees` is what comes of it, for every registry the daemon loads: the wrapper launches
exactly what the daemon meant where the box is ready for the agent, and an agent that shares its
user and clone with an earlier one only what that one is woken with.  A probe is not asked for a
word, and proves the earlier one's.
-/
import BasecradleRouter.Config.Resolving
import BasecradleRouter.WakeRunner.Boundary

namespace BasecradleRouter.WakeRunner

open BasecradleRouter.Lib BasecradleRouter.Models BasecradleRouter.Wake BasecradleRouter.Config

/-! ## 1. The entries of a loaded registry -/

/-- The value of an agent's `kind`. -/
def kindName : WakeKind → String
  | .claude => "github"
  | .harness => "harness"

/-- An entry as the daemon has read it. -/
structure Spells (entry : String × Json) (agent : Agent) (fields : Fields) : Prop where
  object : entry.2 = .obj fields
  key : agent.key = entry.1
  user : fields.lookup "os_user" = some (.str agent.osUser)
  clone : fields.lookup "clone_path" = some (.str agent.clonePath)
  kind : (fields.lookup "kind").getD (.str "github") = .str (kindName agent.wakeKind)
  bin : agent.wakeKind = .harness → fields.lookup "wake_bin" = some (.str (wakeBin agent))

variable {py : Runtime} {agent : Agent}

theorem entryField_ok {key name : String} {fields : Fields} {v : Json}
    (h : entryField py key fields name = .ok v) : fields.lookup name = some v := by
  unfold entryField at h
  cases hlookup : fields.lookup name with
  | none =>
    rw [hlookup] at h
    cases h
  | some v' =>
    rw [hlookup] at h
    cases h
    rfl

theorem requireField_ok {key name : String} {v : Json} {field : { s : String // Required s }}
    (h : requireField py key v name = .ok field) : v = .str field.val := by
  cases v with
  | str s => rw [requireField_val h]
  | _ => cases h

theorem asStr_eq_some {v : Json} {text : String} (h : v.asStr = some text) : v = .str text := by
  cases v with
  | str s =>
    cases h
    rfl
  | _ => cases h

/-- The fields of a builder's entry. -/
theorem buildGithubAgent_spells {key : String} {fields : Fields}
    (hkind : (fields.lookup "kind").getD (.str "github") = .str "github")
    (h : buildGithubAgent py key fields = .ok agent) : Spells (key, .obj fields) agent fields := by
  have hkey := (buildGithubAgent_made h).1
  unfold buildGithubAgent at h
  split at h
  · cases h
  split at h
  · cases h
  obtain ⟨osUser, huser, h⟩ := bind_eq_ok.mp h
  obtain ⟨clonePath, hclone, h⟩ := bind_eq_ok.mp h
  obtain ⟨_, -, h⟩ := bind_eq_ok.mp h
  obtain ⟨_, -, h⟩ := bind_eq_ok.mp h
  obtain ⟨osUser', huser', h⟩ := bind_eq_ok.mp h
  obtain ⟨clonePath', hclone', h⟩ := bind_eq_ok.mp h
  obtain ⟨_, -, h⟩ := bind_eq_ok.mp h
  cases h
  refine ⟨rfl, hkey, ?_, ?_, hkind, fun hharness => by cases hharness⟩
  · rw [entryField_ok huser, requireField_ok huser']
  · rw [entryField_ok hclone, requireField_ok hclone']

/-- Those of a harness agent's. -/
theorem buildHarnessAgent_spells {key uuid : String} {fields : Fields}
    (hkind : (fields.lookup "kind").getD (.str "github") = .str "harness")
    (h : buildHarnessAgent py key fields = .ok (uuid, agent)) :
    Spells (key, .obj fields) agent fields := by
  have hkey := (buildHarnessAgent_made h).1
  unfold buildHarnessAgent at h
  split at h
  · cases h
  obtain ⟨osUser, huser, h⟩ := bind_eq_ok.mp h
  obtain ⟨clonePath, hclone, h⟩ := bind_eq_ok.mp h
  obtain ⟨_, -, h⟩ := bind_eq_ok.mp h
  obtain ⟨bin, hbin, h⟩ := bind_eq_ok.mp h
  obtain ⟨_, -, h⟩ := bind_eq_ok.mp h
  obtain ⟨osUser', huser', h⟩ := bind_eq_ok.mp h
  obtain ⟨clonePath', hclone', h⟩ := bind_eq_ok.mp h
  obtain ⟨bin', hbin', h⟩ := bind_eq_ok.mp h
  obtain ⟨_, -, h⟩ := bind_eq_ok.mp h
  cases h
  refine ⟨rfl, hkey, ?_, ?_, hkind, fun _ => ?_⟩
  · rw [entryField_ok huser, requireField_ok huser']
  · rw [entryField_ok hclone, requireField_ok hclone']
  · rw [entryField_ok hbin, requireField_ok hbin']
    rfl

/-- What an entry that is accepted adds. -/
theorem loadEntry_spells {reprValue : Json → String} {r r' : Registry} {entry : String × Json}
    (h : loadEntry py reprValue r entry = .ok r') : ∃ agent fields,
      Spells entry agent fields ∧ r'.agents = r.agents.set entry.1 agent := by
  obtain ⟨key, v⟩ := entry
  unfold loadEntry at h
  dsimp only at h
  cases v with
  | obj fields =>
    dsimp only [Json.asObj] at h
    split at h
    · next hkind =>
      obtain ⟨agent, hbuilt, rfl⟩ := map_eq_ok.mp h
      exact ⟨agent, fields,
        buildGithubAgent_spells (asStr_eq_some (Json.isText_iff.mp hkind)) hbuilt, rfl⟩
    · split at h
      · next hkind =>
        cases hbuilt : buildHarnessAgent py key fields with
        | error text =>
          rw [hbuilt] at h
          cases h
        | ok built =>
          obtain ⟨uuid, agent⟩ := built
          rw [hbuilt] at h
          dsimp only at h
          cases hfree : r.recipientIndex.get uuid with
          | some other =>
            rw [hfree] at h
            cases h
          | none =>
            rw [hfree] at h
            cases h
            exact ⟨agent, fields,
              buildHarnessAgent_spells (asStr_eq_some (Json.isText_iff.mp hkind)) hbuilt, rfl⟩
      · cases h
  | _ => cases h

/-- **The agents of a registry are its entries**, in their order. -/
theorem loadAgents_spells {reprValue : Json → String} {path : String} {entries : Fields}
    {r : Registry} (hobject : (entries.map Prod.fst).Nodup)
    (h : loadAgents py reprValue path (some (.ok (.obj entries))) = .ok r) :
    List.Forall₂ (fun entry agent => ∃ fields, Spells entry agent fields) entries
      r.agents.values := by
  have hload : entries.foldlM (loadEntry py reprValue) .empty = .ok r := h
  refine (foldlM_ok (P := fun done r =>
    List.Forall₂ (fun entry agent => ∃ fields, Spells entry agent fields) done r.agents.values ∧
      ∀ key agent, r.agents.get key = some agent → key ∈ done.map Prod.fst)
    ⟨.nil, fun key agent hget => ?_⟩ ?_ hload).1
  · cases hget
  · rintro done entry rest r r' hentries ⟨hspelled, hkeys⟩ hstep
    obtain ⟨agent, fields, hspells, hagents⟩ := loadEntry_spells hstep
    have hfresh : entry.1 ∉ done.map Prod.fst := by
      intro hmem
      rw [hentries, List.map_append, List.map_cons] at hobject
      exact (List.nodup_append.mp hobject).2.2 _ hmem _ List.mem_cons_self rfl
    have hnone : r.agents.get entry.1 = none := by
      cases hget : r.agents.get entry.1 with
      | none => rfl
      | some other => exact absurd (hkeys entry.1 other hget) hfresh
    rw [hagents, OrderedDict.values_set_of_none hnone]
    refine ⟨List.rel_append hspelled (.cons ⟨fields, hspells⟩ .nil), fun key agent' hget => ?_⟩
    rw [List.map_append, List.mem_append]
    rcases OrderedDict.get_set_some hget with ⟨rfl, -⟩ | hget
    · exact Or.inr List.mem_cons_self
    · exact Or.inl (hkeys key agent' hget)

/-! ## 2. What the wrapper knows of them -/

/-- What `jq` and `read` leave as it is: keys that are not blank to the shell, binaries that are
texts without an escape. -/
structure Legible (entries : Fields) : Prop where
  key : ∀ entry ∈ entries, asRead entry.1 ≠ []
  bin : ∀ entry ∈ entries, ∀ fields, entry.2 = .obj fields → ∃ text,
    tsvText (alternative "" (Fields.get fields "wake_bin")) = some text ∧ asRead text = text.toList

/-- The agent that a registry has first for a user and a clone. -/
def firstFor (r : Registry) (user cwd : String) : Option Agent :=
  r.agents.values.find? fun a => a.osUser = user ∧ a.clonePath = cwd

/-- The word that a wake of an agent begins with. -/
def launchWord (agent : Agent) : String :=
  match agent.wakeKind with
  | .claude => "claude"
  | .harness => wakeBin agent

/-- What of an agent's entry reaches the wrapper. -/
def Reads (agent : Agent) (answer : List Char × List Char × List Char) : Prop :=
  answer.2.1 = (kindName agent.wakeKind).toList ∧
    (agent.wakeKind = .harness →
      answer.2.2 = (wakeBin agent).toList ∧ captured answer.2.2 = answer.2.2)

theorem get_of_lookup {fields : Fields} {name text : String}
    (h : fields.lookup name = some (.str text)) : Fields.get fields name = .str text := by
  unfold Fields.get
  rw [h]
  rfl

theorem isText_str {text other : String} : (Json.str text).isText other = true ↔ text = other := by
  rw [Json.isText_iff]
  exact Option.some.injEq text other ▸ Iff.rfl

/-- The kind, with the wrapper's default. -/
theorem Spells.alternative_kind {entry : String × Json} {fields : Fields}
    (h : Spells entry agent fields) :
    alternative "github" (Fields.get fields "kind") = .str (kindName agent.wakeKind) := by
  have hkind := h.kind
  unfold Fields.get
  cases hlookup : fields.lookup "kind" with
  | none =>
    rw [hlookup] at hkind
    exact hkind
  | some v =>
    rw [hlookup] at hkind
    obtain rfl : v = .str (kindName agent.wakeKind) := hkind
    rfl

/-- An entry of somebody else has no line. -/
theorem Spells.not_selected {user cwd : String} {entry : String × Json} {fields : Fields}
    (h : Spells entry agent fields) (hne : ¬ (agent.osUser = user ∧ agent.clonePath = cwd)) :
    registryLine user cwd entry = some none := by
  have hcond : ¬ ((Fields.get fields "os_user").isText user &&
      (Fields.get fields "clone_path").isText cwd) = true := by
    rw [get_of_lookup h.user, get_of_lookup h.clone, Bool.and_eq_true, isText_str, isText_str]
    exact hne
  unfold registryLine
  rw [h.object]
  simp only [field, Option.bind_eq_bind, Option.bind_some]
  rw [if_neg hcond]
  rfl

/-- The line for an entry of who is asked for. -/
theorem Spells.selected {entry : String × Json} {fields : Fields} (h : Spells entry agent fields)
    (hkey : asRead entry.1 ≠ []) (hbin : ∃ text,
      tsvText (alternative "" (Fields.get fields "wake_bin")) = some text ∧
        asRead text = text.toList) :
    ∃ line, registryLine agent.osUser agent.clonePath entry = some (some line) ∧
      Reads agent (readFields (line.filter (· != '\x00'))) := by
  obtain ⟨text, htext, hplain⟩ := hbin
  have hname : asRead (kindName agent.wakeKind) = (kindName agent.wakeKind).toList ∧
      (kindName agent.wakeKind).toList ≠ [] := by
    cases agent.wakeKind with
    | claude => exact ⟨by decide, by decide⟩
    | harness => exact ⟨by decide, by decide⟩
  have huser : (Fields.get fields "os_user").isText agent.osUser = true :=
    (get_of_lookup h.user).symm ▸ isText_str.mpr rfl
  have hclone : (Fields.get fields "clone_path").isText agent.clonePath = true :=
    (get_of_lookup h.clone).symm ▸ isText_str.mpr rfl
  have hkind : tsvText (alternative "github" (Fields.get fields "kind")) =
      some (kindName agent.wakeKind) := by
    rw [h.alternative_kind]
    rfl
  refine ⟨_, registryLine_iff.mpr ⟨fields, _, text, h.object, huser, hclone, hkind, htext, rfl⟩, ?_⟩
  rw [List.filter_append, List.filter_cons_of_pos (by decide), List.filter_append,
    List.filter_cons_of_pos (by decide)]
  change Reads agent (readFields (asRead entry.1 ++
    '\t' :: (asRead (kindName agent.wakeKind) ++ '\t' :: asRead text)))
  rw [readFields_full (untabbed_asRead _) (untabbed_asRead _) (untabbed_asRead _) hkey
    (hname.1 ▸ hname.2), hname.1, hplain]
  refine ⟨rfl, fun hharness => ?_⟩
  rw [get_of_lookup (h.bin hharness)] at htext
  cases htext
  refine ⟨rfl, ?_⟩
  rw [← hplain]
  exact captured_asRead (wakeBin agent)

/-- **The answer has the lines of the agents that are asked for**, in their order. -/
theorem registryLines_spells (user cwd : String) {entries : Fields} {agents : List Agent}
    (h : List.Forall₂ (fun entry agent => ∃ fields, Spells entry agent fields) entries agents)
    (hlegible : Legible entries) : ∃ lines,
      registryLines user cwd (.obj entries) = some lines ∧
      List.Forall₂ (fun line agent => Reads agent (readFields (line.filter (· != '\x00')))) lines
        (agents.filter fun a => a.osUser = user ∧ a.clonePath = cwd) := by
  have hanswers : ∃ answers : List (Option (List Char)),
      entries.map (registryLine user cwd) = answers.map some ∧
      List.Forall₂ (fun line agent => Reads agent (readFields (line.filter (· != '\x00'))))
        (answers.filterMap id) (agents.filter fun a => a.osUser = user ∧ a.clonePath = cwd) := by
    induction h with
    | nil => exact ⟨[], rfl, .nil⟩
    | @cons entry agent entries agents hspells _ ih =>
      obtain ⟨fields, hspells⟩ := hspells
      obtain ⟨answers, hanswers, hlines⟩ := ih
        ⟨fun e he => hlegible.key e (List.mem_cons_of_mem _ he),
          fun e he => hlegible.bin e (List.mem_cons_of_mem _ he)⟩
      by_cases hasked : agent.osUser = user ∧ agent.clonePath = cwd
      · obtain ⟨line, hline, hreads⟩ := hspells.selected (hlegible.key _ List.mem_cons_self)
          (hlegible.bin _ List.mem_cons_self fields hspells.object)
        rw [hasked.1, hasked.2] at hline
        refine ⟨some line :: answers, ?_, ?_⟩
        · rw [List.map_cons, List.map_cons, hline, hanswers]
        · rw [List.filter_cons_of_pos (by simpa using hasked)]
          exact .cons hreads hlines
      · refine ⟨none :: answers, ?_, ?_⟩
        · rw [List.map_cons, List.map_cons, hspells.not_selected hasked, hanswers]
        · rw [List.filter_cons_of_neg (by simpa using hasked)]
          exact hlines
  obtain ⟨answers, hanswers, hlines⟩ := hanswers
  exact ⟨_, registryLines_iff.mpr ⟨entries, answers, rfl, mapM_eq_some.mpr hanswers, rfl⟩, hlines⟩

/-! ## 3. The daemon's argument lists -/

/-- What the wrapper reads of a wake. -/
theorem read_wake (repr : String → String) (agent : Agent) {event : Event}
    (hreal : event.synthetic = false) : ∃ invocation args,
      homeServerInvocation repr wakeRunner agent event = .ok invocation ∧
      wakeCommand agent event = .ok (launchWord agent :: args) ∧
      readArguments (invocation.argv.drop 2) = .ok (⟨agent.osUser, agent.clonePath,
        (correlationId event).getD "", ""⟩, launchWord agent :: args) := by
  obtain ⟨args, hcommand⟩ : ∃ args, wakeCommand agent event = .ok (launchWord agent :: args) := by
    unfold wakeCommand launchWord
    rw [hreal]
    cases agent.wakeKind with
    | claude => exact ⟨_, rfl⟩
    | harness => exact ⟨_, rfl⟩
  have hmode : modeArgs repr agent event = .ok ("--" :: launchWord agent :: args) := by
    unfold modeArgs
    rw [hreal, hcommand]
    rfl
  obtain ⟨invocation, hinvocation, hargv⟩ := homeServerInvocation_ok wakeRunner hmode
  refine ⟨invocation, args, hinvocation, hcommand, ?_⟩
  rw [hargv, List.drop_succ_cons, List.drop_succ_cons, List.drop_zero, readArguments_read
    ((optionLoop_wakeOptions agent event _).trans rfl),
    modeChecks_ok agent event (Or.inl ⟨rfl, List.cons_ne_nil _ _⟩)]
  rfl

/-- What it reads of a probe. -/
theorem read_probe {repr : String → String} {event : Event} {invocation : WakeInvocation}
    (hsynthetic : event.synthetic = true)
    (h : homeServerInvocation repr wakeRunner agent event = .ok invocation) :
    readArguments (invocation.argv.drop 2) = .ok (⟨agent.osUser, agent.clonePath,
      (correlationId event).getD "", event.wakeArg⟩, []) := by
  obtain ⟨hmarker, hargv⟩ := homeServerInvocation_probe hsynthetic h
  have hloop : optionLoop .unset (spelled (wakeOptions agent event) ++
      [probeFlag, event.wakeArg]) = .ok (⟨agent.osUser, agent.clonePath,
        (correlationId event).getD "", event.wakeArg⟩, []) :=
    (optionLoop_wakeOptions agent event _).trans rfl
  rw [hargv, List.drop_succ_cons, List.drop_succ_cons, List.drop_zero, readArguments_read hloop,
    modeChecks_ok agent event (Or.inr ⟨ne_empty event.wakeArg_ok, rfl, hmarker⟩)]
  rfl

/-! ## 4. What the wrapper makes of them -/

variable {Id : Type} {box : Box Id}

/-- A box that can launch an agent: the wrapper is root's and can ask the registry, the agent's
account is a login, its clone is confined to its home, and its binary is there. -/
structure Ready (box : Box Id) (agent : Agent) (bin : String) : Prop where
  root : box.euid = 0
  jq : box.jq = true
  account : ∃ uid, box.uid agent.osUser = some uid ∧ minUid ≤ uid
  clone : Confined box.fs (home agent.osUser) agent.clonePath.toList
  claude : agent.wakeKind = .claude → box.trusted "claude" = some bin
  harness : agent.wakeKind = .harness → bin = wakeBin agent ∧
    Confined box.fs (home agent.osUser) bin.toList ∧ box.executable bin.toList = true

/-- The daemon has loaded the registry that the wrapper asks. -/
structure Shared (py : Runtime) (reprValue : Json → String) (path : String) (entries : Fields)
    (r : Registry) (box : Box Id) : Prop where
  object : (entries.map Prod.fst).Nodup
  loaded : loadAgents py reprValue path (some (.ok (.obj entries))) = .ok r
  legible : Legible entries
  registry : box.registry = some (some (.obj entries))

variable {reprValue : Json → String} {path : String} {entries : Fields} {r : Registry}

/-- What the wrapper has of a user and a clone is what it reads of their first agent. -/
theorem registered_first (h : Shared py reprValue path entries r box) {user cwd : String}
    {first : Agent} (hfirst : firstFor r user cwd = some first) : ∃ answer, Reads first answer ∧
      ∀ answer', registered box user cwd = .ok answer' ↔ box.jq = true ∧ answer' = answer := by
  obtain ⟨lines, hlines, hreads⟩ := registryLines_spells user cwd
    (loadAgents_spells h.object h.loaded) h.legible
  unfold firstFor at hfirst
  rw [← List.head?_filter] at hfirst
  obtain ⟨rest, hrest⟩ := List.head?_eq_some_iff.mp hfirst
  rw [hrest] at hreads
  cases hreads with
  | @cons line _ lines _ hreads _ =>
    refine ⟨_, hreads, fun answer' => ?_⟩
    rw [registered_ok, h.registry]
    constructor
    · rintro ⟨hjq, registry, lines', line', hregistry, hlines', hline', rfl⟩
      cases hregistry
      cases hlines.symm.trans hlines'
      cases hline'
      exact ⟨hjq, rfl⟩
    · rintro ⟨hjq, rfl⟩
      exact ⟨hjq, _, _, line, rfl, hlines, rfl, rfl⟩

/-- A harness agent has a binary. -/
theorem wakeBin_ne_nil (h : agent.wakeKind = .harness) : (wakeBin agent).toList ≠ [] := by
  obtain ⟨bin, hbin, hrequired⟩ := (agent.harness_ok h).1
  unfold wakeBin
  rw [Option.mem_def.mp hbin]
  exact fun hnil => ne_empty hrequired (String.ext hnil)

/-- The binary that an agent's entry sanctions, for the agent's word. -/
theorem sanctioned_reads {word : Option String} {answer : List Char × List Char × List Char}
    {bin : String} (h : Reads agent answer) :
    sanctioned box agent.osUser word answer.1 answer.2.1 answer.2.2 = .ok bin ↔
      (∀ w ∈ word, w = launchWord agent) ∧
      (agent.wakeKind = .claude → box.trusted "claude" = some bin) ∧
      (agent.wakeKind = .harness → bin = wakeBin agent ∧
        Confined box.fs (home agent.osUser) bin.toList ∧ box.executable bin.toList = true) := by
  have hne : "github".toList ≠ "harness".toList := by decide
  obtain ⟨hkind, hwake⟩ := h
  rw [sanctioned_ok, hkind]
  unfold launchWord
  cases hcase : agent.wakeKind with
  | claude =>
    constructor
    · rintro (⟨-, hword, hclaude⟩ | ⟨hharness, -⟩)
      · refine ⟨hword, fun _ => hclaude, fun h => ?_⟩
        cases h
      · exact absurd hharness hne
    · rintro ⟨hword, hclaude, -⟩
      exact Or.inl ⟨rfl, hword, hclaude rfl⟩
  | harness =>
    obtain ⟨hbin, hcaptured⟩ := hwake hcase
    rw [hcaptured, hbin]
    constructor
    · rintro (⟨hgithub, -⟩ | ⟨-, -, hword, hbin, hconfined, hexecutable⟩)
      · exact absurd hgithub.symm hne
      · obtain rfl := String.ext hbin
        refine ⟨fun w hw => String.ext (hword w hw), fun h => ?_,
          fun _ => ⟨rfl, hconfined, hexecutable⟩⟩
        cases h
    · rintro ⟨hword, -, hpinned⟩
      obtain ⟨rfl, hconfined, hexecutable⟩ := hpinned rfl
      exact Or.inr ⟨rfl, wakeBin_ne_nil hcase, fun w hw => congrArg String.toList (hword w hw), rfl,
        hconfined, hexecutable⟩

/-- What is resolved for a user and a clone: the binary of their first agent, for its word. -/
theorem resolve_first (h : Shared py reprValue path entries r box) {o : Options} {first : Agent}
    (hfirst : firstFor r o.user o.cwd = some first) {word : Option String} {clone bin : String} :
    (box.euid = 0 ∧ resolve box o word = .ok (clone, bin)) ↔
      Ready box first bin ∧ clone = entered o.cwd ∧ ∀ w ∈ word, w = launchWord first := by
  obtain ⟨huser, hclone⟩ : first.osUser = o.user ∧ first.clonePath = o.cwd := by
    unfold firstFor at hfirst
    simpa using List.find?_some hfirst
  obtain ⟨answer, hreads, hregistered⟩ := registered_first h hfirst
  rw [resolve_ok, ← huser, ← hclone]
  rw [← huser, ← hclone] at hregistered
  constructor
  · rintro ⟨hroot, haccount, ⟨hclone, hconfined⟩, key, kind, wakeText, hanswer, hbin⟩
    obtain ⟨hjq, rfl⟩ := (hregistered _).mp hanswer
    obtain ⟨hword, hclaude, hharness⟩ := (sanctioned_reads hreads).mp hbin
    exact ⟨⟨hroot, hjq, haccount, hconfined, hclaude, hharness⟩, hclone, hword⟩
  · rintro ⟨⟨hroot, hjq, haccount, hconfined, hclaude, hharness⟩, hclone, hword⟩
    obtain ⟨key, kind, wakeText⟩ := answer
    exact ⟨hroot, haccount, ⟨hclone, hconfined⟩, key, kind, wakeText,
      (hregistered _).mpr ⟨hjq, rfl⟩, (sanctioned_reads hreads).mpr ⟨hword, hclaude, hharness⟩⟩

/-- What is launched for a user and a clone, once the arguments are read. -/
theorem run_first (h : Shared py reprValue path entries r box) {o : Options} {first : Agent}
    (hfirst : firstFor r o.user o.cwd = some first) {arguments command : List String}
    (hread : readArguments arguments = .ok (o, command)) {launch : Launch} :
    run box arguments = .ok launch ↔
      (∀ w ∈ command.head?, w = launchWord first) ∧ ∃ bin, Ready box first bin ∧
        (if o.probe ≠ "" then launchProbe box o (entered o.cwd) bin
          else launchWake box o (entered o.cwd) bin command.tail) = .ok launch := by
  rw [run_ok]
  constructor
  · rintro ⟨hroot, o', command', clone, bin, hread', hresolve, hlaunch⟩
    cases hread.symm.trans hread'
    obtain ⟨hready, rfl, hword⟩ := (resolve_first h hfirst).mp ⟨hroot, hresolve⟩
    exact ⟨hword, bin, hready, hlaunch⟩
  · rintro ⟨hword, bin, hready, hlaunch⟩
    obtain ⟨hroot, hresolve⟩ := (resolve_first h hfirst).mpr ⟨hready, rfl, hword⟩
    exact ⟨hroot, o, command, entered o.cwd, bin, hread, hresolve, hlaunch⟩

/-- What the daemon asks for, and what the wrapper launches. -/
structure Agrees (r : Registry) (box : Box Id) (repr : String → String) (agent first : Agent) :
    Prop where
  found : firstFor r agent.osUser agent.clonePath = some first
  /-- an agent that shares its user and clone with nobody is its own first -/
  own : (∀ other ∈ r.agents.values, other.osUser = agent.osUser →
    other.clonePath = agent.clonePath → other = agent) → first = agent
  /-- its clone is entered, unless the path ends in a newline -/
  clone : agent.clonePath.toList.getLast? ≠ some '\n' → entered agent.clonePath = agent.clonePath
  /-- a wake is launched exactly where the box is ready for the first, and the agents are woken with
  one word: as the agent's user in its clone, the binary, the arguments of the agent's command -/
  wake : ∀ event, event.synthetic = false → ∃ invocation args,
    homeServerInvocation repr wakeRunner agent event = .ok invocation ∧
    wakeCommand agent event = .ok (launchWord agent :: args) ∧
    ∀ launch, run box (invocation.argv.drop 2) = .ok launch ↔
      launchWord agent = launchWord first ∧ ∃ bin cat, Ready box first bin ∧
        box.trusted "systemd-cat" = some cat ∧
        launch = ⟨some (cat, "basecradle-wake-" ++ agent.osUser), agent.osUser,
          entered agent.clonePath, (correlationId event).getD "", bin, args⟩
  /-- a probe is not asked for the word -/
  probe : ∀ event invocation, event.synthetic = true →
    homeServerInvocation repr wakeRunner agent event = .ok invocation →
    ∀ launch, run box (invocation.argv.drop 2) = .ok launch ↔
      box.executable probeAck.toList = true ∧ ∃ bin python, Ready box first bin ∧
        box.trusted "python3" = some python ∧
        launch = ⟨none, agent.osUser, entered agent.clonePath, (correlationId event).getD "",
          python, [probeAck, event.wakeArg, bin]⟩

/-- **The wrapper launches what the daemon meant**, of every registry that the daemon loads. -/
theorem wake_agrees (h : Shared py reprValue path entries r box) (repr : String → String)
    (hagent : agent ∈ r.agents.values) : ∃ first, Agrees r box repr agent first := by
  obtain ⟨first, hfirst⟩ : ∃ first, firstFor r agent.osUser agent.clonePath = some first :=
    Option.isSome_iff_exists.mp (List.find?_isSome.mpr ⟨agent, hagent, by simp⟩)
  refine ⟨first, hfirst, fun hunique => ?_, entered_eq, fun event hreal => ?_, ?_⟩
  · have hsame := List.find?_some hfirst
    simp only [decide_eq_true_eq] at hsame
    exact hunique first (List.mem_of_find?_eq_some hfirst) hsame.1 hsame.2
  · obtain ⟨invocation, args, hinvocation, hcommand, hread⟩ := read_wake repr agent hreal
    refine ⟨invocation, args, hinvocation, hcommand, fun launch => ?_⟩
    rw [run_first h hfirst hread]
    constructor
    · rintro ⟨hword, bin, hready, hlaunch⟩
      obtain ⟨cat, hcat, rfl⟩ := launchWake_ok.mp hlaunch
      exact ⟨hword _ rfl, bin, cat, hready, hcat, rfl⟩
    · rintro ⟨hword, bin, cat, hready, hcat, rfl⟩
      exact ⟨fun w hw => (Option.mem_some.mp hw).symm.trans hword, bin, hready,
        launchWake_ok.mpr ⟨cat, hcat, rfl⟩⟩
  · intro event invocation hsynthetic hinvocation launch
    have hmarker : event.wakeArg ≠ "" := ne_empty event.wakeArg_ok
    rw [run_first h hfirst (read_probe hsynthetic hinvocation)]
    constructor
    · rintro ⟨-, bin, hready, hlaunch⟩
      rw [if_pos hmarker] at hlaunch
      obtain ⟨hverifier, python, hpython, rfl⟩ := launchProbe_ok.mp hlaunch
      exact ⟨hverifier, bin, python, hready, hpython, rfl⟩
    · rintro ⟨hverifier, bin, python, hready, hpython, rfl⟩
      refine ⟨fun w hw => (by cases hw), bin, hready, ?_⟩
      rw [if_pos hmarker]
      exact launchProbe_ok.mpr ⟨hverifier, python, hpython, rfl⟩

/-- The registry of `nova`'s box, as the daemon loads it. -/
theorem wake_agrees_nova : ∃ r, (∃ agent ∈ r.agents.values, agent.osUser = "nova") ∧
    ∀ agent ∈ r.agents.values, ∃ first, Agrees r novaBox id agent first := by
  have hloaded : ∃ r, loadAgents plainRuntime (fun _ => "") "agents.json"
      (some (.ok (.obj novaEntries))) = .ok r ∧ ∃ agent ∈ r.agents.values, agent.osUser = "nova" :=
    ⟨_, rfl, _, List.mem_cons_self, rfl⟩
  obtain ⟨r, hload, hnova⟩ := hloaded
  have hlegible : Legible novaEntries := by
    refine ⟨by decide, fun entry hentry fields hfields => ?_⟩
    rw [novaEntries, List.mem_singleton] at hentry
    subst hentry
    cases hfields
    exact ⟨"", rfl, rfl⟩
  have hshared : Shared plainRuntime (fun _ => "") "agents.json" novaEntries r novaBox :=
    ⟨by decide, hload, hlegible, rfl⟩
  exact ⟨r, hnova, fun agent hagent => wake_agrees hshared id hagent⟩

end BasecradleRouter.WakeRunner
