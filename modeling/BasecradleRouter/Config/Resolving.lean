/-
# By what an agent can be addressed

`Registry.resolvableBy` lists the kinds of recipient that resolve to an agent, read off the same
indexes that `agentForRecipient` looks in.  `Loaded` is what the loader leaves there: every agent
under its own key, a builder's key `owner/name` and a harness agent's not, the harness agents under
their uuids, and under an OS user the first agent that runs as it.

On a loaded registry the list is the inverse of resolving (`mem_resolvableBy`), and it is decided by
the agent's own kind, the OS user apart (`resolvableBy_iff`).  `resolvableBy_inverse` says so of
every registry file that is accepted: an object that was read has each of its keys once.
-/
import BasecradleRouter.Config.Registry
import BasecradleRouter.Lib.JsonKept
import BasecradleRouter.Lib.JsonRoundTrip
import Mathlib.Data.List.TakeWhile

namespace BasecradleRouter.Config

open BasecradleRouter.Lib BasecradleRouter.Models

/-- `resolvable_by`.  The agents of a registry differ by their keys, so that the same agent
(`is`) is an equal one. -/
def Registry.resolvableBy (r : Registry) (agent : Agent) : Finset String :=
  (if r.agents.get agent.key = some agent ∧ requireRepo agent.key = true then {"repo"} else ∅) ∪
  ((match agent.recipientUuid.filter (· ≠ "") with
    | some uuid => if r.recipientIndex.get uuid = some agent then {"recipient_uuid"} else ∅
    | none => ∅) ∪
  if r.harnessIndex.get agent.harnessKey = some agent then {"harness_key"} else ∅)

/-- A recipient of a kind, as a source can name one: a repository is `owner/name`. -/
def Addresses (kind : String) (recipient : Recipient) : Prop :=
  recipient.tag = kind ∧ (kind = "repo" → requireRepo recipient.value = true)

/-- The kind of recipient an agent's entry is addressed by. -/
def addressKind : WakeKind → String
  | .claude => "repo"
  | .harness => "recipient_uuid"

/-! ## 1. What the loader leaves -/

/-- A registry as it is loaded. -/
structure Loaded (r : Registry) : Prop where
  keyed : ∀ key agent, r.agents.get key = some agent → agent.key = key
  builder : ∀ key agent, r.agents.get key = some agent → agent.wakeKind = .claude →
    requireRepo key = true ∧ agent.recipientUuid = none
  harness : ∀ key agent, r.agents.get key = some agent → agent.wakeKind = .harness →
    requireRepo key = false
  indexed : ∀ uuid agent, r.recipientIndex.get uuid = some agent ↔
    r.agents.get agent.key = some agent ∧ agent.recipientUuid = some uuid
  first : r.harnessIndex = OrderedDict.firstBy Agent.harnessKey r.agents.values

variable {py : Runtime}

theorem requireField_val {key s name : String} {field : { s : String // Required s }}
    (h : requireField py key (.str s) name = .ok field) : field.val = s := by
  unfold requireField at h
  dsimp only [Json.asStr] at h
  split at h
  · cases h
    rfl
  · cases h

/-- A builder that was built. -/
theorem buildGithubAgent_made {key : String} {fields : Fields} {agent : Agent}
    (h : buildGithubAgent py key fields = .ok agent) :
    agent.key = key ∧ agent.wakeKind = .claude ∧ agent.recipientUuid = none ∧
      requireRepo key = true := by
  unfold buildGithubAgent at h
  split at h
  · cases h
  split at h
  · cases h
  · next hrepo =>
    obtain ⟨_, -, h⟩ := bind_eq_ok.mp h
    obtain ⟨_, -, h⟩ := bind_eq_ok.mp h
    obtain ⟨_, -, h⟩ := bind_eq_ok.mp h
    obtain ⟨agentKey, hkey, h⟩ := bind_eq_ok.mp h
    obtain ⟨_, -, h⟩ := bind_eq_ok.mp h
    obtain ⟨_, -, h⟩ := bind_eq_ok.mp h
    obtain ⟨_, -, h⟩ := bind_eq_ok.mp h
    cases h
    exact ⟨requireField_val hkey, rfl, rfl, by simpa using hrepo⟩

/-- A key without a slash is no repository. -/
theorem requireRepo_of_no_slash {key : String} (h : key.toList.contains '/' = false) :
    requireRepo key = false := by
  have hdrop : (partition '/' key.toList).2 = [] := by
    unfold partition
    have hnone : key.toList.dropWhile (· ≠ '/') = [] := by
      rw [List.dropWhile_eq_nil_iff]
      intro c hc
      have hne : c ≠ '/' := by
        rintro rfl
        rw [List.contains_iff_mem.mpr hc] at h
        cases h
      simpa using hne
    rw [hnone, List.drop_nil]
  unfold requireRepo
  dsimp only
  rw [hdrop]
  simp

/-- A harness agent that was built. -/
theorem buildHarnessAgent_made {key : String} {fields : Fields} {uuid : String} {agent : Agent}
    (h : buildHarnessAgent py key fields = .ok (uuid, agent)) :
    agent.key = key ∧ agent.wakeKind = .harness ∧ requireRepo key = false := by
  unfold buildHarnessAgent at h
  split at h
  · cases h
  · next hslash =>
    obtain ⟨_, -, h⟩ := bind_eq_ok.mp h
    obtain ⟨_, -, h⟩ := bind_eq_ok.mp h
    obtain ⟨_, -, h⟩ := bind_eq_ok.mp h
    obtain ⟨_, -, h⟩ := bind_eq_ok.mp h
    obtain ⟨agentKey, hkey, h⟩ := bind_eq_ok.mp h
    obtain ⟨_, -, h⟩ := bind_eq_ok.mp h
    obtain ⟨_, -, h⟩ := bind_eq_ok.mp h
    obtain ⟨_, -, h⟩ := bind_eq_ok.mp h
    obtain ⟨_, -, h⟩ := bind_eq_ok.mp h
    cases h
    exact ⟨requireField_val hkey, rfl, requireRepo_of_no_slash (by simpa using hslash)⟩

/-- What has been loaded, while the entries are gone through. -/
structure Loading (done : List (String × Json)) (r : Registry) : Prop extends Loaded r where
  keys : ∀ key agent, r.agents.get key = some agent → key ∈ done.map Prod.fst

theorem loading_empty : Loading [] .empty where
  keyed _ _ h := by cases h
  builder _ _ h := by cases h
  harness _ _ h := by cases h
  indexed uuid agent := by
    refine ⟨fun h => ?_, fun h => ?_⟩
    · cases h
    · cases h.1
  first := rfl
  keys _ _ h := by cases h

/-- What an agent put under a new key leaves. -/
theorem Loading.add {done : List (String × Json)} {r : Registry} {key : String} {v : Json}
    {agent : Agent} (hr : Loading done r) (hkey : key ∉ done.map Prod.fst)
    (hagent : agent.key = key)
    (hbuilder : agent.wakeKind = .claude → requireRepo key = true ∧ agent.recipientUuid = none)
    (hharness : agent.wakeKind = .harness → requireRepo key = false)
    {index : OrderedDict String Agent}
    (hindex : ∀ uuid other, index.get uuid = some other ↔
      r.recipientIndex.get uuid = some other ∨ (other = agent ∧ agent.recipientUuid = some uuid)) :
    Loading (done ++ [(key, v)]) ({ r with recipientIndex := index }.add key agent) := by
  have hnone : r.agents.get key = none := by
    cases hget : r.agents.get key with
    | none => rfl
    | some other => exact absurd (hr.keys key other hget) hkey
  refine { keyed := ?_, builder := ?_, harness := ?_, indexed := ?_, first := ?_, keys := ?_ }
  · rintro key' agent' hget
    rcases OrderedDict.get_set_some hget with ⟨rfl, rfl⟩ | hget
    · exact hagent
    · exact hr.keyed key' agent' hget
  · rintro key' agent' hget
    rcases OrderedDict.get_set_some hget with ⟨rfl, rfl⟩ | hget
    · exact hbuilder
    · exact hr.builder key' agent' hget
  · rintro key' agent' hget
    rcases OrderedDict.get_set_some hget with ⟨rfl, rfl⟩ | hget
    · exact hharness
    · exact hr.harness key' agent' hget
  · intro uuid other
    change index.get uuid = some other ↔
      (r.agents.set key agent).get other.key = some other ∧ other.recipientUuid = some uuid
    rw [hindex, hr.indexed, OrderedDict.get_set]
    constructor
    · rintro (⟨hget, huuid⟩ | ⟨rfl, huuid⟩)
      · have hne : other.key ≠ key := by
          intro heq
          rw [heq, hnone] at hget
          cases hget
        exact ⟨by rw [if_neg hne, hget], huuid⟩
      · exact ⟨by rw [if_pos hagent], huuid⟩
    · rintro ⟨hget, huuid⟩
      split at hget
      · cases hget
        exact Or.inr ⟨rfl, huuid⟩
      · exact Or.inl ⟨hget, huuid⟩
  · unfold Registry.add
    dsimp only
    rw [OrderedDict.values_set_of_none hnone, OrderedDict.firstBy_append, ← hr.first]
    unfold OrderedDict.setDefault
    cases r.harnessIndex.get agent.harnessKey with
    | none => rfl
    | some other => rfl
  · rintro key' agent' hget
    rw [List.map_append, List.mem_append]
    rcases OrderedDict.get_set_some hget with ⟨rfl, -⟩ | hget
    · exact Or.inr List.mem_cons_self
    · exact Or.inl (hr.keys key' agent' hget)

theorem loadEntry_loading {reprValue : Json → String} {done : List (String × Json)}
    {r r' : Registry} {entry : String × Json} (hr : Loading done r)
    (hkey : entry.1 ∉ done.map Prod.fst) (h : loadEntry py reprValue r entry = .ok r') :
    Loading (done ++ [entry]) r' := by
  obtain ⟨key, v⟩ := entry
  rcases loadEntry_cases h with ⟨_, agent, hbuilt, rfl⟩ | ⟨_, uuid, agent, hbuilt, hfree, rfl⟩
  · obtain ⟨hagent, hkind, huuid, hrepo⟩ := buildGithubAgent_made hbuilt
    refine hr.add hkey hagent (fun _ => ⟨hrepo, huuid⟩) (fun hharness => ?_) fun uuid other => ?_
    · rw [hkind] at hharness
      cases hharness
    · rw [huuid]
      simp
  · obtain ⟨hagent, hkind, hrepo⟩ := buildHarnessAgent_made hbuilt
    have huuid := (buildHarnessAgent_ok hbuilt).1
    refine hr.add hkey hagent (fun hclaude => ?_) (fun _ => hrepo) fun uuid' other => ?_
    · rw [hkind] at hclaude
      cases hclaude
    · rw [OrderedDict.get_set, huuid, Option.some.injEq]
      by_cases heq : uuid' = uuid
      · rw [if_pos heq, heq, hfree, Option.some.injEq]
        simp [eq_comm]
      · have hne : ¬ uuid = uuid' := fun h => heq h.symm
        simp [heq, hne]

/-- **What the loader accepts is loaded**; an object has each of its keys once. -/
theorem loadAgents_loaded {reprValue : Json → String} {path : String} {entries : Fields}
    {r : Registry} (hobject : (entries.map Prod.fst).Nodup)
    (h : loadAgents py reprValue path (some (.ok (.obj entries))) = .ok r) : Loaded r := by
  have hload : entries.foldlM (loadEntry py reprValue) .empty = .ok r := h
  have hloading : Loading entries r := by
    refine foldlM_ok loading_empty (fun done entry rest r r' hentries hdone hstep => ?_) hload
    refine loadEntry_loading hdone (fun hmem => ?_) hstep
    rw [hentries, List.map_append, List.map_cons] at hobject
    exact (List.nodup_append.mp hobject).2.2 _ hmem _ List.mem_cons_self rfl
  exact hloading.toLoaded

/-! ## 2. Resolving, and its inverse -/

variable {r : Registry} {agent : Agent}

/-- The agent of an OS user in the index is the first that runs as it. -/
theorem Loaded.harnessIndex_get (hr : Loaded r) (osUser : String) :
    r.harnessIndex.get osUser = r.agents.values.find? fun a => a.harnessKey = osUser := by
  rw [hr.first, OrderedDict.get_firstBy]

/-- An agent indexed under an OS user runs as it, and is registered. -/
theorem Loaded.of_harnessIndex (hr : Loaded r) {osUser : String}
    (h : r.harnessIndex.get osUser = some agent) :
    agent.harnessKey = osUser ∧ r.agents.get agent.key = some agent := by
  rw [hr.harnessIndex_get] at h
  have huser : agent.harnessKey = osUser := by simpa using List.find?_some h
  obtain ⟨key, hitem⟩ := OrderedDict.mem_values.mp (List.mem_of_find?_eq_some h)
  have hget := OrderedDict.mem_items.mp hitem
  exact ⟨huser, by rw [hr.keyed key agent hget, hget]⟩

/-- **An agent is addressed by its own kind**, and by its OS user where it is the first that runs as
it. -/
theorem resolvableBy_iff (hr : Loaded r) (hagent : r.agents.get agent.key = some agent)
    {kind : String} : kind ∈ r.resolvableBy agent ↔
      kind = addressKind agent.wakeKind ∨
        (kind = "harness_key" ∧ r.harnessIndex.get agent.harnessKey = some agent) := by
  have huser : (kind ∈ if r.harnessIndex.get agent.harnessKey = some agent then
      ({"harness_key"} : Finset String) else ∅) ↔
        kind = "harness_key" ∧ r.harnessIndex.get agent.harnessKey = some agent := by
    split
    · next hfirst => simp [hfirst]
    · next hfirst => simp [hfirst]
  unfold Registry.resolvableBy
  rw [Finset.mem_union, Finset.mem_union, huser]
  cases hkind : agent.wakeKind with
  | claude =>
    obtain ⟨hrepo, huuid⟩ := hr.builder _ _ hagent hkind
    rw [if_pos ⟨hagent, hrepo⟩, huuid]
    simp [addressKind]
  | harness =>
    obtain ⟨uuid, huuid, hrequired⟩ := (agent.harness_ok hkind).2
    have hne : uuid ≠ "" := by
      rintro rfl
      cases hrequired
    have hindexed := (hr.indexed uuid agent).mpr ⟨hagent, huuid⟩
    rw [if_neg (by simp [hr.harness _ _ hagent hkind]), Option.mem_def.mp huuid,
      Option.filter_some_pos (by simpa using hne)]
    dsimp only
    rw [if_pos hindexed]
    simp [addressKind]

/-- **The kinds listed for an agent are those of the recipients that resolve to it.** -/
theorem mem_resolvableBy (hr : Loaded r) (hagent : r.agents.get agent.key = some agent)
    {kind : String} : kind ∈ r.resolvableBy agent ↔
      ∃ recipient, Addresses kind recipient ∧ r.agentForRecipient py recipient = .ok agent := by
  rw [resolvableBy_iff hr hagent]
  constructor
  · rintro (rfl | ⟨rfl, hfirst⟩)
    · cases hkind : agent.wakeKind with
      | claude =>
        refine ⟨⟨"repo", agent.key, rfl, agent.key_ok⟩, ⟨rfl, fun _ => ?_⟩, ?_⟩
        · exact (hr.builder _ _ hagent hkind).1
        · exact agentForRecipient_ok.mpr (Or.inl ⟨rfl, hagent⟩)
      | harness =>
        obtain ⟨uuid, huuid, hrequired⟩ := (agent.harness_ok hkind).2
        refine ⟨⟨"recipient_uuid", uuid, rfl, hrequired⟩, ⟨rfl, fun h => absurd h (by decide)⟩, ?_⟩
        exact agentForRecipient_ok.mpr
          (Or.inr (Or.inl ⟨rfl, (hr.indexed uuid agent).mpr ⟨hagent, huuid⟩⟩))
    · refine ⟨⟨"harness_key", agent.harnessKey, rfl, agent.osUser_ok⟩,
        ⟨rfl, fun h => absurd h (by decide)⟩, ?_⟩
      exact agentForRecipient_ok.mpr (Or.inr (Or.inr ⟨rfl, hfirst⟩))
  · rintro ⟨recipient, ⟨rfl, hrepo⟩, hresolves⟩
    rcases agentForRecipient_ok.mp hresolves with ⟨htag, hget⟩ | ⟨htag, hget⟩ | ⟨htag, hget⟩
    · refine Or.inl ?_
      cases hkind : agent.wakeKind with
      | claude => exact htag
      | harness =>
        have hslug := hr.harness _ _ hget hkind
        rw [hrepo htag] at hslug
        cases hslug
    · refine Or.inl ?_
      obtain ⟨-, huuid⟩ := (hr.indexed _ _).mp hget
      cases hkind : agent.wakeKind with
      | claude =>
        rw [(hr.builder _ _ hagent hkind).2] at huuid
        cases huuid
      | harness => exact htag
    · obtain ⟨huser, -⟩ := hr.of_harnessIndex hget
      rw [← huser] at hget
      exact Or.inr ⟨htag, hget⟩

/-! ## 3. Every registry file -/

/-- What is loaded from a file's text. -/
theorem loadAgents_of_text {reprValue : Json → String} {path text : String} {raw : Json}
    (hread : JsonCodec.loads text.toList = some raw)
    (h : loadAgents py reprValue path (some (.ok raw)) = .ok r) : Loaded r := by
  cases raw with
  | obj entries => exact loadAgents_loaded (JsonCodec.loads_distinct hread entries rfl) h
  | _ => cases h

/-- A platform uuid resolves one recipient only. -/
theorem Loaded.uuid_inj (hr : Loaded r) {one other : Recipient} (hone : one.tag = "recipient_uuid")
    (hother : other.tag = "recipient_uuid") (h : r.agentForRecipient py one = .ok agent)
    (h' : r.agentForRecipient py other = .ok agent) : one = other := by
  have hindexed : ∀ recipient : Recipient, recipient.tag = "recipient_uuid" →
      r.agentForRecipient py recipient = .ok agent →
        agent.recipientUuid = some recipient.value := by
    intro recipient htag hresolves
    rcases agentForRecipient_ok.mp hresolves with ⟨hrepo, -⟩ | ⟨-, hget⟩ | ⟨huser, -⟩
    · rw [htag] at hrepo
      exact absurd hrepo (by decide)
    · exact ((hr.indexed _ _).mp hget).2
    · rw [htag] at huser
      exact absurd huser (by decide)
  have hvalue : one.value = other.value := by
    have hsame := hindexed one hone h
    rw [hindexed other hother h'] at hsame
    exact (Option.some.inj hsame).symm
  obtain ⟨tag, value, _, _⟩ := one
  obtain ⟨tag', value', _, _⟩ := other
  obtain rfl : tag = tag' := hone.trans hother.symm
  obtain rfl : value = value' := hvalue
  rfl

/-- A repository resolves to no harness agent. -/
theorem Loaded.repo_builder (hr : Loaded r) {recipient : Recipient}
    (haddressed : Addresses "repo" recipient) (h : r.agentForRecipient py recipient = .ok agent) :
    agent.wakeKind ≠ .harness := by
  intro hkind
  rcases agentForRecipient_ok.mp h with ⟨-, hget⟩ | ⟨huuid, -⟩ | ⟨huser, -⟩
  · have hslug := hr.harness _ _ hget hkind
    rw [haddressed.2 rfl] at hslug
    cases hslug
  · rw [haddressed.1] at huuid
    exact absurd huuid (by decide)
  · rw [haddressed.1] at huser
    exact absurd huser (by decide)

/-- **`resolvable_by` inverts `agent_for_recipient`**, on every registry file that is accepted: a
kind is listed for an agent exactly if a recipient of it resolves to the agent.  No two platform
uuids resolve to one agent, and no repository to a harness agent. -/
theorem resolvableBy_inverse (py : Runtime) (reprValue : Json → String) (path text : String)
    (raw : Json) (r : Registry) (hread : JsonCodec.loads text.toList = some raw)
    (h : loadAgents py reprValue path (some (.ok raw)) = .ok r) :
    (∀ agent ∈ r.agents.values, ∀ kind, kind ∈ r.resolvableBy agent ↔
      ∃ recipient, Addresses kind recipient ∧ r.agentForRecipient py recipient = .ok agent) ∧
    (∀ one other agent, one.tag = "recipient_uuid" → other.tag = "recipient_uuid" →
      r.agentForRecipient py one = .ok agent → r.agentForRecipient py other = .ok agent →
        one = other) ∧
    ∀ recipient agent, Addresses "repo" recipient →
      r.agentForRecipient py recipient = .ok agent → agent.wakeKind ≠ .harness := by
  have hr := loadAgents_of_text hread h
  refine ⟨fun agent hagent kind => ?_, fun one other agent hone hother => ?_,
    fun recipient agent haddressed => ?_⟩
  · obtain ⟨key, hitem⟩ := OrderedDict.mem_values.mp hagent
    have hget := OrderedDict.mem_items.mp hitem
    refine mem_resolvableBy hr ?_
    rw [hr.keyed key agent hget, hget]
  · exact hr.uuid_inj hone hother
  · exact hr.repo_builder haddressed

/-- A builder and a harness agent that run as one OS user. -/
def sharedEntries : List (String × List (String × String)) :=
  [("basecradle/nova", [("os_user", "nova"), ("clone_path", "/srv/nova"), ("bot_slug", "nova")]),
    ("nova", [("kind", "harness"), ("os_user", "nova"), ("clone_path", "/srv/nova"),
      ("recipient_uuid", "u-1"), ("wake_bin", "/usr/bin/nova")])]

def sharedUser : Json := .obj (sharedEntries.map fun entry =>
  (entry.1, .obj (entry.2.map fun item => (item.1, .str item.2))))

def plainRuntime : Runtime := .ascii (fun _ => .error (.decode "Expecting value")) fun _ => none

theorem textual_sharedUser : JsonCodec.Textual sharedUser := by
  refine .obj (by decide) fun field hfield => ?_
  obtain ⟨entry, hentry, rfl⟩ := List.mem_map.mp hfield
  have hkeys : ∀ entry ∈ sharedEntries, (entry.2.map Prod.fst).Nodup := by decide
  exact .strings (hkeys entry hentry)

theorem resolvableBy_inverse_shared : ∃ r,
    loadAgents plainRuntime (fun _ => "") "agents.json" (some (.ok sharedUser)) = .ok r ∧
      r.agents.values.length = 2 ∧ ∀ agent ∈ r.agents.values, ∀ kind,
        kind ∈ r.resolvableBy agent ↔ ∃ recipient, Addresses kind recipient ∧
          r.agentForRecipient plainRuntime recipient = .ok agent := by
  have hread : JsonCodec.loads
      (String.ofList (JsonCodec.dumps JsonString.escape sharedUser)).toList = some sharedUser := by
    rw [String.toList_ofList]
    exact JsonCodec.loads_dumps JsonCodec.undone_escape textual_sharedUser
  refine ⟨_, rfl, rfl, ?_⟩
  exact (resolvableBy_inverse plainRuntime (fun _ => "") "agents.json" _ sharedUser _ hread rfl).1

end BasecradleRouter.Config
