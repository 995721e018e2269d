/-
# The agent registry

`loadAgents` reads the registry, a JSON object of key to fields, into three indexes: every agent by
its key, the harness agents by their platform uuid, every agent by its OS user.  An entry that does
not build an agent, or whose uuid is another's, is a `ConfigError`, here its text.

`agentForRecipient` resolves an event's recipient in the index its tag names.  What the loader
accepts indexes every harness agent under its own uuid (`loadAgents_indexed`); that the uuid has the
form of one it does not ask.
-/
import BasecradleRouter.Lib.Checked
import BasecradleRouter.Lib.OrderedDict
import BasecradleRouter.Lib.Runtime
import BasecradleRouter.Models

namespace BasecradleRouter.Config

open BasecradleRouter.Lib BasecradleRouter.Models

/-- `_AGENTS_VAR` -/
def agentsVar : String := "BASECRADLE_ROUTER_AGENTS"

/-- The three indexes of the registry. -/
structure Registry where
  agents : OrderedDict String Agent
  recipientIndex : OrderedDict String Agent
  harnessIndex : OrderedDict String Agent

def Registry.empty : Registry := ⟨.empty, .empty, .empty⟩

/-! ## 1. Building an agent -/

variable (py : Runtime)

/-- What is said of an entry, before why it was refused. -/
def entryText (key : String) : String := "agent entry for " ++ py.repr key

/-- `fields[name]` -/
def entryField (key : String) (fields : Fields) (name : String) : Except String Json :=
  match fields.lookup name with
  | some v => .ok v
  | none => .error (entryText py key ++ " is missing " ++ py.repr name)

/-- `_require`, of a field of an agent that is being built. -/
def requireField (key : String) (v : Json) (name : String) :
    Except String { s : String // Required s } :=
  match v.asStr with
  | none => .error (entryText py key ++ " is invalid: " ++ mustBeNonEmpty name)
  | some s =>
    if h : Required s then .ok ⟨s, h⟩
    else .error (entryText py key ++ " is invalid: " ++ mustBeNonEmpty name)

/-- A claude agent is no harness agent. -/
theorem no_harness : WakeKind.claude = .harness →
    (∃ bin ∈ (none : Option String), Required bin) ∧
      ∃ uuid ∈ (none : Option String), Required uuid := by
  intro h
  cases h

/-- `_build_github_agent` -/
def buildGithubAgent (key : String) (fields : Fields) : Except String Agent :=
  if PyStr.blank key then
    .error (entryText py key ++ " is invalid: " ++ mustBeNonEmpty "github agent key")
  else if !requireRepo key then
    .error (entryText py key ++ " is invalid: github agent key must be 'owner/name', got " ++
      py.repr key)
  else do
  let osUser ← entryField py key fields "os_user"
  let clonePath ← entryField py key fields "clone_path"
  let botSlug ← entryField py key fields "bot_slug"
  let agentKey ← requireField py key (.str key) "Agent.key"
  let osUser ← requireField py key osUser "Agent.os_user"
  let clonePath ← requireField py key clonePath "Agent.clone_path"
  let botSlug ← requireField py key botSlug "Agent.bot_slug"
  return {
    key := agentKey.val
    osUser := osUser.val
    clonePath := clonePath.val
    wakeKind := .claude
    botSlug := some botSlug.val
    recipientUuid := none
    wakeBin := none
    key_ok := agentKey.property
    osUser_ok := osUser.property
    clonePath_ok := clonePath.property
    claude_ok := fun _ => ⟨botSlug.val, rfl, botSlug.property⟩
    harness_ok := no_harness }

/-- `_build_harness_agent`: the uuid the agent resolves by, and the agent. -/
def buildHarnessAgent (key : String) (fields : Fields) : Except String (String × Agent) :=
  if key.toList.contains '/' then
    .error (entryText py key ++ " is invalid: a harness agent key must be a " ++
      "bare slug (no '/'), not an 'owner/name' repo")
  else do
  let osUser ← entryField py key fields "os_user"
  let clonePath ← entryField py key fields "clone_path"
  let recipientUuid ← entryField py key fields "recipient_uuid"
  let wakeBin ← entryField py key fields "wake_bin"
  let agentKey ← requireField py key (.str key) "Agent.key"
  let osUser ← requireField py key osUser "Agent.os_user"
  let clonePath ← requireField py key clonePath "Agent.clone_path"
  let wakeBin ← requireField py key wakeBin "Agent.wake_bin"
  let recipientUuid ← requireField py key recipientUuid "Agent.recipient_uuid"
  return (recipientUuid.val, {
    key := agentKey.val
    osUser := osUser.val
    clonePath := clonePath.val
    wakeKind := .harness
    botSlug := none
    recipientUuid := some recipientUuid.val
    wakeBin := some wakeBin.val
    key_ok := agentKey.property
    osUser_ok := osUser.property
    clonePath_ok := clonePath.property
    claude_ok := nofun
    harness_ok := fun _ => ⟨⟨wakeBin.val, rfl, wakeBin.property⟩,
      recipientUuid.val, rfl, recipientUuid.property⟩ })

/-! ## 2. Loading -/

/-- `agents[key] = agent` and `by_harness.setdefault(agent.harness_key, agent)` -/
def Registry.add (r : Registry) (key : String) (agent : Agent) : Registry :=
  { r with
    agents := r.agents.set key agent
    harnessIndex :=
      match r.harnessIndex.get agent.harnessKey with
      | some _ => r.harnessIndex
      | none => r.harnessIndex.set agent.harnessKey agent }

/-- One entry; `reprValue` is `repr` of any value. -/
def loadEntry (reprValue : Json → String) (r : Registry) (entry : String × Json) :
    Except String Registry :=
  let (key, v) := entry
  match v.asObj with
  | none => .error (entryText py key ++ " must be a JSON object")
  | some fields =>
    let kind := (fields.lookup "kind").getD (.str "github")
    if kind.isText "github" then (buildGithubAgent py key fields).map (r.add key)
    else if kind.isText "harness" then
      match buildHarnessAgent py key fields with
      | .error text => .error text
      | .ok (uuid, agent) =>
        match r.recipientIndex.get uuid with
        | some other =>
          .error (entryText py key ++ " reuses recipient_uuid " ++ py.repr uuid ++
            ", already claimed by " ++ py.repr other.key)
        | none => .ok ({ r with recipientIndex := r.recipientIndex.set uuid agent }.add key agent)
    else
      .error (entryText py key ++ " has unknown kind " ++ reprValue kind ++
        " (expected 'github' or 'harness')")

/-- `_load_agents`, where `read` is what reading the file and parsing it gives, nothing where there
is no file.  What `json.loads` raises beside a `JSONDecodeError` passes through, by its name. -/
def loadAgents (reprValue : Json → String) (path : String)
    (read : Option (Except LoadsError Json)) : Except String Registry :=
  match read with
  | none => .error ("agent registry file not found: " ++ path)
  | some (.error (.decode message)) =>
    .error ("agent registry at " ++ path ++ " is not valid JSON: " ++ message)
  | some (.error (.other name)) => .error name
  | some (.ok raw) =>
    match raw.asObj with
    | none => .error ("agent registry at " ++ path ++ " must be a JSON object of key -> fields")
    | some entries => entries.foldlM (loadEntry py reprValue) .empty

/-! ## 3. Resolving -/

/-- `agent_for` -/
def Registry.agentFor (r : Registry) (key : String) : Except String Agent :=
  match r.agents.get key with
  | some agent => .ok agent
  | none => .error ("no agent registered for " ++ py.repr key ++
      "; add it to the registry at " ++ agentsVar)

/-- An agent in the index of a recipient's kind. -/
def agentIn (index : OrderedDict String Agent) (tag value : String) : Except String Agent :=
  match index.get value with
  | some agent => .ok agent
  | none => .error ("no agent registered for " ++ tag ++ " " ++ py.repr value ++
      "; add it to the registry at " ++ agentsVar)

/-- `agent_for_recipient` -/
def Registry.agentForRecipient (r : Registry) (recipient : Recipient) : Except String Agent :=
  if recipient.tag = "repo" then r.agentFor py recipient.value
  else if recipient.tag = "recipient_uuid" then
    agentIn py r.recipientIndex "recipient_uuid" recipient.value
  else if recipient.tag = "harness_key" then
    agentIn py r.harnessIndex "harness_key" recipient.value
  else .error ("unknown recipient kind " ++ py.repr recipient.tag)

end BasecradleRouter.Config

/-! ## 4. Secrets -/

namespace BasecradleRouter

/-- `Config`, as far as the pipeline reads it. -/
structure Config where
  enabledRoutes : Finset String
  webhookSecrets : Lib.OrderedDict String String
  agents : Config.Registry

end BasecradleRouter

namespace BasecradleRouter.Config

open BasecradleRouter.Lib BasecradleRouter.Models

variable (py : Runtime)

/-- `route_secret_var`, where `upper` is `str.upper`. -/
def routeSecretVar (upper : String → String) (route : String) : String :=
  "BASECRADLE_ROUTER_" ++ upper route ++ "_WEBHOOK_SECRET"

/-- `webhook_secret` -/
def webhookSecret (upper : String → String) (config : Config) (route : String) :
    Except String String :=
  match config.webhookSecrets.get route with
  | some secret => .ok secret
  | none => .error ("no webhook secret for route " ++ py.repr route ++ "; set " ++
      routeSecretVar upper route)

/-! ## 5. What resolves -/

variable {py} {r : Registry} {agent : Agent}

theorem agentIn_ok {index : OrderedDict String Agent} {tag value : String} :
    agentIn py index tag value = .ok agent ↔ index.get value = some agent := by
  unfold agentIn
  cases index.get value with
  | none => simp
  | some other => simp

theorem agentFor_ok {key : String} :
    r.agentFor py key = .ok agent ↔ r.agents.get key = some agent := by
  unfold Registry.agentFor
  cases r.agents.get key with
  | none => simp
  | some other => simp

/-- What a recipient resolves to is what its kind's index holds. -/
theorem agentForRecipient_ok {recipient : Recipient} :
    r.agentForRecipient py recipient = .ok agent ↔
      (recipient.tag = "repo" ∧ r.agents.get recipient.value = some agent) ∨
      (recipient.tag = "recipient_uuid" ∧ r.recipientIndex.get recipient.value = some agent) ∨
      (recipient.tag = "harness_key" ∧ r.harnessIndex.get recipient.value = some agent) := by
  unfold Registry.agentForRecipient
  split
  · next htag =>
    rw [agentFor_ok, htag]
    simp
  split
  · next htag =>
    rw [agentIn_ok, htag]
    simp
  split
  · next htag =>
    rw [agentIn_ok, htag]
    simp
  · next hrepo huuid hharness =>
    simp [hrepo, huuid, hharness]

/-! ## 6. What an accepted registry holds -/

/-- A harness agent that was built resolves by its uuid. -/
theorem buildHarnessAgent_ok {key : String} {fields : Fields} {uuid : String} {agent : Agent}
    (h : buildHarnessAgent py key fields = .ok (uuid, agent)) :
    agent.recipientUuid = some uuid ∧ Required uuid := by
  unfold buildHarnessAgent at h
  split at h
  · cases h
  obtain ⟨_, -, h⟩ := bind_eq_ok.mp h
  obtain ⟨_, -, h⟩ := bind_eq_ok.mp h
  obtain ⟨_, -, h⟩ := bind_eq_ok.mp h
  obtain ⟨_, -, h⟩ := bind_eq_ok.mp h
  obtain ⟨_, -, h⟩ := bind_eq_ok.mp h
  obtain ⟨_, -, h⟩ := bind_eq_ok.mp h
  obtain ⟨_, -, h⟩ := bind_eq_ok.mp h
  obtain ⟨_, -, h⟩ := bind_eq_ok.mp h
  obtain ⟨recipientUuid, -, h⟩ := bind_eq_ok.mp h
  cases h
  exact ⟨rfl, recipientUuid.property⟩

/-- The harness agents are indexed by the uuid each is registered with. -/
def Indexed (r : Registry) : Prop :=
  ∀ uuid agent, r.recipientIndex.get uuid = some agent →
    agent.recipientUuid = some uuid ∧ Required uuid

/-- **What an entry that is accepted adds**: a builder, or a harness agent whose uuid is free. -/
theorem loadEntry_cases {reprValue : Json → String} {r r' : Registry} {key : String} {v : Json}
    (h : loadEntry py reprValue r (key, v) = .ok r') :
    (∃ fields agent, buildGithubAgent py key fields = .ok agent ∧ r' = r.add key agent) ∨
      ∃ fields uuid agent, buildHarnessAgent py key fields = .ok (uuid, agent) ∧
        r.recipientIndex.get uuid = none ∧
        r' = { r with recipientIndex := r.recipientIndex.set uuid agent }.add key agent := by
  unfold loadEntry at h
  dsimp only at h
  split at h
  · cases h
  · next fields _ =>
    split at h
    · obtain ⟨agent, hbuilt, rfl⟩ := map_eq_ok.mp h
      exact Or.inl ⟨fields, agent, hbuilt, rfl⟩
    · split at h
      · split at h
        · cases h
        · next uuid agent hbuilt =>
          split at h
          · cases h
          · next hfree =>
            cases h
            exact Or.inr ⟨fields, uuid, agent, hbuilt, hfree, rfl⟩
      · cases h

theorem loadEntry_indexed {reprValue : Json → String} {r r' : Registry} {entry : String × Json}
    (hr : Indexed r) (h : loadEntry py reprValue r entry = .ok r') : Indexed r' := by
  rcases loadEntry_cases h with ⟨_, agent, -, rfl⟩ | ⟨_, uuid, agent, hbuilt, -, rfl⟩
  · exact hr
  · intro uuid' agent' hget
    rcases OrderedDict.get_set_some hget with ⟨rfl, rfl⟩ | hget
    · exact buildHarnessAgent_ok hbuilt
    · exact hr uuid' agent' hget

/-- **Every harness agent of an accepted registry is indexed by its own uuid.** -/
theorem loadAgents_indexed {reprValue : Json → String} {path : String}
    {read : Option (Except LoadsError Json)} {r : Registry}
    (h : loadAgents py reprValue path read = .ok r) : Indexed r := by
  unfold loadAgents at h
  split at h
  · cases h
  · cases h
  · cases h
  · next raw =>
    split at h
    · cases h
    · next entries _ =>
      refine foldlM_ok (P := fun _ r => Indexed r) (fun uuid agent hget => ?_) ?_ h
      · cases hget
      · exact fun _ _ _ _ _ _ hr hstep => loadEntry_indexed hr hstep

end BasecradleRouter.Config
