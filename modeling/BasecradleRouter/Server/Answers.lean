/-
# How a request is answered

The request that the pipeline sees is what was sent: a body is its chunks put together, up to the
first that says it is the last (`readBody_eq_some`), and its headers are those received, each name
once and with its first value (`headed_requestOf`).

`front_end` is about every call: it is answered once, and its status and its payload say exactly
what became of the request.
-/
import BasecradleRouter.Pipeline.Fates
import BasecradleRouter.Pipeline.Probes
import BasecradleRouter.Server

namespace BasecradleRouter.Server

open BasecradleRouter.Lib BasecradleRouter.Models BasecradleRouter.Routes BasecradleRouter.Pipeline

/-! ## 1. The body -/

/-- More is to come after the message. -/
def Received.continues : Received → Bool
  | .request _ moreBody => moreBody.getD false
  | .disconnect => false
  | .other _ => true

/-- What a message brings of the body. -/
def Received.piece : Received → List UInt8
  | .request body _ => body.getD []
  | .disconnect => []
  | .other _ => []

/-- The body of what was received: the pieces up to the first message that none follows. -/
inductive Reads : List Received → List UInt8 → Prop
  | last {message : Received} (h : message.continues = false) (rest : List Received) :
      Reads (message :: rest) message.piece
  | more {message : Received} {rest : List Received} {body : List UInt8}
      (h : message.continues = true) (hrest : Reads rest body) :
      Reads (message :: rest) (message.piece ++ body)

/-- **A body is read whole**, whatever it was cut into. -/
theorem readBody_eq_some {received : List Received} {body : List UInt8} :
    readBody received = some body ↔ Reads received body := by
  constructor
  · intro h
    induction received generalizing body with
    | nil => cases h
    | cons message rest ih =>
      cases message with
      | request chunk moreBody =>
        rw [readBody] at h
        split at h
        · next hmore =>
          obtain ⟨tail, htail, rfl⟩ := Option.map_eq_some_iff.mp h
          exact .more hmore (ih htail)
        · next hmore =>
          cases h
          exact .last (Bool.not_eq_true _ ▸ hmore) rest
      | disconnect =>
        cases h
        exact .last rfl rest
      | other type => exact .more rfl (ih h)
  · intro h
    induction h with
    | @last message h rest =>
      cases message with
      | request chunk moreBody => exact if_neg (Bool.eq_false_iff.mp h)
      | disconnect => rfl
      | other type => cases h
    | @more message rest body h _ ih =>
      cases message with
      | request chunk moreBody =>
        have hmore : moreBody.getD false = true := h
        rw [readBody, if_pos hmore, ih]
        rfl
      | disconnect => cases h
      | other type => exact ih

/-- Chunks of a body, the last of which says so. -/
def chunked (chunks : List (List UInt8)) (last : List UInt8) : List Received :=
  chunks.map (fun chunk => .request (some chunk) (some true)) ++ [.request (some last) none]

theorem reads_chunked (chunks : List (List UInt8)) (last : List UInt8) :
    Reads (chunked chunks last) (chunks.flatten ++ last) := by
  induction chunks with
  | nil => exact .last rfl []
  | cons chunk chunks ih =>
    rw [List.flatten_cons, List.append_assoc]
    exact .more rfl ih

/-! ## 2. The headers -/

/-- A look-up by name sees a header only where the name was not there before. -/
theorem find_setDefault (p : String → Bool) (headers : List (String × String))
    (header : String × String) :
    (setDefault headers header).find? (fun h => p h.1) =
      (headers ++ [header]).find? fun h => p h.1 := by
  unfold setDefault
  split
  · next hany =>
    obtain ⟨same, hmem, hname⟩ := List.any_eq_true.mp hany
    rw [List.find?_append]
    cases hfind : headers.find? (fun h => p h.1) with
    | some found => rfl
    | none =>
      have hp : p header.1 = false := by
        have hsame := List.find?_eq_none.mp hfind same hmem
        rw [decide_eq_true_eq.mp hname] at hsame
        simpa using hsame
      simp [hp]
  · rfl

theorem find_foldl_setDefault (p : String → Bool) (raw headers : List (String × String)) :
    (raw.foldl setDefault headers).find? (fun h => p h.1) =
      (headers ++ raw).find? fun h => p h.1 := by
  induction raw generalizing headers with
  | nil => rw [List.foldl_nil, List.append_nil]
  | cons header raw ih =>
    rw [List.foldl_cons, ih, List.find?_append, find_setDefault, ← List.find?_append,
      List.append_assoc, List.singleton_append]

/-- The request of a scope whose body has been read. -/
def requestOf (scope : Scope) (body : List UInt8) : InboundRequest := ⟨headers scope, body⟩

/-- A name is kept once. -/
theorem nodup_setDefault {headers : List (String × String)} (h : (headers.map Prod.fst).Nodup)
    (header : String × String) : ((setDefault headers header).map Prod.fst).Nodup := by
  unfold setDefault
  split
  · exact h
  · next hany =>
    rw [List.map_append]
    refine List.nodup_append.mpr ⟨h, List.nodup_singleton _, ?_⟩
    rintro name hname _ hnew rfl
    obtain ⟨same, hmem, rfl⟩ := List.mem_map.mp hname
    exact hany (List.any_eq_true.mpr ⟨same, hmem, by simpa using hnew⟩)

theorem sublist_setDefault (headers : List (String × String)) (header : String × String) :
    (setDefault headers header).Sublist (headers ++ [header]) := by
  unfold setDefault
  split
  · exact List.sublist_append_left headers [header]
  · exact List.Sublist.refl _

theorem foldl_setDefault (raw : List (String × String)) {headers : List (String × String)}
    (h : (headers.map Prod.fst).Nodup) : ((raw.foldl setDefault headers).map Prod.fst).Nodup ∧
      (raw.foldl setDefault headers).Sublist (headers ++ raw) := by
  induction raw generalizing headers with
  | nil => exact ⟨h, by rw [List.append_nil]; exact List.Sublist.refl _⟩
  | cons header raw ih =>
    obtain ⟨honce, hsublist⟩ := ih (nodup_setDefault h header)
    refine ⟨honce, hsublist.trans ?_⟩
    rw [List.append_cons]
    exact (sublist_setDefault headers header).append (List.Sublist.refl raw)

/-- The first header whose name passes a test. -/
def firstHeader (p : String → Bool) (headers : List (String × String)) :
    Option (String × String) := headers.find? fun h => p h.1

/-- A request made of what was received: the headers in their order, each name once, and whatever a
look-up asks of a name it finds the first that was sent. -/
structure Headed (py : Runtime) (scope : Scope) (request : InboundRequest) : Prop where
  sent : request.headers.Sublist (scope.headers.map decoded)
  once : (request.headers.map Prod.fst).Nodup
  first : ∀ p, firstHeader p request.headers = firstHeader p (scope.headers.map decoded)
  /-- and so does the routes' own, whatever the case -/
  header : ∀ name, request.header py name =
    (firstHeader (fun key => py.lower key == py.lower name) (scope.headers.map decoded)).map
      Prod.snd

/-- **The headers are those received.** -/
theorem headed_requestOf (py : Runtime) (scope : Scope) (body : List UInt8) :
    Headed py scope (requestOf scope body) := by
  obtain ⟨honce, hsublist⟩ := @foldl_setDefault (scope.headers.map decoded) [] List.nodup_nil
  have hfirst : ∀ p, firstHeader p (requestOf scope body).headers =
      firstHeader p (scope.headers.map decoded) := fun p => find_foldl_setDefault p _ []
  exact ⟨hsublist, honce, hfirst, fun name => congrArg (Option.map Prod.snd)
    (hfirst fun key => py.lower key == py.lower name)⟩

/-! ## 3. The payload -/

theorem plain_summary (result : PipelineResult) : JsonLayout.Plain (summary result) := by
  have hkeys : ["outcome", "stages"].Nodup := by decide
  refine .obj hkeys fun field hfield => ?_
  rcases List.mem_cons.mp hfield with rfl | hfield
  · exact .str _
  · obtain rfl := List.mem_singleton.mp hfield
    refine .arr fun pair hpair => ?_
    obtain ⟨stage, -, rfl⟩ := List.mem_map.mp hpair
    refine .arr fun v hv => ?_
    rcases List.mem_cons.mp hv with rfl | hv
    · exact .str _
    · obtain rfl := List.mem_singleton.mp hv
      exact .str _

/-- What a payload tells of the stages a request went through: the last one's outcome, and each
with its own. -/
def telling (stages : List (Stage × Outcome)) : Json := .obj [
  ("outcome", .str ((stages.getLast?.map fun stage => stage.2.value).getD "none")),
  ("stages", .arr (stages.map fun stage => .arr [.str stage.1.value, .str stage.2.value]))]

theorem summary_eq (result : PipelineResult) : summary result = telling result.stages := by
  have hlast : result.stages.getLast? =
      result.records.getLast?.map fun rec => (rec.stage, rec.outcome) := List.getLast?_map
  unfold summary telling PipelineResult.terminal
  rw [hlast]
  cases result.records.getLast? with
  | none => rfl
  | some last => rfl

/-- A payload that reads as a value. -/
def ReadsAs (payload : List UInt8) (v : Json) : Prop :=
  ∃ text, payload = encode text ∧ JsonCodec.loads text = some v

theorem readsAs_send {v : Json} (h : JsonLayout.Plain v) (status : ℕ) :
    ∃ payload, send status v = [.start status "application/json", .body payload] ∧
      ReadsAs payload v :=
  ⟨_, rfl, _, rfl, JsonLayout.loads_write .spaced JsonCodec.undone_escape h⟩

/-! ## 4. Every call -/

variable {σ : Type}

/-- What every call comes to. -/
structure Answers (core : Core σ) (stem : String) (scope : Scope) (received : List Received)
    (f : Flushes) (object : σ) (served : Served σ) (status : ℕ) : Prop where
  /-- one start, one body -/
  once : ∃ contentType payload, served.sent = [.start status contentType, .body payload]
  known : status ∈ [200, 202, 400, 401, 404]
  /-- 202 is answered exactly where a wake is spawned -/
  accepted : status = 202 ↔ served.pending.isSome
  /-- what is spawned: an event of a request whose signature held over the whole body -/
  woken : ∀ agent event, served.pending = some (agent, event) ↔ ∃ source body route,
    target stem scope = .webhook source ∧ Reads received body ∧
      core.Made source (requestOf scope body) f object route (.ok (some event)) ∧
      f.decided.raised = none ∧
      core.config.agents.agentForRecipient core.py event.recipient = .ok agent
  unsigned : status = 401 ↔ ∃ source body route text object',
    target stem scope = .webhook source ∧ Reads received body ∧
      core.Told source (requestOf scope body) object route (.error (.signature text)) object' ∧
      f.verified.raised = none
  malformed : status = 400 ↔ ∃ source body route exc,
    target stem scope = .webhook source ∧ Reads received body ∧
      core.Made source (requestOf scope body) f object route (.error exc) ∧ Core.Declared exc
  unknown : status = 404 ↔ target stem scope = .notFound ∨ target stem scope = .noRoute ∨
    ∃ source, target stem scope = .webhook source ∧ core.registry.routes.get source = none
  /-- a call that is no webhook's leaves the core alone -/
  aside : (∀ source, target stem scope ≠ .webhook source) →
    served.object = object ∧ served.calls = []
  /-- a webhook's request is made of what was received -/
  request : ∀ source body, target stem scope = .webhook source → Reads received body →
    (requestOf scope body).body = body ∧ Headed core.py scope (requestOf scope body)
  /-- it meets one fate, and is answered by it: what is spawned, the status, and the stages -/
  fated : ∀ source, target stem scope = .webhook source → ∃ body pending stages payload,
    Reads received body ∧ Fate core source (requestOf scope body) f object pending stages ∧
      served.pending = pending ∧ status = statusOf pending stages ∧
      served.sent = [.start status "application/json", .body payload] ∧
      ReadsAs payload (telling stages)

/-- A call that does not reach the pipeline is answered with a status of its own. -/
theorem answers_aside (core : Core σ) {stem : String} {scope : Scope} (received : List Received)
    (f : Flushes) (object : σ) {status : ℕ} {sent : List Sent} {contentType : String}
    {payload : List UInt8} (hsent : sent = [.start status contentType, .body payload])
    (hnot : ∀ source, target stem scope ≠ .webhook source)
    (hstatus : status = 200 ∧ target stem scope = .liveness ∨
      status = 404 ∧ (target stem scope = .notFound ∨ target stem scope = .noRoute)) :
    Answers core stem scope received f object (aside object sent) status where
  once := ⟨_, _, hsent⟩
  known := by
    rcases hstatus with ⟨rfl, -⟩ | ⟨rfl, -⟩
    · decide
    · decide
  accepted := by
    rcases hstatus with ⟨rfl, -⟩ | ⟨rfl, -⟩
    · exact iff_of_false (by decide) Bool.false_ne_true
    · exact iff_of_false (by decide) Bool.false_ne_true
  woken agent event := iff_of_false nofun fun ⟨source, _, _, h, _⟩ => hnot source h
  unsigned := by
    refine iff_of_false ?_ fun ⟨source, _, _, _, _, h, _⟩ => hnot source h
    rcases hstatus with ⟨rfl, -⟩ | ⟨rfl, -⟩
    · decide
    · decide
  malformed := by
    refine iff_of_false ?_ fun ⟨source, _, _, _, h, _⟩ => hnot source h
    rcases hstatus with ⟨rfl, -⟩ | ⟨rfl, -⟩
    · decide
    · decide
  unknown := by
    rcases hstatus with ⟨rfl, htarget⟩ | ⟨rfl, htarget | htarget⟩
    · rw [htarget]
      exact iff_of_false (by decide) nofun
    · exact iff_of_true rfl (Or.inl htarget)
    · exact iff_of_true rfl (Or.inr (Or.inl htarget))
  aside _ := ⟨rfl, rfl⟩
  request source _ h := absurd h (hnot source)
  fated source h := absurd h (hnot source)

/-- A webhook whose body has been read is answered by what became of it. -/
theorem answers_webhook (core : Core σ) {stem : String} {scope : Scope} {received : List Received}
    (f : Flushes) (object : σ) {source : String} {body : List UInt8}
    (htarget : target stem scope = .webhook source) (hbody : Reads received body) :
    Answers core stem scope received f object
      (webhook core source (requestOf scope body) f object)
      (answered core source (requestOf scope body) f object) := by
  have hbodies : ∀ body', Reads received body' → body' = body := fun body' h =>
    Option.some.inj ((readBody_eq_some.mpr h).symm.trans (readBody_eq_some.mpr hbody))
  have hsources : ∀ source', target stem scope = .webhook source' → source' = source :=
    fun source' h => by
      rw [htarget] at h
      cases h
      rfl
  obtain ⟨payload, hsent, hread⟩ := readsAs_send
    (plain_summary (webhook core source (requestOf scope body) f object).result)
    (answered core source (requestOf scope body) f object)
  obtain ⟨pending, stages, hleft, hwent, hfate, hstatus⟩ :=
    answered_fate core source (requestOf scope body) f object
  refine ⟨⟨_, payload, hsent⟩, answered_mem, answered_woke, fun agent event => ?_, ?_, ?_, ?_,
    fun hnot => absurd htarget (hnot source),
    fun _ _ _ _ => ⟨rfl, headed_requestOf core.py scope _⟩, fun source' htarget' => ?_⟩
  · refine left_eq_some.trans ⟨fun ⟨route, h⟩ => ⟨source, body, route, htarget, hbody, h⟩, ?_⟩
    rintro ⟨source', body', route, htarget', hbody', h⟩
    obtain rfl := hsources source' htarget'
    obtain rfl := hbodies body' hbody'
    exact ⟨route, h⟩
  · refine answered_unsigned.trans
      ⟨fun ⟨route, text, object', h⟩ => ⟨source, body, route, text, object', htarget, hbody, h⟩, ?_⟩
    rintro ⟨source', body', route, text, object', htarget', hbody', h⟩
    obtain rfl := hsources source' htarget'
    obtain rfl := hbodies body' hbody'
    exact ⟨route, text, object', h⟩
  · refine answered_malformed.trans
      ⟨fun ⟨route, exc, h⟩ => ⟨source, body, route, exc, htarget, hbody, h⟩, ?_⟩
    rintro ⟨source', body', route, exc, htarget', hbody', h⟩
    obtain rfl := hsources source' htarget'
    obtain rfl := hbodies body' hbody'
    exact ⟨route, exc, h⟩
  · refine answered_unknown.trans ⟨fun h => Or.inr (Or.inr ⟨source, htarget, h⟩), ?_⟩
    rintro (h | h | ⟨source', htarget', h⟩)
    · rw [htarget] at h
      cases h
    · rw [htarget] at h
      cases h
    · obtain rfl := hsources source' htarget'
      exact h
  · obtain rfl := hsources source' htarget'
    refine ⟨body, pending, stages, payload, hbody, hfate, hleft, hstatus, hsent, ?_⟩
    rw [summary_eq] at hread
    rw [← hwent]
    exact hread

/-- **The front end**: every call is answered once, and what with. -/
theorem front_end (core : Core σ) (stem : String) (scope : Scope) (received : List Received)
    (f : Flushes) (object : σ) (served : Served σ)
    (h : respond core stem scope received f object = some served) :
    ∃ status, Answers core stem scope received f object served status := by
  unfold respond at h
  cases htarget : target stem scope with
  | liveness =>
    rw [htarget] at h
    cases h
    exact ⟨200, answers_aside core received f object rfl (by simp [htarget])
      (Or.inl ⟨rfl, htarget⟩)⟩
  | notFound =>
    rw [htarget] at h
    cases h
    exact ⟨404, answers_aside core received f object rfl (by simp [htarget])
      (Or.inr ⟨rfl, Or.inl htarget⟩)⟩
  | noRoute =>
    rw [htarget] at h
    cases h
    exact ⟨404, answers_aside core received f object rfl (by simp [htarget])
      (Or.inr ⟨rfl, Or.inr htarget⟩)⟩
  | webhook source =>
    rw [htarget] at h
    obtain ⟨body, hbody, rfl⟩ := Option.map_eq_some_iff.mp h
    exact ⟨_, answers_webhook core f object htarget (readBody_eq_some.mp hbody)⟩

/-- A daemon that runs the probe route alone, for bob. -/
def probeConfig : Config where
  enabledRoutes := {"probe"}
  webhookSecrets := OrderedDict.empty.set "probe" "key"
  agents := Config.Registry.empty.add "bob" (.builder "bob" required_bob)

/-- An interpreter that reads every body as bob's probe. -/
def probePy : Runtime := .ascii
  (fun _ => .ok (.obj [("harness_key", .str "bob"),
    ("marker", .str ("BCNOC1 own " ++ String.ofList (List.replicate 64 '0')))]))
  fun _ => none

def probeRegistry : RouteRegistry Objects :=
  ⟨OrderedDict.empty.set "probe" (probeRoute probePy fun _ _ => "digest"),
    RouteRegistry.empty.named_set (probeRoute probePy fun _ _ => "digest")⟩

def probeCore : Core Objects := ⟨probePy, id, probeRegistry, probeConfig⟩

/-- A probe of bob's, with a second signature behind the first. -/
def probeScope : Scope where
  method := "POST"
  path := "/webhooks/probe"
  headers := [
    (encode "x-basecradle-probe-signature".toList, encode "sha256=digest".toList),
    (encode "X-BaseCradle-Probe-Delivery".toList, encode "d-1".toList),
    (encode "X-BaseCradle-Probe-Signature".toList, encode "sha256=other".toList)]

/-- Its body, in two chunks. -/
def probeReceived : List Received := chunked [[0]] [1]

theorem front_end_probe : Reads probeReceived [0, 1] ∧
    ∃ served status, served.pending.isSome = true ∧
      Answers probeCore webhookStem probeScope probeReceived ⟨firstFlush, firstFlush⟩
        ⟨⟨.empty, .empty, []⟩, []⟩ served status := by
  have htarget : target webhookStem probeScope = .webhook "probe" := by decide
  have hserved : respond probeCore webhookStem probeScope probeReceived ⟨firstFlush, firstFlush⟩
      ⟨⟨.empty, .empty, []⟩, []⟩ = some (webhook probeCore "probe" (requestOf probeScope [0, 1])
        ⟨firstFlush, firstFlush⟩ ⟨⟨.empty, .empty, []⟩, []⟩) := by
    unfold respond
    rw [htarget]
    rfl
  obtain ⟨status, h⟩ := front_end _ _ _ _ _ _ _ hserved
  exact ⟨reads_chunked [[0]] [1], _, status, by rfl, h⟩

end BasecradleRouter.Server
