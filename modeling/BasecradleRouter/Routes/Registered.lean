/-
# The routes the daemon runs

`buildRegistry` registers the routes that are enabled, each wired with its own configuration, and
refuses to start where an enabled route that needs the route-wide secret has none.

All that the routes change as they run is in one `Objects`: the github route's ledgers, and the
lines the routes log.
-/
import BasecradleRouter.Config
import BasecradleRouter.Config.Registry
import BasecradleRouter.Routes.Basecradle
import BasecradleRouter.Routes.Probe
import BasecradleRouter.Routes.Stamps

namespace BasecradleRouter.Routes

open BasecradleRouter.Lib BasecradleRouter.Models BasecradleRouter.Config

/-- What the routes change as they run. -/
structure Objects where
  github : GithubRoute.State
  journal : List String

/-- `SIGNATURE_HEADER` -/
def githubSignatureHeader : String := "X-Hub-Signature-256"

-- `hmac` is the hex digest of a body under a key, `upper` is `str.upper`.
variable (py : Runtime) (hmac : String → List UInt8 → String) (upper : String → String)

/-- A method of the github route, as one of the registry's. -/
def githubMethod {α : Type} (x : GithubRoute.Method α) : Py Objects Refusal α :=
  (x.mapError Raised.refusal).within Objects.github fun s github => { s with github := github }

/-- What a route without a state of its own made of a request, and the line it logged. -/
def logged {α : Type} (made : Except Raised (α × String)) : Py Objects Refusal α := do
  let (value, line) ← Py.ofExcept (made.mapError Raised.refusal)
  Py.change fun s => { s with journal := s.journal ++ [line] }
  return value

theorem run_logged {α : Type} (made : Except Raised (α × String)) (s : Objects) :
    (logged made).run s = match made with
      | .ok (value, line) => (.ok value, { s with journal := s.journal ++ [line] })
      | .error e => (.error e.refusal, s) := by
  cases made with
  | error e => rfl
  | ok made => rfl

theorem returns_logged {α : Type} {P : α → Prop} {made : Except Raised (α × String)}
    (h : ∀ value line, made = .ok (value, line) → P value) : Py.Returns P (logged made) := by
  intro s value s' hrun
  rw [run_logged] at hrun
  split at hrun
  · cases hrun
    exact h _ _ rfl
  · cases hrun

/-- `GithubRoute` -/
def githubRoute (r : GithubRoute) : Route Objects where
  name := "github"
  recipientKind := "repo"
  synthetic := false
  requiresSecret := true
  verify request secret := Py.ofExcept
    ((verifyHmacSha256 r.py hmac request secret githubSignatureHeader).mapError .signature)
  normalize request := githubMethod (r.normalize request)
  recheck event s := event.origin.bind fun origin => s.github.ledger.reasonToDrop origin.url
  stamps request := ((GithubRoute.stamps_normalize request).mapError _).within _ _

/-- `BasecradleRoute` -/
def basecradleRoute (keyring : Basecradle.RecipientKeyring) : Route Objects where
  name := Basecradle.routeName
  recipientKind := "recipient_uuid"
  synthetic := false
  requiresSecret := keyring.sharedFallback
  verify request secret := do
    let line ← Py.ofExcept
      ((Basecradle.verify py hmac keyring request secret).mapError Refusal.signature)
    Py.change fun s => { s with journal := s.journal ++ [line] }
  normalize request := logged (Basecradle.normalize py request)
  recheck _ _ := none
  stamps _ := returns_logged fun value line hmade event hmem => by
    rw [Option.mem_def.mp hmem] at hmade
    obtain ⟨_, _, -, -, -, -, -, hsource⟩ := Basecradle.normalize_ok hmade
    exact hsource

/-- `ProbeRoute` -/
def probeRoute : Route Objects where
  name := Probe.routeName
  recipientKind := Probe.recipientKind
  synthetic := true
  requiresSecret := true
  verify request secret := Py.ofExcept
    ((Probe.verify py hmac request secret).mapError .signature)
  normalize request := logged ((Probe.normalize py request).map fun made => (some made.1, made.2))
  recheck _ _ := none
  stamps request := returns_logged fun value line hmade event hmem => by
    cases hnormalize : Probe.normalize py request with
    | error e =>
      rw [hnormalize] at hmade
      cases hmade
    | ok made =>
      rw [hnormalize] at hmade
      cases hmade
      cases hmem
      exact (Probe.normalize_ok hnormalize).1

/-- `_bot_login_for_repo` -/
def botLoginForRepo (registry : Config.Registry) (repo : String) : Option String :=
  ((registry.agents.get repo).bind Agent.botSlug).bind fun slug =>
    if slug = "" then none else some (slug ++ "[bot]")

/-- A route registered where its source is enabled. -/
def registerEnabled (enabled : Finset String) (name : String)
    (made : Except String (Route Objects)) (registry : RouteRegistry Objects) :
    Except String (RouteRegistry Objects) :=
  if name ∈ enabled then made >>= registry.register py else .ok registry

/-- `_require_route_secrets` -/
def requireRouteSecrets (config : Config) (registry : RouteRegistry Objects) :
    Except String Unit :=
  (PyStr.sorted config.enabledRoutes).forM fun name =>
    if (config.webhookSecrets.get name).isSome then .ok ()
    else if (registry.routes.get name).any fun route => !route.requiresSecret then .ok ()
    else .error ("route " ++ py.repr name ++ " is enabled but " ++ routeSecretVar upper name ++
      " is not set")

/-- `build_registry` -/
def buildRegistry (config : Config) (env : OrderedDict String String) :
    Except String (RouteRegistry Objects) := do
  let registry ← registerEnabled py config.enabledRoutes "github"
    ((loadGithubTrustedActors env.get).map fun actors =>
      githubRoute hmac (GithubRoute.init py actors (botLoginForRepo config.agents))) .empty
  let registry ← registerEnabled py config.enabledRoutes Basecradle.routeName
    ((Basecradle.loadRecipientKeyring py upper config.agents.recipientIndex env).map
      (basecradleRoute py hmac)) registry
  let registry ← registerEnabled py config.enabledRoutes Probe.routeName
    (.ok (probeRoute py hmac)) registry
  requireRouteSecrets py upper config registry
  return registry

end BasecradleRouter.Routes
