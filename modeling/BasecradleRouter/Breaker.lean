/-
# The wake-rate breaker

`admitWake` is asked once per wake, right before it.  Each scope (the agent, and the agent's stream
where streams are limited) keeps a rolling window of the wakes recorded on it; a wake that takes
a window over its threshold trips the scope, and a tripped scope refuses until its cooldown is
over.  The breaker's own log lines are left out: no decision reads them.

Its cutoffs and the ends of its cooldowns are sums and differences of floats, and rounded.
-/
import BasecradleRouter.Lib.Dict
import BasecradleRouter.Lib.PyFloat

namespace BasecradleRouter.Breaker

open BasecradleRouter.Lib

/-- `_GC_INTERVAL` -/
def gcInterval : ℕ := 1024

/-- The thresholds, as `__post_init__` accepts them, and the arithmetic of the interpreter's
floats. -/
structure BreakerConfig where
  maxWakes : ℕ
  window : PyFloat
  cooldown : PyFloat
  streamMaxWakes : ℕ
  rounding : Rounding
  maxWakes_pos : 1 ≤ maxWakes
  window_ok : window.le (.fin 0) = false
  cooldown_ok : cooldown.lt (.fin 0) = false

/-- `BreakerConfig()`, without rounding. -/
def BreakerConfig.default : BreakerConfig where
  maxWakes := 20
  window := .fin 60
  cooldown := .fin 60
  streamMaxWakes := 15
  rounding := .exact
  maxWakes_pos := by omega
  window_ok := by simp [PyFloat.le]
  cooldown_ok := by simp [PyFloat.lt]

/-- How a call resolved. -/
inductive BreakerState
  | admitted
  | tripped
  | opened
  deriving DecidableEq, Repr

/-- `BreakerState.value` -/
def BreakerState.value : BreakerState → String
  | .admitted => "admitted"
  | .tripped => "tripped"
  | .opened => "open"

/-- What the breaker decided for one wake. -/
structure BreakerOutcome where
  state : BreakerState
  scope : String
  key : String
  count : ℕ
  deriving DecidableEq, Repr

/-- `BreakerOutcome.admitted` -/
def BreakerOutcome.admitted (o : BreakerOutcome) : Bool := o.state == .admitted

/-- `BreakerOutcome.detail` -/
def BreakerOutcome.detail (o : BreakerOutcome) : String :=
  if o.admitted then
    "admitted"
  else
    o.state.value ++ " scope=" ++ o.scope ++ " key=" ++ o.key ++ " count=" ++ toString o.count

/-- What a window is kept for. -/
inductive ScopeKey
  | agent (agentKey : String)
  | stream (agentKey streamKey : String)
  deriving DecidableEq, Repr

/-- One scope a call is counted against: its name, its window, its threshold and the key shown
for it. -/
structure Scope where
  name : String
  window : ScopeKey
  threshold : ℕ
  display : String

/-- `_Window`: the wakes recorded, oldest first, and until when the scope refuses. -/
structure Window where
  timestamps : List ℚ
  trippedUntil : Option PyFloat
  deriving DecidableEq

/-- `WakeRateBreaker` -/
structure WakeRateBreaker where
  config : BreakerConfig
  windows : Dict ScopeKey Window
  admitsSinceGc : ℕ

namespace WakeRateBreaker

/-- `WakeRateBreaker(config)` -/
def new (config : BreakerConfig) : WakeRateBreaker := ⟨config, Dict.empty, 0⟩

/-- The scopes of one call. -/
def scopes (b : WakeRateBreaker) (agentKey : String) (streamKey : Option String) : List Scope :=
  ⟨"agent", .agent agentKey, b.config.maxWakes, agentKey⟩ ::
    match streamKey with
    | some stream =>
      if 0 < b.config.streamMaxWakes then
        [⟨"stream", .stream agentKey stream, b.config.streamMaxWakes, stream⟩]
      else
        []
    | none => []

/-- `now - cfg.window` -/
def cutoff (b : WakeRateBreaker) (now : ℚ) : PyFloat :=
  b.config.rounding.sub (.fin now) b.config.window

/-- `_gc` -/
def gc (b : WakeRateBreaker) (now : ℚ) : WakeRateBreaker :=
  let cutoff := b.cutoff now
  { b with windows := b.windows.retain fun w =>
      !(w.trippedUntil.isNone &&
        match w.timestamps.getLast? with
        | none => true
        | some newest => (PyFloat.fin newest).le cutoff) }

/-- The sweep every `gcInterval` calls. -/
def countAdmit (b : WakeRateBreaker) (now : ℚ) : WakeRateBreaker :=
  if gcInterval ≤ b.admitsSinceGc + 1 then
    { b.gc now with admitsSinceGc := 0 }
  else
    { b with admitsSinceGc := b.admitsSinceGc + 1 }

/-- The first pass: a scope mid-cooldown refuses, one whose cooldown is over starts afresh. -/
def checkCooldowns (now : ℚ) :
    List Scope → WakeRateBreaker → Option BreakerOutcome × WakeRateBreaker
  | [], b => (none, b)
  | scope :: rest, b =>
    match b.windows.get scope.window with
    | some ⟨_, some until_⟩ =>
      if (PyFloat.fin now).lt until_ then
        (some ⟨.opened, scope.name, scope.display, 0⟩, b)
      else
        checkCooldowns now rest { b with windows := b.windows.set scope.window ⟨[], none⟩ }
    | _ => checkCooldowns now rest b

/-- The second pass: the wake is recorded on each scope, and trips the first it takes over. -/
def recordWake (now : ℚ) : List Scope → WakeRateBreaker → BreakerOutcome × WakeRateBreaker
  | [], b => (⟨.admitted, "", "", 0⟩, b)
  | scope :: rest, b =>
    let window := (b.windows.get scope.window).getD ⟨[], none⟩
    let cutoff := b.cutoff now
    let recent := window.timestamps.dropWhile (fun t => (PyFloat.fin t).le cutoff) ++ [now]
    if scope.threshold < recent.length then
      let until_ := b.config.rounding.add (.fin now) b.config.cooldown
      (⟨.tripped, scope.name, scope.display, recent.length⟩,
        { b with windows := b.windows.set scope.window ⟨recent, some until_⟩ })
    else
      recordWake now rest
        { b with windows := b.windows.set scope.window ⟨recent, window.trippedUntil⟩ }

/-- `WakeRateBreaker.admit`, at the clock reading `now`. -/
def admitWake (b : WakeRateBreaker) (agentKey : String) (streamKey : Option String) (now : ℚ) :
    BreakerOutcome × WakeRateBreaker :=
  let scopes := b.scopes agentKey streamKey
  match checkCooldowns now scopes (b.countAdmit now) with
  | (some outcome, b) => (outcome, b)
  | (none, b) => recordWake now scopes b

end WakeRateBreaker

end BasecradleRouter.Breaker
