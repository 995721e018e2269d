/-
# The tunables of the breaker and of the dedup cache

`loadBreakerConfig` and `loadDedupTtl` read them from the environment and refuse what is out of
range.  Their range checks are comparisons that a NaN fails, and none of them has an upper end, so
that `inf` and `nan` are accepted as well.

What the accepted settings are for is `TimersWork`: a trip is over after the cooldown, a timestamp
leaves its window and a mark is forgotten.  It takes more than the loaders ask for
(`timersWork_iff`): a window and a ttl that are finite, and a cooldown that is not infinite.
-/
import BasecradleRouter.Breaker.Timers
import BasecradleRouter.Dedup.Live
import BasecradleRouter.Lib.Checked
import BasecradleRouter.Lib.OrderedDict
import BasecradleRouter.Lib.PyStr
import BasecradleRouter.Lib.Runtime

namespace BasecradleRouter.Config

open BasecradleRouter.Lib BasecradleRouter.Breaker BasecradleRouter.Dedup

/-- `int(s)` and `float(s)`, nothing where they raise `ValueError`, and `repr` of a float. -/
structure NumberText where
  int : String → Option ℤ
  float : String → Option PyFloat
  repr : PyFloat → String

/-- `_BREAKER_MAX_VAR` -/
def breakerMaxVar : String := "BASECRADLE_ROUTER_WAKE_BREAKER_MAX"

/-- `_BREAKER_WINDOW_VAR` -/
def breakerWindowVar : String := "BASECRADLE_ROUTER_WAKE_BREAKER_WINDOW"

/-- `_BREAKER_COOLDOWN_VAR` -/
def breakerCooldownVar : String := "BASECRADLE_ROUTER_WAKE_BREAKER_COOLDOWN"

/-- `_BREAKER_STREAM_MAX_VAR` -/
def breakerStreamMaxVar : String := "BASECRADLE_ROUTER_WAKE_BREAKER_STREAM_MAX"

/-- `_DEDUP_TTL_VAR` -/
def dedupTtlVar : String := "BASECRADLE_ROUTER_DEDUP_TTL"

/-! ## 1. Loading -/

section

variable (py : Runtime) (text : NumberText) (env : OrderedDict String String)

/-- `_int_env` and `_float_env`: a number read by `parse`, the default where there is none. -/
def numberEnv {α : Type} (parse : String → Option α) (wanted : String) (var : String)
    (default : α) :
    Except String α :=
  match (env.get var).filter (!PyStr.blank ·) with
  | none => .ok default
  | some raw =>
    match parse (PyStr.strip raw) with
    | some value => .ok value
    | none => .error (var ++ " must be " ++ wanted ++ ", got " ++ py.repr raw)

/-- `_int_env` -/
def intEnv (var : String) (default : ℤ) : Except String ℤ :=
  numberEnv py env text.int "an integer" var default

/-- `_float_env` -/
def floatEnv (var : String) (default : PyFloat) : Except String PyFloat :=
  numberEnv py env text.float "a number" var default

/-- `BreakerConfig`, with its `__post_init__`; the numbers it accepts are reckoned with as they
are. -/
def makeBreakerConfig (maxWakes : ℤ) (window cooldown : PyFloat) (streamMaxWakes : ℤ) :
    Except String BreakerConfig :=
  if hmax : maxWakes < 1 then .error ("max_wakes must be >= 1, got " ++ toString maxWakes)
  else if hwindow : window.le (.fin 0) = true then
    .error ("window must be > 0, got " ++ text.repr window)
  else if hcooldown : cooldown.lt (.fin 0) = true then
    .error ("cooldown must be >= 0, got " ++ text.repr cooldown)
  else if streamMaxWakes < 0 then
    .error ("stream_max_wakes must be >= 0, got " ++ toString streamMaxWakes)
  else .ok {
    maxWakes := maxWakes.toNat
    window := window
    cooldown := cooldown
    streamMaxWakes := streamMaxWakes.toNat
    rounding := .exact
    maxWakes_pos := by omega
    window_ok := eq_false_of_ne_true hwindow
    cooldown_ok := eq_false_of_ne_true hcooldown }

/-- `load_breaker_config` -/
def loadBreakerConfig : Except String BreakerConfig := do
  let maxWakes ← intEnv py text env breakerMaxVar 20
  let window ← floatEnv py text env breakerWindowVar (.fin 60)
  let cooldown ← floatEnv py text env breakerCooldownVar (.fin 60)
  let streamMaxWakes ← intEnv py text env breakerStreamMaxVar 15
  (makeBreakerConfig text maxWakes window cooldown streamMaxWakes).mapError fun exc =>
    "invalid wake breaker configuration: " ++ exc

/-- `load_dedup_ttl` -/
def loadDedupTtl : Except String PyFloat := do
  let ttl ← floatEnv py text env dedupTtlVar (.fin 600)
  if ttl.lt (.fin 0) then
    .error (dedupTtlVar ++ " must be >= 0 (0 disables dedup), got " ++ text.repr ttl)
  else .ok ttl

/-- A variable holds a text that is read as this number. -/
def Reads (var : String) (value : PyFloat) : Prop :=
  ∃ raw, env.get var = some raw ∧ PyStr.blank raw = false ∧
    text.float (PyStr.strip raw) = some value

/-- No timer is set to a number without an end. -/
structure EndingTimers : Prop where
  window : ¬ Reads text env breakerWindowVar .inf ∧ ¬ Reads text env breakerWindowVar .nan
  cooldown : ¬ Reads text env breakerCooldownVar .inf
  ttl : ¬ Reads text env dedupTtlVar .inf ∧ ¬ Reads text env dedupTtlVar .nan

end

section

variable {py : Runtime} {text : NumberText} {env : OrderedDict String String}

/-- A number that is not the default was read. -/
theorem reads_of_floatEnv {var : String} {q : ℚ} {value : PyFloat}
    (h : floatEnv py text env var (.fin q) = .ok value) (hvalue : ∀ q, value ≠ .fin q) :
    Reads text env var value := by
  unfold floatEnv numberEnv at h
  split at h
  · cases h
    exact absurd rfl (hvalue q)
  · next raw hraw =>
    obtain ⟨hget, hblank⟩ := Option.filter_eq_some_iff.mp hraw
    split at h
    · next value' hparse =>
      cases h
      exact ⟨raw, hget, by simpa using hblank, hparse⟩
    · cases h

/-- And the other way round. -/
theorem floatEnv_of_reads {var : String} {default value value' : PyFloat}
    (h : floatEnv py text env var default = .ok value) (hreads : Reads text env var value') :
    value = value' := by
  obtain ⟨raw, hget, hblank, hparse⟩ := hreads
  have hraw : (env.get var).filter (!PyStr.blank ·) = some raw :=
    Option.filter_eq_some_iff.mpr ⟨hget, by rw [hblank]; rfl⟩
  unfold floatEnv numberEnv at h
  rw [hraw] at h
  dsimp only at h
  rw [hparse] at h
  cases h
  rfl

/-- What loading the breaker's settings comes down to. -/
theorem loadBreakerConfig_ok {config : BreakerConfig}
    (h : loadBreakerConfig py text env = .ok config) :
    config.rounding = .exact ∧ floatEnv py text env breakerWindowVar (.fin 60) = .ok config.window ∧
      floatEnv py text env breakerCooldownVar (.fin 60) = .ok config.cooldown := by
  unfold loadBreakerConfig at h
  obtain ⟨maxWakes, -, h⟩ := bind_eq_ok.mp h
  obtain ⟨window, hwindow, h⟩ := bind_eq_ok.mp h
  obtain ⟨cooldown, hcooldown, h⟩ := bind_eq_ok.mp h
  obtain ⟨streamMaxWakes, -, h⟩ := bind_eq_ok.mp h
  cases hmade : makeBreakerConfig text maxWakes window cooldown streamMaxWakes with
  | error exc =>
    rw [hmade] at h
    cases h
  | ok made =>
    rw [hmade] at h
    cases h
    unfold makeBreakerConfig at hmade
    split at hmade
    · cases hmade
    split at hmade
    · cases hmade
    split at hmade
    · cases hmade
    split at hmade
    · cases hmade
    · cases hmade
      exact ⟨rfl, hwindow, hcooldown⟩

theorem loadDedupTtl_ok {ttl : PyFloat} (h : loadDedupTtl py text env = .ok ttl) :
    floatEnv py text env dedupTtlVar (.fin 600) = .ok ttl ∧ ttl.lt (.fin 0) = false := by
  unfold loadDedupTtl at h
  obtain ⟨ttl', hread, h⟩ := bind_eq_ok.mp h
  split at h
  · cases h
  · next hrange =>
    cases h
    exact ⟨hread, eq_false_of_ne_true hrange⟩

end

/-! ## 2. The cache -/

/-- A use of the dedup cache. -/
inductive Use
  | seen (key : String) (now : ℚ)
  | mark (key : String) (now : ℚ)

/-- A cache that was used so. -/
def used (ttl : PyFloat) (h : ttl.lt (.fin 0) = false) (uses : List Use) : DeliveryDeduper :=
  after (fun d use =>
    match use with
    | .seen key now => (d.seen key now).2
    | .mark key now => d.mark key now) (.new .exact ttl h) uses

section

variable {ttl : PyFloat} {h : ttl.lt (.fin 0) = false}

/-- A cache holds what was marked. -/
theorem used_held (uses : List Use) :
    (DeliveryDeduper.new .exact ttl h).SameClock (used ttl h uses) ∧
      ∀ key m, (used ttl h uses).marked.get key = some m → Use.mark key m ∈ uses := by
  refine after_invariant (I := fun uses (d : DeliveryDeduper) =>
    (DeliveryDeduper.new .exact ttl h).SameClock d ∧
      ∀ key m, d.marked.get key = some m → Use.mark key m ∈ uses)
    ⟨⟨rfl, rfl⟩, fun key m hm => ?_⟩ ?_ uses
  · cases hm
  · rintro uses (⟨key', now⟩ | ⟨key', now⟩) ⟨hclock, hheld⟩
    · refine ⟨hclock.trans (DeliveryDeduper.seen_same _ key' now), fun key m hm => ?_⟩
      exact List.mem_append_left _ (hheld key m (DeliveryDeduper.get_of_seen hm))
    · refine ⟨hclock.trans (DeliveryDeduper.mark_same _ key' now), fun key m hm => ?_⟩
      rcases DeliveryDeduper.get_of_mark hm with ⟨rfl, rfl⟩ | hm
      · simp
      · exact List.mem_append_left _ (hheld key m hm)

/-- A key that is seen was marked less than a ttl ago. -/
theorem mark_of_seen {uses : List Use} {key : String} {now : ℚ}
    (hseen : ((used ttl h uses).seen key now).1 = true) : ttl.le (.fin 0) = false ∧
      ∃ m, (used ttl h uses).marked.get key = some m ∧ Use.mark key m ∈ uses ∧
        ttl.le (.fin (now - m)) = false := by
  obtain ⟨⟨httl, hexact⟩, hheld⟩ := used_held (h := h) uses
  rw [DeliveryDeduper.seen_eq, Bool.and_eq_true, Bool.not_eq_eq_eq_not, Bool.not_true] at hseen
  obtain ⟨hon, hlive⟩ := hseen
  obtain ⟨m, hm⟩ := Option.isSome_iff_exists.mp hlive
  obtain ⟨hget, hfresh⟩ := Option.filter_eq_some_iff.mp hm
  unfold DeliveryDeduper.off at hon
  rw [DeliveryDeduper.expired, hexact, Rounding.sub_fin] at hfresh
  rw [httl] at hon hfresh
  have hage : (!ttl.le (.fin (now - m))) = true := hfresh
  exact ⟨hon, m, hget, hheld key m hget, by simpa using hage⟩

/-- With a ttl that no age reaches, a mark is seen from then on. -/
theorem seen_forever (hnever : ∀ age : ℚ, ttl.le (.fin age) = false) (key : String) (now : ℚ) :
    ((used ttl h [.mark key 0]).seen key now).1 = true := by
  have hoff : (DeliveryDeduper.new .exact ttl h).off = false := hnever 0
  have hmarked : (used ttl h [.mark key 0]).marked.get key = some 0 := by
    show ((DeliveryDeduper.new .exact ttl h).mark key 0).marked.get key = some 0
    unfold DeliveryDeduper.mark
    have hcount : ¬ Dedup.gcInterval ≤ (DeliveryDeduper.new .exact ttl h).marksSinceGc + 1 := by
      show ¬ 1024 ≤ 0 + 1
      omega
    rw [hoff, if_neg (by decide)]
    dsimp only
    rw [if_neg hcount]
    exact Dict.get_set_self _ _ _
  obtain ⟨⟨httl, hexact⟩, -⟩ := used_held (h := h) [.mark key 0]
  rw [DeliveryDeduper.seen_eq]
  unfold DeliveryDeduper.off DeliveryDeduper.live DeliveryDeduper.expired
  rw [httl, hmarked, Option.filter_some, hexact, Rounding.sub_fin]
  show (!ttl.le (.fin 0) &&
    (if !ttl.le (.fin (now - 0)) then some (0 : ℚ) else none).isSome) = true
  rw [hnever, hnever]
  rfl

end

/-! ## 3. Timers that work -/

/-- The timers of a breaker and of a cache do what they are for. -/
structure TimersWork (config : BreakerConfig) (ttl : PyFloat) : Prop where
  refuses : ∀ k calls call later next, Tripped config k calls call later next →
    (PyFloat.fin next.now).lt (config.tripUntil call.now) = true →
      (told config (calls ++ call :: later) next).state = .opened
  heals : ∀ k calls call later next, Tripped config k calls call later next →
    (PyFloat.fin next.now).lt (config.tripUntil call.now) = false →
    (∀ c ∈ later, c.Asks config k → (PyFloat.fin c.now).lt (config.tripUntil call.now) = true) →
      (told config (calls ++ call :: later) next).admitted = true ∨
        ∃ k', k' ≠ k ∧ RefusedFor config k' next (told config (calls ++ call :: later) next)
  recovers : ∀ k calls call, ∃ ended : ℚ, ∀ next, Tripped config k calls call [] next →
    ended ≤ next.now → ¬ RefusedFor config k next (told config (calls ++ [call]) next)
  leaves : ∀ k calls now t, Nondecreasing calls → (∀ c ∈ calls, c.now ≤ now) →
    t ∈ counted (ran config calls) k now → config.window.le (.fin (now - t)) = false
  expires : ∀ t : ℚ, ∃ ended : ℚ, ∀ k calls now, Nondecreasing calls →
    (∀ c ∈ calls, c.now ≤ now) → ended ≤ now → t ∉ counted (ran config calls) k now
  trips : ∀ agentKey, ∃ calls call, Nondecreasing (calls ++ [call]) ∧
    Trips config (.agent agentKey) call (told config calls call)
  remembers : ∀ h uses key now, ((used ttl h uses).seen key now).1 = true →
    ttl.le (.fin 0) = false ∧ ∃ m, Use.mark key m ∈ uses ∧ ttl.le (.fin (now - m)) = false
  forgets : ∀ h uses key, ∃ ended : ℚ, ∀ now, ended ≤ now →
    ((used ttl h uses).seen key now).1 = false

section

variable {config : BreakerConfig} {ttl : PyFloat}

/-- A call is refused for one scope. -/
theorem refusedFor_unique {k k' : ScopeKey} {call : Call} {outcome : BreakerOutcome}
    (h : RefusedFor config k call outcome) (h' : RefusedFor config k' call outcome) : k = k' := by
  obtain ⟨-, scope, hmem, rfl, hname, -⟩ := h
  obtain ⟨-, scope', hmem', rfl, hname', -⟩ := h'
  rw [scope_unique hmem hmem' (hname.symm.trans hname')]

/-- A number that no number is at least as large as has no end. -/
theorem fin_or_unending {d : PyFloat} (h : d ≠ .negInf) :
    (∃ q, d = .fin q) ∨ (d = .inf ∨ d = .nan) ∧ ∀ age : ℚ, d.le (.fin age) = false := by
  cases d with
  | fin q => exact Or.inl ⟨q, rfl⟩
  | inf => exact Or.inr ⟨Or.inl rfl, fun _ => rfl⟩
  | negInf => exact absurd rfl h
  | nan => exact Or.inr ⟨Or.inr rfl, fun _ => rfl⟩

/-- A cooldown that is over at some instant. -/
theorem cooldown_over (hexact : config.rounding = .exact) (h : config.cooldown ≠ .inf) (now : ℚ) :
    ∃ ended : ℚ, ∀ t, ended ≤ t → (PyFloat.fin t).lt (config.tripUntil now) = false := by
  have hrange := config.cooldown_ok
  unfold BreakerConfig.tripUntil
  rw [hexact]
  cases hcooldown : config.cooldown with
  | fin q =>
    refine ⟨now + q, fun t ht => ?_⟩
    simp only [Rounding.add, Rounding.exact, PyFloat.lt, decide_eq_false_iff_not, not_lt]
    exact ht
  | inf => exact absurd hcooldown h
  | negInf =>
    rw [hcooldown] at hrange
    cases hrange
  | nan => exact ⟨0, fun _ _ => rfl⟩

/-- A window that no age reaches keeps a wake for good. -/
theorem counted_forever (hexact : config.rounding = .exact)
    (hnever : ∀ age : ℚ, config.window.le (.fin age) = false) (now : ℚ) :
    0 ∈ counted (ran config (burst "nova" 1)) (.agent "nova") now := by
  have hstanding := burst_counting hexact "nova" 1 config.maxWakes_pos
  obtain ⟨-, hconfig⟩ := ran_ordered config (nondecreasing_burst "nova" 1)
    (show ∀ c ∈ burst "nova" 1, c.now ≤ 0 by simp [burst])
  have haged : ∀ t, aged config.rounding config.window now t = false := fun t => by
    rw [hexact, aged_exact, hnever]
  unfold WakeRateBreaker.standing at hstanding
  unfold counted
  cases hw : (ran config (burst "nova" 1)).windows.get (.agent "nova") with
  | none =>
    rw [hw] at hstanding
    cases hstanding
  | some w =>
    obtain ⟨ts, _ | until_⟩ := w
    · rw [hw] at hstanding
      have hrecent : 0 ∈ recent (ran config (burst "nova" 1)).config.rounding
          (ran config (burst "nova" 1)).config.window 0 ts := by
        rw [Standing.counting.inj hstanding]
        simp
      have hts : 0 ∈ ts := (mem_recent.mp hrecent).1
      unfold WakeRateBreaker.cutoff
      rw [hconfig]
      show 0 ∈ ts.dropWhile (aged config.rounding config.window now)
      cases ts with
      | nil => cases hts
      | cons t ts => rwa [List.dropWhile_cons, haged, if_neg (by decide)]
    · rw [hw] at hstanding
      cases hstanding

/-- Timers that work have a window that ends. -/
theorem TimersWork.window_fin (hexact : config.rounding = .exact) (hwork : TimersWork config ttl) :
    ∃ q, config.window = .fin q := by
  have hrange := config.window_ok
  rcases fin_or_unending (d := config.window) (by rintro h; rw [h] at hrange; cases hrange) with
    hfin | ⟨-, hnever⟩
  · exact hfin
  · exfalso
    obtain ⟨ended, hended⟩ := hwork.expires 0
    refine hended (.agent "nova") (burst "nova" 1) (max ended 0) (nondecreasing_burst _ _) ?_
      (le_max_left _ _) (counted_forever hexact hnever _)
    intro c hc
    rw [List.eq_of_mem_replicate hc]
    exact le_max_right _ _

/-- With a cooldown that has no end, an agent that tripped is refused whenever she asks next. -/
theorem refused_forever (hexact : config.rounding = .exact) (hcooldown : config.cooldown = .inf)
    {now : ℚ} (hnow : 0 ≤ now) :
    Tripped config (.agent "nova") (burst "nova" config.maxWakes) ⟨"nova", none, 0⟩ []
        ⟨"nova", none, now⟩ ∧
      RefusedFor config (.agent "nova") ⟨"nova", none, now⟩
        (told config (burst "nova" config.maxWakes ++ [⟨"nova", none, 0⟩])
          ⟨"nova", none, now⟩) := by
  obtain ⟨hclock, htrips⟩ := can_trip hexact "nova"
  have hnever : (PyFloat.fin now).lt (config.tripUntil 0) = true := by
    unfold BreakerConfig.tripUntil
    rw [hcooldown]
    rfl
  have hlater : Nondecreasing
      ((burst "nova" config.maxWakes ++ [⟨"nova", none, 0⟩]) ++ [⟨"nova", none, now⟩]) := by
    refine List.pairwise_append.mpr ⟨hclock, List.pairwise_singleton _ _, fun c hc c' hc' => ?_⟩
    rw [← burst_succ] at hc
    rw [List.eq_of_mem_replicate hc, List.mem_singleton.mp hc']
    exact hnow
  have htripped : Tripped config (.agent "nova") (burst "nova" config.maxWakes)
      ⟨"nova", none, 0⟩ [] ⟨"nova", none, now⟩ :=
    ⟨by simpa using hlater, htrips, _, List.mem_cons_self, rfl⟩
  have hopened := htripped.refuses hnever
  obtain ⟨scope, hmem, hrefused⟩ := refusedFor_scope hlater (by
    unfold BreakerOutcome.admitted
    rw [hopened]
    rfl)
  obtain rfl : scope = ⟨"agent", .agent "nova", config.maxWakes, "nova"⟩ := by
    rcases mem_scopes.mp hmem with heq | ⟨stream, hstream, -⟩
    · exact heq
    · cases hstream
  exact ⟨htripped, hrefused⟩

/-- Timers that work have a cooldown that is over at some instant. -/
theorem TimersWork.cooldown_ne_inf (hexact : config.rounding = .exact)
    (hwork : TimersWork config ttl) : config.cooldown ≠ .inf := by
  intro hcooldown
  obtain ⟨ended, hended⟩ := hwork.recovers (.agent "nova") (burst "nova" config.maxWakes)
    ⟨"nova", none, 0⟩
  obtain ⟨htripped, hrefused⟩ := refused_forever hexact hcooldown (le_max_right ended 0)
  exact hended _ htripped (le_max_left _ _) hrefused

/-- Timers that work have a ttl that ends. -/
theorem TimersWork.ttl_fin (hwork : TimersWork config ttl) (httl : ttl.lt (.fin 0) = false) :
    ∃ q, ttl = .fin q := by
  rcases fin_or_unending (d := ttl) (by rintro rfl; cases httl) with hfin | ⟨-, hnever⟩
  · exact hfin
  · obtain ⟨ended, hended⟩ := hwork.forgets httl [.mark "d-1" 0] "d-1"
    have hforgotten := hended ended le_rfl
    rw [seen_forever hnever] at hforgotten
    cases hforgotten

/-- A trip is over once its cooldown is. -/
theorem trip_recovers (hexact : config.rounding = .exact) (hcooldown : config.cooldown ≠ .inf)
    (k : ScopeKey) (calls : List Call) (call : Call) :
    ∃ ended : ℚ, ∀ next, Tripped config k calls call [] next →
      ended ≤ next.now → ¬ RefusedFor config k next (told config (calls ++ [call]) next) := by
  obtain ⟨ended, hended⟩ := cooldown_over hexact hcooldown call.now
  refine ⟨ended, fun next h hnext hrefused => ?_⟩
  rcases h.heals (hended _ hnext) (fun c hc => absurd hc List.not_mem_nil) with
    hpass | ⟨k', hne, hother⟩
  · rw [hrefused.1] at hpass
    cases hpass
  · exact hne (refusedFor_unique hother hrefused)

/-- A timestamp leaves a window that ends. -/
theorem counted_expires (hexact : config.rounding = .exact) {window : ℚ}
    (hwindow : config.window = .fin window) {t now : ℚ}
    (hnow : t + window ≤ now) {k : ScopeKey} {calls : List Call} (hcalls : Nondecreasing calls)
    (hclock : ∀ c ∈ calls, c.now ≤ now) : t ∉ counted (ran config calls) k now := by
  intro ht
  have hfresh := mem_counted hcalls hclock ht
  rw [hexact, aged_exact, hwindow] at hfresh
  simp only [PyFloat.le, decide_eq_false_iff_not, not_le] at hfresh
  linarith

/-- A mark is forgotten after a ttl that ends. -/
theorem mark_forgotten {span : ℚ} (hspan : ttl = .fin span) (h : ttl.lt (.fin 0) = false)
    (uses : List Use) (key : String) :
    ∃ ended : ℚ, ∀ now, ended ≤ now → ((used ttl h uses).seen key now).1 = false := by
  cases hget : (used ttl h uses).marked.get key with
  | none =>
    refine ⟨0, fun now _ => eq_false_of_ne_true fun hseen => ?_⟩
    obtain ⟨-, m, hm, -⟩ := mark_of_seen hseen
    rw [hget] at hm
    cases hm
  | some m =>
    refine ⟨m + span, fun now hnow => eq_false_of_ne_true fun hseen => ?_⟩
    obtain ⟨-, m', hm', -, hfresh⟩ := mark_of_seen hseen
    rw [hget] at hm'
    cases hm'
    rw [hspan] at hfresh
    simp only [PyFloat.le, decide_eq_false_iff_not, not_le] at hfresh
    linarith

/-- **The timers work** exactly if each of them ends. -/
theorem timersWork_iff (hexact : config.rounding = .exact) (httl : ttl.lt (.fin 0) = false) :
    TimersWork config ttl ↔
      (∃ q, config.window = .fin q) ∧ config.cooldown ≠ .inf ∧ ∃ q, ttl = .fin q := by
  constructor
  · intro hwork
    exact ⟨hwork.window_fin hexact, hwork.cooldown_ne_inf hexact, hwork.ttl_fin httl⟩
  · rintro ⟨⟨window, hwindow⟩, hcooldown, ⟨span, hspan⟩⟩
    constructor
    case refuses => exact fun k calls call later next h hin => h.refuses hin
    case heals => exact fun k calls call later next h hended hin => h.heals hended hin
    case recovers => exact trip_recovers hexact hcooldown
    case leaves =>
      intro k calls now t hcalls hclock ht
      rw [← aged_exact, ← hexact]
      exact mem_counted hcalls hclock ht
    case expires =>
      intro t
      exact ⟨t + window, fun k calls now hcalls hclock hnow =>
        counted_expires hexact hwindow hnow hcalls hclock⟩
    case trips => exact fun agentKey => ⟨_, _, can_trip hexact agentKey⟩
    case remembers =>
      intro h uses key now hseen
      obtain ⟨hon, m, -, hmem, hfresh⟩ := mark_of_seen hseen
      exact ⟨hon, m, hmem, hfresh⟩
    case forgets => exact mark_forgotten hspan

/-- What was loaded ends exactly if the texts do. -/
theorem ends_iff {py : Runtime} {text : NumberText} {env : OrderedDict String String}
    (hconfig : loadBreakerConfig py text env = .ok config)
    (httl : loadDedupTtl py text env = .ok ttl) :
    ((∃ q, config.window = .fin q) ∧ config.cooldown ≠ .inf ∧ ∃ q, ttl = .fin q) ↔
      EndingTimers text env := by
  obtain ⟨-, hwindow, hcooldown⟩ := loadBreakerConfig_ok hconfig
  obtain ⟨hread, hrange⟩ := loadDedupTtl_ok httl
  have hwindow_ok := config.window_ok
  constructor
  · rintro ⟨⟨q, hq⟩, hne, ⟨q', hq'⟩⟩
    refine ⟨⟨fun h => ?_, fun h => ?_⟩, fun h => hne (floatEnv_of_reads hcooldown h),
      ⟨fun h => ?_, fun h => ?_⟩⟩
    · cases hq.symm.trans (floatEnv_of_reads hwindow h)
    · cases hq.symm.trans (floatEnv_of_reads hwindow h)
    · cases hq'.symm.trans (floatEnv_of_reads hread h)
    · cases hq'.symm.trans (floatEnv_of_reads hread h)
  · rintro ⟨⟨hwindowInf, hwindowNan⟩, hcooldownInf, httlInf, httlNan⟩
    refine ⟨?_, fun h => ?_, ?_⟩
    · rcases fin_or_unending (d := config.window)
        (by rintro h; rw [h] at hwindow_ok; cases hwindow_ok)
        with hfin | ⟨h | h, -⟩
      · exact hfin
      · rw [h] at hwindow
        exact absurd (reads_of_floatEnv hwindow (by simp)) hwindowInf
      · rw [h] at hwindow
        exact absurd (reads_of_floatEnv hwindow (by simp)) hwindowNan
    · rw [h] at hcooldown
      exact hcooldownInf (reads_of_floatEnv hcooldown (by simp))
    · rcases fin_or_unending (d := ttl) (by rintro rfl; cases hrange) with hfin | ⟨h | h, -⟩
      · exact hfin
      · rw [h] at hread
        exact absurd (reads_of_floatEnv hread (by simp)) httlInf
      · rw [h] at hread
        exact absurd (reads_of_floatEnv hread (by simp)) httlNan

end

/-- **Accepted tunables keep their timers working** exactly if none of their texts is a number
without an end. -/
theorem tunables_work_iff (py : Runtime) (text : NumberText) (env : OrderedDict String String)
    (config : BreakerConfig) (ttl : PyFloat) (hconfig : loadBreakerConfig py text env = .ok config)
    (httl : loadDedupTtl py text env = .ok ttl) :
    TimersWork config ttl ↔ EndingTimers text env :=
  (timersWork_iff (loadBreakerConfig_ok hconfig).1 (loadDedupTtl_ok httl).2).trans
    (ends_iff hconfig httl)

/-- An interpreter that reads `inf` and `90.0` as the floats they are, and no other number. -/
def someText : NumberText where
  int _ := none
  float s := if s = "inf" then some .inf else if s = "90.0" then some (.fin 90) else none
  repr _ := "inf"

def plainPy : Runtime := .ascii (fun _ => .error (.decode "Expecting value")) fun _ => none

/-- An environment that asks for 90 seconds of cooldown, and as long a ttl. -/
def cooledEnv : OrderedDict String String :=
  (OrderedDict.empty.set breakerCooldownVar " 90.0 ").set dedupTtlVar "90.0"

def cooledConfig : BreakerConfig := { BreakerConfig.default with
  cooldown := .fin 90
  cooldown_ok := rfl }

theorem tunables_work_cooled : TimersWork cooledConfig (.fin 90) := by
  refine (tunables_work_iff plainPy someText cooledEnv cooledConfig (.fin 90)
    rfl rfl).mpr ?_
  have hnot : ∀ var value, (∀ q, value ≠ .fin q) → ¬ Reads someText cooledEnv var value := by
    rintro var value hvalue ⟨raw, hget, -, hread⟩
    obtain ⟨-, rfl⟩ | hget := OrderedDict.get_set_some hget
    · exact hvalue _ (Option.some.inj (hread.symm.trans rfl))
    obtain ⟨-, rfl⟩ | hget := OrderedDict.get_set_some hget
    · exact hvalue _ (Option.some.inj (hread.symm.trans rfl))
    · cases hget
  exact ⟨⟨hnot _ _ nofun, hnot _ _ nofun⟩, hnot _ _ nofun, hnot _ _ nofun, hnot _ _ nofun⟩

/-- The settings of an environment that asks for a cooldown without an end. -/
def endlessConfig : BreakerConfig where
  maxWakes := 20
  window := .fin 60
  cooldown := .inf
  streamMaxWakes := 15
  rounding := .exact
  maxWakes_pos := BreakerConfig.default.maxWakes_pos
  window_ok := BreakerConfig.default.window_ok
  cooldown_ok := rfl

/-- **A cooldown of `inf`** is accepted, and a scope that trips refuses for good. -/
theorem not_timersWork_inf :
    loadBreakerConfig plainPy someText (OrderedDict.empty.set breakerCooldownVar "inf") =
        .ok endlessConfig ∧
      loadDedupTtl plainPy someText (OrderedDict.empty.set breakerCooldownVar "inf") =
        .ok (.fin 600) ∧
      ¬ TimersWork endlessConfig (.fin 600) := by
  refine ⟨?_, ?_, fun h => ?_⟩
  · rfl
  · rfl
  · exact ((timersWork_iff rfl (by simp [PyFloat.lt])).mp h).2.1 rfl

end BasecradleRouter.Config
