/-
# The probe route

The router's own synthetic deliveries: `verify` is the signature check every signing route has, and
`normalize` takes a marker of the right form for the agent that the body names, and nothing else.
What it makes is marked as synthetic, and has no time it happened at (`normalize_ok`).
-/
import BasecradleRouter.Lib.Checked
import BasecradleRouter.Routes.Base
import BasecradleRouter.Wake.Invocation

namespace BasecradleRouter.Routes.Probe

open BasecradleRouter.Lib BasecradleRouter.Models

def signatureHeader : String := "X-BaseCradle-Probe-Signature"

def eventHeader : String := "X-BaseCradle-Probe-Event"

def deliveryHeader : String := "X-BaseCradle-Probe-Delivery"

/-- `WAKE_EVENT` -/
def wakeEvent : String := "probe.wake"

/-- `ProbeRoute.name` -/
def routeName : String := "probe"

/-- `ProbeRoute.recipient_kind` -/
def recipientKind : String := "harness_key"

/-- `verify` -/
def verify (py : Runtime) (hmac : String → List UInt8 → String) (request : InboundRequest)
    (secret : Option String) : Except String Unit :=
  verifyHmacSha256 py hmac request secret signatureHeader

/-- `_text` -/
def text (obj : Fields) (key : String) : Except Raised String :=
  match (obj.get key).asStr with
  | some value =>
    if value = "" then .error (.payload (key ++ " must be a non-empty string")) else .ok value
  | none => .error (.payload (key ++ " must be a non-empty string"))

/-- `PayloadError(f"malformed probe payload: {exc}")` -/
def malformed {α : Type} (made : Except String α) : Except Raised α :=
  made.mapError fun exc => .payload ("malformed probe payload: " ++ exc)

/-- `normalize`: an event, and the line that says what was decided. -/
def normalize (py : Runtime) (request : InboundRequest) : Except Raised (Event × String) := do
  let eventType := orElse (request.header py eventHeader) wakeEvent
  let data ← parseJsonObject py request.body
  if eventType ≠ wakeEvent then
    .error (.payload ("unknown probe event " ++ py.repr eventType ++
      "; this route carries only " ++ py.repr wakeEvent))
  else
    match (request.header py deliveryHeader).filter (· ≠ "") with
    | none => .error (.payload ("missing " ++ deliveryHeader ++ " header"))
    | some delivery =>
      let harnessKey ← text data "harness_key"
      let marker ← text data "marker"
      if !Wake.isMarker marker then
        .error (.payload ("marker is not a well-formed BCNOC1 probe marker: " ++ py.repr marker ++
          " (expected 'BCNOC1 <nonce> <64-hex-hmac>')"))
      else
        let recipient ← malformed (Recipient.make recipientKind harnessKey)
        let event ← malformed (Event.make routeName .syntheticProbe recipient marker delivery none
          none none)
        return (event, deliveryDecision routeName (some eventType) .woke (some harnessKey)
          (some delivery) [])

theorem malformed_ok {α : Type} {made : Except String α} {a : α} (h : malformed made = .ok a) :
    made = .ok a := by
  cases made with
  | error e => cases h
  | ok a' => exact congrArg _ (Except.ok.inj h)

/-- **What a probe is**: synthetic, of this route, carrying a marker, and without a time. -/
theorem normalize_ok {py : Runtime} {request : InboundRequest} {event : Event} {line : String}
    (h : normalize py request = .ok (event, line)) :
    event.source = routeName ∧ event.synthetic = true ∧ Wake.isMarker event.wakeArg = true ∧
      event.occurredAt = none ∧ event.recipient.tag = recipientKind := by
  unfold normalize at h
  obtain ⟨data, -, h⟩ := bind_eq_ok.mp h
  split at h
  · cases h
  split at h
  · cases h
  next delivery _ =>
  obtain ⟨harnessKey, -, h⟩ := bind_eq_ok.mp h
  obtain ⟨marker, -, h⟩ := bind_eq_ok.mp h
  split at h
  · cases h
  next hmarker =>
  obtain ⟨recipient, hrecipient, h⟩ := bind_eq_ok.mp h
  obtain ⟨made, hmade, h⟩ := bind_eq_ok.mp h
  obtain ⟨hsource, hkind, hrecipientEq, hwakeArg, -, -, hoccurred, -⟩ :=
    Event.make_ok (malformed_ok hmade)
  cases h
  refine ⟨hsource, ?_, ?_, hoccurred, ?_⟩
  · rw [Event.synthetic, hkind]
    rfl
  · rw [hwakeArg]
    simpa using hmarker
  · rw [hrecipientEq]
    exact (Recipient.make_ok (malformed_ok hrecipient)).1

end BasecradleRouter.Routes.Probe
