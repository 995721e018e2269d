/-
# The core's vocabulary: agents and events

A route turns one source's payload into an `Event`, "wake the agent this `Recipient` names,
with this argument", and the core resolves the recipient to an `Agent`.  What the source's
constructors check is a field here, so a value that exists is a value they accepted.  The
types rule the rest out: a `kind` is a kind, and an `occurredAt` is always aware.

An event carries two derived keys.  `dedupKey` names one delivery to one recipient, and
`streamKey` the stream the event belongs to (its issue's url, or its wake argument).
`dedupKey` joins three strings by `:` and so is injective only where the first two hold no
`:` (`dedupKey_inj`); the third may hold anything.
-/
import BasecradleRouter.Lib.Datetime
import BasecradleRouter.Lib.PyStr

namespace BasecradleRouter.Models

open BasecradleRouter.Lib

/-- What a normalized event asks the core to do. -/
inductive EventKind
  | handoff
  | platformEvent
  | syntheticProbe
  deriving DecidableEq, Repr

/-- How an agent's one harness instance is woken. -/
inductive WakeKind
  | claude
  | harness
  deriving DecidableEq, Repr

/-- `_require`: a string that is not blank. -/
abbrev Required (s : String) : Prop := PyStr.blank s = false

/-- `value.partition(sep)` without the separator: what stands before the first one, and what
stands after it. -/
def partition (sep : Char) (s : List Char) : List Char × List Char :=
  (s.takeWhile (· ≠ sep), (s.dropWhile (· ≠ sep)).drop 1)

/-- `_require_repo`: `owner/name`, with one slash and neither half empty. -/
def requireRepo (s : String) : Bool :=
  let (owner, name) := partition '/' s.toList
  !PyStr.blank s && !owner.isEmpty && !name.isEmpty && !name.contains '/'

/-- The issue an event originated from. -/
structure IssueRef where
  repo : String
  number : ℕ
  url : String
  title : String
  repo_ok : requireRepo repo = true
  number_pos : 0 < number
  url_ok : Required url
  title_ok : Required title
  deriving DecidableEq

/-- How the core resolves whom to wake: `tag` is the source's `by`, the index to look in, and
`value` the key within it. -/
structure Recipient where
  tag : String
  value : String
  tag_ok : Required tag
  value_ok : Required value
  deriving DecidableEq

/-- An agent the router can wake. -/
structure Agent where
  key : String
  osUser : String
  clonePath : String
  wakeKind : WakeKind
  botSlug : Option String
  recipientUuid : Option String
  wakeBin : Option String
  key_ok : Required key
  osUser_ok : Required osUser
  clonePath_ok : Required clonePath
  claude_ok : wakeKind = .claude → ∃ slug ∈ botSlug, Required slug
  harness_ok : wakeKind = .harness →
    (∃ bin ∈ wakeBin, Required bin) ∧ ∃ uuid ∈ recipientUuid, Required uuid
  deriving DecidableEq

/-- The identity every input for an agent is serialised on. -/
def Agent.harnessKey (a : Agent) : String := a.osUser

/-- A normalized event. -/
structure Event where
  source : String
  kind : EventKind
  recipient : Recipient
  wakeArg : String
  deliveryId : String
  origin : Option IssueRef
  occurredAt : Option Datetime
  eventType : Option String
  source_ok : Required source
  wakeArg_ok : Required wakeArg
  deliveryId_ok : Required deliveryId
  eventType_ok : ∀ t ∈ eventType, Required t

namespace Event

/-- A manufactured probe rather than real traffic. -/
def synthetic (e : Event) : Bool := e.kind == .syntheticProbe

/-- The key of this exact delivery: its source, its recipient and the source's own id. -/
def dedupKey (e : Event) : String := e.source ++ ":" ++ e.recipient.value ++ ":" ++ e.deliveryId

/-- The stream the event belongs to. -/
def streamKey (e : Event) : String :=
  match e.origin with
  | some issue => issue.url
  | none => e.wakeArg

end Event

/-! ## What the constructors refuse

Each constructor checks its fields in order and raises a `ValueError` that names the first bad
one.  `repr` is the interpreter's. -/

/-- `_require`'s text. -/
def mustBeNonEmpty (field : String) : String := field ++ " must be a non-empty string"

/-- `IssueRef(repo=…, number=…, url=…, title=…)` -/
def IssueRef.make (repr : String → String) (repo : String) (number : ℤ) (url title : String) :
    Except String IssueRef :=
  if PyStr.blank repo then .error (mustBeNonEmpty "IssueRef.repo")
  else if hrepo : requireRepo repo = true then
    if hnumber : 0 < number then
      if hurl : Required url then
        if htitle : Required title then
          .ok ⟨repo, number.toNat, url, title, hrepo, by omega, hurl, htitle⟩
        else .error (mustBeNonEmpty "IssueRef.title")
      else .error (mustBeNonEmpty "IssueRef.url")
    else .error ("IssueRef.number must be a positive int, got " ++ toString number)
  else .error ("IssueRef.repo must be 'owner/name', got " ++ repr repo)

/-- `Recipient(by=…, value=…)` -/
def Recipient.make (tag value : String) : Except String Recipient :=
  if htag : Required tag then
    if hvalue : Required value then .ok ⟨tag, value, htag, hvalue⟩
    else .error (mustBeNonEmpty "Recipient.value")
  else .error (mustBeNonEmpty "Recipient.by")

/-- `Event(source=…, …)` -/
def Event.make (source : String) (kind : EventKind) (recipient : Recipient) (wakeArg : String)
    (deliveryId : String) (origin : Option IssueRef) (occurredAt : Option Datetime)
    (eventType : Option String) : Except String Event :=
  if hsource : Required source then
    if hwakeArg : Required wakeArg then
      if hdeliveryId : Required deliveryId then
        if heventType : ∀ t ∈ eventType, Required t then
          .ok ⟨source, kind, recipient, wakeArg, deliveryId, origin, occurredAt, eventType,
            hsource, hwakeArg, hdeliveryId, heventType⟩
        else .error (mustBeNonEmpty "Event.event_type")
      else .error (mustBeNonEmpty "Event.delivery_id")
    else .error (mustBeNonEmpty "Event.wake_arg")
  else .error (mustBeNonEmpty "Event.source")

/-- An issue that was made is the one asked for. -/
theorem IssueRef.make_ok {repr : String → String} {repo : String} {number : ℤ} {url title : String}
    {ref : IssueRef} (h : IssueRef.make repr repo number url title = .ok ref) :
    ref.repo = repo ∧ (ref.number : ℤ) = number ∧ ref.url = url ∧ ref.title = title := by
  unfold IssueRef.make at h
  split at h
  · cases h
  split at h
  · split at h
    · split at h
      · split at h
        · cases h
          refine ⟨rfl, ?_, rfl, rfl⟩
          simp only [Int.ofNat_toNat]
          omega
        · cases h
      · cases h
    · cases h
  · cases h

/-- A recipient that was made is the one asked for. -/
theorem Recipient.make_ok {tag value : String} {recipient : Recipient}
    (h : Recipient.make tag value = .ok recipient) :
    recipient.tag = tag ∧ recipient.value = value := by
  unfold Recipient.make at h
  split at h
  · split at h
    · cases h
      exact ⟨rfl, rfl⟩
    · cases h
  · cases h

/-- An event that was made holds what it was made of. -/
theorem Event.make_ok {source : String} {kind : EventKind} {recipient : Recipient}
    {wakeArg deliveryId : String} {origin : Option IssueRef} {occurredAt : Option Datetime}
    {eventType : Option String} {event : Event}
    (h : Event.make source kind recipient wakeArg deliveryId origin occurredAt eventType =
      .ok event) :
    event.source = source ∧ event.kind = kind ∧ event.recipient = recipient ∧
      event.wakeArg = wakeArg ∧ event.deliveryId = deliveryId ∧ event.origin = origin ∧
      event.occurredAt = occurredAt ∧ event.eventType = eventType := by
  unfold Event.make at h
  split at h
  · split at h
    · split at h
      · split at h
        · cases h
          exact ⟨rfl, rfl, rfl, rfl, rfl, rfl, rfl, rfl⟩
        · cases h
      · cases h
    · cases h
  · cases h

/-! ## Sample values

Small accepted values, for the runs that show a hypothesis can be met. -/

/-- A builder agent that goes by one name throughout. -/
def Agent.builder (slug : String) (h : Required slug) : Agent where
  key := slug
  osUser := slug
  clonePath := slug
  wakeKind := .claude
  botSlug := some slug
  recipientUuid := none
  wakeBin := none
  key_ok := h
  osUser_ok := h
  clonePath_ok := h
  claude_ok _ := ⟨slug, rfl, h⟩
  harness_ok := nofun

theorem required_bob : Required "bob" := by decide

/-- A delivery for the agent `uuid` names, on the stream its wake argument names. -/
def Event.message (uuid delivery : String) (occurredAt : Option Datetime) (hu : Required uuid)
    (hd : Required delivery) : Event where
  source := "basecradle"
  kind := .platformEvent
  recipient := ⟨"recipient_uuid", uuid, by decide, hu⟩
  wakeArg := "timeline"
  deliveryId := delivery
  origin := none
  occurredAt := occurredAt
  eventType := none
  source_ok := by decide
  wakeArg_ok := by decide
  deliveryId_ok := hd
  eventType_ok := nofun

/-! ## The delivery key is injective -/

/-- A name that cannot run into the next part of a delivery key. -/
def Joinable (s : String) : Prop := ':' ∉ s.toList

instance (s : String) : Decidable (Joinable s) := inferInstanceAs (Decidable (¬ _))

/-- **Deliveries that differ in source, recipient or id have different keys**, whatever
characters the ids hold. -/
theorem dedupKey_inj {e e' : Event} (hs : Joinable e.source) (hs' : Joinable e'.source)
    (hr : Joinable e.recipient.value) (hr' : Joinable e'.recipient.value) :
    e.dedupKey = e'.dedupKey ↔
      e.source = e'.source ∧ e.recipient.value = e'.recipient.value ∧
        e.deliveryId = e'.deliveryId := by
  constructor
  · intro h
    have hl : e.source.toList ++ ':' :: (e.recipient.value.toList ++ ':' :: e.deliveryId.toList) =
        e'.source.toList ++ ':' :: (e'.recipient.value.toList ++ ':' :: e'.deliveryId.toList) := by
      simpa [Event.dedupKey] using congrArg String.toList h
    obtain ⟨h1, h2⟩ := PyStr.append_sep_inj hs hs' hl
    obtain ⟨h3, h4⟩ := PyStr.append_sep_inj hr hr' h2
    exact ⟨String.toList_inj.mp h1, String.toList_inj.mp h3, String.toList_inj.mp h4⟩
  · rintro ⟨h1, h2, h3⟩
    simp [Event.dedupKey, h1, h2, h3]

end BasecradleRouter.Models
