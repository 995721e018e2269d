/-
# What every route shares

A route reads an `InboundRequest`, the raw body and its headers, and answers with an event, with
nothing, or with an exception.  `Raised` lists the exceptions: the two a route declares
(`PayloadError`, `UntrustedSenderError`) and those Python raises underneath it, which it does not
catch.  `deliveryDecision` is the one line that records what was decided about a delivery.

`verifyHmacSha256` is the signature check of every route that signs with HMAC: it accepts exactly a
header that holds the body's digest under the key (`verifyHmacSha256_ok`).
-/
import BasecradleRouter.Lib.Runtime
import BasecradleRouter.Logfmt

namespace BasecradleRouter.Routes

open BasecradleRouter.Lib BasecradleRouter.Logfmt

/-- What reading a request raises. -/
inductive Raised
  /-- `PayloadError` -/
  | payload (text : String)
  /-- `UntrustedSenderError` -/
  | untrusted (text : String)
  | typeError (text : String)
  | valueError (text : String)
  /-- What `json.loads` raised beside a `JSONDecodeError`. -/
  | loads (name : String)
  deriving DecidableEq, Repr

/-- A transport-neutral inbound webhook; its headers in the mapping's own order. -/
structure InboundRequest where
  headers : List (String × String)
  body : List UInt8

/-- `request.header(name)`: the first header of that name, whatever its case. -/
def InboundRequest.header (py : Runtime) (request : InboundRequest) (name : String) :
    Option String :=
  (request.headers.find? fun h => py.lower h.1 == py.lower name).map Prod.snd

/-- `HMAC_SHA256_PREFIX` -/
def hmacSha256Prefix : String := "sha256="

/-- `verify_hmac_sha256`, raising a `SignatureError` with its text; `hmac` is the hex digest of a
body under a key. -/
def verifyHmacSha256 (py : Runtime) (hmac : String → List UInt8 → String)
    (request : InboundRequest) (secret : Option String) (header : String) : Except String Unit :=
  match secret with
  | none => .error ("no signing key is configured to verify " ++ header)
  | some key =>
    match request.header py header with
    | none => .error ("missing " ++ header ++ " header")
    | some provided =>
      if !hmacSha256Prefix.toList.isPrefixOf provided.toList then
        .error ("malformed " ++ header ++ ": expected '" ++ hmacSha256Prefix ++ "<hexdigest>'")
      else if provided = hmacSha256Prefix ++ hmac key request.body then .ok ()
      else .error (header ++ " does not match the request body")

/-- **What verifies**: the header that holds the digest of the body under the key. -/
theorem verifyHmacSha256_ok {py : Runtime} {hmac : String → List UInt8 → String}
    {request : InboundRequest} {secret : Option String} {header : String} :
    verifyHmacSha256 py hmac request secret header = .ok () ↔
      ∃ key, secret = some key ∧
        request.header py header = some (hmacSha256Prefix ++ hmac key request.body) := by
  unfold verifyHmacSha256
  cases secret with
  | none => simp
  | some key =>
    cases request.header py header with
    | none => simp
    | some provided =>
      simp only [Option.some.injEq, exists_eq_left']
      by_cases h : provided = hmacSha256Prefix ++ hmac key request.body
      · have hstart : hmacSha256Prefix.toList.isPrefixOf provided.toList = true := by
          rw [h, List.isPrefixOf_iff_prefix, String.toList_append]
          exact List.prefix_append _ _
        rw [hstart, if_neg (by decide), if_pos h]
        exact iff_of_true rfl h
      · rw [if_neg h]
        split
        · exact iff_of_false nofun h
        · exact iff_of_false nofun h

/-- `parse_json_object` -/
def parseJsonObject (py : Runtime) (body : List UInt8) : Except Raised Fields :=
  match py.loads body with
  | .error (.decode message) => .error (.payload ("body is not valid JSON: " ++ message))
  | .error (.other name) => .error (.loads name)
  | .ok (.obj fields) => .ok fields
  | .ok _ => .error (.payload "webhook body must be a JSON object")

/-- `value[:-1] + "+00:00" if value.endswith("Z") else value` -/
def spellOutZ (value : String) : String :=
  if value.toList.getLast? = some 'Z' then String.ofList value.toList.dropLast ++ "+00:00"
  else value

/-- `parse_timestamp`: an aware time, or nothing. -/
def parseTimestamp (py : Runtime) (value : Json) : Option Datetime :=
  match value.asStr with
  | none => none
  | some text =>
    if text = "" then none
    else
      match py.fromisoformat (spellOutZ text) with
      | some (.aware d) => some d
      | _ => none

/-- What the router decided to do with one verified delivery. -/
inductive DeliveryDecision
  | woke
  | ignored
  | coalesced
  | dropped
  deriving DecidableEq, Repr

/-- The value the enumeration gives a decision. -/
def DeliveryDecision.value : DeliveryDecision → String
  | woke => "woke"
  | ignored => "ignored"
  | coalesced => "coalesced"
  | dropped => "dropped"

/-- `text or default` -/
def orElse (text : Option String) (default : String) : String :=
  match text with
  | none => default
  | some s => if s = "" then default else s

/-- The line `log_delivery_decision` emits. -/
def deliveryDecision (source : String) (eventType : Option String) (decision : DeliveryDecision)
    (recipient delivery : Option String) (detail : List (String × Value)) : String :=
  "event=delivery_decision " ++ logFields ([
    ("source", .str source),
    ("event_type", .str (orElse eventType "<none>")),
    ("decision", .str decision.value),
    ("recipient", .str (orElse recipient "<unknown>")),
    ("delivery", .str (orElse delivery "<unknown>"))] ++ detail)

end BasecradleRouter.Routes
