/-
# The webhook front end

`WebhookServer.__call__` for one `http` scope.  A webhook's body is read to its end, whatever chunks
it comes in; its headers keep the first value of a name; `Pipeline.accept` has the request, and what
it left is answered: 202 where there is a wake to run, and otherwise the status of how the request
ended.  Everything else is answered without the pipeline.

`respond` is that, with what is sent back; `none` while the body is still to come.
-/
import BasecradleRouter.Lib.JsonLayout
import BasecradleRouter.Pipeline.Accept

namespace BasecradleRouter.Server

open BasecradleRouter.Lib BasecradleRouter.Models BasecradleRouter.Routes BasecradleRouter.Pipeline
open BasecradleRouter.Evidence

/-! ## 1. What comes in and what is sent -/

/-- An `http` scope; a header's name and value are bytes. -/
structure Scope where
  method : String
  path : String
  headers : List (List UInt8 × List UInt8)

/-- What `receive` returns. -/
inductive Received
  /-- `http.request`; both keys may be missing -/
  | request (body : Option (List UInt8)) (moreBody : Option Bool)
  /-- `http.disconnect` -/
  | disconnect
  | other (type : String)

/-- What `send` is given. -/
inductive Sent
  /-- `http.response.start` -/
  | start (status : ℕ) (contentType : String)
  /-- `http.response.body` -/
  | body (payload : List UInt8)
  deriving DecidableEq

/-- `text.encode("utf-8")` -/
def encode (text : List Char) : List UInt8 := text.flatMap String.utf8EncodeChar

/-- `WEBHOOK_PREFIX` -/
def webhookStem : String := "/webhooks/"

/-- `LIVENESS_PATH` -/
def livenessPath : String := "/up"

/-- `LIVENESS_BODY` -/
def livenessBody : List UInt8 :=
  encode ("<!DOCTYPE html><html><body style=\"background-color: green\"></body></html>".toList)

/-- `_send_liveness` -/
def sendLiveness : List Sent := [.start 200 "text/html; charset=utf-8", .body livenessBody]

/-- `_send` -/
def send (status : ℕ) (body : Json) : List Sent :=
  [.start status "application/json",
    .body (encode (JsonLayout.write .spaced JsonString.escape 0 body))]

/-- `{"error": text}` -/
def errorBody (text : String) : Json := .obj [("error", .str text)]

/-- `_summary` -/
def summary (result : PipelineResult) : Json := .obj [
  ("outcome", .str ((result.terminal.map Outcome.value).getD "none")),
  ("stages", .arr (result.stages.map fun (stage, outcome) =>
    .arr [.str stage.value, .str outcome.value]))]

/-! ## 2. Reading a request -/

/-- `_read_body`, from what `receive` returns; `none` while there is more to come. -/
def readBody : List Received → Option (List UInt8)
  | [] => none
  | .request body moreBody :: rest =>
    if moreBody.getD false then (readBody rest).map (body.getD [] ++ ·) else some (body.getD [])
  | .disconnect :: _ => some []
  | .other _ :: rest => readBody rest

/-- `text.decode("latin-1")` -/
def latin1 (text : List UInt8) : String := String.ofList (text.map fun b => Char.ofNat b.toNat)

/-- `headers.setdefault(name, value)` -/
def setDefault (headers : List (String × String)) (header : String × String) :
    List (String × String) :=
  if headers.any (·.1 = header.1) then headers else headers ++ [header]

/-- A header, decoded. -/
def decoded (header : List UInt8 × List UInt8) : String × String :=
  (latin1 header.1, latin1 header.2)

/-- `_headers` -/
def headers (scope : Scope) : List (String × String) :=
  (scope.headers.map decoded).foldl setDefault []

/-- `text.strip("/")` -/
def stripSlashes (text : List Char) : List Char :=
  ((text.dropWhile (· = '/')).reverse.dropWhile (· = '/')).reverse

/-- Where a request goes. -/
inductive Target
  | liveness
  | notFound
  | noRoute
  | webhook (source : String)
  deriving DecidableEq

/-- The tests of `__call__` on the scope; `stem` is the server's `prefix`. -/
def target (stem : String) (scope : Scope) : Target :=
  if scope.method = "GET" ∧ scope.path = livenessPath then .liveness
  else if scope.method ≠ "POST" ∨ !stem.toList.isPrefixOf scope.path.toList then .notFound
  else
    let source := stripSlashes (scope.path.toList.drop stem.toList.length)
    if source = [] ∨ '/' ∈ source then .noRoute else .webhook (String.ofList source)

/-! ## 3. `__call__` -/

/-- What one call sends, and what it left of the core: what the routes hold, the calls to the
evidence, the wake to be spawned, and the result that goes with it. -/
structure Served (σ : Type) where
  sent : List Sent
  object : σ
  calls : List Timed
  pending : Option (Agent × Event)
  result : PipelineResult

variable {σ : Type}

/-- A call that does not reach the pipeline. -/
def aside (object : σ) (sent : List Sent) : Served σ := ⟨sent, object, [], none, .new⟩

/-- The call of a webhook whose body has been read. -/
def webhook (core : Core σ) (source : String) (request : InboundRequest) (f : Flushes)
    (object : σ) : Served σ :=
  let ended := (core.accept source request f).run (.enter object)
  let pending := ended.1.toOption.join
  { sent := send (if pending.isSome then 202 else statusFor ended.2.result)
      (summary ended.2.result)
    object := ended.2.object
    calls := ended.2.calls
    pending := pending
    result := ended.2.result }

/-- `__call__` of an `http` scope. -/
def respond (core : Core σ) (stem : String) (scope : Scope) (received : List Received)
    (f : Flushes) (object : σ) : Option (Served σ) :=
  match target stem scope with
  | .liveness => some (aside object sendLiveness)
  | .notFound => some (aside object (send 404 (errorBody "not found")))
  | .noRoute => some (aside object (send 404 (errorBody "no route in path")))
  | .webhook source => (readBody received).map fun body =>
    webhook core source ⟨headers scope, body⟩ f object

end BasecradleRouter.Server
