import Tronc.Mcp.Message
import Tronc.Notify.Render
import Tronc.Server.Answers

namespace Tronc.ServiceClient

open Mcp (HeaderMap HeaderValue Serde)
open Server

/-- The wait of a shed that names none. -/
def DEFAULT_SHED_RETRY_AFTER_SECS : UInt64 := 30

/-- One attempt, as both sides logged it. -/
structure Exchange where
  service : String
  operation : String
  requestId : String
  elapsed : Nat
  resent : Bool
  deriving DecidableEq

/-- An answer of the service's own handler, with any status. -/
structure ServiceResponse where
  exchange : Exchange
  status : StatusCode
  headers : HeaderMap
  body : List UInt8
  deriving DecidableEq

/-- Why a request that started was not finished. -/
inductive Unfinished where
  | serviceDeadline
  | gatewayDeadline
  | badGateway
  | handlerPanic
  deriving DecidableEq

/-- What a call fails with once its response has begun to arrive. -/
inductive ServiceError where
  | shed (exchange : Exchange) (status : StatusCode) (retryAfterSecs : UInt64)
      (reason : Option String)
  | unfinished (exchange : Exchange) (status : StatusCode) (kind : Unfinished)
      (detail : Option String)
  /-- The body did not arrive. -/
  | body (exchange : Exchange) (status : StatusCode) (cause : String)
  deriving DecidableEq

/-- `serde_json::from_slice`. -/
def fromSlice (serde : Serde) (body : List UInt8) : Option Json :=
  (Text.fromUtf8 body).bind fun text => (serde.fromStr text).toOption

/-- The `Retry-After` header as whole seconds. -/
def headerWait (headers : HeaderMap) : Option UInt64 :=
  ((getHeader headers RETRY_AFTER).bind HeaderValue.toStr).bind fun text =>
    (Notify.parseU64 (Text.trim text)).map .ofNat

/-- Whether a status, with the guard's answer when the body was one, says that the request was
started and not finished. -/
def unfinishedKind (status : StatusCode) (guard : Option ErrorResponse) : Option Unfinished :=
  let guardType := guard.map fun guard => guard.error.errorType
  if status = .GATEWAY_TIMEOUT ∧ guardType = some REQUEST_TIMEOUT then some .serviceDeadline
  else if status = .GATEWAY_TIMEOUT then some .gatewayDeadline
  else if status = .BAD_GATEWAY then some .badGateway
  else if status = .INTERNAL_SERVER_ERROR ∧ guardType = some HANDLER_PANIC then some .handlerPanic
  else none

/-- Sort a response into the service's own answer, a shed, or a request that was not finished. -/
def classify (serde : Serde) (exchange : Exchange) (status : StatusCode) (headers : HeaderMap)
    (body : List UInt8) : Except ServiceError ServiceResponse :=
  if !status.isSuccess then
    let json := fromSlice serde body
    let namedWait := (json.bind (Json.get · RETRY_AFTER_SECS_FIELD)).bind Record.readU64
    if status = .SERVICE_UNAVAILABLE ∨ namedWait.isSome then
      let retryAfterSecs := (namedWait.or (headerWait headers)).getD DEFAULT_SHED_RETRY_AFTER_SECS
      let reason := (json.bind (Json.get · SHED_REASON_FIELD)).bind Json.asStr
      .error (.shed exchange status retryAfterSecs reason)
    else
      let guard := json.bind ErrorResponse.fromValue
      match unfinishedKind status guard with
      | some kind =>
        .error (.unfinished exchange status kind (guard.map fun guard => guard.error.message))
      | none => .ok ⟨exchange, status, headers, body⟩
  else .ok ⟨exchange, status, headers, body⟩

/-- The end of an attempt, once its status and headers have arrived: the body, or why it did not. -/
def readResponse (serde : Serde) (exchange : Exchange) (status : StatusCode) (headers : HeaderMap) :
    Except String (List UInt8) → Except ServiceError ServiceResponse
  | .ok body => classify serde exchange status headers body
  | .error cause =>
    match classify serde exchange status headers [] with
    | .error failure => .error failure
    | .ok _ => .error (.body exchange status cause)

end Tronc.ServiceClient
