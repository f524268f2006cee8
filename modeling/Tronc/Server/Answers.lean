import Tronc.Iam.KeySet
import Tronc.Mcp.Headers
import Tronc.Mcp.Serialize
import Tronc.Record

namespace Tronc.Server

open Mcp (Crates HeaderMap HeaderValue toText)

/-- `http::StatusCode`. -/
abbrev StatusCode := {code : Nat // 100 ≤ code ∧ code < 1000}

namespace StatusCode

def OK : StatusCode := ⟨200, by decide⟩

def NOT_FOUND : StatusCode := ⟨404, by decide⟩

def TOO_MANY_REQUESTS : StatusCode := ⟨429, by decide⟩

def INTERNAL_SERVER_ERROR : StatusCode := ⟨500, by decide⟩

def BAD_GATEWAY : StatusCode := ⟨502, by decide⟩

def SERVICE_UNAVAILABLE : StatusCode := ⟨503, by decide⟩

def GATEWAY_TIMEOUT : StatusCode := ⟨504, by decide⟩

def isSuccess (status : StatusCode) : Bool := 200 ≤ status.1 && status.1 < 300

def isServerError (status : StatusCode) : Bool := 500 ≤ status.1 && status.1 < 600

end StatusCode

structure Response where
  status : StatusCode
  headers : HeaderMap
  body : List UInt8

/-- `HeaderMap::insert`: the value replaces any there are under the name. -/
def insertHeader (headers : HeaderMap) (name : String) (value : HeaderValue) : HeaderMap :=
  (headers.filter fun h => h.1 != name) ++ [(name, value)]

/-- `HeaderMap::get`: the first value under the name. -/
def getHeader (headers : HeaderMap) (name : String) : Option HeaderValue :=
  (headers.getAll name).head?

section Headers

variable {headers : HeaderMap} {name other : String} {value : HeaderValue}

theorem getHeader_insertHeader : getHeader (insertHeader headers name value) name = some value := by
  have hdropped : ((headers.filter fun h => h.1 != name).filter fun h => h.1 == name) = [] := by
    rw [List.filter_filter, List.filter_eq_nil_iff]
    intro h _
    simp
  unfold getHeader HeaderMap.getAll insertHeader
  rw [List.filter_append, hdropped]
  simp

/-- What stands under another name stays. -/
theorem getHeader_insertHeader_of_ne (h : other ≠ name) :
    getHeader (insertHeader headers name value) other = getHeader headers other := by
  have hkept : ((headers.filter fun h => h.1 != name).filter fun h => h.1 == other) =
      headers.filter fun h => h.1 == other := by
    rw [List.filter_filter]
    congr 1
    funext e
    by_cases he : e.1 = other
    · simp [he, h]
    · simp [he]
  unfold getHeader HeaderMap.getAll insertHeader
  rw [List.filter_append, hkept]
  simp [Ne.symm h]

end Headers

def RETRY_AFTER : String := "retry-after"

def RETRY_AFTER_SECS_FIELD : String := "retry_after_secs"

def SHED_REASON_FIELD : String := "reason"

section Answers

variable (crates : Crates)

/-- A status with a JSON body. -/
def jsonResponse (status : StatusCode) (body : Json) : Response :=
  ⟨status, [("content-type", .ofString "application/json")], Text.utf8 (toText crates body)⟩

def shedBody (marker reason : String) (retryAfterSecs : UInt64) : Json :=
  .object [("error", .string marker), (SHED_REASON_FIELD, .string reason),
    (RETRY_AFTER_SECS_FIELD, Record.u64 retryAfterSecs)]

def shedResponse (marker reason : String) (retryAfterSecs : UInt64) : Response :=
  let response := jsonResponse crates .SERVICE_UNAVAILABLE (shedBody marker reason retryAfterSecs)
  { response with
    headers := insertHeader response.headers RETRY_AFTER
      (.ofString (toString retryAfterSecs.toNat)) }

theorem shedResponse_body (marker reason : String) (wait : UInt64) :
    (shedResponse crates marker reason wait).body =
      Text.utf8 (toText crates (shedBody marker reason wait)) := by
  unfold shedResponse jsonResponse
  dsimp only

structure ErrorDetail where
  errorType : String
  message : String
  deriving DecidableEq

structure ErrorResponse where
  error : ErrorDetail
  deriving DecidableEq

def ErrorDetail.toValue (detail : ErrorDetail) : Json :=
  .object [("type", .string detail.errorType), ("message", .string detail.message)]

def ErrorDetail.fromValue : Json → Option ErrorDetail :=
  Record.read ["type", "message"] 2 fun field => do
    let errorType ← (field "type").bind Json.asStr
    let message ← (field "message").bind Json.asStr
    some ⟨errorType, message⟩

def ErrorResponse.toValue (response : ErrorResponse) : Json :=
  .object [("error", response.error.toValue)]

def ErrorResponse.fromValue : Json → Option ErrorResponse :=
  Record.read ["error"] 1 fun field => ((field "error").bind ErrorDetail.fromValue).map .mk

def failureResponse (status : StatusCode) (errorType message : String) : Response :=
  jsonResponse crates status (ErrorResponse.toValue ⟨⟨errorType, message⟩⟩)

theorem failureResponse_body (status : StatusCode) (errorType message : String) :
    (failureResponse crates status errorType message).body =
      Text.utf8 (toText crates (ErrorResponse.toValue ⟨⟨errorType, message⟩⟩)) := by
  unfold failureResponse jsonResponse
  dsimp only

def REQUEST_ID_HEADER : String := "x-request-id"

def HANDLER_PANIC : String := "handler_panic"

def REQUEST_TIMEOUT : String := "request_timeout"

def MAX_REQUEST_ID_LEN : Nat := 128

/-- Whether an id that a caller sends may be adopted. -/
def isUsableRequestId (id : String) : Bool :=
  id != "" && id.utf8ByteSize ≤ MAX_REQUEST_ID_LEN &&
    id.toList.all fun c => c.isAlphanum || c == '-' || c == '_' || c == '.' || c == ':'

/-- The caller's id if it may be adopted, and the one minted if not. -/
def requestIdOf (minted : String) (headers : HeaderMap) : String :=
  (((getHeader headers REQUEST_ID_HEADER).bind HeaderValue.toStr).filter isUsableRequestId).getD
    minted

/-- `HeaderValue::from_str`. -/
def headerValueOf (text : String) : Option HeaderValue :=
  if (Text.utf8 text).all fun b => (32 ≤ b && b != 127) || b == 9 then some (.ofString text)
  else none

def panicMessage (requestId : String) : String :=
  "The request handler failed. The service logged the failure under request id " ++ requestId ++ "."

/-- `guard_requests`: the handler's answer, or `none` where it panicked, under the request's id. -/
def guardRequests (minted : String) (requestHeaders : HeaderMap) (outcome : Option Response) :
    Response :=
  let requestId := requestIdOf minted requestHeaders
  let response := outcome.getD
    (failureResponse crates .INTERNAL_SERVER_ERROR HANDLER_PANIC (panicMessage requestId))
  match headerValueOf requestId with
  | some value =>
    { response with headers := insertHeader response.headers REQUEST_ID_HEADER value }
  | none => response

section Guard

variable (minted : String) (requestHeaders : HeaderMap) (response : Response)

/-- The guard puts the request's id on an answer and leaves the rest of it. -/
theorem guardRequests_some : ∃ headers,
    guardRequests crates minted requestHeaders (some response) = { response with headers } ∧
      ∀ name, name ≠ REQUEST_ID_HEADER →
        getHeader headers name = getHeader response.headers name := by
  unfold guardRequests
  dsimp only [Option.getD_some]
  cases headerValueOf (requestIdOf minted requestHeaders) with
  | none => exact ⟨response.headers, rfl, fun name h => rfl⟩
  | some value => exact ⟨_, rfl, fun name h => getHeader_insertHeader_of_ne h⟩

/-- A panic is answered as a handler's own failure would be. -/
theorem guardRequests_none : guardRequests crates minted requestHeaders none =
    guardRequests crates minted requestHeaders (some (failureResponse crates .INTERNAL_SERVER_ERROR
      HANDLER_PANIC (panicMessage (requestIdOf minted requestHeaders)))) := rfl

end Guard

def deadlineMessage (deadline : Nat) : String :=
  "The request did not complete within " ++ Iam.durationDebug deadline ++ "."

/-- `enforce_deadline`: the handler's answer, or `none` where it ran past the deadline. -/
def enforceDeadline (deadline : Nat) (answer : Option Response) : Response :=
  answer.getD (failureResponse crates .GATEWAY_TIMEOUT REQUEST_TIMEOUT (deadlineMessage deadline))

theorem enforceDeadline_none (deadline : Nat) : enforceDeadline crates deadline none =
    failureResponse crates .GATEWAY_TIMEOUT REQUEST_TIMEOUT (deadlineMessage deadline) := rfl

end Answers

end Tronc.Server
