import Tronc.Mcp.Modern
import Tronc.Mcp.Serialize
import Tronc.Mcp.TraceContext

namespace Tronc.Mcp

def TOOLS_CALL : String := "tools/call"

def PROMPTS_GET : String := "prompts/get"

/-- Where the HTTP transport leaves the revision its header named. -/
def PROTOCOL_VERSION_METADATA : String := "mcp-protocol-version"

def SESSION_ID_HEADER : String := "mcp-session-id"

/-- The byte limit of a captured payload, by default. -/
def DEFAULT_MAX_PAYLOAD_BYTES : Nat := 4096

def TRUNCATION_MARKER : String := "…(truncated)"

inductive OmissionReason where
  /-- The host's redactor kept nothing. -/
  | redacted
  /-- The limit has no room for the marker. -/
  | limitTooSmall
  deriving DecidableEq

/-- A payload as an observer receives it. -/
inductive CapturedPayload where
  | json (text : String)
  | omitted (reason : OmissionReason)
  deriving DecidableEq

inductive PayloadKind where
  | arguments
  | result
  deriving DecidableEq

structure PayloadSite where
  method : String
  target : Option String
  kind : PayloadKind

/-- Which payloads observers may see, and how much of each. -/
structure PayloadCapturePolicy where
  requestArguments : Bool
  responseContent : Bool
  maxBytes : Nat
  redactor : Option (PayloadSite → Json → Option Json)

/-- `PayloadCapturePolicy::disabled`. -/
def PayloadCapturePolicy.disabled : PayloadCapturePolicy :=
  ⟨false, false, DEFAULT_MAX_PAYLOAD_BYTES, none⟩

/-- The characters that fit in so many bytes: `floor_char_boundary`. -/
def fitting : Nat → List Char → List Char
  | _, [] => []
  | budget, c :: rest => if c.utf8Size ≤ budget then c :: fitting (budget - c.utf8Size) rest else []

def truncateUtf8 (json : String) (maxBytes : Nat) : CapturedPayload :=
  if json.utf8ByteSize ≤ maxBytes then .json json
  else if TRUNCATION_MARKER.utf8ByteSize ≤ maxBytes then
    .json (.ofList (fitting (maxBytes - TRUNCATION_MARKER.utf8ByteSize) json.toList) ++
      TRUNCATION_MARKER)
  else .omitted .limitTooSmall

/-- `PayloadCapturePolicy::capture`. A value always has a text. -/
def PayloadCapturePolicy.capture (policy : PayloadCapturePolicy) (crates : Crates)
    (site : PayloadSite) (payload : Json) : CapturedPayload :=
  match policy.redactor with
  | none => truncateUtf8 (toText crates payload) policy.maxBytes
  | some redact =>
    match redact site payload with
    | none => .omitted .redacted
    | some kept => truncateUtf8 (toText crates kept) policy.maxBytes

/-- What a dispatched message says about itself. -/
structure OperationInfo where
  method : String
  requestId : Option Json
  target : Option String
  protocolVersion : Option String
  sessionId : Option String
  traceContext : Option TraceContext
  arguments : Option CapturedPayload
  deriving DecidableEq

def isProtocolVersionShaped (version : String) : Bool :=
  let bytes := Text.utf8 version
  bytes.length == 10 && bytes.zipIdx.all fun (b, i) =>
    if i = 4 ∨ i = 7 then b == 45 else 48 ≤ b && b ≤ 57

namespace OperationInfo

/-- `OperationInfo::of`. -/
def ofRequest (crates : Crates) (policy : PayloadCapturePolicy) (request : JsonRpcRequest) :
    OperationInfo :=
  let target :=
    if request.method = TOOLS_CALL ∨ request.method = PROMPTS_GET then
      (request.params.bind (Json.get · "name")).bind Json.asStr
    else none
  let declared := ((request.params.bind (Json.get · "_meta")).bind
    (Json.get · meta_keys.PROTOCOL_VERSION)).bind Json.asStr
  { method := request.method
    requestId := request.id
    target := target
    protocolVersion := (declared.or (request.getMetadata PROTOCOL_VERSION_METADATA)).filter
      isProtocolVersionShaped
    sessionId := (request.headers.bind (AList.lookup SESSION_ID_HEADER)).bind Json.asStr
    traceContext := TraceContext.fromMeta request.params
    arguments :=
      if policy.requestArguments ∧ request.method = TOOLS_CALL then
        some (policy.capture crates ⟨request.method, target, .arguments⟩
          ((request.params.bind (Json.get · "arguments")).getD (.object [])))
      else none }

def isToolCall (info : OperationInfo) : Bool := info.method == TOOLS_CALL

end OperationInfo

/-- How a dispatched operation ended. -/
inductive OperationOutcome where
  | completed (result : Option CapturedPayload)
  | toolError (result : Option CapturedPayload)
  | taskCreated
  | failed (code : Int) (message : String)
  /-- A notification, accepted with no response. -/
  | notificationAccepted
  /-- The dispatch was dropped before it answered. -/
  | cancelled
  deriving DecidableEq

/-- `OperationOutcome::of`: what dispatch answered, classified. -/
def OperationOutcome.ofResponse (crates : Crates) (policy : PayloadCapturePolicy)
    (info : OperationInfo) : Option JsonRpcResponse → OperationOutcome
  | none => .notificationAccepted
  | some response =>
    match response.error with
    | some error => .failed error.code error.message
    | none =>
      if !info.isToolCall then .completed none
      else if (response.result.bind (Json.get · "resultType")).bind Json.asStr = some "task" then
        .taskCreated
      else
        let captured :=
          if policy.responseContent then
            some (policy.capture crates ⟨info.method, info.target, .result⟩
              (response.result.getD .null))
          else none
        if response.result.bind (Json.get · "isError") = some (.bool true) then .toolError captured
        else .completed captured

/-- One observed operation between start and complete. -/
structure Pending where
  info : OperationInfo
  completed : Bool
  deriving DecidableEq

/-- What an observer is told. -/
inductive Observed where
  | start (info : OperationInfo)
  | complete (info : OperationInfo) (outcome : OperationOutcome)
  deriving DecidableEq

namespace Pending

def complete (pending : Pending) (outcome : OperationOutcome) : Pending × List Observed :=
  ({ pending with completed := true }, [.complete pending.info outcome])

def drop (pending : Pending) : List Observed :=
  if pending.completed then [] else (pending.complete .cancelled).2

end Pending

/-- The end of `observe`, once dispatch has answered. -/
def Pending.finish (pending : Pending) (crates : Crates) (policy : PayloadCapturePolicy)
    (response : Option JsonRpcResponse) : List Observed :=
  let (completed, told) := pending.complete (.ofResponse crates policy pending.info response)
  told ++ completed.drop

theorem utf8ByteSize_fitting (budget : Nat) (l : List Char) :
    (String.ofList (fitting budget l)).utf8ByteSize ≤ budget := by
  induction l generalizing budget with
  | nil => simp [fitting]
  | cons c l ih =>
    unfold fitting
    split
    · have hrest := ih (budget - c.utf8Size)
      rw [String.ofList_cons, String.utf8ByteSize_append, String.utf8ByteSize_singleton]
      omega
    · simp

/-- Whatever is captured is within the limit. -/
theorem capture_within (policy : PayloadCapturePolicy) (crates : Crates) (site : PayloadSite)
    (payload : Json) (text : String) (h : policy.capture crates site payload = .json text) :
    text.utf8ByteSize ≤ policy.maxBytes := by
  have cut (json : String) (hcut : truncateUtf8 json policy.maxBytes = .json text) :
      text.utf8ByteSize ≤ policy.maxBytes := by
    unfold truncateUtf8 at hcut
    split at hcut
    · rename_i hle
      obtain rfl := CapturedPayload.json.inj hcut
      exact hle
    · split at hcut
      · rename_i hle
        obtain rfl := CapturedPayload.json.inj hcut
        have hfit := utf8ByteSize_fitting (policy.maxBytes - TRUNCATION_MARKER.utf8ByteSize)
          json.toList
        rw [String.utf8ByteSize_append]
        omega
      · cases hcut
  unfold PayloadCapturePolicy.capture at h
  split at h
  · exact cut _ h
  · split at h
    · cases h
    · exact cut _ h

/-- A response is never taken for a notification's silence, nor for a dropped dispatch. -/
theorem ofResponse_some (crates : Crates) (policy : PayloadCapturePolicy) (info : OperationInfo)
    (response : JsonRpcResponse) :
    OperationOutcome.ofResponse crates policy info (some response) ≠ .notificationAccepted ∧
    OperationOutcome.ofResponse crates policy info (some response) ≠ .cancelled := by
  unfold OperationOutcome.ofResponse
  dsimp only
  split
  · simp
  · split
    · simp
    · split
      · simp
      · split <;> simp

end Tronc.Mcp
