import Tronc.Mcp.Mirror
import Tronc.Mcp.Modern

namespace Tronc.Mcp

def MCP_SESSION_ID_HEADER : String := "mcp-session-id"

/-- Revisions of the `initialize` era that are accepted in a header, and never negotiated. -/
def EARLIER_LEGACY_REVISIONS : List String := ["2025-06-18", "2025-03-26"]

def defaultSupportedVersions : List String := [PROTOCOL_VERSION_2026_07_28, PROTOCOL_VERSION]

section Versions

variable (supported : List String)

/-- Whether a server that advertises `supported` speaks the revision. -/
def supportsVersion (version : String) : Bool := supported.contains version

def acceptsProtocolVersion (version : String) : Bool :=
  supportsVersion supported version ||
    (supportsVersion supported PROTOCOL_VERSION && EARLIER_LEGACY_REVISIONS.contains version)

def unsupportedVersionError (id : Option Json) (requested : String) : JsonRpcResponse :=
  .failureWithData id ErrorCode.unsupportedProtocolVersion "Unsupported protocol version"
    (.object [("supported", .array (supported.map .string)), ("requested", .string requested)])

end Versions

/-- Why a request is answered before it is dispatched. -/
inductive Refusal (AuthError : Type) where
  | answered (status : Nat) (response : JsonRpcResponse)
  /-- The host's hook refused the caller. -/
  | unauthenticated (refusal : AuthError)

/-- The session store, as a transport uses it: a live session of the caller, or a new one. -/
structure HttpSessions (Ctx Session : Type) where
  enter : String → Ctx → Option Session
  mint : Ctx → Option Session

/-- What `serve_request` asks of the server and of its host. -/
structure HttpServer (Ctx Session AuthError : Type) where
  supportedVersions : List String
  authenticate : JsonRpcRequest → Except AuthError Ctx
  sessions : Option (HttpSessions Ctx Session)

/-- A request that reached dispatch, and what the transport made of it. -/
structure Dispatched (Ctx Session : Type) where
  request : JsonRpcRequest
  modern : Bool
  ctx : Ctx
  session : Option Session

section Transport

variable {Ctx Session AuthError : Type}

/-- The credential of an `Authorization` value under the `Bearer` scheme. -/
def bearerCredential (headerValue : String) : Option String :=
  match headerValue.toList.dropWhile (· != ' ') with
  | [] => none
  | _ :: rest =>
    let scheme := headerValue.toList.takeWhile (· != ' ')
    let credential := rest.dropWhile (· == ' ')
    if scheme.map Text.asciiLowerChar ≠ "bearer".toList then none
    else if credential.isEmpty then none
    else some (.ofList credential)

def bearerToken (headers : HeaderMap) : Option String := do
  let value ← (headers.getAll "authorization").head?
  let text ← value.toStr
  bearerCredential text

def headerMismatch (id : Option Json) (reason : String) : Refusal AuthError :=
  .answered 400 (.failure id ErrorCode.headerMismatch reason)

/-- The request's `MCP-Protocol-Version`, trimmed. -/
def protocolVersionHeader (headers : HeaderMap) : Except String (Option String) :=
  match headers.getAll PROTOCOL_VERSION_HEADER with
  | [] => .ok none
  | [value] =>
    match value.toStr with
    | some version => .ok (some (Text.trim version))
    | none => .error (charactersReason "MCP-Protocol-Version")
  | _ => .error (repeatedReason "MCP-Protocol-Version")

def acceptedProtocolVersion (supported : List String) (headers : HeaderMap) (id : Option Json) :
    Except (Refusal AuthError) (Option String) :=
  match protocolVersionHeader headers with
  | .error reason => .error (headerMismatch id reason)
  | .ok none => .ok none
  | .ok (some version) =>
    if acceptsProtocolVersion supported version then .ok (some version)
    else .error (.answered 400 (unsupportedVersionError supported id version))

/-- The request under the revision its header names. -/
def withRevision (request : JsonRpcRequest) :
    Option String → Except (Refusal AuthError) JsonRpcRequest
  | some version => .ok (request.withMetadata PROTOCOL_VERSION_HEADER version)
  | none =>
    if request.id.isSome ∧ ModernRequestMeta.fromParams request.params ≠ .legacy then
      .error (headerMismatch request.id "Header mismatch: MCP-Protocol-Version header is required")
    else .ok request

def sessionIdHeader (headers : HeaderMap) (id : Option Json) :
    Except (Refusal AuthError) (Option String) :=
  let refusal := .answered 400 (.failure id ErrorCode.invalidRequest
    "Mcp-Session-Id must be one visible-ASCII value")
  match headers.getAll MCP_SESSION_ID_HEADER with
  | [] => .ok none
  | [value] =>
    match value.toStr with
    | some sessionId => .ok (some (Text.trim sessionId))
    | none => .error refusal
  | _ => .error refusal

/-- The session a request says it goes on in. A handshake says none, and neither does a request to a
server that keeps no sessions. -/
def namedSession (sessions : Option (HttpSessions Ctx Session)) (headers : HeaderMap)
    (request : JsonRpcRequest) : Except (Refusal AuthError) (Option String) :=
  if sessions.isSome ∧ request.method ≠ "initialize" then sessionIdHeader headers request.id
  else .ok none

/-- The session a request is served in: a handshake starts one, any other request names its own. -/
def enterSession (sessions : Option (HttpSessions Ctx Session)) (request : JsonRpcRequest)
    (ctx : Ctx) (sessionId : Option String) : Except (Refusal AuthError) (Option Session) :=
  match sessions with
  | none => .ok none
  | some store =>
    if request.method = "initialize" then
      match store.mint ctx with
      | some minted => .ok (some minted)
      | none => .error (.answered 500 (.failure none ErrorCode.internalError
          "Could not start a session"))
    else
      match sessionId with
      | none => .ok none
      | some sessionId =>
        match store.enter sessionId ctx with
        | some session => .ok (some session)
        | none => .error (.answered 404 (.failure request.id ErrorCode.invalidRequest
            "Session not found: initialize a new session"))

/-- The second half of `serve_request`: the session and the caller. A modern request has no
session. -/
def serveCaller (server : HttpServer Ctx Session AuthError) (headers : HeaderMap)
    (request : JsonRpcRequest) (modern : Bool) :
    Except (Refusal AuthError) (Dispatched Ctx Session) := do
  let sessions := server.sessions.filter fun _ => !modern
  let sessionId ← namedSession sessions headers request
  let ctx ← (server.authenticate request).mapError .unauthenticated
  let session ← enterSession sessions request ctx sessionId
  return ⟨request, modern, ctx, session⟩

/-- `serve_request`, up to the dispatch. -/
def serveRequest (crates : Crates) (server : HttpServer Ctx Session AuthError)
    (headers : HeaderMap) (request : JsonRpcRequest) :
    Except (Refusal AuthError) (Dispatched Ctx Session) := do
  let request :=
    { request with authToken := bearerToken headers, headers := forwardedHeaders headers }
  let version ← acceptedProtocolVersion server.supportedVersions headers request.id
  let request ← withRevision request version
  let modern := version.any isModernRevision
  (checkStandardHeaders crates headers request modern).mapError (headerMismatch request.id)
  serveCaller server headers request modern

end Transport

/-- How `route` has a request processed. -/
inductive Processing where
  | modern (requestMeta : ModernRequestMeta)
  | legacy

/-- The server's route, up to `process_modern` and `process_legacy`. -/
def route (request : JsonRpcRequest) : Except JsonRpcResponse Processing :=
  match ModernRequestMeta.detect (request.getMetadata PROTOCOL_VERSION_HEADER) request.params with
  | .malformed reason => .error (.failure request.id ErrorCode.invalidParams reason)
  | .headerMismatch reason => .error (.failure request.id ErrorCode.headerMismatch reason)
  | .modern requestMeta => .ok (.modern requestMeta)
  | .legacy => .ok .legacy

/-- How `dispatch` has a request processed: it answers another JSON-RPC version itself, and no
notification. -/
def dispatch (request : JsonRpcRequest) : Option Processing :=
  if request.jsonrpc = JSONRPC_VERSION ∧ request.id.isSome then (route request).toOption else none

end Tronc.Mcp
