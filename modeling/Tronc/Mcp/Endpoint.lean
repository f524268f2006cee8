import Tronc.Mcp.Accept
import Tronc.Mcp.Auth
import Tronc.Mcp.Caller
import Tronc.Mcp.Message

namespace Tronc.Mcp

open HttpClient (IpAddr eqIgnoreAsciiCase)
open Sessions (Session SessionStore)

def ORIGIN : String := "origin"

def HOST : String := "host"

def CONTENT_TYPE : String := "content-type"

/-- A request's body, as far as it can be read. -/
inductive Body where
  | text (raw : String)
  /-- Over the limit. -/
  | tooLarge
  | unreadable (status : Nat) (text : String)

structure HttpRequest where
  /-- The authority of an absolute target, as HTTP/2 has it. -/
  target : Option String
  headers : HeaderMap
  body : Body

/-- Whether the request's `Origin` passes the list; one that cannot be read is an empty one. -/
def originAllowed (headers : HeaderMap) (allowed : List String) : Bool :=
  isOriginAllowed ((Server.getHeader headers ORIGIN).map fun value => value.toStr.getD "") allowed

/-- The status and the text of a refusal of the request's authority. -/
abbrev HostRefusal := Nat × String

def HOST_NOT_ALLOWED : HostRefusal := (403, "Host not allowed")

/-- The authority a request targets: its `Host`, or else its target's. -/
def requestAuthority (headers : HeaderMap) (target : Option String) :
    Except HostRefusal (Option String) :=
  match headers.getAll HOST with
  | [] => .ok target
  | [value] =>
    match value.toStr, target with
    | none, _ => .error HOST_NOT_ALLOWED
    | some host, none => .ok (some host)
    | some host, some target =>
      if eqIgnoreAsciiCase (Text.trim host) target then .ok (some host)
      else .error (400, "Host does not match the request target")
  | _ => .error HOST_NOT_ALLOWED

def checkHost (headers : HeaderMap) (target : Option String) (allowed : List String) :
    Except HostRefusal Unit :=
  match requestAuthority headers target with
  | .error refusal => .error refusal
  | .ok authority => if isHostAllowed authority allowed then .ok () else .error HOST_NOT_ALLOWED

/-- Whether the request's `Content-Type` is JSON, whatever its parameters. -/
def isJsonContentType (headers : HeaderMap) : Bool :=
  ((Server.getHeader headers CONTENT_TYPE).bind HeaderValue.toStr).any fun value =>
    eqIgnoreAsciiCase (Text.trim (.ofList (value.toList.takeWhile (· ≠ ';')))) APPLICATION_JSON

def transportRefusal (status : Nat) (code : Int) (message : String) : Refusal AuthError :=
  .answered status (.failure none code message)

/-- A response mirrors nothing, so it may carry no mirror. -/
def checkResponseHeaders (headers : HeaderMap) : Except String Unit :=
  let mirror := headers.keys.find? fun name =>
    eqIgnoreAsciiCase name MCP_METHOD_HEADER || eqIgnoreAsciiCase name MCP_NAME_HEADER ||
      isParamHeader name
  match mirror with
  | none => .ok ()
  | some name => .error ("Header mismatch: " ++ name ++
      " mirrors a request, and a response has nothing for it to mirror")

/-- What a hook is handed of a message that is no request. -/
def transportMessage (headers : HeaderMap) (id : Option Json) (version : Option String) :
    JsonRpcRequest :=
  let message := { JsonRpcRequest.received JSONRPC_VERSION "" none id with
    authToken := bearerToken headers
    headers := forwardedHeaders headers }
  version.elim message (message.withMetadata PROTOCOL_VERSION_HEADER)

/-- What an answer says, under its status and with its headers. -/
inductive Said where
  | nothing
  | text (text : String)
  | json (response : JsonRpcResponse)
  deriving DecidableEq

structure Answer where
  status : Nat
  headers : List (String × String)
  body : Said
  deriving DecidableEq

def WWW_AUTHENTICATE : String := "www-authenticate"

/-- An answer that carries one more header; it fails where no header can hold the text. -/
def Answer.withHeader (answer : Answer) (name text : String) : Answer :=
  match Server.headerValueOf text with
  | some _ => { answer with headers := (name, text) :: answer.headers }
  | none => ⟨500, [], .text "failed to parse header value"⟩

/-- The refusal of a hook, under its status; a client can always read its body. -/
def authRefusalResponse : AuthError → Answer
  | .unauthorized wwwAuthenticate =>
    (⟨401, [], .json (.failure none ErrorCode.unauthorized "Unauthorized")⟩ : Answer).withHeader
      WWW_AUTHENTICATE wwwAuthenticate
  | .forbidden reason => ⟨403, [], .json (.failure none ErrorCode.unauthorized reason)⟩
  | .insufficientScope wwwAuthenticate reason =>
    (⟨403, [], .json (.failure none ErrorCode.unauthorized reason)⟩ : Answer).withHeader
      WWW_AUTHENTICATE wwwAuthenticate
  | .rateLimited retryAfterSecs reason =>
    let retryAfterSecs := max retryAfterSecs 1
    ⟨429, [(Server.RETRY_AFTER, toString retryAfterSecs.toNat)],
      .json (.failureWithData none ErrorCode.rateLimited reason
        (.object [(Server.RETRY_AFTER_SECS_FIELD, .number (.posInt retryAfterSecs))]))⟩
  | .internal reason => ⟨500, [], .json (.failure none ErrorCode.internalError reason)⟩

/-- What `McpServer` configures of the endpoint. -/
structure McpEndpoint where
  supportedVersions : List String
  allowedOrigins : List String
  allowedHosts : Option (List String)
  maxRequestBytes : Nat
  authHook : Option (JsonRpcRequest → Except AuthError HookContext)
  sessions : Option SessionStore

/-- When a request is served: the time, and what a new session is given, if there is randomness for an
id. -/
structure Moment where
  now : Nat
  serial : Nat
  mintedId : Option String

/-- What becomes of a request. -/
inductive Reception where
  /-- Refused with a plain text. -/
  | turnedAway (status : Nat) (text : String)
  | refused (refusal : Refusal AuthError)
  | notAllowed
  | dispatched (rendering : Rendering) (d : Dispatched HookContext Session)
  /-- A client's response, handed to the call that waits for it from this caller. -/
  | delivered (ctx : HookContext) (session : Option Session) (caller : CallerKey)
    (response : JsonRpcResponse)
  /-- The session is ended. -/
  | ended (ctx : HookContext) (session : Session) (sessionId : String)

/-- The answer to what is not dispatched; a dispatched request is answered by its dispatch. -/
def Reception.answer : Reception → Option Answer
  | .turnedAway status text => some ⟨status, [], .text text⟩
  | .refused (.answered status response) => some ⟨status, [], .json response⟩
  | .refused (.unauthenticated refusal) => some (authRefusalResponse refusal)
  | .notAllowed => some ⟨405, [], .nothing⟩
  | .dispatched _ _ => none
  | .delivered _ _ _ _ => some ⟨202, [], .nothing⟩
  | .ended _ _ _ => some ⟨204, [], .nothing⟩

namespace McpEndpoint

variable (e : McpEndpoint) (m : Moment)

/-- `McpServer::authenticate`. -/
def authenticate (request : JsonRpcRequest) : Except AuthError HookContext :=
  match e.authHook with
  | some hook => hook request
  | none => .ok .new

/-- The server, as `serve_request` uses it at the moment. -/
def server : HttpServer HookContext Session AuthError where
  supportedVersions := e.supportedVersions
  authenticate := e.authenticate
  sessions := e.sessions.map fun store =>
    { enter := fun id ctx => (store.enter m.now id ctx.toToolContext).2
      mint := fun ctx => m.mintedId.map fun id => ⟨m.serial, some id, ctx.userId, ctx.tenantId⟩ }

/-- `check_origin_and_host`. -/
def checkOriginAndHost (r : HttpRequest) : Except HostRefusal Unit :=
  if !originAllowed r.headers e.allowedOrigins then .error (403, "Origin not allowed")
  else
    match e.allowedHosts with
    | none => .ok ()
    | some allowed => checkHost r.headers r.target allowed

/-- The live session under this id, where it is the caller's own. -/
def ownedSession (store : SessionStore) (sessionId : String) (ctx : HookContext) : Option Session :=
  (store.find m.now sessionId).2.filter fun session => session.isOwnedBy ctx.toToolContext

def sessionNotFound : Refusal AuthError :=
  .answered 404 (.failure none ErrorCode.invalidRequest "Session not found: initialize a new session")

/-- The session a response is sent in, if it names one. -/
def respondedSession (sessions : Option SessionStore) (sessionId : Option String) (ctx : HookContext) :
    Except (Refusal AuthError) (Option Session) :=
  match sessions, sessionId with
  | some store, some sessionId =>
    match ownedSession m store sessionId ctx with
    | some session => .ok (some session)
    | none => .error sessionNotFound
  | _, _ => .ok none

/-- The session a response says it is sent in. -/
def responseSessionId (sessions : Option SessionStore) (headers : HeaderMap) :
    Except (Refusal AuthError) (Option String) :=
  if sessions.isSome then sessionIdHeader headers none else .ok none

/-- `accept_client_response`, up to the delivery; `fingerprint` is the process's keyed hash. -/
def acceptClientResponse (fingerprint : String → UInt64) (headers : HeaderMap)
    (response : JsonRpcResponse) : Except (Refusal AuthError) Reception := do
  let version ← acceptedProtocolVersion e.supportedVersions headers none
  (checkResponseHeaders headers).mapError (headerMismatch none)
  let sessions := e.sessions.filter fun _ => !version.any isModernRevision
  let sessionId ← responseSessionId sessions headers
  let message := transportMessage headers response.id version
  let ctx ← (e.authenticate message).mapError .unauthenticated
  let session ← respondedSession m sessions sessionId ctx
  let caller := CallerKey.http fingerprint ctx.toToolContext (session.bind Session.id) message.authToken
  return .delivered ctx session caller response

section Post

variable (crates : Crates) (serde : Serde) (parse : String → Option ℚ) (fingerprint : String → UInt64)

/-- The message of a body, on its way to where it is handled. -/
def receiveMessage (headers : HeaderMap) (rendering : Rendering) : JsonRpcMessage → Reception
  | .request request =>
    match serveRequest crates (e.server m) headers request with
    | .ok d => .dispatched rendering d
    | .error refusal => .refused refusal
  | .response response =>
    match e.acceptClientResponse m fingerprint headers response with
    | .ok reception => reception
    | .error refusal => .refused refusal

/-- `handle_mcp_post`, up to the dispatch. -/
def handleMcpPost (r : HttpRequest) : Reception :=
  match e.checkOriginAndHost r with
  | .error (status, text) => .turnedAway status text
  | .ok () =>
    -- a page can send other types across origins, and no policy is asked
    if !isJsonContentType r.headers then
      .refused (transportRefusal 415 ErrorCode.invalidRequest
        "Unsupported Media Type: Content-Type must be application/json")
    else
      match negotiate parse r.headers with
      | none => .refused (transportRefusal 406 ErrorCode.invalidRequest
          "Not Acceptable: Accept must admit application/json or text/event-stream")
      | some rendering =>
        match r.body with
        | .tooLarge => .refused (transportRefusal 413 ErrorCode.invalidRequest
            ("Request body exceeds " ++ toString e.maxRequestBytes ++ " bytes"))
        | .unreadable status text => .refused (transportRefusal status ErrorCode.parseError text)
        | .text raw =>
          match JsonRpcMessage.parse serde raw with
          | .ok message => e.receiveMessage m crates fingerprint r.headers rendering message
          | .error refusal => .refused (.answered 400 refusal)

/-- `handle_mcp_delete`, of a server that keeps sessions. -/
def handleMcpDelete (r : HttpRequest) : Reception :=
  match e.checkOriginAndHost r with
  | .error (status, text) => .turnedAway status text
  | .ok () =>
    match e.sessions with
    | none => .notAllowed
    | some store =>
      match sessionIdHeader r.headers none with
      | .error refusal => .refused refusal
      | .ok none => .refused (transportRefusal 400 ErrorCode.invalidRequest
          "DELETE needs the Mcp-Session-Id of the session to end")
      | .ok (some sessionId) =>
        let version := (protocolVersionHeader r.headers).toOption.join
        match e.authenticate (transportMessage r.headers none version) with
        | .error refusal => .refused (.unauthenticated refusal)
        | .ok ctx =>
          match ownedSession m store sessionId ctx with
          | none => .refused sessionNotFound
          | some session => .ended ctx session sessionId

inductive Method where
  | post
  | delete
  | other
  deriving DecidableEq

/-- `/mcp` of `mcp_router`. -/
def route (method : Method) (r : HttpRequest) : Reception :=
  match method with
  | .post => e.handleMcpPost m crates serde parse fingerprint r
  | .delete => if e.sessions.isSome then e.handleMcpDelete m r else .notAllowed
  | .other => .notAllowed

end Post

end McpEndpoint

/-- Why `serve` returns before it serves. -/
inductive ServeError where
  | insecureBind (refused : InsecureBindError)
  | resolve (addr source : String)
  | bind (addr source : String)
  deriving DecidableEq

/-- A server that listens: where, and whether a loopback `Host` alone is served. -/
structure Listening where
  resolved : List IpAddr
  address : IpAddr
  bound : address ∈ resolved
  hostGuarded : Bool

namespace McpEndpoint

variable (e : McpEndpoint)

/-- `serve_with_shutdown`, up to the listening: `lookup` resolves the name, and `listen` binds one of
the addresses. -/
def serve (host : String) (port : UInt16) (lookup : String → Except String (List IpAddr))
    (listen : (l : List IpAddr) → Except String {a // a ∈ l}) : Except ServeError Listening :=
  let addr := host ++ ":" ++ toString port.toNat
  match lookup addr with
  | .error source => .error (.resolve addr source)
  | .ok resolved =>
    let loopback := resolved.all isLoopbackIp
    if e.authHook.isNone && !loopback then .error (.insecureBind ⟨host, none⟩)
    else
      match listen resolved with
      | .error source => .error (.bind addr source)
      | .ok ⟨address, bound⟩ => .ok ⟨resolved, address, bound, loopback && e.allowedHosts.isNone⟩

/-- A request to a listening server: `require_loopback_host` before the router, on a guarded one. -/
def receive (l : Listening) (m : Moment) (crates : Crates) (serde : Serde)
    (parse : String → Option ℚ) (fingerprint : String → UInt64) (method : Method) (r : HttpRequest) :
    Reception :=
  let guarded := if l.hostGuarded then checkHost r.headers r.target [] else .ok ()
  match guarded with
  | .error (status, text) => .turnedAway status text
  | .ok () => e.route m crates serde parse fingerprint method r

end McpEndpoint

end Tronc.Mcp
