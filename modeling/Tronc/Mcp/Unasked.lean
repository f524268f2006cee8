import Tronc.Mcp.ClientChannel
import Tronc.Mcp.Methods

namespace Tronc.Mcp

open CancelTree Transition

def NOTIFICATIONS_MESSAGE : String := "notifications/message"

def METHOD_PROGRESS : String := "notifications/progress"

def PROGRESS_TOKEN_KEY : String := "progressToken"

namespace LogLevel

/-- The order the levels are declared in. -/
def severity : LogLevel → Nat
  | debug => 0
  | info => 1
  | notice => 2
  | warning => 3
  | error => 4
  | critical => 5
  | alert => 6
  | emergency => 7

/-- Whether a message of this level is at or above a minimum. -/
def meets (level minimum : LogLevel) : Bool := decide (minimum.severity ≤ level.severity)

end LogLevel

/-- The token a client wants progress reported under. -/
inductive ProgressToken where
  | string (token : String)
  | integer (token : Int64)
  deriving DecidableEq

namespace ProgressToken

def fromValue : Json → Option ProgressToken
  | .string token => some (string token)
  | .number (.posInt n) => if n.toNat < 2 ^ 63 then some (integer (.ofNat n.toNat)) else none
  | .number (.negInt i) => some (integer i.1)
  | _ => none

def toValue : ProgressToken → Json
  | string token => .string token
  | integer token =>
    .number (if h : token < 0 then .negInt ⟨token, h⟩ else .posInt (.ofNat token.toInt.toNat))

/-- `RequestMeta::progress_token` of a request's `_meta`. -/
def ofParams (params : Option Json) : Option ProgressToken :=
  (((params.bind (Json.get · "_meta")).bind Json.asObject).bind
    (Map.get · PROGRESS_TOKEN_KEY)).bind fromValue

end ProgressToken

namespace DeclaredCapabilities

def undeclared : DeclaredCapabilities := ⟨false, false⟩

def fromInitialize (capabilities : Option Json) : DeclaredCapabilities :=
  match capabilities with
  | none => undeclared
  | some capabilities =>
    { sampling := ((capabilities.get "sampling").bind Json.asObject).isSome
      formElicitation := ((capabilities.get "elicitation").bind Json.asObject).any fun elicitation =>
        elicitation.isEmpty || Map.containsKey elicitation "form" }

end DeclaredCapabilities

/-- What a session remembers between requests. -/
structure SessionState where
  capabilities : DeclaredCapabilities
  logLevel : Option LogLevel
  deriving DecidableEq

def SessionState.new : SessionState := ⟨.undeclared, none⟩

def SessionState.change (state : SessionState) : SessionChange → SessionState
  | .recordCapabilities declared => { state with capabilities := .fromInitialize declared }
  | .setLogLevel level => { state with logLevel := some level }

/-- The era a channel is bound to, with the level that a modern request asks for. -/
inductive BoundEra where
  | legacy
  | modern (logLevel : Option LogLevel)
  deriving DecidableEq

/-- What a transport gives a request to reach its client, the session by its place. -/
structure Link where
  outbound : Option Nat
  session : Option Nat
  caller : CallerKey
  requestTimeout : Nat
  deriving DecidableEq

/-- A channel bound to the call it serves. -/
structure BoundChannel where
  link : Link
  era : BoundEra
  progressToken : Option ProgressToken
  logging : Bool
  cancellation : Token
  deriving DecidableEq

/-- The era that a channel is bound to for a request processed so. -/
def Processing.boundEra : Processing → BoundEra
  | .modern requestMeta => .modern (requestMeta.logLevel.bind LogLevel.fromWire)
  | .legacy => .legacy

/-- What a request's channel is bound to, if it is dispatched and not refused for its `_meta`. -/
def BoundChannel.bind (logging : Bool) (link : Link) (cancellation : Token)
    (request : JsonRpcRequest) : Option BoundChannel :=
  (dispatch request).map fun processing =>
    ⟨link, processing.boundEra, ProgressToken.ofParams request.params, logging, cancellation⟩

/-- The message `log` sends. -/
def logMessage (level : LogLevel) (logger : Option String) (data : Json) : JsonRpcRequest :=
  .received JSONRPC_VERSION NOTIFICATIONS_MESSAGE (some (.object (Record.compact
    [("level", some (.string level.asStr)), ("logger", logger.map .string), ("data", some data)]))) none

/-- The message `progress` sends. -/
def progressMessage (token : ProgressToken) (progress : Binary64) (total : Option Binary64)
    (message : Option String) : JsonRpcRequest :=
  .received JSONRPC_VERSION METHOD_PROGRESS (some (.object (Record.compact
    [("progressToken", some token.toValue), ("progress", some (Record.f64 progress)),
      ("total", total.map Record.f64), ("message", message.map .string)]))) none

/-- The request `create_message` or `elicit` sends. -/
def serverRequest (needs : Needs) (params : Json) (id : String) : JsonRpcRequest :=
  .received JSONRPC_VERSION needs.method (some params) (some (.string id))

/-- A server's sessions, the calls it has bound a channel to, and what went out to each client, in
order; `hungUp` are the queues that take no more. -/
structure Clientele where
  sessions : List SessionState
  calls : List BoundChannel
  queued : List (Nat × JsonRpcRequest)
  hungUp : List Nat
  deriving DecidableEq

namespace Clientele

inductive Event where
  | openSession
  /-- A request comes in over a link, with what else its call knows. -/
  | receive (link : Link) (cancellation : Token) (ctx : CallContext) (request : JsonRpcRequest)
  | log (call : Nat) (level : LogLevel) (logger : Option String) (data : Json)
  | progress (call : Nat) (progress : Binary64) (total : Option Binary64) (message : Option String)
  /-- A request of the server's own, with the id it minted; it is registered unless the table is
  closed. -/
  | ask (call : Nat) (needs : Needs) (params : Json) (id : String) (registered : Bool)
  | hangUp (outbound : Nat)

/-- The server whose clients they are. -/
structure Serving (S : Type) where
  server : Methods.McpServer S
  crates : Crates
  engine : Base64.UrlEngine
  refuse : Json → String

variable {S : Type} (serving : Serving S) (s : Clientele)

def Serving.logging : Bool := serving.server.capabilities.logging.isSome

/-- What a request leaves in the session it was sent in. -/
def Serving.changeOf (link : Link) (ctx : CallContext) (request : JsonRpcRequest) :
    Option SessionChange :=
  (serving.server.dispatch serving.crates serving.engine serving.refuse request
    { ctx with session := link.session.isSome }).bind Served.change

def receive (link : Link) (cancellation : Token) (ctx : CallContext) (request : JsonRpcRequest) :
    Clientele :=
  { s with
    sessions := match link.session, serving.changeOf link ctx request with
      | some k, some change => s.sessions.modify k fun state => state.change change
      | _, _ => s.sessions
    calls := s.calls ++ (BoundChannel.bind serving.logging link cancellation request).toList }

/-- What the session of a call remembers. -/
def remembered (call : BoundChannel) : Option SessionState :=
  call.link.session.bind fun k => s.sessions[k]?

/-- `ClientChannel::log_level`. -/
def logLevel (call : BoundChannel) : Option LogLevel :=
  if !call.logging then none
  else match call.era with
    | .legacy => (s.remembered call).bind SessionState.logLevel
    | .modern logLevel => logLevel

/-- `ClientChannel::wants_log`. -/
def wantsLog (call : BoundChannel) (level : LogLevel) : Bool :=
  call.link.outbound.isSome && (s.logLevel call).any level.meets

/-- What of a message reaches the queue of a call's client. -/
def reaching (call : BoundChannel) (message : JsonRpcRequest) : List (Nat × JsonRpcRequest) :=
  match call.link.outbound with
  | none => []
  | some outbound => if outbound ∈ s.hungUp then [] else [(outbound, message)]

def send (call : BoundChannel) (message : JsonRpcRequest) : Clientele :=
  { s with queued := s.queued ++ s.reaching call message }

/-- The call's channel, as a request of the server's own sees it. -/
def channelOf (call : BoundChannel) : ClientChannel where
  connection := some ⟨call.link.outbound, (s.remembered call).map SessionState.capabilities,
    call.link.caller, call.link.requestTimeout⟩
  era := match call.era with
    | .legacy => .legacy
    | .modern _ => .modern
  cancellation := call.cancellation

def log (call : BoundChannel) (level : LogLevel) (logger : Option String) (data : Json) : Clientele :=
  if s.wantsLog call level then s.send call (logMessage level logger data) else s

def progress (call : BoundChannel) (progress : Binary64) (total : Option Binary64)
    (message : Option String) : Clientele :=
  match call.progressToken with
  | none => s
  | some token => s.send call (progressMessage token progress total message)

def ask (call : BoundChannel) (needs : Needs) (params : Json) (id : String) (registered : Bool) :
    Clientele :=
  match (s.channelOf call).admits needs with
  | .error _ => s
  | .ok _ => if registered then s.send call (serverRequest needs params id) else s

def step : Event → Option Clientele
  | .openSession => some { s with sessions := s.sessions ++ [.new] }
  | .receive link cancellation ctx request => some (s.receive serving link cancellation ctx request)
  | .log i level logger data => s.calls[i]?.map fun call => s.log call level logger data
  | .progress i done total message => s.calls[i]?.map fun call => s.progress call done total message
  | .ask i needs params id registered =>
    s.calls[i]?.map fun call => s.ask call needs params id registered
  | .hangUp outbound => some { s with hungUp := outbound :: s.hungUp }

end Clientele

/-- A server from before its first client, and whatever comes and goes from then on. -/
def clientele {S : Type} (serving : Clientele.Serving S) : Lts Clientele Clientele.Event where
  init s := s = ⟨[], [], [], []⟩
  step s a t := s.step serving a = some t

end Tronc.Mcp
