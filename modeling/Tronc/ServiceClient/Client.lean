import Tronc.Iam.TokenSource
import Tronc.Mcp.Origins
import Tronc.Mcp.TraceContext
import Tronc.Server.RequestIds
import Tronc.ServiceClient.Response

namespace Tronc.ServiceClient

open Mcp (HeaderMap HeaderValue Serde TRACEPARENT TRACESTATE isLoopbackHost)
open Server
open Iam (TokenError)

def AUTHORIZATION : String := "authorization"

/-- A URL as the `url` crate has parsed it. -/
structure ServiceUrl where
  scheme : String
  username : String
  password : Option String
  host : Option String
  port : Option Nat
  path : String
  query : Option String
  fragment : Option String
  deriving DecidableEq

/-- What the crates `url`, `http` and `reqwest` do: parse a base URL, make a URL that a request can be
sent to of a text, append pairs to a query, and make a header of a name and a value. -/
structure HttpCrates where
  parse : String → Except String ServiceUrl
  sendable : String → Except String ServiceUrl
  appendPairs : Option String → List (String × String) → Option String
  header : String → String → Except String (String × HeaderValue)

def knownDefaultPort : String → Option Nat
  | "http" | "ws" => some 80
  | "https" | "wss" => some 443
  | "ftp" => some 21
  | _ => none

/-- `Url::origin`; `none` is an opaque one, which is equal to no other. -/
def origin (url : ServiceUrl) : Option (String × String × Nat) :=
  url.host.bind fun host =>
    (knownDefaultPort url.scheme).map fun default => (url.scheme, host, url.port.getD default)

inductive ConfigError where
  | invalidBaseUrl (service detail : String)
  | audienceRequired (service : String)
  | audienceNotSet (service urlVar audienceVar : String)
  | httpClient (service detail : String)
  deriving DecidableEq

/-- `ServiceClient`: calls one service; `audience` is its token source's, where it has one. -/
structure Client (crates : HttpCrates) where
  service : String
  baseUrl : String
  base : ServiceUrl
  audience : Option String
  host : String
  parsed : crates.parse baseUrl = .ok base
  named : base.host = some host
  scheme : base.scheme = "http" ∨ base.scheme = "https"
  gated : audience = none ↔ isLoopbackHost host = true
  secure : audience ≠ none → base.scheme = "https"

def trimSlashes (text : String) : String := .ofList (text.toList.rdropWhile (· == '/'))

variable {crates : HttpCrates}

def Client.new (crates : HttpCrates) (service baseUrl : String) (audience : Option String) :
    Except ConfigError (Client crates) :=
  let baseUrl := trimSlashes baseUrl
  match parsed : crates.parse baseUrl with
  | .error why => .error (.invalidBaseUrl service why)
  | .ok url =>
    if scheme : url.scheme = "http" ∨ url.scheme = "https" then
      match named : url.host with
      | none => .error (.invalidBaseUrl service "it names no host")
      | some host =>
        if url.username ≠ "" ∨ url.password.isSome then
          .error (.invalidBaseUrl service "it carries credentials")
        else if url.query.isSome ∨ url.fragment.isSome then
          .error (.invalidBaseUrl service "it carries a query or a fragment")
        else if loopback : isLoopbackHost host = true then
          .ok ⟨service, baseUrl, url, none, host, parsed, named, scheme, by simp [loopback], nofun⟩
        else if secure : url.scheme = "https" then
          match audience.filter fun audience => audience != "" with
          | none => .error (.audienceRequired service)
          | some audience =>
            .ok ⟨service, baseUrl, url, some audience, host, parsed, named, scheme,
              by simp [loopback], fun _ => secure⟩
        else
          .error (.invalidBaseUrl service ("a service that is not on loopback must be https; an " ++
            "identity token is never sent in clear"))
    else
      .error (.invalidBaseUrl service
        ("its scheme is \"" ++ url.scheme ++ "\", not http or https"))

/-- `built` is what `reqwest` makes of the client's timeout. -/
def Client.fromEnv (crates : HttpCrates) (env : String → Option String)
    (service urlVar audienceVar : String) (built : Except String Unit) :
    Except ConfigError (Option (Client crates)) :=
  match env urlVar with
  | none => .ok none
  | some baseUrl =>
    if trimSlashes baseUrl = "" then .ok none
    else
      let audience := (env audienceVar).filter fun audience => audience != ""
      match built with
      | .error why => .error (.httpClient service why)
      | .ok () =>
        match Client.new crates service baseUrl audience with
        | .ok client => .ok (some client)
        | .error (.audienceRequired service) => .error (.audienceNotSet service urlVar audienceVar)
        | .error other => .error other

inductive Method where
  | get
  | post
  | delete
  deriving DecidableEq

/-- A request as it is handed to the HTTP client. -/
structure Outgoing where
  method : Method
  url : ServiceUrl
  headers : HeaderMap
  body : Option (List UInt8)
  timeout : Option Nat
  deriving DecidableEq

/-- `reqwest::RequestBuilder`: the request so far, or why there is none. -/
abbrev Builder := Except String Outgoing

/-- A request to the service; only a read is sent again. -/
structure ServiceRequest (crates : HttpCrates) where
  client : Client crates
  operation : String
  builder : Builder
  resendAfterClose : Bool
  refused : Option String
  reads : resendAfterClose = true → ∀ out, builder = .ok out → out.method = .get

def requestBuilder (crates : HttpCrates) (method : Method) (text : String) : Builder :=
  (crates.sendable text).map fun url => ⟨method, url, [], none, none⟩

def refusedPath (path : String) : Option String :=
  if path.toList.head? = some '/' then none
  else some "its path does not start with '/'; nothing was sent"

namespace Client

variable (client : Client crates) (operation path : String)

theorem requestBuilder_method {method : Method} {text : String} {out : Outgoing}
    (h : requestBuilder crates method text = .ok out) : out.method = method := by
  unfold requestBuilder at h
  cases hs : crates.sendable text with
  | error why =>
    rw [hs] at h
    cases h
  | ok url =>
    rw [hs] at h
    rw [← Except.ok.inj h]

def get : ServiceRequest crates :=
  ⟨client, operation, requestBuilder crates .get (client.baseUrl ++ path), true, refusedPath path,
    fun _ _ => requestBuilder_method⟩

/-- `body` is what the body serializes to, or why it does not. -/
def postJson (body : Except String (List UInt8)) : ServiceRequest crates :=
  let builder := do
    let out ← requestBuilder crates .post (client.baseUrl ++ path)
    let body ← body
    .ok { out with
      headers := insertHeader out.headers "content-type" (.ofString "application/json")
      body := some body }
  ⟨client, operation, builder, false, refusedPath path, nofun⟩

def delete : ServiceRequest crates :=
  ⟨client, operation, requestBuilder crates .delete (client.baseUrl ++ path), false,
    refusedPath path, nofun⟩

end Client

namespace ServiceRequest

variable (request : ServiceRequest crates)

/-- A request with something set on it that is not its method. -/
def adjust (f : Outgoing → Except String Outgoing)
    (hf : ∀ out out', f out = .ok out' → out'.method = out.method) : ServiceRequest crates where
  client := request.client
  operation := request.operation
  builder := request.builder.bind f
  resendAfterClose := request.resendAfterClose
  refused := request.refused
  reads := by
    intro resends out' h
    cases hb : request.builder with
    | error why =>
      rw [hb] at h
      cases h
    | ok out =>
      rw [hb] at h
      exact (hf out out' h).trans (request.reads resends out hb)

/-- `pairs` is what the query serializes to, or why it does not. -/
def query (pairs : Except String (List (String × String))) : ServiceRequest crates :=
  request.adjust
    (fun out => pairs.map fun pairs =>
      { out with url := { out.url with query := crates.appendPairs out.url.query pairs } })
    (by
      intro out out' h
      cases pairs with
      | error why => cases h
      | ok pairs => rw [← Except.ok.inj h])

def header (name value : String) : ServiceRequest crates :=
  request.adjust
    (fun out => (crates.header name value).map fun header =>
      { out with headers := out.headers ++ [header] })
    (by
      intro out out' h
      cases hh : crates.header name value with
      | error why =>
        rw [hh] at h
        cases h
      | ok header =>
        rw [hh] at h
        rw [← Except.ok.inj h])

def timeout (nanos : Nat) : ServiceRequest crates :=
  request.adjust (fun out => .ok { out with timeout := some nanos })
    (by
      intro out out' h
      rw [← Except.ok.inj h])

end ServiceRequest

/-- What an error of the HTTP client was caused by. -/
inductive Cause where
  | hyper (incompleteMessage canceled : Bool)
  | connectionReset
  | connectionAborted
  | brokenPipe
  | unexpectedEof
  | other
  deriving DecidableEq

/-- An error of the HTTP client, its chain of causes, and `describe_request_error` of it. -/
structure SendError where
  isTimeout : Bool
  isConnect : Bool
  causes : List Cause
  described : String

inductive TransportFailure where
  | timedOut
  | unreachable
  | closedBeforeResponse
  | other
  deriving DecidableEq

def Cause.closes : Cause → Bool
  | .hyper incompleteMessage canceled => incompleteMessage || canceled
  | .connectionReset | .connectionAborted | .brokenPipe | .unexpectedEof => true
  | .other => false

def TransportFailure.of (error : SendError) : TransportFailure :=
  if error.isTimeout then .timedOut
  else if error.isConnect then .unreachable
  else if error.causes.any Cause.closes then .closedBeforeResponse
  else .other

/-- What a call fails with; the errors that need a response are `ServiceError`'s. -/
inductive CallError where
  | identity (service operation : String) (source : TokenError)
  | transport (exchange : Exchange) (failure : TransportFailure) (cause : String)
  | response (error : ServiceError)
  deriving DecidableEq

/-- `ServiceError::exchange`. -/
def CallError.exchange? : CallError → Option Exchange
  | .identity .. => none
  | .transport exchange _ _ => some exchange
  | .response (.shed exchange ..) => some exchange
  | .response (.unfinished exchange ..) => some exchange
  | .response (.body exchange ..) => some exchange

/-- What a process mints its ids with. -/
structure RequestIds where
  instanceId : UInt64
  sequence : UInt64
  deriving DecidableEq

/-- The id that is minted next. -/
def RequestIds.next (ids : RequestIds) : String := mint ids.instanceId ids.sequence

/-- So many ids later. -/
def RequestIds.skip (ids : RequestIds) (minted : Nat) : RequestIds :=
  { ids with sequence := ids.sequence + .ofNat minted }

/-- What becomes of a request that is handed to the HTTP client, and after how long. -/
inductive Outcome where
  | failed (error : SendError) (elapsed : Nat)
  | answered (status : StatusCode) (headers : HeaderMap) (body : Except String (List UInt8))
      (elapsed : Nat)

/-- What an attempt meets: how many ids the process mints elsewhere before the attempt mints its own,
the token it would be given, the trace context of its span, and what becomes of its request. -/
structure Conditions where
  elsewhere : Nat
  token : Except TokenError String
  context : Option (HeaderValue × HeaderValue)
  outcome : Outcome

/-- What an attempt put on the wire, if anything, what came of it, and where it leaves the ids. -/
structure Attempted where
  sent : Option Outgoing
  result : Except CallError ServiceResponse
  ids : RequestIds

def removeHeader (headers : HeaderMap) (name : String) : HeaderMap :=
  headers.filter fun h => h.1 != name

/-- `inject_current_context`. -/
def injectContext (headers : HeaderMap) : Option (HeaderValue × HeaderValue) → HeaderMap
  | none => headers
  | some (traceparent, tracestate) =>
    insertHeader (insertHeader headers TRACEPARENT traceparent) TRACESTATE tracestate

namespace Client

variable (serde : Serde) (client : Client crates) (operation : String)

def unsendable (resent : Bool) (ids : RequestIds) (cause : String) : CallError :=
  .transport ⟨client.service, operation, ids.next, 0, resent⟩ .other cause

/-- The `Authorization` of a request, where the client sends one. -/
def authorization (token : Except TokenError String) : Except CallError (Option HeaderValue) :=
  if client.audience = none then .ok none
  else
    match token with
    | .error source => .error (.identity client.service operation source)
    | .ok token =>
      match headerValueOf ("Bearer " ++ token) with
      | none => .error (.identity client.service operation
          (.malformedToken "the token holds a byte an HTTP header cannot carry"))
      | some value => .ok (some value)

/-- What comes of a request that was handed over. -/
def received (resent : Bool) (requestId : String) (outcome : Outcome) :
    Except CallError ServiceResponse :=
  let exchange elapsed := ⟨client.service, operation, requestId, elapsed, resent⟩
  match outcome with
  | .failed error elapsed => .error (.transport (exchange elapsed) (.of error) error.described)
  | .answered status headers body elapsed =>
    (readResponse serde (exchange elapsed) status headers body).mapError .response

/-- One sending: authorize, name the request, execute, and read the answer to its end. -/
def attempt (ids : RequestIds) (builder : Builder) (resent : Bool) (c : Conditions) : Attempted :=
  let ids := ids.skip c.elsewhere
  match builder with
  | .error cause => ⟨none, .error (client.unsendable operation resent ids cause), ids.skip 1⟩
  | .ok out =>
    if origin out.url ≠ origin client.base then
      ⟨none, .error (client.unsendable operation resent ids
        "its URL is outside the service's base URL; nothing was sent"), ids.skip 1⟩
    else
      match client.authorization operation c.token with
      | .error failure => ⟨none, .error failure, ids⟩
      | .ok authorization =>
        let headers := match authorization with
          | some value => insertHeader out.headers AUTHORIZATION value
          -- a loopback service gets no credentials, set by a caller or not
          | none => removeHeader out.headers AUTHORIZATION
        let requestId := ids.next
        let ids := ids.skip 1
        match headerValueOf requestId with
        | none =>
          ⟨none, .error (client.unsendable operation resent ids "failed to parse header value"),
            ids.skip 1⟩
        | some id =>
          let headers := injectContext (insertHeader headers REQUEST_ID_HEADER id) c.context
          ⟨some { out with headers },
            client.received serde operation resent requestId c.outcome, ids⟩

end Client

/-- What a call put on the wire, in order, and what came of it. -/
structure Sending where
  sent : List Outgoing
  result : Except CallError ServiceResponse

/-- `ServiceRequest::send`, with what the attempt it makes meets, and the one that it makes where a
read's connection closed. -/
def ServiceRequest.send (serde : Serde) (request : ServiceRequest crates) (ids : RequestIds)
    (first second : Conditions) : Sending :=
  match request.refused with
  | some cause =>
    ⟨[], .error (request.client.unsendable request.operation false (ids.skip first.elsewhere) cause)⟩
  | none =>
    let spare := if request.resendAfterClose then request.builder.toOption else none
    let one := request.client.attempt serde request.operation ids request.builder false first
    match spare, one.result with
    | some spare, .error (.transport _ .closedBeforeResponse _) =>
      let two := request.client.attempt serde request.operation one.ids (.ok spare) true second
      ⟨one.sent.toList ++ two.sent.toList, two.result⟩
    | _, result => ⟨one.sent.toList, result⟩

end Tronc.ServiceClient
