import Tronc.Mcp.InFlight

namespace Tronc.Mcp

open CancelTree Transition

def SAMPLING_CREATE_MESSAGE : String := "sampling/createMessage"

def ELICITATION_CREATE : String := "elicitation/create"

/-- Why a server-to-client request got no answer. -/
inductive ClientRequestError where
  | noConnection
  | statelessRevision
  | capabilityNotDeclared (capability : String)
  | noEventStream
  | cancelled
  | timedOut (after : Nat)
  | disconnected
  | rpc (error : JsonRpcError)
  | decode
  | internal (why : String)
  deriving DecidableEq

/-- The protocol era of the call a channel serves. -/
inductive Era where
  | unbound
  | legacy
  | modern
  deriving DecidableEq

structure DeclaredCapabilities where
  sampling : Bool
  formElicitation : Bool
  deriving DecidableEq

/-- What a server request needs the client to have declared. -/
inductive Needs where
  | sampling
  | formElicitation
  deriving DecidableEq

namespace Needs

def capability : Needs → String
  | .sampling => "sampling"
  | .formElicitation => "elicitation"

def declaredIn (needs : Needs) (declared : DeclaredCapabilities) : Bool :=
  match needs with
  | .sampling => declared.sampling
  | .formElicitation => declared.formElicitation

/-- The method `create_message` and `elicit` send under. -/
def method : Needs → String
  | .sampling => SAMPLING_CREATE_MESSAGE
  | .formElicitation => ELICITATION_CREATE

end Needs

/-- What a transport gives a call to reach its client: the queue its messages go on, if they reach
the client before the response, and what its session declared, if it has one. -/
structure ClientConnection where
  outbound : Option Nat
  session : Option DeclaredCapabilities
  caller : CallerKey
  requestTimeout : Nat
  deriving DecidableEq

/-- A call's channel to its client, with the scope the engine bound it to. -/
structure ClientChannel where
  connection : Option ClientConnection
  era : Era
  cancellation : Token
  deriving DecidableEq

/-- What a request is refused for before anything is minted for it. -/
def ClientChannel.admits (channel : ClientChannel) (needs : Needs) :
    Except ClientRequestError ClientConnection :=
  match channel.connection with
  | none => .error .noConnection
  | some connection =>
    match channel.era with
    | .unbound => .error .noConnection
    | .modern => .error .statelessRevision
    | .legacy =>
      if !connection.session.any needs.declaredIn then
        .error (.capabilityNotDeclared needs.capability)
      else if connection.outbound.isNone then .error .noEventStream
      else .ok connection

/-- One server request awaiting its answer. -/
structure PendingKey where
  caller : CallerKey
  id : String
  deriving DecidableEq

/-- Why a server request stopped waiting. -/
inductive Abandoned where
  /-- Answered, or never reached the client. -/
  | answered
  /-- The waiting future was dropped. -/
  | dropped
  | cancelled
  | timedOut
  deriving DecidableEq

/-- What the client is told of it, if anything. -/
def Abandoned.reason : Abandoned → Option String
  | .answered => none
  | .dropped => some "The call that sent this request ended"
  | .cancelled => some "The call that sent this request was cancelled"
  | .timedOut => some "The server stopped waiting for an answer"

/-- Where `ClientChannel::request` is, once it is registered; `none` is what a dropped future
returns. -/
inductive Wait (α : Type) where
  | registered
  /-- It waits to be polled. -/
  | waiting
  /-- A poll found its token not fired, and has still to look for the answer. -/
  | looked
  /-- `Waiting` is dropped: its entry goes first, and the notice after it. -/
  | ending (outcome : Abandoned) (result : Option (Except ClientRequestError α))
  | noticing (outcome : Abandoned) (result : Option (Except ClientRequestError α))
  | ended (outcome : Abandoned) (result : Option (Except ClientRequestError α))

/-- Where the sending half of its oneshot is. -/
inductive Sender where
  | tabled
  /-- `deliver` has taken it out of the table. -/
  | carried (delivery : Nat)
  /-- The table was closed with it in. -/
  | closing
  | sent (delivery : Nat)
  | dropped
  deriving DecidableEq

structure Waiter (α : Type) where
  connection : ClientConnection
  needs : Needs
  params : Json
  id : String
  cancellation : Token
  wait : Wait α
  sender : Sender
  /-- The answer in its oneshot. -/
  answer : Option JsonRpcResponse
  /-- Whether the receiving half is there. -/
  listening : Bool
  /-- Whether its request was sent, and its notice. -/
  sent : Bool
  notified : Bool

namespace Waiter

variable {α : Type} (v : Waiter α)

def key : PendingKey := ⟨v.connection.caller, v.id⟩

def request : JsonRpcRequest :=
  .received JSONRPC_VERSION v.needs.method (some v.params) (some (.string v.id))

def notice (reason : String) : JsonRpcRequest :=
  .received JSONRPC_VERSION NOTIFICATIONS_CANCELLED
    (some (.object [("requestId", .string v.id), ("reason", .string reason)])) none

end Waiter

/-- A call of `deliver`: the answer, the request it was for, and what it returned. -/
structure Delivery where
  caller : CallerKey
  response : JsonRpcResponse
  waiter : Option Nat
  accepted : Option Bool
  deriving DecidableEq

/-- A table of pending requests under the calls that wait on it and the answers that come in, with
the client's queues: what each took, in order, and which take no more. -/
structure Clients (α : Type) where
  pending : Option (AList fun _ : PendingKey => Nat)
  waiters : List (Waiter α)
  refused : List ClientRequestError
  deliveries : List Delivery
  tokens : Tokens
  queued : List (Nat × JsonRpcRequest)
  hungUp : List Nat

namespace Clients

inductive Event where
  | token (parent : Option Token)
  | fire (token : Token)
  /-- The receiver of a queue is dropped. -/
  | hangUp (outbound : Nat)
  /-- `request` begins, up to its registration, with the params and the id it minted, or why it
  could not. -/
  | request (channel : ClientChannel) (needs : Needs) (params : Except String Json)
      (id : Except String String)
  | send (i : Nat)
  /-- A poll begins with the token. -/
  | look (i : Nat)
  /-- The poll goes on to the answer, and to the deadline. -/
  | read (i : Nat) (elapsed : Bool)
  /-- The future is dropped. -/
  | abandon (i : Nat)
  | forget (i : Nat)
  | notice (i : Nat)
  /-- `deliver` takes the sender its response is for. -/
  | deliver (caller : CallerKey) (response : JsonRpcResponse)
  /-- `deliver` sends the response to it. -/
  | answer (k : Nat)
  | close
  /-- A sender of the closed table is dropped. -/
  | release (i : Nat)

variable {α : Type} (decode : Needs → Json → Option α) (w : Clients α)

/-- `ClientConnection::send`, with whether it was. -/
def enqueue (connection : ClientConnection) (message : JsonRpcRequest) :
    List (Nat × JsonRpcRequest) × Bool :=
  match connection.outbound with
  | none => (w.queued, false)
  | some outbound =>
    if outbound ∈ w.hungUp then (w.queued, false) else (w.queued ++ [(outbound, message)], true)

def setWaiter (i : Nat) (v : Waiter α) : Clients α := { w with waiters := w.waiters.set i v }

/-- What the client's response makes of a request. -/
def settle (needs : Needs) (response : JsonRpcResponse) : Except ClientRequestError α :=
  match response.error with
  | some error => .error (.rpc error)
  | none =>
    match response.result with
    | some result => (decode needs result).elim (.error .decode) .ok
    | none => .error (.rpc ⟨ErrorCode.invalidRequest,
        "the client's response carries neither a result nor an error", none⟩)

def refuse (error : ClientRequestError) : Clients α := { w with refused := w.refused ++ [error] }

def request (channel : ClientChannel) (needs : Needs) (params : Except String Json)
    (id : Except String String) : Option (Clients α) :=
  match channel.admits needs with
  | .error error => some (w.refuse error)
  | .ok connection =>
    match params with
    | .error why => some (w.refuse (.internal why))
    | .ok params =>
      match id with
      | .error why => some (w.refuse (.internal ("no OS randomness for an id: " ++ why)))
      | .ok id =>
        -- no id is minted twice
        if w.waiters.any fun v => v.id == id then none
        else
          match w.pending with
          | none => some (w.refuse .disconnected)
          | some table =>
            let v : Waiter α :=
              ⟨connection, needs, params, id, channel.cancellation, .registered, .tabled, none, true,
                false, false⟩
            some { w with
              pending := some (table.insert v.key w.waiters.length)
              waiters := w.waiters ++ [v] }

def send (i : Nat) (v : Waiter α) : Option (Clients α) :=
  match v.wait with
  | .registered =>
    let (queued, sent) := w.enqueue v.connection v.request
    let wait := if sent then .waiting else .ending .answered (some (.error .disconnected))
    some { w.setWaiter i { v with wait := wait, sent := sent } with queued := queued }
  | _ => none

/-- The `select!` is over: its futures go, and the receiver with them. -/
def leave (i : Nat) (v : Waiter α) (outcome : Abandoned)
    (result : Option (Except ClientRequestError α)) : Clients α :=
  w.setWaiter i { v with wait := .ending outcome result, answer := none, listening := false }

def look (i : Nat) (v : Waiter α) : Option (Clients α) :=
  match v.wait with
  | .waiting =>
    some (if w.tokens.isCancelled v.cancellation then
      w.leave i v .cancelled (some (.error .cancelled))
    else w.setWaiter i { v with wait := .looked })
  | _ => none

def read (i : Nat) (v : Waiter α) (elapsed : Bool) : Option (Clients α) :=
  match v.wait with
  | .looked =>
    some (match v.answer with
      | some response => w.leave i v .answered (some (settle decode v.needs response))
      | none =>
        if v.sender = .dropped then w.leave i v .answered (some (.error .disconnected))
        else if elapsed then
          w.leave i v .timedOut (some (.error (.timedOut v.connection.requestTimeout)))
        else w.setWaiter i { v with wait := .waiting })
  | _ => none

def abandon (i : Nat) (v : Waiter α) : Option (Clients α) :=
  match v.wait with
  | .waiting => some (w.leave i v .dropped none)
  | _ => none

def forget (i : Nat) (v : Waiter α) : Option (Clients α) :=
  match v.wait with
  | .ending outcome result =>
    let sender := if v.sender = .tabled then .dropped else v.sender
    some { w.setWaiter i { v with wait := .noticing outcome result, sender := sender } with
      pending := w.pending.map (AList.erase v.key) }
  | _ => none

def notice (i : Nat) (v : Waiter α) : Option (Clients α) :=
  match v.wait with
  | .noticing outcome result =>
    let (queued, notified) :=
      outcome.reason.elim (w.queued, false) fun reason => w.enqueue v.connection (v.notice reason)
    some { w.setWaiter i
        { v with wait := .ended outcome result, listening := false, notified := notified } with
      queued := queued }
  | _ => none

def deliver (caller : CallerKey) (response : JsonRpcResponse) : Clients α :=
  let refused : Clients α :=
    { w with deliveries := w.deliveries ++ [⟨caller, response, none, some false⟩] }
  match response.id, w.pending with
  | some (.string id), some table =>
    match table.lookup ⟨caller, id⟩ with
    | none => refused
    | some i =>
      { w with
        pending := some (table.erase ⟨caller, id⟩)
        waiters := w.waiters.modify i fun v => { v with sender := .carried w.deliveries.length }
        deliveries := w.deliveries ++ [⟨caller, response, some i, none⟩] }
  | _, _ => refused

def answer (k : Nat) (d : Delivery) : Option (Clients α) :=
  match d.waiter, d.accepted with
  | some i, none =>
    w.waiters[i]?.map fun v =>
      let answer := if v.listening then some d.response else v.answer
      { w.setWaiter i { v with sender := .sent k, answer := answer } with
        deliveries := w.deliveries.set k { d with accepted := some v.listening } }
  | _, _ => none

/-- `PendingRequests::close`: the table goes, and the senders in it are dropped one by one. -/
def close : Clients α :=
  { w with
    pending := none
    waiters := w.waiters.map fun v =>
      if v.sender = .tabled then { v with sender := .closing } else v }

def release (i : Nat) (v : Waiter α) : Option (Clients α) :=
  if v.sender = .closing then some (w.setWaiter i { v with sender := .dropped }) else none

def step : Event → Option (Clients α)
  | .token parent =>
    if ∀ t ∈ parent, t ∈ w.tokens.made then
      some { w with tokens := w.tokens.make (w.tokens.child parent) }
    else none
  | .fire token => some { w with tokens := w.tokens.cancel token }
  | .hangUp outbound => some { w with hungUp := outbound :: w.hungUp }
  | .request channel needs params id => w.request channel needs params id
  | .send i => w.waiters[i]?.bind (w.send i)
  | .look i => w.waiters[i]?.bind (w.look i)
  | .read i elapsed => w.waiters[i]?.bind (w.read decode i · elapsed)
  | .abandon i => w.waiters[i]?.bind (w.abandon i)
  | .forget i => w.waiters[i]?.bind (w.forget i)
  | .notice i => w.waiters[i]?.bind (w.notice i)
  | .deliver caller response => some (w.deliver caller response)
  | .answer k => w.deliveries[k]?.bind (w.answer k)
  | .close => some w.close
  | .release i => w.waiters[i]?.bind (w.release i)

def empty : Clients α := ⟨some ∅, [], [], [], .empty, [], []⟩

/-- How often a request went out under the id, and a notice about it. -/
def requestsOf (id : String) : Nat := w.queued.countP fun m => m.2.id == some (.string id)

def noticesOf (id : String) : Nat :=
  w.queued.countP fun m => m.2.method == NOTIFICATIONS_CANCELLED &&
    m.2.params.bind (Json.get · "requestId") == some (.string id)

end Clients

/-- A table of pending requests, from when it is made. -/
def clients {α : Type} (decode : Needs → Json → Option α) : Lts (Clients α) Clients.Event where
  init w := w = .empty
  step w e w' := w.step decode e = some w'

end Tronc.Mcp
