import Tronc.Mcp.InFlight
import Tronc.Mcp.Observe

namespace Tronc.Mcp

open CancelTree Transition

/-- Where one dispatched message is. A future is dropped, or its poll unwinds, at any of the
stages it waits in. -/
inductive Stage where
  | created
  | started (pending : Pending)
  /-- `register` has drawn its serial. -/
  | drawn (pending : Pending) (guard : Nat)
  | serving (pending : Pending) (guard : Nat)
  | routing (pending : Pending)
  | returned (response : Option JsonRpcResponse)
  | gone
  deriving DecidableEq

structure Operation where
  request : JsonRpcRequest
  ctx : ToolContext
  stage : Stage

/-- An observed server: its registry, every message it was handed, and what its observer was told
of which. -/
structure McpServer where
  serving : Serving
  operations : List Operation
  log : List (Nat × Observed)

namespace McpServer

inductive Event where
  | token (parent : Option Token)
  /-- A token is cancelled elsewhere, by a transport or a tool. -/
  | fire (token : Token)
  | arrive (request : JsonRpcRequest) (ctx : ToolContext)
  | begin (i : Nat)
  | check (i : Nat)
  | push (i : Nat)
  /-- A poll of the `select!`, and what `route` does in it if it is polled. -/
  | poll (i : Nat) (answer : Option JsonRpcResponse)
  | panic (i : Nat)
  /-- The host's redactor panics: on the arguments, or on the result `route` answered. -/
  | redactorPanics (i : Nat)
  | drop (i : Nat)

variable (crates : Crates) (policy : PayloadCapturePolicy) (w : McpServer)

/-- What the registry does; its guards are always where the dispatch needs them. -/
def act (serving : Serving) (e : Serving.Event) : Serving :=
  (Serving.step crates serving e).getD serving

def isCancelled (guard : Nat) : Bool :=
  w.serving.guards[guard]?.any fun g => w.serving.tokens.isCancelled g.token

def turn (i : Nat) (op : Operation) (serving : Serving) (stage : Stage) (told : List Observed) :
    McpServer where
  serving := serving
  operations := w.operations.set i { op with stage := stage }
  log := w.log ++ told.map (i, ·)

/-- `dispatch` returned, and `observe` ends. -/
def finish (i : Nat) (op : Operation) (pending : Pending) (serving : Serving)
    (response : Option JsonRpcResponse) : McpServer :=
  w.turn i op serving (.returned response) (pending.finish crates policy response)

/-- A request's locals are dropped: its token fires, and its guard goes. -/
def abandon (guard : Nat) : Serving :=
  let fired := w.serving.guards[guard]?.elim w.serving fun g => act crates w.serving (.fire g.token)
  act crates fired (.drop guard)

def begin (i : Nat) (op : Operation) : Option McpServer :=
  match op.stage with
  | .created =>
    let pending : Pending := ⟨.ofRequest crates policy op.request, false⟩
    some (w.turn i op w.serving (.started pending) [.start pending.info])
  | _ => none

def handleNotification (request : JsonRpcRequest) (ctx : ToolContext) : Serving :=
  if request.method = NOTIFICATIONS_CANCELLED then
    act crates w.serving (.notify ctx request.params)
  else w.serving

def check (i : Nat) (op : Operation) : Option McpServer :=
  match op.stage with
  | .started pending =>
    some (if op.request.jsonrpc ≠ JSONRPC_VERSION then
      w.finish crates policy i op pending w.serving (some (versionRefusal op.request))
    else
      match op.request.id with
      | none =>
        w.finish crates policy i op pending (w.handleNotification crates op.request op.ctx) none
      | some requestId =>
        if op.request.method = "initialize" then w.turn i op w.serving (.routing pending) []
        else
          w.turn i op (act crates w.serving (.register op.ctx requestId))
            (.drawn pending w.serving.guards.length) [])
  | _ => none

def push (i : Nat) (op : Operation) : Option McpServer :=
  match op.stage with
  | .drawn pending guard =>
    some (w.turn i op (act crates w.serving (.push guard)) (.serving pending guard) [])
  | _ => none

/-- The token is looked at first: `biased`. -/
def poll (i : Nat) (op : Operation) (answer : Option JsonRpcResponse) : Option McpServer :=
  match op.stage with
  | .serving pending guard =>
    if w.isCancelled guard then
      some (w.finish crates policy i op pending (act crates w.serving (.drop guard)) none)
    else
      match answer with
      | some response =>
        some (w.finish crates policy i op pending (act crates w.serving (.drop guard))
          (some response))
      | none => some w
  | .routing pending =>
    match answer with
    | some response => some (w.finish crates policy i op pending w.serving (some response))
    | none => some w
  | _ => none

def panic (i : Nat) (op : Operation) : Option McpServer :=
  match op.stage with
  | .serving pending guard =>
    if w.isCancelled guard then none
    else some (w.turn i op (w.abandon crates guard) .gone pending.drop)
  | .routing pending => some (w.turn i op w.serving .gone pending.drop)
  | _ => none

def redactorPanics (i : Nat) (op : Operation) : Option McpServer :=
  match op.stage with
  | .created => some (w.turn i op w.serving .gone [])
  | .serving pending guard =>
    if w.isCancelled guard then none
    else some (w.turn i op (act crates w.serving (.drop guard)) .gone pending.drop)
  | .routing pending => some (w.turn i op w.serving .gone pending.drop)
  | _ => none

def drop (i : Nat) (op : Operation) : Option McpServer :=
  match op.stage with
  | .created => some (w.turn i op w.serving .gone [])
  | .serving pending guard => some (w.turn i op (w.abandon crates guard) .gone pending.drop)
  | .routing pending => some (w.turn i op w.serving .gone pending.drop)
  | _ => none

def step : Event → Option McpServer
  | .token parent => (Serving.step crates w.serving (.token parent)).map fun serving =>
      { w with serving := serving }
  | .fire token => (Serving.step crates w.serving (.fire token)).map fun serving =>
      { w with serving := serving }
  | .arrive request ctx =>
    if ctx.cancellation ∈ w.serving.tokens.made then
      some { w with operations := w.operations ++ [⟨request, ctx, .created⟩] }
    else none
  | .begin i => w.operations[i]?.bind (w.begin crates policy i)
  | .check i => w.operations[i]?.bind (w.check crates policy i)
  | .push i => w.operations[i]?.bind (w.push crates i)
  | .poll i answer => w.operations[i]?.bind (w.poll crates policy i · answer)
  | .panic i => w.operations[i]?.bind (w.panic crates i)
  | .redactorPanics i =>
    if policy.redactor.isSome then w.operations[i]?.bind (w.redactorPanics crates i) else none
  | .drop i => w.operations[i]?.bind (w.drop crates i)

def empty : McpServer := ⟨.empty, [], []⟩

def told (i : Nat) : List Observed := (w.log.filter fun e => e.1 == i).map Prod.snd

end McpServer

def observed (crates : Crates) (policy : PayloadCapturePolicy) : Lts McpServer McpServer.Event where
  init w := w = .empty
  step w e w' := McpServer.step crates policy w e = some w'

end Tronc.Mcp
