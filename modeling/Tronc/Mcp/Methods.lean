import Tronc.Mcp.Handshake
import Tronc.Mcp.Pagination
import Tronc.Mcp.ToolCall
import Tronc.Tasks.Manager
import Tronc.Tasks.Wire
import Tronc.Tools.Registry

namespace Tronc.Mcp

open Tools (Tool ToolAnnotations ToolRegistry ToolResponse)

/-- The levels of `notifications/message`, the least severe first. -/
inductive LogLevel where
  | debug
  | info
  | notice
  | warning
  | error
  | critical
  | alert
  | emergency
  deriving DecidableEq

namespace LogLevel

def ALL : List LogLevel := [debug, info, notice, warning, error, critical, alert, emergency]

def asStr : LogLevel → String
  | debug => "debug"
  | info => "info"
  | notice => "notice"
  | warning => "warning"
  | error => "error"
  | critical => "critical"
  | alert => "alert"
  | emergency => "emergency"

def fromWire (name : String) : Option LogLevel := ALL.find? fun level => level.asStr == name

end LogLevel

/-! How results are written. -/
section Wire

def ToolAnnotations.toValue (a : ToolAnnotations) : Json :=
  .object (Record.compact [("title", a.title.map .string), ("readOnlyHint", a.readOnlyHint.map .bool),
    ("destructiveHint", a.destructiveHint.map .bool), ("idempotentHint", a.idempotentHint.map .bool),
    ("openWorldHint", a.openWorldHint.map .bool)])

def taskSupportName : Tools.TaskSupport → String
  | .forbidden => "forbidden"
  | .optional => "optional"
  | .required => "required"

def toolValue (tool : Tool) : Json :=
  .object (Record.compact [("name", some (.string tool.name)),
    ("description", some (.string tool.description)), ("inputSchema", some tool.inputSchema),
    ("outputSchema", tool.outputSchema), ("annotations", tool.annotations.map ToolAnnotations.toValue),
    ("execution", tool.execution.map fun execution =>
      .object [("taskSupport", .string (taskSupportName execution.taskSupport))])])

def contentValue : Tools.Content → Json
  | .text text => .object [("type", .string "text"), ("text", .string text)]
  | .block value => value

def toolResponseFields (response : ToolResponse) : Map :=
  Record.compact [("content", some (.array (response.content.map contentValue))),
    ("isError", some (.bool response.isError)), ("structuredContent", response.structuredContent)]

/-- What a tool asks of the client before it can answer; one of the two is there. -/
structure InputRequiredResult where
  inputRequests : Option Map
  requestState : Option String
  present : inputRequests.isSome ∨ requestState.isSome

def InputRequiredResult.fields (input : InputRequiredResult) : Map :=
  Record.compact [("resultType", some (.string "input_required")),
    ("inputRequests", input.inputRequests.map .object), ("requestState", input.requestState.map .string)]

def createTaskFields (task : Tasks.Task) : Map :=
  ("resultType", .string "task") :: Record.compact task.fields

def getTaskFields (task : Tasks.DetailedTask) : Map :=
  let wire := Tasks.DetailedTaskWire.ofDetailed task
  ("resultType", .string "complete") :: Record.compact (wire.task.fields ++ wire.payloadFields)

def taskAckFields : Map := [("resultType", .string "complete")]

/-- The capabilities of a server, each as it is written. -/
structure ServerCapabilities where
  experimental : Option Map
  logging : Option Json
  completions : Option Json
  prompts : Option Json
  resources : Option Json
  tools : Option Json
  extensions : Option Map
  deriving DecidableEq

def ServerCapabilities.toValue (c : ServerCapabilities) : Json :=
  .object (Record.compact [("experimental", c.experimental.map .object), ("logging", c.logging),
    ("completions", c.completions), ("prompts", c.prompts), ("resources", c.resources),
    ("tools", c.tools), ("extensions", c.extensions.map .object)])

end Wire

def TASKS_EXTENSION_ID : String := "io.modelcontextprotocol/tasks"

def LOGGING_SET_LEVEL : String := "logging/setLevel"

def TASKS_GET : String := "tasks/get"

def TASKS_UPDATE : String := "tasks/update"

def TASKS_CANCEL : String := "tasks/cancel"

/-- The methods whose results a client may cache. -/
def CACHEABLE_RESULT_METHODS : List String :=
  ["tools/list", "resources/list", "resources/templates/list", "prompts/list", "resources/read"]

def UNCACHED_TTL_MS : UInt64 := 0

def UNSHARED_CACHE_SCOPE : String := "private"

/-- `Map::entry` and `or_insert`. -/
def orInsert (fields : Map) (key : String) (value : Json) : Map :=
  if fields.containsKey key then fields else fields ++ [(key, value)]

def frameCacheableResult (method : String) (fields : Map) : Map :=
  if method ∈ CACHEABLE_RESULT_METHODS then
    orInsert (orInsert fields "ttlMs" (Record.u64 UNCACHED_TTL_MS)) "cacheScope"
      (.string UNSHARED_CACHE_SCOPE)
  else fields

def frameModernResult (method : String) (response : JsonRpcResponse) : JsonRpcResponse :=
  match response.result with
  | some (.object fields) =>
    { response with
      result := some (.object
        (frameCacheableResult method (orInsert fields "resultType" (.string "complete")))) }
  | _ => response

/-- What a call knows of its caller, besides what the registry reads; `session` is whether its client
has one. -/
structure CallContext extends caller : Tools.ToolContext where
  clientCapabilities : Option Json
  inputResponses : Option Map
  requestState : Option String
  session : Bool
  deriving DecidableEq

namespace CallContext

variable (ctx : CallContext)

def declaresExtension (extension : String) : Bool :=
  ((ctx.clientCapabilities.bind (Json.get · "extensions")).bind (Json.get · extension)).isSome

def supportsTasks : Bool := ctx.declaresExtension TASKS_EXTENSION_ID

def owner : Tasks.TaskOwner := ⟨ctx.userId, ctx.tenantId⟩

end CallContext

inductive CallToolOutcome where
  | immediate (response : ToolResponse)
  | unknownTool
  | task (task : Tasks.Task)
  | inputRequired (input : InputRequiredResult)

/-- A host's own tool surface. -/
structure ToolDispatcher where
  listTools : CallContext → List Tool
  callTool : String → CallContext → Json → CallToolOutcome

/-- A host's own methods; `none` declines. -/
abbrev MethodHandler := String → Option Json → Option Json → CallContext → Option JsonRpcResponse

/-- The engine, with what the host installed, as it is when a request is served: what the task manager
answers a call with is what it answers it with then. -/
structure Methods.McpServer (S : Type) where
  supported : List String
  name : String
  version : String
  capabilities : ServerCapabilities
  instructions : Option String
  pageSize : Option ℕ+
  tools : ToolRegistry S
  state : S
  toolDispatcher : Option ToolDispatcher
  methodHandler : Option MethodHandler
  taskManager : Option (Tasks.Call → Tasks.Outcome)

/-- What a request leaves in the session of its client. -/
inductive SessionChange where
  | recordCapabilities (declared : Option Json)
  | setLogLevel (level : LogLevel)
  deriving DecidableEq

structure Served where
  response : JsonRpcResponse
  change : Option SessionChange
  deriving DecidableEq

def taskStatusDebug : Tasks.TaskStatus → String
  | .working => "Working"
  | .inputRequired => "InputRequired"
  | .completed => "Completed"
  | .failed => "Failed"
  | .cancelled => "Cancelled"

def taskErrorText : Tasks.TaskError → String
  | .notFound id => "task '" ++ id.raw ++ "' not found"
  | .invalidState id status =>
    "task '" ++ id.raw ++ "' is " ++ taskStatusDebug status ++ " and cannot accept this operation"
  | .invalidInput id reason => "input for task '" ++ id.raw ++ "' rejected: " ++ reason
  | .detached id => "task '" ++ id.raw ++ "' has no running operation to receive input"
  | .store reason => "task store failure: " ++ reason

def missingCapabilityError (id : Option Json) (capability : String) : JsonRpcResponse :=
  .failureWithData id ErrorCode.missingRequiredClientCapability
    ("Request requires the undeclared client capability '" ++ capability ++ "'")
    (.object [("requiredCapabilities", .array [.string capability])])

def taskErrorResponse (id : Option Json) (e : Tasks.TaskError) : JsonRpcResponse :=
  match e with
  | .notFound _ | .invalidState .. | .invalidInput .. =>
    .failure id ErrorCode.invalidParams (taskErrorText e)
  | .detached _ | .store _ => .failure id ErrorCode.internalError (taskErrorText e)

def taskIdParam (params : Option Json) : Except String Tasks.TaskId :=
  match (params.bind (Json.get · "taskId")).bind Json.asStr with
  | some raw => .ok ⟨raw⟩
  | none => .error "Missing required parameter 'taskId'"

def methodNotFound (method : String) (id : Option Json) : JsonRpcResponse :=
  .failure id ErrorCode.methodNotFound ("Method not found: " ++ method)

/-- The answer to a call of the manager; it answers these three with a task or an error. -/
def taskResponse (id : Option Json) (fields : Tasks.DetailedTask → Map) :
    Tasks.Outcome → JsonRpcResponse
  | .task task => .success id (.object (fields task))
  | .error e => taskErrorResponse id e
  | .run _ | .removed _ | .responses _ => .success id (.object taskAckFields)

def handleTaskMethod (manager : Tasks.Call → Tasks.Outcome) (method : String) (id : Option Json)
    (params : Option Json) (ctx : CallContext) : JsonRpcResponse :=
  match taskIdParam params with
  | .error reason => .failure id ErrorCode.invalidParams reason
  | .ok taskId =>
    if method = TASKS_GET then taskResponse id getTaskFields (manager (.get ctx.owner taskId))
    else if method = TASKS_UPDATE then
      match (params.bind (Json.get · "inputResponses")).bind Json.asObject with
      | none => .failure id ErrorCode.invalidParams "Missing required object parameter 'inputResponses'"
      | some responses =>
        taskResponse id (fun _ => taskAckFields) (manager (.applyInput ctx.owner taskId responses))
    else if method = TASKS_CANCEL then
      taskResponse id (fun _ => taskAckFields) (manager (.cancel ctx.owner taskId))
    else methodNotFound method id

namespace Methods.McpServer

variable {S : Type} (crates : Crates) (engine : Base64.UrlEngine) (refuse : Json → String)
  (server : McpServer S)

def identity : ServerIdentity :=
  ⟨server.name, server.version, server.capabilities.toValue, server.instructions⟩

def advertisedCapabilities : ServerCapabilities :=
  if server.taskManager.isSome then
    { server.capabilities with
      extensions := some (orInsert (server.capabilities.extensions.getD []) TASKS_EXTENSION_ID
        (.object [])) }
  else server.capabilities

def discoverFields : Map :=
  Record.compact [("resultType", some (.string "complete")),
    ("supportedVersions", some (.array (server.supported.map .string))),
    ("capabilities", some server.advertisedCapabilities.toValue),
    ("serverInfo", some (ServerInfo.ofName server.name server.version).toValue),
    ("instructions", server.instructions.map .string), ("ttlMs", some (Record.u64 3600000)),
    ("cacheScope", some (.string "public"))]

def handleServerDiscover (id : Option Json) : JsonRpcResponse := .success id (.object server.discoverFields)

def handleUnknownMethod (method : String) (id params : Option Json) (ctx : CallContext) :
    JsonRpcResponse :=
  match server.methodHandler.bind fun handler => handler method id params ctx with
  | some response => response
  | none => methodNotFound method id

def handleSetLevel (id params : Option Json) (ctx : CallContext) : Served :=
  match ((params.bind (Json.get · "level")).bind Json.asStr).bind LogLevel.fromWire with
  | none =>
    ⟨.failure id ErrorCode.invalidParams ("logging/setLevel needs a 'level' naming one of debug, " ++
      "info, notice, warning, error, critical, alert, emergency"), none⟩
  | some level =>
    if ctx.session then ⟨.success id (.object []), some (.setLogLevel level)⟩
    else
      ⟨.failure id ErrorCode.invalidRequest ("logging/setLevel needs a session to keep the level in: " ++
        "initialize over stdio, or over HTTP on a server that keeps sessions, and send its " ++
        "Mcp-Session-Id"), none⟩

def listTools (id params : Option Json) (ctx : CallContext) : JsonRpcResponse :=
  let definitions := match server.toolDispatcher with
    | some dispatcher => dispatcher.listTools ctx
    | none => server.tools.listDefinitionsFor ctx.isAdmin
  handleToolsList engine id params server.pageSize Tool.name toolValue definitions

def inputSchemaOf (ctx : CallContext) (name : String) : Option Json :=
  match server.toolDispatcher with
  | some dispatcher =>
    ((dispatcher.listTools ctx).find? fun tool => tool.name == name).map Tool.inputSchema
  | none => (server.tools.tools.lookup name).map fun tool => tool.definition.inputSchema

/-- What the call comes to, of the host's dispatcher or of the registry. -/
def callOutcome (ctx : CallContext) (call : ToolCall) : CallToolOutcome :=
  let arguments := call.arguments.getD (.object [])
  let ctx :=
    { ctx with inputResponses := call.inputResponses, requestState := call.requestState }
  match server.toolDispatcher with
  | some dispatcher => dispatcher.callTool call.name ctx arguments
  | none =>
    match (server.tools.execute call.name server.state ctx.caller arguments).response call.name with
    | none => .unknownTool
    | some response => .immediate response

/-- The answer to a call that came to an outcome. -/
def outcomeResponse (id : Option Json) (name : String) (modern allowTasks : Bool) :
    CallToolOutcome → JsonRpcResponse
  | .immediate response => .success id (.object (toolResponseFields response))
  | .unknownTool => .failure id ErrorCode.invalidParams ("Unknown tool: " ++ name)
  | .task task =>
    if allowTasks && server.taskManager.isSome then .success id (.object (createTaskFields task))
    else .failure id ErrorCode.internalError
      "Tool returned a task handle, but this call may not be answered asynchronously"
  | .inputRequired input =>
    if modern then .success id (.object input.fields)
    -- a legacy result has no `resultType`
    else .failure id ErrorCode.internalError
      "Tool asked for input, but a legacy-era call cannot carry an input-required result"

/-- The call that a request makes, if it is one that is made. -/
def checked (params : Option Json) (ctx : CallContext) (modern : Bool)
    (headers : Option (AList fun _ : String => Json)) : Except CallRefusal ToolCall :=
  checkedCall crates (server.inputSchemaOf ctx) params modern headers

/-- `refuse` is what `serde` says of parameters that are no call's. -/
def handleToolsCall (id params : Option Json) (ctx : CallContext) (modern allowTasks : Bool)
    (headers : Option (AList fun _ : String => Json)) : JsonRpcResponse :=
  match server.checked crates params ctx modern headers with
  | .error .missingParams => .failure id ErrorCode.invalidParams "Missing params for tools/call"
  | .error .invalidParams =>
    .failure id ErrorCode.invalidParams ("Invalid params: " ++ refuse (params.getD .null))
  | .error (.headerMismatch reason) => .failure id ErrorCode.headerMismatch reason
  | .ok call => server.outcomeResponse id call.name modern allowTasks (server.callOutcome ctx call)

def processLegacy (request : JsonRpcRequest) (ctx : CallContext) : Served :=
  let answer (response : JsonRpcResponse) : Served := ⟨response, none⟩
  if request.method = "initialize" then
    let (response, declared) :=
      handleInitialize server.supported server.identity request.id request.params
    ⟨response, if ctx.session then some (.recordCapabilities declared) else none⟩
  else if request.method = LOGGING_SET_LEVEL ∧ server.capabilities.logging.isSome then
    handleSetLevel request.id request.params ctx
  else if request.method = "tools/list" then
    answer (server.listTools engine request.id request.params ctx)
  else if request.method = "tools/call" then
    -- no task handle is ever handed out in this era
    answer (server.handleToolsCall crates refuse request.id request.params ctx false false
      request.headers)
  else if request.method = "server/discover" then answer (server.handleServerDiscover request.id)
  else if request.method = "ping" then answer (.success request.id (.object []))
  else answer (server.handleUnknownMethod request.method request.id request.params ctx)

/-- The response of a modern request, before it is framed. -/
def modernResponse (request : JsonRpcRequest) (ctx : CallContext) : JsonRpcResponse :=
  if request.method = "server/discover" then server.handleServerDiscover request.id
  else if request.method = "tools/list" then server.listTools engine request.id request.params ctx
  else if request.method = "tools/call" then
    server.handleToolsCall crates refuse request.id request.params ctx true ctx.supportsTasks
      request.headers
  else if request.method = TASKS_GET ∨ request.method = TASKS_UPDATE ∨
      request.method = TASKS_CANCEL then
    match server.taskManager with
    | some manager =>
      if ctx.supportsTasks then
        handleTaskMethod manager request.method request.id request.params ctx
      else missingCapabilityError request.id TASKS_EXTENSION_ID
    | none => server.handleUnknownMethod request.method request.id request.params ctx
  else server.handleUnknownMethod request.method request.id request.params ctx

def processModern (request : JsonRpcRequest) (requestMeta : ModernRequestMeta) (ctx : CallContext) :
    JsonRpcResponse :=
  if !supportsVersion server.supported requestMeta.protocolVersion then
    unsupportedVersionError server.supported request.id requestMeta.protocolVersion
  else
    -- capabilities are declared on each request in this era
    let ctx := { ctx with clientCapabilities := some requestMeta.clientCapabilities }
    if request.method ∈ REMOVED_METHODS then methodNotFound request.method request.id
    else frameModernResult request.method (server.modernResponse crates engine refuse request ctx)

def route (request : JsonRpcRequest) (ctx : CallContext) : Served :=
  match Mcp.route request with
  | .error refusal => ⟨refusal, none⟩
  | .ok (.modern requestMeta) =>
    ⟨server.processModern crates engine refuse request requestMeta ctx, none⟩
  | .ok .legacy => server.processLegacy crates engine refuse request ctx

/-- `dispatch` of what is not cancelled; a notification is answered with nothing. -/
def dispatch (request : JsonRpcRequest) (ctx : CallContext) : Option Served :=
  if request.jsonrpc ≠ JSONRPC_VERSION then some ⟨versionRefusal request, none⟩
  else if request.id.isSome then some (server.route crates engine refuse request ctx)
  else none

end Methods.McpServer

end Tronc.Mcp
