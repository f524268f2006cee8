import Mathlib.Data.List.AList
import Tronc.Mcp.Serialize
import Tronc.Sessions.Store

namespace Tronc.Tools

open Mcp (Crates toText)

/-- What a tool declares of itself: flags in a `u16`. -/
abbrev ToolCapabilities := BitVec 16

namespace ToolCapabilities

def REQUIRES_AUTH : ToolCapabilities := 0x01

def REQUIRES_TENANT : ToolCapabilities := 0x02

def ADMIN_ONLY : ToolCapabilities := 0x20

def contains (caps flags : ToolCapabilities) : Bool := caps &&& flags == flags

def intersects (caps flags : ToolCapabilities) : Bool := caps &&& flags != 0

end ToolCapabilities

structure ToolAnnotations where
  title : Option String
  readOnlyHint : Option Bool
  destructiveHint : Option Bool
  idempotentHint : Option Bool
  openWorldHint : Option Bool
  deriving DecidableEq

inductive TaskSupport where
  | forbidden
  | optional
  | required
  deriving DecidableEq

structure ToolExecution where
  taskSupport : TaskSupport
  deriving DecidableEq

/-- A tool's definition, as `tools/list` gives it. -/
structure Tool where
  name : String
  description : String
  inputSchema : Json
  outputSchema : Option Json
  annotations : Option ToolAnnotations
  execution : Option ToolExecution
  deriving DecidableEq

/-- A text block, or a block of another type as it is written. -/
inductive Content where
  | text (text : String)
  | block (value : Json)
  deriving DecidableEq

structure ToolResponse where
  content : List Content
  isError : Bool
  structuredContent : Option Json
  deriving DecidableEq

def ToolResponse.error (message : String) : ToolResponse := ⟨[.text message], true, none⟩

/-- What the registry reads of a request's context: the caller, and what it may do. -/
structure ToolContext extends Sessions.ToolContext where
  isAdmin : Bool
  scopes : List String
  deriving DecidableEq

section Schemas

variable (crates : Crates)

def isObject : Json → Bool
  | .object _ => true
  | .null | .bool _ | .number _ | .string _ | .array _ => false

def isNames : Json → Bool
  | .array names => names.all fun name => name.asStr.isSome
  | .null | .bool _ | .number _ | .string _ | .object _ => false

/-- What is wrong with the `properties` of an output schema. -/
def propertiesDefect : Json → Option String
  | .object fields => (fields.find? fun e => !isObject e.2).map fun e =>
      "property " ++ e.1 ++ " has the schema " ++ toText crates e.2 ++
        ", not an object (document the field)"
  | properties => some ("properties is " ++ toText crates properties ++ ", not an object")

def outputSchemaDefect (schema : Json) : Option String :=
  match schema.get "type" with
  | none => some "root has no type"
  | some kind =>
    if kind ≠ .string "object" then
      some ("root type is " ++ toText crates kind ++ ", not \x22object\x22")
    else
      match (schema.get "properties").bind (propertiesDefect crates) with
      | some defect => some defect
      | none => ((schema.get "required").filter fun required => !isNames required).map
          fun required => "required is " ++ toText crates required ++ ", not a list of names"

end Schemas

/-- One way a value violates a schema: where in the value, and how. -/
structure Violation where
  instancePath : String
  message : String

/-- A compiled schema: every way a value violates it. -/
abbrev Validator := Json → List Violation

inductive SchemaRole where
  | input
  | output
  deriving DecidableEq

def SchemaRole.text : SchemaRole → String
  | .input => "inputSchema"
  | .output => "outputSchema"

structure SchemaCompileError where
  schema : SchemaRole
  reason : String
  deriving DecidableEq

def SchemaCompileError.text (e : SchemaCompileError) : String :=
  "its " ++ e.schema.text ++ " is not a usable JSON Schema: " ++ e.reason

structure SchemaViolations where
  violations : List String
  deriving DecidableEq

namespace SchemaViolations

def text (v : SchemaViolations) : String := "; ".intercalate v.violations

def collect (validator : Validator) (value : Json) : Except SchemaViolations Unit :=
  let violations := (validator value).map fun e =>
    if e.instancePath = "" then e.message else e.instancePath ++ ": " ++ e.message
  if violations.isEmpty then .ok () else .error ⟨violations⟩

end SchemaViolations

structure ToolSchemaValidator where
  input : Validator
  output : Option Validator

namespace ToolSchemaValidator

/-- `validatorFor` is what the schema compiler makes of a schema. -/
def compile (validatorFor : Json → Except String Validator) (tool : Tool) :
    Except SchemaCompileError ToolSchemaValidator :=
  match validatorFor tool.inputSchema with
  | .error reason => .error ⟨.input, reason⟩
  | .ok input =>
    match tool.outputSchema with
    | none => .ok ⟨input, none⟩
    | some schema =>
      match validatorFor schema with
      | .error reason => .error ⟨.output, reason⟩
      | .ok output => .ok ⟨input, some output⟩

variable (validator : ToolSchemaValidator)

def checkArguments (arguments : Json) : Except SchemaViolations Unit :=
  SchemaViolations.collect validator.input arguments

def checkResult (response : ToolResponse) : Except SchemaViolations Unit :=
  match validator.output with
  | none => .ok ()
  | some output =>
    if response.isError then .ok ()
    else
      match response.structuredContent with
      | none => .error
          ⟨["the tool declares an outputSchema but returned no structuredContent"]⟩
      | some structured => SchemaViolations.collect output structured

end ToolSchemaValidator

/-- A tool over a server state: its definition and capabilities stay as they are, its scopes may hang
on the state, and its body runs on it. -/
structure McpTool (S : Type) where
  definition : Tool
  capabilities : ToolCapabilities
  requiredScopes : S → List String
  execute : S → ToolContext → Json → S × ToolResponse

/-- Why a call is refused before anything runs. -/
inductive Refusal where
  | admin
  | caller
  | tenant
  | scope (missing : String)
  deriving DecidableEq

def Refusal.text (name : String) : Refusal → String
  | .admin => "Tool '" ++ name ++ "' requires admin privileges"
  | .caller => "Tool '" ++ name ++
      "' requires a verified caller; this request carries no caller identity"
  | .tenant => "Tool '" ++ name ++ "' requires a tenant; this caller's credential names none"
  | .scope missing => "Tool '" ++ name ++ "' requires the '" ++ missing ++ "' scope"

open ToolCapabilities in
def refusal (caps : ToolCapabilities) (scopes : List String) (ctx : ToolContext) :
    Option Refusal :=
  let identified := ctx.userId.any fun id => id != ""
  let tenanted := ctx.tenantId.any fun id => id != ""
  if caps.contains ADMIN_ONLY && !ctx.isAdmin then some .admin
  else if caps.intersects (REQUIRES_AUTH ||| REQUIRES_TENANT) && !identified then some .caller
  else if caps.contains REQUIRES_TENANT && !tenanted then some .tenant
  else (scopes.find? fun scope => !ctx.scopes.any fun granted => granted == scope).map .scope

structure ToolRegistry (S : Type) where
  tools : AList fun _ : String => McpTool S
  categories : AList fun _ : String => List String
  validators : AList fun _ : String => Except SchemaCompileError ToolSchemaValidator

/-- A call that registers a tool. -/
inductive Registration (S : Type) where
  | register (tool : McpTool S)
  | registerWithCategory (tool : McpTool S) (category : String)

def Registration.tool {S : Type} : Registration S → McpTool S
  | .register tool => tool
  | .registerWithCategory tool _ => tool

/-- The category the tool is to be listed in. -/
def Registration.category {S : Type} : Registration S → Option String
  | .register _ => none
  | .registerWithCategory _ category => some category

/-- What comes of a `tools/call`. -/
inductive Execution (S : Type) where
  | unknown
  | refused (reason : Refusal)
  | uncompiled (error : SchemaCompileError)
  | invalidArguments (violations : SchemaViolations)
  /-- The body ran, and its result is not what the tool declares. -/
  | mismatched (state : S) (violations : SchemaViolations)
  | answered (state : S) (response : ToolResponse)

namespace Execution

variable {S : Type}

/-- What `execute` answers. -/
def response (name : String) : Execution S → Option ToolResponse
  | .unknown => none
  | .refused reason => some (.error (reason.text name))
  | .uncompiled e => some (.error (name ++ ": " ++ e.text))
  | .invalidArguments v => some (.error (name ++ ": invalid arguments: " ++ v.text))
  | .mismatched _ v => some (.error
      (name ++ ": the result does not match the tool's outputSchema: " ++ v.text))
  | .answered _ response => some response

/-- Whether the tool's body ran. -/
def ran : Execution S → Bool
  | .mismatched _ _ | .answered _ _ => true
  | .unknown | .refused _ | .uncompiled _ | .invalidArguments _ => false

/-- Whether the caller is refused for want of admin rights. -/
def wantsAdmin : Execution S → Bool
  | .refused .admin => true
  | .refused .caller | .refused .tenant | .refused (.scope _) | .unknown | .uncompiled _
  | .invalidArguments _ | .mismatched _ _ | .answered _ _ => false

end Execution

namespace ToolRegistry

variable {S : Type}

def empty : ToolRegistry S := ⟨∅, ∅, ∅⟩

section Registering

variable (crates : Crates) (validatorFor : Json → Except String Validator)

/-- The registry, and the name the tool is registered under unless it is refused. -/
def insert (registry : ToolRegistry S) (tool : McpTool S) : ToolRegistry S × Option String :=
  let definition := tool.definition
  match definition.outputSchema.bind (outputSchemaDefect crates) with
  | some _ => (registry, none)
  | none =>
    ({ registry with
        validators := registry.validators.insert definition.name
          (ToolSchemaValidator.compile validatorFor definition)
        tools := registry.tools.insert definition.name tool }, some definition.name)

def register (registry : ToolRegistry S) (tool : McpTool S) : ToolRegistry S :=
  (registry.insert crates validatorFor tool).1

def registerWithCategory (registry : ToolRegistry S) (tool : McpTool S) (category : String) :
    ToolRegistry S :=
  match registry.insert crates validatorFor tool with
  | (registry, some name) =>
    { registry with
      categories := registry.categories.insert category
        ((registry.categories.lookup category).getD [] ++ [name]) }
  | (registry, none) => registry

def step (registry : ToolRegistry S) : Registration S → ToolRegistry S
  | .register tool => registry.register crates validatorFor tool
  | .registerWithCategory tool category =>
    registry.registerWithCategory crates validatorFor tool category

/-- The registry after these calls. -/
def run (calls : List (Registration S)) : ToolRegistry S :=
  calls.foldl (step crates validatorFor) empty

end Registering

variable (registry : ToolRegistry S)

def listDefinitions : List Tool := registry.tools.entries.map fun e => e.2.definition

def listDefinitionsFor (isAdmin : Bool) : List Tool :=
  (registry.tools.entries.filter fun e =>
    isAdmin || !e.2.capabilities.contains ToolCapabilities.ADMIN_ONLY).map fun e => e.2.definition

def toolsInCategory (category : String) : List String :=
  (registry.categories.lookup category).getD []

def execute (name : String) (state : S) (ctx : ToolContext) (arguments : Json) : Execution S :=
  match registry.tools.lookup name with
  | none => .unknown
  | some tool =>
    match refusal tool.capabilities (tool.requiredScopes state) ctx with
    | some reason => .refused reason
    | none =>
      match registry.validators.lookup name with
      | none => .unknown
      | some (.error e) => .uncompiled e
      | some (.ok validator) =>
        match validator.checkArguments arguments with
        | .error violations => .invalidArguments violations
        | .ok () =>
          let (state, response) := tool.execute state ctx arguments
          match validator.checkResult response with
          | .error violations => .mismatched state violations
          | .ok () => .answered state response

end ToolRegistry

end Tronc.Tools
