import Tronc.Mcp.Mirror
import Tronc.Record

namespace Tronc.Mcp

/-- The parameters of a `tools/call`. -/
structure ToolCall where
  name : String
  arguments : Option Json
  inputResponses : Option Map
  requestState : Option String
  deriving DecidableEq

namespace ToolCall

def ofFields (name arguments inputResponses requestState : Option Json) : Option ToolCall := do
  let name ← name.bind Json.asStr
  let arguments ← optionalField some arguments
  let inputResponses ← optionalField Json.asObject inputResponses
  let requestState ← optionalField Json.asStr requestState
  return ⟨name, arguments, inputResponses, requestState⟩

/-- What `serde` reads of a call, from an object or from a sequence of its fields. -/
def fromValue : Json → Option ToolCall
  | .object fields =>
    ofFields (Map.get fields "name") (Map.get fields "arguments")
      (Map.get fields "inputResponses") (Map.get fields "requestState")
  | .array xs => if xs.length ≤ 4 then ofFields xs[0]? xs[1]? xs[2]? xs[3]? else none
  | .null | .bool _ | .number _ | .string _ => none

end ToolCall

/-- Why `handle_tools_call` answers without running a call. -/
inductive CallRefusal where
  | missingParams
  | invalidParams
  | headerMismatch (reason : String)
  deriving DecidableEq

/-- The call that `handle_tools_call` goes on to run. `inputSchemaOf` is `input_schema_of`: what the
host's dispatcher or the registry knows of a tool. -/
def checkedCall (crates : Crates) (inputSchemaOf : String → Option Json) (params : Option Json)
    (modern : Bool) (headers : Option (AList fun _ : String => Json)) :
    Except CallRefusal ToolCall :=
  match params with
  | none => .error .missingParams
  | some params =>
    match ToolCall.fromValue params with
    | none => .error .invalidParams
    | some call =>
      match headers.filter fun headers => modern || carriesParamHeader headers with
      | none => .ok call
      | some headers =>
        match inputSchemaOf call.name with
        | none => .ok call
        | some schema =>
          match checkParamHeaders crates schema call.arguments headers modern with
          | .error reason => .error (.headerMismatch reason)
          | .ok () => .ok call

end Tronc.Mcp
