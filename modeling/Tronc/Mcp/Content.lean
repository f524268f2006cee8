import Tronc.Mcp.RoundTrip
import Tronc.Record

namespace Tronc.Mcp

open Record

/-- The sender or recipient of a message. -/
inductive Role where
  | user
  | assistant
  deriving DecidableEq

def Role.asStr : Role → String
  | .user => "user"
  | .assistant => "assistant"

def Role.fromValue : Json → Option Role := readName [("user", .user), ("assistant", .assistant)]

inductive IconTheme where
  | light
  | dark
  deriving DecidableEq

def IconTheme.asStr : IconTheme → String
  | .light => "light"
  | .dark => "dark"

def IconTheme.fromValue : Json → Option IconTheme := readName [("light", .light), ("dark", .dark)]

/-- Hints on how a client should use a block. -/
structure Annotations where
  audience : Option (List Role)
  priority : Option Binary64
  lastModified : Option String
  deriving DecidableEq

namespace Annotations

def fields (a : Annotations) : List (String × Option Json) :=
  [("audience", a.audience.map (vec fun role => .string role.asStr)), ("priority", a.priority.map f64),
    ("lastModified", a.lastModified.map .string)]

def ofFields (field : String → Option Json) : Option Annotations := do
  let audience ← optionalField (readVec Role.fromValue) (field "audience")
  let priority ← optionalField readF64 (field "priority")
  let lastModified ← optionalField Json.asStr (field "lastModified")
  return ⟨audience, priority, lastModified⟩

def toValue (a : Annotations) : Json := .object (compact a.fields)

def fromValue : Json → Option Annotations :=
  read ["audience", "priority", "lastModified"] 3 ofFields

end Annotations

structure Icon where
  src : String
  mimeType : Option String
  sizes : Option (List String)
  theme : Option IconTheme
  deriving DecidableEq

namespace Icon

def fields (i : Icon) : List (String × Option Json) :=
  [("src", some (.string i.src)), ("mimeType", i.mimeType.map .string),
    ("sizes", i.sizes.map (vec .string)), ("theme", i.theme.map fun theme => .string theme.asStr)]

def ofFields (field : String → Option Json) : Option Icon := do
  let src ← (field "src").bind Json.asStr
  let mimeType ← optionalField Json.asStr (field "mimeType")
  let sizes ← optionalField (readVec Json.asStr) (field "sizes")
  let theme ← optionalField IconTheme.fromValue (field "theme")
  return ⟨src, mimeType, sizes, theme⟩

def toValue (i : Icon) : Json := .object (compact i.fields)

def fromValue : Json → Option Icon := read ["src", "mimeType", "sizes", "theme"] 4 ofFields

end Icon

/-- What every block may carry: its annotations and its `_meta` object. -/
structure Hints where
  annotations : Option Annotations
  meta_ : Option Map
  deriving DecidableEq

def Hints.fields (h : Hints) : List (String × Option Json) :=
  [("annotations", h.annotations.map Annotations.toValue), ("_meta", h.meta_.map .object)]

def Hints.ofFields (field : String → Option Json) : Option Hints := do
  let annotations ← optionalField Annotations.fromValue (field "annotations")
  let meta_ ← optionalField Json.asObject (field "_meta")
  return ⟨annotations, meta_⟩

structure TextContent extends Hints where
  text : String
  deriving DecidableEq

namespace TextContent

def fields (c : TextContent) : List (String × Option Json) :=
  ("text", some (.string c.text)) :: c.toHints.fields

def ofFields (field : String → Option Json) : Option TextContent := do
  let text ← (field "text").bind Json.asStr
  let hints ← Hints.ofFields field
  return ⟨hints, text⟩

def fromValue : Json → Option TextContent := read ["text", "annotations", "_meta"] 3 ofFields

end TextContent

/-- Base64-encoded data with its type, as an image and an audio block carry it. -/
structure MediaContent extends Hints where
  data : String
  mimeType : String
  deriving DecidableEq

namespace MediaContent

def fields (c : MediaContent) : List (String × Option Json) :=
  ("data", some (.string c.data)) :: ("mimeType", some (.string c.mimeType)) :: c.toHints.fields

def ofFields (field : String → Option Json) : Option MediaContent := do
  let data ← (field "data").bind Json.asStr
  let mimeType ← (field "mimeType").bind Json.asStr
  let hints ← Hints.ofFields field
  return ⟨hints, data, mimeType⟩

def fromValue : Json → Option MediaContent :=
  read ["data", "mimeType", "annotations", "_meta"] 4 ofFields

end MediaContent

abbrev ImageContent := MediaContent

abbrev AudioContent := MediaContent

structure ResourceLink extends Hints where
  uri : String
  name : String
  title : Option String
  description : Option String
  mimeType : Option String
  size : Option UInt64
  icons : Option (List Icon)
  deriving DecidableEq

namespace ResourceLink

def fields (l : ResourceLink) : List (String × Option Json) :=
  ("uri", some (.string l.uri)) :: ("name", some (.string l.name)) :: ("title", l.title.map .string) ::
    ("description", l.description.map .string) :: ("mimeType", l.mimeType.map .string) ::
    ("size", l.size.map u64) :: ("icons", l.icons.map (vec Icon.toValue)) :: l.toHints.fields

def ofFields (field : String → Option Json) : Option ResourceLink := do
  let uri ← (field "uri").bind Json.asStr
  let name ← (field "name").bind Json.asStr
  let title ← optionalField Json.asStr (field "title")
  let description ← optionalField Json.asStr (field "description")
  let mimeType ← optionalField Json.asStr (field "mimeType")
  let size ← optionalField readU64 (field "size")
  let icons ← optionalField (readVec Icon.fromValue) (field "icons")
  let hints ← Hints.ofFields field
  return ⟨hints, uri, name, title, description, mimeType, size, icons⟩

def fromValue : Json → Option ResourceLink :=
  read ["uri", "name", "title", "description", "mimeType", "size", "icons", "annotations", "_meta"] 9
    ofFields

end ResourceLink

/-- The contents of a resource, without what tells the two kinds apart. -/
structure ContentsOf where
  uri : String
  mimeType : Option String
  meta_ : Option Map
  deriving DecidableEq

/-- A resource's contents: its text, or its bytes in base64. -/
inductive ResourceContents where
  | text (contents : ContentsOf) (body : String)
  | blob (contents : ContentsOf) (bytes : String)
  deriving DecidableEq

namespace ResourceContents

def fields : ResourceContents → List (String × Option Json)
  | text c body => [("uri", some (.string c.uri)), ("mimeType", c.mimeType.map .string),
      ("text", some (.string body)), ("_meta", c.meta_.map .object)]
  | blob c bytes => [("uri", some (.string c.uri)), ("mimeType", c.mimeType.map .string),
      ("blob", some (.string bytes)), ("_meta", c.meta_.map .object)]

/-- Every field is read before the kind is chosen; contents of both kinds, or of neither, are
refused. -/
def ofFields (field : String → Option Json) : Option ResourceContents := do
  let uri ← (field "uri").bind Json.asStr
  let mimeType ← optionalField Json.asStr (field "mimeType")
  let body ← optionalField Json.asStr (field "text")
  let bytes ← optionalField Json.asStr (field "blob")
  let meta_ ← optionalField Json.asObject (field "_meta")
  match body, bytes with
  | some body, none => some (text ⟨uri, mimeType, meta_⟩ body)
  | none, some bytes => some (blob ⟨uri, mimeType, meta_⟩ bytes)
  | some _, some _ | none, none => none

def toValue (c : ResourceContents) : Json := .object (compact c.fields)

def fromValue : Json → Option ResourceContents :=
  read ["uri", "mimeType", "text", "blob", "_meta"] 5 ofFields

end ResourceContents

structure EmbeddedResource extends Hints where
  resource : ResourceContents
  deriving DecidableEq

namespace EmbeddedResource

def fields (e : EmbeddedResource) : List (String × Option Json) :=
  ("resource", some e.resource.toValue) :: e.toHints.fields

def ofFields (field : String → Option Json) : Option EmbeddedResource := do
  let resource ← (field "resource").bind ResourceContents.fromValue
  let hints ← Hints.ofFields field
  return ⟨hints, resource⟩

def fromValue : Json → Option EmbeddedResource := read ["resource", "annotations", "_meta"] 3 ofFields

end EmbeddedResource

/-- A content block. -/
inductive Content where
  | text (block : TextContent)
  | image (block : ImageContent)
  | audio (block : AudioContent)
  | resourceLink (block : ResourceLink)
  | resource (block : EmbeddedResource)
  deriving DecidableEq

namespace Content

/-- The `type` a block is written under. -/
def tag : Content → String
  | text _ => "text"
  | image _ => "image"
  | audio _ => "audio"
  | resourceLink _ => "resource_link"
  | resource _ => "resource"

def hints : Content → Hints
  | text block => block.toHints
  | image block | audio block => block.toHints
  | resourceLink block => block.toHints
  | resource block => block.toHints

def fields : Content → List (String × Option Json)
  | text block => block.fields
  | image block | audio block => block.fields
  | resourceLink block => block.fields
  | resource block => block.fields

def toValue (c : Content) : Json := .object (compact (("type", some (.string c.tag)) :: c.fields))

/-- The `type` of a value, and the value without it: a member of an object, or the first element of
a sequence. -/
def untag : Json → Option (String × Json)
  | .object fields =>
    match Map.get fields "type" with
    | some (.string tag) => some (tag, .object (fields.filter (·.1 ≠ "type")))
    | _ => none
  | .array (.string tag :: rest) => some (tag, .array rest)
  | _ => none

/-- What is read of a value under each `type`. -/
def readUnder (v : Json) : String → Option Content
  | "text" => (TextContent.fromValue v).map text
  | "image" => (MediaContent.fromValue v).map image
  | "audio" => (MediaContent.fromValue v).map audio
  | "resource_link" => (ResourceLink.fromValue v).map resourceLink
  | "resource" => (EmbeddedResource.fromValue v).map resource
  | _ => none

def fromValue (v : Json) : Option Content := (untag v).bind fun tagged => readUnder tagged.2 tagged.1

end Content

/-- What a tool answers with, in full; `Tools.ToolResponse` has its blocks as they are written. -/
structure ToolResult where
  content : List Content
  isError : Bool
  structuredContent : Option Json
  deriving DecidableEq

namespace ToolResult

def fields (r : ToolResult) : List (String × Option Json) :=
  [("content", some (vec Content.toValue r.content)), ("isError", some (.bool r.isError)),
    ("structuredContent", r.structuredContent)]

def ofFields (field : String → Option Json) : Option ToolResult := do
  let content ← (field "content").bind (readVec Content.fromValue)
  let isError ← (field "isError").bind readBool
  let structuredContent ← optionalField some (field "structuredContent")
  return ⟨content, isError, structuredContent⟩

def toValue (r : ToolResult) : Json := .object (compact r.fields)

def fromValue : Json → Option ToolResult := read ["content", "isError", "structuredContent"] 3 ofFields

end ToolResult

structure PromptMessage where
  role : Role
  content : Content
  deriving DecidableEq

namespace PromptMessage

def fields (m : PromptMessage) : List (String × Option Json) :=
  [("role", some (.string m.role.asStr)), ("content", some m.content.toValue)]

def ofFields (field : String → Option Json) : Option PromptMessage := do
  let role ← (field "role").bind Role.fromValue
  let content ← (field "content").bind Content.fromValue
  return ⟨role, content⟩

def toValue (m : PromptMessage) : Json := .object (compact m.fields)

def fromValue : Json → Option PromptMessage := read ["role", "content"] 2 ofFields

end PromptMessage

structure ModelHint where
  name : Option String
  deriving DecidableEq

def ModelHint.toValue (h : ModelHint) : Json := .object (compact [("name", h.name.map .string)])

def ModelHint.fromValue : Json → Option ModelHint :=
  read ["name"] 1 fun field => (optionalField Json.asStr (field "name")).map ModelHint.mk

structure ModelPreferences where
  hints : Option (List ModelHint)
  costPriority : Option Binary64
  speedPriority : Option Binary64
  intelligencePriority : Option Binary64
  deriving DecidableEq

namespace ModelPreferences

def fields (p : ModelPreferences) : List (String × Option Json) :=
  [("hints", p.hints.map (vec ModelHint.toValue)), ("costPriority", p.costPriority.map f64),
    ("speedPriority", p.speedPriority.map f64),
    ("intelligencePriority", p.intelligencePriority.map f64)]

def ofFields (field : String → Option Json) : Option ModelPreferences := do
  let hints ← optionalField (readVec ModelHint.fromValue) (field "hints")
  let costPriority ← optionalField readF64 (field "costPriority")
  let speedPriority ← optionalField readF64 (field "speedPriority")
  let intelligencePriority ← optionalField readF64 (field "intelligencePriority")
  return ⟨hints, costPriority, speedPriority, intelligencePriority⟩

def toValue (p : ModelPreferences) : Json := .object (compact p.fields)

def fromValue : Json → Option ModelPreferences :=
  read ["hints", "costPriority", "speedPriority", "intelligencePriority"] 4 ofFields

end ModelPreferences

/-- `sampling/createMessage`: what the client's model is asked. -/
structure CreateMessageRequest where
  messages : List PromptMessage
  modelPreferences : Option ModelPreferences
  systemPrompt : Option String
  includeContext : Option String
  maxTokens : Int32
  temperature : Option Binary64
  stopSequences : Option (List String)
  metadata : Option Map
  deriving DecidableEq

namespace CreateMessageRequest

def fields (r : CreateMessageRequest) : List (String × Option Json) :=
  [("messages", some (vec PromptMessage.toValue r.messages)),
    ("modelPreferences", r.modelPreferences.map ModelPreferences.toValue),
    ("systemPrompt", r.systemPrompt.map .string), ("includeContext", r.includeContext.map .string),
    ("maxTokens", some (.number (Number.ofI32 r.maxTokens.toInt))),
    ("temperature", r.temperature.map f64), ("stopSequences", r.stopSequences.map (vec .string)),
    ("metadata", r.metadata.map .object)]

def readI32 : Json → Option Int32
  | .number n => (Number.asI32 n).map Int32.ofInt
  | _ => none

def ofFields (field : String → Option Json) : Option CreateMessageRequest := do
  let messages ← (field "messages").bind (readVec PromptMessage.fromValue)
  let modelPreferences ← optionalField ModelPreferences.fromValue (field "modelPreferences")
  let systemPrompt ← optionalField Json.asStr (field "systemPrompt")
  let includeContext ← optionalField Json.asStr (field "includeContext")
  let maxTokens ← (field "maxTokens").bind readI32
  let temperature ← optionalField readF64 (field "temperature")
  let stopSequences ← optionalField (readVec Json.asStr) (field "stopSequences")
  let metadata ← optionalField Json.asObject (field "metadata")
  return ⟨messages, modelPreferences, systemPrompt, includeContext, maxTokens, temperature,
    stopSequences, metadata⟩

def toValue (r : CreateMessageRequest) : Json := .object (compact r.fields)

def fromValue : Json → Option CreateMessageRequest :=
  read ["messages", "modelPreferences", "systemPrompt", "includeContext", "maxTokens", "temperature",
    "stopSequences", "metadata"] 8 ofFields

end CreateMessageRequest

/-- What the client's model answered. -/
structure CreateMessageResult where
  role : Role
  content : Content
  model : String
  stopReason : Option String
  deriving DecidableEq

namespace CreateMessageResult

def fields (r : CreateMessageResult) : List (String × Option Json) :=
  [("role", some (.string r.role.asStr)), ("content", some r.content.toValue),
    ("model", some (.string r.model)), ("stopReason", r.stopReason.map .string)]

def ofFields (field : String → Option Json) : Option CreateMessageResult := do
  let role ← (field "role").bind Role.fromValue
  let content ← (field "content").bind Content.fromValue
  let model ← (field "model").bind Json.asStr
  let stopReason ← optionalField Json.asStr (field "stopReason")
  return ⟨role, content, model, stopReason⟩

def toValue (r : CreateMessageResult) : Json := .object (compact r.fields)

def fromValue : Json → Option CreateMessageResult :=
  read ["role", "content", "model", "stopReason"] 4 ofFields

end CreateMessageResult

end Tronc.Mcp
