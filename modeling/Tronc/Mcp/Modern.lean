import Tronc.Json
import Tronc.Library.Text

namespace Tronc.Mcp

/-- The revision that carries its metadata in every request. -/
def PROTOCOL_VERSION_2026_07_28 : String := "2026-07-28"

/-- The header that names the revision a request speaks. -/
def PROTOCOL_VERSION_HEADER : String := "mcp-protocol-version"

/-- The methods revision 2026-07-28 removed. -/
def REMOVED_METHODS : List String :=
  ["initialize", "ping", "logging/setLevel", "resources/subscribe", "resources/unsubscribe"]

/-- Whether the text is shaped like a date, `YYYY-MM-DD`. -/
def isDated (version : String) : Bool :=
  version.toList.length == PROTOCOL_VERSION_2026_07_28.toList.length &&
    version.toList.zipIdx.all fun (c, i) => if i = 4 ∨ i = 7 then c == '-' else c.isDigit

/-- Whether `version` names a revision of 2026-07-28 or later. Dates order as text. -/
def isModernRevision (version : String) : Bool :=
  isDated version && decide ¬ version.toList < PROTOCOL_VERSION_2026_07_28.toList

namespace meta_keys

def PROTOCOL_VERSION : String := "io.modelcontextprotocol/protocolVersion"
def CLIENT_INFO : String := "io.modelcontextprotocol/clientInfo"
def CLIENT_CAPABILITIES : String := "io.modelcontextprotocol/clientCapabilities"
def LOG_LEVEL : String := "io.modelcontextprotocol/logLevel"

end meta_keys

structure ModernClientInfo where
  name : String
  version : String
  deriving DecidableEq

/-- What `serde` reads of a client's identity, from an object or from a sequence of its fields. -/
def ModernClientInfo.fromValue : Json → Option ModernClientInfo
  | .object fields =>
    match Map.get fields "name", Map.get fields "version" with
    | some (.string name), some (.string version) => some ⟨name, version⟩
    | _, _ => none
  | .array [.string name, .string version] => some ⟨name, version⟩
  | _ => none

/-- The metadata of one modern request. -/
structure ModernRequestMeta where
  protocolVersion : String
  clientInfo : Option ModernClientInfo
  clientCapabilities : Json
  logLevel : Option String
  deriving DecidableEq

/-- What a request's `_meta` makes of it. -/
inductive ModernMeta where
  | legacy
  | modern (requestMeta : ModernRequestMeta)
  | malformed (reason : String)
  | headerMismatch (reason : String)
  deriving DecidableEq

namespace ModernRequestMeta

def missing (field : String) : String := "missing required _meta field '" ++ field ++ "'"

def fromParams (params : Option Json) : ModernMeta :=
  match params.bind fun p => p.get "_meta" with
  | none => .legacy
  | some requestMeta =>
    match (requestMeta.get meta_keys.PROTOCOL_VERSION).bind Json.asStr with
    | none => .legacy
    | some protocolVersion =>
      match requestMeta.get meta_keys.CLIENT_CAPABILITIES with
      | none => .malformed (missing meta_keys.CLIENT_CAPABILITIES)
      | some clientCapabilities =>
        .modern {
          protocolVersion := protocolVersion
          clientInfo := (requestMeta.get meta_keys.CLIENT_INFO).bind ModernClientInfo.fromValue
          clientCapabilities := clientCapabilities
          logLevel := (requestMeta.get meta_keys.LOG_LEVEL).bind Json.asStr }

/-- The era of a request, of which a transport may carry the revision in a header too. -/
def detect (header : Option String) (params : Option Json) : ModernMeta :=
  let body := fromParams params
  match header.map Text.trim with
  | none => body
  | some header =>
    match body with
    | .modern requestMeta =>
      if requestMeta.protocolVersion ≠ header then
        .headerMismatch ("Header mismatch: MCP-Protocol-Version header value '" ++ header ++
          "' does not match body _meta '" ++ meta_keys.PROTOCOL_VERSION ++ "' value '" ++
          requestMeta.protocolVersion ++ "'")
      else body
    | .legacy =>
      if isModernRevision header then .malformed (missing meta_keys.PROTOCOL_VERSION) else body
    | other => other

end ModernRequestMeta

end Tronc.Mcp
