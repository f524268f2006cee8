import Tronc.Mcp.Encoding
import Tronc.Mcp.Eras
import Tronc.Mcp.Gateway
import Tronc.Record
import Tronc.Server.Answers

namespace Tronc.Mcp

open Record (read readBool)

structure ClientInfo where
  name : String
  version : String
  title : Option String
  description : Option String
  websiteUrl : Option String
  deriving DecidableEq

def ClientInfo.fromValue : Json → Option ClientInfo :=
  read ["name", "version", "title", "description", "websiteUrl"] 2 fun field => do
    let name ← (field "name").bind Json.asStr
    let version ← (field "version").bind Json.asStr
    let title ← optionalField Json.asStr (field "title")
    let description ← optionalField Json.asStr (field "description")
    let websiteUrl ← optionalField Json.asStr (field "websiteUrl")
    some ⟨name, version, title, description, websiteUrl⟩

structure SamplingCapability where
  deriving DecidableEq

structure RootsCapability where
  listChanged : Option Bool
  deriving DecidableEq

structure ClientCapabilities where
  experimental : Option Map
  sampling : Option SamplingCapability
  roots : Option RootsCapability
  deriving DecidableEq

def SamplingCapability.fromValue : Json → Option SamplingCapability := read [] 0 fun _ => some ⟨⟩

def RootsCapability.fromValue : Json → Option RootsCapability :=
  read ["listChanged"] 1 fun field => (optionalField readBool (field "listChanged")).map .mk

def ClientCapabilities.fromValue : Json → Option ClientCapabilities :=
  read ["experimental", "sampling", "roots"] 3 fun field => do
    let experimental ← optionalField Json.asObject (field "experimental")
    let sampling ← optionalField SamplingCapability.fromValue (field "sampling")
    let roots ← optionalField RootsCapability.fromValue (field "roots")
    some ⟨experimental, sampling, roots⟩

structure InitializeRequest where
  protocolVersion : String
  clientInfo : ClientInfo
  capabilities : ClientCapabilities
  oauthCredentials : Option Map
  deriving DecidableEq

def InitializeRequest.fromValue : Json → Option InitializeRequest :=
  read ["protocolVersion", "clientInfo", "capabilities", "oauthCredentials"] 3 fun field => do
    let protocolVersion ← (field "protocolVersion").bind Json.asStr
    let clientInfo ← (field "clientInfo").bind ClientInfo.fromValue
    let capabilities ← (field "capabilities").bind ClientCapabilities.fromValue
    let oauthCredentials ← optionalField Json.asObject (field "oauthCredentials")
    some ⟨protocolVersion, clientInfo, capabilities, oauthCredentials⟩

structure ServerInfo where
  name : String
  version : String
  title : Option String
  description : Option String
  websiteUrl : Option String
  deriving DecidableEq

/-- `ServerInfo::new`. -/
def ServerInfo.ofName (name version : String) : ServerInfo := ⟨name, version, none, none, none⟩

def ServerInfo.toValue (info : ServerInfo) : Json :=
  .object (Record.compact [("name", some (.string info.name)),
    ("version", some (.string info.version)), ("title", info.title.map .string),
    ("description", info.description.map .string), ("websiteUrl", info.websiteUrl.map .string)])

/-- The answer to `initialize`. The capabilities are the server's own, as they are written. -/
structure InitializeResponse where
  protocolVersion : String
  serverInfo : ServerInfo
  capabilities : Json
  instructions : Option String
  deriving DecidableEq

def InitializeResponse.toValue (response : InitializeResponse) : Json :=
  .object (Record.compact [("protocolVersion", some (.string response.protocolVersion)),
    ("serverInfo", some response.serverInfo.toValue), ("capabilities", some response.capabilities),
    ("instructions", response.instructions.map .string)])

/-- What a server says of itself in a handshake. -/
structure ServerIdentity where
  name : String
  version : String
  capabilities : Json
  /-- The instructions of this moment. -/
  instructions : Option String

/-- The revision asked for if it is spoken, and else the current one of the `initialize` era. -/
def negotiatedVersion (supported : List String) : Option InitializeRequest → String
  | some req =>
    if supportsVersion supported req.protocolVersion then req.protocolVersion else PROTOCOL_VERSION
  | none => PROTOCOL_VERSION

/-- `handle_initialize`: the answer, and the capabilities that a session records of the client. -/
def handleInitialize (supported : List String) (identity : ServerIdentity) (id : Option Json)
    (params : Option Json) : JsonRpcResponse × Option Json :=
  let init := params.bind InitializeRequest.fromValue
  let result : InitializeResponse := ⟨negotiatedVersion supported init,
    ServerInfo.ofName identity.name identity.version, identity.capabilities, identity.instructions⟩
  (.success id result.toValue, params.bind (Json.get · "capabilities"))

/-- The revision that the answer to a handshake names. -/
def namedVersion (response : JsonRpcResponse) : Option String :=
  (response.result.bind (Json.get · "protocolVersion")).bind Json.asStr

/-- The revision that a handshake asks for. -/
def requestedVersion (params : Option Json) : Option String :=
  (params.bind InitializeRequest.fromValue).map InitializeRequest.protocolVersion

/-- A later request of a client that sends `version` in its header: with a body of the `initialize`
era, and no mirror that belies it. -/
structure Sends (crates : Crates) (version : String) (headers : HeaderMap)
    (request : JsonRpcRequest) : Prop where
  header : ∃ value, Server.headerValueOf version = some value ∧
    headers.getAll PROTOCOL_VERSION_HEADER = [value]
  legacy : ModernRequestMeta.fromParams request.params = .legacy
  mirrored : checkStandardHeaders crates headers request false = .ok ()

section Served

variable {Ctx Session AuthError : Type}

/-- A refusal of the revision: it is not spoken, or the request is not one of its era. -/
def Refusal.OfRevision : Refusal AuthError → Prop
  | .answered _ response =>
    response.code = some ErrorCode.unsupportedProtocolVersion ∨
      response.code = some ErrorCode.headerMismatch ∨ response.code = some ErrorCode.invalidParams
  | .unauthenticated _ => False

/-- A request is served in the `initialize` era, or turned away for another reason than its
revision. -/
def ServedLegacy : Except (Refusal AuthError) (Dispatched Ctx Session) → Prop
  | .error refusal => ¬ refusal.OfRevision
  | .ok d => route d.request = .ok .legacy

/-- A client that sends `version` in its header is never refused for it. -/
def Usable (crates : Crates) (server : HttpServer Ctx Session AuthError) (version : String) : Prop :=
  ∀ headers jsonrpc method params id,
    Sends crates version headers (.received jsonrpc method params (some id)) →
    ServedLegacy (serveRequest crates server headers (.received jsonrpc method params (some id)))

/-- What a header may say of a revision of the `initialize` era that is spoken. -/
def SpokenLegacy (supported : List String) (version : String) : Prop :=
  Server.headerValueOf version = none ∨
    version.toList.all isPermittedChar = true ∧
      acceptsProtocolVersion supported (Text.trim version) = true ∧
      isModernRevision (Text.trim version) = false

end Served

section Header

variable {headers : HeaderMap} {supported : List String} {version : String} {value : HeaderValue}

theorem headerValueOf_eq_some (h : Server.headerValueOf version = some value) :
    value = .ofString version := by
  unfold Server.headerValueOf at h
  split at h
  · exact (Option.some.inj h).symm
  · cases h

/-- A header is read when each of its characters is a visible one, a space or a tab. -/
theorem toStr_ofString_eq_none (h : version.toList.all isPermittedChar = false) :
    (HeaderValue.ofString version).toStr = none := by
  by_contra hread
  have hsome := (toStr_isSome _).mp (Option.isSome_iff_ne_none.mpr hread)
  have hall : version.toList.all isPermittedChar = true :=
    (isPermittedFieldValue_utf8 version).symm.trans hsome
  rw [h] at hall
  cases hall

theorem protocolVersionHeader_some (hone : headers.getAll PROTOCOL_VERSION_HEADER = [value])
    (hread : value.toStr = some version) :
    protocolVersionHeader headers = .ok (some (Text.trim version)) := by
  unfold protocolVersionHeader
  rw [hone]
  dsimp only
  rw [hread]

theorem protocolVersionHeader_none (hone : headers.getAll PROTOCOL_VERSION_HEADER = [value])
    (hread : value.toStr = none) :
    protocolVersionHeader headers = .error (charactersReason "MCP-Protocol-Version") := by
  unfold protocolVersionHeader
  rw [hone]
  dsimp only
  rw [hread]

end Header

section Gate

variable {Ctx Session AuthError : Type} {crates : Crates} {server : HttpServer Ctx Session AuthError}
  {headers : HeaderMap} {version : String} {request : JsonRpcRequest}

theorem bind_eq_error {ε α β : Type} {x : Except ε α} {f : α → Except ε β} {e : ε}
    (h : x >>= f = .error e) : x = .error e ∨ ∃ a, x = .ok a ∧ f a = .error e := by
  cases x with
  | error e' =>
    have h : Except.error e' = (.error e : Except ε β) := h
    exact .inl (congrArg Except.error (Except.error.inj h))
  | ok a => exact .inr ⟨a, rfl, h⟩

/-- Neither the session nor the caller is a matter of the revision. -/
theorem serveCaller_error {modern : Bool} {refusal : Refusal AuthError}
    (h : serveCaller server headers request modern = .error refusal) : ¬ refusal.OfRevision := by
  have hcode : ∀ status id code message, (code = ErrorCode.invalidRequest ∨
      code = ErrorCode.internalError) →
      ¬ (Refusal.answered status (.failure id code message) : Refusal AuthError).OfRevision := by
    rintro status id code message (rfl | rfl)
    · rintro (h | h | h) <;> cases h
    · rintro (h | h | h) <;> cases h
  have hinvalid status id message := hcode status id _ message (.inl rfl)
  have hinternal status id message := hcode status id _ message (.inr rfl)
  unfold serveCaller at h
  rcases bind_eq_error h with h | ⟨sessionId, _, h⟩
  · unfold namedSession sessionIdHeader at h
    dsimp only at h
    split at h
    · split at h
      · cases h
      · split at h
        · cases h
        · rw [← Except.error.inj h]
          exact hinvalid _ _ _
      · rw [← Except.error.inj h]
        exact hinvalid _ _ _
    · cases h
  · rcases bind_eq_error h with h | ⟨ctx, _, h⟩
    · cases hauth : server.authenticate request with
      | error e =>
        rw [hauth] at h
        rw [← Except.error.inj h]
        exact id
      | ok ctx =>
        rw [hauth] at h
        cases h
    · rcases bind_eq_error h with h | ⟨session, _, h⟩
      · unfold enterSession at h
        split at h
        · cases h
        · split at h
          · split at h
            · cases h
            · rw [← Except.error.inj h]
              exact hinternal _ _ _
          · split at h
            · cases h
            · split at h
              · cases h
              · rw [← Except.error.inj h]
                exact hinvalid _ _ _
      · cases h

/-- What a request is served as when its header names a revision that is spoken. -/
theorem serveRequest_accepted (crates : Crates) (request : JsonRpcRequest) {named : String}
    (haccepted : @acceptedProtocolVersion AuthError server.supportedVersions headers request.id =
      .ok (some named)) :
    ∃ request' : JsonRpcRequest, request'.method = request.method ∧
      request'.params = request.params ∧ request'.id = request.id ∧
      request'.getMetadata PROTOCOL_VERSION_HEADER = some named ∧
      serveRequest crates server headers request =
        (checkStandardHeaders crates headers request (isModernRevision named)).mapError
          (headerMismatch request.id) >>= fun _ =>
            serveCaller server headers request' (isModernRevision named) := by
  refine ⟨JsonRpcRequest.withMetadata
    { request with authToken := bearerToken headers, headers := forwardedHeaders headers }
    PROTOCOL_VERSION_HEADER named, rfl, rfl, rfl, getMetadata_withMetadata _ _, ?_⟩
  unfold serveRequest
  dsimp only
  rw [haccepted]
  rfl

/-- What is refused of a header that names a revision is refused for it. -/
theorem serveRequest_refused (crates : Crates) {refusal : Refusal AuthError}
    (h : acceptedProtocolVersion server.supportedVersions headers request.id = .error refusal) :
    serveRequest crates server headers request = .error refusal ∧ refusal.OfRevision := by
  constructor
  · unfold serveRequest
    dsimp only
    rw [h]
    rfl
  · unfold acceptedProtocolVersion at h
    split at h
    · rw [← Except.error.inj h]
      exact .inr (.inl rfl)
    · cases h
    · split at h
      · cases h
      · rw [← Except.error.inj h]
        exact .inl rfl

/-- A revision of the `initialize` era that is spoken is never refused. -/
theorem usable_of_spokenLegacy (h : SpokenLegacy server.supportedVersions version) :
    Usable crates server version := by
  rintro headers jsonrpc method params id ⟨⟨value, hvalue, hone⟩, hlegacy, hmirrored⟩
  obtain rfl := headerValueOf_eq_some hvalue
  rcases h with hnone | ⟨hpermitted, haccepts, hearly⟩
  · rw [hnone] at hvalue
    cases hvalue
  · have hread : protocolVersionHeader headers = .ok (some (Text.trim version)) :=
      protocolVersionHeader_some hone (toStr_ofString hpermitted)
    have haccepted : @acceptedProtocolVersion AuthError server.supportedVersions headers (some id) =
        .ok (some (Text.trim version)) := by
      refine acceptedProtocolVersion_eq_ok.mpr ⟨hread, fun v hv => ?_⟩
      rw [← Option.some.inj hv]
      exact haccepts
    obtain ⟨request', -, hparams, -, hnamed, hrun⟩ := serveRequest_accepted crates
      (.received jsonrpc method params (some id)) haccepted
    rw [hrun, hearly, hmirrored]
    show ServedLegacy (serveCaller server headers request' false)
    cases hcaller : serveCaller server headers request' false with
    | error refusal => exact serveCaller_error hcaller
    | ok d =>
      obtain ⟨hrequest, -⟩ := serveCaller_eq_ok hcaller
      show route d.request = .ok .legacy
      rw [hrequest, route_eq_legacy, detect_eq_legacy, hparams, hnamed]
      refine ⟨hlegacy, fun v hv => ?_⟩
      rw [← Option.some.inj hv, Text.trim_trim]
      exact hearly

/-- A request with no mirror at all is held to none, and one of a later era must carry its method. -/
theorem checkStandardHeaders_bare (crates : Crates) (request : JsonRpcRequest)
    (hparam : ∀ name, isParamHeader name = true → headers.getAll name = [])
    (hmethod : headers.getAll MCP_METHOD_HEADER = [])
    (hname : headers.getAll MCP_NAME_HEADER = []) :
    checkStandardHeaders crates headers request false = .ok () ∧
      (request.id.isSome = true →
        ∃ reason, checkStandardHeaders crates headers request true = .error reason) := by
  constructor
  · refine checkStandardHeaders_parts.mpr ⟨fun name hmirror => ?_, ?_, ?_⟩
    · rw [hparam name hmirror]
      simp
    · have hsingle := singleHeader_eq_ok.mpr (.inl ⟨hmethod, rfl⟩)
      exact checkMethodMirror_eq_ok.mpr ⟨none, hsingle, by simp, fun _ => rfl⟩
    · have hsingle := singleHeader_eq_ok.mpr (.inl ⟨hname, rfl⟩)
      exact checkNameMirror_eq_ok.mpr ⟨none, hsingle, fun field _ => ⟨by simp, fun _ => rfl⟩⟩
  · intro hid
    cases hcheck : checkStandardHeaders crates headers request true with
    | error reason => exact ⟨reason, rfl⟩
    | ok _ =>
      obtain ⟨text, ⟨value, hone, _⟩, _⟩ := ((checkStandardHeaders_modern hid).mp hcheck).method
      rw [hmethod] at hone
      cases hone

/-- Any other revision is refused, of a client that sends no mirror. -/
theorem spokenLegacy_of_usable (h : Usable crates server version) :
    SpokenLegacy server.supportedVersions version := by
  by_contra hspoken
  unfold SpokenLegacy at hspoken
  obtain ⟨hsent, hspoken⟩ := not_or.mp hspoken
  obtain ⟨value, hvalue⟩ := Option.ne_none_iff_exists'.mp hsent
  obtain rfl := headerValueOf_eq_some hvalue
  let headers : HeaderMap := [(PROTOCOL_VERSION_HEADER, .ofString version)]
  let ping : JsonRpcRequest := .received "2.0" "ping" none (some (.number (.posInt 1)))
  have hone : headers.getAll PROTOCOL_VERSION_HEADER = [.ofString version] := rfl
  have habsent : ∀ name, name ≠ PROTOCOL_VERSION_HEADER → headers.getAll name = [] :=
    fun name hname => getAll_eq_nil fun hmem => hname (List.mem_singleton.mp hmem)
  have hparam : ∀ name, isParamHeader name = true → headers.getAll name = [] := by
    refine fun name hmirror => habsent name ?_
    rintro rfl
    exact absurd hmirror (by decide)
  obtain ⟨hunmirrored, hmissing⟩ := checkStandardHeaders_bare crates ping hparam
    (habsent _ (by decide)) (habsent _ (by decide))
  have hrefused : ∀ refusal, serveRequest crates server headers ping = .error refusal →
      ¬ refusal.OfRevision := by
    intro refusal hrun
    have hserved := h headers "2.0" "ping" none (.number (.posInt 1)) ⟨⟨_, hvalue, hone⟩, rfl,
      hunmirrored⟩
    rw [hrun] at hserved
    exact hserved
  cases haccepted : @acceptedProtocolVersion AuthError server.supportedVersions headers ping.id with
  | error refusal =>
    obtain ⟨hrun, hrevision⟩ := serveRequest_refused crates haccepted
    exact hrefused refusal hrun hrevision
  | ok named =>
    obtain ⟨hread, haccepts⟩ := acceptedProtocolVersion_eq_ok.mp haccepted
    cases hpermitted : version.toList.all isPermittedChar with
    | false =>
      rw [protocolVersionHeader_none hone (toStr_ofString_eq_none hpermitted)] at hread
      cases hread
    | true =>
      rw [protocolVersionHeader_some hone (toStr_ofString hpermitted)] at hread
      obtain rfl := Except.ok.inj hread
      have hmodern : isModernRevision (Text.trim version) = true := by
        rw [← Bool.not_eq_false]
        exact fun hearly => hspoken ⟨hpermitted, haccepts _ rfl, hearly⟩
      obtain ⟨request', -, -, -, -, hrun⟩ := serveRequest_accepted crates ping haccepted
      obtain ⟨reason, hreason⟩ := hmissing rfl
      rw [hmodern, hreason] at hrun
      exact hrefused (headerMismatch ping.id reason) hrun (.inr (.inl rfl))

end Gate

section Negotiation

variable {Ctx Session AuthError : Type} {supported : List String}

theorem namedVersion_handleInitialize (identity : ServerIdentity) (id params : Option Json) :
    namedVersion (handleInitialize supported identity id params).1 =
      some (negotiatedVersion supported (params.bind InitializeRequest.fromValue)) := by
  simp [handleInitialize, namedVersion, JsonRpcResponse.success, InitializeResponse.toValue,
    Json.get, Map.get, Record.compact, Json.asStr]

theorem mem_supported {version : String} :
    supportsVersion supported version = true ↔ version ∈ supported :=
  List.contains_iff_mem

/-- The current revision of the `initialize` era is spoken where it is advertised. -/
theorem spokenLegacy_current : SpokenLegacy supported PROTOCOL_VERSION ↔
    PROTOCOL_VERSION ∈ supported := by
  have hsent : Server.headerValueOf PROTOCOL_VERSION ≠ none := by decide
  have hpermitted : PROTOCOL_VERSION.toList.all isPermittedChar = true := by decide
  have htrim : Text.trim PROTOCOL_VERSION = PROTOCOL_VERSION := by decide
  have hearly : isModernRevision PROTOCOL_VERSION = false := by decide
  have hother : EARLIER_LEGACY_REVISIONS.contains PROTOCOL_VERSION = false := by decide
  unfold SpokenLegacy acceptsProtocolVersion
  rw [or_iff_right hsent, htrim, hother, Bool.and_false, Bool.or_false, mem_supported]
  exact ⟨fun h => h.2.1, fun h => ⟨hpermitted, h, hearly⟩⟩

/-- A handshake names the revision asked for, where that is advertised, and the current one elsewhere;
and it is usable if and only if it is one of the `initialize` era that the server speaks. -/
theorem negotiated_usable_iff (crates : Crates) (server : HttpServer Ctx Session AuthError)
    (identity : ServerIdentity) (id params : Option Json) :
    ∃ version, namedVersion (handleInitialize server.supportedVersions identity id params).1 =
        some version ∧
      (∀ requested, requestedVersion params = some requested →
        requested ∈ server.supportedVersions → version = requested) ∧
      ((∀ requested, requestedVersion params = some requested →
        requested ∉ server.supportedVersions) → version = PROTOCOL_VERSION) ∧
      (Usable crates server version ↔
        (∀ requested, requestedVersion params = some requested →
          requested ∈ server.supportedVersions →
            SpokenLegacy server.supportedVersions requested) ∧
        ((∀ requested, requestedVersion params = some requested →
          requested ∉ server.supportedVersions) → PROTOCOL_VERSION ∈ server.supportedVersions)) := by
  refine ⟨_, namedVersion_handleInitialize identity id params, ?_⟩
  have husable (version : String) : Usable crates server version ↔
      SpokenLegacy server.supportedVersions version :=
    ⟨spokenLegacy_of_usable, usable_of_spokenLegacy⟩
  rw [husable]
  unfold requestedVersion
  cases params.bind InitializeRequest.fromValue with
  | none =>
    simp only [negotiatedVersion, spokenLegacy_current, Option.map_none, reduceCtorEq, false_implies,
      implies_true, true_and, forall_const]
  | some req =>
    simp only [Option.map_some, Option.some.injEq, forall_eq']
    unfold negotiatedVersion
    dsimp only
    by_cases hspeaks : req.protocolVersion ∈ server.supportedVersions
    · rw [if_pos (mem_supported.mpr hspeaks)]
      exact ⟨fun _ => rfl, fun hnot => absurd hspeaks hnot,
        fun h => ⟨fun _ => h, fun hnot => absurd hspeaks hnot⟩, fun h => h.1 hspeaks⟩
    · rw [if_neg fun h => hspeaks (mem_supported.mp h), spokenLegacy_current]
      exact ⟨fun hin => absurd hin hspeaks, fun _ => rfl,
        fun h => ⟨fun hin => absurd hin hspeaks, fun _ => h⟩, fun h => h.2 hspeaks⟩

/-- A handshake that asks for the revision of 2026-07-28, with a body of the `initialize` era. -/
def modernHandshake : Option Json :=
  some (.object [("protocolVersion", .string "2026-07-28"),
    ("clientInfo", .object [("name", .string "c"), ("version", .string "1")]),
    ("capabilities", .object [])])

def testIdentity : ServerIdentity where
  name := "test-server"
  version := "0.1.0"
  capabilities := .object [("tools", .object [("listChanged", .bool false)])]
  instructions := none

/-- The revision of 2026-07-28 is named to a client that asks for it, and takes no such body. -/
theorem modern_revision_unusable :
    ModernRequestMeta.fromParams modernHandshake = .legacy ∧
      namedVersion (handleInitialize plainServer.supportedVersions testIdentity
        (some (.number (.posInt 21))) modernHandshake).1 = some "2026-07-28" ∧
      ¬ Usable plainCrates plainServer "2026-07-28" := by
  have hsent : Server.headerValueOf "2026-07-28" ≠ none := by decide
  have hmodern : isModernRevision (Text.trim "2026-07-28") = true := by decide
  refine ⟨by decide, ?_, fun h => ?_⟩
  · rw [namedVersion_handleInitialize]
    decide
  · rcases spokenLegacy_of_usable h with hnone | ⟨_, _, hearly⟩
    · exact hsent hnone
    · rw [hmodern] at hearly
      cases hearly

end Negotiation

end Tronc.Mcp
