import Tronc.Mcp.Challenge
import Tronc.Mcp.Reach
import Tronc.Mcp.ResourceMetadata

namespace Tronc.Mcp

open Server (getHeader insertHeader jsonResponse)
open Sessions (Session)

namespace ProtectedResourceMetadata

variable (metadata : ProtectedResourceMetadata)

/-- What is empty is left out. -/
def fields : List (String × Option Json) :=
  [("resource", some (.string metadata.resource)),
    ("authorization_servers", if metadata.authorizationServers = [] then none
      else some (Record.vec .string metadata.authorizationServers)),
    ("jwks_uri", metadata.jwksUri.map .string),
    ("scopes_supported", if metadata.scopesSupported = [] then none
      else some (Record.vec .string metadata.scopesSupported)),
    ("bearer_methods_supported", some (Record.vec .string metadata.bearerMethodsSupported)),
    ("resource_name", metadata.resourceName.map .string),
    ("resource_documentation", metadata.resourceDocumentation.map .string)]

/-- The document itself. -/
def toValue : Json := .object (Record.compact metadata.fields)

/-- The challenge that points at this document. -/
def challenge : BearerChallenge := .new metadata.metadataUrl

def wwwAuthenticate : String := metadata.challenge.display

end ProtectedResourceMetadata

/-- Where the router gets the document it answers a request with, if there is one. -/
structure ResourceMetadataSource where
  metadataFor : MetadataRequest → Option ProtectedResourceMetadata
  metadataPaths : List String

namespace ResourceMetadataSource

/-- The same document to every request. -/
def fixed (metadata : ProtectedResourceMetadata) : ResourceMetadataSource :=
  ⟨fun _ => some metadata, ProtectedResourceMetadataSet.pathsOf [metadata]⟩

def ofSet (set : ProtectedResourceMetadataSet) : ResourceMetadataSource :=
  ⟨set.metadataFor, set.metadataPaths⟩

/-- A closure, under the paths a source has by default. -/
def ofFn (f : MetadataRequest → Option ProtectedResourceMetadata) : ResourceMetadataSource :=
  ⟨f, [WELL_KNOWN_PROTECTED_RESOURCE]⟩

end ResourceMetadataSource

def ACCESS_CONTROL_ALLOW_ORIGIN : String := "access-control-allow-origin"

section Routes

variable (crates : Crates) (takes : String → String → Bool) (source : ResourceMetadataSource)
  (request : MetadataRequest)

def serveResourceMetadata : Server.Response :=
  match source.metadataFor request with
  | none => ⟨.NOT_FOUND, [], []⟩
  | some metadata =>
    let response := jsonResponse crates .OK metadata.toValue
    { response with
      headers := insertHeader response.headers ACCESS_CONTROL_ALLOW_ORIGIN (.ofString "*") }

/-- `metadata_routes`, on a `GET`; `takes` says which paths the router has a route take. -/
def metadataRoutes : Server.Response :=
  if source.metadataPaths.any fun route => takes route request.path then
    serveResourceMetadata crates source request
  else ⟨.NOT_FOUND, [], []⟩

end Routes

/-- A `GET` of a path from a listening server, past the guard that `serve` puts before the router. -/
def Listening.receiveMetadata (l : Listening) (crates : Crates) (takes : String → String → Bool)
    (source : ResourceMetadataSource) (path : String) (r : HttpRequest) :
    Except HostRefusal Server.Response :=
  let guarded := if l.hostGuarded then checkHost r.headers r.target [] else .ok ()
  guarded.map fun () => metadataRoutes crates takes source ⟨path, r.headers⟩

/-- A text without control characters. -/
def IsPrintable (text : String) : Prop := ∀ c ∈ text.toList, 32 ≤ c.toNat ∧ c.toNat ≠ 127

instance (text : String) : Decidable (IsPrintable text) :=
  inferInstanceAs (Decidable (∀ c ∈ text.toList, 32 ≤ c.toNat ∧ c.toNat ≠ 127))

/-- A route without parameters. -/
def IsLiteral (route : String) : Prop := ∀ c ∈ route.toList, c ∉ ['{', '}', ':', '*']

instance (route : String) : Decidable (IsLiteral route) :=
  inferInstanceAs (Decidable (∀ c ∈ route.toList, c ∉ ['{', '}', ':', '*']))

/-- Why a configuration of callers' tokens is not taken. -/
inductive CallerConfigError where
  | incomplete (missing : List String)
  | invalidResource (invalid : InvalidResource)
  deriving DecidableEq

/-- Where a service's callers have their tokens from. -/
structure CallerTokenConfig where
  resource : String
  issuer : String
  jwksUrl : String
  authorizationServer : String
  deriving DecidableEq

namespace CallerTokenConfig

/-- `CallerTokenConfig::variables`, in the order of the fields. -/
def variablesOf (varPrefix : String) : List String :=
  [varPrefix ++ "_RESOURCE_URL", varPrefix ++ "_CALLER_ISSUER", varPrefix ++ "_CALLER_JWKS_URL",
    varPrefix ++ "_AUTHORIZATION_SERVER"]

def resourceMetadata (config : CallerTokenConfig) :
    Except InvalidResource ProtectedResourceMetadata :=
  ProtectedResourceMetadata.new config.resource [config.authorizationServer]

/-- The keys are those at `jwksUrl`. -/
def verifier (config : CallerTokenConfig) : CallerTokenVerifier := .new config.issuer config.resource

/-- A variable counts as it does for a key: without the blanks around it, and not when it is blank. -/
def fromEnv (env : Env) (varPrefix : String) : Except CallerConfigError (Option CallerTokenConfig) :=
  let names := variablesOf varPrefix
  if names.all fun name => (configuredKey env name).isNone then .ok none
  else
    match names.filterMap (configuredKey env) with
    | [resource, issuer, jwksUrl, authorizationServer] =>
      let config : CallerTokenConfig := ⟨resource, issuer, jwksUrl, authorizationServer⟩
      match config.resourceMetadata with
      | .ok _ => .ok (some config)
      | .error invalid => .error (.invalidResource invalid)
    | _ => .error (.incomplete (names.filter fun name => (configuredKey env name).isNone))

end CallerTokenConfig

namespace CallerAuthHook

/-- `CallerAuthHook::new`. -/
def new (verifier : CallerTokenVerifier) (challenge : String) : CallerAuthHook :=
  ⟨verifier, challenge, none, false⟩

def withSharedKey (hook : CallerAuthHook) (key : ApiKeyAuthHook) : CallerAuthHook :=
  { hook with sharedKey := some key }

def allowingAnonymous (hook : CallerAuthHook) : CallerAuthHook := { hook with anonymous := true }

end CallerAuthHook

section Configured

variable {env : Env} {varPrefix : String}

/-- The variables hold this configuration. -/
structure CallerTokenConfig.Names (env : Env) (varPrefix : String) (config : CallerTokenConfig) :
    Prop where
  resource : configuredKey env (varPrefix ++ "_RESOURCE_URL") = some config.resource
  issuer : configuredKey env (varPrefix ++ "_CALLER_ISSUER") = some config.issuer
  jwksUrl : configuredKey env (varPrefix ++ "_CALLER_JWKS_URL") = some config.jwksUrl
  authorizationServer :
    configuredKey env (varPrefix ++ "_AUTHORIZATION_SERVER") = some config.authorizationServer

/-- What an environment is read as: all of the variables or none, and a refusal names those it wants. -/
inductive CallerTokenConfig.Read (env : Env) (varPrefix : String) :
    Except CallerConfigError (Option CallerTokenConfig) → Prop where
  | unset : (∀ name ∈ variablesOf varPrefix, configuredKey env name = none) →
      Read env varPrefix (.ok none)
  | incomplete (missing : List String) : missing ≠ [] → missing ≠ variablesOf varPrefix →
      (∀ name, name ∈ missing ↔ name ∈ variablesOf varPrefix ∧ configuredKey env name = none) →
      Read env varPrefix (.error (.incomplete missing))
  | invalid (config : CallerTokenConfig) : config.Names env varPrefix →
      config.resourceMetadata = .error ⟨config.resource⟩ →
      Read env varPrefix (.error (.invalidResource ⟨config.resource⟩))
  | configured (config : CallerTokenConfig) (metadata : ProtectedResourceMetadata) :
      config.Names env varPrefix → config.resourceMetadata = .ok metadata →
      Read env varPrefix (.ok (some config))

theorem ProtectedResourceMetadata.new_eq_ok {resource : String} {servers : List String}
    {metadata : ProtectedResourceMetadata} (h : new resource servers = .ok metadata) :
    metadata.resource = resource ∧ metadata.authorizationServers = servers := by
  unfold new withSchemePolicy at h
  split at h
  · rw [← Except.ok.inj h]
    exact ⟨rfl, rfl⟩
  · cases h

theorem ProtectedResourceMetadata.new_eq_error {resource : String} {servers : List String}
    {invalid : InvalidResource} (h : new resource servers = .error invalid) :
    invalid = ⟨resource⟩ := by
  unfold new withSchemePolicy at h
  split at h
  · cases h
  · exact (Except.error.inj h).symm

theorem CallerTokenConfig.Names.values {config : CallerTokenConfig} (h : Names env varPrefix config) :
    (variablesOf varPrefix).filterMap (configuredKey env) =
      [config.resource, config.issuer, config.jwksUrl, config.authorizationServer] := by
  unfold variablesOf
  simp only [List.filterMap_cons, h.resource, h.issuer, h.jwksUrl, h.authorizationServer,
    List.filterMap_nil]

theorem CallerTokenConfig.names_of_set
    (h : ∀ name ∈ variablesOf varPrefix, (configuredKey env name).isSome = true) :
    ∃ config, Names env varPrefix config := by
  simp only [variablesOf, List.forall_mem_cons, Option.isSome_iff_exists] at h
  obtain ⟨⟨resource, hresource⟩, ⟨issuer, hissuer⟩, ⟨jwksUrl, hjwksUrl⟩, ⟨server, hserver⟩, _⟩ := h
  exact ⟨⟨resource, issuer, jwksUrl, server⟩, hresource, hissuer, hjwksUrl, hserver⟩

theorem CallerTokenConfig.fromEnv_read : Read env varPrefix (fromEnv env varPrefix) := by
  unfold fromEnv
  dsimp only
  split
  · rename_i hnone
    refine .unset ?_
    intro name hname
    exact Option.isNone_iff_eq_none.mp (List.all_eq_true.mp hnone name hname)
  · rename_i hsome
    by_cases hall : ∀ name ∈ variablesOf varPrefix, (configuredKey env name).isSome = true
    · obtain ⟨config, hnames⟩ := names_of_set hall
      rw [hnames.values]
      dsimp only
      cases hmetadata : config.resourceMetadata with
      | ok metadata => exact .configured config metadata hnames hmetadata
      | error invalid =>
        obtain rfl := ProtectedResourceMetadata.new_eq_error hmetadata
        exact .invalid config hnames hmetadata
    · split
      · rename_i hvalues
        refine absurd ?_ hall
        rw [← List.filterMap_length_eq_length, hvalues]
        rfl
      · refine .incomplete _ ?_ ?_ ?_
        · intro hnil
          refine hall ?_
          intro name hname
          have hset := List.filter_eq_nil_iff.mp hnil name hname
          rwa [Bool.not_eq_true, Option.isNone_eq_false_iff] at hset
        · intro hself
          exact hsome (List.all_eq_true.mpr (List.filter_eq_self.mp hself))
        · intro name
          rw [List.mem_filter, Option.isNone_iff_eq_none]

end Configured

section Refused

variable {e : McpEndpoint} {m : Moment} {crates : Crates} {serde : Serde} {parse : String → Option ℚ}
  {fingerprint : String → UInt64} {r : HttpRequest} {headers : HeaderMap} {refusal : AuthError}

theorem Answer.withHeader_of_isSome {answer : Answer} {name text : String}
    (h : (Server.headerValueOf text).isSome = true) :
    answer.withHeader name text = { answer with headers := (name, text) :: answer.headers } := by
  obtain ⟨value, hvalue⟩ := Option.isSome_iff_exists.mp h
  unfold Answer.withHeader
  rw [hvalue]

/-- The hook gave this refusal to the credential of a request with these headers. -/
def McpEndpoint.Refused (e : McpEndpoint) (headers : HeaderMap) (refusal : AuthError) : Prop :=
  ∃ message : JsonRpcRequest, e.authenticate message = .error refusal ∧
    message.authToken = bearerToken headers

/-- A text without control characters can be the value of a header. -/
theorem headerValueOf_isSome {text : String} (h : IsPrintable text) :
    (Server.headerValueOf text).isSome = true := by
  unfold Server.headerValueOf
  rw [if_pos]
  · rfl
  · rw [List.all_eq_true]
    intro b hb
    have printable : 32 ≤ b.toNat ∧ b.toNat ≠ 127 := by
      by_cases hlow : b.toNat < 128
      · obtain ⟨c, hc, hsame⟩ := Text.mem_utf8 hlow hb
        rw [← hsame]
        exact h c hc
      · omega
    have hne : b ≠ 127 := by
      rintro rfl
      exact printable.2 rfl
    have hle : (32 : UInt8) ≤ b := UInt8.le_iff_toNat_le.mpr printable.1
    simp [hle, hne]

theorem mem_writeQuoted {c : Char} {value : String} (h : c ∈ (writeQuoted value).toList) :
    c = '"' ∨ c = '\\' ∨ c ∈ value.toList := by
  have inner : (String.ofList (value.toList.flatMap writeChar)).toList =
    value.toList.flatMap writeChar := String.toList_ofList
  unfold writeQuoted at h
  rw [String.toList_append, String.toList_append, inner, List.mem_append, List.mem_append,
    List.mem_flatMap] at h
  rcases h with (hopen | ⟨d, hd, hc⟩) | hclose
  · exact .inl (List.mem_singleton.mp hopen)
  · unfold writeChar at hc
    split at hc
    · rcases List.mem_cons.mp hc with hescape | hsame
      · exact .inr (.inl hescape)
      · rw [List.mem_singleton.mp hsame]
        exact .inr (.inr hd)
    · rw [List.mem_singleton.mp hc]
      exact .inr (.inr hd)
  · exact .inl (List.mem_singleton.mp hclose)

/-- The challenge of a printable resource can be a header. -/
theorem ProtectedResourceMetadata.wwwAuthenticate_printable {metadata : ProtectedResourceMetadata}
    (h : IsPrintable metadata.resource) : IsPrintable metadata.wwwAuthenticate := by
  have known : IsPrintable WELL_KNOWN_PROTECTED_RESOURCE := by decide
  have lead : IsPrintable "Bearer resource_metadata=" := by decide
  intro c hc
  have written : metadata.wwwAuthenticate =
      "Bearer resource_metadata=" ++ writeQuoted metadata.metadataUrl ++ "" ++ "" := rfl
  rw [written, String.append_empty, String.append_empty, String.toList_append, List.mem_append] at hc
  rcases hc with hc | hc
  · exact lead c hc
  · rcases mem_writeQuoted hc with rfl | rfl | hurl
    · decide
    · decide
    · rcases mem_metadataUrl hurl with hseg | hown
      · exact known c hseg
      · exact h c hown

theorem mapError_eq_unauthenticated {α : Type} {x : Except AuthError α}
    (h : x.mapError Refusal.unauthenticated = .error (.unauthenticated refusal)) :
    x = .error refusal := by
  cases x with
  | error e => rw [Refusal.unauthenticated.inj (Except.error.inj h)]
  | ok a => cases h

theorem acceptedProtocolVersion_answered {supported : List String} {id : Option Json} :
    acceptedProtocolVersion supported headers id ≠
      (.error (.unauthenticated refusal) : Except (Refusal AuthError) _) := by
  intro h
  unfold acceptedProtocolVersion at h
  split at h
  · cases h
  · cases h
  · split at h <;> cases h

theorem sessionIdHeader_answered {id : Option Json} : sessionIdHeader headers id ≠
    (.error (.unauthenticated refusal) : Except (Refusal AuthError) _) := by
  intro h
  unfold sessionIdHeader at h
  dsimp only at h
  split at h
  · cases h
  · split at h <;> cases h
  · cases h

theorem serveRequest_unauthenticated {request : JsonRpcRequest}
    (h : serveRequest crates (e.server m) headers request = .error (.unauthenticated refusal)) :
    e.Refused headers refusal := by
  rcases bind_eq_error h with h | ⟨version, _, h⟩
  · exact (acceptedProtocolVersion_answered h).elim
  rcases bind_eq_error h with h | ⟨revised, hrevised, h⟩
  · unfold withRevision at h
    split at h
    · cases h
    · split at h <;> cases h
  rcases bind_eq_error h with h | ⟨_, _, h⟩
  · obtain ⟨reason, hreason⟩ := mapError_eq_error h
    cases hreason
  rcases bind_eq_error h with h | ⟨sessionId, _, h⟩
  · unfold namedSession at h
    split at h
    · exact (sessionIdHeader_answered h).elim
    · cases h
  rcases bind_eq_error h with h | ⟨ctx, _, h⟩
  · exact ⟨revised, mapError_eq_unauthenticated h, (withRevision_credential hrevised).1⟩
  rcases bind_eq_error h with h | ⟨session, _, h⟩
  · unfold enterSession at h
    split at h
    · cases h
    · split at h
      · split at h <;> cases h
      · split at h
        · cases h
        · split at h <;> cases h
  · cases h

theorem acceptClientResponse_unauthenticated {response : JsonRpcResponse}
    (h : e.acceptClientResponse m fingerprint headers response = .error (.unauthenticated refusal)) :
    e.Refused headers refusal := by
  rcases bind_eq_error h with h | ⟨version, _, h⟩
  · exact (acceptedProtocolVersion_answered h).elim
  rcases bind_eq_error h with h | ⟨_, _, h⟩
  · obtain ⟨reason, hreason⟩ := mapError_eq_error h
    cases hreason
  rcases bind_eq_error h with h | ⟨sessionId, _, h⟩
  · unfold McpEndpoint.responseSessionId at h
    split at h
    · exact (sessionIdHeader_answered h).elim
    · cases h
  rcases bind_eq_error h with h | ⟨ctx, _, h⟩
  · exact ⟨_, mapError_eq_unauthenticated h, transportMessage_authToken _ _⟩
  rcases bind_eq_error h with h | ⟨session, _, h⟩
  · unfold McpEndpoint.respondedSession at h
    split at h
    · split at h <;> cases h
    · cases h
  · cases h

theorem acceptClientResponse_delivered {response : JsonRpcResponse} {reception : Reception}
    (h : e.acceptClientResponse m fingerprint headers response = .ok reception) :
    reception ≠ .refused (.unauthenticated refusal) := by
  obtain ⟨version, _, h⟩ := bind_eq_ok.mp h
  obtain ⟨_, _, h⟩ := bind_eq_ok.mp h
  obtain ⟨sessionId, _, h⟩ := bind_eq_ok.mp h
  obtain ⟨ctx, _, h⟩ := bind_eq_ok.mp h
  obtain ⟨session, _, h⟩ := bind_eq_ok.mp h
  rw [← Except.ok.inj h]
  intro hrefused
  cases hrefused

theorem handleMcpPost_refused (h : e.handleMcpPost m crates serde parse fingerprint r =
    .refused (.unauthenticated refusal)) : e.Refused r.headers refusal := by
  unfold McpEndpoint.handleMcpPost at h
  split at h
  · cases h
  · split at h
    · cases h
    · split at h
      · cases h
      · split at h
        · cases h
        · cases h
        · split at h
          · unfold McpEndpoint.receiveMessage at h
            split at h
            · split at h
              · cases h
              · rename_i refusal' hserve
                rw [Reception.refused.inj h] at hserve
                exact serveRequest_unauthenticated hserve
            · split at h
              · rename_i reception haccept
                exact (acceptClientResponse_delivered haccept h).elim
              · rename_i refusal' haccept
                rw [Reception.refused.inj h] at haccept
                exact acceptClientResponse_unauthenticated haccept
          · cases h

theorem handleMcpDelete_refused (h : e.handleMcpDelete m r = .refused (.unauthenticated refusal)) :
    e.Refused r.headers refusal := by
  unfold McpEndpoint.handleMcpDelete at h
  split at h
  · cases h
  · split at h
    · cases h
    · split at h
      · rename_i refusal' hheader
        rw [Reception.refused.inj h] at hheader
        exact (sessionIdHeader_answered hheader).elim
      · cases h
      · dsimp only at h
        split at h
        · rename_i refusal' hauth
          rw [Refusal.unauthenticated.inj (Reception.refused.inj h)] at hauth
          exact ⟨_, hauth, transportMessage_authToken _ _⟩
        · split at h <;> cases h

/-- Nothing but the hook refuses a request for its credential. -/
theorem receive_refused {l : Listening} {method : McpEndpoint.Method}
    (h : e.receive l m crates serde parse fingerprint method r =
      .refused (.unauthenticated refusal)) : e.Refused r.headers refusal := by
  unfold McpEndpoint.receive at h
  dsimp only at h
  split at h
  · cases h
  · cases method with
    | post => exact handleMcpPost_refused h
    | delete =>
      unfold McpEndpoint.route at h
      dsimp only at h
      split at h
      · exact handleMcpDelete_refused h
      · cases h
    | other => cases h

end Refused

section Found

variable {crates : Crates} {takes : String → String → Bool}

/-- What a client does with a challenge: the URL that it reads there, and what it gets there, whatever
headers it sends. A guarded server answers those requests alone that name a loopback host. -/
structure Leads (l : Listening) (crates : Crates) (takes : String → String → Bool)
    (source : ResourceMetadataSource) (text url : String) (located : ParsedResource)
    (resource : String) (servers : List String) : Prop where
  challenge : AuthParams.readAll AuthParams.readItem text.toList =
    some [⟨some "Bearer", ⟨"resource_metadata", url⟩⟩]
  url : ParsedResource.parse url = some located
  guarded : ∀ r, (∃ response, l.receiveMetadata crates takes source located.path r = .ok response) ↔
    (l.hostGuarded = true → NamesHost r [])
  document : ∀ r response, l.receiveMetadata crates takes source located.path r = .ok response →
    ∃ value, response.status = .OK ∧ response.body = Text.utf8 (toText crates value) ∧
      getHeader response.headers ACCESS_CONTROL_ALLOW_ORIGIN = some (.ofString "*") ∧
      value.get "resource" = some (.string resource) ∧
      value.get "authorization_servers" = some (Record.vec .string servers)

theorem receiveMetadata_eq {l : Listening} {source : ResourceMetadataSource} {path : String}
    {r : HttpRequest} (h : l.hostGuarded = true → NamesHost r []) :
    l.receiveMetadata crates takes source path r =
      .ok (metadataRoutes crates takes source ⟨path, r.headers⟩) := by
  unfold Listening.receiveMetadata
  cases hguarded : l.hostGuarded with
  | false => rfl
  | true =>
    dsimp only
    rw [if_pos rfl, checkHost_eq_ok.mpr (h hguarded)]
    rfl

theorem receiveMetadata_ok {l : Listening} {source : ResourceMetadataSource} {path : String}
    {r : HttpRequest} {response : Server.Response}
    (h : l.receiveMetadata crates takes source path r = .ok response) :
    l.hostGuarded = true → NamesHost r [] := by
  intro hguarded
  unfold Listening.receiveMetadata at h
  rw [hguarded] at h
  dsimp only at h
  rw [if_pos rfl] at h
  cases hcheck : checkHost r.headers r.target [] with
  | ok _ => exact checkHost_eq_ok.mp hcheck
  | error refusal =>
    rw [hcheck] at h
    cases h

namespace ProtectedResourceMetadata

variable {metadata : ProtectedResourceMetadata}

theorem get_toValue (hservers : metadata.authorizationServers ≠ []) :
    metadata.toValue.get "resource" = some (.string metadata.resource) ∧
      metadata.toValue.get "authorization_servers" =
        some (Record.vec .string metadata.authorizationServers) := by
  have distinct : (metadata.fields.map Prod.fst).Nodup := by
    show (["resource", "authorization_servers", "jwks_uri", "scopes_supported",
      "bearer_methods_supported", "resource_name", "resource_documentation"] : List String).Nodup
    decide
  have hget := Record.get_field distinct
  refine ⟨hget ("resource", _) (.head _), (hget ("authorization_servers", _) (.tail _ (.head _))).trans ?_⟩
  exact if_neg hservers

theorem metadataPath_mem :
    metadata.metadataPath ∈ (ResourceMetadataSource.fixed metadata).metadataPaths := by
  obtain ⟨_, hpaths⟩ := ProtectedResourceMetadataSet.pathsOf_spec [metadata]
    (List.nodup_singleton WELL_KNOWN_PROTECTED_RESOURCE)
  unfold ResourceMetadataSource.fixed ProtectedResourceMetadataSet.pathsOf
  rw [hpaths]
  exact .inr ⟨metadata, List.mem_singleton_self metadata, rfl⟩

/-- The challenge of a document leads to it, on the origin of the resource. -/
theorem leads (l : Listening) (hservers : metadata.authorizationServers ≠ [])
    (hliteral : IsLiteral metadata.metadataPath)
    (htakes : ∀ route path, IsLiteral route → (takes route path = true ↔ path = route)) :
    Leads l crates takes (.fixed metadata) metadata.wwwAuthenticate metadata.metadataUrl
      { metadata.parsed with path := metadata.metadataPath } metadata.resource
      metadata.authorizationServers := by
  refine ⟨metadata.challenge.display_reads.2.1, metadata.parse_metadataUrl, fun r => ⟨?_, ?_⟩,
    fun r response h => ?_⟩
  · rintro ⟨response, h⟩
    exact receiveMetadata_ok h
  · exact fun h => ⟨_, receiveMetadata_eq h⟩
  · obtain ⟨hresource, hlisted⟩ := get_toValue hservers
    have taken : ((ResourceMetadataSource.fixed metadata).metadataPaths.any fun route =>
        takes route metadata.metadataPath) = true :=
      List.any_eq_true.mpr ⟨_, metadataPath_mem, (htakes _ _ hliteral).mpr rfl⟩
    have served := Except.ok.inj (h.symm.trans (receiveMetadata_eq (receiveMetadata_ok h)))
    rw [served]
    refine ⟨metadata.toValue, ?_, ?_, ?_, hresource, hlisted⟩
    all_goals
      unfold metadataRoutes
      rw [if_pos taken]
    · rfl
    · rfl
    · exact Server.getHeader_insertHeader

end ProtectedResourceMetadata

end Found

/-- A server that lets callers in as its environment says, and that publishes where they get tokens. -/
structure CallerService (env : Env) (varPrefix : String) where
  config : CallerTokenConfig
  metadata : ProtectedResourceMetadata
  sharedKey : Option ApiKeyAuthHook
  anonymous : Bool
  configured : CallerTokenConfig.fromEnv env varPrefix = .ok (some config)
  published : config.resourceMetadata = .ok metadata

namespace CallerService

variable {env : Env} {varPrefix : String} (s : CallerService env varPrefix)

def source : ResourceMetadataSource := .fixed s.metadata

def hook : CallerAuthHook :=
  let hook := CallerAuthHook.new s.config.verifier s.metadata.wwwAuthenticate
  let hook := s.sharedKey.elim hook hook.withSharedKey
  if s.anonymous then hook.allowingAnonymous else hook

@[simp] theorem hook_verifier : s.hook.verifier = s.config.verifier := by
  unfold hook
  cases s.sharedKey <;> cases s.anonymous <;> rfl

@[simp] theorem hook_challenge : s.hook.challenge = s.metadata.wwwAuthenticate := by
  unfold hook
  cases s.sharedKey <;> cases s.anonymous <;> rfl

theorem names : s.config.Names env varPrefix := by
  have read : CallerTokenConfig.Read env varPrefix _ := CallerTokenConfig.fromEnv_read
  rw [s.configured] at read
  cases read with
  | configured _ _ names _ => exact names

variable {jwt : Jwt} {keysAt : String → String → Iam.Answer} {e : McpEndpoint} {l : Listening}
  {m : Moment} {crates : Crates} {serde : Serde} {parse : String → Option ℚ}
  {fingerprint : String → UInt64} {method : McpEndpoint.Method} {r : HttpRequest}
  {takes : String → String → Bool}

theorem metadata_eq : s.metadata.resource = s.config.resource ∧
    s.metadata.authorizationServers = [s.config.authorizationServer] :=
  ProtectedResourceMetadata.new_eq_ok s.published

/-- What the hook lets in with an identity holds a token for this resource, of this issuer. -/
theorem holds_token {request : JsonRpcRequest} {ctx : HookContext}
    {keys : String → Iam.Answer} (h : s.hook.authenticate jwt keys env request = .ok ctx)
    (huser : ctx.userId.isSome = true) :
    ∃ token claims, request.authToken = some token ∧
      Signed jwt keys token ⟨[s.config.resource], [s.config.issuer], REQUIRED_CLAIMS, true⟩ claims ∧
      (claims.get "sub").bind Json.asStr = ctx.userId := by
  cases CallerAuthHook.admits_of_authenticate h with
  | anonymous _ _ => cases huser
  | sharedKey _ _ _ => cases huser
  | verified token claims caller htoken _ hsigned hvouched =>
    rw [hook_verifier] at hsigned
    refine ⟨token, claims, htoken, hsigned, ?_⟩
    rw [hvouched.user.1]
    rfl

end CallerService

section Books

def booksEnv : Env
  | "BOOKS_RESOURCE_URL" => some " https://books.example/mcp/ "
  | "BOOKS_CALLER_ISSUER" => some "https://login.example"
  | "BOOKS_CALLER_JWKS_URL" => some "https://login.example/keys"
  | "BOOKS_AUTHORIZATION_SERVER" => some "https://login.example"
  | _ => none

def booksService : CallerService booksEnv "BOOKS" where
  config := ⟨"https://books.example/mcp/", "https://login.example", "https://login.example/keys",
    "https://login.example"⟩
  metadata := ⟨"https://books.example/mcp/", ["https://login.example"], none, [], ["header"], none, none,
    by decide +kernel⟩
  sharedKey := none
  anonymous := false
  configured := by decide +kernel
  published := by decide +kernel

/-- What the key set at a URL answers. -/
def booksKeys (url kid : String) : Iam.Answer :=
  if url = "https://login.example/keys" then oneKey kid else .error (.jwksUnavailable "not found")

def guardedEndpoint : McpEndpoint :=
  { localEndpoint with
    authHook := some (booksService.hook.authenticate oneToken
      (booksKeys booksService.config.jwksUrl) booksEnv) }

end Books

end Tronc.Mcp
