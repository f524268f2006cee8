import Tronc.Mcp.Revision
import Tronc.Mcp.Serialize

namespace Tronc.Mcp

/-- What the transport made of a request that passed its gates, by the revision its header names. -/
structure Judged {Ctx Session : Type} (supported : List String) (headers : HeaderMap)
    (request : JsonRpcRequest) (version : Option String) (d : Dispatched Ctx Session) : Prop where
  read : protocolVersionHeader headers = .ok version
  accepted : ∀ v, version = some v → acceptsProtocolVersion supported v = true
  modern : d.modern = version.any isModernRevision
  jsonrpc : d.request.jsonrpc = request.jsonrpc
  id : d.request.id = request.id
  params : d.request.params = request.params
  metadata : d.request.getMetadata PROTOCOL_VERSION_HEADER =
    version.or (request.getMetadata PROTOCOL_VERSION_HEADER)
  headerless : version = none → request.id.isSome = true →
    ModernRequestMeta.fromParams request.params = .legacy

section Judgement

variable {Ctx Session AuthError : Type} {crates : Crates} {server : HttpServer Ctx Session AuthError}
  {supported : List String} {headers : HeaderMap} {request request' : JsonRpcRequest}
  {version : Option String} {d : Dispatched Ctx Session}

theorem protocolVersionHeader_trimmed {v : String}
    (h : protocolVersionHeader headers = .ok (some v)) : Text.trim v = v := by
  unfold protocolVersionHeader at h
  split at h
  · cases h
  · split at h
    · rw [← Option.some.inj (Except.ok.inj h)]
      exact Text.trim_trim _
    · cases h
  · cases h

theorem acceptedProtocolVersion_eq_ok {id : Option Json} :
    @acceptedProtocolVersion AuthError supported headers id = .ok version ↔
      protocolVersionHeader headers = .ok version ∧
        ∀ v, version = some v → acceptsProtocolVersion supported v = true := by
  unfold acceptedProtocolVersion
  cases hread : protocolVersionHeader headers with
  | error reason => exact iff_of_false (fun h => nomatch h) fun h => nomatch h.1
  | ok read =>
    cases read with
    | none =>
      constructor
      · intro h
        obtain rfl := Except.ok.inj h
        exact ⟨rfl, fun v hv => nomatch hv⟩
      · rintro ⟨h, -⟩
        rw [← Except.ok.inj h]
    | some v =>
      dsimp only
      split
      · rename_i haccepts
        constructor
        · intro h
          obtain rfl := Except.ok.inj h
          refine ⟨rfl, fun v' hv => ?_⟩
          rw [← Option.some.inj hv]
          exact haccepts
        · rintro ⟨h, -⟩
          rw [← Except.ok.inj h]
      · rename_i hrefuses
        refine iff_of_false (fun h => nomatch h) ?_
        rintro ⟨h, haccepts⟩
        exact hrefuses (haccepts v (Except.ok.inj h).symm)

theorem getMetadata_withMetadata (key value : String) :
    (request.withMetadata key value).getMetadata key = some value :=
  AList.lookup_insert _

/-- The request goes on as it is, but for the revision its header names. -/
theorem withRevision_eq_ok
    (h : @withRevision AuthError request version = .ok request') :
    request'.jsonrpc = request.jsonrpc ∧ request'.id = request.id ∧
      request'.params = request.params ∧
      request'.getMetadata PROTOCOL_VERSION_HEADER =
        version.or (request.getMetadata PROTOCOL_VERSION_HEADER) ∧
      (version = none → request.id.isSome = true →
        ModernRequestMeta.fromParams request.params = .legacy) := by
  cases version with
  | some v =>
    obtain rfl := Except.ok.inj h
    exact ⟨rfl, rfl, rfl, getMetadata_withMetadata _ _, fun hv => nomatch hv⟩
  | none =>
    unfold withRevision at h
    dsimp only at h
    split at h
    · cases h
    · rename_i hpassed
      obtain rfl := Except.ok.inj h
      refine ⟨rfl, rfl, rfl, rfl, fun _ hid => ?_⟩
      by_contra hmodern
      exact hpassed ⟨hid, hmodern⟩

/-- The session and the caller change neither the request nor its era. -/
theorem serveCaller_eq_ok {modern : Bool} (h : serveCaller server headers request modern = .ok d) :
    d.request = request ∧ d.modern = modern := by
  unfold serveCaller at h
  obtain ⟨_, _, h⟩ := bind_eq_ok.mp h
  obtain ⟨_, _, h⟩ := bind_eq_ok.mp h
  obtain ⟨_, _, h⟩ := bind_eq_ok.mp h
  obtain rfl := Except.ok.inj h
  exact ⟨rfl, rfl⟩

theorem serveRequest_eq_ok (h : serveRequest crates server headers request = .ok d) :
    ∃ version, Judged server.supportedVersions headers request version d := by
  unfold serveRequest at h
  dsimp only at h
  obtain ⟨version, haccepted, h⟩ := bind_eq_ok.mp h
  obtain ⟨read, accepted⟩ := acceptedProtocolVersion_eq_ok.mp haccepted
  obtain ⟨request', hrevision, h⟩ := bind_eq_ok.mp h
  obtain ⟨hjsonrpc, hid, hparams, hmetadata, hheaderless⟩ := withRevision_eq_ok hrevision
  obtain ⟨_, _, h⟩ := bind_eq_ok.mp h
  obtain ⟨hrequest, hmodern⟩ := serveCaller_eq_ok h
  refine ⟨version, read, accepted, hmodern, ?_, ?_, ?_, ?_, hheaderless⟩
  · rw [hrequest, hjsonrpc]
  · rw [hrequest, hid]
  · rw [hrequest, hparams]
  · rw [hrequest, hmetadata]
    rfl

end Judgement

section Detection

variable {request : JsonRpcRequest} {header : Option String} {params : Option Json}
  {requestMeta : ModernRequestMeta}

theorem detect_eq_modern : ModernRequestMeta.detect header params = .modern requestMeta ↔
    ModernRequestMeta.fromParams params = .modern requestMeta ∧
      ∀ h, header = some h → requestMeta.protocolVersion = Text.trim h := by
  unfold ModernRequestMeta.detect
  cases header with
  | none =>
    refine (and_iff_left ?_).symm
    exact fun h hh => nomatch hh
  | some h =>
    simp only [Option.map_some, Option.some.injEq, forall_eq']
    cases hbody : ModernRequestMeta.fromParams params with
    | modern body =>
      dsimp only
      split
      · rename_i hdiffers
        refine iff_of_false (fun h => nomatch h) ?_
        rintro ⟨hsame, hagrees⟩
        rw [ModernMeta.modern.inj hsame] at hdiffers
        exact hdiffers hagrees
      · rename_i hagrees
        refine (and_iff_left_of_imp fun hsame => ?_).symm
        rw [← ModernMeta.modern.inj hsame]
        exact not_not.mp hagrees
    | legacy =>
      refine iff_of_false (fun h => ?_) fun h => nomatch h.1
      dsimp only at h
      split at h
      · cases h
      · cases h
    | malformed reason => exact iff_of_false (fun h => nomatch h) fun h => nomatch h.1
    | headerMismatch reason => exact iff_of_false (fun h => nomatch h) fun h => nomatch h.1

theorem detect_eq_legacy : ModernRequestMeta.detect header params = .legacy ↔
    ModernRequestMeta.fromParams params = .legacy ∧
      ∀ h, header = some h → isModernRevision (Text.trim h) = false := by
  unfold ModernRequestMeta.detect
  cases header with
  | none =>
    refine (and_iff_left ?_).symm
    exact fun h hh => nomatch hh
  | some h =>
    simp only [Option.map_some, Option.some.injEq, forall_eq']
    cases hbody : ModernRequestMeta.fromParams params with
    | modern body =>
      refine iff_of_false (fun h => ?_) fun h => nomatch h.1
      dsimp only at h
      split at h
      · cases h
      · cases h
    | legacy =>
      dsimp only
      cases isModernRevision (Text.trim h) with
      | true => exact iff_of_false (fun h => nomatch h) fun h => nomatch h.2
      | false => exact iff_of_true rfl ⟨rfl, rfl⟩
    | malformed reason => exact iff_of_false (fun h => nomatch h) fun h => nomatch h.1
    | headerMismatch reason => exact iff_of_false (fun h => nomatch h) fun h => nomatch h.1

theorem route_eq_modern : route request = .ok (.modern requestMeta) ↔
    ModernRequestMeta.detect (request.getMetadata PROTOCOL_VERSION_HEADER) request.params =
      .modern requestMeta := by
  unfold route
  split <;> rename_i hdetect <;> rw [hdetect] <;> simp

theorem route_eq_legacy : route request = .ok .legacy ↔
    ModernRequestMeta.detect (request.getMetadata PROTOCOL_VERSION_HEADER) request.params =
      .legacy := by
  unfold route
  split <;> rename_i hdetect <;> rw [hdetect] <;> simp

theorem dispatch_eq_some {processing : Processing} : dispatch request = some processing ↔
    (request.jsonrpc = JSONRPC_VERSION ∧ request.id.isSome) ∧ route request = .ok processing := by
  unfold dispatch
  split
  · rename_i hrouted
    rw [and_iff_right hrouted]
    cases route request with
    | ok decided =>
      constructor
      · intro h
        exact congrArg Except.ok (Option.some.inj h)
      · intro h
        exact congrArg some (Except.ok.inj h)
    | error refusal =>
      constructor
      · intro h
        cases h
      · intro h
        cases h
  · rename_i hrefused
    constructor
    · intro h
      cases h
    · intro h
      exact absurd h.1 hrefused

end Detection

/-- Dispatch processes the request in the era the transport judged it to be of. -/
def EraAgrees {Ctx Session : Type} (d : Dispatched Ctx Session) : Prop :=
  (∀ requestMeta, dispatch d.request = some (.modern requestMeta) → d.modern = true) ∧
    (dispatch d.request = some .legacy → d.modern = false)

/-- Where header and `_meta` name one revision, that is 2026-07-28 or a later one. -/
def NamesModern (headers : HeaderMap) (params : Option Json) : Prop :=
  ∀ version requestMeta, protocolVersionHeader headers = .ok (some version) →
    ModernRequestMeta.fromParams params = .modern requestMeta →
    requestMeta.protocolVersion = version → isModernRevision version = true

section Agreement

variable {Ctx Session AuthError : Type} {crates : Crates} {server : HttpServer Ctx Session AuthError}
  {headers : HeaderMap} {d : Dispatched Ctx Session} {jsonrpc method : String}
  {params id : Option Json}

/-- Transport and dispatch agree on the era of a request that is routed, unless its header and its
`_meta` name one revision that is none of the modern ones. -/
theorem eras_agree_iff
    (h : serveRequest crates server headers (.received jsonrpc method params id) = .ok d) :
    EraAgrees d ↔ (jsonrpc = JSONRPC_VERSION → id.isSome → NamesModern headers params) := by
  obtain ⟨version, j⟩ := serveRequest_eq_ok h
  have hjsonrpc : d.request.jsonrpc = jsonrpc := j.jsonrpc
  have hid : d.request.id = id := j.id
  have hparams : d.request.params = params := j.params
  have hmetadata : d.request.getMetadata PROTOCOL_VERSION_HEADER = version :=
    j.metadata.trans (Option.or_none)
  unfold EraAgrees
  simp only [dispatch_eq_some, route_eq_modern, route_eq_legacy, detect_eq_modern, detect_eq_legacy,
    hjsonrpc, hid, hparams, hmetadata, j.modern]
  constructor
  · rintro ⟨hmodern, -⟩ hversion hasked v requestMeta hread hbody hnamed
    obtain rfl := Except.ok.inj (j.read.symm.trans hread)
    refine hmodern requestMeta ⟨⟨hversion, hasked⟩, hbody, fun v' hv => ?_⟩
    rw [← Option.some.inj hv, protocolVersionHeader_trimmed hread]
    exact hnamed
  · intro hnames
    refine ⟨?_, ?_⟩
    · rintro requestMeta ⟨⟨hversion, hasked⟩, hbody, hnamed⟩
      cases version with
      | none =>
        have hlegacy : ModernRequestMeta.fromParams params = .legacy := j.headerless rfl hasked
        rw [hlegacy] at hbody
        cases hbody
      | some v =>
        refine hnames hversion hasked v requestMeta j.read hbody ?_
        rw [hnamed v rfl, protocolVersionHeader_trimmed j.read]
    · rintro ⟨_, _, hlegacy⟩
      cases version with
      | none => rfl
      | some v =>
        have hv := hlegacy v rfl
        rw [protocolVersionHeader_trimmed j.read] at hv
        exact hv

end Agreement

section Requests

private theorem of_toOption {ε α : Type} {x : Except ε α} {a : α} (h : x.toOption = some a) :
    x = .ok a := by
  cases x with
  | error e => cases h
  | ok b => rw [Option.some.inj h]

/-- A server with no hook and no sessions, that speaks the default revisions. -/
def plainServer : HttpServer Unit Unit Unit where
  supportedVersions := defaultSupportedVersions
  authenticate _ := .ok ()
  sessions := none

/-- The `_meta` of a request that speaks `version`. -/
def speaking (version : String) : Option Json :=
  some (.object [("_meta", .object [(meta_keys.PROTOCOL_VERSION, .string version),
    (meta_keys.CLIENT_CAPABILITIES, .object [])])])

def listing (version : String) : JsonRpcRequest :=
  .received "2.0" "tools/list" (speaking version) (some (.number (.posInt 1)))

/-- What the transport judged a request to be, and whether dispatch processes it as modern. -/
def eras {Ctx Session : Type} (d : Dispatched Ctx Session) : Bool × Option Bool :=
  (d.modern, (dispatch d.request).map fun
    | .modern _ => true
    | .legacy => false)

theorem eras_agree_mirrored : ∃ d : Dispatched Unit Unit,
    serveRequest plainCrates plainServer
      [(PROTOCOL_VERSION_HEADER, .ofString "2026-07-28"), (MCP_METHOD_HEADER, .ofString "tools/list")]
      (listing "2026-07-28") = .ok d ∧
    d.modern = true ∧ EraAgrees d := by
  have hrun : (serveRequest plainCrates plainServer
      [(PROTOCOL_VERSION_HEADER, .ofString "2026-07-28"), (MCP_METHOD_HEADER, .ofString "tools/list")]
      (listing "2026-07-28")).toOption.map Dispatched.modern = some true := by decide +kernel
  obtain ⟨d, hd, hmodern⟩ := Option.map_eq_some_iff.mp hrun
  have hserved := of_toOption hd
  have hread : protocolVersionHeader [(PROTOCOL_VERSION_HEADER, .ofString "2026-07-28"),
      (MCP_METHOD_HEADER, .ofString "tools/list")] = .ok (some "2026-07-28") := by decide +kernel
  refine ⟨d, hserved, hmodern, (eras_agree_iff hserved).mpr fun _ _ version _ h _ _ => ?_⟩
  rw [← Option.some.inj (Except.ok.inj (hread.symm.trans h))]
  decide +kernel

/-- A call that names no mirror is taken for a legacy one, and processed as modern. -/
theorem earlier_revision_processed_modern : ∃ d : Dispatched Unit Unit,
    serveRequest plainCrates plainServer [(PROTOCOL_VERSION_HEADER, .ofString "2025-11-25")]
      (listing "2025-11-25") = .ok d ∧ ¬ EraAgrees d := by
  have hrun : (serveRequest plainCrates plainServer
      [(PROTOCOL_VERSION_HEADER, .ofString "2025-11-25")] (listing "2025-11-25")).toOption.map eras =
      some (false, some true) := by decide +kernel
  obtain ⟨d, hd, heras⟩ := Option.map_eq_some_iff.mp hrun
  obtain ⟨hmodern, hprocessed⟩ := Prod.mk.inj heras
  refine ⟨d, of_toOption hd, fun h => ?_⟩
  obtain ⟨processing, hdispatch, hprocessing⟩ := Option.map_eq_some_iff.mp hprocessed
  cases processing with
  | modern requestMeta =>
    rw [h.1 requestMeta hdispatch] at hmodern
    cases hmodern
  | legacy => cases hprocessing

end Requests

end Tronc.Mcp
