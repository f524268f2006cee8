import Tronc.Mcp.Endpoint
import Tronc.Mcp.Identity

namespace Tronc.Mcp

open HttpClient (IpAddr undotted)
open Sessions (Session SessionStore)

/-- The request comes from no page, or from one whose origin is admitted. -/
def FromAllowedOrigin (headers : HeaderMap) (allowed : List String) : Prop :=
  ∀ value, Server.getHeader headers ORIGIN = some value →
    if allowed = [] then ∃ scheme authority bracketed host port,
      IsOrigin (value.toStr.getD "") scheme authority ∧ HostAndPort authority bracketed host port ∧
        IsLoopback host
    else "*" ∈ allowed ∨ value.toStr.getD "" ∈ allowed

/-- The request names one authority, and that a loopback one or one of these. -/
def NamesHost (r : HttpRequest) (allowed : List String) : Prop :=
  ∃ authority bracketed host port, requestAuthority r.headers r.target = .ok (some authority) ∧
    HostAndPort (Text.trim authority) bracketed host port ∧
      (IsLoopback (undotted host) ∨ Configured allowed host port)

/-- The request came to what it was sent for, under this context and in this session. -/
def Reception.Reaches : Reception → HookContext → Option Session → Prop
  | .dispatched _ d, ctx, session => d.ctx = ctx ∧ d.session = session
  | .delivered ctx' session' _ _, ctx, session => ctx' = ctx ∧ session' = session
  | .ended ctx' session' _, ctx, session => ctx' = ctx ∧ some session' = session
  | .turnedAway _ _, _, _ | .refused _, _, _ | .notAllowed, _, _ => False

instance (reception : Reception) (ctx : HookContext) (session : Option Session) :
    Decidable (reception.Reaches ctx session) :=
  match reception with
  | .dispatched _ d => inferInstanceAs (Decidable (d.ctx = ctx ∧ d.session = session))
  | .delivered ctx' session' _ _ => inferInstanceAs (Decidable (ctx' = ctx ∧ session' = session))
  | .ended ctx' session' _ => inferInstanceAs (Decidable (ctx' = ctx ∧ some session' = session))
  | .turnedAway _ _ | .refused _ | .notAllowed => inferInstanceAs (Decidable False)

/-- What is true of a request that came to what it was sent for. -/
structure Admitted (e : McpEndpoint) (r : HttpRequest) (ctx : HookContext)
    (session : Option Session) : Prop where
  origin : FromAllowedOrigin r.headers e.allowedOrigins
  host : ∀ allowed, e.allowedHosts = some allowed → NamesHost r allowed
  /-- The hook was asked, with the credential and the headers of the request and no other. -/
  caller : ∃ message : JsonRpcRequest, e.authenticate message = .ok ctx ∧
    message.authToken = bearerToken r.headers ∧ message.headers = forwardedHeaders r.headers
  session : ∀ s, session = some s → s.isOwnedBy ctx.toToolContext = true

section Gates

variable {r : HttpRequest} {headers : HeaderMap} {allowed : List String}

theorem originAllowed_iff : originAllowed headers allowed = true ↔
    FromAllowedOrigin headers allowed := by
  unfold originAllowed FromAllowedOrigin isOriginAllowed
  cases Server.getHeader headers ORIGIN with
  | none => simp
  | some value =>
    simp only [Option.map_some, Option.all_some, Option.some.injEq, forall_eq']
    split
    · exact isLoopbackOrigin_iff
    · simp only [List.any_eq_true, Bool.or_eq_true, beq_iff_eq, and_or_left, exists_or,
        exists_eq_right]

theorem checkHost_eq_ok : checkHost r.headers r.target allowed = .ok () ↔ NamesHost r allowed := by
  unfold checkHost NamesHost
  cases hauthority : requestAuthority r.headers r.target with
  | error refusal => simp
  | ok authority =>
    dsimp only
    cases authority with
    | none => simp [isHostAllowed]
    | some authority =>
      constructor
      · intro h
        split at h
        · rename_i hallowed
          obtain ⟨bracketed, host, port, hparts, hpass⟩ := isHostAllowed_iff.mp hallowed
          exact ⟨authority, bracketed, host, port, rfl, hparts, hpass⟩
        · cases h
      · intro ⟨authority', bracketed, host, port, hsame, hparts, hpass⟩
        obtain rfl := Option.some.inj (Except.ok.inj hsame)
        rw [if_pos (isHostAllowed_iff.mpr ⟨bracketed, host, port, hparts, hpass⟩)]

/-- A session that a caller enters is its own, and so is one it is found in. -/
theorem enter_isOwnedBy {store : SessionStore} {now : Nat} {id : String}
    {ctx : Sessions.ToolContext} {session : Session}
    (h : (store.enter now id ctx).2 = some session) : session.isOwnedBy ctx = true := by
  unfold SessionStore.enter at h
  split at h
  · cases h
  · split at h
    · rename_i howned
      rw [← Option.some.inj h]
      exact howned
    · cases h

theorem transportMessage_authToken (id : Option Json) (version : Option String) :
    (transportMessage headers id version).authToken = bearerToken headers := by
  cases version <;> rfl

/-- The revision a header names changes nothing about the credential. -/
theorem withRevision_credential {request revised : JsonRpcRequest} {version : Option String}
    (h : withRevision request version = (.ok revised : Except (Refusal AuthError) _)) :
    revised.authToken = request.authToken ∧ revised.headers = request.headers := by
  cases version with
  | some version =>
    rw [← Except.ok.inj h]
    exact ⟨rfl, rfl⟩
  | none =>
    unfold withRevision at h
    dsimp only at h
    split at h
    · cases h
    · rw [← Except.ok.inj h]
      exact ⟨rfl, rfl⟩

theorem transportMessage_headers (id : Option Json) (version : Option String) :
    (transportMessage headers id version).headers = forwardedHeaders headers := by
  cases version <;> rfl

end Gates

namespace McpEndpoint

variable {e : McpEndpoint} {m : Moment} {crates : Crates} {serde : Serde} {parse : String → Option ℚ}
  {fingerprint : String → UInt64} {r : HttpRequest} {ctx : HookContext} {session : Option Session}

theorem mapError_eq_ok {ε ε' α : Type} {x : Except ε α} {f : ε → ε'} {a : α} :
    x.mapError f = .ok a ↔ x = .ok a := by
  cases x <;> simp [Except.mapError]

theorem server_sessions {sessions : HttpSessions HookContext Session}
    (h : (e.server m).sessions = some sessions) :
    (∀ id ctx s, sessions.enter id ctx = some s → s.isOwnedBy ctx.toToolContext = true) ∧
      ∀ ctx s, sessions.mint ctx = some s → s.isOwnedBy ctx.toToolContext = true := by
  obtain ⟨store, _, rfl⟩ := Option.map_eq_some_iff.mp h
  refine ⟨fun id ctx s hs => enter_isOwnedBy hs, ?_⟩
  intro ctx s hs
  obtain ⟨id, _, rfl⟩ := Option.map_eq_some_iff.mp hs
  unfold Session.isOwnedBy
  rw [beq_self_eq_true, beq_self_eq_true]
  rfl

theorem enterSession_isOwnedBy {modern : Bool} {request : JsonRpcRequest} {sessionId : Option String}
    {s : Session}
    (h : enterSession ((e.server m).sessions.filter fun _ => !modern) request ctx sessionId =
      (.ok (some s) : Except (Refusal AuthError) (Option Session))) :
    s.isOwnedBy ctx.toToolContext = true := by
  unfold enterSession at h
  split at h
  · cases h
  · rename_i sessions hsessions
    obtain ⟨enters, mints⟩ := server_sessions (Option.filter_eq_some_iff.mp hsessions).1
    split at h
    · split at h
      · rename_i minted hminted
        rw [← Option.some.inj (Except.ok.inj h)]
        exact mints _ _ hminted
      · cases h
    · split at h
      · cases h
      · split at h
        · rename_i entered hentered
          rw [← Option.some.inj (Except.ok.inj h)]
          exact enters _ _ _ hentered
        · cases h

/-- What the hook was asked, and what session the request was found to be in. -/
theorem serveRequest_reaches {headers : HeaderMap} {request : JsonRpcRequest}
    {d : Dispatched HookContext Session}
    (h : serveRequest crates (e.server m) headers request = .ok d) :
    (∃ message : JsonRpcRequest, e.authenticate message = .ok d.ctx ∧
      message.authToken = bearerToken headers ∧ message.headers = forwardedHeaders headers) ∧
    ∀ s, d.session = some s → s.isOwnedBy d.ctx.toToolContext = true := by
  obtain ⟨version, hversion, h⟩ := bind_eq_ok.mp h
  obtain ⟨revised, hrevised, h⟩ := bind_eq_ok.mp h
  obtain ⟨_, hmirrors, h⟩ := bind_eq_ok.mp h
  obtain ⟨sessionId, hnamed, h⟩ := bind_eq_ok.mp h
  obtain ⟨ctx, hctx, h⟩ := bind_eq_ok.mp h
  obtain ⟨session, hsession, h⟩ := bind_eq_ok.mp h
  rw [← Except.ok.inj h]
  refine ⟨⟨revised, mapError_eq_ok.mp hctx, withRevision_credential hrevised⟩, fun s hs => ?_⟩
  obtain rfl : session = some s := hs
  exact enterSession_isOwnedBy hsession

theorem ownedSession_isOwnedBy {store : SessionStore} {sessionId : String} {s : Session}
    (h : ownedSession m store sessionId ctx = some s) : s.isOwnedBy ctx.toToolContext = true :=
  (Option.filter_eq_some_iff.mp h).2

theorem respondedSession_isOwnedBy {sessions : Option SessionStore} {sessionId : Option String}
    {s : Session} (h : respondedSession m sessions sessionId ctx = .ok (some s)) :
    s.isOwnedBy ctx.toToolContext = true := by
  unfold respondedSession at h
  split at h
  · split at h
    · rename_i found hfound
      rw [← Option.some.inj (Except.ok.inj h)]
      exact ownedSession_isOwnedBy hfound
    · cases h
  · cases h

theorem acceptClientResponse_reaches {headers : HeaderMap} {response : JsonRpcResponse}
    {reception : Reception} (h : e.acceptClientResponse m fingerprint headers response = .ok reception)
    (hreach : reception.Reaches ctx session) :
    (∃ message : JsonRpcRequest, e.authenticate message = .ok ctx ∧
      message.authToken = bearerToken headers ∧ message.headers = forwardedHeaders headers) ∧
    ∀ s, session = some s → s.isOwnedBy ctx.toToolContext = true := by
  obtain ⟨version, _, h⟩ := bind_eq_ok.mp h
  obtain ⟨_, _, h⟩ := bind_eq_ok.mp h
  obtain ⟨sessionId, _, h⟩ := bind_eq_ok.mp h
  obtain ⟨ctx', hctx, h⟩ := bind_eq_ok.mp h
  obtain ⟨session', hsession, h⟩ := bind_eq_ok.mp h
  rw [← Except.ok.inj h] at hreach
  obtain ⟨rfl, rfl⟩ := hreach
  refine ⟨⟨_, mapError_eq_ok.mp hctx, transportMessage_authToken _ _, transportMessage_headers _ _⟩, ?_⟩
  intro s hs
  rw [hs] at hsession
  exact respondedSession_isOwnedBy hsession

theorem checkOriginAndHost_eq_ok : e.checkOriginAndHost r = .ok () ↔
    FromAllowedOrigin r.headers e.allowedOrigins ∧
      ∀ allowed, e.allowedHosts = some allowed → NamesHost r allowed := by
  unfold checkOriginAndHost
  rw [← originAllowed_iff]
  cases originAllowed r.headers e.allowedOrigins with
  | false => simp
  | true =>
    cases e.allowedHosts with
    | none => simp
    | some allowed => simp [checkHost_eq_ok]

theorem handleMcpPost_reaches
    (h : (e.handleMcpPost m crates serde parse fingerprint r).Reaches ctx session) :
    Admitted e r ctx session ∧ isJsonContentType r.headers = true := by
  unfold handleMcpPost at h
  cases hgates : e.checkOriginAndHost r with
  | error refusal =>
    rw [hgates] at h
    exact h.elim
  | ok _ =>
    obtain ⟨horigin, hhost⟩ := checkOriginAndHost_eq_ok.mp hgates
    rw [hgates] at h
    dsimp only at h
    split at h
    · exact h.elim
    · rename_i hjson
      have hjson : isJsonContentType r.headers = true := by simpa using hjson
      split at h
      · exact h.elim
      · split at h
        · exact h.elim
        · exact h.elim
        · split at h
          · rename_i message _
            unfold receiveMessage at h
            split at h
            · split at h
              · rename_i d hserve
                obtain ⟨rfl, rfl⟩ := h
                obtain ⟨hasked, howned⟩ := serveRequest_reaches hserve
                exact ⟨⟨horigin, hhost, hasked, howned⟩, hjson⟩
              · exact h.elim
            · split at h
              · rename_i reception haccept
                obtain ⟨hasked, howned⟩ := acceptClientResponse_reaches haccept h
                exact ⟨⟨horigin, hhost, hasked, howned⟩, hjson⟩
              · exact h.elim
          · exact h.elim

theorem handleMcpDelete_reaches (h : (e.handleMcpDelete m r).Reaches ctx session) :
    Admitted e r ctx session := by
  unfold handleMcpDelete at h
  cases hgates : e.checkOriginAndHost r with
  | error refusal =>
    rw [hgates] at h
    exact h.elim
  | ok _ =>
    obtain ⟨horigin, hhost⟩ := checkOriginAndHost_eq_ok.mp hgates
    rw [hgates] at h
    dsimp only at h
    split at h
    · exact h.elim
    · split at h
      · exact h.elim
      · exact h.elim
      · split at h
        · exact h.elim
        · rename_i ctx' hctx
          split at h
          · exact h.elim
          · rename_i found hfound
            obtain ⟨rfl, rfl⟩ := h
            refine ⟨horigin, hhost, ⟨_, hctx, transportMessage_authToken _ _,
              transportMessage_headers _ _⟩, ?_⟩
            intro s hs
            rw [← Option.some.inj hs]
            exact ownedSession_isOwnedBy hfound

theorem route_reaches {method : Method}
    (h : (e.route m crates serde parse fingerprint method r).Reaches ctx session) :
    Admitted e r ctx session ∧ (method = .post → isJsonContentType r.headers = true) := by
  cases method with
  | post =>
    obtain ⟨hadmitted, hjson⟩ := handleMcpPost_reaches h
    exact ⟨hadmitted, fun _ => hjson⟩
  | delete =>
    unfold route at h
    dsimp only at h
    split at h
    · refine ⟨handleMcpDelete_reaches h, ?_⟩
      intro hpost
      cases hpost
    · exact h.elim
  | other => exact h.elim

/-- A request that comes to what it was sent for, at a server that `serve` bound, was admitted; where
nobody authenticates callers, the server is bound to a loopback address; and where it is bound to no
other, the request names a loopback host, or one that the server lists. So a page that has its own name
resolve to this machine drives no tool here. -/
theorem served_within {host : String} {port : UInt16}
    {lookup : String → Except String (List IpAddr)}
    {listen : (l : List IpAddr) → Except String {a // a ∈ l}} {l : Listening} {method : Method}
    (hserve : e.serve host port lookup listen = .ok l)
    (hreach : (e.receive l m crates serde parse fingerprint method r).Reaches ctx session) :
    Admitted e r ctx session ∧ (method = .post → isJsonContentType r.headers = true) ∧
      (e.authHook = none → isLoopbackIp l.address = true) ∧
      ((∀ a ∈ l.resolved, isLoopbackIp a = true) → NamesHost r (e.allowedHosts.getD [])) := by
  unfold serve at hserve
  dsimp only at hserve
  split at hserve
  · cases hserve
  · rename_i resolved hresolved
    split at hserve
    · cases hserve
    · rename_i hsecure
      split at hserve
      · cases hserve
      · rename_i address bound hlisten
        rw [← Except.ok.inj hserve] at hreach ⊢
        unfold receive at hreach
        dsimp only at hreach ⊢
        split at hreach
        · exact hreach.elim
        · rename_i hguard
          obtain ⟨hadmitted, hjson⟩ := route_reaches hreach
          refine ⟨hadmitted, hjson, ?_, ?_⟩
          · intro hnone
            have loopback : resolved.all isLoopbackIp = true := by
              rw [hnone] at hsecure
              simpa using hsecure
            exact List.all_eq_true.mp loopback address bound
          · intro hloop
            cases hhosts : e.allowedHosts with
            | some allowed => exact hadmitted.host allowed hhosts
            | none =>
              rw [hhosts, List.all_eq_true.mpr hloop] at hguard
              exact checkHost_eq_ok.mp hguard

theorem meets_of_ran {S : Type} {registry : Tools.ToolRegistry S} {tool : Tools.McpTool S}
    {name : String} {state : S} {ctx : Tools.ToolContext} {arguments : Json}
    (htool : registry.tools.lookup name = some tool)
    (hran : (registry.execute name state ctx arguments).ran = true) :
    Tools.Meets ctx tool.capabilities (tool.requiredScopes state) := by
  refine Tools.refusal_eq_none.mp ?_
  unfold Tools.ToolRegistry.execute at hran
  rw [htool] at hran
  dsimp only at hran
  cases hrefusal : Tools.refusal tool.capabilities (tool.requiredScopes state) ctx with
  | none => rfl
  | some reason =>
    rw [hrefusal] at hran
    cases hran

/-- Behind the hook for caller tokens, a tool that asks for a user, a tenant or a scope runs only for a
request whose `Authorization` carries a token that was verified, as the user and the tenant and with the
scopes that this token's claims name; and a tool for admins runs for nobody. -/
theorem tools_run_identified {S : Type} {registry : Tools.ToolRegistry S} {tool : Tools.McpTool S}
    {name : String} {state : S} {arguments : Json} {hook : CallerAuthHook} {jwt : Jwt}
    {keys : String → Iam.Answer} {env : Env} {method : Method}
    (hhook : e.authHook = some (hook.authenticate jwt keys env))
    (hreach : (e.route m crates serde parse fingerprint method r).Reaches ctx session)
    (htool : registry.tools.lookup name = some tool)
    (hran : (registry.execute name state ctx.caller arguments).ran = true) :
    tool.capabilities.contains Tools.ToolCapabilities.ADMIN_ONLY = false ∧
    (tool.capabilities.contains Tools.ToolCapabilities.REQUIRES_AUTH = true ∨
      tool.capabilities.contains Tools.ToolCapabilities.REQUIRES_TENANT = true ∨
      tool.requiredScopes state ≠ [] →
      ∃ token claims caller, bearerToken r.headers = some token ∧
        Signed jwt keys token hook.verifier.validation claims ∧
        Vouched hook.verifier claims caller ∧
        ctx.userId = some caller.userId ∧ ctx.tenantId = caller.tenantId ∧
        (tool.capabilities.contains Tools.ToolCapabilities.REQUIRES_TENANT = true →
          caller.tenantId.isSome) ∧
        ∀ scope ∈ tool.requiredScopes state, scope ∈ caller.scopes) := by
  obtain ⟨message, hmessage, htoken, _⟩ := (route_reaches hreach).1.caller
  unfold authenticate at hmessage
  rw [hhook] at hmessage
  obtain ⟨hadmin, hidentified⟩ :=
    CallerAuthHook.identified hmessage (meets_of_ran htool hran)
  refine ⟨hadmin, ?_⟩
  intro hwants
  obtain ⟨token, claims, caller, hpresented, hsigned, hvouched, rfl, htenant, hscopes⟩ :=
    hidentified hwants
  exact ⟨token, claims, caller, htoken.symm.trans hpresented, hsigned, hvouched, rfl, rfl, htenant,
    hscopes⟩

end McpEndpoint

section Withheld

variable {headers headers' : HeaderMap}

/-- The headers without those that carry credentials. -/
def scrub (headers : HeaderMap) : HeaderMap := headers.filter fun h => !isWithheld h.1

/-- The headers differ in none but credentials, and of these not in the `Authorization`. -/
structure Alike (headers headers' : HeaderMap) : Prop where
  scrubbed : scrub headers = scrub headers'
  authorization : Server.getHeader headers AUTHORIZATION = Server.getHeader headers' AUTHORIZATION

theorem dedup_filter {α : Type} [DecidableEq α] (p : α → Bool) (l : List α) :
    (l.filter p).dedup = l.dedup.filter p := by
  induction l with
  | nil => rfl
  | cons x l ih =>
    cases hp : p x with
    | false =>
      rw [List.filter_cons_of_neg (by rw [hp]; exact Bool.false_ne_true), ih]
      by_cases hmem : x ∈ l
      · rw [List.dedup_cons_of_mem hmem]
      · rw [List.dedup_cons_of_notMem hmem,
          List.filter_cons_of_neg (by rw [hp]; exact Bool.false_ne_true)]
    | true =>
      rw [List.filter_cons_of_pos hp]
      by_cases hmem : x ∈ l
      · rw [List.dedup_cons_of_mem hmem, List.dedup_cons_of_mem (List.mem_filter.mpr ⟨hmem, hp⟩), ih]
      · have absent : x ∉ l.filter p := fun h => hmem (List.mem_filter.mp h).1
        rw [List.dedup_cons_of_notMem hmem, List.dedup_cons_of_notMem absent,
          List.filter_cons_of_pos hp, ih]

theorem keys_scrub : (scrub headers).keys = headers.keys.filter fun name => !isWithheld name := by
  unfold scrub HeaderMap.keys
  rw [← dedup_filter, List.filter_map]
  rfl

/-- A loop passes over what its step passes over. -/
theorem forM_filter {ε α : Type} {p : α → Bool} {f : α → Except ε Unit}
    (h : ∀ x, p x = false → f x = .ok ()) (l : List α) : (l.filter p).forM f = l.forM f := by
  induction l with
  | nil => rfl
  | cons x l ih =>
    cases hp : p x with
    | false =>
      rw [List.filter_cons_of_neg (by rw [hp]; exact Bool.false_ne_true), ih]
      change l.forM f = f x >>= fun _ => l.forM f
      rw [h x hp]
      rfl
    | true =>
      rw [List.filter_cons_of_pos hp]
      change (f x >>= fun _ => (l.filter p).forM f) = f x >>= fun _ => l.forM f
      rw [ih]

/-- A mirror is never taken for a credential, however its name is written. -/
theorem isWithheld_mirror {name mirror : String} (h : HttpClient.eqIgnoreAsciiCase name mirror = true)
    (hlist : ∀ withheld ∈ WITHHELD_HEADERS, HttpClient.eqIgnoreAsciiCase withheld mirror = false)
    (hfragments : ∀ fragment ∈ CREDENTIAL_NAME_FRAGMENTS,
      Text.contains (Text.asciiLower mirror) (Text.asciiLower fragment) = false) :
    isWithheld name = false := by
  unfold isWithheld
  rw [Bool.or_eq_false_iff, Bool.and_eq_false_imp]
  refine ⟨?_, ?_⟩
  · by_contra hmem
    have listed := hlist name (List.contains_iff_mem.mp (Bool.eq_true_of_not_eq_false hmem))
    rw [h] at listed
    cases listed
  · intro _
    rw [List.any_eq_false]
    intro fragment hfragment hcontains
    have lower := Text.contains_asciiLower hcontains
    rw [eq_of_beq h, hfragments fragment hfragment] at lower
    cases lower

namespace Alike

variable (h : Alike headers headers')
include h

theorem getAll {name : String} (hname : isWithheld name = false) :
    headers.getAll name = headers'.getAll name := by
  rw [← getAll_filter_withheld hname, ← @getAll_filter_withheld headers' name hname]
  exact congrArg (HeaderMap.getAll · name) h.scrubbed

theorem getHeader {name : String} (hname : isWithheld name = false) :
    Server.getHeader headers name = Server.getHeader headers' name :=
  congrArg List.head? (h.getAll hname)

theorem bearerToken : bearerToken headers = Mcp.bearerToken headers' := by
  rw [bearerToken_eq, bearerToken_eq, h.authorization]

theorem forwardedHeaders : forwardedHeaders headers = Mcp.forwardedHeaders headers' := by
  unfold Mcp.forwardedHeaders
  rw [show (headers.filter fun h => !isWithheld h.1) = headers'.filter fun h => !isWithheld h.1 from
    h.scrubbed]

theorem originAllowed (allowed : List String) :
    originAllowed headers allowed = Mcp.originAllowed headers' allowed := by
  unfold Mcp.originAllowed
  rw [h.getHeader (by decide)]

theorem requestAuthority (target : Option String) :
    requestAuthority headers target = Mcp.requestAuthority headers' target := by
  unfold Mcp.requestAuthority
  rw [h.getAll (by decide)]

theorem checkHost (target : Option String) (allowed : List String) :
    checkHost headers target allowed = Mcp.checkHost headers' target allowed := by
  unfold Mcp.checkHost
  rw [h.requestAuthority target]

theorem isJsonContentType : isJsonContentType headers = Mcp.isJsonContentType headers' := by
  unfold Mcp.isJsonContentType
  rw [h.getHeader (by decide)]

theorem any_accept : (headers.any fun e => e.1 == ACCEPT) = headers'.any fun e => e.1 == ACCEPT := by
  have any_eq (l : HeaderMap) : (l.any fun e => e.1 == ACCEPT) = !(l.getAll ACCEPT).isEmpty := by
    unfold HeaderMap.getAll
    rw [List.isEmpty_map]
    induction l with
    | nil => rfl
    | cons e l ih =>
      rw [List.any_cons, List.filter_cons, ih]
      cases e.1 == ACCEPT <;> rfl
  rw [any_eq, any_eq, h.getAll (by decide)]

theorem negotiate (parse : String → Option ℚ) :
    negotiate parse headers = Mcp.negotiate parse headers' := by
  unfold Mcp.negotiate acceptRanges acceptTexts
  rw [h.any_accept, h.getAll (by decide)]

theorem protocolVersionHeader : protocolVersionHeader headers = Mcp.protocolVersionHeader headers' := by
  unfold Mcp.protocolVersionHeader
  rw [h.getAll (by decide)]

theorem sessionIdHeader (id : Option Json) :
    (sessionIdHeader headers id : Except (Refusal AuthError) _) = Mcp.sessionIdHeader headers' id := by
  unfold Mcp.sessionIdHeader
  rw [h.getAll (by decide)]

theorem singleHeader {name : String} (hname : isWithheld name = false) :
    singleHeader headers name = Mcp.singleHeader headers' name := by
  unfold Mcp.singleHeader
  rw [h.getAll hname]

theorem checkParamWire : checkParamWire headers = Mcp.checkParamWire headers' := by
  funext name
  unfold Mcp.checkParamWire
  cases hparam : isParamHeader name with
  | false => rfl
  | true => rw [h.getAll (isWithheld_param hparam)]

theorem keys : headers.keys.filter (fun name => !isWithheld name) =
    headers'.keys.filter fun name => !isWithheld name := by
  rw [← keys_scrub, ← keys_scrub, h.scrubbed]

theorem paramWires : headers.keys.forM (Mcp.checkParamWire headers) =
    headers'.keys.forM (Mcp.checkParamWire headers') := by
  have passes (l : HeaderMap) (name : String) (hname : (!isWithheld name) = false) :
      Mcp.checkParamWire l name = .ok () := by
    unfold Mcp.checkParamWire
    cases hparam : isParamHeader name with
    | false => rfl
    | true =>
      rw [isWithheld_param hparam] at hname
      cases hname
  rw [← forM_filter (passes headers), ← forM_filter (passes headers'), h.keys, h.checkParamWire]

theorem checkStandardHeaders (crates : Crates) (request : JsonRpcRequest) (modern : Bool) :
    checkStandardHeaders crates headers request modern =
      Mcp.checkStandardHeaders crates headers' request modern := by
  unfold Mcp.checkStandardHeaders checkMethodMirror checkNameMirror
  rw [h.paramWires, h.singleHeader (by decide), h.singleHeader (by decide)]

theorem checkResponseHeaders : checkResponseHeaders headers = Mcp.checkResponseHeaders headers' := by
  have mirrors (l : HeaderMap) : (l.keys.find? fun name =>
      HttpClient.eqIgnoreAsciiCase name MCP_METHOD_HEADER ||
        HttpClient.eqIgnoreAsciiCase name MCP_NAME_HEADER || isParamHeader name) =
      (l.keys.filter fun name => !isWithheld name).find? fun name =>
        HttpClient.eqIgnoreAsciiCase name MCP_METHOD_HEADER ||
          HttpClient.eqIgnoreAsciiCase name MCP_NAME_HEADER || isParamHeader name := by
    rw [List.find?_filter]
    congr 1
    funext name
    cases hmethod : HttpClient.eqIgnoreAsciiCase name MCP_METHOD_HEADER with
    | true =>
      rw [isWithheld_mirror hmethod (by decide) (by decide)]
      rfl
    | false =>
      cases hname : HttpClient.eqIgnoreAsciiCase name MCP_NAME_HEADER with
      | true =>
        rw [isWithheld_mirror hname (by decide) (by decide)]
        rfl
      | false =>
        cases hparam : isParamHeader name with
        | true =>
          rw [isWithheld_param hparam]
          rfl
        | false => simp
  unfold Mcp.checkResponseHeaders
  rw [mirrors headers, mirrors headers', h.keys]

theorem transportMessage (id : Option Json) (version : Option String) :
    transportMessage headers id version = Mcp.transportMessage headers' id version := by
  unfold Mcp.transportMessage
  rw [h.bearerToken, h.forwardedHeaders]

end Alike

namespace McpEndpoint

variable {e : McpEndpoint} {m : Moment} {crates : Crates} {serde : Serde} {parse : String → Option ℚ}
  {fingerprint : String → UInt64} {r r' : HttpRequest}

theorem serveRequest_alike (h : Alike headers headers') (request : JsonRpcRequest) :
    serveRequest crates (e.server m) headers request =
      serveRequest crates (e.server m) headers' request := by
  unfold serveRequest serveCaller namedSession acceptedProtocolVersion
  simp only [h.bearerToken, h.forwardedHeaders, h.protocolVersionHeader, h.checkStandardHeaders,
    h.sessionIdHeader]

theorem acceptClientResponse_alike (h : Alike headers headers') (response : JsonRpcResponse) :
    e.acceptClientResponse m fingerprint headers response =
      e.acceptClientResponse m fingerprint headers' response := by
  unfold acceptClientResponse responseSessionId acceptedProtocolVersion
  simp only [h.protocolVersionHeader, h.checkResponseHeaders, h.sessionIdHeader, h.transportMessage]

theorem checkOriginAndHost_alike (h : Alike r.headers r'.headers) (htarget : r.target = r'.target) :
    e.checkOriginAndHost r = e.checkOriginAndHost r' := by
  unfold checkOriginAndHost
  rw [h.originAllowed, htarget]
  simp only [h.checkHost]

theorem handleMcpPost_alike (h : Alike r.headers r'.headers) (htarget : r.target = r'.target)
    (hbody : r.body = r'.body) : e.handleMcpPost m crates serde parse fingerprint r =
      e.handleMcpPost m crates serde parse fingerprint r' := by
  have message (rendering : Rendering) (message : JsonRpcMessage) :
      e.receiveMessage m crates fingerprint r.headers rendering message =
        e.receiveMessage m crates fingerprint r'.headers rendering message := by
    cases message with
    | request request =>
      unfold receiveMessage
      dsimp only
      rw [serveRequest_alike h]
    | response response =>
      unfold receiveMessage
      dsimp only
      rw [acceptClientResponse_alike h]
  unfold handleMcpPost
  simp only [checkOriginAndHost_alike h htarget, h.isJsonContentType, h.negotiate, hbody, message]

theorem handleMcpDelete_alike (h : Alike r.headers r'.headers) (htarget : r.target = r'.target) :
    e.handleMcpDelete m r = e.handleMcpDelete m r' := by
  unfold handleMcpDelete
  simp only [checkOriginAndHost_alike h htarget, h.sessionIdHeader, h.protocolVersionHeader,
    h.transportMessage]

/-- A cookie, an API key or any other credential outside the `Authorization` makes no difference to what
becomes of a request: neither the endpoint nor the host's hook, whatever it does, is given it. -/
theorem withheld_never_matter (e : McpEndpoint) (l : Listening) (m : Moment) (crates : Crates)
    (serde : Serde) (parse : String → Option ℚ) (fingerprint : String → UInt64) (method : Method)
    (h : Alike r.headers r'.headers) (htarget : r.target = r'.target) (hbody : r.body = r'.body) :
    e.receive l m crates serde parse fingerprint method r =
      e.receive l m crates serde parse fingerprint method r' := by
  have routes : e.route m crates serde parse fingerprint method r =
      e.route m crates serde parse fingerprint method r' := by
    unfold route
    rw [handleMcpPost_alike h htarget hbody, handleMcpDelete_alike h htarget]
  unfold receive
  rw [h.checkHost, htarget, routes]

end McpEndpoint

end Withheld

section Refusals

/-- The response is an error, and no result. -/
def IsError (response : JsonRpcResponse) : Prop :=
  response.error.isSome = true ∧ response.result = none

/-- A client is told that its message was not accepted: under the status of an error and, where it is told
more than a text, in an error. -/
def Answer.Refuses (answer : Answer) : Prop :=
  400 ≤ answer.status ∧ ∀ response, answer.body = .json response → IsError response

/-- What `authRefusalResponse` makes of it included. -/
def Refusal.Refuses (refusal : Refusal AuthError) : Prop :=
  ∃ answer, (Reception.refused refusal).answer = some answer ∧ answer.Refuses

theorem Answer.Refuses.json {status : Nat} (headers : List (String × String))
    {response : JsonRpcResponse} (hstatus : 400 ≤ status) (herror : IsError response) :
    Answer.Refuses ⟨status, headers, .json response⟩ := by
  refine ⟨hstatus, ?_⟩
  intro response' h
  rw [← Said.json.inj h]
  exact herror

theorem Refusal.Refuses.answered {status : Nat} {response : JsonRpcResponse} (hstatus : 400 ≤ status)
    (herror : IsError response) : Refusal.Refuses (.answered status response) :=
  ⟨_, rfl, .json [] hstatus herror⟩

theorem Refusal.Refuses.failure {status : Nat} (id : Option Json) (code : Int) (message : String)
    (hstatus : 400 ≤ status) : Refusal.Refuses (.answered status (.failure id code message)) :=
  .answered hstatus ⟨rfl, rfl⟩

theorem Answer.Refuses.withHeader {answer : Answer} (h : answer.Refuses) (name text : String) :
    (answer.withHeader name text).Refuses := by
  unfold Answer.withHeader
  split
  · exact h
  · refine ⟨by decide, ?_⟩
    intro response hjson
    cases hjson

theorem authRefusalResponse_refuses (refusal : AuthError) : (authRefusalResponse refusal).Refuses := by
  cases refusal with
  | unauthorized wwwAuthenticate =>
    exact Answer.Refuses.withHeader (.json _ (by decide) ⟨rfl, rfl⟩) _ _
  | forbidden reason => exact .json _ (by decide) ⟨rfl, rfl⟩
  | insufficientScope wwwAuthenticate reason =>
    exact Answer.Refuses.withHeader (.json _ (by decide) ⟨rfl, rfl⟩) _ _
  | rateLimited retryAfterSecs reason => exact .json _ (by decide) ⟨rfl, rfl⟩
  | internal reason => exact .json _ (by decide) ⟨rfl, rfl⟩

theorem Refusal.Refuses.unauthenticated (refusal : AuthError) :
    Refusal.Refuses (.unauthenticated refusal) :=
  ⟨_, rfl, authRefusalResponse_refuses refusal⟩

section Transport

variable {e : McpEndpoint} {m : Moment} {crates : Crates} {serde : Serde} {parse : String → Option ℚ}
  {fingerprint : String → UInt64} {r : HttpRequest} {headers : HeaderMap} {id : Option Json}
  {refusal : Refusal AuthError}

theorem acceptedProtocolVersion_refuses {supported : List String}
    (h : acceptedProtocolVersion supported headers id = .error refusal) : refusal.Refuses := by
  unfold acceptedProtocolVersion at h
  split at h
  · rw [← Except.error.inj h]
    exact .failure _ _ _ (by decide)
  · cases h
  · split at h
    · cases h
    · rw [← Except.error.inj h]
      exact .answered (by decide) ⟨rfl, rfl⟩

theorem sessionIdHeader_refuses (h : sessionIdHeader headers id = .error refusal) :
    refusal.Refuses := by
  unfold sessionIdHeader at h
  dsimp only at h
  split at h
  · cases h
  · split at h
    · cases h
    · rw [← Except.error.inj h]
      exact .failure _ _ _ (by decide)
  · rw [← Except.error.inj h]
    exact .failure _ _ _ (by decide)

theorem mapError_eq_error {ε ε' α : Type} {x : Except ε α} {f : ε → ε'} {e : ε'}
    (h : x.mapError f = .error e) : ∃ e', e = f e' := by
  cases x with
  | error e' => exact ⟨e', (Except.error.inj h).symm⟩
  | ok a => cases h

theorem serveRequest_refuses {server : HttpServer HookContext Session AuthError}
    {request : JsonRpcRequest} (h : serveRequest crates server headers request = .error refusal) :
    refusal.Refuses := by
  rcases bind_eq_error h with h | ⟨version, _, h⟩
  · exact acceptedProtocolVersion_refuses h
  rcases bind_eq_error h with h | ⟨revised, _, h⟩
  · unfold withRevision at h
    split at h
    · cases h
    · split at h
      · rw [← Except.error.inj h]
        exact .failure _ _ _ (by decide)
      · cases h
  rcases bind_eq_error h with h | ⟨_, _, h⟩
  · obtain ⟨reason, rfl⟩ := mapError_eq_error h
    exact .failure _ _ _ (by decide)
  rcases bind_eq_error h with h | ⟨sessionId, _, h⟩
  · unfold namedSession at h
    split at h
    · exact sessionIdHeader_refuses h
    · cases h
  rcases bind_eq_error h with h | ⟨ctx, _, h⟩
  · obtain ⟨reason, rfl⟩ := mapError_eq_error h
    exact .unauthenticated reason
  rcases bind_eq_error h with h | ⟨session, _, h⟩
  · unfold enterSession at h
    split at h
    · cases h
    · split at h
      · split at h
        · cases h
        · rw [← Except.error.inj h]
          exact .failure _ _ _ (by decide)
      · split at h
        · cases h
        · split at h
          · cases h
          · rw [← Except.error.inj h]
            exact .failure _ _ _ (by decide)
  · cases h

theorem acceptClientResponse_refuses {response : JsonRpcResponse}
    (h : e.acceptClientResponse m fingerprint headers response = .error refusal) :
    refusal.Refuses := by
  rcases bind_eq_error h with h | ⟨version, _, h⟩
  · exact acceptedProtocolVersion_refuses h
  rcases bind_eq_error h with h | ⟨_, _, h⟩
  · obtain ⟨reason, rfl⟩ := mapError_eq_error h
    exact .failure _ _ _ (by decide)
  rcases bind_eq_error h with h | ⟨sessionId, _, h⟩
  · unfold McpEndpoint.responseSessionId at h
    split at h
    · exact sessionIdHeader_refuses h
    · cases h
  rcases bind_eq_error h with h | ⟨ctx, _, h⟩
  · obtain ⟨reason, rfl⟩ := mapError_eq_error h
    exact .unauthenticated reason
  rcases bind_eq_error h with h | ⟨session, _, h⟩
  · unfold McpEndpoint.respondedSession at h
    split at h
    · split at h
      · cases h
      · rw [← Except.error.inj h]
        exact .failure _ _ _ (by decide)
    · cases h
  · cases h

theorem requestAuthority_refuses {target : Option String} {refused : HostRefusal}
    (h : requestAuthority headers target = .error refused) : 400 ≤ refused.1 := by
  unfold requestAuthority at h
  split at h
  · cases h
  · split at h
    · rw [← Except.error.inj h]
      decide
    · cases h
    · split at h
      · cases h
      · rw [← Except.error.inj h]
  · rw [← Except.error.inj h]
    decide

theorem checkHost_refuses {target : Option String} {allowed : List String} {refused : HostRefusal}
    (h : checkHost headers target allowed = .error refused) : 400 ≤ refused.1 := by
  unfold checkHost at h
  split at h
  · rename_i refused' hrefused
    rw [← Except.error.inj h]
    exact requestAuthority_refuses hrefused
  · split at h
    · cases h
    · rw [← Except.error.inj h]
      decide

/-- The request came to what it was sent for, or its client is told that it did not. -/
def Reception.Settled (reception : Reception) : Prop :=
  (∃ ctx session, reception.Reaches ctx session) ∨
    ∃ answer, reception.answer = some answer ∧ answer.Refuses

theorem Reception.Settled.turnedAway {status : Nat} {text : String} (h : 400 ≤ status) :
    Reception.Settled (.turnedAway status text) := by
  refine .inr ⟨_, rfl, h, ?_⟩
  intro response hjson
  cases hjson

theorem Reception.Settled.notAllowed : Reception.Settled .notAllowed := by
  refine .inr ⟨_, rfl, by decide, ?_⟩
  intro response hjson
  cases hjson

theorem checkOriginAndHost_refuses {refused : HostRefusal}
    (h : e.checkOriginAndHost r = .error refused) : 400 ≤ refused.1 := by
  unfold McpEndpoint.checkOriginAndHost at h
  split at h
  · rw [← Except.error.inj h]
    decide
  · split at h
    · cases h
    · exact checkHost_refuses h

theorem acceptClientResponse_settled {response : JsonRpcResponse} {reception : Reception}
    (h : e.acceptClientResponse m fingerprint headers response = .ok reception) :
    reception.Settled := by
  obtain ⟨version, _, h⟩ := bind_eq_ok.mp h
  obtain ⟨_, _, h⟩ := bind_eq_ok.mp h
  obtain ⟨sessionId, _, h⟩ := bind_eq_ok.mp h
  obtain ⟨ctx, _, h⟩ := bind_eq_ok.mp h
  obtain ⟨session, _, h⟩ := bind_eq_ok.mp h
  rw [← Except.ok.inj h]
  exact .inl ⟨ctx, session, rfl, rfl⟩

theorem handleMcpPost_settled
    (hbody : ∀ status text, r.body = .unreadable status text → 400 ≤ status) :
    (e.handleMcpPost m crates serde parse fingerprint r).Settled := by
  unfold McpEndpoint.handleMcpPost
  split
  · rename_i status text hgates
    exact .turnedAway (checkOriginAndHost_refuses hgates)
  · split
    · exact .inr (Refusal.Refuses.failure _ _ _ (by decide))
    · split
      · exact .inr (Refusal.Refuses.failure _ _ _ (by decide))
      · split
        · exact .inr (Refusal.Refuses.failure _ _ _ (by decide))
        · rename_i status text hunreadable
          exact .inr (Refusal.Refuses.failure _ _ _ (hbody status text hunreadable))
        · split
          · rename_i message _
            unfold McpEndpoint.receiveMessage
            split
            · split
              · rename_i d _
                exact .inl ⟨d.ctx, d.session, rfl, rfl⟩
              · rename_i refusal hrefused
                exact .inr (serveRequest_refuses hrefused)
            · split
              · rename_i reception haccept
                exact acceptClientResponse_settled haccept
              · rename_i refusal hrefused
                exact .inr (acceptClientResponse_refuses hrefused)
          · rename_i refusal hparse
            obtain ⟨_, herror, hresult⟩ := JsonRpcMessage.parse_refusal hparse
            exact .inr (Refusal.Refuses.answered (by decide) ⟨herror, hresult⟩)

theorem handleMcpDelete_settled : (e.handleMcpDelete m r).Settled := by
  unfold McpEndpoint.handleMcpDelete
  split
  · rename_i status text hgates
    exact .turnedAway (checkOriginAndHost_refuses hgates)
  · split
    · exact .notAllowed
    · split
      · rename_i refusal hrefused
        exact .inr (sessionIdHeader_refuses hrefused)
      · exact .inr (Refusal.Refuses.failure _ _ _ (by decide))
      · dsimp only
        split
        · exact .inr (Refusal.Refuses.unauthenticated _)
        · rename_i ctx _
          split
          · exact .inr (Refusal.Refuses.failure _ _ _ (by decide))
          · rename_i session _
            exact .inl ⟨ctx, some session, rfl, rfl⟩

end Transport

end Refusals

section Served

/-- Every text is read as a ping. -/
def pinging : Serde where
  fromStr _ := .ok (.object [("jsonrpc", .string "2.0"), ("id", .string "1"), ("method", .string "ping")])
  toVec _ := none
  requestReason _ := ""
  responseReason _ := ""

def ping (headers : HeaderMap) : HttpRequest :=
  ⟨none, (CONTENT_TYPE, .ofString "application/json; charset=utf-8") :: headers, .text "ping"⟩

def atNoon : Moment := ⟨0, 0, none⟩

def localEndpoint : McpEndpoint :=
  ⟨defaultSupportedVersions, [], none, 1024, none, none⟩

def loopback : IpAddr := .v4 (HttpClient.v4Addr 127 0 0 1)

def localListening : Listening := ⟨[loopback], loopback, List.mem_singleton.mpr rfl, true⟩

theorem served_within_ping : Admitted localEndpoint (ping [(HOST, .ofString "LocalHost.:8080")]) .new none ∧
    isLoopbackIp loopback = true := by
  have bound : localEndpoint.serve "127.0.0.1" 8080 (fun _ => .ok [loopback])
      (fun l => if h : loopback ∈ l then .ok ⟨loopback, h⟩ else .error "in use") =
        .ok localListening := by
    rfl
  have reached : (localEndpoint.receive localListening atNoon plainCrates pinging parseDecimal
      (fun _ => 0) .post (ping [(HOST, .ofString "LocalHost.:8080")])).Reaches .new none := by
    decide +kernel
  obtain ⟨admitted, _, loopback, _⟩ := McpEndpoint.served_within bound reached
  exact ⟨admitted, loopback rfl⟩

theorem withheld_never_matter_cookie :
    localEndpoint.receive localListening atNoon plainCrates pinging parseDecimal (fun _ => 0) .post
        (ping [(HOST, .ofString "localhost"), ("cookie", .ofString "session=1")]) =
      localEndpoint.receive localListening atNoon plainCrates pinging parseDecimal (fun _ => 0) .post
        (ping [("x-auth-token", .ofString "2"), (HOST, .ofString "localhost")]) := by
  refine McpEndpoint.withheld_never_matter _ _ _ _ _ _ _ _ ⟨?_, rfl⟩ rfl rfl
  decide

/-- A library that knows one token. -/
def oneToken : Jwt where
  Key := String
  decodeHeader token := if token = "h.c.s" then .ok (some "k1") else .error "InvalidToken"
  fromRsaComponents n _ := .ok n
  decode token key validation :=
    if token = "h.c.s" ∧ key = "n1" ∧ validation.audience = ["https://books.example"] ∧
      validation.issuer = ["https://login.example"] then
      .ok (.object [("sub", .string "ana"), ("scope", .string "books:read books:write"),
        (PLATFORM_TENANT_CLAIM, .string "north")])
    else .error "InvalidSignature"
  misshapen _ := "missing field"

def oneKey (kid : String) : Iam.Answer :=
  if kid = "k1" then .ok ⟨"k1", "n1", "AQAB"⟩ else .error (Iam.unknownKid kid)

def booksHook : CallerAuthHook :=
  ⟨.new "https://login.example" "https://books.example", "Bearer", some (.new "BOOKS_KEY" "books"), true⟩

def booksEndpoint : McpEndpoint :=
  { localEndpoint with
    authHook := some (booksHook.authenticate oneToken oneKey fun _ => some "shared") }

/-- A tool that wants a tenant and a scope. -/
def shelve : Tools.McpTool Unit where
  definition := ⟨"shelve", "", .object [], none, none, none⟩
  capabilities := Tools.ToolCapabilities.REQUIRES_TENANT
  requiredScopes _ := ["books:write"]
  execute _ _ _ := ((), ⟨[.text "shelved"], false, none⟩)

def books : Tools.ToolRegistry Unit := Tools.ToolRegistry.empty.register plainCrates
  (fun _ => .ok fun _ => []) shelve

theorem tools_run_identified_shelve : ∃ token claims caller, token = "h.c.s" ∧
    Signed oneToken oneKey token booksHook.verifier.validation claims ∧
    Vouched booksHook.verifier claims caller ∧ caller.userId = "ana" ∧ caller.tenantId = some "north" := by
  have reached : (booksEndpoint.route atNoon plainCrates pinging parseDecimal (fun _ => 0) .post
      (ping [(AUTHORIZATION, .ofString "bearer h.c.s")])).Reaches
      ⟨⟨⟨some "ana", some "north"⟩, false, ["books:read", "books:write"]⟩,
        some VERIFIED_CALLER_AUTH_METHOD, none, some (.string "1")⟩ none := by
    decide +kernel
  have ran : (books.execute "shelve" ()
      ⟨⟨some "ana", some "north"⟩, false, ["books:read", "books:write"]⟩ (.object [])).ran = true := by
    decide +kernel
  obtain ⟨_, identified⟩ := McpEndpoint.tools_run_identified rfl reached
    (rfl : books.tools.lookup "shelve" = some shelve) ran
  obtain ⟨token, claims, caller, hbearer, hsigned, hvouched, huser, htenant, _⟩ :=
    identified (.inr (.inl (by decide)))
  refine ⟨token, claims, caller, ?_, hsigned, hvouched, (Option.some.inj huser).symm, htenant.symm⟩
  have presented : bearerToken (ping [(AUTHORIZATION, .ofString "bearer h.c.s")]).headers =
      some "h.c.s" := by
    decide +kernel
  exact Option.some.inj (hbearer.symm.trans presented)

end Served

end Tronc.Mcp
