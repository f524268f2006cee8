import Tronc.Mcp.Auth
import Tronc.Mcp.Handshake
import Tronc.Tools.Gate

namespace Tronc.Mcp

open Iam (GoogleSigningKey IamError)

section Keys

variable {env : Env} {envVar host key : String} {headers : HeaderMap}

theorem configuredKey_eq_some : configuredKey env envVar = some key ↔
    ∃ value, env envVar = some value ∧ Text.trim value = key ∧ key ≠ "" := by
  unfold configuredKey
  simp only [Option.filter_eq_some_iff, Option.map_eq_some_iff, decide_eq_true_eq]
  constructor
  · intro ⟨⟨value, hvalue, htrim⟩, hne⟩
    exact ⟨value, hvalue, htrim, hne⟩
  · intro ⟨value, hvalue, htrim, hne⟩
    exact ⟨⟨value, hvalue, htrim⟩, hne⟩

theorem bearerToken_eq : bearerToken headers =
    ((Server.getHeader headers AUTHORIZATION).bind HeaderValue.toStr).bind bearerCredential := by
  unfold bearerToken Server.getHeader AUTHORIZATION
  cases (headers.getAll "authorization").head? <;> rfl

/-- Under a key, a request goes on exactly with that key as its bearer credential. -/
theorem requireAuth_eq_none (h : configuredKey env envVar = some key) :
    requireAuth env envVar headers = none ↔ bearerToken headers = some key := by
  unfold requireAuth
  rw [h, bearerToken_eq]
  dsimp only
  cases (Server.getHeader headers AUTHORIZATION).bind HeaderValue.toStr with
  | none => simp
  | some value =>
    dsimp only [Option.bind_some]
    cases bearerCredential value with
    | none => simp
    | some token => simp

theorem requireAuth_open (h : configuredKey env envVar = none) :
    requireAuth env envVar headers = none := by
  unfold requireAuth
  rw [h]

end Keys

namespace ApiKeyAuthHook

variable {hook : ApiKeyAuthHook} {env : Env} {request : JsonRpcRequest} {ctx : HookContext}

theorem admitRequest_eq_some {presented : String} : hook.admitRequest env presented request = some ctx ↔
    configuredKey env hook.envVar = some presented ∧
      ctx = { HookContext.new with authMethod := some API_KEY_AUTH_METHOD, requestId := request.id } := by
  unfold admitRequest
  cases configuredKey env hook.envVar with
  | none => simp
  | some expected =>
    rw [Option.bind_some]
    by_cases h : expected = presented
    · rw [if_pos h]
      simp [h, eq_comm]
    · rw [if_neg h]
      simp [h]

/-- The hook's door opens to the key alone, and stays shut without one. -/
theorem authenticate_eq_ok : hook.authenticate env request = .ok ctx ↔
    ∃ key, configuredKey env hook.envVar = some key ∧ request.authToken = some key ∧
      ctx = { HookContext.new with authMethod := some API_KEY_AUTH_METHOD, requestId := request.id } := by
  have presents {key : String} (h : configuredKey env hook.envVar = some key) :
      request.authToken.getD "" = key ↔ request.authToken = some key := by
    obtain ⟨_, _, _, hne⟩ := configuredKey_eq_some.mp h
    cases request.authToken with
    | none => simp [Ne.symm hne]
    | some token => simp
  unfold authenticate
  constructor
  · intro h
    split at h
    · rename_i ctx' hadmit
      obtain ⟨hkey, hctx⟩ := admitRequest_eq_some.mp hadmit
      refine ⟨_, hkey, (presents hkey).mp rfl, ?_⟩
      rw [← Except.ok.inj h]
      exact hctx
    · cases h
  · intro ⟨key, hkey, htoken, hctx⟩
    rw [admitRequest_eq_some.mpr ⟨hkey.trans (congrArg some ((presents hkey).mpr htoken).symm), hctx⟩]

end ApiKeyAuthHook

section Posture

variable (env : Env) (envVar host challenge : String)

/-- What a gate lets on, of the requests that an MCP route and a REST route are given alike. -/
def Passes (headers : HeaderMap) (request : JsonRpcRequest) : Prop :=
  ∃ ctx, (⟨envVar, challenge⟩ : ApiKeyAuthHook).authenticate env
    { request with authToken := bearerToken headers } = .ok ctx

theorem passes_iff (headers : HeaderMap) (request : JsonRpcRequest) :
    Passes env envVar challenge headers request ↔
      ∃ key, configuredKey env envVar = some key ∧ bearerToken headers = some key := by
  unfold Passes
  simp only [ApiKeyAuthHook.authenticate_eq_ok]
  constructor
  · intro ⟨_, key, hkey, htoken, _⟩
    exact ⟨key, hkey, htoken⟩
  · intro ⟨key, hkey, htoken⟩
    exact ⟨_, key, hkey, htoken, rfl⟩

theorem startupAuth_eq : startupAuth env envVar host =
    if (configuredKey env envVar).isSome then .ok .enforced
    else if isLoopbackHost host then .ok .loopbackDev
    else .error ⟨host, some envVar⟩ := by
  unfold startupAuth resolveStartupAuth apiKeyConfigured
  split
  · rfl
  · split <;> rfl

/-- The posture a service starts in is the one its gates enforce. Enforced, both gates let on the
requests that carry the key and no others; on a loopback alone may it start without a key, and then the
REST gate stands open and the MCP one is shut; and the refusal to start says which variable to set. -/
theorem posture_enforced :
    (startupAuth env envVar host = .ok .enforced → ∃ value key, env envVar = some value ∧
      Text.trim value = key ∧ key ≠ "" ∧ ∀ headers request,
        (requireAuth env envVar headers = none ↔ bearerToken headers = some key) ∧
        (Passes env envVar challenge headers request ↔ bearerToken headers = some key)) ∧
    (startupAuth env envVar host = .ok .loopbackDev → isLoopbackHost host = true ∧
      ∀ headers request,
        requireAuth env envVar headers = none ∧ ¬ Passes env envVar challenge headers request) ∧
    ∀ refused, startupAuth env envVar host = .error refused →
      isLoopbackHost host = false ∧ refused = ⟨host, some envVar⟩ := by
  rw [startupAuth_eq]
  cases hkey : configuredKey env envVar with
  | some key =>
    rw [Option.isSome_some, if_pos rfl]
    refine ⟨?_, ?_, ?_⟩
    · intro _
      obtain ⟨value, hvalue, htrim, hne⟩ := configuredKey_eq_some.mp hkey
      refine ⟨value, key, hvalue, htrim, hne, ?_⟩
      intro headers request
      refine ⟨requireAuth_eq_none hkey, ?_⟩
      rw [passes_iff, hkey]
      simp
    · intro h
      cases h
    · intro refused h
      cases h
  | none =>
    rw [Option.isSome_none, if_neg Bool.false_ne_true]
    refine ⟨?_, ?_, ?_⟩
    · intro h
      split at h <;> cases h
    · intro h
      split at h
      · rename_i hloop
        refine ⟨hloop, ?_⟩
        intro headers request
        refine ⟨requireAuth_open hkey, ?_⟩
        rw [passes_iff, hkey]
        simp
      · cases h
    · intro refused h
      split at h
      · cases h
      · rename_i hloop
        exact ⟨Bool.eq_false_of_not_eq_true hloop, (Except.error.inj h).symm⟩

end Posture

section Verified

variable (jwt : Jwt) (keys : String → Iam.Answer)

/-- The claims of a token that a key of the set signed and that the library holds to be as they should
be. -/
def Signed (token : String) (validation : Validation) (claims : Json) : Prop :=
  ∃ kid signing key, jwt.decodeHeader token = .ok (some kid) ∧ keys kid = .ok signing ∧
    jwt.fromRsaComponents signing.n signing.e = .ok key ∧ jwt.decode token key validation = .ok claims

variable {jwt keys} {token : String} {validation : Validation}

theorem decodingKeyFor_eq_ok {key : jwt.Key} (h : decodingKeyFor jwt keys token = .ok key) :
    ∃ kid signing, jwt.decodeHeader token = .ok (some kid) ∧ keys kid = .ok signing ∧
      jwt.fromRsaComponents signing.n signing.e = .ok key := by
  unfold decodingKeyFor at h
  cases hheader : jwt.decodeHeader token with
  | error e =>
    rw [hheader] at h
    cases h
  | ok kid =>
    rw [hheader] at h
    cases kid with
    | none => cases h
    | some kid =>
      dsimp only at h
      cases hkey : keys kid with
      | error e =>
        rw [hkey] at h
        cases h
      | ok signing =>
        rw [hkey] at h
        dsimp only at h
        refine ⟨kid, signing, rfl, hkey, ?_⟩
        cases hrsa : jwt.fromRsaComponents signing.n signing.e with
        | error e =>
          rw [hrsa] at h
          cases h
        | ok key' =>
          rw [hrsa] at h
          exact congrArg Except.ok (Except.ok.inj h)

/-- What of a token's checking is an outage, and not the token's fault: that the key it names cannot be
had. -/
def KeyUnavailable (jwt : Jwt) (keys : String → Iam.Answer) (token : String) : Prop :=
  ∃ kid why, jwt.decodeHeader token = .ok (some kid) ∧ keys kid = .error (.jwksUnavailable why)

theorem decodingKeyFor_unavailable :
    (∃ why, decodingKeyFor jwt keys token = .error (.jwksUnavailable why)) ↔
      KeyUnavailable jwt keys token := by
  unfold decodingKeyFor KeyUnavailable
  cases jwt.decodeHeader token with
  | error e => simp
  | ok kid =>
    cases kid with
    | none => simp
    | some kid =>
      cases hkey : keys kid with
      | error e => simp [hkey]
      | ok signing =>
        refine iff_of_false ?_ (by simp [hkey])
        intro ⟨why, h⟩
        dsimp only at h
        rw [hkey] at h
        dsimp only at h
        cases hrsa : jwt.fromRsaComponents signing.n signing.e <;> rw [hrsa] at h <;> cases h

theorem decodeAs_eq_ok {α : Type} {fromValue : Json → Option α} {key : jwt.Key} {read : α}
    (h : decodeAs jwt fromValue token key validation = .ok read) :
    ∃ claims, jwt.decode token key validation = .ok claims ∧ fromValue claims = some read := by
  unfold decodeAs at h
  cases hdecode : jwt.decode token key validation with
  | error e =>
    rw [hdecode] at h
    cases h
  | ok claims =>
    rw [hdecode] at h
    dsimp only at h
    cases hread : fromValue claims with
    | none =>
      rw [hread] at h
      cases h
    | some read' =>
      rw [hread] at h
      exact ⟨claims, rfl, hread.trans (congrArg some (Except.ok.inj h))⟩

theorem decodeAs_rejected {α : Type} {fromValue : Json → Option α} {key : jwt.Key} {e : IamError}
    (h : decodeAs jwt fromValue token key validation = .error e) : ∃ why, e = .rejected why := by
  unfold decodeAs at h
  split at h
  · exact ⟨_, (Except.error.inj h).symm⟩
  · split at h
    · exact ⟨_, (Except.error.inj h).symm⟩
    · cases h

/-- What the claims of a caller's token say of it, and that they say it: no blank user or tenant is ever
read, and no scope that is not granted. -/
structure Vouched (verifier : CallerTokenVerifier) (claims : Json) (caller : VerifiedCaller) : Prop where
  user : claims.get "sub" = some (.string caller.userId) ∧ Text.trim caller.userId ≠ ""
  tenant : ∀ tenant, caller.tenantId = some tenant →
    claims.get verifier.tenantClaim = some (.string tenant) ∧ Text.trim tenant ≠ ""
  scopes : ∀ scope ∈ caller.scopes, ∃ granted, claims.get "scope" = some (.string granted) ∧
    scope ∈ splitWhitespace granted

theorem get_filter {fields : Map} (p : String → Bool) {name : String} {v : Json}
    (h : Map.get (fields.filter fun e => p e.1) name = some v) : Map.get fields name = some v := by
  unfold Map.get at h ⊢
  induction fields with
  | nil => cases h
  | cons e fields ih =>
    rw [List.lookup_cons]
    rw [List.filter_cons] at h
    cases hp : p e.1 with
    | true =>
      rw [if_pos hp, List.lookup_cons] at h
      split
      · rename_i hname
        rw [hname] at h
        exact h
      · rename_i hname
        rw [hname] at h
        exact ih h
    | false =>
      rw [if_neg (by rw [hp]; exact Bool.false_ne_true)] at h
      split
      · rename_i hname
        obtain ⟨front, rest, hsplit, _⟩ := List.lookup_eq_some_iff.mp h
        have found : (name, v) ∈ fields.filter fun e => p e.1 := by
          rw [hsplit]
          exact List.mem_append_right _ List.mem_cons_self
        have kept := (List.mem_filter.mp found).2
        rw [eq_of_beq hname, hp] at kept
        cases kept
      · exact ih h

theorem CallerClaims.fromValue_eq_some {claims : Json} {read : CallerClaims}
    (h : CallerClaims.fromValue claims = some read) :
    claims.get "sub" = some (.string read.sub) ∧
      (∀ scope, read.scope = some scope → claims.get "scope" = some (.string scope)) ∧
      ∀ name v, Map.get read.rest name = some v → claims.get name = some v := by
  cases claims with
  | object fields =>
    obtain ⟨sub, hsub, h⟩ := Option.bind_eq_some_iff.mp h
    obtain ⟨scope, hscope, h⟩ := Option.bind_eq_some_iff.mp h
    obtain ⟨clientId, _, h⟩ := Option.bind_eq_some_iff.mp h
    rw [← Option.some.inj h]
    refine ⟨?_, ?_, ?_⟩
    · obtain ⟨v, hv, hstr⟩ := Option.bind_eq_some_iff.mp hsub
      exact hv.trans (congrArg some (Json.asStr_eq_some hstr))
    · intro text htext
      obtain rfl : scope = some text := htext
      obtain ⟨v, hv, hstr⟩ := Record.optionalField_eq_some hscope
      exact hv.trans (congrArg some (Json.asStr_eq_some hstr))
    · intro name v hrest
      exact get_filter (fun name => decide (name ∉ ["sub", "scope", "client_id"])) hrest
  | null => cases h
  | bool b => cases h
  | number n => cases h
  | string s => cases h
  | array xs => cases h

theorem vouched_of_verify {verifier : CallerTokenVerifier} {caller : VerifiedCaller}
    (h : verifier.verify jwt keys token = .ok caller) :
    ∃ claims, Signed jwt keys token verifier.validation claims ∧ Vouched verifier claims caller := by
  obtain ⟨key, hkey, h⟩ := bind_eq_ok.mp h
  obtain ⟨read, hread, h⟩ := bind_eq_ok.mp h
  obtain ⟨kid, signing, hheader, hsigning, hrsa⟩ := decodingKeyFor_eq_ok hkey
  obtain ⟨claims, hdecode, hclaims⟩ := decodeAs_eq_ok hread
  obtain ⟨hsub, hscope, hrest⟩ := CallerClaims.fromValue_eq_some hclaims
  refine ⟨claims, ⟨kid, signing, key, hheader, hsigning, hrsa, hdecode⟩, ?_⟩
  split at h
  · cases h
  · rename_i hblank
    obtain ⟨tenantId, htenant, h⟩ := bind_eq_ok.mp h
    rw [← Except.ok.inj h]
    refine ⟨⟨hsub, hblank⟩, ?_, ?_⟩
    · intro tenant hsome
      obtain rfl : tenantId = some tenant := hsome
      unfold CallerTokenVerifier.tenantOf at htenant
      split at htenant
      · cases htenant
      · cases htenant
      · rename_i named hnamed
        split at htenant
        · rename_i hne
          obtain rfl := Option.some.inj (Except.ok.inj htenant)
          exact ⟨hrest _ _ hnamed, hne⟩
        · cases htenant
      · cases htenant
    · intro scope hmem
      cases hs : read.scope with
      | none =>
        rw [hs] at hmem
        simp [splitWhitespace] at hmem
      | some granted =>
        rw [hs] at hmem
        exact ⟨granted, hscope granted hs, hmem⟩

theorem verify_unavailable {verifier : CallerTokenVerifier} :
    (∃ why, verifier.verify jwt keys token = .error (.jwksUnavailable why)) ↔
      KeyUnavailable jwt keys token := by
  rw [← decodingKeyFor_unavailable]
  constructor
  · intro ⟨why, h⟩
    rcases bind_eq_error h with hkey | ⟨key, _, h⟩
    · exact ⟨why, hkey⟩
    · exfalso
      rcases bind_eq_error h with hread | ⟨read, _, h⟩
      · obtain ⟨_, hrejected⟩ := decodeAs_rejected hread
        cases hrejected
      · split at h
        · cases h
        · rcases bind_eq_error h with htenant | ⟨tenantId, _, h⟩
          · unfold CallerTokenVerifier.tenantOf at htenant
            split at htenant
            · cases htenant
            · cases htenant
            · split at htenant <;> cases htenant
            · cases htenant
          · cases h
  · intro ⟨why, h⟩
    refine ⟨why, ?_⟩
    unfold CallerTokenVerifier.verify
    rw [h]
    rfl

end Verified

namespace CallerAuthHook

variable (hook : CallerAuthHook) (jwt : Jwt) (keys : String → Iam.Answer) (env : Env)
  (request : JsonRpcRequest)

/-- The token is the service's shared key. -/
def IsSharedKey (token : String) : Prop :=
  ∃ key, hook.sharedKey = some key ∧ configuredKey env key.envVar = some token

/-- The ways in: without a credential, where that is allowed, with the shared key, and with a token that
was verified; and what each gives. -/
inductive Admits : HookContext → Prop where
  | anonymous : hook.anonymous = true → request.authToken.filter (· ≠ "") = none →
      Admits { HookContext.new with requestId := request.id }
  | sharedKey (token : String) : request.authToken = some token → hook.IsSharedKey env token →
      Admits { HookContext.new with
        authMethod := some API_KEY_AUTH_METHOD, requestId := request.id }
  | verified (token : String) (claims : Json) (caller : VerifiedCaller) :
      request.authToken = some token → ¬ hook.IsSharedKey env token →
      Signed jwt keys token hook.verifier.validation claims → Vouched hook.verifier claims caller →
      Admits (caller.intoContext request.id)

/-- What a credential is answered with. -/
inductive Presented (token : String) : Except AuthError HookContext → Prop where
  | sharedKey : hook.IsSharedKey env token → Presented token (.ok { HookContext.new with
      authMethod := some API_KEY_AUTH_METHOD, requestId := request.id })
  | verified : ¬ hook.IsSharedKey env token → Presented token (hook.verified jwt keys token request)

theorem authenticate_cases {token : String} (h : request.authToken = some token) (hne : token ≠ "") :
    Presented hook jwt keys env request token (hook.authenticate jwt keys env request) := by
  unfold authenticate
  have presented : request.authToken.filter (· ≠ "") = some token := by
    rw [h]
    simp [Option.filter, hne]
  rw [presented]
  dsimp only
  cases hadmit : hook.sharedKey.bind fun key => key.admitRequest env token request with
  | some ctx =>
    obtain ⟨key, hkey, hadmit⟩ := Option.bind_eq_some_iff.mp hadmit
    obtain ⟨hconfigured, hctx⟩ := ApiKeyAuthHook.admitRequest_eq_some.mp hadmit
    rw [hctx]
    exact .sharedKey ⟨key, hkey, hconfigured⟩
  | none =>
    refine .verified ?_
    intro ⟨key, hkey, hconfigured⟩
    rw [hkey, Option.bind_some, ApiKeyAuthHook.admitRequest_eq_some.mpr ⟨hconfigured, rfl⟩] at hadmit
    cases hadmit

theorem authenticate_without (h : request.authToken.filter (· ≠ "") = none) :
    hook.authenticate jwt keys env request =
      if hook.anonymous then .ok { HookContext.new with requestId := request.id }
      else .error (.unauthorized hook.challenge) := by
  unfold authenticate
  rw [h]

theorem presents_cases : request.authToken.filter (· ≠ "") = none ∨
    ∃ token, request.authToken = some token ∧ token ≠ "" := by
  cases htoken : request.authToken with
  | none => exact .inl rfl
  | some token =>
    by_cases hne : token = ""
    · left
      simp [Option.filter, hne]
    · exact .inr ⟨token, rfl, hne⟩

variable {hook jwt keys env request}

theorem admits_of_authenticate {ctx : HookContext}
    (h : hook.authenticate jwt keys env request = .ok ctx) :
    Admits hook jwt keys env request ctx := by
  rcases presents_cases request with hnone | ⟨token, htoken, hne⟩
  · rw [authenticate_without hook jwt keys env request hnone] at h
    split at h
    · rename_i hanonymous
      rw [← Except.ok.inj h]
      exact .anonymous hanonymous hnone
    · cases h
  · have presented := authenticate_cases hook jwt keys env request htoken hne
    rw [h] at presented
    generalize hr : (Except.ok ctx : Except AuthError HookContext) = r at presented
    cases presented with
    | sharedKey hkey =>
      obtain rfl := Except.ok.inj hr
      exact .sharedKey token htoken hkey
    | verified hkey =>
      unfold verified at hr
      split at hr
      · rename_i caller hverify
        obtain rfl := Except.ok.inj hr
        obtain ⟨claims, hsigned, hvouched⟩ := vouched_of_verify hverify
        exact .verified token claims caller htoken hkey hsigned hvouched
      · cases hr
      · cases hr

/-- A refusal says nothing of the token: it is the configured challenge, or else that nobody could check
it, and that exactly where the key it names cannot be had, for a token that is not the shared key. -/
theorem refusals_opaque :
    (∀ e, hook.authenticate jwt keys env request = .error e →
      e = .unauthorized hook.challenge ∨ e = .internal "The caller token could not be checked") ∧
    (hook.authenticate jwt keys env request =
        .error (.internal "The caller token could not be checked") ↔
      ∃ token, request.authToken = some token ∧ token ≠ "" ∧ ¬ hook.IsSharedKey env token ∧
        KeyUnavailable jwt keys token) := by
  rcases presents_cases request with hnone | ⟨token, htoken, hne⟩
  · rw [authenticate_without hook jwt keys env request hnone]
    refine ⟨?_, ?_⟩
    · intro e h
      split at h
      · cases h
      · exact .inl (Except.error.inj h).symm
    · refine iff_of_false ?_ ?_
      · intro h
        split at h <;> cases h
      · intro ⟨token, htoken, hne, _⟩
        rw [htoken] at hnone
        simp [Option.filter, hne] at hnone
  · have only (token' : String) (h : request.authToken = some token') : token' = token :=
      Option.some.inj (h.symm.trans htoken)
    have presented := authenticate_cases hook jwt keys env request htoken hne
    generalize hook.authenticate jwt keys env request = r at presented ⊢
    cases presented with
    | sharedKey hkey =>
      refine ⟨?_, ?_⟩
      · intro e h
        cases h
      · refine iff_of_false (by intro h; cases h) ?_
        intro ⟨token', htoken', _, hother, _⟩
        rw [only token' htoken'] at hother
        exact hother hkey
    | verified hkey =>
      have outage : (∃ token', request.authToken = some token' ∧ token' ≠ "" ∧
          ¬ hook.IsSharedKey env token' ∧ KeyUnavailable jwt keys token') ↔
          ∃ why, hook.verifier.verify jwt keys token = .error (.jwksUnavailable why) := by
        rw [verify_unavailable]
        constructor
        · intro ⟨token', htoken', _, _, h⟩
          rwa [only token' htoken'] at h
        · intro h
          exact ⟨token, htoken, hne, hkey, h⟩
      rw [outage]
      unfold verified
      cases hook.verifier.verify jwt keys token with
      | ok caller => simp
      | error e => cases e <;> simp

/-- What a context that the hook gave may do: the tools that want an identity run for a verified caller
alone, as the user and for the tenant and the scopes that its token names, and those for admins for
nobody. -/
theorem identified {ctx : HookContext} {caps : Tools.ToolCapabilities} {scopes : List String}
    (h : hook.authenticate jwt keys env request = .ok ctx)
    (hmeets : Tools.Meets ctx.caller caps scopes) :
    caps.contains Tools.ToolCapabilities.ADMIN_ONLY = false ∧
    (caps.contains Tools.ToolCapabilities.REQUIRES_AUTH = true ∨
      caps.contains Tools.ToolCapabilities.REQUIRES_TENANT = true ∨ scopes ≠ [] →
      ∃ token claims caller, request.authToken = some token ∧
        Signed jwt keys token hook.verifier.validation claims ∧
        Vouched hook.verifier claims caller ∧ ctx = caller.intoContext request.id ∧
        (caps.contains Tools.ToolCapabilities.REQUIRES_TENANT = true → caller.tenantId.isSome) ∧
        ∀ scope ∈ scopes, scope ∈ caller.scopes) := by
  have nobody (hadmin : ctx.isAdmin = false) :
      caps.contains Tools.ToolCapabilities.ADMIN_ONLY = false := by
    by_contra hcontains
    have admin := hmeets.admin (Bool.eq_true_of_not_eq_false hcontains)
    rw [hadmin] at admin
    cases admin
  have unnamed (huser : ctx.userId = none) (hscopes : ctx.scopes = [])
      (hwants : caps.contains Tools.ToolCapabilities.REQUIRES_AUTH = true ∨
        caps.contains Tools.ToolCapabilities.REQUIRES_TENANT = true ∨ scopes ≠ []) : False := by
    have noUser (h : caps.contains Tools.ToolCapabilities.REQUIRES_AUTH = true ∨
        caps.contains Tools.ToolCapabilities.REQUIRES_TENANT = true) : False := by
      obtain ⟨id, hid, _⟩ := hmeets.user h
      rw [huser] at hid
      cases hid
    rcases hwants with hauth | htenant | hne
    · exact noUser (.inl hauth)
    · exact noUser (.inr htenant)
    · obtain ⟨scope, hscope⟩ := List.exists_mem_of_ne_nil scopes hne
      have granted := hmeets.scopes scope hscope
      rw [hscopes] at granted
      cases granted
  cases admits_of_authenticate h with
  | anonymous _ _ => exact ⟨nobody rfl, fun hwants => (unnamed rfl rfl hwants).elim⟩
  | sharedKey token _ _ => exact ⟨nobody rfl, fun hwants => (unnamed rfl rfl hwants).elim⟩
  | verified token claims caller htoken _ hsigned hvouched =>
    refine ⟨nobody rfl, fun _ => ⟨token, claims, caller, htoken, hsigned, hvouched, rfl, ?_, ?_⟩⟩
    · intro hcontains
      obtain ⟨id, hid, _⟩ := hmeets.tenant hcontains
      have hid : caller.tenantId = some id := hid
      rw [hid]
      rfl
    · intro scope hscope
      exact hmeets.scopes scope hscope

end CallerAuthHook

namespace GoogleIdTokenVerifier

variable {verifier : GoogleIdTokenVerifier} {jwt : Jwt} {keys : String → Iam.Answer}
  {headers : HeaderMap} {token : String}

/-- The caller is one of those the service expects, if it names any. -/
def Expects (verifier : GoogleIdTokenVerifier) (claims : IdTokenClaims) : Prop :=
  verifier.allowedEmails = [] ∨
    claims.email.getD "" ∈ verifier.allowedEmails ∧ claims.emailVerified = some true

theorem verify_eq_ok {claims : IdTokenClaims} : verifier.verify jwt keys token = .ok claims ↔
    (∃ value, Signed jwt keys token verifier.validation value ∧
      IdTokenClaims.fromValue value = some claims) ∧ verifier.Expects claims := by
  have allowed (read : IdTokenClaims) :
      (if verifier.allowedEmails = [] then (.ok read : Except IamError IdTokenClaims)
        else
          let email := read.email.getD ""
          if email ∉ verifier.allowedEmails then
            .error (.rejected ("caller " ++ email ++ " is not in this service's allowlist"))
          else if read.emailVerified ≠ some true then
            .error (.rejected ("caller " ++ email ++ " is not a verified address"))
          else .ok read) = .ok claims ↔ read = claims ∧ verifier.Expects claims := by
    unfold Expects
    split
    · rename_i hnone
      simp [hnone]
    · rename_i hsome
      dsimp only
      split
      · rename_i hmem
        refine iff_of_false (by intro h; cases h) ?_
        intro ⟨hread, hexpects⟩
        rw [← hread] at hexpects
        exact hmem (hexpects.resolve_left hsome).1
      · rename_i hmem
        split
        · rename_i hverified
          refine iff_of_false (by intro h; cases h) ?_
          intro ⟨hread, hexpects⟩
          rw [← hread] at hexpects
          exact hverified (hexpects.resolve_left hsome).2
        · rename_i hverified
          constructor
          · intro h
            obtain rfl := Except.ok.inj h
            exact ⟨rfl, .inr ⟨not_not.mp hmem, not_not.mp hverified⟩⟩
          · intro ⟨h, _⟩
            rw [h]
  unfold verify
  constructor
  · intro h
    obtain ⟨key, hkey, h⟩ := bind_eq_ok.mp h
    obtain ⟨read, hread, h⟩ := bind_eq_ok.mp h
    obtain ⟨kid, signing, hheader, hsigning, hrsa⟩ := decodingKeyFor_eq_ok hkey
    obtain ⟨value, hdecode, hvalue⟩ := decodeAs_eq_ok hread
    obtain ⟨rfl, hexpects⟩ := (allowed read).mp h
    exact ⟨⟨value, ⟨kid, signing, key, hheader, hsigning, hrsa, hdecode⟩, hvalue⟩, hexpects⟩
  · intro ⟨⟨value, ⟨kid, signing, key, hheader, hsigning, hrsa, hdecode⟩, hvalue⟩, hexpects⟩
    refine bind_eq_ok.mpr ⟨key, ?_, bind_eq_ok.mpr ⟨claims, ?_, (allowed claims).mpr ⟨rfl, hexpects⟩⟩⟩
    · unfold decodingKeyFor
      rw [hheader]
      dsimp only
      rw [hsigning]
      dsimp only
      rw [hrsa]
      rfl
    · unfold decodeAs
      rw [hdecode]
      dsimp only
      rw [hvalue]

/-- A request goes on exactly with a token of Google's for this audience, signed by a key of the set,
and from a caller that the service expects, with an address that Google vouches for; and whatever is
amiss with a token, it is refused alike. -/
theorem google_gate : (verifier.requireGoogleIdToken jwt keys headers = none ↔
      ∃ token value claims, bearerToken headers = some token ∧
        Signed jwt keys token verifier.validation value ∧
        IdTokenClaims.fromValue value = some claims ∧ verifier.Expects claims) ∧
    ∀ reason, verifier.requireGoogleIdToken jwt keys headers = some reason →
      reason = if (bearerToken headers).isSome then "Invalid identity token"
        else "Missing bearer identity token" := by
  unfold requireGoogleIdToken
  cases hbearer : bearerToken headers with
  | none => simp [eq_comm]
  | some token =>
    dsimp only
    cases hverify : verifier.verify jwt keys token with
    | ok claims =>
      obtain ⟨⟨value, hsigned, hvalue⟩, hexpects⟩ := verify_eq_ok.mp hverify
      refine ⟨iff_of_true rfl ⟨token, value, claims, rfl, hsigned, hvalue, hexpects⟩, ?_⟩
      intro reason h
      cases h
    | error e =>
      refine ⟨iff_of_false (by intro h; cases h) ?_, ?_⟩
      · intro ⟨token', value, claims, htoken, hsigned, hvalue, hexpects⟩
        obtain rfl := Option.some.inj htoken
        rw [verify_eq_ok.mpr ⟨⟨value, hsigned, hvalue⟩, hexpects⟩] at hverify
        cases hverify
      · intro reason h
        exact (Option.some.inj h).symm

end GoogleIdTokenVerifier

end Tronc.Mcp
