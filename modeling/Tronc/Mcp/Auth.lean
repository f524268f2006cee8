import Tronc.Mcp.Origins
import Tronc.Mcp.Revision
import Tronc.Record
import Tronc.Server.Answers
import Tronc.Tools.Registry

namespace Tronc.Mcp

open Iam (GoogleSigningKey IamError)

/-- The environment of the process. -/
abbrev Env := String → Option String

/-- The key a variable holds, blanks around it left out; a blank one is no key. -/
def configuredKey (env : Env) (envVar : String) : Option String :=
  ((env envVar).map Text.trim).filter (· ≠ "")

def apiKeyConfigured (env : Env) (envVar : String) : Bool := (configuredKey env envVar).isSome

inductive AuthMode where
  | enforced
  | loopbackDev
  deriving DecidableEq

structure InsecureBindError where
  host : String
  gate : Option String
  deriving DecidableEq

def resolveStartupAuth (host : String) (gated : Bool) : Except InsecureBindError AuthMode :=
  if gated then .ok .enforced
  else if isLoopbackHost host then .ok .loopbackDev
  else .error ⟨host, none⟩

def startupAuth (env : Env) (envVar host : String) : Except InsecureBindError AuthMode :=
  (resolveStartupAuth host (apiKeyConfigured env envVar)).mapError fun refused =>
    { refused with gate := some envVar }

def AUTHORIZATION : String := "authorization"

/-- `require_auth`: what a request is refused with, under 401, unless it goes on. -/
def requireAuth (env : Env) (envVar : String) (headers : HeaderMap) : Option String :=
  match configuredKey env envVar with
  | none => none
  | some expected =>
    match (Server.getHeader headers AUTHORIZATION).bind HeaderValue.toStr with
    | none => some "Missing Authorization header"
    | some value =>
      match bearerCredential value with
      | none => some "Authorization header must use Bearer scheme"
      | some token => if token = expected then none else some "Invalid API key"

/-- A credential is missing, or does not hold. -/
def ErrorCode.unauthorized : Int := -32001

/-- The budget of a credential is spent. -/
def ErrorCode.rateLimited : Int := -32002

/-- Why a hook rejected a request. -/
inductive AuthError where
  | unauthorized (wwwAuthenticate : String)
  | forbidden (reason : String)
  | insufficientScope (wwwAuthenticate reason : String)
  | rateLimited (retryAfterSecs : UInt64) (reason : String)
  | internal (reason : String)
  deriving DecidableEq

/-- The context a hook resolves: what the registry reads of it, and what else it says of the
caller. -/
structure HookContext extends caller : Tools.ToolContext where
  authMethod : Option String
  clientId : Option String
  requestId : Option Json
  deriving DecidableEq

/-- `ToolContext::new`: no identity, not admin. -/
def HookContext.new : HookContext := ⟨⟨⟨none, none⟩, false, []⟩, none, none, none⟩

def API_KEY_AUTH_METHOD : String := "api_key"

def VERIFIED_CALLER_AUTH_METHOD : String := "verified_caller"

/-- `value` with what would end a quoted string escaped. -/
def quoteEscape (value : String) : String :=
  .ofList (value.toList.flatMap fun c => if c = '\\' ∨ c = '"' then ['\\', c] else [c])

structure ApiKeyAuthHook where
  envVar : String
  challenge : String

namespace ApiKeyAuthHook

def new (envVar realm : String) : ApiKeyAuthHook :=
  ⟨envVar, "Bearer realm=\"" ++ quoteEscape realm ++ "\""⟩

variable (hook : ApiKeyAuthHook) (env : Env)

/-- The context of a request that presents the key: it holds the key, and nothing more. -/
def admitRequest (presented : String) (request : JsonRpcRequest) : Option HookContext :=
  (configuredKey env hook.envVar).bind fun expected =>
    if expected = presented then
      some { HookContext.new with authMethod := some API_KEY_AUTH_METHOD, requestId := request.id }
    else none

def authenticate (request : JsonRpcRequest) : Except AuthError HookContext :=
  match hook.admitRequest env (request.authToken.getD "") request with
  | some ctx => .ok ctx
  | none => .error (.unauthorized hook.challenge)

end ApiKeyAuthHook

/-- What a token is held to, all of it under RS256. -/
structure Validation where
  audience : List String
  issuer : List String
  requiredSpecClaims : List String
  validateNbf : Bool

/-- The library that reads tokens: the `kid` of a token's header, a key of its components, and the
claims of a token that the key signed and that is what it is held to be. `misshapen` words the refusal of
claims of another shape than is asked for. -/
structure Jwt where
  Key : Type
  decodeHeader : String → Except String (Option String)
  fromRsaComponents : String → String → Except String Key
  decode : String → Key → Validation → Except String Json
  misshapen : Json → String

section Tokens

variable (jwt : Jwt) (keys : String → Iam.Answer)

/-- `GoogleKeySet::decoding_key_for`; `keys` is what the key set answers. -/
def decodingKeyFor (token : String) : Except IamError jwt.Key :=
  match jwt.decodeHeader token with
  | .error e => .error (.rejected e)
  | .ok none => .error (.rejected "token header carries no kid")
  | .ok (some kid) =>
    match keys kid with
    | .error e => .error e
    | .ok key =>
      (jwt.fromRsaComponents key.n key.e).mapError fun e =>
        .rejected ("signing key " ++ kid ++ " is unusable: " ++ e)

/-- The claims of a token, read as one shape. -/
def decodeAs {α : Type} (fromValue : Json → Option α) (token : String) (key : jwt.Key)
    (validation : Validation) : Except IamError α :=
  match jwt.decode token key validation with
  | .error e => .error (.rejected e)
  | .ok claims =>
    match fromValue claims with
    | none => .error (.rejected (jwt.misshapen claims))
    | some read => .ok read

def PLATFORM_TENANT_CLAIM : String := "active_tenant_id"

def REQUIRED_CLAIMS : List String := ["exp", "iss", "aud", "sub"]

/-- The identity a verified token carries. -/
structure VerifiedCaller where
  userId : String
  tenantId : Option String
  scopes : List String
  clientId : Option String
  deriving DecidableEq

def VerifiedCaller.intoContext (caller : VerifiedCaller) (requestId : Option Json) : HookContext :=
  ⟨⟨⟨some caller.userId, caller.tenantId⟩, false, caller.scopes⟩, some VERIFIED_CALLER_AUTH_METHOD,
    caller.clientId, requestId⟩

structure CallerClaims where
  sub : String
  scope : Option String
  clientId : Option String
  /-- The other claims. -/
  rest : Map

def CallerClaims.fromValue : Json → Option CallerClaims
  | .object fields => do
    let sub ← (Map.get fields "sub").bind Json.asStr
    let scope ← optionalField Json.asStr (Map.get fields "scope")
    let clientId ← optionalField Json.asStr (Map.get fields "client_id")
    some ⟨sub, scope, clientId, fields.filter fun e => e.1 ∉ ["sub", "scope", "client_id"]⟩
  | _ => none

/-- `str::split_whitespace`. -/
def splitWhitespace (text : String) : List String :=
  ((text.toList.splitOnP Text.isWhitespace).filter (· ≠ [])).map .ofList

structure CallerTokenVerifier where
  issuer : String
  audience : String
  tenantClaim : String

namespace CallerTokenVerifier

/-- `CallerTokenVerifier::new`. -/
def new (issuer audience : String) : CallerTokenVerifier := ⟨issuer, audience, PLATFORM_TENANT_CLAIM⟩

variable (verifier : CallerTokenVerifier)

def validation : Validation := ⟨[verifier.audience], [verifier.issuer], REQUIRED_CLAIMS, true⟩

/-- The tenant that the claims name. -/
def tenantOf (claims : CallerClaims) : Except IamError (Option String) :=
  match claims.rest.get verifier.tenantClaim with
  | none | some .null => .ok none
  | some (.string tenant) =>
    if Text.trim tenant ≠ "" then .ok (some tenant)
    else .error (.rejected ("claim " ++ verifier.tenantClaim ++ " is not a tenant id"))
  | some _ => .error (.rejected ("claim " ++ verifier.tenantClaim ++ " is not a tenant id"))

def verify (token : String) : Except IamError VerifiedCaller := do
  let key ← decodingKeyFor jwt keys token
  let claims ← decodeAs jwt CallerClaims.fromValue token key verifier.validation
  if Text.trim claims.sub = "" then .error (.rejected "token has an empty sub")
  else do
    let tenantId ← verifier.tenantOf claims
    return ⟨claims.sub, tenantId, splitWhitespace (claims.scope.getD ""),
      claims.clientId.filter (· ≠ "")⟩

end CallerTokenVerifier

structure CallerAuthHook where
  verifier : CallerTokenVerifier
  challenge : String
  sharedKey : Option ApiKeyAuthHook
  anonymous : Bool

namespace CallerAuthHook

variable (hook : CallerAuthHook) (env : Env)

/-- A token that is not the key is verified. -/
def verified (token : String) (request : JsonRpcRequest) : Except AuthError HookContext :=
  match hook.verifier.verify jwt keys token with
  | .ok caller => .ok (caller.intoContext request.id)
  | .error (.jwksUnavailable _) => .error (.internal "The caller token could not be checked")
  | .error (.rejected _) => .error (.unauthorized hook.challenge)

def authenticate (request : JsonRpcRequest) : Except AuthError HookContext :=
  match request.authToken.filter (· ≠ "") with
  | none =>
    if hook.anonymous then .ok { HookContext.new with requestId := request.id }
    else .error (.unauthorized hook.challenge)
  | some token =>
    match hook.sharedKey.bind fun key => key.admitRequest env token request with
    | some ctx => .ok ctx
    | none => hook.verified jwt keys token request

end CallerAuthHook

def GOOGLE_ISSUERS : List String := ["https://accounts.google.com", "accounts.google.com"]

structure IdTokenClaims where
  sub : String
  aud : String
  email : Option String
  emailVerified : Option Bool

def IdTokenClaims.fromValue : Json → Option IdTokenClaims :=
  Record.read ["sub", "aud", "email", "email_verified"] 2 fun field => do
    let sub ← (field "sub").bind Json.asStr
    let aud ← (field "aud").bind Json.asStr
    let email ← optionalField Json.asStr (field "email")
    let emailVerified ← optionalField Record.readBool (field "email_verified")
    some ⟨sub, aud, email, emailVerified⟩

structure GoogleIdTokenVerifier where
  audience : String
  allowedEmails : List String

namespace GoogleIdTokenVerifier

variable (verifier : GoogleIdTokenVerifier)

/-- `Validation::new` requires `exp` alone. -/
def validation : Validation := ⟨[verifier.audience], GOOGLE_ISSUERS, ["exp"], false⟩

def verify (token : String) : Except IamError IdTokenClaims := do
  let key ← decodingKeyFor jwt keys token
  let claims ← decodeAs jwt IdTokenClaims.fromValue token key verifier.validation
  if verifier.allowedEmails = [] then return claims
  else
    let email := claims.email.getD ""
    if email ∉ verifier.allowedEmails then
      .error (.rejected ("caller " ++ email ++ " is not in this service's allowlist"))
    else if claims.emailVerified ≠ some true then
      .error (.rejected ("caller " ++ email ++ " is not a verified address"))
    else return claims

/-- `require_google_id_token`: what a request is refused with, under 401, unless it goes on. -/
def requireGoogleIdToken (headers : HeaderMap) : Option String :=
  match bearerToken headers with
  | none => some "Missing bearer identity token"
  | some token =>
    match verifier.verify jwt keys token with
    | .ok _ => none
    | .error _ => some "Invalid identity token"

end GoogleIdTokenVerifier

end Tokens

end Tronc.Mcp
