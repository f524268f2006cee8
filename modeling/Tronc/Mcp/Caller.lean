import Tronc.Library.CancelTree
import Tronc.Sessions.Store

namespace Tronc.Mcp

/-- What tells apart two callers the auth hook resolved to the same identity. -/
inductive Channel where
  | unconnected
  | connection (serial : Nat)
  | session (id : String)
  /-- HTTP without a session: the fingerprint of the credential presented. -/
  | sessionless (fingerprint : Option UInt64)
  deriving DecidableEq

structure CallerKey where
  user : Option String
  tenant : Option String
  channel : Channel
  deriving DecidableEq

/-- What the dispatch reads of a request's context: the identity, the caller its connection names,
if there is one, and its cancellation token. -/
structure ToolContext extends Sessions.ToolContext where
  client : Option CallerKey
  cancellation : CancelTree.Token
  deriving DecidableEq

namespace CallerKey

def withChannel (ctx : Sessions.ToolContext) (channel : Channel) : CallerKey :=
  ⟨ctx.userId, ctx.tenantId, channel⟩

def inProcess (ctx : Sessions.ToolContext) : CallerKey := withChannel ctx .unconnected

/-- `CallerKey::http`; `fingerprint` is the process's keyed hash. -/
def http (fingerprint : String → UInt64) (ctx : Sessions.ToolContext) (session : Option String)
    (credential : Option String) : CallerKey :=
  withChannel ctx (session.elim (.sessionless (credential.map fingerprint)) .session)

def tellsCallersApart (key : CallerKey) : Bool :=
  match key.channel with
  | .sessionless _ => key.user.isSome || key.tenant.isSome
  | .unconnected | .connection _ | .session _ => true

end CallerKey

def ToolContext.caller (ctx : ToolContext) : CallerKey :=
  ctx.client.getD (.inProcess ctx.toToolContext)

end Tronc.Mcp
