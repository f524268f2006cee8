import Mathlib.Logic.Function.Basic
import Tronc.HttpClient.Policy
import Tronc.Library.Transition

namespace Tronc.HttpClient

open Transition

/-- Which resolved addresses a client refuses. -/
structure AddressRule where
  deny : Bool
  permitLoopback : Bool

def AddressRule.refuses (rule : AddressRule) (ip : IpAddr) : Bool :=
  if !rule.deny then false
  else if rule.permitLoopback && isLoopback ip then false
  else isDeniedIp ip

/-- `PinningResolver::vetted`, on what the lookup of a name answered: nothing where it failed. -/
def vetted (rule : AddressRule) : Option (List IpAddr) → Except GuardError (List IpAddr)
  | none => .error .unresolvable
  | some addresses =>
    if addresses.isEmpty then .error .unresolvable
    -- one denied address refuses the whole answer
    else if addresses.any rule.refuses then .error .deniedAddress
    else .ok addresses

structure GuardedClient where
  policy : FetchPolicy
  rule : AddressRule
  httpsOnly : Bool

structure GuardedClientBuilder where
  policy : FetchPolicy
  permitLoopback : Bool

namespace GuardedClientBuilder

def permitLoopbackForTests (builder : GuardedClientBuilder) : GuardedClientBuilder :=
  { builder with permitLoopback := true }

def build (builder : GuardedClientBuilder) : GuardedClient where
  policy := builder.policy
  rule := ⟨builder.policy.appliesDenyList, builder.permitLoopback⟩
  httpsOnly := builder.policy.httpsOnly

end GuardedClientBuilder

inductive RedirectAction where
  | follow
  | stop
  | error (cause : GuardError)
  deriving DecidableEq

namespace GuardedClient

def builder (policy : FetchPolicy) : GuardedClientBuilder := ⟨policy, false⟩

def new (policy : FetchPolicy) : GuardedClient := (builder policy).build

variable (crates : UrlCrates) (client : GuardedClient)

/-- The redirect policy `build` gives the client. `previous` holds the original URL and every hop
followed so far. -/
def redirect (previous : List Url) (url : Url) : RedirectAction :=
  match client.policy.maxRedirects with
  | 0 => .stop
  | max + 1 =>
    if max + 1 < previous.length then .error .tooManyRedirects
    else
      match client.policy.check crates url client.rule.refuses with
      | .ok () => .follow
      | .error refusal => .error refusal

/-- Check a URL against every rule that needs no DNS. -/
def checkUrl (url : String) : Except GuardError Url :=
  match crates.parse url with
  | none => .error .invalidUrl
  | some parsed =>
    match client.policy.check crates parsed client.rule.refuses with
    | .ok () => .ok parsed
    | .error refusal => .error refusal

/-- Check a URL as `checkUrl` does, then every address its host resolves to. -/
def validate (url : String) (answer : Option (List IpAddr)) : Except GuardError Unit :=
  match client.checkUrl crates url with
  | .error refusal => .error refusal
  | .ok parsed =>
    match parsed.host with
    | some (.domain _) => (vetted client.rule answer).map fun _ => ()
    | some (.ipv4 _) | some (.ipv6 _) | none => .ok ()

end GuardedClient

structure Connection where
  url : Url
  ip : IpAddr
  deriving DecidableEq

/-- A pooled connection serves every URL of its scheme, host and port. -/
def Connection.serves (c : Connection) (url : Url) : Bool :=
  c.url.scheme == url.scheme && c.url.host == url.host && c.url.port == url.port

inductive Stage where
  | idle
  /-- The guard let the URL through; its host is still to be looked at. -/
  | connecting (url : Url)
  /-- The connector holds the addresses it may connect to. -/
  | pinned (url : Url) (addresses : List IpAddr)
  | sent (url : Url)
  | responded
  | refused (cause : GuardError)
  | failed
  deriving DecidableEq

structure Fetch where
  stage : Stage
  /-- Every URL the fetch requested in turn, the original first. -/
  hops : List Url
  deriving DecidableEq

inductive Event where
  | request (text : String)
  | dial
  | resolve (answer : Option (List IpAddr))
  | connect (ip : IpAddr)
  | send (connection : Connection)
  | redirect (location : Url)
  | respond
  | fail

section Fetching

variable (crates : UrlCrates) (client : GuardedClient)

def Fetch.step (made : List Connection) (fetch : Fetch) : Event → Option (Fetch × List Connection)
  | .request text =>
    match fetch.stage with
    | .idle =>
      match client.checkUrl crates text with
      | .ok url => some (⟨.connecting url, [url]⟩, made)
      | .error refusal => some ({ fetch with stage := .refused refusal }, made)
    | _ => none
  | .dial =>
    match fetch.stage with
    | .connecting url =>
      if client.httpsOnly && url.scheme != "https" then none
      else (url.host.bind Host.literal).map fun ip =>
        ({ fetch with stage := .pinned url [ip] }, made)
    | _ => none
  | .resolve answer =>
    match fetch.stage with
    | .connecting url =>
      if client.httpsOnly && url.scheme != "https" then none
      else
        match url.host with
        | some (.domain _) =>
          match vetted client.rule answer with
          | .ok addresses => some ({ fetch with stage := .pinned url addresses }, made)
          | .error refusal => some ({ fetch with stage := .refused refusal }, made)
        | _ => none
    | _ => none
  | .connect ip =>
    match fetch.stage with
    | .pinned url addresses => if ip ∈ addresses then some (fetch, made ++ [⟨url, ip⟩]) else none
    | _ => none
  | .send connection =>
    match fetch.stage with
    | .connecting url | .pinned url _ =>
      if connection ∈ made ∧ connection.serves url then
        some ({ fetch with stage := .sent url }, made)
      else none
    | _ => none
  | .redirect location =>
    match fetch.stage with
    | .sent _ =>
      match client.redirect crates fetch.hops location with
      | .follow => some (⟨.connecting location, fetch.hops ++ [location]⟩, made)
      | .stop => some ({ fetch with stage := .responded }, made)
      | .error refusal => some ({ fetch with stage := .refused refusal }, made)
    | _ => none
  | .respond =>
    match fetch.stage with
    | .sent _ => some ({ fetch with stage := .responded }, made)
    | _ => none
  | .fail =>
    match fetch.stage with
    | .connecting _ | .pinned _ _ | .sent _ => some ({ fetch with stage := .failed }, made)
    | _ => none

/-- Every fetch of a client, and every connection made for them, which is pooled. -/
structure Fetches where
  made : List Connection
  fetches : Nat → Fetch

def Fetches.step (s : Fetches) (a : Nat × Event) : Option Fetches :=
  ((s.fetches a.1).step crates client s.made a.2).map fun (fetch, made) =>
    ⟨made, Function.update s.fetches a.1 fetch⟩

/-- A client's fetches, which may run at the same time. -/
def fetching : Lts Fetches (Nat × Event) where
  init s := s.made = [] ∧ ∀ i, s.fetches i = ⟨.idle, []⟩
  step s a t := s.step crates client a = some t

end Fetching

end Tronc.HttpClient
