import Tronc.HttpClient.Deny
import Tronc.Library.Text

namespace Tronc.HttpClient

/-- Why a guarded fetch was refused or failed. -/
inductive GuardError where
  | invalidUrl
  | schemeNotAllowed
  | credentialsInUrl
  | portNotAllowed
  | missingHost
  | hostNotAllowed
  | pathNotAllowed
  | localName
  | deniedAddress
  | unresolvable
  | tooManyRedirects
  | transport (cause : String)
  deriving DecidableEq

inductive Host where
  | domain (name : String)
  | ipv4 (bits : BitVec 32)
  | ipv6 (bits : BitVec 128)
  deriving DecidableEq

/-- The address a host spells out. -/
def Host.literal : Host → Option IpAddr
  | .domain _ => none
  | .ipv4 bits => some (.v4 bits)
  | .ipv6 bits => some (.v6 bits)

/-- A URL as the `url` crate has parsed it: a port equal to the scheme's default is dropped. -/
structure Url where
  scheme : String
  username : String
  password : Option String
  host : Option Host
  port : Option Nat
  path : String
  deriving DecidableEq

/-- What the crates `url` and `percent_encoding` do: parse a URL, and decode a segment of its path,
where that is UTF-8. -/
structure UrlCrates where
  parse : String → Option Url
  decode : String → Option String

/-- `str::split`. -/
def split (c : Char) (text : String) : List String := (text.toList.splitOn c).map .ofList

/-- `char::is_control`. -/
def isControl (c : Char) : Bool := decide (c.toNat < 32) || decide (127 ≤ c.toNat ∧ c.toNat < 160)

def eqIgnoreAsciiCase (a b : String) : Bool := Text.asciiLower a == Text.asciiLower b

/-- A character that is no letter is in both texts or in neither. -/
theorem mem_of_eqIgnoreAsciiCase {a b : String} (h : eqIgnoreAsciiCase a b = true) {c : Char}
    (hc : c.toNat < 65 ∨ 90 < c.toNat ∧ c.toNat < 97) (hmem : c ∈ a.toList) : c ∈ b.toList := by
  have hlower := congrArg String.toList (eq_of_beq h)
  rw [Text.toList_asciiLower, Text.toList_asciiLower] at hlower
  have hself : Text.asciiLowerChar c = c := Text.asciiLowerChar_self (by omega)
  have hin : c ∈ b.toList.map Text.asciiLowerChar := by
    rw [← hlower]
    exact List.mem_map.mpr ⟨c, hmem, hself⟩
  obtain ⟨d, hd, hdc⟩ := List.mem_map.mp hin
  rw [← Text.eq_of_asciiLowerChar (by omega) hdc]
  exact hd

/-- Without a trailing dot. -/
def undotted (domain : String) : String := (Text.stripSuffix domain ".").getD domain

theorem undotted_append (name : String) : undotted (name ++ ".") = name := by
  unfold undotted
  rw [Text.stripSuffix_eq_some.mpr (String.toList_append), Option.getD_some]

theorem undotted_cases (domain : String) : undotted domain = domain ∨
    domain = undotted domain ++ "." := by
  unfold undotted
  cases hstrip : Text.stripSuffix domain "." with
  | none => exact .inl rfl
  | some rest =>
    refine .inr (String.toList_injective ?_)
    rw [Text.stripSuffix_eq_some.mp hstrip, Option.getD_some, String.toList_append]

inductive AllowedHost where
  | domain (name : String)
  | ip (address : IpAddr)
  deriving DecidableEq

def AllowedHost.isMatch : AllowedHost → Host → Bool
  | .domain name, .domain other => eqIgnoreAsciiCase name (undotted other)
  | .ip address, .ipv4 bits => address == .v4 bits
  | .ip address, .ipv6 bits => address == .v6 bits
  | .domain _, .ipv4 _ | .domain _, .ipv6 _ | .ip _, .domain _ => false

/-- The path an entry confines its host to: whole segments, compared exactly. -/
structure PathPrefix where
  segments : List String
  /-- The prefix ended in `/`: the URL's path must go past it. -/
  directory : Bool
  deriving DecidableEq

/-- Whether a decoded segment may be taken for another, or for none. -/
def isAmbiguous (segment : String) : Bool :=
  segment == "." || segment == ".." ||
    segment.toList.any fun c => c == '/' || c == '\\' || c == '%' || isControl c

namespace PathPrefix

variable (crates : UrlCrates)

/-- The segments of a path, decoded; nothing where it is spelled ambiguously. An empty segment is
one only at the end. -/
def decodeSegments : List String → Option (List String)
  | [] => some []
  | segment :: rest =>
    if segment = "" ∧ rest ≠ [] then none
    else
      match crates.decode segment with
      | none => none
      | some text =>
        if isAmbiguous text then none
        else (decodeSegments rest).map (text :: ·)

/-- Whether a URL's path lies under the prefix and is spelled unambiguously. -/
def admits (pre : PathPrefix) (path : String) : Bool :=
  match Text.stripPrefix path "/" with
  | none => false
  | some path =>
    match decodeSegments crates (split '/' path) with
    | none => false
    | some decoded =>
      -- a trailing empty segment names the directory itself
      let decoded := if decoded.getLast? = some "" then decoded.dropLast else decoded
      let enough := if pre.directory then decide (pre.segments.length < decoded.length)
        else decide (pre.segments.length ≤ decoded.length)
      enough && (pre.segments.zip decoded).all fun (expected, actual) => expected == actual

end PathPrefix

structure AllowedEntry where
  host : AllowedHost
  path : Option PathPrefix
  deriving DecidableEq

/-- An exact host allowlist. -/
structure HostAllowlist where
  entries : List AllowedEntry
  deriving DecidableEq

/-- The loop of `HostAllowlist::admits`, over the entries of the host. -/
def HostAllowlist.scan (crates : UrlCrates) (url : Url) : List AllowedEntry → Bool →
    Except GuardError Unit
  | [], listedUnderAPrefix =>
    .error (if listedUnderAPrefix then .pathNotAllowed else .hostNotAllowed)
  | entry :: rest, _ =>
    match entry.path with
    | none => .ok ()
    | some pre =>
      if pre.admits crates url.path then .ok () else scan crates url rest true

def HostAllowlist.admits (crates : UrlCrates) (hosts : HostAllowlist) (host : Host) (url : Url) :
    Except GuardError Unit :=
  scan crates url (hosts.entries.filter fun entry => entry.host.isMatch host) false

/-- Which rules a guarded fetch applies. -/
inductive FetchPolicy where
  | webhook
  | allowlist (hosts : HostAllowlist)
  | archiveFetch (hosts : HostAllowlist)
  deriving DecidableEq

/-- The longest redirect chain a policy that follows redirects accepts. -/
def MAX_REDIRECTS : Nat := 5

/-- A name that only ever means a local or internal host. -/
def isLocalName (domain : String) : Bool :=
  let lastLabel := ((split '.' (undotted domain)).getLast?).getD (undotted domain)
  ["localhost", "local", "internal"].any fun suffix => eqIgnoreAsciiCase lastLabel suffix

namespace FetchPolicy

/-- Whether resolved addresses are checked against the deny list. -/
def appliesDenyList : FetchPolicy → Bool
  | .allowlist _ => false
  | .webhook | .archiveFetch _ => true

def maxRedirects : FetchPolicy → Nat
  | .webhook => 0
  | .allowlist _ | .archiveFetch _ => MAX_REDIRECTS

/-- Whether the policy accepts only `https`. -/
def httpsOnly : FetchPolicy → Bool
  | .archiveFetch _ => true
  | .webhook | .allowlist _ => false

/-- The hosts the policy admits, where it lists them. -/
def hosts : FetchPolicy → Option HostAllowlist
  | .webhook => none
  | .allowlist hosts | .archiveFetch hosts => some hosts

def schemeOk (policy : FetchPolicy) (url : Url) : Bool :=
  match policy with
  | .archiveFetch _ => url.scheme == "https"
  | .webhook | .allowlist _ => url.scheme == "http" || url.scheme == "https"

/-- The end of `check`: the rules of the deny list, on the host as the URL spells it. -/
def checkAddress (refuses : IpAddr → Bool) (host : Host) : Except GuardError Unit :=
  match host with
  | .domain domain => if isLocalName domain then .error .localName else .ok ()
  | .ipv4 bits => if refuses (.v4 bits) then .error .deniedAddress else .ok ()
  | .ipv6 bits => if refuses (.v6 bits) then .error .deniedAddress else .ok ()

/-- Check a parsed URL against every rule that does not need DNS. -/
def check (crates : UrlCrates) (policy : FetchPolicy) (url : Url) (refuses : IpAddr → Bool) :
    Except GuardError Unit :=
  if !policy.schemeOk url then .error .schemeNotAllowed
  else if url.username ≠ "" ∨ url.password.isSome then .error .credentialsInUrl
  else if policy.httpsOnly ∧ url.port.isSome then .error .portNotAllowed
  else
    match url.host with
    | none => .error .missingHost
    | some host =>
      match policy.hosts.elim (.ok ()) fun hosts => hosts.admits crates host url with
      | .error e => .error e
      | .ok () =>
        if !policy.appliesDenyList then .ok () else checkAddress refuses host

end FetchPolicy

end Tronc.HttpClient
