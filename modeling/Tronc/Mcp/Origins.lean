import Tronc.HttpClient.Entries
import Tronc.Notify.Render

namespace Tronc.Mcp

open HttpClient (IpAddr eqIgnoreAsciiCase parseIp splitOnce unbracketed undotted)

/-- `str::split_once` of a pattern that is not empty. -/
def splitOnceOn (pattern : List Char) : List Char → Option (List Char × List Char)
  | [] => none
  | c :: rest =>
    match (c :: rest).dropPrefix? pattern with
    | some after => some ([], after)
    | none => (splitOnceOn pattern rest).map fun r => (c :: r.1, r.2)

/-- `str::parse::<u16>`. -/
def parseU16 (s : String) : Option Nat := (Notify.parseU64 s).filter (· < 2 ^ 16)

/-- Whether a port is a decimal TCP port. -/
def isPort (port : String) : Bool := port.toList.all Char.isDigit && (parseU16 port).isSome

/-- A character that no bare authority has. -/
def isForbidden (c : Char) : Bool :=
  Text.isWhitespace c || c == '/' || c == '@' || c == '?' || c == '#'

/-- The host and the port that the colons and brackets of an authority leave. -/
def authorityParts (authority : String) : Option (String × Option String) :=
  match Text.stripPrefix authority "[" with
  | some bracketed =>
    (splitOnce ']' bracketed).bind fun (literal, rest) =>
      if rest = "" then some (literal, none)
      else (Text.stripPrefix rest ":").map fun port => (literal, some port)
  | none =>
    match splitOnce ':' authority with
    | none => some (authority, none)
    | some (host, port) => some (host, some port)

/-- The host and the optional port of a bare authority. -/
def splitAuthority (authority : String) : Option (String × Option String) :=
  if authority = "" ∨ authority.toList.any isForbidden = true then none
  else
    match authorityParts authority with
    | none => none
    | some (host, port) => if port.all isPort then some (host, port) else none

/-- `IpAddr::is_loopback`. -/
def isLoopbackIp : IpAddr → Bool
  | .v4 bits => HttpClient.isLoopbackV4 bits
  | .v6 bits => bits == 1

/-- Whether a host names a loopback interface. -/
def isLoopbackHost (host : String) : Bool :=
  let trimmed := Text.trim host
  if eqIgnoreAsciiCase trimmed "localhost" then true
  else (parseIp (unbracketed trimmed)).any isLoopbackIp

def isLoopbackOrigin (origin : String) : Bool :=
  match splitOnceOn "://".toList origin.toList with
  | none => false
  | some (scheme, authority) =>
    if !(eqIgnoreAsciiCase (.ofList scheme) "http" || eqIgnoreAsciiCase (.ofList scheme) "https")
    then false
    else (splitAuthority (.ofList authority)).any fun parts => isLoopbackHost parts.1

/-- Whether a request with this `Origin` passes the list. -/
def isOriginAllowed (origin : Option String) (allowed : List String) : Bool :=
  origin.all fun origin =>
    if allowed = [] then isLoopbackOrigin origin
    else allowed.any fun a => a == "*" || a == origin

/-- Whether a request naming this authority passes the list. -/
def isHostAllowed (authority : Option String) (allowed : List String) : Bool :=
  match authority.map Text.trim with
  | none => false
  | some authority =>
    match splitAuthority authority with
    | none => false
    | some (host, port) =>
      let bare := (Text.stripSuffix host ".").getD host
      if isLoopbackHost bare then true
      else allowed.any fun entry =>
        (splitAuthority (Text.trim entry)).any fun allowedParts =>
          eqIgnoreAsciiCase allowedParts.1 host &&
            allowedParts.2.all fun allowedPort => some allowedPort == port

/-! The grammar of an authority: a host, and a port after a colon. -/
section Grammar

/-- A number in digits that a port may have. -/
structure IsPort (port : String) : Prop where
  ne : port ≠ ""
  digits : ∀ c ∈ port.toList, c.isDigit = true
  lt : port.toList.foldl (fun n c => 10 * n + (c.toNat - 48)) 0 < 2 ^ 16

def portText : Option String → List Char
  | none => []
  | some port => ':' :: port.toList

/-- The text of a host, in brackets or not, with the port after it. -/
structure Parts (authority : String) (bracketed : Bool) (host : String) (port : Option String) :
    Prop where
  text : authority.toList =
    (if bracketed then '[' :: (host.toList ++ [']']) else host.toList) ++ portText port
  ends : if bracketed then ']' ∉ host.toList else ':' ∉ host.toList ∧ host.toList.head? ≠ some '['

/-- A text that is a host and an optional port, whatever the host is. -/
structure HostAndPort (authority : String) (bracketed : Bool) (host : String)
    (port : Option String) : Prop extends Parts authority bracketed host port where
  nonempty : authority ≠ ""
  clean : ∀ c ∈ authority.toList, isForbidden c = false
  port : ∀ p, port = some p → IsPort p

/-- An IPv6 literal in brackets, or what has neither brackets nor nothing in it. -/
def IsHost : Bool → String → Prop
  | true, host => ∃ bits, parseIp host = some (.v6 bits)
  | false, host => host ≠ "" ∧ '[' ∉ host.toList ∧ ']' ∉ host.toList

/-- `host` or `host:port`. -/
def IsAuthority (authority host : String) (port : Option String) : Prop :=
  ∃ bracketed, HostAndPort authority bracketed host port ∧ IsHost bracketed host

/-- `localhost`, an address of 127.0.0.0/8, or `::1`. -/
def IsLoopback (host : String) : Prop :=
  eqIgnoreAsciiCase host "localhost" = true ∨
    ∃ ip, parseIp host = some ip ∧ isLoopbackIp ip = true

/-- The authority that a host and a port make, an IPv6 literal in brackets. -/
def recombine (host : String) (port : Option String) : String :=
  .ofList ((if ':' ∈ host.toList then '[' :: (host.toList ++ [']']) else host.toList) ++
    portText port)

/-- A host and an optional port, where the host is not one of the grammar. -/
def Misshapen (authority host : String) (port : Option String) : Prop :=
  ∃ bracketed, HostAndPort authority bracketed host port ∧ ¬ IsHost bracketed host

/-- `http` or `https`, in any case, and an authority. -/
structure IsOrigin (origin scheme authority : String) : Prop where
  text : origin.toList = scheme.toList ++ "://".toList ++ authority.toList
  web : eqIgnoreAsciiCase scheme "http" = true ∨ eqIgnoreAsciiCase scheme "https" = true

def IsLoopbackOrigin (origin : String) : Prop :=
  ∃ scheme authority host port, IsOrigin origin scheme authority ∧
    IsAuthority authority host port ∧ IsLoopback host

/-- An entry names the host, and no port or this one. -/
def Configured (allowed : List String) (host : String) (port : Option String) : Prop :=
  ∃ entry ∈ allowed, ∃ bracketed allowedHost allowedPort,
    HostAndPort (Text.trim entry) bracketed allowedHost allowedPort ∧
      eqIgnoreAsciiCase allowedHost host = true ∧ (allowedPort = none ∨ allowedPort = port)

variable {authority host : String} {port : Option String} {bracketed : Bool}

theorem isPort_iff {port : String} : isPort port = true ↔ IsPort port := by
  unfold isPort parseU16
  rw [Bool.and_eq_true, List.all_eq_true]
  constructor
  · rintro ⟨hdigits, hparse⟩
    have hne : port ≠ "" := by
      rintro rfl
      exact absurd hparse (by decide)
    have hlist : port.toList ≠ [] := fun h => hne (String.toList_injective h)
    rw [Notify.parseU64_digits hlist hdigits] at hparse
    obtain ⟨n, hn⟩ := Option.isSome_iff_exists.mp hparse
    obtain ⟨hread, hlt⟩ := Option.filter_eq_some_iff.mp hn
    refine ⟨hne, hdigits, ?_⟩
    split at hread
    · rw [Option.some.inj hread]
      exact of_decide_eq_true hlt
    · cases hread
  · rintro ⟨hne, hdigits, hlt⟩
    have hlist : port.toList ≠ [] := fun h => hne (String.toList_injective h)
    refine ⟨hdigits, ?_⟩
    rw [Notify.parseU64_digits hlist hdigits, if_pos (by omega),
      Option.filter_some, if_pos (decide_eq_true hlt)]
    rfl

theorem toList_eq_nil {text : String} : text.toList = [] ↔ text = "" :=
  ⟨fun h => String.toList_injective h, fun h => by rw [h]; rfl⟩

theorem authorityParts_of_bracketed (h : Parts authority true host port) :
    authorityParts authority = some (host, port) := by
  have hstrip : Text.stripPrefix authority "[" =
      some (.ofList (host.toList ++ ']' :: portText port)) := by
    rw [Text.stripPrefix_eq_some, String.toList_ofList, h.text]
    simp
  have hsplit : splitOnce ']' (.ofList (host.toList ++ ']' :: portText port)) =
      some (host, .ofList (portText port)) :=
    HttpClient.splitOnce_eq_some_iff.mpr
      ⟨by rw [String.toList_ofList, String.toList_ofList], h.ends⟩
  unfold authorityParts
  rw [hstrip]
  dsimp only
  rw [hsplit, Option.bind_some]
  dsimp only
  cases port with
  | none => rfl
  | some p =>
    have hne : String.ofList (portText (some p)) ≠ "" := by
      rw [ne_eq, ← toList_eq_nil, String.toList_ofList]
      exact List.cons_ne_nil _ _
    have hport : Text.stripPrefix (.ofList (portText (some p))) ":" = some p := by
      rw [Text.stripPrefix_eq_some, String.toList_ofList]
      rfl
    rw [if_neg hne, hport]
    rfl

theorem authorityParts_of_bare (h : Parts authority false host port) :
    authorityParts authority = some (host, port) := by
  obtain ⟨hcolon, hhead⟩ := h.ends
  have htext : authority.toList = host.toList ++ portText port := h.text
  have hstrip : Text.stripPrefix authority "[" = none := by
    by_contra hne
    obtain ⟨rest, hrest⟩ := Option.ne_none_iff_exists'.mp hne
    have hlist := Text.stripPrefix_eq_some.mp hrest
    rw [htext] at hlist
    cases hhost : host.toList with
    | nil =>
      rw [hhost] at hlist
      cases port with
      | none => cases hlist
      | some p => exact absurd (List.cons.inj hlist).1 (by decide)
    | cons c host' =>
      rw [hhost] at hlist hhead
      have hc : c = '[' := (List.cons.inj hlist).1
      exact hhead (by rw [hc]; rfl)
  unfold authorityParts
  rw [hstrip]
  dsimp only
  cases port with
  | none =>
    have hauthority : authority = host := by
      apply String.toList_injective
      rw [htext]
      exact List.append_nil _
    rw [hauthority, HttpClient.splitOnce_eq_none_iff.mpr hcolon]
  | some p => rw [HttpClient.splitOnce_eq_some_iff.mpr ⟨htext, hcolon⟩]

theorem parts_of_authorityParts (h : authorityParts authority = some (host, port)) :
    ∃ bracketed, Parts authority bracketed host port := by
  unfold authorityParts at h
  cases hstrip : Text.stripPrefix authority "[" with
  | some inner =>
    rw [hstrip] at h
    dsimp only at h
    obtain ⟨⟨literal, rest⟩, hsplit, h⟩ := Option.bind_eq_some_iff.mp h
    have hlist := Text.stripPrefix_eq_some.mp hstrip
    obtain ⟨hinner, hbracket⟩ := HttpClient.splitOnce_eq_some_iff.mp hsplit
    refine ⟨true, ?_⟩
    dsimp only at h
    split at h
    · rename_i hrest
      obtain ⟨rfl, rfl⟩ := Prod.mk.inj (Option.some.inj h)
      refine ⟨?_, hbracket⟩
      rw [hlist, hinner, hrest]
      simp [portText]
    · obtain ⟨p, hp, hparts⟩ := Option.map_eq_some_iff.mp h
      obtain ⟨rfl, rfl⟩ := Prod.mk.inj hparts
      refine ⟨?_, hbracket⟩
      rw [hlist, hinner, Text.stripPrefix_eq_some.mp hp]
      simp [portText]
  | none =>
    rw [hstrip] at h
    dsimp only at h
    have hhead : authority.toList.head? ≠ some '[' := by
      intro hhead
      obtain ⟨rest, hrest⟩ := List.head?_eq_some_iff.mp hhead
      have hsome : Text.stripPrefix authority "[" = some (.ofList rest) := by
        rw [Text.stripPrefix_eq_some, hrest]
        show '[' :: rest = '[' :: (String.ofList rest).toList
        rw [String.toList_ofList]
      cases hstrip.symm.trans hsome
    refine ⟨false, ?_⟩
    cases hsplit : splitOnce ':' authority with
    | none =>
      rw [hsplit] at h
      obtain ⟨rfl, rfl⟩ := Prod.mk.inj (Option.some.inj h)
      exact ⟨(List.append_nil _).symm, HttpClient.splitOnce_eq_none_iff.mp hsplit, hhead⟩
    | some parts =>
      obtain ⟨before, after⟩ := parts
      rw [hsplit] at h
      obtain ⟨rfl, rfl⟩ := Prod.mk.inj (Option.some.inj h)
      obtain ⟨htext, hcolon⟩ := HttpClient.splitOnce_eq_some_iff.mp hsplit
      refine ⟨htext, hcolon, fun hbefore => hhead ?_⟩
      rw [htext, List.head?_append, hbefore]
      rfl

theorem authorityParts_eq_some_iff : authorityParts authority = some (host, port) ↔
    ∃ bracketed, Parts authority bracketed host port := by
  constructor
  · exact parts_of_authorityParts
  · rintro ⟨bracketed, h⟩
    cases bracketed with
    | true => exact authorityParts_of_bracketed h
    | false => exact authorityParts_of_bare h

/-- What an authority is split into, and that nothing else is. -/
theorem splitAuthority_eq_some_iff : splitAuthority authority = some (host, port) ↔
    ∃ bracketed, HostAndPort authority bracketed host port := by
  have hclean : authority.toList.any isForbidden = true ↔
      ¬ ∀ c ∈ authority.toList, isForbidden c = false := by
    simp
  unfold splitAuthority
  constructor
  · intro h
    split at h
    · cases h
    · rename_i hok
      obtain ⟨hne, hforbidden⟩ := not_or.mp hok
      split at h
      · cases h
      · rename_i host' port' hparts
        split at h
        · rename_i hport
          obtain ⟨rfl, rfl⟩ := Prod.mk.inj (Option.some.inj h)
          obtain ⟨bracketed, htext, hends⟩ := parts_of_authorityParts hparts
          refine ⟨bracketed, ⟨htext, hends⟩, hne, not_not.mp (hclean.not.mp hforbidden), ?_⟩
          rintro p rfl
          exact isPort_iff.mp hport
        · cases h
  · rintro ⟨bracketed, hparts, hne, hall, hport⟩
    rw [if_neg (not_or.mpr ⟨hne, fun h => hclean.mp h hall⟩),
      authorityParts_eq_some_iff.mpr ⟨bracketed, hparts⟩]
    dsimp only
    rw [if_pos]
    cases port with
    | none => rfl
    | some p => exact isPort_iff.mpr (hport p rfl)

/-- Brackets are there when the text begins with one. -/
theorem Parts.head_iff (h : Parts authority bracketed host port) :
    authority.toList.head? = some '[' ↔ bracketed = true := by
  rw [h.text]
  cases bracketed with
  | true => exact iff_of_true rfl rfl
  | false =>
    obtain ⟨-, hhead⟩ := h.ends
    refine iff_of_false (fun hfirst => ?_) (fun h => nomatch h)
    cases hhost : host.toList with
    | nil =>
      cases port with
      | none => simp [hhost, portText] at hfirst
      | some p => simp [hhost, portText] at hfirst
    | cons c rest =>
      rw [hhost] at hhead
      simp [hhost] at hfirst
      exact hhead (by rw [hfirst]; rfl)

theorem HostAndPort.unique {bracketed' : Bool} {host' : String} {port' : Option String}
    (h : HostAndPort authority bracketed host port)
    (h' : HostAndPort authority bracketed' host' port') :
    bracketed = bracketed' ∧ host = host' ∧ port = port' := by
  have hsplit := splitAuthority_eq_some_iff.mpr ⟨bracketed, h⟩
  rw [splitAuthority_eq_some_iff.mpr ⟨bracketed', h'⟩] at hsplit
  obtain ⟨hhost, hport⟩ := Prod.mk.inj (Option.some.inj hsplit)
  refine ⟨Bool.eq_iff_iff.mpr ?_, hhost.symm, hport.symm⟩
  rw [← h.toParts.head_iff, ← h'.toParts.head_iff]

theorem readGivenChar_eq_none {c : Char} {text : List Char} (h : c ∉ text) :
    HttpClient.readGivenChar c text = none := by
  cases text with
  | nil => rfl
  | cons d rest =>
    have hne : d ≠ c := fun heq => h (heq ▸ List.mem_cons_self)
    exact if_neg hne

theorem mem_of_readNumber {radix maxDigits limit : Nat} {zero : Bool} {text rest : List Char}
    {n : Nat} (h : HttpClient.readNumber radix maxDigits zero limit text = some (n, rest)) {c : Char}
    (hc : c ∈ rest) : c ∈ text := by
  unfold HttpClient.readNumber at h
  dsimp only at h
  split at h
  · cases h
  · split at h
    · cases h
    · split at h
      · rw [← (Prod.mk.inj (Option.some.inj h)).2] at hc
        exact List.mem_of_mem_drop hc
      · cases h

/-- Without a colon there is no second group, and no pair of colons. -/
theorem readIpv6_eq_none {text : List Char} (h : ':' ∉ text) : HttpClient.readIpv6 text = none := by
  have hgroups : ∃ head embedded rest, HttpClient.readGroups 8 true text = (head, embedded, rest) ∧
      head.length ≠ 8 ∧ (embedded = true ∨ ':' ∉ rest) := by
    rw [HttpClient.readGroups]
    cases hv4 : HttpClient.readIpv4 text with
    | some parts =>
      obtain ⟨bits, rest⟩ := parts
      exact ⟨[bits.toNat / 65536, bits.toNat % 65536], true, rest,
        by simp [HttpClient.afterColon, hv4], by simp, .inl rfl⟩
    | none =>
      cases hnumber : HttpClient.readNumber 16 4 true 65536 text with
      | none =>
        exact ⟨[], false, text, by simp [HttpClient.afterColon, hv4, hnumber], by decide, .inr h⟩
      | some parts =>
        obtain ⟨group, rest⟩ := parts
        have hrest : ':' ∉ rest := fun hc => h (mem_of_readNumber hnumber hc)
        have hmore : HttpClient.readGroups 7 false rest = ([], false, rest) := by
          rw [HttpClient.readGroups]
          simp [HttpClient.afterColon, readGivenChar_eq_none hrest]
        exact ⟨[group], false, rest, by simp [HttpClient.afterColon, hv4, hnumber, hmore],
          by simp, .inr hrest⟩
  obtain ⟨head, embedded, rest, hread, hlength, hend⟩ := hgroups
  unfold HttpClient.readIpv6
  rw [hread]
  dsimp only
  rw [if_neg hlength]
  split
  · rfl
  · rename_i hembedded
    have hcolon := hend.resolve_left hembedded
    rw [readGivenChar_eq_none hcolon]
    rfl

theorem colon_of_parseIp {text : String} {bits : BitVec 128}
    (h : parseIp text = some (.v6 bits)) : ':' ∈ text.toList := by
  by_contra hcolon
  unfold HttpClient.parseIp at h
  rw [readIpv6_eq_none hcolon] at h
  split at h
  · split at h
    · cases h
    · cases h
  · cases h

/-- The parts of an authority make it up again. -/
theorem recombine_eq (h : IsAuthority authority host port) : recombine host port = authority := by
  obtain ⟨bracketed, hparts, hhost⟩ := h
  apply String.toList_injective
  rw [recombine, String.toList_ofList, hparts.text]
  cases bracketed with
  | true =>
    obtain ⟨bits, hbits⟩ := hhost
    rw [if_pos (colon_of_parseIp hbits), if_pos rfl]
  | false =>
    obtain ⟨hcolon, -⟩ := hparts.ends
    rw [if_neg hcolon]
    rfl

theorem HostAndPort.host_clean (h : HostAndPort authority bracketed host port) :
    ∀ c ∈ host.toList, isForbidden c = false := by
  intro c hc
  apply h.clean
  rw [h.text]
  cases bracketed with
  | true => simp [hc]
  | false => simp [hc]

/-- A text with no white space and no pair of brackets around it is judged as it stands. -/
theorem isLoopbackHost_iff (hclean : ∀ c ∈ host.toList, isForbidden c = false)
    (hbrackets : ']' ∉ host.toList ∨ host.toList.head? ≠ some '[') :
    isLoopbackHost host = true ↔ IsLoopback host := by
  have hspace : ∀ c ∈ host.toList, Text.isWhitespace c = false := by
    intro c hc
    have hforbidden := hclean c hc
    simp only [isForbidden, Bool.or_eq_false_iff] at hforbidden
    exact hforbidden.1.1.1.1
  have htrim : Text.trim host = host :=
    Text.trim_eq_self (fun c hc => hspace c (List.mem_of_head? hc))
      fun c hc => hspace c (List.mem_of_getLast? hc)
  have hbare : unbracketed host = host := by
    unfold HttpClient.unbracketed
    cases hstrip : (Text.stripPrefix host "[").bind (Text.stripSuffix · "]") with
    | none => rfl
    | some inner =>
      obtain ⟨rest, hrest, hinner⟩ := Option.bind_eq_some_iff.mp hstrip
      have hopen := Text.stripPrefix_eq_some.mp hrest
      have hclose := Text.stripSuffix_eq_some.mp hinner
      rcases hbrackets with hnone | hhead
      · exact absurd (by rw [hopen, hclose]; simp) hnone
      · exact absurd (by rw [hopen]; rfl) hhead
  unfold isLoopbackHost IsLoopback
  dsimp only
  rw [htrim, hbare]
  by_cases hname : eqIgnoreAsciiCase host "localhost" = true
  · simp [hname]
  · simp [hname, Option.any_eq_true_iff_get, Option.eq_some_iff_get_eq]

/-- What the brackets and the host of an authority leave to the loopback test. -/
theorem HostAndPort.isLoopbackHost_iff (h : HostAndPort authority bracketed host port) :
    isLoopbackHost host = true ↔ IsLoopback host := by
  apply Mcp.isLoopbackHost_iff h.host_clean
  have hends := h.ends
  cases bracketed with
  | true => exact .inl hends
  | false => exact .inr hends.2

theorem HostAndPort.isLoopbackHost_undotted (h : HostAndPort authority bracketed host port) :
    isLoopbackHost (undotted host) = true ↔ IsLoopback (undotted host) := by
  have hinit : ∃ dot, host.toList = (undotted host).toList ++ dot := by
    rcases HttpClient.undotted_cases host with heq | happ
    · exact ⟨[], by rw [heq, List.append_nil]⟩
    · refine ⟨['.'], ?_⟩
      conv_lhs => rw [happ]
      exact String.toList_append
  obtain ⟨dot, hdot⟩ := hinit
  apply Mcp.isLoopbackHost_iff
  · intro c hc
    exact h.host_clean c (by rw [hdot]; exact List.mem_append_left _ hc)
  · have hends := h.ends
    cases bracketed with
    | true =>
      refine .inl fun hc => hends ?_
      rw [hdot]
      exact List.mem_append_left _ hc
    | false =>
      refine .inr fun hhead => hends.2 ?_
      rw [hdot, List.head?_append, hhead]
      rfl

theorem splitOnceOn_sound {pattern text before after : List Char}
    (h : splitOnceOn pattern text = some (before, after)) : text = before ++ pattern ++ after := by
  induction text generalizing before with
  | nil => cases h
  | cons c rest ih =>
    rw [splitOnceOn] at h
    split at h
    · rename_i rest' hdrop
      obtain ⟨rfl, rfl⟩ := Prod.mk.inj (Option.some.inj h)
      obtain ⟨p, htext, hp⟩ := List.dropPrefix?_eq_some_iff.mp hdrop
      rw [htext, eq_of_beq hp, List.nil_append]
    · obtain ⟨⟨before', after'⟩, hrest, hparts⟩ := Option.map_eq_some_iff.mp h
      obtain ⟨rfl, rfl⟩ := Prod.mk.inj hparts
      rw [ih hrest]
      rfl

/-- The first place is the one after a text that holds no first character of the pattern. -/
theorem splitOnceOn_append {c : Char} {pattern before after : List Char} (h : c ∉ before) :
    splitOnceOn (c :: pattern) (before ++ (c :: pattern) ++ after) = some (before, after) := by
  induction before with
  | nil =>
    have hdrop : ((c :: pattern) ++ after).dropPrefix? (c :: pattern) = some after :=
      List.dropPrefix?_append_of_beq _ (beq_self_eq_true _)
    rw [List.nil_append]
    show splitOnceOn (c :: pattern) (c :: (pattern ++ after)) = _
    rw [splitOnceOn]
    show (match ((c :: pattern) ++ after).dropPrefix? (c :: pattern) with
      | some after => some ([], after)
      | none => _) = _
    rw [hdrop]
  | cons d before ih =>
    obtain ⟨hd, hbefore⟩ := not_or.mp (List.mem_cons.not.mp h)
    have hdrop : (d :: (before ++ (c :: pattern) ++ after)).dropPrefix? (c :: pattern) = none := by
      have hne : (d == c) = false := beq_false_of_ne (Ne.symm hd)
      rw [List.dropPrefix?, hne]
      rfl
    show splitOnceOn (c :: pattern) (d :: (before ++ (c :: pattern) ++ after)) = _
    rw [splitOnceOn, hdrop]
    dsimp only
    rw [ih hbefore]
    rfl

theorem splitOnceOn_of_isOrigin {origin scheme : String} (h : IsOrigin origin scheme authority) :
    splitOnceOn "://".toList origin.toList = some (scheme.toList, authority.toList) := by
  obtain ⟨htext, hscheme⟩ := h
  have hcolon : ':' ∉ scheme.toList := by
    intro hc
    rcases hscheme with hhttp | hhttps
    · exact absurd (HttpClient.mem_of_eqIgnoreAsciiCase hhttp (by decide) hc) (by decide)
    · exact absurd (HttpClient.mem_of_eqIgnoreAsciiCase hhttps (by decide) hc) (by decide)
  rw [htext]
  exact splitOnceOn_append hcolon

/-- The loopback gate on an origin asks no more of the authority than its split does. -/
theorem isLoopbackOrigin_iff {origin : String} : isLoopbackOrigin origin = true ↔
    ∃ scheme authority bracketed host port, IsOrigin origin scheme authority ∧
      HostAndPort authority bracketed host port ∧ IsLoopback host := by
  unfold isLoopbackOrigin
  constructor
  · intro h
    split at h
    · cases h
    · rename_i scheme authority hsplit
      split at h
      · cases h
      · rename_i hscheme
        obtain ⟨⟨host, port⟩, hparts, hloop⟩ := (Option.any_eq_true _ _).mp h
        obtain ⟨bracketed, hhost⟩ := splitAuthority_eq_some_iff.mp hparts
        refine ⟨.ofList scheme, .ofList authority, bracketed, host, port, ⟨?_, ?_⟩, hhost,
          hhost.isLoopbackHost_iff.mp hloop⟩
        · have htext := splitOnceOn_sound hsplit
          rwa [← String.toList_ofList (l := scheme), ← String.toList_ofList (l := authority)] at htext
        · rwa [Bool.not_eq_true, Bool.not_eq_false', Bool.or_eq_true] at hscheme
  · intro h
    obtain ⟨scheme, authority, bracketed, host, port, horigin, hhost, hloop⟩ := h
    have hscheme : (!(eqIgnoreAsciiCase scheme "http" || eqIgnoreAsciiCase scheme "https")) =
        false := by
      rw [Bool.not_eq_false', Bool.or_eq_true]
      exact horigin.web
    have hsplit := splitAuthority_eq_some_iff.mpr ⟨bracketed, hhost⟩
    rw [splitOnceOn_of_isOrigin horigin]
    simp only [String.ofList_toList, hscheme, hsplit, Bool.false_eq_true, if_false, Option.any_some]
    exact hhost.isLoopbackHost_iff.mpr hloop

/-- Exactly one text is read as an origin's authority, and in one way. -/
theorem IsOrigin.unique {origin scheme scheme' authority' : String}
    (h : IsOrigin origin scheme authority) (h' : IsOrigin origin scheme' authority') :
    authority = authority' := by
  have hsplit := splitOnceOn_of_isOrigin h
  rw [splitOnceOn_of_isOrigin h'] at hsplit
  exact String.toList_injective (Prod.mk.inj (Option.some.inj hsplit)).2.symm

theorem Misshapen.hostAndPort (h : Misshapen authority host port) :
    ∃ bracketed, HostAndPort authority bracketed host port := by
  obtain ⟨bracketed, hparts, -⟩ := h
  exact ⟨bracketed, hparts⟩

theorem Misshapen.not_isAuthority {host' : String} {port' : Option String}
    (h : Misshapen authority host port) : ¬ IsAuthority authority host' port' := by
  obtain ⟨bracketed, hparts, hbad⟩ := h
  rintro ⟨bracketed', hparts', hhost⟩
  obtain ⟨rfl, rfl, rfl⟩ := hparts.unique hparts'
  exact hbad hhost

theorem HostAndPort.isAuthority (h : HostAndPort authority bracketed host port)
    (hshape : ¬ Misshapen authority host port) : IsAuthority authority host port :=
  ⟨bracketed, h, Classical.byContradiction fun hbad => hshape ⟨bracketed, h, hbad⟩⟩

theorem isOriginAllowed_exact_iff {origin : String} :
    (isOriginAllowed (some origin) [] = true ↔ IsLoopbackOrigin origin) ↔
      ∀ scheme authority host port, IsOrigin origin scheme authority →
        Misshapen authority host port → ¬ IsLoopback host := by
  have haccepts : isOriginAllowed (some origin) [] = isLoopbackOrigin origin := rfl
  rw [haccepts, isLoopbackOrigin_iff]
  constructor
  · intro hexact scheme authority host port horigin hbad hloop
    obtain ⟨bracketed, hparts⟩ := hbad.hostAndPort
    obtain ⟨scheme', authority', host', port', horigin', hauthority, -⟩ :=
      hexact.mp ⟨scheme, authority, bracketed, host, port, horigin, hparts, hloop⟩
    rw [← horigin.unique horigin'] at hauthority
    exact hbad.not_isAuthority hauthority
  · intro hshape
    constructor
    · rintro ⟨scheme, authority, bracketed, host, port, horigin, hparts, hloop⟩
      have hauthority := hparts.isAuthority fun hbad =>
        hshape scheme authority host port horigin hbad hloop
      exact ⟨scheme, authority, host, port, horigin, hauthority, hloop⟩
    · rintro ⟨scheme, authority, host, port, horigin, ⟨bracketed, hparts, -⟩, hloop⟩
      exact ⟨scheme, authority, bracketed, host, port, horigin, hparts, hloop⟩

theorem splitAuthority_exact_iff :
    ((∀ host port, splitAuthority authority = some (host, port) ↔ IsAuthority authority host port) ∧
      ∀ host port, splitAuthority authority = some (host, port) →
        recombine host port = authority) ↔
      ∀ host port, ¬ Misshapen authority host port := by
  constructor
  · rintro ⟨hexact, -⟩ host port hbad
    obtain ⟨bracketed, hparts⟩ := hbad.hostAndPort
    have hauthority := (hexact host port).mp (splitAuthority_eq_some_iff.mpr ⟨bracketed, hparts⟩)
    exact hbad.not_isAuthority hauthority
  · intro hshape
    have hexact : ∀ host port, splitAuthority authority = some (host, port) ↔
        IsAuthority authority host port := by
      intro host port
      rw [splitAuthority_eq_some_iff]
      constructor
      · rintro ⟨bracketed, hparts⟩
        exact hparts.isAuthority (hshape host port)
      · rintro ⟨bracketed, hparts, -⟩
        exact ⟨bracketed, hparts⟩
    exact ⟨hexact, fun host port h => recombine_eq ((hexact host port).mp h)⟩

theorem any_allowed_iff {allowed : List String} :
    (allowed.any fun entry => (splitAuthority (Text.trim entry)).any fun allowedParts =>
      eqIgnoreAsciiCase allowedParts.1 host &&
        allowedParts.2.all fun allowedPort => some allowedPort == port) = true ↔
      Configured allowed host port := by
  have hport : ∀ allowedPort : Option String,
      (allowedPort.all fun allowedPort => some allowedPort == port) = true ↔
        allowedPort = none ∨ allowedPort = port := by
    intro allowedPort
    cases allowedPort with
    | none => simp
    | some p => simp
  rw [List.any_eq_true]
  constructor
  · rintro ⟨entry, hmem, hany⟩
    obtain ⟨⟨allowedHost, allowedPort⟩, hsplit, hmatch⟩ := (Option.any_eq_true _ _).mp hany
    obtain ⟨bracketed, hparts⟩ := splitAuthority_eq_some_iff.mp hsplit
    obtain ⟨hhost, hp⟩ := Bool.and_eq_true_iff.mp hmatch
    exact ⟨entry, hmem, bracketed, allowedHost, allowedPort, hparts, hhost,
      (hport allowedPort).mp hp⟩
  · rintro ⟨entry, hmem, bracketed, allowedHost, allowedPort, hparts, hhost, hp⟩
    refine ⟨entry, hmem, ?_⟩
    rw [splitAuthority_eq_some_iff.mpr ⟨bracketed, hparts⟩]
    exact Bool.and_eq_true_iff.mpr ⟨hhost, (hport allowedPort).mpr hp⟩

theorem isHostAllowed_iff {allowed : List String} : isHostAllowed (some authority) allowed = true ↔
    ∃ bracketed host port, HostAndPort (Text.trim authority) bracketed host port ∧
      (IsLoopback (undotted host) ∨ Configured allowed host port) := by
  unfold isHostAllowed
  rw [Option.map_some]
  dsimp only
  constructor
  · intro h
    split at h
    · cases h
    · rename_i host port hsplit
      obtain ⟨bracketed, hparts⟩ := splitAuthority_eq_some_iff.mp hsplit
      refine ⟨bracketed, host, port, hparts, ?_⟩
      split at h
      · rename_i hloop
        exact .inl (hparts.isLoopbackHost_undotted.mp hloop)
      · exact .inr (any_allowed_iff.mp h)
  · rintro ⟨bracketed, host, port, hparts, hpass⟩
    rw [splitAuthority_eq_some_iff.mpr ⟨bracketed, hparts⟩]
    dsimp only
    split
    · rfl
    · rename_i hloop
      rcases hpass with hbare | hconfigured
      · exact absurd (hparts.isLoopbackHost_undotted.mpr hbare) hloop
      · exact any_allowed_iff.mpr hconfigured

theorem isHostAllowed_exact_iff {allowed : List String} :
    (isHostAllowed (some authority) allowed = true ↔
      ∃ host port, IsAuthority (Text.trim authority) host port ∧
        (IsLoopback (undotted host) ∨ Configured allowed host port)) ↔
      ∀ host port, Misshapen (Text.trim authority) host port →
        ¬ (IsLoopback (undotted host) ∨ Configured allowed host port) := by
  rw [isHostAllowed_iff]
  constructor
  · intro hexact host port hbad hpass
    obtain ⟨bracketed, hparts⟩ := hbad.hostAndPort
    obtain ⟨host', port', hauthority, -⟩ := hexact.mp ⟨bracketed, host, port, hparts, hpass⟩
    exact hbad.not_isAuthority hauthority
  · intro hshape
    constructor
    · rintro ⟨bracketed, host, port, hparts, hpass⟩
      exact ⟨host, port, hparts.isAuthority fun hbad => hshape host port hbad hpass, hpass⟩
    · rintro ⟨host, port, ⟨bracketed, hparts, -⟩, hpass⟩
      exact ⟨bracketed, host, port, hparts, hpass⟩

/-- What stands in brackets has to be an address. -/
theorem HostAndPort.misshapen (h : HostAndPort authority true host port)
    (hhost : parseIp host = none) : Misshapen authority host port := by
  refine ⟨true, h, ?_⟩
  rintro ⟨bits, hbits⟩
  cases hhost.symm.trans hbits

/-- The three gates accept exactly their grammar where no text has a host and a port whose host is
empty, has a stray bracket, or stands in brackets and is no IPv6 literal. -/
theorem gates_exact_iff (origin authority dialed : String) (allowed : List String) :
    ((isOriginAllowed none [] = true ∧
        (isOriginAllowed (some origin) [] = true ↔ IsLoopbackOrigin origin)) ↔
      ∀ scheme authority host port, IsOrigin origin scheme authority →
        Misshapen authority host port → ¬ IsLoopback host) ∧
    (((∀ host port, splitAuthority authority = some (host, port) ↔
          IsAuthority authority host port) ∧
        ∀ host port, splitAuthority authority = some (host, port) →
          recombine host port = authority) ↔
      ∀ host port, ¬ Misshapen authority host port) ∧
    ((isHostAllowed none allowed = false ∧
        (isHostAllowed (some dialed) allowed = true ↔
          ∃ host port, IsAuthority (Text.trim dialed) host port ∧
            (IsLoopback (undotted host) ∨ Configured allowed host port))) ↔
      ∀ host port, Misshapen (Text.trim dialed) host port →
        ¬ (IsLoopback (undotted host) ∨ Configured allowed host port)) := by
  refine ⟨?_, splitAuthority_exact_iff, ?_⟩
  · rw [← isOriginAllowed_exact_iff]
    exact and_iff_right rfl
  · rw [← isHostAllowed_exact_iff]
    exact and_iff_right rfl

/-- Each gate accepts a text outside the grammar: a name in brackets, and no host at all. -/
theorem gates_accept_misshapen :
    (isOriginAllowed (some "http://[localhost]") [] = true ∧
      ¬ IsLoopbackOrigin "http://[localhost]") ∧
    (splitAuthority ":80" = some ("", some "80") ∧ ¬ IsAuthority ":80" "" (some "80")) ∧
    isHostAllowed (some "[example.com]") ["example.com"] = true ∧
      ¬ ∃ host port, IsAuthority (Text.trim "[example.com]") host port ∧
        (IsLoopback (undotted host) ∨ Configured ["example.com"] host port) := by
  refine ⟨⟨by decide, ?_⟩, ⟨by decide, ?_⟩, by decide, ?_⟩
  · rintro ⟨scheme, authority, host, port, horigin, hauthority, -⟩
    have hread : IsOrigin "http://[localhost]" "http" "[localhost]" :=
      ⟨by decide, .inl (by decide)⟩
    have hparts : HostAndPort "[localhost]" true "localhost" none :=
      ⟨⟨by decide, by decide⟩, by decide, by decide, fun p h => nomatch h⟩
    have hbad := hparts.misshapen (by decide)
    rw [← hread.unique horigin] at hauthority
    exact hbad.not_isAuthority hauthority
  · rintro ⟨bracketed, hparts, hhost⟩
    cases bracketed with
    | true => exact absurd (hparts.head_iff.mpr rfl) (by decide)
    | false => exact hhost.1 rfl
  · rintro ⟨host, port, hauthority, -⟩
    have hparts : HostAndPort (Text.trim "[example.com]") true "example.com" none :=
      ⟨⟨by decide, by decide⟩, by decide, by decide, fun p h => nomatch h⟩
    have hbad := hparts.misshapen (by decide)
    exact hbad.not_isAuthority hauthority

end Grammar

end Tronc.Mcp
