import Tronc.HttpClient.Prefixes

namespace Tronc.HttpClient

section IpText

/-- `char::to_digit`. -/
def toDigit (radix : Nat) (c : Char) : Option Nat :=
  let value := if c.isDigit then c.toNat - '0'.toNat
    else if 'a' ≤ c ∧ c ≤ 'z' then c.toNat - 'a'.toNat + 10
    else if 'A' ≤ c ∧ c ≤ 'Z' then c.toNat - 'A'.toNat + 10
    else radix
  if value < radix then some value else none

/-- `Parser::read_number` of `std::net`, of a number below the limit. -/
def readNumber (radix maxDigits : Nat) (allowZeroPrefix : Bool) (limit : Nat) (text : List Char) :
    Option (Nat × List Char) :=
  let digits := text.takeWhile fun c => (toDigit radix c).isSome
  let value := digits.foldl (fun value c => value * radix + (toDigit radix c).getD 0) 0
  if digits = [] ∨ maxDigits < digits.length then none
  else if !allowZeroPrefix ∧ digits.head? = some '0' ∧ 1 < digits.length then none
  else if value < limit then some (value, text.drop digits.length)
  else none

def readGivenChar (c : Char) : List Char → Option (List Char)
  | d :: rest => if d = c then some rest else none
  | [] => none

def readIpv4 (text : List Char) : Option (BitVec 32 × List Char) := do
  let (a, text) ← readNumber 10 3 false 256 text
  let text ← readGivenChar '.' text
  let (b, text) ← readNumber 10 3 false 256 text
  let text ← readGivenChar '.' text
  let (c, text) ← readNumber 10 3 false 256 text
  let text ← readGivenChar '.' text
  let (d, text) ← readNumber 10 3 false 256 text
  pure (v4Addr a b c d, text)

/-- `read_separator`: what stands after a colon, or at the start. -/
def afterColon (first : Bool) (text : List Char) : Option (List Char) :=
  if first then some text else readGivenChar ':' text

/-- `read_groups`: the groups, whether an embedded IPv4 address ended them, and what is left. -/
def readGroups : Nat → Bool → List Char → List Nat × Bool × List Char
  | 0, _, text => ([], false, text)
  | left + 1, first, text =>
    -- an embedded address takes two groups
    match if left = 0 then none else (afterColon first text).bind readIpv4 with
    | some (bits, rest) => ([bits.toNat / 65536, bits.toNat % 65536], true, rest)
    | none =>
      match (afterColon first text).bind (readNumber 16 4 true 65536) with
      | none => ([], false, text)
      | some (group, rest) =>
        let (groups, embedded, rest) := readGroups left false rest
        (group :: groups, embedded, rest)

def ofGroups (groups : List Nat) : BitVec 128 :=
  .ofNat 128 (groups.foldl (fun value group => value * 65536 + group) 0)

def readIpv6 (text : List Char) : Option (BitVec 128 × List Char) :=
  let (head, embedded, rest) := readGroups 8 true text
  if head.length = 8 then some (ofGroups head, rest)
  else if embedded then none
  else do
    let rest ← readGivenChar ':' rest
    let rest ← readGivenChar ':' rest
    let (tail, _, rest) := readGroups (8 - (head.length + 1)) true rest
    pure (ofGroups (head ++ List.replicate (8 - head.length - tail.length) 0 ++ tail), rest)

/-- `str::parse::<IpAddr>`. -/
def parseIp (text : String) : Option IpAddr :=
  match readIpv4 text.toList with
  | some (bits, rest) => if rest = [] then some (.v4 bits) else none
  | none =>
    match readIpv6 text.toList with
    | some (bits, rest) => if rest = [] then some (.v6 bits) else none
    | none => none

end IpText

/-- Why an entry of an allowlist is refused. -/
inductive InvalidReason where
  /-- The host holds a character no URL host is compared with. -/
  | host
  /-- A path prefix with nothing before it. -/
  | missingHost
  | pathPrefix
  /-- The same host is also listed bare, which admits every path on it. -/
  | shadowed
  deriving DecidableEq

structure InvalidAllowlistEntry where
  /-- The entry as the operator wrote it, trimmed. -/
  entry : String
  reason : InvalidReason
  deriving DecidableEq

/-- Whether a host that is no address holds a character no URL host is compared with. -/
def isUnmatchableDomain (host : String) : Bool :=
  host.toList.any fun c => (c == ':' || c == '@' || c == '[' || c == ']' || c == '%' || c == '\\' ||
    c == '?' || c == '#') || Text.isWhitespace c || isControl c

/-- `str::split_once`. -/
def splitOnce (c : Char) (text : String) : Option (String × String) :=
  match text.toList.dropWhile (· != c) with
  | [] => none
  | _ :: rest => some (.ofList (text.toList.takeWhile (· != c)), .ofList rest)

theorem splitOnce_eq_some_iff {c : Char} {text before after : String} :
    splitOnce c text = some (before, after) ↔
      text.toList = before.toList ++ c :: after.toList ∧ c ∉ before.toList := by
  unfold splitOnce
  constructor
  · intro h
    split at h
    · cases h
    · rename_i d rest hdrop
      obtain ⟨rfl, rfl⟩ := Prod.mk.inj (Option.some.inj h)
      have hsplit := List.takeWhile_append_dropWhile (p := (· != c)) (l := text.toList)
      have hnot := List.head?_dropWhile_not (· != c) text.toList
      rw [hdrop] at hsplit hnot
      obtain rfl : d = c := by simpa using hnot
      rw [String.toList_ofList, String.toList_ofList]
      refine ⟨hsplit.symm, fun hmem => ?_⟩
      have htake := List.mem_takeWhile_imp hmem
      simp at htake
  · rintro ⟨htext, hnot⟩
    have hpos : ∀ d ∈ before.toList, (d != c) = true := by
      intro d hd
      exact bne_iff_ne.mpr fun heq => hnot (heq ▸ hd)
    rw [htext, List.dropWhile_append_of_pos hpos, List.takeWhile_append_of_pos hpos]
    simp

theorem splitOnce_eq_none_iff {c : Char} {text : String} :
    splitOnce c text = none ↔ c ∉ text.toList := by
  unfold splitOnce
  constructor
  · intro h hmem
    split at h
    · rename_i hdrop
      have hall := List.dropWhile_eq_nil_iff.mp hdrop c hmem
      simp at hall
    · cases h
  · intro h
    have hdrop : text.toList.dropWhile (· != c) = [] :=
      List.dropWhile_eq_nil_iff.mpr fun d hd => bne_iff_ne.mpr fun heq => h (heq ▸ hd)
    rw [hdrop]

/-- Without the brackets of an IPv6 literal. -/
def unbracketed (host : String) : String :=
  ((Text.stripPrefix host "[").bind (Text.stripSuffix · "]")).getD host

/-- The host of an entry, and the path after it. -/
def hostAndPath (entry : String) : String × Option String :=
  let (host, path) := match splitOnce '/' entry with
    | none => (entry, none)
    | some (host, path) => (host, some path)
  (undotted (unbracketed host), path)

/-- The host that the text is compared as: an address, or a name in lower case. -/
def AllowedHost.parse (host : String) : Option AllowedHost :=
  match parseIp host with
  | some address => some (.ip address)
  | none => if isUnmatchableDomain host then none else some (.domain (Text.asciiLower host))

/-- One entry read; nothing when it is empty. -/
def parseEntry (entry : String) : Except InvalidAllowlistEntry (Option AllowedEntry) :=
  let entry := Text.trim entry
  let (host, path) := hostAndPath entry
  if host = "" then
    match path with
    | none => .ok none
    | some _ => .error ⟨entry, .missingHost⟩
  else
    match AllowedHost.parse host with
    | none => .error ⟨entry, .host⟩
    | some host =>
      match path with
      | none => .ok (some ⟨host, none⟩)
      | some path =>
        match PathPrefix.parse path with
        | .error () => .error ⟨entry, .pathPrefix⟩
        | .ok path => .ok (some ⟨host, path⟩)

namespace HostAllowlist

/-- The entries that can be read. -/
def new (entries : List String) : HostAllowlist where
  entries := entries.filterMap fun entry =>
    match parseEntry entry with
    | .ok entry => entry
    | .error _ => none

/-- The loop of `try_new`: each entry with its text, up to the first that cannot be read. -/
def readEntries : List String → Except InvalidAllowlistEntry (List (String × AllowedEntry))
  | [] => pure []
  | text :: rest => do
    let entry ← parseEntry text
    let parsed ← readEntries rest
    pure (entry.toList.map (fun entry => (Text.trim text, entry)) ++ parsed)

def tryNew (entries : List String) : Except InvalidAllowlistEntry HostAllowlist :=
  match readEntries entries with
  | .error e => .error e
  | .ok parsed =>
    let shadowed := parsed.find? fun (_, confined) => confined.path.isSome &&
      parsed.any fun (_, bare) => bare.path.isNone && bare.host == confined.host
    match shadowed with
    | some (text, _) => .error ⟨text, .shadowed⟩
    | none => .ok ⟨parsed.map Prod.snd⟩

end HostAllowlist

end Tronc.HttpClient
