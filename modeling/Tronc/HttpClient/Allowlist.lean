import Tronc.HttpClient.Entries

namespace Tronc.HttpClient

/-- A character that the domain of a URL may have: visible ASCII, in lower case, and none of the
forbidden domain code points. -/
def isDomainChar (c : Char) : Bool :=
  decide (0x20 < c.toNat ∧ c.toNat < 0x7F) && Text.asciiLowerChar c == c &&
    !"#/:<>?@[\\]^|%".toList.contains c

/-- A label that a number of an IPv4 address may be spelled by. -/
def isNumberLabel (label : String) : Bool :=
  label != "" && label.toList.all Char.isDigit ||
    (Text.stripPrefix label "0x").any fun hex => hex.toList.all fun c => (toDigit 16 c).isSome

/-- Whether a domain ends in a number, and so is read as an IPv4 address or refused. -/
def endsInNumber (domain : String) : Bool :=
  let labels := split '.' domain
  let labels := if labels.getLast? = some "" then labels.dropLast else labels
  labels.getLast?.any isNumberLabel

def hasPunycode (domain : String) : Bool :=
  (split '.' domain).any fun label => (Text.stripPrefix label "xn--").isSome

/-- A domain as the parser of URLs gives it: `idna` tells whether domain to ASCII leaves a name that
has a label in Punycode as it is. -/
def isCanonicalDomain (idna : String → Bool) (domain : String) : Bool :=
  domain != "" && domain.toList.all isDomainChar && !endsInNumber domain &&
    (!hasPunycode domain || idna domain)

/-- A name that is canonical, or is so with a dot after it. -/
def isNameable (idna : String → Bool) (name : String) : Bool :=
  isCanonicalDomain idna name && undotted name == name || isCanonicalDomain idna (name ++ ".")

/-- The host of an entry, without its brackets and a trailing dot. -/
def entryHost (text : String) : String := (hostAndPath (Text.trim text)).1

/-- The host is an address or the name of a URL. -/
def HostOk (idna : String → Bool) (text : String) : Prop :=
  entryHost text ≠ "" ∧
    ((parseIp (entryHost text)).isSome = true ∨
      parseIp (entryHost text) = none ∧ isNameable idna (Text.asciiLower (entryHost text)) = true)

/-- A host that an entry may be meant for. -/
def Named (entries : List String) (host : Host) : Prop :=
  ∃ text ∈ entries, (∃ ip, parseIp (entryHost text) = some ip ∧ host.literal = some ip) ∨
    parseIp (entryHost text) = none ∧ ∃ domain, host = .domain domain ∧
      undotted domain = Text.asciiLower (entryHost text)

/-- What is relied on of the crates: the domains of URLs are canonical; any canonical host, of those
that are named, may stand before any path. -/
structure Canonicalises (crates : UrlCrates) (idna : String → Bool) (named : Host → Prop) :
    Prop where
  decodes : Decodes crates
  domain : ∀ raw url domain, crates.parse raw = some url →
    (url.scheme = "https" ∨ url.scheme = "http") → url.host = some (.domain domain) →
    isCanonicalDomain idna domain = true
  url : ∀ host, named host → (∀ domain, host = .domain domain →
      isCanonicalDomain idna domain = true) → ∀ names : List String,
      (∀ name ∈ names, IsOrdinary name) →
    ∃ raw encoded, crates.parse raw =
      some ⟨"https", "", none, some host, none, pathOf (names.map (encodeSegment encoded))⟩

/-- Whether an entry, on its own, admits a URL. -/
def AdmitsSome (crates : UrlCrates) (text : String) : Prop :=
  ∃ raw url, crates.parse raw = some url ∧ ∀ refuses,
    FetchPolicy.check crates (.allowlist (.new [text])) url refuses = .ok ()

/-- What an allowlist promises. -/
structure HostAllowlist.Means (crates : UrlCrates) (entries : List String) : Prop where
  /-- The lenient constructor builds what the strict one accepts. -/
  lenient : ∀ hosts, tryNew entries = .ok hosts → new entries = hosts
  /-- No entry is accepted that can never match. -/
  matchable : ∀ hosts, tryNew entries = .ok hosts → ∀ text ∈ entries, Text.trim text ≠ "" →
    AdmitsSome crates text
  /-- A host under prefixes only is confined to them. -/
  confined : ∀ host url, (∀ entry ∈ (new entries).entries, entry.host.isMatch host = true →
      entry.path ≠ none) → (new entries).admits crates host url = .ok () →
    ∃ entry ∈ (new entries).entries, entry.host.isMatch host = true ∧
      ∃ pre, entry.path = some pre ∧ pre.Confines url.path
  order : ∀ others, others.Perm entries → ∀ host url,
    (new others).admits crates host url = (new entries).admits crates host url
  grows : ∀ entry others, others.Perm (entry :: entries) → ∀ host url,
    (new entries).admits crates host url = .ok () → (new others).admits crates host url = .ok ()

namespace HostAllowlist

variable {crates : UrlCrates} {idna : String → Bool} {entries : List String}

/-- What is accepted is read entry by entry. -/
theorem readEntries_ok {parsed : List (String × AllowedEntry)}
    (h : readEntries entries = .ok parsed) : (new entries).entries = parsed.map Prod.snd ∧
      ∀ text ∈ entries, ∃ read, parseEntry text = .ok read := by
  induction entries generalizing parsed with
  | nil =>
    rw [readEntries] at h
    obtain rfl := Except.ok.inj h
    exact ⟨rfl, fun _ h => absurd h List.not_mem_nil⟩
  | cons text rest ih =>
    rw [readEntries] at h
    cases hread : parseEntry text with
    | error e =>
      rw [hread] at h
      cases h
    | ok read =>
      cases hrest : readEntries rest with
      | error e =>
        rw [hread, hrest] at h
        cases h
      | ok parsed' =>
        rw [hread, hrest] at h
        obtain rfl := Except.ok.inj h
        obtain ⟨hnew, hall⟩ := ih hrest
        refine ⟨?_, List.forall_mem_cons.mpr ⟨⟨read, hread⟩, hall⟩⟩
        rw [List.map_append, ← hnew]
        cases read with
        | none => simp [new, hread]
        | some entry => simp [new, hread]

theorem tryNew_ok {hosts : HostAllowlist} (h : tryNew entries = .ok hosts) :
    new entries = hosts ∧ ∀ text ∈ entries, ∃ read, parseEntry text = .ok read := by
  unfold tryNew at h
  cases hparsed : readEntries entries with
  | error e =>
    rw [hparsed] at h
    cases h
  | ok parsed =>
    rw [hparsed] at h
    dsimp only at h
    split at h
    · cases h
    · obtain ⟨hnew, hall⟩ := readEntries_ok hparsed
      refine ⟨?_, hall⟩
      rw [← Except.ok.inj h, ← hnew]

theorem scan_refused {url : Url} {entries : List AllowedEntry} {listed : Bool}
    (h : HostAllowlist.scan crates url entries listed ≠ .ok ()) :
    HostAllowlist.scan crates url entries listed =
      .error (if listed = true ∨ entries ≠ [] then .pathNotAllowed else .hostNotAllowed) := by
  induction entries generalizing listed with
  | nil => simp [scan]
  | cons entry rest ih =>
    unfold scan at h ⊢
    split
    · rename_i hpath
      rw [hpath] at h
      exact absurd rfl h
    · rename_i pre hpath
      rw [hpath] at h
      dsimp only at h
      split
      · rename_i hadmits
        rw [if_pos hadmits] at h
        exact absurd rfl h
      · rename_i hadmits
        rw [if_neg hadmits] at h
        rw [ih h, if_pos (.inl rfl), if_pos (.inr (List.cons_ne_nil _ _))]

/-- The order of the entries is of no account. -/
theorem admits_perm {hosts others : HostAllowlist} (hperm : others.entries.Perm hosts.entries)
    (host : Host) (url : Url) :
    others.admits crates host url = hosts.admits crates host url := by
  have hiff : others.admits crates host url = .ok () ↔ hosts.admits crates host url = .ok () := by
    rw [admits_iff, admits_iff]
    simp only [hperm.mem_iff]
  by_cases hok : hosts.admits crates host url = .ok ()
  · rw [hok, hiff.mpr hok]
  · have hfilter := hperm.filter fun entry => entry.host.isMatch host
    have hother := scan_refused (fun h => hok (hiff.mp h))
    have hthis := scan_refused hok
    have hnil : (others.entries.filter fun entry => entry.host.isMatch host) = [] ↔
        (hosts.entries.filter fun entry => entry.host.isMatch host) = [] :=
      ⟨fun h => List.Perm.nil_eq (h ▸ hfilter) ▸ rfl, fun h => List.Perm.eq_nil (h ▸ hfilter)⟩
    unfold admits
    rw [hother, hthis]
    simp only [ne_eq, hnil]

end HostAllowlist

variable {crates : UrlCrates} {idna : String → Bool} {text : String} {entry : AllowedEntry}
  {entries : List String}

theorem parse_host {host : String} {allowed : AllowedHost}
    (h : AllowedHost.parse host = some allowed) :
    (∃ ip, parseIp host = some ip ∧ allowed = .ip ip) ∨
      parseIp host = none ∧ allowed = .domain (Text.asciiLower host) := by
  unfold AllowedHost.parse at h
  cases hip : parseIp host with
  | some ip =>
    rw [hip] at h
    exact .inl ⟨ip, rfl, (Option.some.inj h).symm⟩
  | none =>
    rw [hip] at h
    dsimp only at h
    split at h
    · cases h
    · exact .inr ⟨rfl, (Option.some.inj h).symm⟩

/-- What an entry is read as. -/
theorem parseEntry_eq_some (h : parseEntry text = .ok (some entry)) : entryHost text ≠ "" ∧
    AllowedHost.parse (entryHost text) = some entry.host ∧
      ∀ pre, entry.path = some pre → ∃ path, PathPrefix.parse path = .ok (some pre) := by
  unfold parseEntry at h
  unfold entryHost
  dsimp only at h
  generalize hostAndPath (Text.trim text) = parts at h ⊢
  split at h
  · split at h
    · cases Except.ok.inj h
    · cases h
  · rename_i hne
    refine ⟨hne, ?_⟩
    split at h
    · cases h
    · rename_i allowed hallowed
      split at h
      · obtain rfl := Option.some.inj (Except.ok.inj h)
        exact ⟨hallowed, fun _ hpath => nomatch hpath⟩
      · rename_i path _
        split at h
        · cases h
        · rename_i read hread
          obtain rfl := Option.some.inj (Except.ok.inj h)
          exact ⟨hallowed, fun pre hpre => ⟨path, by rw [hread, ← hpre]⟩⟩

/-- An entry with a host is read, or refused. -/
theorem parseEntry_isSome {read : Option AllowedEntry} (h : parseEntry text = .ok read)
    (hne : entryHost text ≠ "") : read.isSome = true := by
  unfold parseEntry at h
  unfold entryHost at hne
  dsimp only at h
  rw [if_neg hne] at h
  split at h
  · cases h
  · split at h
    · rw [← Except.ok.inj h]
      rfl
    · split at h
      · cases h
      · rw [← Except.ok.inj h]
        rfl

/-- The allowlist of one entry. -/
theorem mem_new_singleton : entry ∈ (HostAllowlist.new [text]).entries ↔
    parseEntry text = .ok (some entry) := by
  unfold HostAllowlist.new
  rw [List.mem_filterMap]
  constructor
  · rintro ⟨other, hother, hread⟩
    obtain rfl := List.mem_singleton.mp hother
    split at hread
    · rename_i hparse
      rw [hparse, hread]
    · cases hread
  · intro h
    exact ⟨text, List.mem_singleton_self text, by rw [h]⟩

/-- A canonical domain is in lower case. -/
theorem asciiLower_canonical {domain : String} (h : isCanonicalDomain idna domain = true) :
    Text.asciiLower (undotted domain) = undotted domain := by
  have hchars : ∀ c ∈ domain.toList, Text.asciiLowerChar c = c := by
    intro c hc
    simp only [isCanonicalDomain, isDomainChar, Bool.and_eq_true, List.all_eq_true,
      beq_iff_eq] at h
    exact (h.1.1.2 c hc).1.2
  have hmem : ∀ c ∈ (undotted domain).toList, c ∈ domain.toList := by
    intro c hc
    rcases undotted_cases domain with heq | heq
    · rw [← heq]
      exact hc
    · rw [heq, String.toList_append]
      exact List.mem_append_left _ hc
  refine String.toList_injective ?_
  unfold Text.asciiLower
  rw [String.toList_ofList]
  exact (List.map_congr_left (g := fun c => c) fun c hc => hchars c (hmem c hc)).trans
    (List.map_id' _)

/-- A name in lower case is the name of a URL, with or without a dot. -/
theorem isNameable_iff {name : String} : isNameable idna name = true ↔
    ∃ domain, isCanonicalDomain idna domain = true ∧ undotted domain = name := by
  unfold isNameable
  rw [Bool.or_eq_true, Bool.and_eq_true, beq_iff_eq]
  constructor
  · rintro (⟨hcanonical, hsame⟩ | hcanonical)
    · exact ⟨name, hcanonical, hsame⟩
    · exact ⟨name ++ ".", hcanonical, undotted_append name⟩
  · rintro ⟨domain, hcanonical, rfl⟩
    rcases undotted_cases domain with heq | heq
    · rw [heq]
      exact .inl ⟨hcanonical, heq⟩
    · rw [← heq]
      exact .inr hcanonical

/-- An entry that can match names the host of a URL. -/
theorem hostOk_of_admits (hcrates : Canonicalises crates idna (Named entries))
    (h : AdmitsSome crates text) : HostOk idna text := by
  obtain ⟨raw, url, hraw, hcheck⟩ := h
  obtain ⟨host, permits⟩ := FetchPolicy.check_eq_ok.mp (hcheck fun _ => false)
  obtain ⟨entry, hentry, hmatch, -⟩ := permits.listed _ rfl
  obtain ⟨hne, hhost, -⟩ := parseEntry_eq_some (mem_new_singleton.mp hentry)
  refine ⟨hne, ?_⟩
  rcases parse_host hhost with ⟨ip, hip, -⟩ | ⟨hip, hdomain⟩
  · rw [hip]
    exact .inl rfl
  · refine .inr ⟨hip, ?_⟩
    rw [hdomain] at hmatch
    cases host with
    | ipv4 bits | ipv6 bits => cases hmatch
    | domain domain =>
      have hscheme := permits.scheme.imp_right And.left
      have hcanonical := hcrates.domain raw url domain hraw hscheme permits.hasHost
      have hsame : Text.asciiLower (Text.asciiLower (entryHost text)) =
          Text.asciiLower (undotted domain) := eq_of_beq hmatch
      rw [asciiLower_canonical hcanonical, Text.asciiLower_idem] at hsame
      exact isNameable_iff.mpr ⟨domain, hcanonical, hsame.symm⟩

/-- The host of an entry is that of a URL. -/
theorem host_of_hostOk (h : HostOk idna text) (htext : text ∈ entries)
    (hhost : AllowedHost.parse (entryHost text) = some entry.host) : ∃ host,
      Named entries host ∧ entry.host.isMatch host = true ∧
        ∀ domain, host = .domain domain → isCanonicalDomain idna domain = true := by
  rcases parse_host hhost with ⟨ip, hip, hentry⟩ | ⟨hip, hentry⟩
  · have named (host : Host) (hliteral : host.literal = some ip) : Named entries host :=
      ⟨text, htext, .inl ⟨ip, hip, hliteral⟩⟩
    rw [hentry]
    cases ip with
    | v4 bits => exact ⟨.ipv4 bits, named _ rfl, beq_self_eq_true _, fun _ h => nomatch h⟩
    | v6 bits => exact ⟨.ipv6 bits, named _ rfl, beq_self_eq_true _, fun _ h => nomatch h⟩
  · obtain ⟨-, hsome | ⟨-, hnameable⟩⟩ := h
    · rw [hip] at hsome
      cases hsome
    · obtain ⟨domain, hcanonical, hsame⟩ := isNameable_iff.mp hnameable
      refine ⟨.domain domain, ⟨text, htext, .inr ⟨hip, domain, rfl, hsame⟩⟩, ?_,
        fun other heq => ?_⟩
      · rw [hentry]
        show (Text.asciiLower _ == Text.asciiLower _) = true
        rw [hsame]
        exact beq_self_eq_true _
      · rw [← Host.domain.inj heq]
        exact hcanonical

/-- An entry that names the host of a URL can match. -/
theorem admits_of_hostOk (hcrates : Canonicalises crates idna (Named entries))
    (htext : text ∈ entries) (hread : ∃ read, parseEntry text = .ok read)
    (h : HostOk idna text) : AdmitsSome crates text := by
  obtain ⟨read, hread⟩ := hread
  obtain ⟨entry, rfl⟩ := Option.isSome_iff_exists.mp (parseEntry_isSome hread h.1)
  obtain ⟨-, hhost, hpath⟩ := parseEntry_eq_some hread
  obtain ⟨host, hnamed, hmatch, hcanonical⟩ := host_of_hostOk h htext hhost
  -- a segment past the prefix, which a directory asks for
  obtain ⟨names, hordinary, hcovers⟩ : ∃ names : List String,
      (∀ name ∈ names, IsOrdinary name) ∧ ∀ encoded pre, entry.path = some pre →
        pre.Covers crates (pathOf (names.map (encodeSegment encoded))) := by
    have hmore : ∀ name ∈ ["a"], IsOrdinary name := by
      intro name hname
      rw [List.mem_singleton.mp hname]
      exact ⟨by decide, by decide⟩
    cases hpre : entry.path with
    | none => exact ⟨[], fun _ h => absurd h List.not_mem_nil, fun _ _ h => nomatch h⟩
    | some pre =>
      obtain ⟨path, hparse⟩ := hpath pre hpre
      refine ⟨pre.segments ++ ["a"], ?_, fun encoded other heq => ?_⟩
      · exact List.forall_mem_append.mpr ⟨(parse_ordinary hparse).2, hmore⟩
      · obtain rfl := Option.some.inj heq
        rw [List.map_append]
        exact PathPrefix.admits_iff.mp (admits_pathOf hcrates.decodes hparse encoded encoded hmore
          fun _ => List.cons_ne_nil _ _)
  obtain ⟨raw, encoded, hraw⟩ := hcrates.url host hnamed hcanonical names hordinary
  refine ⟨raw, _, hraw, fun refuses => FetchPolicy.check_eq_ok.mpr ⟨host, ?_⟩⟩
  refine ⟨rfl, .inl rfl, ⟨rfl, rfl⟩, fun h => (nomatch h), ?_, fun h => (nomatch h),
    fun h => (nomatch h)⟩
  intro hosts hhosts
  obtain rfl := Option.some.inj hhosts
  exact ⟨entry, mem_new_singleton.mpr hread, hmatch, fun pre hpre => hcovers encoded pre hpre⟩

/-- An allowlist means what it says if and only if every entry it accepts names the host of a URL:
an address, or a canonical domain. -/
theorem means_iff (hcrates : Canonicalises crates idna (Named entries)) :
    HostAllowlist.Means crates entries ↔ ∀ hosts, HostAllowlist.tryNew entries = .ok hosts →
      ∀ text ∈ entries, Text.trim text ≠ "" → HostOk idna text := by
  constructor
  · intro means hosts hhosts text htext hne
    exact hostOk_of_admits hcrates (means.matchable hosts hhosts text htext hne)
  · intro hok
    refine ⟨fun hosts h => (HostAllowlist.tryNew_ok h).1, fun hosts h text htext hne => ?_,
      fun host url hconfined hadmits => ?_, fun others hperm host url => ?_,
      fun entry others hperm host url hadmits => ?_⟩
    · exact admits_of_hostOk hcrates htext ((HostAllowlist.tryNew_ok h).2 text htext)
        (hok hosts h text htext hne)
    · obtain ⟨entry, hentry, hmatch, hcovers⟩ := HostAllowlist.admits_iff.mp hadmits
      obtain ⟨pre, hpre⟩ := Option.ne_none_iff_exists'.mp (hconfined entry hentry hmatch)
      refine ⟨entry, hentry, hmatch, pre, hpre, ?_⟩
      exact confines_of_admits hcrates.decodes (PathPrefix.admits_iff.mpr (hcovers pre hpre))
    · exact HostAllowlist.admits_perm (hperm.filterMap _) host url
    · have hsub : (HostAllowlist.new entries).entries ⊆ (HostAllowlist.new others).entries := by
        intro e he
        refine (hperm.filterMap _).mem_iff.mpr ?_
        obtain ⟨text, htext, hread⟩ := List.mem_filterMap.mp he
        exact List.mem_filterMap.mpr ⟨text, List.mem_cons_of_mem _ htext, hread⟩
      obtain ⟨e, he, hmatch, hcovers⟩ := HostAllowlist.admits_iff.mp hadmits
      exact HostAllowlist.admits_iff.mpr ⟨e, hsub he, hmatch, hcovers⟩

/-- What reads `https` URLs: a host that is some address, or a canonical domain. -/
def readingUrls (address : String → Option Host) : UrlCrates where
  parse raw := do
    let rest ← Text.stripPrefix raw "https://"
    let (authority, path) ← splitOnce '/' rest
    let host ← (address authority).or
      (if isCanonicalDomain (fun _ => true) authority then some (.domain authority) else none)
    pure ⟨"https", "", none, some host, none, "/" ++ path⟩
  decode text := Text.fromUtf8 (Percent.decode (Text.utf8 text))

theorem splitOnce_append {host rest : String} (h : '/' ∉ host.toList) :
    splitOnce '/' (host ++ ("/" ++ rest)) = some (host, rest) := by
  refine splitOnce_eq_some_iff.mpr ⟨?_, h⟩
  rw [String.toList_append, String.toList_append]
  rfl

theorem slash_canonical {domain : String} (h : isCanonicalDomain idna domain = true) :
    '/' ∉ domain.toList := by
  intro hmem
  simp only [isCanonicalDomain, Bool.and_eq_true, List.all_eq_true] at h
  exact absurd (h.1.1.2 '/' hmem) (by decide)

theorem readingUrls_domain {address : String → Option Host} {domain : String}
    (hcanonical : isCanonicalDomain (fun _ => true) domain = true) (haddress : address domain = none)
    (segments : List String) :
    (readingUrls address).parse ("https://" ++ (domain ++ pathOf segments)) =
      some ⟨"https", "", none, some (.domain domain), none, pathOf segments⟩ := by
  have hstrip : Text.stripPrefix ("https://" ++ (domain ++ pathOf segments)) "https://" =
      some (domain ++ pathOf segments) := Text.stripPrefix_eq_some.mpr String.toList_append
  unfold readingUrls
  dsimp only
  rw [hstrip]
  show (splitOnce '/' (domain ++ pathOf segments)).bind _ = _
  rw [pathOf, splitOnce_append (slash_canonical hcanonical)]
  dsimp only [Option.bind]
  rw [haddress, Option.none_or, if_pos hcanonical]
  rfl

theorem canonicalises_reading {address : String → Option Host} {named : Host → Prop}
    (hliteral : ∀ authority domain, address authority ≠ some (.domain domain))
    (hnamed : ∀ host, named host → ∃ domain, host = .domain domain ∧
      (isCanonicalDomain (fun _ => true) domain = true → address domain = none)) :
    Canonicalises (readingUrls address) (fun _ => true) named where
  decodes _ := rfl
  domain raw url domain hraw _ hhost := by
    obtain ⟨rest, -, hraw⟩ := Option.bind_eq_some_iff.mp hraw
    obtain ⟨⟨authority, path⟩, -, hraw⟩ := Option.bind_eq_some_iff.mp hraw
    obtain ⟨host, hread, hraw⟩ := Option.bind_eq_some_iff.mp hraw
    obtain rfl := Option.some.inj hraw
    obtain rfl := Option.some.inj hhost
    rcases Option.or_eq_some_iff.mp hread with hread | ⟨-, hread⟩
    · exact absurd hread (hliteral authority domain)
    · split at hread
      · rename_i hcanonical
        rw [← Host.domain.inj (Option.some.inj hread)]
        exact hcanonical
      · cases hread
  url host hhost hcanonical names _ := by
    obtain ⟨domain, rfl, haddress⟩ := hnamed host hhost
    have hcanonical := hcanonical domain rfl
    exact ⟨_, fun _ => true, readingUrls_domain hcanonical (haddress hcanonical) _⟩

theorem named_domain {host : Host} (hip : parseIp (entryHost text) = none)
    (h : Named [text] host) : ∃ domain, host = .domain domain ∧
      undotted domain = Text.asciiLower (entryHost text) := by
  obtain ⟨other, hother, ⟨ip, hsome, -⟩ | ⟨-, hdomain⟩⟩ := h
  · rw [List.mem_singleton.mp hother, hip] at hsome
    cases hsome
  · rw [List.mem_singleton.mp hother] at hdomain
    exact hdomain

theorem means_export : HostAllowlist.Means (readingUrls fun _ => none) ["export.test/a/"] := by
  have hip : parseIp (entryHost "export.test/a/") = none := by decide +kernel
  have hcrates : Canonicalises (readingUrls fun _ => none) (fun _ => true)
      (Named ["export.test/a/"]) := by
    refine canonicalises_reading (fun _ _ h => nomatch h) fun host h => ?_
    obtain ⟨domain, hdomain, -⟩ := named_domain hip h
    exact ⟨domain, hdomain, fun _ => rfl⟩
  have hok : HostOk (fun _ => true) "export.test/a/" :=
    ⟨by decide +kernel, .inr ⟨hip, by decide +kernel⟩⟩
  have hall : ∀ text ∈ ["export.test/a/"], HostOk (fun _ => true) text :=
    List.forall_mem_singleton.mpr hok
  exact (means_iff hcrates).mpr fun _ _ text htext _ => hall text htext

/-- The address that `1.2.3` spells as the host of a URL. -/
def numericAddress (authority : String) : Option Host :=
  if authority = "1.2.3" then some (.ipv4 (v4Addr 1 2 0 3)) else none

theorem numeric_entry_never_matches :
    Canonicalises (readingUrls numericAddress) (fun _ => true) (Named ["1.2.3"]) ∧
      ¬ HostAllowlist.Means (readingUrls numericAddress) ["1.2.3"] := by
  have hip : parseIp (entryHost "1.2.3") = none := by decide +kernel
  have hcrates : Canonicalises (readingUrls numericAddress) (fun _ => true) (Named ["1.2.3"]) := by
    refine canonicalises_reading (fun authority domain h => ?_) fun host h => ?_
    · unfold numericAddress at h
      split at h
      · cases Option.some.inj h
      · cases h
    · obtain ⟨domain, hdomain, hsame⟩ := named_domain hip h
      refine ⟨domain, hdomain, fun hcanonical => ?_⟩
      have hnameable := isNameable_iff.mpr ⟨domain, hcanonical, hsame⟩
      exact absurd hnameable (by decide +kernel)
  refine ⟨hcrates, fun means => ?_⟩
  have hread : HostAllowlist.tryNew ["1.2.3"] = .ok ⟨[⟨.domain "1.2.3", none⟩]⟩ := by
    decide +kernel
  have hok := hostOk_of_admits hcrates (means.matchable _ hread "1.2.3" (.head _) (by decide +kernel))
  rcases hok.2 with hsome | ⟨-, hnameable⟩
  · rw [hip] at hsome
    cases hsome
  · exact absurd hnameable (by decide +kernel)

end Tronc.HttpClient
