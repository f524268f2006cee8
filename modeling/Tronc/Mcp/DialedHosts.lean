import Tronc.Mcp.ResourceMetadata

namespace Tronc.Mcp

open HttpClient (eqIgnoreAsciiCase)

section Dialing

/-- A space or a tab. -/
def isBlank (b : UInt8) : Bool := b == 32 || b == 9

def blankTrimmed (bytes : List UInt8) : List UInt8 := (bytes.dropWhile isBlank).rdropWhile isBlank

/-- A request names the host: first in `X-Forwarded-Host`, or in `Host` when that header is
absent. -/
inductive Dials (headers : HeaderMap) (value : HeaderValue) (text : String) : Prop
  | forwarded (hvalue : headers.get "x-forwarded-host" = some value)
      (htext : blankTrimmed (value.bytes.takeWhile (· != 44)) = Text.utf8 text)
  | direct (hforwarded : headers.get "x-forwarded-host" = none)
      (hvalue : headers.get "host" = some value)
      (htext : blankTrimmed value.bytes = Text.utf8 text)

variable {headers : HeaderMap} {value : HeaderValue} {text read : String} {bytes : List UInt8}

def charOf (b : UInt8) : Char := Char.ofNat b.toNat

theorem charOf_visible {b : UInt8} (h : isVisibleAscii b = true) :
    Text.isWhitespace (charOf b) = isBlank b ∧ (charOf b != ',') = (b != 44) := by
  have hall : ∀ n : Fin 256, isVisibleAscii (UInt8.ofNat n.val) = true →
      Text.isWhitespace (charOf (UInt8.ofNat n.val)) = isBlank (UInt8.ofNat n.val) ∧
        (charOf (UInt8.ofNat n.val) != ',') = (UInt8.ofNat n.val != 44) := by
    decide +kernel
  have hb : UInt8.ofNat b.toNat = b := UInt8.ofNat_toNat
  have hn := hall ⟨b.toNat, b.toNat_lt⟩
  dsimp only at hn
  rw [hb] at hn
  exact hn h

theorem dropWhile_map_congr {α β : Type} {f : α → β} {p : β → Bool} {q : α → Bool} {l : List α}
    (h : ∀ a ∈ l, p (f a) = q a) : (l.map f).dropWhile p = (l.dropWhile q).map f := by
  induction l with
  | nil => rfl
  | cons a l ih =>
    have ha := h a List.mem_cons_self
    have hl := ih fun b hb => h b (List.mem_cons_of_mem _ hb)
    rw [List.map_cons, List.dropWhile_cons, List.dropWhile_cons, ha, hl]
    split
    · rfl
    · rfl

theorem takeWhile_map_congr {α β : Type} {f : α → β} {p : β → Bool} {q : α → Bool} {l : List α}
    (h : ∀ a ∈ l, p (f a) = q a) : (l.map f).takeWhile p = (l.takeWhile q).map f := by
  induction l with
  | nil => rfl
  | cons a l ih =>
    have ha := h a List.mem_cons_self
    have hl := ih fun b hb => h b (List.mem_cons_of_mem _ hb)
    rw [List.map_cons, List.takeWhile_cons, List.takeWhile_cons, ha, hl]
    split
    · rfl
    · rfl

/-- A text whose bytes are all visible ASCII has those characters. -/
theorem text_of_utf8 (h : ∀ b ∈ Text.utf8 text, isVisibleAscii b = true) :
    .ofList ((Text.utf8 text).map charOf) = text := by
  have hascii : ∀ c ∈ text.toList, c.toNat ≤ 127 := by
    intro c hc
    by_contra hhigh
    obtain ⟨b, hb, hlarge⟩ := Text.utf8EncodeChar_first (Nat.lt_of_not_le hhigh)
    have hvisible := h b (List.mem_flatMap.mpr ⟨c, hc, hb⟩)
    have hsmall : isVisibleAscii b = true → b.toNat < 128 := by
      unfold isVisibleAscii
      rw [Bool.or_eq_true, Bool.and_eq_true, decide_eq_true_eq, decide_eq_true_eq, beq_iff_eq]
      rintro (⟨-, hlt⟩ | rfl)
      · have hnat : b.toNat < 127 := hlt
        omega
      · decide
    have hnat := hsmall hvisible
    omega
  have hback : ∀ c ∈ text.toList, charOf (UInt8.ofNat c.toNat) = c := by
    intro c hc
    have hlt := hascii c hc
    unfold charOf
    rw [UInt8.toNat_ofNat', Nat.mod_eq_of_lt (by omega), Char.ofNat_toNat]
  have hmap : (Text.utf8 text).map charOf = text.toList := by
    rw [Text.utf8_ascii hascii, List.map_map]
    exact (List.map_congr_left hback).trans (List.map_id' _)
  rw [hmap, String.ofList_toList]

theorem trim_map (hvisible : ∀ b ∈ bytes, isVisibleAscii b = true)
    (h : blankTrimmed bytes = Text.utf8 text) :
    Text.trim (.ofList (bytes.map charOf)) = text := by
  have hblank : ∀ b ∈ bytes, Text.isWhitespace (charOf b) = isBlank b :=
    fun b hb => (charOf_visible (hvisible b hb)).1
  have hfront : (bytes.map charOf).dropWhile Text.isWhitespace =
      (bytes.dropWhile isBlank).map charOf := dropWhile_map_congr hblank
  have hmem : ∀ b ∈ bytes.dropWhile isBlank, b ∈ bytes :=
    fun b hb => (List.dropWhile_suffix _).subset hb
  have hboth : ((bytes.dropWhile isBlank).map charOf).rdropWhile Text.isWhitespace =
      (blankTrimmed bytes).map charOf := by
    unfold blankTrimmed List.rdropWhile
    rw [← List.map_reverse, dropWhile_map_congr, List.map_reverse]
    intro b hb
    exact hblank b (hmem b (List.mem_reverse.mp hb))
  have htrimmed : ∀ b ∈ Text.utf8 text, isVisibleAscii b = true := by
    rw [← h]
    intro b hb
    exact hvisible b (hmem b ((List.rdropWhile_prefix _ _).subset hb))
  unfold Text.trim
  rw [String.toList_ofList, hfront, hboth, h]
  exact text_of_utf8 htrimmed

theorem toStr_eq_some (h : value.toStr = some read) :
    (∀ b ∈ value.bytes, isVisibleAscii b = true) ∧ read.toList = value.bytes.map charOf := by
  unfold HeaderValue.toStr at h
  split at h
  · rename_i hall
    obtain rfl := Option.some.inj h
    exact ⟨List.all_eq_true.mp hall, String.toList_ofList⟩
  · cases h

/-- The header that a request dials in is the one that is read, where it can be read. -/
theorem Dials.dialedHost (h : Dials headers value text) (hread : value.toStr = some read) :
    Mcp.dialedHost headers = some read := by
  unfold Mcp.dialedHost DIALED_HOST_HEADERS
  cases h with
  | forwarded hvalue htext =>
    rw [List.findSome?_cons, hvalue, Option.bind_some, hread]
  | direct hforwarded hvalue htext =>
    rw [List.findSome?_cons, hforwarded, Option.bind_none, List.findSome?_cons, hvalue,
      Option.bind_some, hread]

theorem comma_of_utf8 (h : 44 ∈ Text.utf8 text) : ',' ∈ text.toList := by
  obtain ⟨c, hc, hcode⟩ := Text.mem_utf8 (by decide) h
  have hcomma : c = ',' := Char.toNat_inj.mp hcode
  rw [← hcomma]
  exact hc

theorem mem_blankTrimmed {b : UInt8} (hb : isBlank b = false) (h : b ∈ bytes) :
    b ∈ blankTrimmed bytes := by
  have hkeep : ∀ l : List UInt8, b ∈ l → b ∈ l.dropWhile isBlank := by
    intro l hl
    rw [← List.takeWhile_append_dropWhile (p := isBlank) (l := l), List.mem_append] at hl
    rcases hl with hfront | hrest
    · have hblank := List.mem_takeWhile_imp hfront
      rw [hb] at hblank
      cases hblank
    · exact hrest
  unfold blankTrimmed List.rdropWhile
  rw [List.mem_reverse]
  exact hkeep _ (List.mem_reverse.mpr (hkeep _ h))

/-- A text with no comma is what the set looks up. -/
theorem Dials.firstEntry (h : Dials headers value text) (hread : value.toStr = some read)
    (hcomma : ',' ∉ text.toList) :
    Text.trim (.ofList (read.toList.takeWhile (· != ','))) = text := by
  obtain ⟨hvisible, hlist⟩ := toStr_eq_some hread
  have htake : read.toList.takeWhile (· != ',') =
      (value.bytes.takeWhile (· != 44)).map charOf := by
    rw [hlist]
    exact takeWhile_map_congr fun b hb => (charOf_visible (hvisible b hb)).2
  rw [htake]
  cases h with
  | forwarded hvalue htext =>
    exact trim_map (fun b hb => hvisible b ((List.takeWhile_prefix _).subset hb)) htext
  | direct hforwarded hvalue htext =>
    have hwhole : value.bytes.takeWhile (· != 44) = value.bytes := by
      rw [List.takeWhile_eq_self_iff]
      intro b hb
      rw [bne_iff_ne]
      rintro rfl
      apply hcomma
      apply comma_of_utf8
      rw [← htext]
      exact mem_blankTrimmed rfl hb
    rw [hwhole]
    exact trim_map hvisible htext

end Dialing

/-! Which document a request is answered with. -/
section Answering

namespace ProtectedResourceMetadata

/-- The authority that a client without a default port in its request names. -/
def authority (metadata : ProtectedResourceMetadata) : String :=
  metadata.parsed.authorityWithoutDefaultPort

/-- The text names the document's host, and writes out the port its scheme defaults to. -/
structure WritesDefaultPort (metadata : ProtectedResourceMetadata) (text : String) : Prop where
  port : ∀ port, metadata.parsed.hostAndPort.2 = some port →
    port = ParsedResource.defaultPort metadata.parsed.scheme
  text : eqIgnoreAsciiCase
    (metadata.parsed.host ++ ":" ++ ParsedResource.defaultPort metadata.parsed.scheme) text = true

/-- The text is the document's authority in any letter case, its default port written or left out. -/
def IsKnownAs (metadata : ProtectedResourceMetadata) (text : String) : Prop :=
  eqIgnoreAsciiCase metadata.authority text = true ∨ metadata.WritesDefaultPort text

def SameAuthority (metadata other : ProtectedResourceMetadata) : Prop :=
  eqIgnoreAsciiCase metadata.authority other.authority = true

variable {metadata other : ProtectedResourceMetadata} {text : String}

theorem isDialedAs_iff :
    metadata.isDialedAs text = true ↔ eqIgnoreAsciiCase metadata.authority text = true := by
  unfold isDialedAs
  rw [parse_resource, Option.any_some]
  rfl

theorem WritesDefaultPort.authority_eq (h : metadata.WritesDefaultPort text) :
    metadata.authority = metadata.parsed.host := by
  have hport := h.port
  unfold authority ParsedResource.authorityWithoutDefaultPort ParsedResource.host
  cases hparts : metadata.parsed.hostAndPort with
  | mk host port =>
    rw [hparts] at hport
    cases port with
    | some p => exact if_pos (hport p rfl)
    | none =>
      unfold ParsedResource.hostAndPort at hparts
      split at hparts
      · cases hparts
      · exact (Prod.mk.inj hparts).1

/-- The identifier's own port is left out of what is compared, and the request's is not. -/
theorem WritesDefaultPort.not_dialed (h : metadata.WritesDefaultPort text) :
    metadata.isDialedAs text = false := by
  rw [← Bool.not_eq_true, isDialedAs_iff, h.authority_eq]
  intro hhost
  have hlower := (eq_of_beq hhost).trans (eq_of_beq h.text).symm
  have hlength := congrArg (fun s : String => s.toList.length) hlower
  simp [Text.toList_asciiLower] at hlength

theorem SameAuthority.isDialedAs_iff (hdialed : metadata.isDialedAs text = true) :
    other.isDialedAs text = true ↔ other.SameAuthority metadata := by
  rw [ProtectedResourceMetadata.isDialedAs_iff] at hdialed ⊢
  unfold SameAuthority eqIgnoreAsciiCase
  rw [← eq_of_beq hdialed]

/-- A comma in what a client dials is one of the document's host. -/
theorem IsKnownAs.comma (h : metadata.IsKnownAs text) (hcomma : ',' ∈ text.toList) :
    ',' ∈ metadata.authority.toList := by
  have hsymm : ∀ {a b : String}, eqIgnoreAsciiCase a b = true → eqIgnoreAsciiCase b a = true :=
    fun h => beq_iff_eq.mpr (eq_of_beq h).symm
  rcases h with hsame | hport
  · exact HttpClient.mem_of_eqIgnoreAsciiCase (hsymm hsame) (by decide) hcomma
  · have hmem := HttpClient.mem_of_eqIgnoreAsciiCase (hsymm hport.text) (by decide) hcomma
    rw [hport.authority_eq]
    rw [String.toList_append, String.toList_append, List.mem_append, List.mem_append] at hmem
    rcases hmem with (hhost | hcolon) | hdefault
    · exact hhost
    · exact absurd hcolon (by decide)
    · cases hscheme : metadata.parsed.scheme with
      | http =>
        rw [hscheme] at hdefault
        exact absurd hdefault (by decide)
      | https =>
        rw [hscheme] at hdefault
        exact absurd hdefault (by decide)

theorem isDialedAs_of_isKnownAs (h : metadata.IsKnownAs text) :
    metadata.isDialedAs text = true ↔ ¬ metadata.WritesDefaultPort text := by
  constructor
  · intro hdialed hport
    rw [hport.not_dialed] at hdialed
    cases hdialed
  · intro hport
    exact isDialedAs_iff.mpr (h.resolve_right hport)

end ProtectedResourceMetadata

namespace ProtectedResourceMetadataSet

/-- What is read of a request's headers: the text that the documents are compared with. -/
def hostRead (headers : HeaderMap) : Option String := firstHost (dialedHost headers)

/-- A text that names the document, and none listed before it. -/
def Named (set : ProtectedResourceMetadataSet) (host : Option String)
    (metadata : ProtectedResourceMetadata) : Prop :=
  ∃ text, host = some text ∧ metadata.isDialedAs text = true ∧
    ∃ before after, set.documents = before ++ metadata :: after ∧
      ∀ other ∈ before, other.isDialedAs text = false

def NamesNone (set : ProtectedResourceMetadataSet) (host : Option String) : Prop :=
  ∀ text, host = some text → ∀ metadata ∈ set.documents, metadata.isDialedAs text = false

/-- What a text that was read is answered with: the document it names, or else the canonical one. -/
def Answers (set : ProtectedResourceMetadataSet) (host : Option String)
    (metadata : ProtectedResourceMetadata) : Prop :=
  set.Named host metadata ∨ metadata = set.canonical ∧ set.NamesNone host

/-- No document listed before this one has its authority. -/
def IsFirst (set : ProtectedResourceMetadataSet) (metadata : ProtectedResourceMetadata) : Prop :=
  ∃ before after, set.documents = before ++ metadata :: after ∧
    ∀ other ∈ before, ¬ other.SameAuthority metadata

/-- A text that a header of visible ASCII carries whole. -/
structure IsPlain (value : HeaderValue) (text : String) : Prop where
  readable : value.toStr.isSome = true
  single : ',' ∉ text.toList
  nonempty : text ≠ ""

variable {set : ProtectedResourceMetadataSet} {metadata : ProtectedResourceMetadata}
  {headers : HeaderMap} {value : HeaderValue} {text : String}

theorem metadataFor_eq_some_iff {request : MetadataRequest} :
    set.metadataFor request = some metadata ↔ set.Answers (hostRead request.headers) metadata := by
  have hmetadata : set.metadataFor request = some metadata ↔
      set.forHost (dialedHost request.headers) = metadata := Option.some_inj
  rw [hmetadata]
  unfold forHost Answers
  cases hread : firstHost (dialedHost request.headers) with
  | none =>
    have hhost : hostRead request.headers = none := hread
    rw [hhost]
    constructor
    · intro h
      exact .inr ⟨h.symm, fun text htext => nomatch htext⟩
    · rintro (⟨text, htext, -⟩ | ⟨h, -⟩)
      · cases htext
      · exact h.symm
  | some text =>
    have hhost : hostRead request.headers = some text := hread
    rw [hhost]
    dsimp only
    constructor
    · intro h
      cases hfind : set.documents.find? (·.isDialedAs text) with
      | none =>
        rw [hfind] at h
        refine .inr ⟨h.symm, fun text' htext other hother => ?_⟩
        obtain rfl := Option.some.inj htext
        exact Bool.eq_false_of_not_eq_true (List.find?_eq_none.mp hfind other hother)
      | some found =>
        rw [hfind] at h
        obtain rfl : found = metadata := h
        obtain ⟨hdialed, before, after, hlist, hnone⟩ := List.find?_eq_some_iff_append.mp hfind
        refine .inl ⟨text, rfl, hdialed, before, after, hlist, fun other hother => ?_⟩
        simpa using hnone other hother
    · rintro (⟨text', htext, hdialed, before, after, hlist, hnone⟩ | ⟨rfl, hnone⟩)
      · obtain rfl := Option.some.inj htext
        have hfind : set.documents.find? (·.isDialedAs text) = some metadata :=
          List.find?_eq_some_iff_append.mpr
            ⟨hdialed, before, after, hlist, fun other hother => by simp [hnone other hother]⟩
        rw [hfind]
        rfl
      · have hfind : set.documents.find? (·.isDialedAs text) = none :=
          List.find?_eq_none.mpr fun other hother => by simp [hnone text rfl other hother]
        rw [hfind]
        rfl

theorem hostRead_of_readable (h : Dials headers value text) (hread : value.toStr.isSome = true)
    (hcomma : ',' ∉ text.toList) :
    hostRead headers = if text = "" then none else some text := by
  obtain ⟨read, hread⟩ := Option.isSome_iff_exists.mp hread
  unfold hostRead firstHost
  rw [h.dialedHost hread, Option.map_some, h.firstEntry hread hcomma]
  by_cases hempty : text = ""
  · simp [hempty]
  · simp [hempty]

/-- A host that is read has no comma. -/
theorem comma_of_hostRead (h : hostRead headers = some text) : ',' ∉ text.toList := by
  obtain ⟨hmap, -⟩ := Option.filter_eq_some_iff.mp h
  obtain ⟨host, -, htrim⟩ := Option.map_eq_some_iff.mp hmap
  intro hcomma
  rw [← htrim, Text.trim, String.toList_ofList, String.toList_ofList] at hcomma
  have hmem := (List.dropWhile_suffix _).subset ((List.rdropWhile_prefix _ _).subset hcomma)
  have hne := List.mem_takeWhile_imp hmem
  simp at hne

/-- Which texts a readable header names a document with. -/
theorem named_iff (h : Dials headers value text) (hread : value.toStr.isSome = true)
    (hknown : metadata.IsKnownAs text) : set.Named (hostRead headers) metadata ↔
      IsPlain value text ∧ ¬ metadata.WritesDefaultPort text ∧ set.IsFirst metadata := by
  by_cases hcomma : ',' ∈ text.toList
  · constructor
    · rintro ⟨host, hhost, hdialed, -⟩
      have hauthority := ProtectedResourceMetadata.isDialedAs_iff.mp hdialed
      have hmem := HttpClient.mem_of_eqIgnoreAsciiCase hauthority (by decide) (hknown.comma hcomma)
      exact absurd hmem (comma_of_hostRead hhost)
    · rintro ⟨hplain, -⟩
      exact absurd hcomma hplain.single
  · rw [hostRead_of_readable h hread hcomma]
    constructor
    · rintro ⟨host, hhost, hdialed, before, after, hlist, hnone⟩
      split at hhost
      · cases hhost
      · rename_i hne
        obtain rfl := Option.some.inj hhost
        refine ⟨⟨hread, hcomma, hne⟩, (ProtectedResourceMetadata.isDialedAs_of_isKnownAs hknown).mp
          hdialed, before, after, hlist, fun other hother hsame => ?_⟩
        rw [← ProtectedResourceMetadata.SameAuthority.isDialedAs_iff hdialed,
          hnone other hother] at hsame
        cases hsame
    · rintro ⟨hplain, hport, before, after, hlist, hnone⟩
      have hdialed := (ProtectedResourceMetadata.isDialedAs_of_isKnownAs hknown).mpr hport
      refine ⟨text, if_neg hplain.nonempty, hdialed, before, after, hlist, fun other hother => ?_⟩
      rw [← Bool.not_eq_true, ProtectedResourceMetadata.SameAuthority.isDialedAs_iff hdialed]
      exact hnone other hother

/-- A readable host that no document is known as names none. -/
theorem namesNone_of_unknown (h : Dials headers value text) (hread : value.toStr.isSome = true)
    (hcomma : ',' ∉ text.toList)
    (hunknown : ∀ metadata ∈ set.documents, ¬ metadata.IsKnownAs text) :
    set.NamesNone (hostRead headers) := by
  intro host hhost metadata hmem
  rw [hostRead_of_readable h hread hcomma] at hhost
  split at hhost
  · cases hhost
  · obtain rfl := Option.some.inj hhost
    rw [← Bool.not_eq_true, ProtectedResourceMetadata.isDialedAs_iff]
    exact fun hsame => hunknown metadata hmem (.inl hsame)

/-- When a request that dials a document's host is answered with it: as is meant, or as the canonical
one; and where the header cannot be read, as what is read in its place is answered. -/
def Told (set : ProtectedResourceMetadataSet) (headers : HeaderMap) (value : HeaderValue)
    (text : String) (metadata : ProtectedResourceMetadata) : Prop :=
  match value.toStr with
  | some _ => IsPlain value text ∧ ¬ metadata.WritesDefaultPort text ∧ set.IsFirst metadata ∨
      metadata = set.canonical ∧ set.NamesNone (hostRead headers)
  | none => set.Answers (hostRead headers) metadata

theorem told_iff (h : Dials headers value text) (hknown : metadata.IsKnownAs text)
    {path : String} :
    set.metadataFor ⟨path, headers⟩ = some metadata ↔ set.Told headers value text metadata := by
  rw [metadataFor_eq_some_iff]
  unfold Told
  cases hread : value.toStr with
  | some read =>
    unfold Answers
    rw [named_iff h (by rw [hread]; rfl) hknown]
  | none => rfl

/-- Each origin is told its own document exactly in these cases, at a path that is served once and
on the document's own origin; an unknown host is told the canonical document. -/
theorem resource_metadata_iff (set : ProtectedResourceMetadataSet) :
    set.metadataPaths.Nodup ∧
    (∀ metadata ∈ set.documents, metadata.metadataPath ∈ set.metadataPaths ∧
      ∃ parsed, ParsedResource.parse metadata.resource = some parsed ∧
        ParsedResource.parse metadata.metadataUrl =
          some { parsed with path := metadata.metadataPath }) ∧
    ∀ path ∈ set.metadataPaths, ∀ headers,
      (headers.get "x-forwarded-host" = none → headers.get "host" = none →
        set.metadataFor ⟨path, headers⟩ = some set.canonical) ∧
      ∀ value text, Dials headers value text →
        (∀ metadata ∈ set.documents, metadata.IsKnownAs text →
          (set.metadataFor ⟨path, headers⟩ = some metadata ↔
            set.Told headers value text metadata)) ∧
        ((∀ metadata ∈ set.documents, ¬ metadata.IsKnownAs text) →
          (set.metadataFor ⟨path, headers⟩ = some set.canonical ↔
            (value.toStr.isSome = true ∧ ',' ∉ text.toList) ∨
              set.Answers (hostRead headers) set.canonical)) := by
  obtain ⟨hnodup, hpaths⟩ :=
    pathsOf_spec set.documents (List.nodup_singleton WELL_KNOWN_PROTECTED_RESOURCE)
  refine ⟨hnodup, fun metadata hmem => ⟨(hpaths _).mpr (.inr ⟨metadata, hmem, rfl⟩), ?_⟩, ?_⟩
  · exact ⟨metadata.parsed, metadata.parse_resource, metadata.parse_metadataUrl⟩
  · intro path _ headers
    refine ⟨fun hforwarded hhost => ?_, fun value text hdials => ⟨?_, ?_⟩⟩
    · have hnone : dialedHost headers = none := by
        unfold dialedHost DIALED_HOST_HEADERS
        rw [List.findSome?_cons, hforwarded, Option.bind_none, List.findSome?_cons, hhost]
        rfl
      rw [metadataFor_eq_some_iff, hostRead, hnone]
      exact .inr ⟨rfl, fun text htext => nomatch htext⟩
    · intro metadata _ hknown
      exact told_iff hdials hknown
    · intro hunknown
      rw [metadataFor_eq_some_iff]
      constructor
      · exact .inr
      · rintro (⟨hread, hcomma⟩ | hanswers)
        · exact .inr ⟨rfl, namesNone_of_unknown hdials hread hcomma hunknown⟩
        · exact hanswers

/-- A client that writes out the port of `https` is told the canonical document. -/
theorem default_port_told_canonical : ∃ mcp app : ProtectedResourceMetadata,
    ProtectedResourceMetadata.new "https://mcp.example.com" [] = .ok mcp ∧
    ProtectedResourceMetadata.new "https://app.example.com" [] = .ok app ∧
    mcp.parsed.origin ≠ app.parsed.origin ∧
    app.IsKnownAs "app.example.com:443" ∧
    Dials [("host", .ofString "app.example.com:443")] (.ofString "app.example.com:443")
      "app.example.com:443" ∧
    WELL_KNOWN_PROTECTED_RESOURCE ∈ metadataPaths ⟨mcp, [app]⟩ ∧
    metadataFor ⟨mcp, [app]⟩ ⟨WELL_KNOWN_PROTECTED_RESOURCE,
      [("host", .ofString "app.example.com:443")]⟩ = some mcp ∧ mcp ≠ app := by
  let document (resource : String) (h : (ParsedResource.parse resource).isSome = true) :
      ProtectedResourceMetadata := ⟨resource, [], none, [], ["header"], none, none, h⟩
  refine ⟨document "https://mcp.example.com" (by decide),
    document "https://app.example.com" (by decide), ?_, ?_, ?_, .inr ⟨?_, ?_⟩, ?_, ?_, ?_, ?_⟩
  · rfl
  · rfl
  · decide
  · decide
  · decide
  · exact .direct rfl rfl (by decide)
  · decide
  · decide
  · decide

end ProtectedResourceMetadataSet

end Answering

end Tronc.Mcp
