import Tronc.Mcp.Origins
import Tronc.Mcp.Headers

namespace Tronc.Mcp

open HttpClient (eqIgnoreAsciiCase)

def WELL_KNOWN_PROTECTED_RESOURCE : String := "/.well-known/oauth-protected-resource"

/-- The headers that carry the authority a client dialed, most specific first. -/
def DIALED_HOST_HEADERS : List String := ["x-forwarded-host", "host"]

/-- The first value under a name. -/
def HeaderMap.get (headers : HeaderMap) (name : String) : Option HeaderValue :=
  (headers.getAll name).head?

def dialedHost (headers : HeaderMap) : Option String :=
  DIALED_HOST_HEADERS.findSome? fun name => (headers.get name).bind HeaderValue.toStr

inductive Scheme where
  | http
  | https
  deriving DecidableEq

/-- Which schemes a resource identifier may use. -/
inductive SchemePolicy where
  | httpsOrLoopbackHttp
  | requireHttps
  | allowHttp
  deriving DecidableEq

def SchemePolicy.admits : SchemePolicy → Scheme → String → Bool
  | _, .https, _ => true
  | .allowHttp, .http, _ => true
  | .httpsOrLoopbackHttp, .http, host => isLoopbackHost host
  | .requireHttps, .http, _ => false

/-- A resource identifier split into its parts. -/
structure ParsedResource where
  scheme : Scheme
  authority : String
  /-- The scheme and the authority, as written. -/
  origin : String
  /-- Everything after the origin. -/
  path : String
  deriving DecidableEq

namespace ParsedResource

def schemeOf (text : String) : Option Scheme :=
  if eqIgnoreAsciiCase text "https" then some .https
  else if eqIgnoreAsciiCase text "http" then some .http
  else none

def parse (resource : String) : Option ParsedResource :=
  if resource.toList.any (fun c => c == '?' || c == '#') || resource.toList.any Text.isWhitespace
  then none
  else
    match splitOnceOn "://".toList resource.toList with
    | none => none
    | some (schemeText, rest) =>
      match schemeOf (.ofList schemeText) with
      | none => none
      | some scheme =>
        let authority := rest.takeWhile (· != '/')
        if authority.isEmpty || authority.contains '@' then none
        else some {
          scheme
          authority := .ofList authority
          origin := .ofList (schemeText ++ "://".toList ++ authority)
          path := .ofList (rest.dropWhile (· != '/')) }

/-- `str::rsplit_once`. -/
def rsplitOnce (c : Char) (text : String) : Option (String × String) :=
  match text.toList.reverse.dropWhile (· != c) with
  | [] => none
  | _ :: rest =>
    some (.ofList rest.reverse, .ofList (text.toList.reverse.takeWhile (· != c)).reverse)

/-- The authority split into its host and its port, when it names one. -/
def hostAndPort (parsed : ParsedResource) : String × Option String :=
  match (rsplitOnce ':' parsed.authority).filter fun (host, port) =>
    !port.toList.isEmpty && port.toList.all Char.isDigit &&
      (host.toList.head? != some '[' || host.toList.getLast? == some ']') with
  | some (host, port) => (host, some port)
  | none => (parsed.authority, none)

def host (parsed : ParsedResource) : String := parsed.hostAndPort.1

def defaultPort : Scheme → String
  | .https => "443"
  | .http => "80"

/-- The authority with a port its scheme defaults to left out. -/
def authorityWithoutDefaultPort (parsed : ParsedResource) : String :=
  match parsed.hostAndPort with
  | (host, some port) => if port = defaultPort parsed.scheme then host else parsed.authority
  | (_, none) => parsed.authority

end ParsedResource

/-- A resource identifier that its scheme policy does not allow. -/
structure InvalidResource where
  resource : String
  deriving DecidableEq

/-- The metadata document of a protected resource, whose identifier is a URL. -/
structure ProtectedResourceMetadata where
  resource : String
  authorizationServers : List String
  jwksUri : Option String
  scopesSupported : List String
  bearerMethodsSupported : List String
  resourceName : Option String
  resourceDocumentation : Option String
  parses : (ParsedResource.parse resource).isSome = true
  deriving DecidableEq

namespace ProtectedResourceMetadata

def withSchemePolicy (resource : String) (authorizationServers : List String)
    (policy : SchemePolicy) : Except InvalidResource ProtectedResourceMetadata :=
  if h : (ParsedResource.parse resource).isSome = true ∧
      ((ParsedResource.parse resource).any fun parsed =>
        policy.admits parsed.scheme parsed.host) = true then
    .ok {
      resource
      authorizationServers
      jwksUri := none
      scopesSupported := []
      bearerMethodsSupported := ["header"]
      resourceName := none
      resourceDocumentation := none
      parses := h.1 }
  else .error ⟨resource⟩

def new (resource : String) (authorizationServers : List String) :
    Except InvalidResource ProtectedResourceMetadata :=
  withSchemePolicy resource authorizationServers .httpsOrLoopbackHttp

/-- The path the document is served at: the well-known segment before the resource's own. -/
def metadataPath (metadata : ProtectedResourceMetadata) : String :=
  let path := (ParsedResource.parse metadata.resource).elim "" ParsedResource.path
  WELL_KNOWN_PROTECTED_RESOURCE ++ .ofList (path.toList.rdropWhile (· == '/'))

/-- The absolute URL of the document. -/
def metadataUrl (metadata : ProtectedResourceMetadata) : String :=
  (ParsedResource.parse metadata.resource).elim "" ParsedResource.origin ++ metadata.metadataPath

/-- Whether a client that dialed the host knows the server by this resource identifier. -/
def isDialedAs (metadata : ProtectedResourceMetadata) (host : String) : Bool :=
  (ParsedResource.parse metadata.resource).any fun parsed =>
    eqIgnoreAsciiCase parsed.authorityWithoutDefaultPort host

end ProtectedResourceMetadata

structure MetadataRequest where
  path : String
  headers : HeaderMap

/-- The documents of one server known by several origins, the first of them its canonical one. -/
structure ProtectedResourceMetadataSet where
  canonical : ProtectedResourceMetadata
  aliases : List ProtectedResourceMetadata

namespace ProtectedResourceMetadataSet

def documents (set : ProtectedResourceMetadataSet) : List ProtectedResourceMetadata :=
  set.canonical :: set.aliases

/-- The first entry of a dialed host, where it is not empty. -/
def firstHost (host : Option String) : Option String :=
  (host.map fun host => Text.trim (.ofList (host.toList.takeWhile (· != ',')))).filter (· ≠ "")

def forHost (set : ProtectedResourceMetadataSet) (host : Option String) :
    ProtectedResourceMetadata :=
  match firstHost host with
  | none => set.canonical
  | some host => (set.documents.find? (·.isDialedAs host)).getD set.canonical

/-- The paths documents are served at, without repeats. -/
def pathsOf (documents : List ProtectedResourceMetadata) : List String :=
  documents.foldl (fun paths document =>
    if paths.contains document.metadataPath then paths else paths ++ [document.metadataPath])
    [WELL_KNOWN_PROTECTED_RESOURCE]

def metadataFor (set : ProtectedResourceMetadataSet) (request : MetadataRequest) :
    Option ProtectedResourceMetadata :=
  some (set.forHost (dialedHost request.headers))

def metadataPaths (set : ProtectedResourceMetadataSet) : List String := pathsOf set.documents

end ProtectedResourceMetadataSet

/-- What a resource identifier is split into. -/
structure ParsedResource.Splits (resource schemeText : String) (parsed : ParsedResource) :
    Prop where
  clean : ∀ c ∈ resource.toList, c ≠ '?' ∧ c ≠ '#' ∧ Text.isWhitespace c = false
  text : resource.toList =
    schemeText.toList ++ "://".toList ++ (parsed.authority.toList ++ parsed.path.toList)
  scheme : ParsedResource.schemeOf schemeText = some parsed.scheme
  nonempty : parsed.authority.toList ≠ []
  bare : '@' ∉ parsed.authority.toList ∧ '/' ∉ parsed.authority.toList
  path : ∀ c ∈ parsed.path.toList.head?, c = '/'
  origin : parsed.origin.toList = schemeText.toList ++ "://".toList ++ parsed.authority.toList

section Parsing

variable {resource schemeText : String} {parsed : ParsedResource}

theorem ParsedResource.schemeOf_eq_some {scheme : Scheme} {text : String}
    (h : ParsedResource.schemeOf text = some scheme) :
    eqIgnoreAsciiCase text "http" = true ∨ eqIgnoreAsciiCase text "https" = true := by
  unfold ParsedResource.schemeOf at h
  split at h
  · rename_i hhttps
    exact .inr hhttps
  · split at h
    · rename_i hhttp
      exact .inl hhttp
    · cases h

theorem takeWhile_authority {authority path : List Char} (hbare : '/' ∉ authority)
    (hpath : ∀ c ∈ path.head?, c = '/') :
    (authority ++ path).takeWhile (· != '/') = authority ∧
      (authority ++ path).dropWhile (· != '/') = path := by
  have hpos : ∀ c ∈ authority, (c != '/') = true := by
    intro c hc
    exact bne_iff_ne.mpr fun heq => hbare (heq ▸ hc)
  rw [List.takeWhile_append_of_pos hpos, List.dropWhile_append_of_pos hpos]
  cases path with
  | nil => simp
  | cons c rest =>
    have hc : c = '/' := hpath c rfl
    simp [hc]

theorem ParsedResource.parse_of_splits (h : Splits resource schemeText parsed) :
    ParsedResource.parse resource = some parsed := by
  have hclean : (resource.toList.any (fun c => c == '?' || c == '#') ||
      resource.toList.any Text.isWhitespace) = false := by
    rw [Bool.or_eq_false_iff, List.any_eq_false, List.any_eq_false]
    constructor
    · intro c hc
      obtain ⟨hquery, hfragment, -⟩ := h.clean c hc
      simp [hquery, hfragment]
    · intro c hc
      simp [(h.clean c hc).2.2]
  have hcolon : ':' ∉ schemeText.toList := by
    intro hc
    rcases schemeOf_eq_some h.scheme with hhttp | hhttps
    · exact absurd (HttpClient.mem_of_eqIgnoreAsciiCase hhttp (by decide) hc) (by decide)
    · exact absurd (HttpClient.mem_of_eqIgnoreAsciiCase hhttps (by decide) hc) (by decide)
  have hsplit : splitOnceOn "://".toList resource.toList =
      some (schemeText.toList, parsed.authority.toList ++ parsed.path.toList) := by
    rw [h.text]
    exact splitOnceOn_append hcolon
  obtain ⟨htake, hdrop⟩ := takeWhile_authority h.bare.2 h.path
  have hauthority : (parsed.authority.toList.isEmpty || parsed.authority.toList.contains '@') =
      false := by
    simp [h.nonempty, h.bare.1]
  have horigin : String.ofList (schemeText.toList ++ "://".toList ++ parsed.authority.toList) =
      parsed.origin := by
    rw [← h.origin, String.ofList_toList]
  unfold ParsedResource.parse
  rw [hclean, hsplit]
  simp only [Bool.false_eq_true, if_false, String.ofList_toList, h.scheme, htake, hdrop, hauthority]
  rw [horigin]

theorem ParsedResource.splits_of_parse (h : ParsedResource.parse resource = some parsed) :
    ∃ schemeText, Splits resource schemeText parsed := by
  unfold ParsedResource.parse at h
  split at h
  · cases h
  · rename_i hclean
    rw [Bool.not_eq_true, Bool.or_eq_false_iff, List.any_eq_false, List.any_eq_false] at hclean
    split at h
    · cases h
    · rename_i schemeText rest hsplit
      have htext := splitOnceOn_sound hsplit
      split at h
      · cases h
      · rename_i scheme hscheme
        dsimp only at h
        split at h
        · cases h
        · rename_i hauthority
          obtain rfl := Option.some.inj h
          have hrest : rest.takeWhile (· != '/') ++ rest.dropWhile (· != '/') = rest :=
            List.takeWhile_append_dropWhile
          have hscheme' := String.toList_ofList (l := schemeText)
          have htake := String.toList_ofList (l := rest.takeWhile (· != '/'))
          have hdrop := String.toList_ofList (l := rest.dropWhile (· != '/'))
          refine ⟨.ofList schemeText, ?_, ?_, hscheme, ?_, ?_, ?_, ?_⟩
          · intro c hc
            have hmark := hclean.1 c hc
            have hspace := hclean.2 c hc
            simp only [Bool.or_eq_true, beq_iff_eq, not_or] at hmark
            exact ⟨hmark.1, hmark.2, Bool.eq_false_of_not_eq_true hspace⟩
          · dsimp only
            rw [hscheme', htake, hdrop, hrest]
            exact htext
          · dsimp only
            rw [htake]
            intro hnil
            simp [hnil] at hauthority
          · dsimp only
            rw [htake]
            constructor
            · intro hat
              simp [hat] at hauthority
            · intro hslash
              have hne := List.mem_takeWhile_imp hslash
              simp at hne
          · intro c hc
            dsimp only at hc
            rw [hdrop] at hc
            have hnot := List.head?_dropWhile_not (· != '/') rest
            rw [hc] at hnot
            simpa using hnot
          · dsimp only
            rw [hscheme', htake]
            exact String.toList_ofList

end Parsing

namespace ProtectedResourceMetadata

def parsed (metadata : ProtectedResourceMetadata) : ParsedResource :=
  (ParsedResource.parse metadata.resource).get metadata.parses

theorem parse_resource (metadata : ProtectedResourceMetadata) :
    ParsedResource.parse metadata.resource = some metadata.parsed :=
  (Option.some_get metadata.parses).symm

theorem toList_metadataPath (metadata : ProtectedResourceMetadata) :
    metadata.metadataPath.toList = WELL_KNOWN_PROTECTED_RESOURCE.toList ++
      metadata.parsed.path.toList.rdropWhile (· == '/') := by
  unfold metadataPath
  rw [metadata.parse_resource, String.toList_append, String.toList_ofList]
  rfl

theorem toList_metadataUrl (metadata : ProtectedResourceMetadata) :
    metadata.metadataUrl.toList =
      metadata.parsed.origin.toList ++ metadata.metadataPath.toList := by
  unfold metadataUrl
  rw [metadata.parse_resource, String.toList_append]
  rfl

/-- Beside the well-known segment the URL of a document has nothing that its resource has not. -/
theorem mem_metadataUrl {metadata : ProtectedResourceMetadata} {c : Char}
    (h : c ∈ metadata.metadataUrl.toList) :
    c ∈ WELL_KNOWN_PROTECTED_RESOURCE.toList ∨ c ∈ metadata.resource.toList := by
  obtain ⟨schemeText, hsplits⟩ := ParsedResource.splits_of_parse metadata.parse_resource
  rw [toList_metadataUrl, List.mem_append, toList_metadataPath, List.mem_append] at h
  rcases h with horigin | hseg | hrest
  · right
    rw [hsplits.origin] at horigin
    rw [hsplits.text, ← List.append_assoc]
    exact List.mem_append_left _ horigin
  · exact .inl hseg
  · right
    rw [hsplits.text, List.mem_append, List.mem_append, List.mem_append]
    exact .inr (.inr ((List.rdropWhile_prefix _ _).subset hrest))

/-- The URL of a document is one of its own origin, at its path. -/
theorem parse_metadataUrl (metadata : ProtectedResourceMetadata) :
    ParsedResource.parse metadata.metadataUrl =
      some { metadata.parsed with path := metadata.metadataPath } := by
  obtain ⟨schemeText, hsplits⟩ := ParsedResource.splits_of_parse metadata.parse_resource
  have hwell : ∀ c ∈ WELL_KNOWN_PROTECTED_RESOURCE.toList,
      c ≠ '?' ∧ c ≠ '#' ∧ Text.isWhitespace c = false := by decide
  refine ParsedResource.parse_of_splits (?_ : ParsedResource.Splits _ schemeText _)
  refine ⟨?_, ?_, hsplits.scheme, hsplits.nonempty, hsplits.bare, ?_, hsplits.origin⟩
  · intro c hc
    rcases mem_metadataUrl hc with hseg | hown
    · exact hwell c hseg
    · exact hsplits.clean c hown
  · rw [toList_metadataUrl, hsplits.origin, List.append_assoc]
  · intro c hc
    dsimp only at hc
    rw [toList_metadataPath, List.head?_append] at hc
    have hslash : WELL_KNOWN_PROTECTED_RESOURCE.toList.head? = some '/' := by decide
    rw [hslash] at hc
    exact (Option.some.inj hc).symm

end ProtectedResourceMetadata

namespace ProtectedResourceMetadataSet

/-- What one document does to the paths it is added to. -/
theorem mem_addPath {paths : List String} {path other : String} :
    other ∈ (if paths.contains path then paths else paths ++ [path]) ↔
      other ∈ paths ∨ other = path := by
  split
  · rename_i hmem
    rw [List.contains_iff_mem] at hmem
    constructor
    · exact .inl
    · rintro (h | rfl)
      · exact h
      · exact hmem
  · rw [List.mem_append, List.mem_singleton]

theorem nodup_addPath {paths : List String} {path : String} (h : paths.Nodup) :
    (if paths.contains path then paths else paths ++ [path]).Nodup := by
  split
  · exact h
  · rename_i hnot
    rw [List.contains_iff_mem] at hnot
    rw [List.nodup_append]
    refine ⟨h, List.nodup_singleton path, fun a ha b hb heq => hnot ?_⟩
    rw [← List.mem_singleton.mp hb, ← heq]
    exact ha

theorem pathsOf_spec (documents : List ProtectedResourceMetadata) {paths : List String}
    (h : paths.Nodup) :
    (documents.foldl (fun paths document =>
      if paths.contains document.metadataPath then paths else paths ++ [document.metadataPath])
      paths).Nodup ∧
    ∀ path, path ∈ documents.foldl (fun paths document =>
      if paths.contains document.metadataPath then paths else paths ++ [document.metadataPath])
      paths ↔ path ∈ paths ∨ ∃ document ∈ documents, path = document.metadataPath := by
  induction documents generalizing paths with
  | nil => exact ⟨h, fun path => by simp⟩
  | cons document documents ih =>
    rw [List.foldl_cons]
    have hadded := @nodup_addPath paths document.metadataPath h
    obtain ⟨hnodup, hmem⟩ := ih hadded
    refine ⟨hnodup, fun path => ?_⟩
    rw [hmem path, mem_addPath]
    simp [or_assoc]

end ProtectedResourceMetadataSet

end Tronc.Mcp
