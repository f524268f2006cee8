import Tronc.Library.Splice
import Tronc.Library.Text

namespace Tronc.Secrets

open Splice

/-- What a redacted value is replaced with. -/
def MASK : String := "[REDACTED]"

/-- Values of fewer bytes are never registered. -/
def MIN_SECRET_LEN : Nat := 8

/-- The registered values after `register` of one more: longest first, each once. -/
def register (secrets : List String) (value : String) : List String :=
  let value := Text.trim value
  if value.utf8ByteSize < MIN_SECRET_LEN then secrets
  else if secrets.any (· == value) then secrets
  else (secrets ++ [value]).mergeSort fun a b => b.utf8ByteSize ≤ a.utf8ByteSize

/-- The values registered one after another, from an empty registry. -/
def registered (values : List String) : List String := values.foldl register []

/-- `str::replace` with the mask. -/
def replace (text secret : String) : String :=
  .ofList (splice MASK.toList (occurrence secret.toList) none 0 text.toList)

def BEARER : String := "Bearer "

/-- Every JWT starts with the base64url of `{"`. -/
def JWT_HEAD : String := "eyJ"

/-- What precedes a URL's authority. -/
def SCHEME_END : String := "://"

def isBase64url (c : Char) : Bool := c.isAlphanum || c == '-' || c == '_'

def isCredential (c : Char) : Bool :=
  isBase64url c || c == '.' || c == '~' || c == '+' || c == '/' || c == '='

def isAsciiWhitespace (c : Char) : Bool :=
  c == ' ' || c == '\t' || c == '\n' || c == '\x0c' || c == '\r'

/-- How many leading characters are accepted. -/
def span (accept : Char → Bool) (text : List Char) : Nat := (text.takeWhile accept).length

/-- The length of the JWT a text starts with: three base64url segments joined by dots, the header at
least ten long. -/
def jwtLen (text : List Char) : Option Nat :=
  let header := span isBase64url text
  if header < 10 ∨ text[header]? ≠ some '.' then none
  else
    let payloadStart := header + 1
    let payload := span isBase64url (text.drop payloadStart)
    let signatureDot := payloadStart + payload
    if payload = 0 ∨ text[signatureDot]? ≠ some '.' then none
    else
      let signature := span isBase64url (text.drop (signatureDot + 1))
      if 0 < signature then some (signatureDot + 1 + signature) else none

def isUser (c : Char) : Bool := !(c == ':' || c == '@' || c == '/') && !isAsciiWhitespace c

def isPassword (c : Char) : Bool := !(c == '@' || c == '/') && !isAsciiWhitespace c

/-- Where the password of the userinfo that an authority starts with lies. -/
def userinfoPassword (authority : List Char) : Option (Nat × Nat) :=
  let user := span isUser authority
  if authority[user]? ≠ some ':' then none
  else
    let start := user + 1
    let stop := start + span isPassword (authority.drop start)
    if start < stop ∧ authority[stop]? = some '@' then some (start, stop) else none

/-- The credential that starts a text by its shape: what to mask of it. -/
def tokenShape : Search Char := fun prev text =>
  if BEARER.toList <+: text then
    let start := BEARER.length
    let stop := start + span isCredential (text.drop start)
    if start < stop then some (start, stop) else none
  else if JWT_HEAD.toList <+: text ∧ prev.all (fun c => !isBase64url c) then
    (jwtLen text).map fun len => (0, len)
  else if SCHEME_END.toList <+: text then
    let authority := SCHEME_END.length
    (userinfoPassword (text.drop authority)).map fun s => (authority + s.1, authority + s.2)
  else none

/-- The scan of `mask_token_shapes`. -/
def maskTokens (text : List Char) : List Char := splice MASK.toList tokenShape none 0 text

def maskTokenShapes (text : String) : String :=
  if !Text.contains text BEARER && !Text.contains text JWT_HEAD &&
      !Text.contains text SCHEME_END then text
  else .ofList (maskTokens text.toList)

def redact (secrets : List String) (text : String) : String :=
  let out := secrets.foldl
    (fun out secret => if Text.contains out secret then replace out secret else out) text
  maskTokenShapes out

/-- A value that neither has a bracket nor is part of the mask. -/
structure Plain (value : String) : Prop where
  opening : '[' ∉ value.toList
  closing : ']' ∉ value.toList
  outside : ¬ value.toList <:+: MASK.toList

theorem mem_register {secrets : List String} {value secret : String}
    (h : secret ∈ register secrets value) : secret ∈ secrets ∨
      secret = Text.trim value ∧ MIN_SECRET_LEN ≤ (Text.trim value).utf8ByteSize := by
  unfold register at h
  dsimp only at h
  split at h
  · exact .inl h
  · rename_i hlong
    split at h
    · exact .inl h
    · rcases List.mem_append.mp (List.mem_mergeSort.mp h) with h | h
      · exact .inl h
      · exact .inr ⟨List.mem_singleton.mp h, Nat.not_lt.mp hlong⟩

theorem register_mem {secrets : List String} {value : String}
    (hlong : MIN_SECRET_LEN ≤ (Text.trim value).utf8ByteSize) :
    Text.trim value ∈ register secrets value := by
  unfold register
  dsimp only
  rw [if_neg (Nat.not_lt.mpr hlong)]
  split
  · rename_i hknown
    obtain ⟨known, hmem, heq⟩ := List.any_eq_true.mp hknown
    rw [← eq_of_beq heq]
    exact hmem
  · exact List.mem_mergeSort.mpr (List.mem_append_right _ (.head _))

theorem register_keeps {secrets : List String} {value secret : String} (h : secret ∈ secrets) :
    secret ∈ register secrets value := by
  unfold register
  dsimp only
  split
  · exact h
  · split
    · exact h
    · exact List.mem_mergeSort.mpr (List.mem_append_left _ h)

/-- The registry holds the values long enough, trimmed. -/
theorem mem_registered {values : List String} {secret : String} :
    secret ∈ registered values ↔
      ∃ value ∈ values, secret = Text.trim value ∧ MIN_SECRET_LEN ≤ secret.utf8ByteSize := by
  unfold registered
  suffices h : ∀ secrets, secret ∈ values.foldl register secrets ↔ secret ∈ secrets ∨
      ∃ value ∈ values, secret = Text.trim value ∧ MIN_SECRET_LEN ≤ secret.utf8ByteSize by
    rw [h]
    simp
  induction values with
  | nil => simp
  | cons value values ih =>
    intro secrets
    rw [List.foldl_cons, ih]
    constructor
    · rintro (h | ⟨other, hother, heq⟩)
      · rcases mem_register h with h | ⟨rfl, hlong⟩
        · exact .inl h
        · exact .inr ⟨value, .head _, rfl, hlong⟩
      · exact .inr ⟨other, .tail _ hother, heq⟩
    · rintro (h | ⟨other, hother, rfl, hlong⟩)
      · exact .inl (register_keeps h)
      · rcases List.mem_cons.mp hother with rfl | hother
        · exact .inl (register_mem hlong)
        · exact .inr ⟨other, hother, rfl, hlong⟩

/-- The longest first, and each once. -/
def IsRegistry (secrets : List String) : Prop :=
  secrets.Pairwise (fun a b => b.utf8ByteSize ≤ a.utf8ByteSize) ∧ secrets.Nodup

theorem IsRegistry.register {secrets : List String} (h : IsRegistry secrets) (value : String) :
    IsRegistry (register secrets value) := by
  unfold Secrets.register
  dsimp only
  generalize Text.trim value = trimmed
  split
  · exact h
  · split
    · exact h
    · rename_i hnew
      refine ⟨?_, ?_⟩
      · refine (List.pairwise_mergeSort ?_ ?_ _).imp fun hab => of_decide_eq_true hab
        · intro a b c hab hbc
          exact decide_eq_true ((of_decide_eq_true hbc).trans (of_decide_eq_true hab))
        · intro a b
          simpa using Nat.le_total b.utf8ByteSize a.utf8ByteSize
      · rw [(List.mergeSort_perm _ _).nodup_iff, List.nodup_append]
        refine ⟨h.2, by simp, ?_⟩
        intro a ha b hb heq
        rw [List.mem_singleton] at hb
        subst heq hb
        exact hnew (List.any_eq_true.mpr ⟨_, ha, beq_self_eq_true _⟩)

theorem registered_sorted (values : List String) : IsRegistry (registered values) := by
  unfold registered
  suffices h : ∀ secrets, IsRegistry secrets → IsRegistry (values.foldl Secrets.register secrets) from
    h [] ⟨.nil, .nil⟩
  induction values with
  | nil => exact fun secrets h => h
  | cons value values ih =>
    intro secrets h
    rw [List.foldl_cons]
    exact ih _ (h.register value)

theorem span_le (accept : Char → Bool) (text : List Char) : span accept text ≤ text.length :=
  (List.takeWhile_prefix accept).length_le

theorem jwtLen_sound {text : List Char} {len : Nat} (h : jwtLen text = some len) :
    0 < len ∧ len ≤ text.length := by
  unfold jwtLen at h
  dsimp only at h
  split at h
  · cases h
  · split at h
    · cases h
    · split at h
      · rename_i hsig
        obtain rfl := Option.some.inj h
        have hle := span_le isBase64url
          (text.drop (span isBase64url text + 1 +
            span isBase64url (text.drop (span isBase64url text + 1)) + 1))
        rw [List.length_drop] at hle
        omega
      · cases h

theorem userinfoPassword_sound {authority : List Char} {start stop : Nat}
    (h : userinfoPassword authority = some (start, stop)) :
    start < stop ∧ stop ≤ authority.length := by
  unfold userinfoPassword at h
  dsimp only at h
  split at h
  · cases h
  · split at h
    · rename_i hends
      obtain ⟨rfl, rfl⟩ := Prod.mk.inj (Option.some.inj h)
      refine ⟨hends.1, ?_⟩
      have hlt := (List.getElem?_eq_some_iff.mp hends.2).1
      omega
    · cases h

/-- What is masked of a token is not empty, and within the text. -/
theorem tokenShape_sound : tokenShape.Sound := by
  intro prev text start stop h
  unfold tokenShape at h
  split at h
  · dsimp only at h
    split at h
    · rename_i hlt
      obtain ⟨rfl, rfl⟩ := Prod.mk.inj (Option.some.inj h)
      have hle := span_le isCredential (text.drop BEARER.length)
      rw [List.length_drop] at hle
      omega
    · cases h
  · split at h
    · obtain ⟨len, hlen, heq⟩ := Option.map_eq_some_iff.mp h
      obtain ⟨rfl, rfl⟩ := Prod.mk.inj heq
      exact jwtLen_sound hlen
    · split at h
      · obtain ⟨⟨s, e⟩, hpassword, heq⟩ := Option.map_eq_some_iff.mp h
        obtain ⟨rfl, rfl⟩ := Prod.mk.inj heq
        obtain ⟨hlt, hle⟩ := userinfoPassword_sound hpassword
        rw [List.length_drop] at hle
        dsimp only
        omega
      · cases h

theorem toList_mask : MASK.toList = '[' :: ("REDACTED".toList ++ [']']) := by decide

/-- Putting the mask in place of spans makes no plain value. -/
theorem Plain.of_spliced {value : String} {x y : List Char} (plain : Plain value)
    (h : Spliced MASK.toList x y) (hv : value.toList <:+: y) : value.toList <:+: x := by
  have houtside := plain.outside
  rw [toList_mask] at h houtside
  exact h.inside plain.opening plain.closing houtside hv

theorem Plain.replaced {value : String} (plain : Plain value) (hne : value.toList ≠ [])
    (text : List Char) :
    ¬ value.toList <:+: splice MASK.toList (occurrence value.toList) none 0 text := by
  have houtside := plain.outside
  rw [toList_mask] at houtside ⊢
  exact replace_removes hne plain.opening plain.closing houtside none text

theorem toList_replace (text secret : String) : (replace text secret).toList =
    splice MASK.toList (occurrence secret.toList) none 0 text.toList := String.toList_ofList

/-- One pass of `redact` over the registered values. -/
def replaceEach (secrets : List String) (text : String) : String :=
  secrets.foldl (fun out secret => if Text.contains out secret then replace out secret else out) text

theorem ne_nil_of_size {secret : String} (h : MIN_SECRET_LEN ≤ secret.utf8ByteSize) :
    secret.toList ≠ [] := by
  intro hnil
  rw [String.toList_eq_nil_iff] at hnil
  subst hnil
  exact absurd h (by decide)

/-- A later replacement never makes a plain value. -/
theorem replaceEach_inside {secrets : List String} {value text : String} (plain : Plain value)
    (hlong : ∀ secret ∈ secrets, MIN_SECRET_LEN ≤ secret.utf8ByteSize)
    (h : value.toList <:+: (replaceEach secrets text).toList) : value.toList <:+: text.toList := by
  induction secrets generalizing text with
  | nil => exact h
  | cons secret secrets ih =>
    have hrest := ih (fun s hs => hlong s (.tail _ hs)) h
    dsimp only at hrest
    split at hrest
    · rw [toList_replace] at hrest
      have hsound := occurrence_sound (ne_nil_of_size (hlong secret (.head _)))
      exact plain.of_spliced (splice_spliced hsound none text.toList) hrest
    · exact hrest

/-- No plain value among those registered is left. -/
theorem replaceEach_removes {secrets : List String} {value text : String} (plain : Plain value)
    (hlong : ∀ secret ∈ secrets, MIN_SECRET_LEN ≤ secret.utf8ByteSize) (hmem : value ∈ secrets) :
    ¬ value.toList <:+: (replaceEach secrets text).toList := by
  induction secrets generalizing text with
  | nil => cases hmem
  | cons secret secrets ih =>
    intro h
    have hlater := fun s hs => hlong s (.tail _ hs)
    rcases List.mem_cons.mp hmem with rfl | hmem
    · have hrest := replaceEach_inside plain hlater h
      dsimp only at hrest
      split at hrest
      · rw [toList_replace] at hrest
        exact plain.replaced (ne_nil_of_size (hlong value (.head _))) text.toList hrest
      · rename_i hnot
        exact hnot (Text.contains_iff.mpr hrest)
    · exact ih hlater hmem h

/-- Where no registered value occurs, nothing is replaced. -/
theorem replaceEach_none {secrets : List String} {text : String}
    (h : ∀ secret ∈ secrets, ¬ secret.toList <:+: text.toList) : replaceEach secrets text = text := by
  induction secrets with
  | nil => rfl
  | cons secret secrets ih =>
    have hnot : ¬ Text.contains text secret = true :=
      fun hc => h secret (.head _) (Text.contains_iff.mp hc)
    unfold replaceEach
    rw [List.foldl_cons, if_neg hnot]
    exact ih fun s hs => h s (.tail _ hs)

theorem maskTokenShapes_inside {value text : String} (plain : Plain value)
    (h : value.toList <:+: (maskTokenShapes text).toList) : value.toList <:+: text.toList := by
  unfold maskTokenShapes at h
  split at h
  · exact h
  · rw [String.toList_ofList] at h
    exact plain.of_spliced (splice_spliced tokenShape_sound none text.toList) h

theorem redact_eq (secrets : List String) (text : String) :
    redact secrets text = maskTokenShapes (replaceEach secrets text) := rfl

/-- No plain value among those registered survives. -/
theorem redact_removes {values : List String} {secret : String} (plain : Plain secret)
    (hmem : secret ∈ registered values) (text : String) :
    ¬ secret.toList <:+: (redact (registered values) text).toList := by
  intro h
  rw [redact_eq] at h
  refine replaceEach_removes plain (fun s hs => ?_) hmem (maskTokenShapes_inside plain h)
  obtain ⟨_, _, _, hlong⟩ := mem_registered.mp hs
  exact hlong

end Tronc.Secrets
