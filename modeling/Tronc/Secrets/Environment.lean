import Tronc.Secrets.Redact

namespace Tronc.Secrets

def SECRET_NAME_SUFFIXES : List String :=
  ["_TOKEN", "_SECRET", "_PASSWORD", "_API_KEY", "_KEY", "_PAT", "_CREDENTIALS", "_DSN"]

/-- After a credential word, these make a variable one that describes the credential. -/
def NON_SECRET_QUALIFIERS : List String :=
  ["COUNT", "DAYS", "DIR", "ENABLED", "EXPIRY", "FILE", "HEADER", "HOURS", "ID", "LEN", "LENGTH",
    "LIFETIME", "LIMIT", "MAX", "MIN", "MINUTES", "MS", "NAME", "PATH", "PREFIX", "SECS",
    "SECONDS", "SIZE", "STEP", "TIMEOUT", "TTL", "URL"]

def asciiUpperChar (c : Char) : Char :=
  if 'a' ≤ c ∧ c ≤ 'z' then .ofNat (c.toNat - 32) else c

def segments (text : List Char) : List String := (text.splitOn '_').map .ofList

/-- The segments of a credential word. -/
def wordOf (suffix : String) : List String := segments (suffix.toList.dropWhile (· == '_'))

/-- The slices of a length, from the first on. -/
def windows (n : Nat) (xs : List String) : List (List String) :=
  (List.range (xs.length + 1 - n)).map fun start => (xs.drop start).take n

def holdsWord (segments word : List String) : Bool :=
  (windows word.length segments).zipIdx.any fun (window, start) =>
    window == word && !(segments.drop (start + word.length)).any NON_SECRET_QUALIFIERS.contains

def isSecretName (name : String) : Bool :=
  let segments := segments (name.toList.map asciiUpperChar)
  SECRET_NAME_SUFFIXES.any fun suffix => holdsWord segments (wordOf suffix)

/-- A variable's name and value, each where it is UTF-8. -/
abbrev Variable := Option String × Option String

/-- One turn of `register_env`: the registry, and how many names matched so far. -/
def registerVar (sofar : List String × Nat) : Variable → List String × Nat
  | (some name, some value) =>
    if isSecretName name then (register sofar.1 value, sofar.2 + 1) else sofar
  | (none, _) | (some _, none) => sofar

def registerEnv (secrets : List String) (vars : List Variable) : List String × Nat :=
  vars.foldl registerVar (secrets, 0)

/-- `RedactingWriter::write`, on one buffer; `lossy` reads what is not UTF-8. What `redact` borrows
is written as it came. -/
def writeRedacted (lossy : List UInt8 → String) (secrets : List String) (buf : List UInt8) :
    List UInt8 :=
  match Text.fromUtf8 buf with
  | some text => Text.utf8 (redact secrets text)
  | none => Text.utf8 (redact secrets (lossy buf))

section Names

/-- What a segment says that holds a credential. -/
def CREDENTIAL_WORDS : List String :=
  ["TOKEN", "SECRET", "PASSWORD", "KEY", "PAT", "CREDENTIALS", "DSN"]

/-- One of the segments is a credential word, and no later one makes the name a description. -/
def IsCredential (name : String) : Prop :=
  ∃ before word after, segments (name.toList.map asciiUpperChar) = before ++ word :: after ∧
    word ∈ CREDENTIAL_WORDS ∧ ∀ later ∈ after, later ∉ NON_SECRET_QUALIFIERS

theorem mem_windows {n start : Nat} {xs window : List String} :
    (window, start) ∈ (windows n xs).zipIdx ↔
      start + n < xs.length + 1 ∧ window = (xs.drop start).take n := by
  rw [List.mem_zipIdx_iff_getElem?]
  unfold windows
  rw [List.getElem?_map, Option.map_eq_some_iff]
  constructor
  · rintro ⟨k, hk, hwindow⟩
    obtain ⟨hlt, hstart⟩ := List.getElem?_eq_some_iff.mp hk
    rw [List.length_range] at hlt
    rw [List.getElem_range] at hstart
    subst hstart
    exact ⟨by omega, hwindow.symm⟩
  · rintro ⟨hlt, rfl⟩
    exact ⟨start, List.getElem?_range (by omega), rfl⟩

theorem holdsWord_iff {segments word : List String} : holdsWord segments word = true ↔
    ∃ before after, segments = before ++ (word ++ after) ∧
      ∀ later ∈ after, later ∉ NON_SECRET_QUALIFIERS := by
  unfold holdsWord
  rw [List.any_eq_true]
  constructor
  · rintro ⟨⟨window, start⟩, hmem, hboth⟩
    obtain ⟨hlt, rfl⟩ := mem_windows.mp hmem
    obtain ⟨hword, hlater⟩ := Bool.and_eq_true_iff.mp hboth
    refine ⟨segments.take start, segments.drop (start + word.length), ?_, ?_⟩
    · have hrest : segments.drop start = word ++ segments.drop (start + word.length) := by
        conv_lhs => rw [← List.take_append_drop word.length (segments.drop start)]
        rw [eq_of_beq hword, List.drop_drop]
      rw [← hrest, List.take_append_drop]
    · intro later hmem hqualifier
      rw [Bool.not_eq_true', List.any_eq_false] at hlater
      exact hlater later hmem (List.contains_iff_mem.mpr hqualifier)
  · rintro ⟨before, after, rfl, hlater⟩
    refine ⟨(word, before.length), mem_windows.mpr ⟨?_, ?_⟩, ?_⟩
    · simp only [List.length_append]
      omega
    · rw [List.drop_left, List.take_left]
    · have hafter : (before ++ (word ++ after)).drop (before.length + word.length) = after := by
        rw [← List.drop_drop, List.drop_left, List.drop_left]
      dsimp only
      rw [hafter, beq_self_eq_true, Bool.true_and, Bool.not_eq_true', List.any_eq_false]
      intro later hmem hqualifier
      exact hlater later hmem (List.contains_iff_mem.mp hqualifier)

theorem words_eq : SECRET_NAME_SUFFIXES.map wordOf = [["TOKEN"], ["SECRET"], ["PASSWORD"],
    ["API", "KEY"], ["KEY"], ["PAT"], ["CREDENTIALS"], ["DSN"]] := by decide +kernel

/-- The one word of two segments is a credential by its second alone. -/
theorem isSecretName_iff {name : String} : isSecretName name = true ↔ IsCredential name := by
  have hwords : isSecretName name =
      (SECRET_NAME_SUFFIXES.map wordOf).any
        (holdsWord (segments (name.toList.map asciiUpperChar))) := by
    rw [List.any_map]
    rfl
  rw [hwords, words_eq, List.any_eq_true]
  unfold IsCredential
  constructor
  · rintro ⟨word, hword, hholds⟩
    obtain ⟨before, after, hsegments, hlater⟩ := holdsWord_iff.mp hholds
    by_cases htwo : word = ["API", "KEY"]
    · subst htwo
      refine ⟨before ++ ["API"], "KEY", after, ?_, by decide, hlater⟩
      rw [hsegments, List.append_assoc]
      rfl
    · obtain ⟨single, rfl, hsingle⟩ : ∃ single, word = [single] ∧ single ∈ CREDENTIAL_WORDS := by
        simp only [List.mem_cons, List.not_mem_nil, or_false] at hword
        rcases hword with rfl | rfl | rfl | rfl | rfl | rfl | rfl | rfl
        all_goals first | exact absurd rfl htwo | exact ⟨_, rfl, by decide⟩
      exact ⟨before, single, after, hsegments, hsingle, hlater⟩
  · rintro ⟨before, word, after, hsegments, hword, hlater⟩
    refine ⟨[word], ?_, holdsWord_iff.mpr ⟨before, after, hsegments, hlater⟩⟩
    simp only [CREDENTIAL_WORDS, List.mem_cons, List.not_mem_nil, or_false] at hword
    rcases hword with rfl | rfl | rfl | rfl | rfl | rfl | rfl
    all_goals decide

example : isSecretName "strava_api_key_2" = true ∧ isSecretName "TOKEN_TTL" = false := by
  decide +kernel

end Names

section Registered

/-- The value of a variable that is a credential. -/
def credentialOf : Variable → Option String
  | (some name, some value) => if isSecretName name then some value else none
  | (none, _) | (some _, none) => none

theorem credentialOf_eq_some {v : Variable} {value : String} :
    credentialOf v = some value ↔ ∃ name, v = (some name, some value) ∧ IsCredential name := by
  obtain ⟨name | name, other | other⟩ := v
  · simp [credentialOf]
  · simp [credentialOf]
  · simp [credentialOf]
  · have hgiven : credentialOf (some name, some other) =
        if isSecretName name then some other else none := rfl
    rw [hgiven]
    by_cases hname : isSecretName name = true
    · rw [if_pos hname, Option.some.injEq]
      constructor
      · rintro rfl
        exact ⟨name, rfl, isSecretName_iff.mp hname⟩
      · rintro ⟨_, heq, _⟩
        exact Option.some.inj (Prod.mk.inj heq).2
    · rw [if_neg hname]
      refine iff_of_false (fun h => nomatch h) ?_
      rintro ⟨_, heq, hcredential⟩
      obtain rfl := Option.some.inj (Prod.mk.inj heq).1
      exact hname (isSecretName_iff.mpr hcredential)

theorem registerVar_eq (sofar : List String × Nat) (v : Variable) : registerVar sofar v =
    match credentialOf v with
    | some value => (register sofar.1 value, sofar.2 + 1)
    | none => sofar := by
  obtain ⟨name | name, other | other⟩ := v
  · rfl
  · rfl
  · rfl
  · unfold registerVar credentialOf
    dsimp only
    split <;> rfl

/-- The credentials among the variables are registered, in their order, and counted. -/
theorem registerEnv_eq (secrets : List String) (vars : List Variable) : registerEnv secrets vars =
    ((vars.filterMap credentialOf).foldl register secrets, (vars.filterMap credentialOf).length) := by
  unfold registerEnv
  suffices h : ∀ matched, vars.foldl registerVar (secrets, matched) =
      ((vars.filterMap credentialOf).foldl register secrets,
        matched + (vars.filterMap credentialOf).length) by
    rw [h, Nat.zero_add]
  induction vars generalizing secrets with
  | nil => exact fun _ => rfl
  | cons v vars ih =>
    intro matched
    rw [List.foldl_cons, registerVar_eq, List.filterMap_cons]
    cases credentialOf v with
    | none => exact ih secrets matched
    | some value =>
      dsimp only
      rw [ih, List.foldl_cons, List.length_cons, Nat.add_assoc, Nat.add_comm 1]

theorem writeRedacted_eq (lossy : List UInt8 → String) (secrets : List String) (buf : List UInt8) :
    ∃ text, writeRedacted lossy secrets buf = Text.utf8 (redact secrets text) := by
  unfold writeRedacted
  split
  · exact ⟨_, rfl⟩
  · exact ⟨_, rfl⟩

/-- Whatever is registered before and after, `register_env` registers the values of the credentials
among the variables, counts these, and no other value; and what is written from then on, whatever it
is, holds none of them that is plain and long enough. -/
theorem environment_hidden (before after : List String) (vars : List Variable)
    (lossy : List UInt8 → String) (buf : List UInt8) :
    let registry := registerEnv (registered before) vars
    (∀ secret, secret ∈ registry.1 ↔ secret ∈ registered before ∨
      ∃ name value, (some name, some value) ∈ vars ∧ IsCredential name ∧
        secret = Text.trim value ∧ MIN_SECRET_LEN ≤ secret.utf8ByteSize) ∧
    registry.2 = (vars.filterMap credentialOf).length ∧
    ∃ out, writeRedacted lossy (after.foldl register registry.1) buf = Text.utf8 out ∧
      ∀ name value, (some name, some value) ∈ vars → IsCredential name →
        MIN_SECRET_LEN ≤ (Text.trim value).utf8ByteSize → Plain (Text.trim value) →
        Text.contains out (Text.trim value) = false := by
  intro registry
  have hregistry : registry.1 = registered (before ++ vars.filterMap credentialOf) := by
    show (registerEnv (registered before) vars).1 = _
    rw [registerEnv_eq]
    exact List.foldl_append.symm
  have hafter : after.foldl register registry.1 =
      registered (before ++ vars.filterMap credentialOf ++ after) := by
    rw [hregistry]
    exact List.foldl_append.symm
  have hvalue (value : String) : value ∈ vars.filterMap credentialOf ↔
      ∃ name, (some name, some value) ∈ vars ∧ IsCredential name := by
    rw [List.mem_filterMap]
    constructor
    · rintro ⟨v, hv, heq⟩
      obtain ⟨name, rfl, hname⟩ := credentialOf_eq_some.mp heq
      exact ⟨name, hv, hname⟩
    · rintro ⟨name, hv, hname⟩
      exact ⟨_, hv, credentialOf_eq_some.mpr ⟨name, rfl, hname⟩⟩
  refine ⟨?_, ?_, ?_⟩
  · intro secret
    rw [hregistry, mem_registered, mem_registered]
    constructor
    · rintro ⟨value, hmem, heq⟩
      rcases List.mem_append.mp hmem with hmem | hmem
      · exact .inl ⟨value, hmem, heq⟩
      · obtain ⟨name, hv, hname⟩ := (hvalue value).mp hmem
        exact .inr ⟨name, value, hv, hname, heq⟩
    · rintro (⟨value, hmem, heq⟩ | ⟨name, value, hv, hname, heq⟩)
      · exact ⟨value, List.mem_append_left _ hmem, heq⟩
      · exact ⟨value, List.mem_append_right _ ((hvalue value).mpr ⟨name, hv, hname⟩), heq⟩
  · show (registerEnv (registered before) vars).2 = _
    rw [registerEnv_eq]
  · obtain ⟨text, hwritten⟩ := writeRedacted_eq lossy (after.foldl register registry.1) buf
    refine ⟨_, hwritten, ?_⟩
    intro name value hv hname hlong plain
    have hmem : value ∈ before ++ vars.filterMap credentialOf ++ after :=
      List.mem_append_left _ (List.mem_append_right _ ((hvalue value).mpr ⟨name, hv, hname⟩))
    rw [hafter, Bool.eq_false_iff]
    intro hcontains
    exact redact_removes plain (mem_registered.mpr ⟨value, hmem, rfl, hlong⟩) text
      (Text.contains_iff.mp hcontains)

end Registered

end Tronc.Secrets
