import Mathlib.Data.List.Forall2
import Tronc.Library.AuthParams

namespace Tronc.Mcp

open AuthParams

/-- An error code of a `Bearer` challenge. -/
inductive BearerError where
  | invalidRequest
  | invalidToken
  | insufficientScope
  deriving DecidableEq, Repr

def BearerError.asStr : BearerError → String
  | invalidRequest => "invalid_request"
  | invalidToken => "invalid_token"
  | insufficientScope => "insufficient_scope"

theorem BearerError.asStr_injective : Function.Injective BearerError.asStr := by
  intro a b h
  cases a <;> cases b <;> first | rfl | exact absurd h (by decide)

/-- The `Bearer` challenge of a refused request. -/
structure BearerChallenge where
  resourceMetadata : String
  error : Option BearerError
  scope : Option String
  deriving DecidableEq, Repr

/-- What is written for a character of a quoted value. -/
def writeChar (c : Char) : List Char := if c = '"' ∨ c = '\\' then ['\\', c] else [c]

def writeQuoted (value : String) : String :=
  "\"" ++ .ofList (value.toList.flatMap writeChar) ++ "\""

namespace BearerChallenge

def new (resourceMetadata : String) : BearerChallenge := ⟨resourceMetadata, none, none⟩

def withError (c : BearerChallenge) (error : BearerError) : BearerChallenge :=
  { c with error := some error }

def withScope (c : BearerChallenge) (scope : String) : BearerChallenge :=
  { c with scope := some scope }

def invalidToken (c : BearerChallenge) : BearerChallenge := c.withError .invalidToken

def insufficientScope (c : BearerChallenge) (scope : String) : BearerChallenge :=
  (c.withError .insufficientScope).withScope scope

/-- The `Display` of a challenge. -/
def display (c : BearerChallenge) : String :=
  "Bearer resource_metadata=" ++ writeQuoted c.resourceMetadata ++
    (match c.error with
    | some error => ", error=" ++ writeQuoted error.asStr
    | none => "") ++
    match c.scope with
    | some scope => ", scope=" ++ writeQuoted scope
    | none => ""

/-- The parameters that were set, in the order they are written. -/
def params (c : BearerChallenge) : List Param :=
  ⟨"resource_metadata", c.resourceMetadata⟩ ::
    ((c.error.map fun error => ⟨"error", error.asStr⟩).toList ++
      (c.scope.map fun scope => ⟨"scope", scope⟩).toList)

/-- One challenge, its scheme before its first parameter. -/
def items (c : BearerChallenge) : List Item :=
  match c.params with
  | [] => []
  | p :: rest => ⟨some "Bearer", p⟩ :: rest.map (⟨none, ·⟩)

variable (c : BearerChallenge)

/-- Different challenges set different parameters. -/
theorem params_injective : Function.Injective params := by
  rintro ⟨url, error, scope⟩ ⟨url', error', scope'⟩ h
  obtain ⟨hurl, hrest⟩ := List.cons.inj h
  obtain rfl : url = url' := congrArg Param.value hurl
  cases error with
  | none =>
    cases error' with
    | none =>
      cases scope <;> cases scope' <;> simp_all
    | some error' =>
      cases scope <;> simp at hrest
  | some error =>
    cases error' with
    | none => cases scope' <;> simp at hrest
    | some error' =>
      obtain ⟨herror, hscope⟩ := List.cons.inj hrest
      obtain rfl := BearerError.asStr_injective (congrArg Param.value herror)
      cases scope <;> cases scope' <;> simp_all

theorem escapes_writeChar : Escapes writeChar := by
  intro c
  unfold writeChar
  split
  · exact .inl rfl
  · rename_i h
    exact .inr ⟨rfl, fun hc => h (.inl hc), fun hc => h (.inr hc)⟩

theorem isToken_params : ∀ p ∈ c.params, IsToken p.name := by
  have hmetadata : IsToken "resource_metadata" := by decide
  have herror : IsToken "error" := by decide
  have hscope : IsToken "scope" := by decide
  intro p hp
  rcases List.mem_cons.mp hp with rfl | hp
  · exact hmetadata
  · rcases List.mem_append.mp hp with hp | hp
    · obtain ⟨error, -, rfl⟩ := Option.map_eq_some_iff.mp (Option.mem_toList.mp hp)
      exact herror
    · obtain ⟨scope, -, rfl⟩ := Option.map_eq_some_iff.mp (Option.mem_toList.mp hp)
      exact hscope

theorem writeParam_writeChar (name value : String) :
    writeParam writeChar ⟨name, value⟩ = name.toList ++ '=' :: (writeQuoted value).toList := by
  simp only [writeParam, writeQuoted, String.toList_append, String.toList_ofList]
  rfl

theorem toList_metadata : "Bearer resource_metadata=".toList =
    "Bearer ".toList ++ ("resource_metadata".toList ++ ['=']) := rfl

theorem toList_error (error : Option BearerError) :
    (match error with
      | some error => ", error=" ++ writeQuoted error.asStr
      | none => "").toList =
      ((error.map fun error => Param.mk "error" error.asStr).toList.map
        (writeParam writeChar)).flatMap ([',', ' '] ++ ·) := by
  cases error with
  | none => rfl
  | some error =>
    have hname : ", error=".toList = [',', ' '] ++ ("error".toList ++ ['=']) := rfl
    rw [String.toList_append, hname]
    simp [writeParam_writeChar]

theorem toList_scope (scope : Option String) :
    (match scope with
      | some scope => ", scope=" ++ writeQuoted scope
      | none => "").toList =
      ((scope.map fun scope => Param.mk "scope" scope).toList.map
        (writeParam writeChar)).flatMap ([',', ' '] ++ ·) := by
  cases scope with
  | none => rfl
  | some scope =>
    have hname : ", scope=".toList = [',', ' '] ++ ("scope".toList ++ ['=']) := rfl
    rw [String.toList_append, hname]
    simp [writeParam_writeChar]

/-- After the scheme, the parameters are written with `", "` between. -/
theorem toList_display :
    c.display.toList = "Bearer ".toList ++
      [',', ' '].intercalate (c.params.map (writeParam writeChar)) := by
  unfold display params
  rw [List.map_cons, List.map_append, intercalate_cons, List.flatMap_append, ← toList_error,
    ← toList_scope, writeParam_writeChar, String.toList_append, String.toList_append,
    String.toList_append, toList_metadata]
  simp only [List.append_assoc, List.singleton_append]

theorem reads_params :
    List.Forall₂ (Reads readParam) (c.params.map (writeParam writeChar)) c.params := by
  rw [List.forall₂_map_left_iff, List.forall₂_same]
  exact fun p hp => reads_param escapes_writeChar (c.isToken_params p hp)

/-- The scheme stands before the first parameter and before no other. -/
theorem reads_items {p : Param} {rest : List Param} (h : c.params = p :: rest) :
    List.Forall₂ (Reads readItem)
      (("Bearer".toList ++ ' ' :: writeParam writeChar p) :: rest.map (writeParam writeChar))
      c.items := by
  have hbearer : IsToken "Bearer" := by decide
  have hnames := c.isToken_params
  rw [h] at hnames
  obtain ⟨hp, hrest⟩ := List.forall_mem_cons.mp hnames
  unfold items
  rw [h]
  refine .cons (reads_scheme escapes_writeChar hbearer hp) ?_
  rw [List.forall₂_map_left_iff, List.forall₂_map_right_iff, List.forall₂_same]
  exact fun q hq => reads_further escapes_writeChar (hrest q hq)

/-- The text of a challenge reads as exactly the parameters that were set, of one challenge, and no
other challenge has it. -/
theorem display_reads :
    (∃ text, c.display.toList = "Bearer ".toList ++ text ∧ readAll readParam text = some c.params) ∧
      readAll readItem c.display.toList = some c.items ∧
      ∀ c' : BearerChallenge, c'.display = c.display → c' = c := by
  have hreads (c : BearerChallenge) :
      readAll readParam ([',', ' '].intercalate (c.params.map (writeParam writeChar))) =
        some c.params :=
    readAll_intercalate c.reads_params fun h => nomatch List.map_eq_nil_iff.mp h
  refine ⟨⟨_, c.toList_display, hreads c⟩, ?_, fun c' h => params_injective ?_⟩
  · obtain ⟨p, rest, hparams⟩ : ∃ p rest, c.params = p :: rest := ⟨_, _, rfl⟩
    have htext : c.display.toList = [',', ' '].intercalate
        (("Bearer".toList ++ ' ' :: writeParam writeChar p) ::
          rest.map (writeParam writeChar)) := by
      rw [c.toList_display, hparams, List.map_cons]
      cases rest <;> simp [List.intercalate_cons_cons]
    rw [htext]
    exact readAll_intercalate (c.reads_items hparams) (List.cons_ne_nil _ _)
  · have htexts := congrArg String.toList h
    rw [toList_display, toList_display] at htexts
    have hparams := congrArg (readAll readParam) (List.append_cancel_left htexts)
    rw [hreads, hreads] at hparams
    exact Option.some.inj hparams

end BearerChallenge

end Tronc.Mcp
