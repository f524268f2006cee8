import Mathlib.Data.List.Dedup
import Mathlib.Data.List.AList
import Tronc.Json
import Tronc.Library.Text

namespace Tronc.Mcp

/-- `http::HeaderValue`: any bytes. -/
structure HeaderValue where
  bytes : List UInt8
  deriving DecidableEq

/-- A visible ASCII character, a space or a tab. -/
def isVisibleAscii (b : UInt8) : Bool := (32 ≤ b && b < 127) || b == 9

namespace HeaderValue

/-- `HeaderValue::to_str`. -/
def toStr (value : HeaderValue) : Option String :=
  if value.bytes.all isVisibleAscii then
    some (.ofList (value.bytes.map fun b => Char.ofNat b.toNat))
  else none

/-- A text sent as a header value: its bytes. -/
def ofString (s : String) : HeaderValue := ⟨Text.utf8 s⟩

end HeaderValue

/-- `http::HeaderMap`, in the order it is iterated in. Names are lower-case, and one may occur
more than once. -/
abbrev HeaderMap := List (String × HeaderValue)

namespace HeaderMap

def getAll (headers : HeaderMap) (name : String) : List HeaderValue :=
  (headers.filter fun h => h.1 == name).map Prod.snd

def keys (headers : HeaderMap) : List String := (headers.map Prod.fst).dedup

end HeaderMap

/-- Prefix of the headers that mirror tool arguments. -/
def MCP_PARAM_PREFIX : String := "mcp-param-"

def isParamHeader (name : String) : Bool :=
  (name.toList.take MCP_PARAM_PREFIX.toList.length).map Text.asciiLowerChar ==
    MCP_PARAM_PREFIX.toList

def WITHHELD_HEADERS : List String :=
  ["authorization", "cookie", "proxy-authorization", "x-api-key"]

/-- Parts of a name that mark a header as carrying a credential. -/
def CREDENTIAL_NAME_FRAGMENTS : List String := ["token", "secret", "api-key"]

/-- Whether the header never reaches `JsonRpcRequest.headers`. -/
def isWithheld (name : String) : Bool :=
  WITHHELD_HEADERS.contains name ||
    (!isParamHeader name && CREDENTIAL_NAME_FRAGMENTS.any (Text.contains name))

/-- One header, kept under its name when its value can be read. -/
def forward (forwarded : AList fun _ : String => Json) (h : String × HeaderValue) :
    AList fun _ : String => Json :=
  match h.2.toStr with
  | some value => forwarded.insert h.1 (.string value)
  | none => forwarded

/-- The headers a request carries along: readable ones, credentials left out, the last value of a
repeated one. -/
def forwardedHeaders (headers : HeaderMap) : Option (AList fun _ : String => Json) :=
  let forwarded := (headers.filter fun h => !isWithheld h.1).foldl forward ∅
  if forwarded.entries.isEmpty then none else some forwarded

section Forwarding

variable {headers : HeaderMap} {name : String}

/-- A mirror of an argument is never taken for a credential. -/
theorem isWithheld_param (h : isParamHeader name = true) : isWithheld name = false := by
  unfold isWithheld
  rw [h, Bool.not_true, Bool.false_and, Bool.or_false]
  cases hmem : WITHHELD_HEADERS.contains name with
  | false => rfl
  | true =>
    have hnone : ∀ n ∈ WITHHELD_HEADERS, isParamHeader n = false := by decide
    rw [hnone name (List.contains_iff_mem.mp hmem)] at h
    cases h

theorem getAll_filter_withheld (h : isWithheld name = false) :
    HeaderMap.getAll (headers.filter fun h => !isWithheld h.1) name = headers.getAll name := by
  unfold HeaderMap.getAll
  rw [List.filter_filter]
  congr 2
  funext e
  cases he : e.1 == name with
  | false => rfl
  | true =>
    rw [beq_iff_eq] at he
    rw [he, h]
    rfl

private theorem getAll_cons (e : String × HeaderValue) (headers : HeaderMap) (name : String) :
    HeaderMap.getAll (e :: headers) name =
      if e.1 = name then e.2 :: HeaderMap.getAll headers name
      else HeaderMap.getAll headers name := by
  unfold HeaderMap.getAll
  rw [List.filter_cons]
  by_cases he : e.1 = name <;> simp [he]

/-- What stands under a name once all headers are gone through: its last readable value. -/
theorem lookup_foldl_forward (forwarded : AList fun _ : String => Json) :
    (headers.foldl forward forwarded).lookup name =
      (headers.getAll name).foldl (fun found value => (value.toStr.map Json.string).or found)
        (forwarded.lookup name) := by
  induction headers generalizing forwarded with
  | nil => rfl
  | cons e headers ih =>
    rw [List.foldl_cons, ih, getAll_cons]
    by_cases he : e.1 = name
    · rw [if_pos he, List.foldl_cons]
      congr 1
      subst he
      unfold forward
      cases e.2.toStr with
      | none => rfl
      | some value => exact AList.lookup_insert _
    · rw [if_neg he]
      congr 1
      unfold forward
      cases e.2.toStr with
      | none => rfl
      | some value => exact AList.lookup_insert_ne (fun h => he h.symm)

/-- The one value of a header that is not withheld is found under its name. -/
theorem lookup_forwardedHeaders {forwarded : AList fun _ : String => Json}
    (hf : forwardedHeaders headers = some forwarded) (hw : isWithheld name = false) :
    forwarded.lookup name =
      (headers.getAll name).foldl (fun found value => (value.toStr.map Json.string).or found)
        none := by
  unfold forwardedHeaders at hf
  dsimp only at hf
  split at hf
  · cases hf
  · rw [← Option.some.inj hf, lookup_foldl_forward, getAll_filter_withheld hw]
    rfl

/-- Something is forwarded when a header that is not withheld can be read. -/
theorem forwardedHeaders_isSome {value : HeaderValue} {text : String}
    (hone : headers.getAll name = [value]) (hread : value.toStr = some text)
    (hw : isWithheld name = false) : (forwardedHeaders headers).isSome = true := by
  unfold forwardedHeaders
  dsimp only
  split
  · rename_i hempty
    have hlookup :=
      @lookup_foldl_forward (headers.filter fun h => !isWithheld h.1) name ∅
    rw [getAll_filter_withheld hw, hone, List.foldl_cons, List.foldl_nil, hread] at hlookup
    have hnone (kept : AList fun _ : String => Json) (h : kept.entries.isEmpty = true) :
        kept.lookup name = none := by
      unfold AList.lookup
      rw [List.isEmpty_iff.mp h]
      rfl
    rw [hnone _ hempty] at hlookup
    cases hlookup
  · rfl

end Forwarding

end Tronc.Mcp
