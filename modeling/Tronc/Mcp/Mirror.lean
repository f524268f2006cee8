import Tronc.Library.Base64
import Tronc.Mcp.Headers
import Tronc.Mcp.Protocol

namespace Tronc.Mcp

def MCP_METHOD_HEADER : String := "mcp-method"

def MCP_NAME_HEADER : String := "mcp-name"

/-- The schema keyword that names the header a property mirrors into. -/
def X_MCP_HEADER : String := "x-mcp-header"

def BASE64_PREFIX : String := "=?base64?"

def BASE64_SUFFIX : String := "?="

/-- 2^53 - 1, as a double. -/
def MAX_SAFE_INTEGER : Binary64 := .ofInt 9007199254740991

/-- What the code takes from its crates: the standard engine of `base64`, and the text of a double
in `serde_json`. -/
structure Crates where
  base64 : Base64.Engine
  floatText : Binary64 → String

/-- The field of `params` that `Mcp-Name` mirrors. -/
def mirroredNameField (method : String) : Option String :=
  if method = "resources/read" then some "uri"
  else if method = "tools/call" ∨ method = "prompts/get" then some "name"
  else none

section Values

variable (crates : Crates)

/-- The value a mirror's text stands for. -/
def decodeHeaderValue (raw : String) : Except String String :=
  let trimmed := Text.trim raw
  match (Text.stripPrefix trimmed BASE64_PREFIX).bind (Text.stripSuffix · BASE64_SUFFIX) with
  | none => .ok trimmed
  | some payload =>
    match crates.base64.decode payload with
    | none => .error "invalid Base64 encoding"
    | some bytes =>
      match Text.fromUtf8 bytes with
      | none => .error "Base64 payload is not UTF-8"
      | some text => .ok text

/-- A horizontal tab, a space or a visible ASCII character, and nothing else. -/
def isPermittedFieldValue (value : List UInt8) : Bool :=
  value.all fun b => b == 9 || (0x20 ≤ b && b ≤ 0x7E)

/-- The text that a mirror of the value carries. -/
def encodeHeaderValue (value : String) : String :=
  if isPermittedFieldValue (Text.utf8 value) && Text.trim value == value then value
  else BASE64_PREFIX ++ crates.base64.encode (Text.utf8 value) ++ BASE64_SUFFIX

end Values

def repeatedReason (name : String) : String := "Header mismatch: " ++ name ++ " is repeated"

def charactersReason (name : String) : String :=
  "Header mismatch: " ++ name ++ " contains characters not permitted in an HTTP field value"

/-- The one value of a header, as text. -/
def singleHeader (headers : HeaderMap) (name : String) : Except String (Option String) :=
  match headers.getAll name with
  | [] => .ok none
  | [value] =>
    match value.toStr with
    | some text => .ok (some text)
    | none => .error (charactersReason name)
  | _ => .error (repeatedReason name)

/-- The wire form of one `Mcp-Param-*` header. -/
def checkParamWire (headers : HeaderMap) (name : String) : Except String Unit :=
  if !isParamHeader name then .ok ()
  else if 1 < (headers.getAll name).length then .error (repeatedReason name)
  else if (headers.getAll name).any fun value => !isPermittedFieldValue value.bytes then
    .error (charactersReason name)
  else .ok ()

def checkMethodMirror (headers : HeaderMap) (method : String) (required : Bool) :
    Except String Unit := do
  match ← singleHeader headers MCP_METHOD_HEADER with
  | some text =>
    if Text.trim text ≠ method then
      .error ("Header mismatch: Mcp-Method header value '" ++ Text.trim text ++
        "' does not match body method '" ++ method ++ "'")
    else .ok ()
  | none =>
    if required then .error "Header mismatch: Mcp-Method is required and must mirror body method"
    else .ok ()

def checkNameMirror (crates : Crates) (headers : HeaderMap) (request : JsonRpcRequest)
    (required : Bool) : Except String Unit := do
  let nameHeader ← singleHeader headers MCP_NAME_HEADER
  match mirroredNameField request.method with
  -- a method that addresses no target has nothing for the header to name
  | none => .ok ()
  | some field =>
    let bodyName := (request.params.bind fun p => p.get field).bind Json.asStr
    match nameHeader with
    | some raw =>
      let decoded := (decodeHeaderValue crates raw).toOption
      if decoded ≠ bodyName ∨ bodyName = none then
        .error ("Header mismatch: Mcp-Name header value '" ++ decoded.getD (Text.trim raw) ++
          "' does not match body value '" ++ bodyName.getD "" ++ "'")
      else .ok ()
    | none =>
      if required then
        .error ("Header mismatch: Mcp-Name is required for method '" ++ request.method ++ "'")
      else .ok ()

/-- The mirrors a request's headers carry, held to its body. A modern request must carry those of
its method and of its target. -/
def checkStandardHeaders (crates : Crates) (headers : HeaderMap) (request : JsonRpcRequest)
    (modern : Bool) : Except String Unit := do
  let required := modern && request.id.isSome
  headers.keys.forM (checkParamWire headers)
  checkMethodMirror headers request.method required
  checkNameMirror crates headers request required

/-- An argument that a schema asks to be mirrored: the header, and the way to the argument. -/
structure MirroredArgument where
  header : String
  path : List String
  deriving DecidableEq

/-- The header that a property's annotation names. -/
def annotation (property : Json) (path : List String) : List MirroredArgument :=
  match (property.get X_MCP_HEADER).bind Json.asStr with
  | some name => [⟨MCP_PARAM_PREFIX ++ Text.asciiLower name, path⟩]
  | none => []

mutual

/-- The annotations below a schema, through `properties` alone. -/
def walk : Json → List String → List MirroredArgument
  | .object fields, path => walkFields fields path
  | .null, _ | .bool _, _ | .number _, _ | .string _, _ | .array _, _ => []

/-- The members of a schema up to `properties`. -/
def walkFields : List (String × Json) → List String → List MirroredArgument
  | [], _ => []
  | (key, value) :: rest, path =>
    if "properties" = key then walkProperties value path else walkFields rest path

def walkProperties : Json → List String → List MirroredArgument
  | .object properties, path => walkEach properties path
  | .null, _ | .bool _, _ | .number _, _ | .string _, _ | .array _, _ => []

def walkEach : List (String × Json) → List String → List MirroredArgument
  | [], _ => []
  | (key, property) :: rest, path =>
    annotation property (path ++ [key]) ++ walk property (path ++ [key]) ++ walkEach rest path

end

def mirroredArguments (schema : Json) : List MirroredArgument := walk schema []

/-- `Number::to_string`. -/
def numberText (crates : Crates) : Number → String
  | .posInt n => toString n.toNat
  | .negInt i => toString i.1.toInt
  | .float x => crates.floatText x.1

/-- What a value appears as in its header, if any header can carry it. -/
def mirrorable (crates : Crates) : Option Json → Option String
  | some (.string s) => some s
  | some (.bool b) => some (if b then "true" else "false")
  | some (.number n) => some (numberText crates n)
  | _ => none

/-- Whether a header's text mirrors a value. Doubles are compared by `total_cmp`: it takes no two
bit patterns for equal. -/
def mirrors (body : Json) (bodyText header : String) : Bool :=
  match body.asF64 with
  | none => header == bodyText
  | some number => (Binary64.parse header).any fun parsed => parsed == number

/-- Whether a double is past what a header may carry. -/
def isUnsafe (number : Binary64) : Bool :=
  !number.isFinite || decide (MAX_SAFE_INTEGER.magnitude < number.magnitude)

def carriesParamHeader (headers : AList fun _ : String => Json) : Bool :=
  headers.entries.any fun e => isParamHeader e.1

/-- One argument's header, held to the argument. -/
def checkArgument (crates : Crates) (arguments : Option Json)
    (headers : AList fun _ : String => Json) (modern : Bool) (argument : MirroredArgument) :
    Except String Unit :=
  let body := arguments.bind fun arguments => arguments.valueAt argument.path
  let header := (headers.lookup argument.header).bind Json.asStr
  match header, body, mirrorable crates body with
  | none, _, some _ =>
    if modern then
      .error ("Header mismatch: " ++ argument.header ++
        " is required because body arguments contains '" ++ ".".intercalate argument.path ++ "'")
    else .ok ()
  | some _, _, none =>
    .error ("Header mismatch: " ++ argument.header ++
      " is present but body has no matching value")
  | some raw, some body, some bodyText =>
    if body.asF64.any isUnsafe then
      .error ("Header mismatch: " ++ argument.header ++ " value '" ++ bodyText ++
        "' is outside the safe integer range and cannot be mirrored")
    else
      match decodeHeaderValue crates raw with
      | .error reason => .error ("Header mismatch: " ++ argument.header ++ " has " ++ reason)
      | .ok decoded =>
        if mirrors body bodyText decoded then .ok ()
        else
          .error ("Header mismatch: " ++ argument.header ++ " header value '" ++ decoded ++
            "' does not match body value '" ++ bodyText ++ "'")
  | _, _, _ => .ok ()

/-- The `Mcp-Param-*` headers of a call, held to the arguments its tool's schema annotates. -/
def checkParamHeaders (crates : Crates) (inputSchema : Json) (arguments : Option Json)
    (headers : AList fun _ : String => Json) (modern : Bool) : Except String Unit :=
  (mirroredArguments inputSchema).forM (checkArgument crates arguments headers modern)

section Specs

variable {crates : Crates} {headers : HeaderMap} {request : JsonRpcRequest} {required : Bool}

theorem bind_eq_ok {ε α β : Type} {x : Except ε α} {f : α → Except ε β} {b : β} :
    (x >>= f) = .ok b ↔ ∃ a, x = .ok a ∧ f a = .ok b := by
  cases x with
  | error e =>
    refine iff_of_false (by intro h; cases h) ?_
    rintro ⟨a, ha, _⟩
    cases ha
  | ok a =>
    constructor
    · exact fun h => ⟨a, rfl, h⟩
    · rintro ⟨a', ha, h⟩
      obtain rfl := Except.ok.inj ha
      exact h

/-- A loop that stops at the first error passes when every step does. -/
theorem forM_eq_ok {ε α : Type} {f : α → Except ε Unit} {l : List α} :
    l.forM f = .ok () ↔ ∀ a ∈ l, f a = .ok () := by
  induction l with
  | nil => simp [pure, Except.pure]
  | cons a l ih =>
    change (f a >>= fun _ => l.forM f) = .ok () ↔ _
    rw [bind_eq_ok, List.forall_mem_cons, ← ih]
    constructor
    · rintro ⟨_, ha, hl⟩
      exact ⟨ha, hl⟩
    · rintro ⟨ha, hl⟩
      exact ⟨(), ha, hl⟩

theorem singleHeader_eq_ok {name : String} {text : Option String} :
    singleHeader headers name = .ok text ↔
      headers.getAll name = [] ∧ text = none ∨
      ∃ value read, headers.getAll name = [value] ∧ value.toStr = some read ∧ text = some read := by
  unfold singleHeader
  split
  · rename_i hnone
    rw [hnone]
    constructor
    · intro h
      exact .inl ⟨rfl, (Except.ok.inj h).symm⟩
    · rintro (⟨_, rfl⟩ | ⟨value, read, hone, _⟩)
      · rfl
      · simp at hone
  · rename_i value hone
    rw [hone]
    cases hread : value.toStr with
    | none =>
      refine iff_of_false (by intro h; cases h) ?_
      rintro (⟨hnil, _⟩ | ⟨value', read, hsame, hr, _⟩)
      · simp at hnil
      · obtain rfl := List.singleton_inj.mp hsame
        rw [hread] at hr
        simp at hr
    | some read =>
      constructor
      · intro h
        exact .inr ⟨value, read, rfl, hread, (Except.ok.inj h).symm⟩
      · rintro (⟨hnil, _⟩ | ⟨value', read', hsame, hr, rfl⟩)
        · simp at hnil
        · obtain rfl := List.singleton_inj.mp hsame
          rw [hread] at hr
          exact congrArg Except.ok hr
  · rename_i hmany hone
    refine iff_of_false (by intro h; cases h) ?_
    rintro (⟨hnil, _⟩ | ⟨value, read, hsame, _⟩)
    · exact hmany hnil
    · exact hone value hsame

theorem checkParamWire_eq_ok {name : String} : checkParamWire headers name = .ok () ↔
    (isParamHeader name = true → (headers.getAll name).length ≤ 1 ∧
      ∀ value ∈ headers.getAll name, isPermittedFieldValue value.bytes = true) := by
  unfold checkParamWire
  cases hparam : isParamHeader name with
  | false => simp
  | true =>
    simp only [Bool.not_true, Bool.false_eq_true, if_false, forall_const]
    split
    · rename_i hlong
      refine iff_of_false (by intro h; cases h) fun h => ?_
      omega
    · rename_i hshort
      split
      · rename_i hany
        refine iff_of_false (by intro h; cases h) fun h => ?_
        obtain ⟨value, hv, hbad⟩ := List.any_eq_true.mp hany
        rw [h.2 value hv] at hbad
        simp at hbad
      · rename_i hall
        refine iff_of_true rfl ⟨Nat.le_of_not_lt hshort, fun value hv => ?_⟩
        rw [Bool.not_eq_true, List.any_eq_false] at hall
        simpa using hall value hv

theorem checkMethodMirror_eq_ok {method : String} :
    checkMethodMirror headers method required = .ok () ↔
      ∃ text, singleHeader headers MCP_METHOD_HEADER = .ok text ∧
        (∀ read, text = some read → Text.trim read = method) ∧ (text = none → required = false) := by
  unfold checkMethodMirror
  rw [bind_eq_ok]
  refine exists_congr fun text => and_congr_right fun _ => ?_
  cases text with
  | none => cases required <;> simp
  | some read => by_cases h : Text.trim read = method <;> simp [h]

theorem checkNameMirror_eq_ok : checkNameMirror crates headers request required = .ok () ↔
    ∃ text, singleHeader headers MCP_NAME_HEADER = .ok text ∧
      ∀ field, mirroredNameField request.method = some field →
        (∀ raw, text = some raw → ∃ name, decodeHeaderValue crates raw = .ok name ∧
          (request.params.bind fun p => p.get field) = some (.string name)) ∧
        (text = none → required = false) := by
  unfold checkNameMirror
  rw [bind_eq_ok]
  refine exists_congr fun text => and_congr_right fun _ => ?_
  cases hfield : mirroredNameField request.method with
  | none => simp
  | some field =>
    simp only [Option.some.injEq, forall_eq']
    cases text with
    | none => cases required <;> simp
    | some raw =>
      simp only [Option.some.injEq, forall_eq', reduceCtorEq, false_implies, and_true]
      have hstr (v : Option Json) (name : String) :
          v.bind Json.asStr = some name ↔ v = some (.string name) := by
        cases v with
        | none => simp
        | some v => cases v <;> simp [Json.asStr]
      cases hdecode : decodeHeaderValue crates raw with
      | error reason =>
        refine iff_of_false ?_ (by simp)
        cases hname : (request.params.bind fun p => p.get field).bind Json.asStr with
        | none => simp
        | some name => simp [Except.toOption]
      | ok decoded =>
        simp only [Except.ok.injEq, exists_eq_left', ← hstr]
        cases hname : (request.params.bind fun p => p.get field).bind Json.asStr with
        | none => simp
        | some name =>
          by_cases hsame : decoded = name
          · simp [Except.toOption, hsame]
          · have hne : name ≠ decoded := fun h => hsame h.symm
            simp [Except.toOption, hsame, hne]

end Specs

end Tronc.Mcp
