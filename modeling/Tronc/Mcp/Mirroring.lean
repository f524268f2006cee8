import Tronc.Mcp.Gateway
import Tronc.Mcp.Modern
import Tronc.Mcp.Serialize

namespace Tronc.Mcp

section Law

variable (crates : Crates) (inputSchemaOf : String → Option Json) (headers : HeaderMap)
  (request : JsonRpcRequest)

/-- What `handle_tools_call` makes of a modern call, whose headers the transport forwarded. -/
def modernCall : Except CallRefusal ToolCall :=
  checkedCall crates inputSchemaOf request.params true (forwardedHeaders headers)

/-- A modern request that neither the transport nor dispatch refuses for its mirrors. -/
structure Accepted : Prop where
  standard : checkStandardHeaders crates headers request true = .ok ()
  params : request.method = "tools/call" →
    ∀ reason, modernCall crates inputSchemaOf headers request ≠ .error (.headerMismatch reason)

/-- The annotated arguments of a call are those its headers say. -/
def ArgumentsMirrored (call : ToolCall) : Prop :=
  ∀ schema, inputSchemaOf call.name = some schema → ∀ path name, Annotated schema path name →
    ArgumentMirrored crates headers (paramHeader name)
      (call.arguments.bind fun arguments => arguments.valueAt path)

/-- What the headers say is what runs: the method, its target, and a call's annotated arguments. -/
structure Sees : Prop where
  method : ∃ text, Carries headers MCP_METHOD_HEADER text ∧ Text.trim text = request.method
  name : ∀ field, mirroredNameField request.method = some field →
    ∃ text target, Carries headers MCP_NAME_HEADER text ∧
      decodeHeaderValue crates text = .ok target ∧
      (request.params.bind fun p => p.get field) = some (.string target)
  call : request.method = "tools/call" → ∀ call,
    modernCall crates inputSchemaOf headers request = .ok call →
      (request.params.bind fun p => p.get "name") = some (.string call.name) ∧
        ArgumentsMirrored crates inputSchemaOf headers call

/-- The headers mirror the body, each in its encoded form. -/
structure Faithful : Prop where
  single : ∀ name, IsMirror name → (headers.getAll name).length ≤ 1
  readable : ∀ name, IsMirror name → ∀ value ∈ headers.getAll name, value.toStr.isSome = true
  method : ∃ text, Carries headers MCP_METHOD_HEADER text ∧
    decodeHeaderValue crates text = .ok request.method
  name : ∀ field, mirroredNameField request.method = some field →
    ∃ text target, Carries headers MCP_NAME_HEADER text ∧
      decodeHeaderValue crates text = .ok target ∧
      (request.params.bind fun p => p.get field) = some (.string target)
  arguments : request.method = "tools/call" → ∀ call,
    request.params.bind ToolCall.fromValue = some call →
      ArgumentsMirrored crates inputSchemaOf headers call

/-- A mirrored argument is one zero in the header and the other in the body. -/
def SignLost : Prop :=
  request.method = "tools/call" ∧ ∃ call schema path name,
    request.params.bind ToolCall.fromValue = some call ∧ inputSchemaOf call.name = some schema ∧
      Annotated schema path name ∧ ZerosDiffer crates headers (paramHeader name)
        (call.arguments.bind fun arguments => arguments.valueAt path)

/-- The method is not in its header as it is, but encoded. -/
def MethodEncoded : Prop :=
  ∃ text, Carries headers MCP_METHOD_HEADER text ∧ Text.trim text ≠ request.method

/-- What a gateway sees is what runs, no mirror is there twice, and what mirrors its body passes. -/
structure GatewayLaw : Prop where
  sound : Accepted crates inputSchemaOf headers request →
    Sees crates inputSchemaOf headers request
  single : ∀ name, IsMirror name → 1 < (headers.getAll name).length →
    ∀ modern, ∃ reason, checkStandardHeaders crates headers request modern = .error reason
  complete : Faithful crates inputSchemaOf headers request →
    Accepted crates inputSchemaOf headers request

end Law

section Calls

variable {crates : Crates} {inputSchemaOf : String → Option Json} {headers : HeaderMap}
  {request : JsonRpcRequest} {call : ToolCall}

theorem carries_unique {name text other : String} (h : Carries headers name text)
    (hother : Carries headers name other) : other = text := by
  obtain ⟨value, hone, hread⟩ := h
  obtain ⟨value', hone', hread'⟩ := hother
  rw [hone] at hone'
  obtain rfl := List.singleton_inj.mp hone'
  exact Option.some.inj (hread'.symm.trans hread)

theorem isParamHeader_paramHeader (name : String) : isParamHeader (paramHeader name) = true := by
  have hlower : MCP_PARAM_PREFIX.toList.map Text.asciiLowerChar = MCP_PARAM_PREFIX.toList := by
    decide
  unfold isParamHeader paramHeader
  rw [String.toList_append, List.take_left, hlower, beq_self_eq_true]

/-- The one value of a mirror is what dispatch finds under its name. -/
theorem lookup_forwarded {forwarded : AList fun _ : String => Json} {name : String}
    (hf : forwardedHeaders headers = some forwarded) (hw : isWithheld name = false)
    (hsingle : (headers.getAll name).length ≤ 1)
    (hread : ∀ value ∈ headers.getAll name, value.toStr.isSome = true) (raw : String) :
    (forwarded.lookup name).bind Json.asStr = some raw ↔ Carries headers name raw := by
  rw [lookup_forwardedHeaders hf hw]
  rcases carries_or_absent hsingle hread with habsent | ⟨text, value, hone, htext⟩
  · rw [habsent]
    refine iff_of_false (fun h => nomatch h) ?_
    rintro ⟨value, hone, _⟩
    rw [habsent] at hone
    cases hone
  · have hcarries : Carries headers name text := ⟨value, hone, htext⟩
    rw [hone, List.foldl_cons, List.foldl_nil, htext]
    constructor
    · intro h
      obtain rfl : text = raw := Option.some.inj h
      exact hcarries
    · intro h
      rw [carries_unique hcarries h]
      rfl

/-- The headers of a request that passed the transport reach dispatch, each mirror with its value. -/
theorem forwarded_of_standard (hid : request.id.isSome = true)
    (hstandard : checkStandardHeaders crates headers request true = .ok ()) :
    ∃ forwarded, forwardedHeaders headers = some forwarded ∧
      ∀ name, isParamHeader name = true → ∀ raw,
        (forwarded.lookup name).bind Json.asStr = some raw ↔ Carries headers name raw := by
  obtain ⟨text, ⟨value, hone, htext⟩, _⟩ := ((checkStandardHeaders_modern hid).mp hstandard).method
  have hmethod : isWithheld MCP_METHOD_HEADER = false := by decide
  obtain ⟨forwarded, hforwarded⟩ :=
    Option.isSome_iff_exists.mp (forwardedHeaders_isSome hone htext hmethod)
  refine ⟨forwarded, hforwarded, fun name hparam raw => ?_⟩
  obtain ⟨hsingle, hread⟩ := single_of_checkStandardHeaders hstandard (.inr (.inr hparam))
  exact lookup_forwarded hforwarded (isWithheld_param hparam) hsingle hread raw

/-- The check of a call's annotated arguments, one by one. -/
theorem checkParamHeaders_eq_ok {forwarded : AList fun _ : String => Json} {schema : Json}
    {arguments : Option Json}
    (hforwarded : ∀ name, isParamHeader name = true → ∀ raw,
      (forwarded.lookup name).bind Json.asStr = some raw ↔ Carries headers name raw) :
    checkParamHeaders crates schema arguments forwarded true = .ok () ↔
      ∀ path name, Annotated schema path name →
        ArgumentMirrored crates headers (paramHeader name)
            (arguments.bind fun arguments => arguments.valueAt path) ∧
          ¬ ZerosDiffer crates headers (paramHeader name)
            (arguments.bind fun arguments => arguments.valueAt path) := by
  have hone (path : List String) (name : String) :
      checkArgument crates arguments forwarded true ⟨paramHeader name, path⟩ = .ok () ↔
        ArgumentMirrored crates headers (paramHeader name)
            (arguments.bind fun arguments => arguments.valueAt path) ∧
          ¬ ZerosDiffer crates headers (paramHeader name)
            (arguments.bind fun arguments => arguments.valueAt path) :=
    checkArgument_eq_ok (hforwarded _ (isParamHeader_paramHeader name)) rfl
  unfold checkParamHeaders
  rw [forM_eq_ok]
  constructor
  · intro h path name hannotated
    exact (hone path name).mp (h _ (mem_mirroredArguments.mpr ⟨name, hannotated, rfl⟩))
  · rintro h ⟨header, path⟩ hmem
    obtain ⟨name, hannotated, rfl⟩ := mem_mirroredArguments.mp hmem
    exact (hone path name).mpr (h path name hannotated)

/-- No annotated argument of a call is told wrong, the signs of the zeros included. -/
def ArgumentsHeld (crates : Crates) (inputSchemaOf : String → Option Json) (headers : HeaderMap)
    (call : ToolCall) : Prop :=
  ∀ schema, inputSchemaOf call.name = some schema → ∀ path name, Annotated schema path name →
    ArgumentMirrored crates headers (paramHeader name)
        (call.arguments.bind fun arguments => arguments.valueAt path) ∧
      ¬ ZerosDiffer crates headers (paramHeader name)
        (call.arguments.bind fun arguments => arguments.valueAt path)

/-- A call that can be read is run when its mirrors hold, and refused for them when not. -/
theorem modernCall_read (hid : request.id.isSome = true)
    (hstandard : checkStandardHeaders crates headers request true = .ok ())
    (hcall : request.params.bind ToolCall.fromValue = some call) :
    modernCall crates inputSchemaOf headers request = .ok call ∧
        ArgumentsHeld crates inputSchemaOf headers call ∨
      (∃ reason, modernCall crates inputSchemaOf headers request =
        .error (.headerMismatch reason)) ∧ ¬ ArgumentsHeld crates inputSchemaOf headers call := by
  obtain ⟨forwarded, hforwarded, hlookup⟩ := forwarded_of_standard hid hstandard
  obtain ⟨params, hparams, hread⟩ := Option.bind_eq_some_iff.mp hcall
  unfold modernCall checkedCall
  rw [hparams, hforwarded]
  dsimp only
  rw [hread]
  dsimp only
  rw [Option.filter_some, if_pos (Bool.true_or _)]
  dsimp only
  cases hschema : inputSchemaOf call.name with
  | none =>
    refine .inl ⟨rfl, fun schema h => ?_⟩
    rw [hschema] at h
    cases h
  | some schema =>
    dsimp only
    have hheld : checkParamHeaders crates schema call.arguments forwarded true = .ok () ↔
        ArgumentsHeld crates inputSchemaOf headers call := by
      rw [checkParamHeaders_eq_ok hlookup]
      unfold ArgumentsHeld
      rw [hschema]
      simp only [Option.some.injEq, forall_eq']
    rw [← hheld]
    cases checkParamHeaders crates schema call.arguments forwarded true with
    | ok _ => exact .inl ⟨rfl, rfl⟩
    | error reason => exact .inr ⟨⟨reason, rfl⟩, fun h => nomatch h⟩

/-- What cannot be read as a call is neither run nor refused for its mirrors. -/
theorem modernCall_unread (hcall : request.params.bind ToolCall.fromValue = none) :
    (∀ call, modernCall crates inputSchemaOf headers request ≠ .ok call) ∧
      ∀ reason, modernCall crates inputSchemaOf headers request ≠
        .error (.headerMismatch reason) := by
  unfold modernCall checkedCall
  cases hparams : request.params with
  | none => exact ⟨fun call h => (nomatch h), fun reason h => nomatch h⟩
  | some params =>
    rw [hparams, Option.bind_some] at hcall
    dsimp only
    rw [hcall]
    exact ⟨fun call h => (nomatch h), fun reason h => nomatch h⟩

/-- The name that is executed is the one that its header is held to. -/
theorem name_of_fromValue {params : Json} {target : String}
    (hcall : ToolCall.fromValue params = some call)
    (hname : params.get "name" = some (.string target)) : call.name = target := by
  cases params with
  | object fields =>
    have hfield : Map.get fields "name" = some (.string target) := hname
    unfold ToolCall.fromValue ToolCall.ofFields at hcall
    dsimp only at hcall
    rw [hfield] at hcall
    simp only [Option.bind_eq_bind, Option.bind_some, Json.asStr, Option.bind_eq_some_iff] at hcall
    obtain ⟨_, _, _, _, _, _, hbuilt⟩ := hcall
    rw [← Option.some.inj hbuilt]
  | null | bool _ | number _ | string _ | array _ => cases hname

theorem sees_of_accepted (hid : request.id.isSome = true)
    (h : Accepted crates inputSchemaOf headers request) :
    Sees crates inputSchemaOf headers request := by
  have hmirrored := (checkStandardHeaders_modern hid).mp h.standard
  refine ⟨hmirrored.method, hmirrored.name, fun hmethod call hrun => ?_⟩
  cases hcall : request.params.bind ToolCall.fromValue with
  | none => exact absurd hrun ((modernCall_unread hcall).1 call)
  | some read =>
    rcases modernCall_read hid h.standard hcall with ⟨hread, hheld⟩ | ⟨⟨reason, hrefused⟩, _⟩
    · obtain rfl := Except.ok.inj (hread.symm.trans hrun)
      have hfield : mirroredNameField request.method = some "name" := by
        rw [hmethod]
        decide
      obtain ⟨_, target, _, _, hname⟩ := hmirrored.name "name" hfield
      obtain ⟨params, hparams, hvalue⟩ := Option.bind_eq_some_iff.mp hcall
      refine ⟨?_, fun schema hschema path name hannotated =>
        (hheld schema hschema path name hannotated).1⟩
      rw [hparams, Option.bind_some] at hname ⊢
      rw [name_of_fromValue hvalue hname]
      exact hname
    · exact absurd hrefused (h.params hmethod reason)

/-- A faithful request passes unless its method is encoded or a zero loses its sign. -/
theorem accepted_of_faithful (hid : request.id.isSome = true)
    (h : Faithful crates inputSchemaOf headers request) (hplain : ¬ MethodEncoded headers request)
    (hsigns : ¬ SignLost crates inputSchemaOf headers request) :
    Accepted crates inputSchemaOf headers request := by
  obtain ⟨text, hcarries, _⟩ := h.method
  have hmethod : Text.trim text = request.method := by
    by_contra hencoded
    exact hplain ⟨text, hcarries, hencoded⟩
  have hstandard : checkStandardHeaders crates headers request true = .ok () :=
    (checkStandardHeaders_modern hid).mpr
      ⟨h.single, h.readable, ⟨text, hcarries, hmethod⟩, h.name⟩
  refine ⟨hstandard, fun hcalls reason => ?_⟩
  cases hcall : request.params.bind ToolCall.fromValue with
  | none => exact (modernCall_unread hcall).2 reason
  | some call =>
    have hheld : ArgumentsHeld crates inputSchemaOf headers call :=
      fun schema hschema path name hannotated =>
        ⟨h.arguments hcalls call hcall schema hschema path name hannotated,
          fun hzeros => hsigns
            ⟨hcalls, call, schema, path, name, hcall, hschema, hannotated, hzeros⟩⟩
    rcases modernCall_read hid hstandard hcall with ⟨hrun, _⟩ | ⟨_, hnot⟩
    · rw [hrun]
      exact fun hrefused => nomatch hrefused
    · exact absurd hheld hnot

/-- A request that is accepted has its method as it is, and no zero of another sign. -/
theorem Accepted.plain (hid : request.id.isSome = true)
    (h : Accepted crates inputSchemaOf headers request) :
    ¬ MethodEncoded headers request ∧ ¬ SignLost crates inputSchemaOf headers request := by
  constructor
  · rintro ⟨text, hcarries, hencoded⟩
    obtain ⟨text', hcarries', hmethod⟩ := ((checkStandardHeaders_modern hid).mp h.standard).method
    rw [carries_unique hcarries hcarries'] at hmethod
    exact hencoded hmethod
  · rintro ⟨hcalls, call, schema, path, name, hcall, hschema, hannotated, hzeros⟩
    rcases modernCall_read hid h.standard hcall with ⟨_, hheld⟩ | ⟨⟨reason, hrefused⟩, _⟩
    · exact (hheld schema hschema path name hannotated).2 hzeros
    · exact h.params hcalls reason hrefused

theorem repeated_refused {name : String} (hmirror : IsMirror name)
    (hrepeated : 1 < (headers.getAll name).length) (modern : Bool) :
    ∃ reason, checkStandardHeaders crates headers request modern = .error reason := by
  cases hcheck : checkStandardHeaders crates headers request modern with
  | error reason => exact ⟨reason, rfl⟩
  | ok _ =>
    have hsingle := (single_of_checkStandardHeaders hcheck hmirror).1
    omega

end Calls

/-- What a gateway sees of a modern request is what runs, and what mirrors its body passes, unless
the method is encoded or the header of an argument is the zero of the other sign. -/
theorem gateway_law_iff (crates : Crates) (inputSchemaOf : String → Option Json)
    (headers : HeaderMap) (jsonrpc method : String) (params : Option Json) (id : Json) :
    GatewayLaw crates inputSchemaOf headers (.received jsonrpc method params (some id)) ↔
      ¬ (Faithful crates inputSchemaOf headers (.received jsonrpc method params (some id)) ∧
        (MethodEncoded headers (.received jsonrpc method params (some id)) ∨
          SignLost crates inputSchemaOf headers
            (.received jsonrpc method params (some id)))) := by
  constructor
  · rintro law ⟨hfaithful, hlost⟩
    obtain ⟨hplain, hsigns⟩ := (law.complete hfaithful).plain rfl
    exact hlost.elim hplain hsigns
  · intro hcondition
    refine ⟨sees_of_accepted rfl, fun name hmirror hrepeated => repeated_refused hmirror hrepeated,
      fun hfaithful => accepted_of_faithful rfl hfaithful ?_ ?_⟩
    · exact fun hencoded => hcondition ⟨hfaithful, .inl hencoded⟩
    · exact fun hlost => hcondition ⟨hfaithful, .inr hlost⟩

section Refused

theorem getAll_length_le_one {headers : HeaderMap} (h : (headers.map Prod.fst).Nodup)
    (name : String) : (headers.getAll name).length ≤ 1 := by
  have hcount := List.nodup_iff_count_le_one.mp h name
  rw [List.count, List.countP_map, List.countP_eq_length_filter] at hcount
  unfold HeaderMap.getAll
  rw [List.length_map]
  exact hcount

theorem readable_of_all {headers : HeaderMap}
    (h : ∀ e ∈ headers, e.2.toStr.isSome = true) (name : String) :
    ∀ value ∈ headers.getAll name, value.toStr.isSome = true := by
  intro value hvalue
  obtain ⟨e, he, rfl⟩ := List.mem_map.mp hvalue
  exact h e (List.mem_filter.mp he).1

def negativeZero : Json := .number (.float ⟨.ofMagnitude true 0, by decide⟩)

/-- A tool with one annotated argument. -/
def shiftSchema : Json :=
  .object [("properties", .object [("offset", .object [("x-mcp-header", .string "Offset")])])]

def shiftSchemaOf (name : String) : Option Json := if name = "shift" then some shiftSchema else none

/-- The `_meta` of a request of 2026-07-28. -/
def modernMeta : Json :=
  .object [(meta_keys.CLIENT_CAPABILITIES, .object []),
    (meta_keys.PROTOCOL_VERSION, .string PROTOCOL_VERSION_2026_07_28)]

def shiftArguments : Json := .object [("offset", negativeZero)]

def shiftParams : Json :=
  .object [("_meta", modernMeta), ("arguments", shiftArguments), ("name", .string "shift")]

/-- A call whose argument is the negative zero. -/
def shiftCall : JsonRpcRequest :=
  .received "2.0" "tools/call" (some shiftParams) (some (.number (.posInt 1)))

def shiftHeaders : HeaderMap :=
  [(PROTOCOL_VERSION_HEADER, .ofString PROTOCOL_VERSION_2026_07_28),
    (MCP_METHOD_HEADER, .ofString "tools/call"), (MCP_NAME_HEADER, .ofString "shift"),
    ("mcp-param-offset", .ofString "0")]

/-- A method whose header is in Base64. -/
def summer : JsonRpcRequest :=
  .received "2.0" "notes/été" (some (.object [("_meta", modernMeta)])) (some (.number (.posInt 1)))

def summerHeaders : HeaderMap :=
  [(PROTOCOL_VERSION_HEADER, .ofString PROTOCOL_VERSION_2026_07_28),
    (MCP_METHOD_HEADER, .ofString (encodeHeaderValue plainCrates "notes/été"))]

theorem faithful_summer : Faithful plainCrates shiftSchemaOf summerHeaders summer where
  single name _ := getAll_length_le_one (by decide) name
  readable name _ := readable_of_all (by decide +kernel) name
  method := ⟨encodeHeaderValue plainCrates "notes/été", ⟨_, rfl, by decide +kernel⟩,
    by decide +kernel⟩
  name field hfield := by
    have hnone : mirroredNameField summer.method = none := by decide
    rw [hnone] at hfield
    cases hfield
  arguments hmethod := absurd hmethod (by decide)

theorem carries_offset : Carries shiftHeaders "mcp-param-offset" "0" :=
  ⟨.ofString "0", by decide, by decide⟩

/-- The header of the one annotated argument, compared as a number. -/
theorem offset_mirrored :
    ArgumentMirrored plainCrates shiftHeaders "mcp-param-offset" (some negativeZero) where
  carried := iff_of_true ⟨_, carries_offset⟩ ⟨_, rfl, trivial⟩
  denoted text v hcarries hbody := by
    rw [carries_unique carries_offset hcarries, ← Option.some.inj hbody]
    exact ⟨"0", by decide, ⟨.ofMagnitude false 0, by decide +kernel, by decide, by decide⟩⟩
  safe n hbody := by
    rw [← Json.number.inj (Option.some.inj hbody)]
    have hzero : Number.scaled (.float ⟨.ofMagnitude true 0, by decide⟩) = 0 := by decide
    unfold Number.IsSafe
    rw [hzero]
    exact Nat.zero_le _

theorem mirrored_shift :
    mirroredArguments shiftSchema = [⟨"mcp-param-offset", ["offset"]⟩] := by decide +kernel

theorem annotated_shift {path : List String} {name : String}
    (h : Annotated shiftSchema path name) :
    paramHeader name = "mcp-param-offset" ∧ path = ["offset"] := by
  have hmem : ⟨paramHeader name, path⟩ ∈ mirroredArguments shiftSchema :=
    mem_mirroredArguments.mpr ⟨name, h, rfl⟩
  rw [mirrored_shift, List.mem_singleton] at hmem
  exact MirroredArgument.mk.inj hmem

theorem read_shift :
    shiftCall.params.bind ToolCall.fromValue = some ⟨"shift", some shiftArguments, none, none⟩ := by
  decide

theorem valueAt_offset : shiftArguments.valueAt ["offset"] = some negativeZero := by decide

theorem faithful_shift : Faithful plainCrates shiftSchemaOf shiftHeaders shiftCall where
  single name _ := getAll_length_le_one (by decide) name
  readable name _ := readable_of_all (by decide +kernel) name
  method := ⟨"tools/call", ⟨_, rfl, by decide +kernel⟩, by decide +kernel⟩
  name field hfield := by
    have hname : mirroredNameField shiftCall.method = some "name" := by decide
    rw [hname] at hfield
    obtain rfl := Option.some.inj hfield
    exact ⟨"shift", "shift", ⟨_, rfl, by decide +kernel⟩, by decide +kernel, by decide⟩
  arguments _ call hcall schema hschema path name hannotated := by
    obtain rfl := Option.some.inj (read_shift.symm.trans hcall)
    obtain rfl : shiftSchema = schema := Option.some.inj hschema
    obtain ⟨hheader, rfl⟩ := annotated_shift hannotated
    rw [hheader, Option.bind_some, valueAt_offset]
    exact offset_mirrored

/-- A method in Base64 is refused, and so is a zero whose header is the other one. -/
theorem faithful_refused :
    (Faithful plainCrates shiftSchemaOf summerHeaders summer ∧
        ¬ Accepted plainCrates shiftSchemaOf summerHeaders summer) ∧
      Faithful plainCrates shiftSchemaOf shiftHeaders shiftCall ∧
        ¬ Accepted plainCrates shiftSchemaOf shiftHeaders shiftCall := by
  have hencoded : MethodEncoded summerHeaders summer :=
    ⟨encodeHeaderValue plainCrates "notes/été", ⟨_, rfl, by decide +kernel⟩, by decide +kernel⟩
  have hsign : SignLost plainCrates shiftSchemaOf shiftHeaders shiftCall := by
    have hmem : ⟨"mcp-param-offset", ["offset"]⟩ ∈ mirroredArguments shiftSchema := by
      rw [mirrored_shift]
      exact List.mem_singleton_self _
    obtain ⟨name, hannotated, hheader⟩ := mem_mirroredArguments.mp hmem
    refine ⟨rfl, _, shiftSchema, ["offset"], name, read_shift, rfl, hannotated, ?_⟩
    rw [← hheader, Option.bind_some, valueAt_offset]
    exact ⟨"0", "0", negativeZero, carries_offset, by decide, rfl, _, .ofMagnitude false 0, rfl,
      by decide +kernel, by decide, by decide, by decide⟩
  exact ⟨⟨faithful_summer, fun h => (h.plain rfl).1 hencoded⟩,
    faithful_shift, fun h => (h.plain rfl).2 hsign⟩

end Refused

end Tronc.Mcp
