import Tronc.Mcp.Message

namespace Tronc.Mcp

/-- An id of a request: a string or an integer. -/
inductive IsIdentifier : Json → Prop where
  | string (s : String) : IsIdentifier (.string s)
  | natural (n : UInt64) : IsIdentifier (.number (.posInt n))
  | negative (i : {i : Int64 // i < 0}) : IsIdentifier (.number (.negInt i))

/-- An error object: a code of 32 bits, a message, and any data. -/
inductive IsErrorObject : Json → Prop where
  | object (fields : Map) (number : Number) (message : String) :
      fields.get "code" = some (.number number) → (Number.asI32 number).isSome = true →
      fields.get "message" = some (.string message) → IsErrorObject (.object fields)

/-- The members of an error as a sequence, which is no error object. -/
inductive IsErrorSequence : Json → Prop where
  | array (number : Number) (message : String) (data : Json) :
      (Number.asI32 number).isSome = true →
      IsErrorSequence (.array [.number number, .string message, data])

/-- The grammar of a request. -/
structure IsRequest (fields : Map) : Prop where
  method : ∃ method, fields.get "method" = some (.string method)
  jsonrpc : ∃ jsonrpc, fields.get "jsonrpc" = some (.string jsonrpc)
  id : ∀ id, fields.get "id" = some id → IsIdentifier id

/-- What a response is apart from its result and its error. -/
structure IsAnswer (fields : Map) : Prop where
  method : fields.get "method" = none
  jsonrpc : ∃ jsonrpc, fields.get "jsonrpc" = some (.string jsonrpc)
  id : ∃ id, fields.get "id" = some id ∧ (id = .null ∨ IsIdentifier id)

/-- The grammar of a response. A `null` error stands for an absent one. -/
structure IsResponse (fields : Map) : Prop extends IsAnswer fields where
  exactlyOne : (fields.get "result").isSome = true ↔ fields.get "error" = none
  error : ∀ error, fields.get "error" = some error → error = .null ∨ IsErrorObject error

/-- A response whose error is given as a sequence. -/
structure CarriesErrorSequence (fields : Map) : Prop extends IsAnswer fields where
  result : fields.get "result" = none
  error : ∃ error, fields.get "error" = some error ∧ IsErrorSequence error

theorem CarriesErrorSequence.not_response {fields : Map} (h : CarriesErrorSequence fields) :
    ¬ IsResponse fields := by
  intro hresponse
  obtain ⟨error, hget, hsequence⟩ := h.error
  rcases hresponse.error error hget with hnull | hobject
  · rw [hnull] at hsequence
    cases hsequence
  · cases hobject
    cases hsequence

theorem isRequestId_iff {id : Json} : isRequestId id = true ↔ IsIdentifier id := by
  constructor
  · intro h
    cases id with
    | string s => exact .string s
    | number number =>
      cases number with
      | posInt n => exact .natural n
      | negInt i => exact .negative i
      | float x => cases h
    | null | bool _ | array _ | object _ => cases h
  · intro h
    cases h <;> rfl

theorem optionValue_eq_some {v : Option Json} {x : Json} :
    optionValue v = some x ↔ v = some x ∧ x ≠ .null := by
  unfold optionValue
  split
  · simp
    rintro rfl
    rfl
  · rename_i hv
    constructor
    · rintro rfl
      exact ⟨rfl, fun h => hv (by rw [h])⟩
    · exact fun h => h.1

/-- An id that identifies a request is not `null`. -/
theorem optionValue_eq_self {v : Option Json} (h : ∀ id, v = some id → IsIdentifier id) :
    optionValue v = v := by
  cases v with
  | none => rfl
  | some id => exact optionValue_eq_some.mpr ⟨rfl, fun hnull => by cases hnull ▸ h id rfl⟩

/-- What `serde` reads as an error. -/
theorem JsonRpcError.fromValue_isSome {v : Json} :
    (JsonRpcError.fromValue v).isSome = true ↔ IsErrorObject v ∨ IsErrorSequence v := by
  constructor
  · intro h
    unfold JsonRpcError.fromValue at h
    split at h
    · split at h
      · rename_i fields _ _ number message hcode hmessage
        rw [Option.isSome_map] at h
        exact .inl (.object fields number message hcode h hmessage)
      · cases h
    · rename_i number message data
      rw [Option.isSome_map] at h
      exact .inr (.array number message data h)
    · cases h
  · rintro (h | h)
    · cases h with
      | object fields number message hcode hnumber hmessage =>
        dsimp only [JsonRpcError.fromValue]
        rw [hcode, hmessage]
        exact Option.isSome_map.trans hnumber
    · cases h with
      | array number message data hnumber => exact Option.isSome_map.trans hnumber

theorem JsonRpcRequest.fromValue_isSome {fields : Map} :
    (JsonRpcRequest.fromValue fields).isSome = true ↔
      (∃ method, fields.get "method" = some (.string method)) ∧
        ∃ jsonrpc, fields.get "jsonrpc" = some (.string jsonrpc) := by
  constructor
  · intro h
    unfold JsonRpcRequest.fromValue at h
    split at h
    · rename_i jsonrpc method hjsonrpc hmethod
      exact ⟨⟨method, hmethod⟩, jsonrpc, hjsonrpc⟩
    · cases h
  · rintro ⟨⟨method, hmethod⟩, jsonrpc, hjsonrpc⟩
    unfold JsonRpcRequest.fromValue
    rw [hjsonrpc, hmethod]
    rfl

/-- What `serde` reads of a request. -/
theorem JsonRpcRequest.fromValue_received {fields : Map} {read : JsonRpcRequest}
    (h : JsonRpcRequest.fromValue fields = some read) :
    read = .received read.jsonrpc read.method (optionValue (fields.get "params"))
      (optionValue (fields.get "id")) := by
  unfold JsonRpcRequest.fromValue at h
  split at h
  · rw [← Option.some.inj h]
    rfl
  · cases h

theorem JsonRpcResponse.fromValue_isSome {fields : Map} :
    (JsonRpcResponse.fromValue fields).isSome = true ↔
      (∃ jsonrpc, fields.get "jsonrpc" = some (.string jsonrpc)) ∧
        ∀ error, fields.get "error" = some error →
          error = .null ∨ IsErrorObject error ∨ IsErrorSequence error := by
  constructor
  · intro h
    unfold JsonRpcResponse.fromValue at h
    split at h
    · rename_i jsonrpc hjsonrpc
      refine ⟨⟨jsonrpc, hjsonrpc⟩, fun error herror => ?_⟩
      by_cases hnull : error = .null
      · exact .inl hnull
      · have hread := optionValue_eq_some.mpr ⟨herror, hnull⟩
        dsimp only at h
        rw [hread] at h
        exact .inr (JsonRpcError.fromValue_isSome.mp (Option.isSome_map.symm.trans h))
    · cases h
  · rintro ⟨⟨jsonrpc, hjsonrpc⟩, herror⟩
    unfold JsonRpcResponse.fromValue
    rw [hjsonrpc]
    dsimp only
    split
    · rfl
    · rename_i error hread
      obtain ⟨hget, hnull⟩ := optionValue_eq_some.mp hread
      have hsome := JsonRpcError.fromValue_isSome.mpr ((herror error hget).resolve_left hnull)
      exact Option.isSome_map.trans hsome

namespace JsonRpcMessage

variable {serde : Serde} {raw : String} {fields : Map}

theorem idOk_iff : ((fields.get "id").any fun id => id == .null || isRequestId id) = true ↔
    ∃ id, fields.get "id" = some id ∧ (id = .null ∨ IsIdentifier id) := by
  rw [Option.any_eq_true]
  refine exists_congr fun id => and_congr_right fun _ => ?_
  rw [Bool.or_eq_true, beq_iff_eq, isRequestId_iff]

/-- An object without a method is read as a response when it is one, or carries its error as a
sequence. -/
theorem parseResponse_iff (hmethod : fields.get "method" = none) :
    (∃ read, parseResponse serde fields = .ok (.response read)) ↔
      IsResponse fields ∨ CarriesErrorSequence fields := by
  constructor
  · rintro ⟨read, h⟩
    unfold parseResponse at h
    dsimp only at h
    split at h
    · cases h
    · rename_i hguard
      simp only [Bool.or_eq_true, Bool.not_eq_true', not_or, Bool.not_eq_false, beq_iff_eq]
        at hguard
      obtain ⟨⟨hid, hone⟩, -⟩ := hguard
      split at h
      · rename_i hread
        obtain ⟨hjsonrpc, herror⟩ := JsonRpcResponse.fromValue_isSome.mp
          (Option.isSome_iff_exists.mpr ⟨_, hread⟩)
        have answer : IsAnswer fields := ⟨hmethod, hjsonrpc, idOk_iff.mp hid⟩
        unfold Map.containsKey at hone
        cases hget : fields.get "error" with
        | none =>
          rw [hget] at hone
          have hresult : (fields.get "result").isSome = true :=
            Option.isSome_iff_ne_none.mpr (by simpa using hone)
          refine .inl ⟨answer, ⟨fun _ => hget, fun _ => hresult⟩, fun error h => ?_⟩
          rw [hget] at h
          cases h
        | some error =>
          rw [hget] at hone
          have hresult : fields.get "result" = none := by simpa using hone
          have hread := herror error hget
          rw [← or_assoc] at hread
          rcases hread with hread | hread
          · refine .inl ⟨answer, ?_, fun e he => ?_⟩
            · rw [hresult, hget]
              simp
            · rw [← Option.some.inj (hget.symm.trans he)]
              exact hread
          · exact .inr ⟨answer, hresult, error, hget, hread⟩
      · cases h
  · intro h
    obtain ⟨answer, hone, herror⟩ : IsAnswer fields ∧
        ((fields.get "result").isSome = true ↔ fields.get "error" = none) ∧
        ∀ error, fields.get "error" = some error →
          error = .null ∨ IsErrorObject error ∨ IsErrorSequence error := by
      rcases h with h | h
      · exact ⟨h.toIsAnswer, h.exactlyOne, fun error he => (h.error error he).imp_right .inl⟩
      · obtain ⟨error, hget, hsequence⟩ := h.error
        refine ⟨h.toIsAnswer, ?_, fun e he => ?_⟩
        · rw [h.result, hget]
          simp
        · rw [← Option.some.inj (hget.symm.trans he)]
          exact .inr (.inr hsequence)
    obtain ⟨jsonrpc, hjsonrpc⟩ := answer.jsonrpc
    obtain ⟨read, hread⟩ := Option.isSome_iff_exists.mp
      (JsonRpcResponse.fromValue_isSome.mpr ⟨answer.jsonrpc, herror⟩)
    have hid := idOk_iff.mpr answer.id
    have hmembers : (fields.containsKey "result" == fields.containsKey "error") = false := by
      unfold Map.containsKey
      cases hget : fields.get "error" with
      | none => simp [hone.mpr hget]
      | some error =>
        have hresult : ¬ (fields.get "result").isSome = true := by
          rw [hone, hget]
          exact Option.some_ne_none error
        simp [hresult]
    have hversion : fields.containsKey "jsonrpc" = true :=
      Map.containsKey_of_some hjsonrpc
    refine ⟨read, ?_⟩
    unfold parseResponse
    rw [hid, hmembers, hversion, hread]
    rfl

/-- What is read of an object that is a text. -/
theorem parse_object (htext : serde.fromStr raw = .ok (.object fields)) :
    (IsRequest fields ∧ ∃ read, parse serde raw = .ok (.request read) ∧
      read = .received read.jsonrpc read.method (optionValue (fields.get "params"))
        (fields.get "id")) ∨
      ((IsResponse fields ∨ CarriesErrorSequence fields) ∧
        ∃ read, parse serde raw = .ok (.response read)) ∨
      ((¬ IsRequest fields ∧ ¬ IsResponse fields ∧ ¬ CarriesErrorSequence fields) ∧
        ∃ reason, parse serde raw = .error (invalidRequest reason)) := by
  unfold parse
  rw [htext]
  dsimp only
  cases hmethod : fields.get "method" with
  | none =>
    have hkey : fields.containsKey "method" = false :=
      Map.containsKey_of_none hmethod
    rw [hkey]
    have hiff : (∃ read, parseResponse serde fields = .ok (.response read)) ↔
        IsResponse fields ∨ CarriesErrorSequence fields := parseResponse_iff hmethod
    rcases parseResponse_cases serde fields with ⟨read, hread⟩ | ⟨reason, hreason⟩
    · exact .inr (.inl ⟨hiff.mp ⟨read, hread⟩, read, hread⟩)
    · have hnot : ¬ (IsResponse fields ∨ CarriesErrorSequence fields) := by
        intro h
        obtain ⟨read, hread⟩ := hiff.mpr h
        rw [hreason] at hread
        cases hread
      refine .inr (.inr ⟨⟨fun h => ?_, fun h => hnot (.inl h), fun h => hnot (.inr h)⟩, reason,
        hreason⟩)
      obtain ⟨method, h⟩ := h.method
      rw [hmethod] at h
      cases h
  | some method =>
    have hkey : fields.containsKey "method" = true :=
      Map.containsKey_of_some hmethod
    have hanswer : ¬ IsAnswer fields := by
      intro h
      rw [h.method] at hmethod
      cases hmethod
    rw [hkey]
    simp only [Bool.not_true, Bool.false_eq_true, if_false]
    split
    · rename_i hid
      obtain ⟨id, hget, hid⟩ := (Option.any_eq_true _ _).mp hid
      refine .inr (.inr ⟨⟨fun h => ?_, fun h => hanswer h.toIsAnswer,
        fun h => hanswer h.toIsAnswer⟩, _, rfl⟩)
      rw [isRequestId_iff.mpr (h.id id hget)] at hid
      cases hid
    · rename_i hid
      split
      · rename_i read hread
        obtain ⟨hmethod, hjsonrpc⟩ := JsonRpcRequest.fromValue_isSome.mp
          (Option.isSome_iff_exists.mpr ⟨read, hread⟩)
        have ids : ∀ id, fields.get "id" = some id → IsIdentifier id := by
          intro id hget
          rw [hget] at hid
          exact isRequestId_iff.mp (by simpa using hid)
        have hread := JsonRpcRequest.fromValue_received hread
        rw [optionValue_eq_self ids] at hread
        exact .inl ⟨⟨hmethod, hjsonrpc, ids⟩, read, rfl, hread⟩
      · rename_i hread
        refine .inr (.inr ⟨⟨fun h => ?_, fun h => hanswer h.toIsAnswer,
          fun h => hanswer h.toIsAnswer⟩, _, rfl⟩)
        have hsome := JsonRpcRequest.fromValue_isSome.mpr ⟨h.method, h.jsonrpc⟩
        rw [hread] at hsome
        cases hsome

/-- A value that is not an object is refused. -/
theorem parse_scalar {v : Json} (htext : serde.fromStr raw = .ok v)
    (hv : ∀ fields, v ≠ .object fields) :
    ∃ reason, parse serde raw = .error (invalidRequest reason) := by
  unfold parse
  rw [htext]
  cases v with
  | object fields => exact absurd rfl (hv fields)
  | null | bool _ | number _ | string _ | array _ => exact ⟨_, rfl⟩

/-- A text that is no JSON value is answered with a parse error. -/
theorem parse_text {e : String} (htext : serde.fromStr raw = .error e) : parse serde raw =
    .error (.failure none ErrorCode.parseError ("Parse error: " ++ e)) := by
  unfold parse
  rw [htext]

/-- A text is read as the grammar says, and as nothing else. -/
structure FollowsGrammar (serde : Serde) (raw : String) : Prop where
  parseError : (∃ refusal, parse serde raw = .error refusal ∧
    refusal.code = some ErrorCode.parseError) ↔ ∀ v, serde.fromStr raw ≠ .ok v
  request : (∃ read, parse serde raw = .ok (.request read)) ↔
    ∃ fields, serde.fromStr raw = .ok (.object fields) ∧ IsRequest fields
  /-- Only an absent id makes a notification. -/
  notification : ∀ fields read, serde.fromStr raw = .ok (.object fields) →
    parse serde raw = .ok (.request read) → read.id = Map.get fields "id"
  transport : ∀ read, parse serde raw = .ok (.request read) →
    read.authToken = none ∧ read.headers = none ∧ read.metadata = ∅
  response : (∃ read, parse serde raw = .ok (.response read)) ↔
    ∃ fields, serde.fromStr raw = .ok (.object fields) ∧ IsResponse fields
  invalidRequest : ∀ v, serde.fromStr raw = .ok v →
    (∀ fields, v = .object fields → ¬ IsRequest fields ∧ ¬ IsResponse fields) →
    ∃ refusal, parse serde raw = .error refusal ∧ refusal.code = some ErrorCode.invalidRequest
  nullId : ∀ refusal, parse serde raw = .error refusal → refusal.id = none

/-- A text that the grammar has no reading of is refused as it should be. -/
theorem FollowsGrammar.of_refused {refusal : JsonRpcResponse}
    (h : parse serde raw = .error refusal) (hid : refusal.id = none)
    (hnot : ∀ fields, serde.fromStr raw = .ok (.object fields) →
      ¬ IsRequest fields ∧ ¬ IsResponse fields)
    (hjson : refusal.code = some ErrorCode.parseError ↔ ∀ v, serde.fromStr raw ≠ .ok v)
    (hinvalid : ∀ v, serde.fromStr raw = .ok v → refusal.code = some ErrorCode.invalidRequest) :
    FollowsGrammar serde raw where
  parseError := by
    rw [h, ← hjson]
    exact ⟨fun ⟨other, hother, hcode⟩ => Except.error.inj hother ▸ hcode,
      fun hcode => ⟨refusal, rfl, hcode⟩⟩
  request := by
    rw [h]
    exact ⟨fun ⟨_, hread⟩ => (nomatch hread),
      fun ⟨fields, htext, hrequest⟩ => absurd hrequest (hnot fields htext).1⟩
  notification _ _ _ hread := by
    rw [h] at hread
    cases hread
  transport _ hread := by
    rw [h] at hread
    cases hread
  response := by
    rw [h]
    exact ⟨fun ⟨_, hread⟩ => (nomatch hread),
      fun ⟨fields, htext, hresponse⟩ => absurd hresponse (hnot fields htext).2⟩
  invalidRequest v htext _ := ⟨refusal, h, hinvalid v htext⟩
  nullId other hother := by
    rw [h] at hother
    exact Except.error.inj hother ▸ hid

/-- A text that is read, as one message of the grammar, is read as it should be. -/
theorem FollowsGrammar.of_read {message : JsonRpcMessage}
    (htext : serde.fromStr raw = .ok (.object fields)) (h : parse serde raw = .ok message)
    (hmessage : (IsRequest fields ∧ ∃ read, message = .request read ∧
        read = .received read.jsonrpc read.method (optionValue (fields.get "params"))
          (fields.get "id")) ∨
      IsResponse fields ∧ ∃ read, message = .response read) : FollowsGrammar serde raw := by
  have hsame : ∀ other, serde.fromStr raw = .ok (.object other) → other = fields := by
    intro other hother
    exact Json.object.inj (Except.ok.inj (hother.symm.trans htext))
  have hnoError : ∀ refusal, parse serde raw ≠ .error refusal := by
    intro refusal hrefusal
    rw [h] at hrefusal
    cases hrefusal
  have hparse : (∃ refusal, parse serde raw = .error refusal ∧
      refusal.code = some ErrorCode.parseError) ↔ ∀ v, serde.fromStr raw ≠ .ok v :=
    ⟨fun ⟨refusal, hrefusal, _⟩ => absurd hrefusal (hnoError refusal),
      fun hnone => absurd htext (hnone _)⟩
  have hdisjoint : IsRequest fields → ¬ IsResponse fields := by
    intro hrequest hresponse
    obtain ⟨method, hmethod⟩ := hrequest.method
    rw [hresponse.method] at hmethod
    cases hmethod
  rcases hmessage with ⟨hrequest, read, rfl, hread⟩ | ⟨hresponse, read, rfl⟩
  · have hother : ∀ other, parse serde raw = .ok (.request other) → other = read := by
      intro other hother
      exact JsonRpcMessage.request.inj (Except.ok.inj (hother.symm.trans h))
    refine ⟨hparse, ⟨fun _ => ⟨fields, htext, hrequest⟩, fun _ => ⟨read, h⟩⟩, ?_, ?_, ?_, ?_, ?_⟩
    · intro other r hfields hr
      rw [hsame other hfields, hother r hr, hread]
      rfl
    · intro r hr
      rw [hother r hr, hread]
      exact ⟨rfl, rfl, rfl⟩
    · constructor
      · rintro ⟨r, hr⟩
        rw [h] at hr
        cases hr
      · rintro ⟨other, hfields, hresponse⟩
        exact absurd (hsame other hfields ▸ hresponse) (hdisjoint hrequest)
    · intro v hv hnot
      exact absurd hrequest (hnot fields (Except.ok.inj (hv.symm.trans htext))).1
    · exact fun refusal hrefusal => absurd hrefusal (hnoError refusal)
  · have hnot : ∀ other, parse serde raw ≠ .ok (.request other) := by
      intro other hother
      rw [h] at hother
      cases hother
    refine ⟨hparse, ?_, fun _ r _ hr => absurd hr (hnot r), fun r hr => absurd hr (hnot r),
      ⟨fun _ => ⟨fields, htext, hresponse⟩, fun _ => ⟨read, h⟩⟩, ?_, ?_⟩
    · constructor
      · exact fun ⟨r, hr⟩ => absurd hr (hnot r)
      · rintro ⟨other, hfields, hrequest⟩
        exact absurd hresponse (hdisjoint (hsame other hfields ▸ hrequest))
    · intro v hv hneither
      exact absurd hresponse (hneither fields (Except.ok.inj (hv.symm.trans htext))).2
    · exact fun refusal hrefusal => absurd hrefusal (hnoError refusal)

theorem FollowsGrammar.noSequence (follows : FollowsGrammar serde raw)
    (htext : serde.fromStr raw = .ok (.object fields)) : ¬ CarriesErrorSequence fields := by
  intro hcarries
  rcases parse_object htext with ⟨hrequest, -⟩ | ⟨-, hread⟩ | ⟨hnot, -⟩
  · obtain ⟨method, hmethod⟩ := hrequest.method
    rw [hcarries.method] at hmethod
    cases hmethod
  · obtain ⟨other, hother, hresponse⟩ := follows.response.mp hread
    obtain rfl := Json.object.inj (Except.ok.inj (hother.symm.trans htext))
    exact hcarries.not_response hresponse
  · exact hnot.2.2 hcarries

/-- The parser follows the grammar on every text but that of a response whose error is a sequence:
this one it takes. -/
theorem follows_grammar_iff (serde : Serde) (raw : String) : FollowsGrammar serde raw ↔
    ∀ fields, serde.fromStr raw = .ok (.object fields) → ¬ CarriesErrorSequence fields := by
  constructor
  · exact fun follows fields htext => follows.noSequence htext
  · intro hnone
    cases htext : serde.fromStr raw with
    | error e =>
      refine .of_refused (parse_text htext) rfl (fun fields h => ?_) ?_ (fun v h => ?_)
      · rw [htext] at h
        cases h
      · rw [htext]
        exact ⟨fun _ _ h => (nomatch h), fun _ => rfl⟩
      · rw [htext] at h
        cases h
    | ok v =>
      have hcode : ∀ reason, ((invalidRequest reason).code = some ErrorCode.parseError ↔
          ∀ v, serde.fromStr raw ≠ .ok v) := by
        intro reason
        rw [htext]
        refine ⟨fun h => ?_, fun h => absurd rfl (h v)⟩
        have hne : ErrorCode.invalidRequest ≠ ErrorCode.parseError := by decide
        exact absurd (Option.some.inj h) hne
      by_cases hobject : ∃ fields, v = .object fields
      · obtain ⟨fields, rfl⟩ := hobject
        rcases parse_object htext with ⟨hrequest, read, hread, hreceived⟩ |
          ⟨hresponse, read, hread⟩ | ⟨hnot, reason, hreason⟩
        · exact .of_read htext hread (.inl ⟨hrequest, read, rfl, hreceived⟩)
        · have hresponse := hresponse.resolve_right (hnone fields htext)
          exact .of_read htext hread (.inr ⟨hresponse, read, rfl⟩)
        · refine .of_refused hreason rfl (fun other h => ?_) (hcode reason) fun _ _ => rfl
          obtain rfl := Json.object.inj (Except.ok.inj (h.symm.trans htext))
          exact ⟨hnot.1, hnot.2.1⟩
      · obtain ⟨reason, hreason⟩ := parse_scalar htext fun fields h => hobject ⟨fields, h⟩
        refine .of_refused hreason rfl (fun fields h => ?_) (hcode reason) fun _ _ => rfl
        exact absurd ⟨fields, Except.ok.inj (htext.symm.trans h)⟩ hobject

end JsonRpcMessage

/-- A response whose error is a sequence. -/
def sequenceText : String :=
  "\x7b\x22jsonrpc\x22:\x222.0\x22,\x22id\x22:1,\x22error\x22:[1,\x22m\x22,null]\x7d"

def sequenceFields : Map :=
  [("error", .array [.number (.posInt 1), .string "m", .null]), ("id", .number (.posInt 1)),
    ("jsonrpc", .string "2.0")]

/-- What reads this text. -/
def sequenceSerde : Serde where
  fromStr text :=
    if text = sequenceText then .ok (.object sequenceFields)
    else .error "expected value at line 1 column 1"
  toVec _ := none
  requestReason _ := "missing field"
  responseReason _ := "missing field"

theorem error_sequence_taken : ¬ JsonRpcMessage.FollowsGrammar sequenceSerde sequenceText := by
  intro follows
  have hread : sequenceSerde.fromStr sequenceText = .ok (.object sequenceFields) := by
    simp only [sequenceSerde, if_true]
  exact follows.noSequence hread ⟨⟨rfl, ⟨"2.0", rfl⟩, _, rfl, .inr (.natural 1)⟩, rfl, _, rfl,
    .array (.posInt 1) "m" .null rfl⟩

end Tronc.Mcp
