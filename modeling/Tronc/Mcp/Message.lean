import Tronc.Mcp.Protocol

namespace Tronc.Mcp

/-- What `serde_json` does on the way in and out: the value of a text, the bytes of a message, and
its reasons for refusing a request or a response. -/
structure Serde where
  fromStr : String → Except String Json
  toVec : JsonRpcMessage → Option (List UInt8)
  requestReason : Json → String
  responseReason : Json → String

/-- `Option<Value>`: `null` is read as absent. -/
def optionValue : Option Json → Option Json
  | some .null => none
  | v => v

/-- `i32`. -/
def Number.asI32 : Number → Option Int
  | .posInt n => if n.toNat < 2 ^ 31 then some n.toNat else none
  | .negInt i => if -2 ^ 31 ≤ i.1.toInt then some i.1.toInt else none
  | .float _ => none

/-- What `serde` reads of an error, from an object or from a sequence of its fields. -/
def JsonRpcError.fromValue : Json → Option JsonRpcError
  | .object fields =>
    match Map.get fields "code", Map.get fields "message" with
    | some (.number code), some (.string message) =>
      (Number.asI32 code).map fun code => ⟨code, message, optionValue (Map.get fields "data")⟩
    | _, _ => none
  | .array [.number code, .string message, data] =>
    (Number.asI32 code).map fun code => ⟨code, message, optionValue (some data)⟩
  | _ => none

/-- What `serde` reads of a request's body. -/
def JsonRpcRequest.fromValue (fields : Map) : Option JsonRpcRequest :=
  match fields.get "jsonrpc", fields.get "method" with
  | some (.string jsonrpc), some (.string method) =>
    some (.received jsonrpc method (optionValue (fields.get "params"))
      (optionValue (fields.get "id")))
  | _, _ => none

def JsonRpcResponse.fromValue (fields : Map) : Option JsonRpcResponse :=
  match fields.get "jsonrpc" with
  | some (.string jsonrpc) =>
    let id := optionValue (fields.get "id")
    let result := optionValue (fields.get "result")
    match optionValue (fields.get "error") with
    | none => some ⟨jsonrpc, result, none, id⟩
    | some error => (JsonRpcError.fromValue error).map fun error => ⟨jsonrpc, result, some error, id⟩
  | _ => none

/-- Whether `id` may identify a request: a string or an integer. -/
def isRequestId : Json → Bool
  | .string _ => true
  | .number (.posInt _) | .number (.negInt _) => true
  | .number (.float _) => false
  | .null | .bool _ | .array _ | .object _ => false

/-- A refusal carrying no id. -/
def invalidRequest (reason : String) : JsonRpcResponse :=
  .failure none ErrorCode.invalidRequest reason

namespace JsonRpcMessage

variable (serde : Serde)

/-- Read an object without a `method` as a response. -/
def parseResponse (fields : Map) : Except JsonRpcResponse JsonRpcMessage :=
  let idOk := (fields.get "id").any fun id => id == .null || isRequestId id
  if !idOk || fields.containsKey "result" == fields.containsKey "error" ||
      !fields.containsKey "jsonrpc" then
    .error (invalidRequest ("Invalid Request: a message without a method must be a response, " ++
      "with an id and exactly one of result and error"))
  else
    match JsonRpcResponse.fromValue fields with
    | some read => .ok (.response read)
    | none => .error (invalidRequest ("Invalid Request: " ++ serde.responseReason (.object fields)))

/-- Read one message from a body. -/
def parse (raw : String) : Except JsonRpcResponse JsonRpcMessage :=
  match serde.fromStr raw with
  | .error e => .error (.failure none ErrorCode.parseError ("Parse error: " ++ e))
  | .ok (.object fields) =>
    if !Map.containsKey fields "method" then parseResponse serde fields
    else if (Map.get fields "id").any fun id => !isRequestId id then
      .error (invalidRequest "Invalid Request: id must be a string or an integer")
    else
      match JsonRpcRequest.fromValue fields with
      | some read => .ok (.request read)
      | none => .error (invalidRequest ("Invalid Request: " ++ serde.requestReason (.object fields)))
  | .ok (.array _) =>
    .error (invalidRequest "Invalid Request: batch requests are not supported")
  | .ok _ => .error (invalidRequest "Invalid Request: a request must be a JSON object")

variable {serde : Serde} {raw : String} {fields : Map}

/-- What every refusal of a message is. -/
structure IsRefusal (refusal : JsonRpcResponse) : Prop where
  /-- A message that is not well formed cannot be trusted with the id it is answered under. -/
  id : refusal.id = none
  error : refusal.error.isSome = true
  result : refusal.result = none

theorem isRefusal_invalidRequest (reason : String) : IsRefusal (invalidRequest reason) :=
  ⟨rfl, rfl, rfl⟩

/-- An object without a method is refused or a response. -/
theorem parseResponse_cases (serde : Serde) (fields : Map) :
    (∃ read, parseResponse serde fields = .ok (.response read)) ∨
      ∃ reason, parseResponse serde fields = .error (invalidRequest reason) := by
  unfold parseResponse
  dsimp only
  split
  · exact .inr ⟨_, rfl⟩
  · split
    · rename_i read _
      exact .inl ⟨read, rfl⟩
    · exact .inr ⟨_, rfl⟩

theorem parse_refusal {refusal : JsonRpcResponse} (h : parse serde raw = .error refusal) :
    IsRefusal refusal := by
  unfold parse at h
  split at h
  · rw [← Except.error.inj h]
    exact ⟨rfl, rfl, rfl⟩
  · rename_i fields _
    split at h
    · rcases parseResponse_cases serde fields with ⟨read, hread⟩ | ⟨reason, hreason⟩
      · rw [hread] at h
        cases h
      · rw [hreason] at h
        rw [← Except.error.inj h]
        exact isRefusal_invalidRequest reason
    · split at h
      · rw [← Except.error.inj h]
        exact isRefusal_invalidRequest _
      · split at h
        · cases h
        · rw [← Except.error.inj h]
          exact isRefusal_invalidRequest _
  · rw [← Except.error.inj h]
    exact isRefusal_invalidRequest _
  · rw [← Except.error.inj h]
    exact isRefusal_invalidRequest _

end JsonRpcMessage

end Tronc.Mcp
