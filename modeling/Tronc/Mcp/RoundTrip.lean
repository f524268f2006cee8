import Mathlib.Data.List.Sort
import Mathlib.Data.String.Basic
import Tronc.Mcp.Grammar
import Tronc.Mcp.Serialize

namespace Tronc

/-- A finite double. -/
abbrev Double := {x : Binary64 // x.isFinite = true}

namespace Map

variable {m n : Map} {key : String} {v : Json}

theorem get_eq_some_iff (h : m.keys.Nodup) : m.get key = some v ↔ (key, v) ∈ m := by
  induction m with
  | nil => simp [get]
  | cons e m ih =>
    obtain ⟨k, x⟩ := e
    obtain ⟨hk, hm⟩ := List.nodup_cons.mp h
    have ih := ih hm
    unfold get at ih ⊢
    rw [List.lookup_cons, List.mem_cons, Prod.mk.injEq]
    by_cases hkey : key = k
    · subst hkey
      have hnot : (key, v) ∉ m := fun hmem => hk (List.mem_map.mpr ⟨(key, v), hmem, rfl⟩)
      simp [hnot, eq_comm]
    · have hb : (key == k) = false := by simpa using hkey
      simp [hb, hkey, ih]

/-- The order of the members is of no account. -/
theorem get_perm (h : m.keys.Nodup) (hperm : n.Perm m) : n.get key = m.get key := by
  have hn : n.keys.Nodup := (hperm.map Prod.fst).nodup_iff.mpr h
  refine Option.ext fun v => ?_
  rw [get_eq_some_iff h, get_eq_some_iff hn, hperm.mem_iff]

end Map

namespace Json

/-- A value and what is in it. -/
inductive Part : Json → Json → Prop where
  | refl (v : Json) : Part v v
  | element {xs : List Json} {x w : Json} : x ∈ xs → Part x w → Part (.array xs) w
  | member {fields : Map} {key : String} {x w : Json} : (key, x) ∈ fields → Part x w →
      Part (.object fields) w

/-- Every object in a value has its members in the order of their names, each once. -/
def Ordered (v : Json) : Prop := ∀ fields, Part v (.object fields) →
  (Map.keys fields).Pairwise (· < ·)

mutual

/-- What is read of the text of a value: the doubles as they are read, the members by name. -/
def reread (read : Double → Double) : Json → Json
  | .number (.float x) => .number (.float (read x))
  | .array xs => .array (rereadEach read xs)
  | .object fields => .object ((rereadMembers read fields).insertionSort fun a b => a.1 ≤ b.1)
  | .null => .null
  | .bool b => .bool b
  | .number (.posInt n) => .number (.posInt n)
  | .number (.negInt i) => .number (.negInt i)
  | .string s => .string s

def rereadEach (read : Double → Double) : List Json → List Json
  | [] => []
  | x :: xs => x.reread read :: rereadEach read xs

def rereadMembers (read : Double → Double) : List (String × Json) → List (String × Json)
  | [] => []
  | (key, x) :: fields => (key, x.reread read) :: rereadMembers read fields

end

variable {read : Double → Double} {fields : Map}

theorem rereadMembers_keys : Map.keys (rereadMembers read fields) = Map.keys fields := by
  induction fields with
  | nil => rfl
  | cons e fields ih =>
    show e.1 :: Map.keys (rereadMembers read fields) = e.1 :: Map.keys fields
    rw [ih]

theorem get_rereadMembers (key : String) :
    Map.get (rereadMembers read fields) key = (fields.get key).map (reread read) := by
  induction fields with
  | nil => rfl
  | cons e fields ih =>
    obtain ⟨k, x⟩ := e
    unfold Map.get at ih ⊢
    simp only [rereadMembers, List.lookup_cons]
    cases hkey : key == k with
    | true => rfl
    | false => exact ih

/-- What is read of a member. -/
theorem get_reread (read : Double → Double) (h : fields.keys.Nodup) (key : String) :
    Map.get ((rereadMembers read fields).insertionSort fun a b => a.1 ≤ b.1) key =
      (fields.get key).map (reread read) := by
  rw [← get_rereadMembers]
  exact Map.get_perm (by rw [rereadMembers_keys]; exact h) (List.perm_insertionSort _ _)

/-- Members in order are read in the same order. -/
theorem sort_rereadMembers (h : fields.keys.Pairwise (· < ·)) :
    ((rereadMembers read fields).insertionSort fun a b => a.1 ≤ b.1) =
      rereadMembers read fields := by
  have hkeys : (Map.keys (rereadMembers read fields)).Pairwise (· < ·) := by
    rw [rereadMembers_keys]
    exact h
  have hsorted : (rereadMembers read fields).Pairwise fun a b => a.1 ≤ b.1 :=
    (List.pairwise_map.mp hkeys).imp fun hlt => le_of_lt hlt
  exact hsorted.insertionSort_eq

/-- The doubles in a value. -/
def Doubled (v : Json) (x : Double) : Prop := Part v (.number (.float x))

theorem doubled_array {xs : List Json} {d : Double} :
    Doubled (.array xs) d ↔ ∃ x ∈ xs, Doubled x d := by
  constructor
  · intro h
    cases h with
    | element hmem hpart => exact ⟨_, hmem, hpart⟩
  · rintro ⟨x, hmem, hpart⟩
    exact .element hmem hpart

theorem doubled_object {d : Double} :
    Doubled (.object fields) d ↔ ∃ e ∈ fields, Doubled e.2 d := by
  constructor
  · intro h
    cases h with
    | member hmem hpart => exact ⟨_, hmem, hpart⟩
  · rintro ⟨e, hmem, hpart⟩
    exact .member hmem hpart

/-- No other value is a double. -/
theorem doubled_number {n : Number} {d : Double} : Doubled (.number n) d ↔ n = .float d := by
  constructor
  · intro h
    cases h
    rfl
  · rintro rfl
    exact .refl _

/-- Whether a member of an object has a double. -/
def MemberDoubled (fields : Map) (d : Double) : Prop := ∃ e ∈ fields, Doubled e.2 d

theorem memberDoubled_append {fields other : Map} {d : Double} :
    MemberDoubled (fields ++ other) d ↔ MemberDoubled fields d ∨ MemberDoubled other d := by
  simp only [MemberDoubled, List.mem_append, or_and_right, exists_or]

theorem memberDoubled_cons {key : String} {x : Json} {d : Double} :
    MemberDoubled ((key, x) :: fields) d ↔ Doubled x d ∨ MemberDoubled fields d := by
  simp only [MemberDoubled, List.exists_mem_cons_iff]

theorem not_memberDoubled_nil {d : Double} : ¬ MemberDoubled [] d :=
  fun ⟨_, hmem, _⟩ => absurd hmem List.not_mem_nil

theorem not_doubled_string {s : String} {d : Double} : ¬ Doubled (.string s) d :=
  fun h => nomatch h

theorem Ordered.element {xs : List Json} (h : Ordered (.array xs)) : ∀ x ∈ xs, Ordered x :=
  fun _ hx fields hpart => h fields (.element hx hpart)

theorem Ordered.member (h : Ordered (.object fields)) : ∀ e ∈ fields, Ordered e.2 :=
  fun _ he fields hpart => h fields (.member he hpart)

mutual

/-- A value is read back as it is if and only if each of its doubles is. -/
theorem reread_eq_self : (v : Json) → Ordered v →
    (v.reread read = v ↔ ∀ d, Doubled v d → read d = d)
  | .null, _ => ⟨fun _ _ h => (nomatch h), fun _ => rfl⟩
  | .bool _, _ => ⟨fun _ _ h => (nomatch h), fun _ => rfl⟩
  | .string _, _ => ⟨fun _ _ h => (nomatch h), fun _ => rfl⟩
  | .number (.posInt _), _ => ⟨fun _ _ h => (nomatch doubled_number.mp h), fun _ => rfl⟩
  | .number (.negInt _), _ => ⟨fun _ _ h => (nomatch doubled_number.mp h), fun _ => rfl⟩
  | .number (.float x), _ => by
    rw [reread]
    constructor
    · intro h d hd
      obtain rfl := Number.float.inj (doubled_number.mp hd)
      exact Number.float.inj (Json.number.inj h)
    · intro h
      rw [h x (.refl _)]
  | .array xs, h => by
    rw [reread, Json.array.injEq, rereadEach_eq_self xs h.element]
    exact forall_congr' fun d => imp_congr_left doubled_array.symm
  | .object fields, h => by
    rw [reread, sort_rereadMembers (h fields (.refl _)), Json.object.injEq,
      rereadMembers_eq_self fields h.member]
    exact forall_congr' fun d => imp_congr_left doubled_object.symm

theorem rereadEach_eq_self : (xs : List Json) → (∀ x ∈ xs, Ordered x) →
    (rereadEach read xs = xs ↔ ∀ d, (∃ x ∈ xs, Doubled x d) → read d = d)
  | [], _ => ⟨fun _ _ ⟨_, h, _⟩ => absurd h List.not_mem_nil, fun _ => rfl⟩
  | x :: xs, h => by
    obtain ⟨hx, hxs⟩ := List.forall_mem_cons.mp h
    rw [rereadEach, List.cons.injEq, reread_eq_self x hx, rereadEach_eq_self xs hxs]
    simp only [List.exists_mem_cons_iff, or_imp, forall_and]

theorem rereadMembers_eq_self : (fields : List (String × Json)) →
    (∀ e ∈ fields, Ordered e.2) →
    (rereadMembers read fields = fields ↔ ∀ d, (∃ e ∈ fields, Doubled e.2 d) → read d = d)
  | [], _ => ⟨fun _ _ ⟨_, h, _⟩ => absurd h List.not_mem_nil, fun _ => rfl⟩
  | (key, x) :: fields, h => by
    obtain ⟨hx, hfields⟩ := List.forall_mem_cons.mp h
    rw [rereadMembers, List.cons.injEq, Prod.mk.injEq, reread_eq_self x hx,
      rereadMembers_eq_self fields hfields]
    simp only [List.exists_mem_cons_iff, or_imp, forall_and, true_and]

end

end Json

namespace Mcp

/-- `Number::from` of an `i32`. -/
def Number.ofI32 (code : Int) : Number :=
  if h : Int64.ofInt code < 0 then .negInt ⟨Int64.ofInt code, h⟩
  else .posInt (UInt64.ofNat code.toNat)

theorem Number.asI32_ofI32 {code : Int} (hlow : -2 ^ 31 ≤ code) (hhigh : code < 2 ^ 31) :
    Number.asI32 (Number.ofI32 code) = some code := by
  have hvalue : (Int64.ofInt code).toInt = code :=
    Int64.toInt_ofInt_of_le (by omega) (by omega)
  unfold Number.ofI32
  split
  · show (if -2 ^ 31 ≤ (Int64.ofInt code).toInt then some (Int64.ofInt code).toInt else none) = _
    rw [hvalue, if_pos hlow]
  · rename_i hneg
    have hpos : 0 ≤ code := by
      rw [Int64.lt_iff_toInt_lt, hvalue] at hneg
      exact not_lt.mp hneg
    have hnat : (UInt64.ofNat code.toNat).toNat = code.toNat :=
      UInt64.toNat_ofNat_of_lt' (by show code.toNat < 2 ^ 64; omega)
    show (if (UInt64.ofNat code.toNat).toNat < 2 ^ 31 then
      some ((UInt64.ofNat code.toNat).toNat : Int) else none) = _
    rw [hnat, if_pos (by omega), Int.toNat_of_nonneg hpos]

/-- A field that is skipped when it is absent. -/
def member (name : String) (v : Option Json) : Map := v.toList.map fun v => (name, v)

/-- What is written of an error. -/
def JsonRpcError.fields (error : JsonRpcError) : Map :=
  [("code", .number (Number.ofI32 error.code)), ("message", .string error.message)] ++
    member "data" error.data

/-- What is written of a request. -/
def JsonRpcRequest.fields (request : JsonRpcRequest) : Map :=
  [("jsonrpc", .string request.jsonrpc), ("method", .string request.method)] ++
    member "params" request.params ++ member "id" request.id ++
    member "auth" (request.authToken.map .string) ++
    member "headers" (request.headers.map fun headers =>
      .object (headers.entries.map fun e => (e.1, e.2))) ++
    (if request.metadata.entries = [] then [] else
      [("metadata", .object (request.metadata.entries.map fun e => (e.1, .string e.2)))])

/-- What is written of a response: an id always. -/
def JsonRpcResponse.fields (response : JsonRpcResponse) : Map :=
  [("jsonrpc", .string response.jsonrpc)] ++ member "result" response.result ++
    member "error" (response.error.map fun error => .object error.fields) ++
    [("id", response.id.getD .null)]

section Fields

variable (jsonrpc method : String) (params id : Option Json) (response : JsonRpcResponse)
  (error : JsonRpcError)

theorem JsonRpcRequest.received_fields :
    (JsonRpcRequest.received jsonrpc method params id).fields =
      [("jsonrpc", .string jsonrpc), ("method", .string method)] ++ member "params" params ++
        member "id" id := by
  show _ ++ member "params" params ++ member "id" id ++ [] ++ [] ++ [] = _
  rw [List.append_nil, List.append_nil, List.append_nil]
  rfl

theorem JsonRpcRequest.received_keys :
    (JsonRpcRequest.received jsonrpc method params id).fields.keys.Nodup := by
  rw [received_fields]
  cases params <;> cases id <;> simp [Map.keys, member]

theorem JsonRpcRequest.received_get :
    (JsonRpcRequest.received jsonrpc method params id).fields.get "jsonrpc" =
        some (.string jsonrpc) ∧
      (JsonRpcRequest.received jsonrpc method params id).fields.get "method" =
        some (.string method) ∧
      (JsonRpcRequest.received jsonrpc method params id).fields.get "params" = params ∧
      (JsonRpcRequest.received jsonrpc method params id).fields.get "id" = id := by
  rw [received_fields]
  cases params <;> cases id <;> exact ⟨rfl, rfl, rfl, rfl⟩

theorem JsonRpcResponse.fields_keys : response.fields.keys.Nodup := by
  unfold fields
  cases response.result <;> cases response.error <;> simp [Map.keys, member]

theorem JsonRpcResponse.fields_get :
    response.fields.get "method" = none ∧
      response.fields.get "jsonrpc" = some (.string response.jsonrpc) ∧
      response.fields.get "result" = response.result ∧
      response.fields.get "error" = response.error.map (fun error => .object error.fields) ∧
      response.fields.get "id" = some (response.id.getD .null) := by
  unfold fields
  cases response.result <;> cases response.error <;> exact ⟨rfl, rfl, rfl, rfl, rfl⟩

theorem JsonRpcError.fields_keys : error.fields.keys.Nodup := by
  unfold fields
  cases error.data <;> simp [Map.keys, member]

theorem JsonRpcError.fields_get :
    error.fields.get "code" = some (.number (Number.ofI32 error.code)) ∧
      error.fields.get "message" = some (.string error.message) ∧
      error.fields.get "data" = error.data := by
  unfold fields
  cases error.data <;> exact ⟨rfl, rfl, rfl⟩

end Fields

namespace JsonRpcMessage

def toValue : JsonRpcMessage → Json
  | .request r => .object r.fields
  | .response r => .object r.fields

/-- The serialization of a message. -/
def serialize (crates : Crates) (message : JsonRpcMessage) : String :=
  toText crates message.toValue

/-- The value a message carries: its parameters, its result, or its error's data. -/
def payload : JsonRpcMessage → Option Json
  | .request r => r.params
  | .response r =>
    match r.error with
    | some error => error.data
    | none => r.result

def id : JsonRpcMessage → Option Json
  | .request r => r.id
  | .response r => r.id

/-- An id that a response may have. -/
def IsResponseId (id : Option Json) : Prop := ∀ v, id = some v → v = .null ∨ IsIdentifier v

/-- A message without the transport's fields. -/
inductive Built : JsonRpcMessage → Prop where
  | request (jsonrpc method : String) {params id : Option Json} :
      (∀ v, params = some v → v.Ordered) → (∀ v, id = some v → IsIdentifier v) →
      Built (.request (.received jsonrpc method params id))
  | success {id : Option Json} {result : Json} : IsResponseId id → result.Ordered →
      Built (.response (.success id result))
  | failure {id : Option Json} {code : Int} (message : String) : IsResponseId id →
      -2 ^ 31 ≤ code → code < 2 ^ 31 → Built (.response (.failure id code message))
  | failureWithData {id : Option Json} {code : Int} (message : String) {data : Json} :
      IsResponseId id → -2 ^ 31 ≤ code → code < 2 ^ 31 → data.Ordered →
      Built (.response (.failureWithData id code message data))

/-- What `serde_json` reads of the text it wrote of a value: the value, its members in the order of
their names and each double as `refloat` has it, unless one is out of range or arrays and objects are
nested more than 127 deep. -/
structure ReadsBack (crates : Crates) (serde : Serde) (refloat : Double → Option Double)
    (v : Json) : Prop where
  reads : v.depth ≤ 127 → (∀ d, v.Doubled d → (refloat d).isSome = true) →
    serde.fromStr (toText crates v) = .ok (v.reread fun d => (refloat d).getD d)
  refuses : (127 < v.depth ∨ ∃ d, v.Doubled d ∧ refloat d = none) →
    ∃ e, serde.fromStr (toText crates v) = .error e

section Read

variable {serde : Serde} {raw : String} {fields : Map} {jsonrpc method : String} {id : Json}

theorem parse_received (htext : serde.fromStr raw = .ok (.object fields))
    (hjsonrpc : fields.get "jsonrpc" = some (.string jsonrpc))
    (hmethod : fields.get "method" = some (.string method))
    (hid : ∀ id, fields.get "id" = some id → IsIdentifier id) :
    parse serde raw = .ok (.request (.received jsonrpc method (optionValue (fields.get "params"))
      (fields.get "id"))) := by
  have hkey : fields.containsKey "method" = true :=
    Map.containsKey_of_some hmethod
  have hany : (fields.get "id").any (fun id => !isRequestId id) = false := by
    cases hget : fields.get "id" with
    | none => rfl
    | some id =>
      have hid := isRequestId_iff.mpr (hid id hget)
      rw [Option.any_some, hid]
      rfl
  have hread : JsonRpcRequest.fromValue fields = some (.received jsonrpc method
      (optionValue (fields.get "params")) (fields.get "id")) := by
    unfold JsonRpcRequest.fromValue
    rw [hjsonrpc, hmethod, optionValue_eq_self hid]
  unfold parse
  rw [htext]
  dsimp only
  rw [hkey, hany, hread]
  rfl

theorem parse_answered (htext : serde.fromStr raw = .ok (.object fields))
    (hmethod : fields.get "method" = none)
    (hjsonrpc : fields.get "jsonrpc" = some (.string jsonrpc)) (hget : fields.get "id" = some id)
    (hid : id = .null ∨ IsIdentifier id)
    (hone : (fields.containsKey "result" == fields.containsKey "error") = false)
    {e : Option JsonRpcError}
    (herror : (optionValue (fields.get "error")).map JsonRpcError.fromValue = e.map some) :
    parse serde raw = .ok (.response ⟨jsonrpc, optionValue (fields.get "result"), e,
      optionValue (some id)⟩) := by
  have hkey : fields.containsKey "method" = false :=
    Map.containsKey_of_none hmethod
  have hversion : fields.containsKey "jsonrpc" = true :=
    Map.containsKey_of_some hjsonrpc
  have hread : JsonRpcResponse.fromValue fields = some ⟨jsonrpc,
      optionValue (fields.get "result"), e, optionValue (some id)⟩ := by
    unfold JsonRpcResponse.fromValue
    rw [hjsonrpc, hget]
    dsimp only
    cases hvalue : optionValue (fields.get "error") with
    | none =>
      rw [hvalue] at herror
      rw [Option.map_eq_none_iff.mp herror.symm]
    | some v =>
      rw [hvalue] at herror
      obtain ⟨e, rfl, he⟩ := Option.map_eq_some_iff.mp herror.symm
      dsimp only
      rw [← he]
      rfl
  unfold parse
  rw [htext]
  dsimp only
  rw [hkey]
  unfold parseResponse
  rw [idOk_iff.mpr ⟨id, hget, hid⟩, hone, hversion, hread]
  rfl

end Read

/-- What is absent or `null` is read as absent. -/
theorem optionValue_map_eq (f : Json → Json) (payload : Option Json) :
    optionValue (payload.map f) = payload ↔
      payload ≠ some .null ∧ ∀ v, payload = some v → f v = v := by
  cases payload with
  | none => simp [optionValue]
  | some v =>
    rw [Option.map_some, optionValue_eq_some]
    simp only [Option.some.injEq, ne_eq, forall_eq']
    constructor
    · rintro ⟨hv, hnull⟩
      exact ⟨hnull, hv⟩
    · rintro ⟨hnull, hv⟩
      exact ⟨hv, hnull⟩

theorem reread_identifier (read : Double → Double) {id : Json} (h : id = .null ∨ IsIdentifier id) :
    id.reread read = id := by
  rcases h with rfl | h
  · rfl
  · cases h <;> rfl

theorem isIdentifier_ofI32 (code : Int) : IsIdentifier (.number (Number.ofI32 code)) := by
  unfold Number.ofI32
  split
  · exact .negative _
  · exact .natural _

/-- What is read of an error that was written. -/
theorem fromValue_reread {read : Double → Double} {error : JsonRpcError}
    (hlow : -2 ^ 31 ≤ error.code) (hhigh : error.code < 2 ^ 31) :
    JsonRpcError.fromValue ((Json.object error.fields).reread read) =
      some ⟨error.code, error.message, optionValue (error.data.map (Json.reread read))⟩ := by
  obtain ⟨hcode, hmessage, hdata⟩ := error.fields_get
  have hreread := Json.get_reread read error.fields_keys
  have hnumber := reread_identifier read (.inr (isIdentifier_ofI32 error.code))
  unfold Json.reread JsonRpcError.fromValue
  dsimp only
  rw [hreread, hreread, hreread, hcode, hmessage, hdata, Option.map_some, Option.map_some, hnumber]
  show (Number.asI32 (Number.ofI32 error.code)).map _ = _
  rw [Number.asI32_ofI32 hlow hhigh]
  rfl

theorem parse_reread_request {serde : Serde} {raw jsonrpc method : String}
    {read : Double → Double} {params id : Option Json}
    (hid : ∀ v, id = some v → IsIdentifier v)
    (htext : serde.fromStr raw =
      .ok ((toValue (.request (.received jsonrpc method params id))).reread read)) :
    parse serde raw = .ok (.request (.received jsonrpc method
      (optionValue (params.map (Json.reread read))) id)) := by
  obtain ⟨hjsonrpc, hmethod, hparams, hget⟩ :=
    JsonRpcRequest.received_get jsonrpc method params id
  have hreread := Json.get_reread read
    (JsonRpcRequest.received_keys jsonrpc method params id)
  have hsame : id.map (Json.reread read) = id := by
    cases id with
    | none => rfl
    | some id => rw [Option.map_some, reread_identifier read (.inr (hid id rfl))]
  have hid' := hreread "id"
  have hparams' := hreread "params"
  have hjsonrpc' := hreread "jsonrpc"
  have hmethod' := hreread "method"
  rw [hget, hsame] at hid'
  rw [hparams] at hparams'
  rw [hjsonrpc] at hjsonrpc'
  rw [hmethod] at hmethod'
  unfold toValue Json.reread at htext
  have hparse := parse_received htext hjsonrpc' hmethod' (by rw [hid']; exact hid)
  rw [hid', hparams'] at hparse
  exact hparse

theorem parse_reread_response {serde : Serde} {raw : String} {read : Double → Double}
    {response : JsonRpcResponse} {e : Option JsonRpcError}
    (htext : serde.fromStr raw = .ok ((toValue (.response response)).reread read))
    (hid : IsResponseId response.id) (hone : response.result.isSome ≠ response.error.isSome)
    (herror : response.error.map (fun error =>
      JsonRpcError.fromValue ((Json.object error.fields).reread read)) = e.map some) :
    parse serde raw = .ok (.response ⟨response.jsonrpc,
      optionValue (response.result.map (Json.reread read)), e,
      optionValue (some (response.id.getD .null))⟩) := by
  obtain ⟨hmethod, hjsonrpc, hresult, herr, hget⟩ := response.fields_get
  have hreread := Json.get_reread read response.fields_keys
  have hvalid : response.id.getD .null = .null ∨ IsIdentifier (response.id.getD .null) := by
    cases h : response.id with
    | none => exact .inl rfl
    | some id => exact hid id h
  have hid' := hreread "id"
  have hmethod' := hreread "method"
  have hjsonrpc' := hreread "jsonrpc"
  have hresult' := hreread "result"
  have herr' := hreread "error"
  rw [hget, Option.map_some, reread_identifier read hvalid] at hid'
  rw [hmethod] at hmethod'
  rw [hjsonrpc] at hjsonrpc'
  rw [hresult] at hresult'
  rw [herr, Option.map_map] at herr'
  unfold toValue Json.reread at htext
  have hparse := parse_answered (e := e) htext hmethod' hjsonrpc' hid' hvalid ?_ ?_
  · rw [hresult'] at hparse
    exact hparse
  · unfold Map.containsKey
    rw [hresult', herr', Option.isSome_map, Option.isSome_map]
    exact beq_false_of_ne hone
  · rw [herr', ← herror]
    cases response.error with
    | none => rfl
    | some e => rfl

/-- A response is written with an id, `null` when it has none. -/
theorem optionValue_getD {id : Option Json} :
    optionValue (some (id.getD .null)) = id ↔ id ≠ some .null := by
  cases id with
  | none => simp [optionValue]
  | some id =>
    rw [Option.getD_some, optionValue_eq_some]
    simp

/-- What is read of a message is the message, if its payload is and neither the payload nor the id
is `null`. -/
theorem parse_reread {serde : Serde} {raw : String} {read : Double → Double}
    {message : JsonRpcMessage} (hbuilt : Built message)
    (htext : serde.fromStr raw = .ok (message.toValue.reread read)) :
    parse serde raw = .ok message ↔ message.payload ≠ some .null ∧ message.id ≠ some .null ∧
      ∀ v, message.payload = some v → v.reread read = v := by
  cases hbuilt with
  | @request jsonrpc method params id hparams hid =>
    have hnull : id ≠ some .null := fun h => nomatch hid .null h
    have hpayload := optionValue_map_eq (Json.reread read) params
    rw [parse_reread_request hid htext]
    show _ ↔ params ≠ some .null ∧ id ≠ some .null ∧ ∀ v, params = some v → v.reread read = v
    simp only [JsonRpcRequest.received, Except.ok.injEq, JsonRpcMessage.request.injEq,
      JsonRpcRequest.mk.injEq, true_and, and_true, hpayload]
    exact and_congr_right fun _ => (and_iff_right hnull).symm
  | @success id result hid hresult =>
    have hpayload := optionValue_map_eq (Json.reread read) (some result)
    rw [parse_reread_response (e := none) htext hid (by simp [JsonRpcResponse.success]) rfl]
    show _ ↔ some result ≠ some .null ∧ id ≠ some .null ∧
      ∀ v, some result = some v → v.reread read = v
    simp only [JsonRpcResponse.success, Except.ok.injEq, JsonRpcMessage.response.injEq,
      JsonRpcResponse.mk.injEq, true_and, hpayload, optionValue_getD]
    exact and_assoc.trans (and_congr_right fun _ => and_comm)
  | @failure id code message hid hlow hhigh =>
    have hread : JsonRpcError.fromValue ((Json.object (JsonRpcError.fields
        ⟨code, message, none⟩)).reread read) = some ⟨code, message, none⟩ :=
      fromValue_reread hlow hhigh
    rw [parse_reread_response (e := some ⟨code, message, none⟩) htext hid
      (by simp [JsonRpcResponse.failure]) (congrArg some hread)]
    show _ ↔ (none : Option Json) ≠ some .null ∧ id ≠ some .null ∧
      ∀ v : Json, none = some v → v.reread read = v
    simp only [JsonRpcResponse.failure, Except.ok.injEq, JsonRpcMessage.response.injEq,
      JsonRpcResponse.mk.injEq, true_and, optionValue_getD]
    simp [optionValue]
  | @failureWithData id code message data hid hlow hhigh hdata =>
    have hpayload := optionValue_map_eq (Json.reread read) (some data)
    have hread : JsonRpcError.fromValue ((Json.object (JsonRpcError.fields
        ⟨code, message, some data⟩)).reread read) =
        some ⟨code, message, optionValue ((some data).map (Json.reread read))⟩ :=
      fromValue_reread hlow hhigh
    rw [parse_reread_response
      (e := some ⟨code, message, optionValue ((some data).map (Json.reread read))⟩) htext hid
      (by simp [JsonRpcResponse.failureWithData]) (congrArg some hread)]
    show _ ↔ some data ≠ some .null ∧ id ≠ some .null ∧
      ∀ v, some data = some v → v.reread read = v
    have hnone : optionValue (Option.map (Json.reread read) none) = none := rfl
    simp only [JsonRpcResponse.failureWithData, Except.ok.injEq, JsonRpcMessage.response.injEq,
      JsonRpcResponse.mk.injEq, Option.some.injEq, JsonRpcError.mk.injEq, true_and, hnone]
    rw [hpayload, optionValue_getD]
    simp only [ne_eq, Option.some.injEq, forall_eq']
    exact and_assoc.trans (and_congr_right fun _ => and_comm)

theorem not_doubled_identifier {id : Json} {d : Double} (h : id = .null ∨ IsIdentifier id) :
    ¬ id.Doubled d := by
  intro hd
  rcases h with rfl | h
  · cases hd
  · cases h with
    | string s => cases hd
    | natural n => cases Json.doubled_number.mp hd
    | negative i => cases Json.doubled_number.mp hd

theorem memberDoubled_member {name : String} {v : Option Json} {d : Double} :
    Json.MemberDoubled (member name v) d ↔ ∃ x, v = some x ∧ x.Doubled d := by
  cases v with
  | none => exact ⟨fun h => absurd h Json.not_memberDoubled_nil, fun ⟨_, h, _⟩ => nomatch h⟩
  | some x =>
    show Json.MemberDoubled [(name, x)] d ↔ _
    rw [Json.memberDoubled_cons, or_iff_left Json.not_memberDoubled_nil]
    simp

/-- The doubles of a message are its payload's. -/
theorem doubled_toValue {message : JsonRpcMessage} (hbuilt : Built message) {d : Double} :
    message.toValue.Doubled d ↔ ∃ v, message.payload = some v ∧ v.Doubled d := by
  have response (r : JsonRpcResponse) (hid : IsResponseId r.id) :
      Json.Doubled (.object r.fields) d ↔ (∃ v, r.result = some v ∧ v.Doubled d) ∨
        ∃ v, (r.error.map fun error => Json.object error.fields) = some v ∧ v.Doubled d := by
    have hvalid : r.id.getD .null = .null ∨ IsIdentifier (r.id.getD .null) := by
      cases h : r.id with
      | none => exact .inl rfl
      | some id => exact hid id h
    rw [Json.doubled_object]
    show Json.MemberDoubled (_ ++ _ ++ _ ++ _) d ↔ _
    simp only [Json.memberDoubled_append, Json.memberDoubled_cons, Json.not_doubled_string,
      Json.not_memberDoubled_nil, memberDoubled_member, not_doubled_identifier hvalid, false_or,
      or_false]
  have error (e : JsonRpcError) :
      Json.Doubled (.object e.fields) d ↔ ∃ v, e.data = some v ∧ v.Doubled d := by
    have hcode : ¬ (Json.number (Number.ofI32 e.code)).Doubled d :=
      not_doubled_identifier (.inr (isIdentifier_ofI32 e.code))
    rw [Json.doubled_object]
    show Json.MemberDoubled (_ ++ _) d ↔ _
    simp only [Json.memberDoubled_append, Json.memberDoubled_cons, Json.not_doubled_string,
      Json.not_memberDoubled_nil, memberDoubled_member, hcode, false_or]
  cases hbuilt with
  | @request jsonrpc method params id hparams hid =>
    show Json.Doubled (.object _) d ↔ ∃ v, params = some v ∧ v.Doubled d
    have hnone : ¬ ∃ v, id = some v ∧ v.Doubled d :=
      fun ⟨v, hv, hd⟩ => not_doubled_identifier (.inr (hid v hv)) hd
    rw [Json.doubled_object, JsonRpcRequest.received_fields]
    show Json.MemberDoubled (_ ++ _ ++ _) d ↔ _
    simp only [Json.memberDoubled_append, Json.memberDoubled_cons, Json.not_doubled_string,
      Json.not_memberDoubled_nil, memberDoubled_member, hnone, false_or, or_false]
  | success hid hresult =>
    refine (response _ hid).trans (or_iff_left ?_)
    rintro ⟨v, hv, -⟩
    cases hv
  | @failure id code message hid hlow hhigh =>
    refine (response _ hid).trans ?_
    have hread := error ⟨code, message, none⟩
    simpa [JsonRpcResponse.failure, payload] using hread
  | @failureWithData id code message data hid hlow hhigh hdata =>
    refine (response _ hid).trans ?_
    have hread := error ⟨code, message, some data⟩
    simpa [JsonRpcResponse.failureWithData, payload] using hread

theorem Built.ordered {message : JsonRpcMessage} (hbuilt : Built message) {v : Json}
    (hv : message.payload = some v) : v.Ordered := by
  cases hbuilt with
  | request jsonrpc method hparams hid => exact hparams v hv
  | success hid hresult => exact Option.some.inj hv ▸ hresult
  | failure message hid hlow hhigh => cases hv
  | failureWithData message hid hlow hhigh hdata => exact Option.some.inj hv ▸ hdata

/-- When parsing the serialization of a message yields the message: when neither its payload nor its
id is a `null` that stands for a value, it is not too deep, and its doubles are read as they are. -/
theorem round_trips_iff {crates : Crates} {serde : Serde} {refloat : Double → Option Double}
    {message : JsonRpcMessage} (hbuilt : Built message)
    (hreads : ReadsBack crates serde refloat message.toValue) :
    parse serde (message.serialize crates) = .ok message ↔
      message.payload ≠ some .null ∧ message.id ≠ some .null ∧ message.toValue.depth ≤ 127 ∧
        ∀ v, message.payload = some v → ∀ d, v.Doubled d → refloat d = some d := by
  have hdoubled (d : Double) := doubled_toValue hbuilt (d := d)
  by_cases hdeep : message.toValue.depth ≤ 127
  · by_cases hrange : ∀ d, message.toValue.Doubled d → (refloat d).isSome = true
    · have hkept : (∀ v, message.payload = some v →
          v.reread (fun d => (refloat d).getD d) = v) ↔
          ∀ v, message.payload = some v → ∀ d, v.Doubled d → refloat d = some d := by
        refine forall_congr' fun v => forall_congr' fun hv => ?_
        rw [Json.reread_eq_self v (hbuilt.ordered hv)]
        refine forall_congr' fun d => forall_congr' fun hd => ?_
        obtain ⟨x, hx⟩ := Option.isSome_iff_exists.mp (hrange d ((hdoubled d).mpr ⟨v, hv, hd⟩))
        rw [hx, Option.getD_some, Option.some.injEq]
      unfold serialize
      rw [parse_reread hbuilt (hreads.reads hdeep hrange), hkept]
      exact and_congr_right fun _ => and_congr_right fun _ => (and_iff_right hdeep).symm
    · simp only [not_forall, Bool.not_eq_true, Option.isSome_eq_false_iff] at hrange
      obtain ⟨d, hd, hnone⟩ := hrange
      have hnone := Option.isNone_iff_eq_none.mp hnone
      obtain ⟨e, he⟩ := hreads.refuses (.inr ⟨d, hd, hnone⟩)
      refine iff_of_false (fun h => ?_) fun h => ?_
      · rw [serialize, parse_text he] at h
        cases h
      · obtain ⟨v, hv, hvd⟩ := (hdoubled d).mp hd
        rw [h.2.2.2 v hv d hvd] at hnone
        cases hnone
  · obtain ⟨e, he⟩ := hreads.refuses (.inl (not_le.mp hdeep))
    refine iff_of_false (fun h => ?_) fun h => hdeep h.2.2.1
    rw [serialize, parse_text he] at h
    cases h

/-- What reads one text. -/
def readingOnly (text : String) (v : Json) : Serde where
  fromStr raw := if raw = text then .ok v else .error "expected value at line 1 column 1"
  toVec _ := none
  requestReason _ := "missing field"
  responseReason _ := "missing field"

theorem readsBack_readingOnly {crates : Crates} {v : Json} (hdepth : v.depth ≤ 127) :
    ReadsBack crates (readingOnly (toText crates v) (v.reread fun d => d)) some v where
  reads _ _ := by
    simp only [readingOnly, if_true]
    rfl
  refuses h := by
    rcases h with h | ⟨d, _, h⟩
    · exact absurd hdepth (not_le.mpr h)
    · cases h

/-- A request whose parameters are a sequence. -/
def sumRequest : JsonRpcMessage :=
  .request (.received "2.0" "sum" (some (.array [.number (.posInt 1), .null])) (some (.string "1")))

theorem round_trips_sum : parse (readingOnly (sumRequest.serialize plainCrates)
    (sumRequest.toValue.reread fun d => d)) (sumRequest.serialize plainCrates) =
      .ok sumRequest := by
  have hparts : ∀ w, Json.Part (.array [.number (.posInt 1), .null]) w →
      w = .array [.number (.posInt 1), .null] ∨ w = .number (.posInt 1) ∨ w = .null := by
    intro w h
    cases h with
    | refl => exact .inl rfl
    | element hmem hpart =>
      simp only [List.mem_cons, List.not_mem_nil, or_false] at hmem
      rcases hmem with rfl | rfl
      · cases hpart
        exact .inr (.inl rfl)
      · cases hpart
        exact .inr (.inr rfl)
  have hordered : ∀ v, some (.array [.number (.posInt 1), .null]) = some v → Json.Ordered v := by
    intro v hv fields h
    obtain rfl := Option.some.inj hv
    rcases hparts _ h with h | h | h <;> cases h
  have hid : ∀ v, some (.string "1") = some v → IsIdentifier v := by
    intro v hv
    obtain rfl := Option.some.inj hv
    exact .string "1"
  refine (round_trips_iff (.request "2.0" "sum" hordered hid)
    (readsBack_readingOnly (by decide))).mpr ⟨?_, ?_, by decide, fun v hv d hd => rfl⟩
  · exact fun h => nomatch h
  · exact fun h => nomatch h

/-- A success whose result is `null`. -/
def nullResult : JsonRpcMessage := .response (.success (some (.number (.posInt 1))) .null)

theorem null_result_lost : nullResult.Built ∧
    ReadsBack plainCrates (readingOnly (nullResult.serialize plainCrates)
      (nullResult.toValue.reread fun d => d)) some nullResult.toValue ∧
    parse (readingOnly (nullResult.serialize plainCrates) (nullResult.toValue.reread fun d => d))
      (nullResult.serialize plainCrates) ≠ .ok nullResult := by
  have hid : IsResponseId (some (.number (.posInt 1))) := by
    intro v hv
    obtain rfl := Option.some.inj hv
    exact .inr (.natural 1)
  have hbuilt : nullResult.Built := .success hid fun fields h => nomatch h
  have hreads : ReadsBack plainCrates (readingOnly (nullResult.serialize plainCrates)
      (nullResult.toValue.reread fun d => d)) some nullResult.toValue :=
    readsBack_readingOnly (by decide)
  refine ⟨hbuilt, hreads, fun h => ?_⟩
  have htext := hreads.reads (by decide) fun _ _ => rfl
  exact ((parse_reread hbuilt htext).mp h).1 rfl

end JsonRpcMessage

end Mcp

end Tronc
