import Tronc.Library.Binary64

namespace Tronc

/-- A JSON number as `serde_json` holds it: an unsigned or a negative integer of 64 bits, or a
finite double. -/
inductive Number where
  | posInt (n : UInt64)
  | negInt (i : {i : Int64 // i < 0})
  | float (x : {x : Binary64 // x.isFinite = true})
  deriving DecidableEq

/-- `Number::as_f64`. -/
def Number.asF64 : Number → Binary64
  | .posInt n => .ofInt n.toNat
  | .negInt i => .ofInt i.1.toInt
  | .float x => x.1

/-- `serde_json::Value`. -/
inductive Json where
  | null
  | bool (b : Bool)
  | number (n : Number)
  | string (s : String)
  | array (xs : List Json)
  | object (fields : List (String × Json))

mutual

def Json.decEq : (a b : Json) → Decidable (a = b)
  | .null, .null => isTrue rfl
  | .bool a, .bool b => decidable_of_iff (a = b) (by simp)
  | .number a, .number b => decidable_of_iff (a = b) (by simp)
  | .string a, .string b => decidable_of_iff (a = b) (by simp)
  | .array xs, .array ys =>
    match Json.decEqList xs ys with
    | isTrue h => isTrue (by rw [h])
    | isFalse h => isFalse (by simpa using h)
  | .object xs, .object ys =>
    match Json.decEqFields xs ys with
    | isTrue h => isTrue (by rw [h])
    | isFalse h => isFalse (by simpa using h)
  | .null, .bool _ | .null, .number _ | .null, .string _ | .null, .array _ | .null, .object _
  | .bool _, .null | .bool _, .number _ | .bool _, .string _ | .bool _, .array _
  | .bool _, .object _ | .number _, .null | .number _, .bool _ | .number _, .string _
  | .number _, .array _ | .number _, .object _ | .string _, .null | .string _, .bool _
  | .string _, .number _ | .string _, .array _ | .string _, .object _ | .array _, .null
  | .array _, .bool _ | .array _, .number _ | .array _, .string _ | .array _, .object _
  | .object _, .null | .object _, .bool _ | .object _, .number _ | .object _, .string _
  | .object _, .array _ => isFalse (by simp)

def Json.decEqList : (xs ys : List Json) → Decidable (xs = ys)
  | [], [] => isTrue rfl
  | [], _ :: _ | _ :: _, [] => isFalse (by simp)
  | x :: xs, y :: ys =>
    match Json.decEq x y, Json.decEqList xs ys with
    | isTrue h, isTrue t => isTrue (by rw [h, t])
    | isFalse h, _ => isFalse (by simp [h])
    | _, isFalse t => isFalse (by simp [t])

def Json.decEqFields : (xs ys : List (String × Json)) → Decidable (xs = ys)
  | [], [] => isTrue rfl
  | [], _ :: _ | _ :: _, [] => isFalse (by simp)
  | (k, x) :: xs, (l, y) :: ys =>
    match String.decEq k l, Json.decEq x y, Json.decEqFields xs ys with
    | isTrue hk, isTrue h, isTrue t => isTrue (by rw [hk, h, t])
    | isFalse hk, _, _ => isFalse (by simp [hk])
    | _, isFalse h, _ => isFalse (by simp [h])
    | _, _, isFalse t => isFalse (by simp [t])

end

instance : DecidableEq Json := Json.decEq

/-- `serde_json::Map<String, Value>`: the members of an object, each name once. -/
abbrev Map := List (String × Json)

namespace Map

def keys (m : Map) : List String := m.map Prod.fst

def get (m : Map) (key : String) : Option Json := m.lookup key

def containsKey (m : Map) (key : String) : Bool := (m.get key).isSome

theorem containsKey_of_some {m : Map} {key : String} {value : Json}
    (h : m.get key = some value) : m.containsKey key = true :=
  Option.isSome_iff_exists.mpr ⟨value, h⟩

theorem containsKey_of_none {m : Map} {key : String} (h : m.get key = none) :
    m.containsKey key = false := by
  unfold containsKey
  rw [h]
  rfl

theorem containsKey_iff {m : Map} {key : String} : m.containsKey key = true ↔ key ∈ m.keys := by
  induction m with
  | nil => simp [containsKey, get, keys]
  | cons e m ih =>
    obtain ⟨k, v⟩ := e
    simp only [containsKey, get, keys] at ih
    simp only [containsKey, get, keys, List.lookup_cons, List.map_cons, List.mem_cons]
    by_cases hk : key = k
    · simp [hk]
    · have hb : (key == k) = false := by simpa using hk
      simp [hb, hk, ih]

end Map

namespace Json

/-- `Value::get` by a string: the member of an object, and nothing of any other value. -/
def get (v : Json) (key : String) : Option Json :=
  match v with
  | .object fields => Map.get fields key
  | _ => none

/-- `Value::as_str`. -/
def asStr : Json → Option String
  | .string s => some s
  | _ => none

theorem asStr_eq_some {v : Json} {s : String} (h : v.asStr = some s) : v = .string s := by
  cases v with
  | string t => rw [Option.some.inj h]
  | _ => cases h

/-- `Value::as_f64`. -/
def asF64 : Json → Option Binary64
  | .number n => some n.asF64
  | _ => none

/-- The value that a chain of keys leads to. -/
def valueAt (v : Json) : List String → Option Json
  | [] => some v
  | key :: rest => (v.get key).bind fun v => v.valueAt rest

mutual

/-- How deep the arrays and objects of a value are nested. -/
def depth : Json → Nat
  | .array xs => depthEach xs + 1
  | .object fields => depthMembers fields + 1
  | .null | .bool _ | .number _ | .string _ => 0

def depthEach : List Json → Nat
  | [] => 0
  | x :: xs => max x.depth (depthEach xs)

def depthMembers : List (String × Json) → Nat
  | [] => 0
  | (_, x) :: fields => max x.depth (depthMembers fields)

end

/-- `Value::as_object`. -/
def asObject : Json → Option Map
  | .object fields => some fields
  | _ => none

theorem asObject_eq_some {v : Json} {fields : Map} (h : v.asObject = some fields) :
    v = .object fields := by
  cases v with
  | object m => rw [Option.some.inj h]
  | _ => cases h

end Json

end Tronc
