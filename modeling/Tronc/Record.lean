import Mathlib.Data.List.Nodup
import Tronc.Json

namespace Tronc

/-- A field that may be absent or null. -/
def Mcp.optionalField {α : Type} (read : Json → Option α) : Option Json → Option (Option α)
  | none | some .null => some none
  | some value => (read value).map some

/-! A record of named fields, as it is derived for a structure: an object without the fields that are
skipped, read from an object or from a sequence of its fields. -/
namespace Record

open Mcp (optionalField)

/-- The members that are written: the fields that are not skipped. -/
def compact (fields : List (String × Option Json)) : Map :=
  fields.filterMap fun e => e.2.map fun v => (e.1, v)

/-- What is read of a value that has fields by these names, of a sequence the first `least` at
least. -/
def read {α : Type} (names : List String) (least : Nat)
    (ofFields : (String → Option Json) → Option α) : Json → Option α
  | .object fields => ofFields (Map.get fields)
  | .array xs =>
    if least ≤ xs.length ∧ xs.length ≤ names.length then ofFields fun name => (names.zip xs).lookup name
    else none
  | .null | .bool _ | .number _ | .string _ => none

def readU64 : Json → Option UInt64
  | .number (.posInt n) => some n
  | _ => none

def readBool : Json → Option Bool
  | .bool b => some b
  | _ => none

/-- What is read of any number as a double. -/
def readF64 : Json → Option Binary64 := Json.asF64

def readNumber : Json → Option Number
  | .number n => some n
  | _ => none

/-- One of these names, or an object with that one member and null in it. -/
def readName {α : Type} (names : List (String × α)) : Json → Option α
  | .string name => names.lookup name
  | .object [(name, .null)] => names.lookup name
  | _ => none

/-- A sequence, each element read. -/
def readVec {α : Type} (read : Json → Option α) : Json → Option (List α)
  | .array xs => xs.mapM read
  | _ => none

/-- A map by name, each value read. -/
def readMap {α : Type} (read : Json → Option α) : Json → Option (List (String × α))
  | .object fields => fields.mapM fun e => (read e.2).map fun a => (e.1, a)
  | _ => none

def u64 (n : UInt64) : Json := .number (.posInt n)

/-- A double, and `null` for an infinity or a NaN. -/
def f64 (x : Binary64) : Json := if h : x.isFinite = true then .number (.float ⟨x, h⟩) else .null

def vec {α : Type} (write : α → Json) (xs : List α) : Json := .array (xs.map write)

def map {α : Type} (write : α → Json) (entries : List (String × α)) : Json :=
  .object (entries.map fun e => (e.1, write e.2))

section Laws

variable {α : Type} {write : α → Json} {readOne : Json → Option α}

theorem compact_cons (name : String) (v : Option Json) (fields : List (String × Option Json)) :
    compact ((name, v) :: fields) = (v.map fun v => (name, v)).toList ++ compact fields := by
  cases v <;> rfl

theorem keys_compact_sublist (fields : List (String × Option Json)) :
    (compact fields).keys.Sublist (fields.map Prod.fst) := by
  induction fields with
  | nil => exact .slnil
  | cons e fields ih =>
    obtain ⟨name, v⟩ := e
    cases v with
    | none => exact ih.cons name
    | some v => exact ih.cons_cons name

theorem get_of_not_mem {m : Map} {key : String} (h : key ∉ m.keys) : m.get key = none := by
  by_contra hget
  obtain ⟨v, hv⟩ := Option.ne_none_iff_exists'.mp hget
  exact h (Map.containsKey_iff.mp (Map.containsKey_of_some hv))

theorem get_compact_of_not_mem {fields : List (String × Option Json)} {key : String}
    (h : key ∉ fields.map Prod.fst) : (compact fields).get key = none :=
  get_of_not_mem fun hkey => h ((keys_compact_sublist fields).subset hkey)

/-- A field is written under its own name, and read there. -/
theorem get_compact {fields : List (String × Option Json)} (h : (fields.map Prod.fst).Nodup)
    (key : String) : Map.get (compact fields) key = (fields.lookup key).join := by
  induction fields with
  | nil => rfl
  | cons e fields ih =>
    obtain ⟨name, v⟩ := e
    obtain ⟨hname, hrest⟩ := List.nodup_cons.mp h
    have ih := ih hrest
    rw [compact_cons, List.lookup_cons]
    cases v with
    | none =>
      by_cases hkey : key = name
      · subst hkey
        have hnot : key ∉ (compact fields).keys :=
          fun hmem => hname ((keys_compact_sublist fields).subset hmem)
        have hnone := get_of_not_mem hnot
        simpa using hnone
      · have hb : (key == name) = false := by simpa using hkey
        simpa [hb] using ih
    | some v =>
      unfold Map.get at ih ⊢
      by_cases hkey : key = name
      · simp [hkey]
      · have hb : (key == name) = false := by simpa using hkey
        simpa [hb, List.lookup_cons] using ih

theorem get_field {fields : List (String × Option Json)} (h : (fields.map Prod.fst).Nodup) :
    ∀ e ∈ fields, Map.get (compact fields) e.1 = e.2 := by
  intro e he
  have hlookup : fields.lookup e.1 = some e.2 := by
    induction fields with
    | nil => cases he
    | cons d fields ih =>
      obtain ⟨hname, hrest⟩ := List.nodup_cons.mp h
      rcases List.mem_cons.mp he with rfl | he
      · exact List.lookup_cons_self
      · have hne : e.1 ≠ d.1 := fun heq => hname (heq ▸ List.mem_map.mpr ⟨e, he, rfl⟩)
        have hb : (e.1 == d.1) = false := beq_eq_false_iff_ne.mpr hne
        rw [List.lookup_cons, hb]
        exact ih hrest he
  rw [get_compact h, hlookup]
  rfl

/-- A field that may be absent is read as it was if and only if its value is. -/
theorem optionalField_map_iff {o : Option α} (hnull : ∀ a, write a ≠ .null) :
    optionalField readOne (o.map write) = some o ↔
      ∀ a, o = some a → readOne (write a) = some a := by
  cases o with
  | none => exact iff_of_true rfl fun a h => nomatch h
  | some a =>
    have hfield : optionalField readOne (some (write a)) = (readOne (write a)).map some := by
      unfold optionalField
      split
      · rename_i heq
        cases heq
      · rename_i heq
        exact absurd (Option.some.inj heq) (hnull a)
      · rename_i heq
        rw [Option.some.inj heq]
    rw [Option.map_some, hfield]
    constructor
    · intro h b hb
      obtain ⟨c, hc, hsome⟩ := Option.map_eq_some_iff.mp h
      rw [← Option.some.inj hb, hc, Option.some.inj hsome]
    · intro h
      rw [h a rfl]
      rfl

theorem optionalField_map (o : Option α)
    (h : ∀ a, readOne (write a) = some a ∧ write a ≠ .null) :
    optionalField readOne (o.map write) = some o :=
  (optionalField_map_iff fun a => (h a).2).mpr fun a _ => (h a).1

theorem optionalField_eq_some {v : Option Json} {a : α}
    (h : optionalField readOne v = some (some a)) : ∃ x, v = some x ∧ readOne x = some a := by
  cases v with
  | none => cases Option.some.inj h
  | some x =>
    unfold optionalField at h
    split at h
    · cases Option.some.inj h
    · cases Option.some.inj h
    · obtain ⟨b, hb, hsome⟩ := Option.map_eq_some_iff.mp h
      rename_i heq
      rw [Option.some.inj heq, ← Option.some.inj hsome]
      exact ⟨_, rfl, hb⟩

theorem mapM_map_iff {xs : List α} :
    (xs.map write).mapM readOne = some xs ↔ ∀ a ∈ xs, readOne (write a) = some a := by
  induction xs with
  | nil => exact iff_of_true rfl fun a h => absurd h List.not_mem_nil
  | cons a xs ih =>
    rw [List.map_cons, List.mapM_cons, List.forall_mem_cons, ← ih]
    constructor
    · intro h
      obtain ⟨b, hb, h⟩ := Option.bind_eq_some_iff.mp h
      obtain ⟨bs, hbs, h⟩ := Option.bind_eq_some_iff.mp h
      obtain ⟨rfl, rfl⟩ := List.cons.inj (Option.some.inj h)
      exact ⟨hb, hbs⟩
    · rintro ⟨ha, hxs⟩
      rw [ha, hxs]
      rfl

theorem readVec_vec_iff {xs : List α} :
    readVec readOne (vec write xs) = some xs ↔ ∀ a ∈ xs, readOne (write a) = some a :=
  mapM_map_iff

theorem readVec_vec {xs : List α} (h : ∀ a ∈ xs, readOne (write a) = some a) :
    readVec readOne (vec write xs) = some xs := readVec_vec_iff.mpr h

theorem readMap_map_iff {entries : List (String × α)} :
    readMap readOne (map write entries) = some entries ↔
      ∀ e ∈ entries, readOne (write e.2) = some e.2 := by
  show (entries.map fun e => (e.1, write e.2)).mapM _ = some entries ↔ _
  induction entries with
  | nil => exact iff_of_true rfl fun a h => absurd h List.not_mem_nil
  | cons e entries ih =>
    rw [List.map_cons, List.mapM_cons, List.forall_mem_cons, ← ih]
    constructor
    · intro h
      obtain ⟨b, hb, h⟩ := Option.bind_eq_some_iff.mp h
      obtain ⟨bs, hbs, h⟩ := Option.bind_eq_some_iff.mp h
      obtain ⟨rfl, rfl⟩ := List.cons.inj (Option.some.inj h)
      obtain ⟨c, hc, hpair⟩ := Option.map_eq_some_iff.mp hb
      rw [hc, ← hpair]
      exact ⟨rfl, hbs⟩
    · rintro ⟨he, hentries⟩
      rw [he, hentries]
      rfl

theorem readMap_map {entries : List (String × α)}
    (h : ∀ e ∈ entries, readOne (write e.2) = some e.2) :
    readMap readOne (map write entries) = some entries := readMap_map_iff.mpr h

/-- What is read of the object of these fields is what is read of the fields themselves. -/
theorem read_compact {β : Type} {names : List String} {least : Nat}
    {ofFields : (String → Option Json) → Option β} {fields : List (String × Option Json)} {b : β}
    (hnames : (fields.map Prod.fst).Nodup)
    (h : ∀ field, (∀ e ∈ fields, field e.1 = e.2) → ofFields field = some b) :
    read names least ofFields (.object (compact fields)) = some b :=
  h _ (get_field hnames)

theorem read_congr {β : Type} {names : List String} {least : Nat}
    {ofFields other : (String → Option Json) → Option β} {v : Json}
    (hobject : ∀ fields, v = .object fields → ofFields (Map.get fields) = other (Map.get fields))
    (harray : ∀ xs, v = .array xs → (ofFields fun name => (names.zip xs).lookup name) =
      other fun name => (names.zip xs).lookup name) :
    read names least ofFields v = read names least other v := by
  cases v with
  | object fields => exact hobject fields rfl
  | array xs =>
    unfold read
    dsimp only
    rw [harray xs rfl]
  | _ => rfl

theorem optionalStr (o : Option String) : optionalField Json.asStr (o.map .string) = some o :=
  optionalField_map o fun _ => ⟨rfl, fun h => nomatch h⟩

theorem optionalU64 (o : Option UInt64) : optionalField readU64 (o.map u64) = some o :=
  optionalField_map o fun _ => ⟨rfl, fun h => nomatch h⟩

theorem optionalNumber (o : Option Number) : optionalField readNumber (o.map .number) = some o :=
  optionalField_map o fun _ => ⟨rfl, fun h => nomatch h⟩

theorem optionalBool (o : Option Bool) : optionalField readBool (o.map .bool) = some o :=
  optionalField_map o fun _ => ⟨rfl, fun h => nomatch h⟩

theorem readStrings (xs : List String) : readVec Json.asStr (vec .string xs) = some xs :=
  readVec_vec fun _ _ => rfl

theorem optionalStrings (o : Option (List String)) :
    optionalField (readVec Json.asStr) (o.map (vec .string)) = some o :=
  optionalField_map o fun xs => ⟨readStrings xs, fun h => nomatch h⟩

/-- A double is read as it was if it is finite. -/
theorem optionalF64_iff {o : Option Binary64} :
    optionalField readF64 (o.map f64) = some o ↔ ∀ x, o = some x → x.isFinite = true := by
  cases o with
  | none => exact iff_of_true rfl fun x h => nomatch h
  | some x =>
    rw [Option.map_some, f64]
    by_cases hx : x.isFinite = true
    · rw [dif_pos hx]
      exact iff_of_true rfl fun y hy => Option.some.inj hy ▸ hx
    · rw [dif_neg hx]
      exact iff_of_false (fun h => nomatch h) fun h => hx (h x rfl)

/-- Any value is read as it was but for `null`, which reads as no value. -/
theorem optionalValue_iff {o : Option Json} : optionalField some o = some o ↔ o ≠ some .null := by
  cases o with
  | none => exact iff_of_true rfl fun h => nomatch h
  | some v =>
    cases v with
    | null => exact iff_of_false (fun h => nomatch h) fun h => h rfl
    | _ => exact iff_of_true rfl fun h => nomatch h

end Laws

end Record

end Tronc
