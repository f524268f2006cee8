import Tronc.Mcp.Mirror

namespace Tronc.Mcp

/-- A property on a chain of `properties` from a schema's root whose annotation is a name. -/
inductive Annotated : Json → List String → String → Prop where
  | here {schema property : Json} {properties : Map} {key name : String} :
    schema.get "properties" = some (.object properties) → (key, property) ∈ properties →
    property.get X_MCP_HEADER = some (.string name) → Annotated schema [key] name
  | nested {schema property : Json} {properties : Map} {key name : String} {path : List String} :
    schema.get "properties" = some (.object properties) → (key, property) ∈ properties →
    Annotated property path name → Annotated schema (key :: path) name

/-- The header that an annotation's name stands for. -/
def paramHeader (name : String) : String := MCP_PARAM_PREFIX ++ Text.asciiLower name

/-- One of an object's properties is annotated, or has an annotation below it. -/
private def Below (properties : Map) (path : List String) (name : String) : Prop :=
  ∃ key property rest, (key, property) ∈ properties ∧ path = key :: rest ∧
    (rest = [] ∧ property.get X_MCP_HEADER = some (.string name) ∨ Annotated property rest name)

private theorem annotated_iff {schema : Json} {path : List String} {name : String} :
    Annotated schema path name ↔
      ∃ properties, schema.get "properties" = some (.object properties) ∧
        Below properties path name := by
  constructor
  · intro h
    cases h with
    | here hprops hmem hname => exact ⟨_, hprops, _, _, [], hmem, rfl, .inl ⟨rfl, hname⟩⟩
    | nested hprops hmem hbelow => exact ⟨_, hprops, _, _, _, hmem, rfl, .inr hbelow⟩
  · rintro ⟨properties, hprops, key, property, rest, hmem, rfl, (⟨rfl, hname⟩ | hbelow)⟩
    · exact .here hprops hmem hname
    · exact .nested hprops hmem hbelow

private theorem mem_annotation {property : Json} {path : List String} {a : MirroredArgument} :
    a ∈ annotation property path ↔
      ∃ name, property.get X_MCP_HEADER = some (.string name) ∧ a = ⟨paramHeader name, path⟩ := by
  unfold annotation
  cases hget : property.get X_MCP_HEADER with
  | none => simp
  | some value =>
    cases value with
    | string name => simp [Json.asStr, paramHeader]
    | null | bool _ | number _ | array _ | object _ => simp [Json.asStr]

variable {a : MirroredArgument}

/-- Below the path walked so far, the annotation an argument comes from. -/
private def From (a : MirroredArgument) (path : List String) (P : List String → String → Prop) :
    Prop := ∃ rest name, P rest name ∧ a = ⟨paramHeader name, path ++ rest⟩

private theorem from_congr {path : List String} {P Q : List String → String → Prop}
    (h : ∀ rest name, P rest name ↔ Q rest name) : From a path P ↔ From a path Q :=
  exists_congr fun rest => exists_congr fun name => and_congr_left fun _ => h rest name

private theorem not_from {path : List String} {P : List String → String → Prop}
    (h : ∀ rest name, ¬ P rest name) : ¬ From a path P := by
  rintro ⟨rest, name, hp, _⟩
  exact h rest name hp

mutual

private theorem mem_walk : (schema : Json) → (path : List String) →
    (a ∈ walk schema path ↔ From a path (Annotated schema))
  | .object fields, path => by
    rw [walk, mem_walkFields fields path]
    refine from_congr fun rest name => ?_
    rw [annotated_iff]
    rfl
  | .null, path | .bool _, path | .number _, path | .string _, path | .array _, path => by
    rw [walk]
    refine iff_of_false List.not_mem_nil (not_from fun rest name h => ?_)
    obtain ⟨_, hprops, _⟩ := annotated_iff.mp h
    cases hprops

private theorem mem_walkFields : (fields : List (String × Json)) → (path : List String) →
    (a ∈ walkFields fields path ↔ From a path fun rest name =>
      ∃ properties, Map.get fields "properties" = some (.object properties) ∧
        Below properties rest name)
  | [], path => by
    rw [walkFields]
    refine iff_of_false List.not_mem_nil (not_from fun rest name h => ?_)
    obtain ⟨_, hprops, _⟩ := h
    cases hprops
  | (key, value) :: fields, path => by
    rw [walkFields]
    by_cases hkey : "properties" = key
    · have hget : Map.get ((key, value) :: fields) "properties" = some value := by
        subst hkey
        exact List.lookup_cons_self
      rw [if_pos hkey, mem_walkProperties value path]
      refine from_congr fun rest name => ?_
      rw [hget]
      simp only [Option.some.injEq]
    · have hget : Map.get ((key, value) :: fields) "properties" = Map.get fields "properties" := by
        have hne : ("properties" == key) = false := beq_eq_false_iff_ne.mpr hkey
        unfold Map.get
        rw [List.lookup_cons, hne]
      rw [if_neg hkey, mem_walkFields fields path, hget]

private theorem mem_walkProperties : (value : Json) → (path : List String) →
    (a ∈ walkProperties value path ↔ From a path fun rest name =>
      ∃ properties, value = .object properties ∧ Below properties rest name)
  | .object properties, path => by
    rw [walkProperties, mem_walkEach properties path]
    refine from_congr fun rest name => ?_
    simp only [Json.object.injEq, exists_eq_left']
  | .null, path | .bool _, path | .number _, path | .string _, path | .array _, path => by
    rw [walkProperties]
    refine iff_of_false List.not_mem_nil (not_from fun rest name h => ?_)
    obtain ⟨_, hprops, _⟩ := h
    cases hprops

private theorem mem_walkEach : (properties : List (String × Json)) → (path : List String) →
    (a ∈ walkEach properties path ↔ From a path (Below properties))
  | [], path => by
    rw [walkEach]
    refine iff_of_false List.not_mem_nil (not_from fun rest name h => ?_)
    obtain ⟨_, _, _, hmem, _⟩ := h
    cases hmem
  | (key, property) :: properties, path => by
    rw [walkEach, List.mem_append, List.mem_append, mem_annotation,
      mem_walk property (path ++ [key]), mem_walkEach properties path]
    constructor
    · rintro ((⟨name, hname, rfl⟩ | ⟨rest, name, hbelow, rfl⟩) | ⟨rest, name, hrest, rfl⟩)
      · exact ⟨[key], name, ⟨key, property, [], List.mem_cons_self, rfl, .inl ⟨rfl, hname⟩⟩, rfl⟩
      · refine ⟨key :: rest, name, ⟨key, property, rest, List.mem_cons_self, rfl, .inr hbelow⟩, ?_⟩
        rw [List.append_assoc, List.singleton_append]
      · obtain ⟨key', property', tail, hmem, hpath, h⟩ := hrest
        exact ⟨rest, name, ⟨key', property', tail, List.mem_cons_of_mem _ hmem, hpath, h⟩, rfl⟩
    · rintro ⟨path', name, ⟨key', property', rest, hmem, rfl, h⟩, rfl⟩
      rcases List.mem_cons.mp hmem with heq | hmem
      · obtain ⟨rfl, rfl⟩ := Prod.mk.inj heq
        left
        rcases h with ⟨rfl, hname⟩ | hbelow
        · exact .inl ⟨name, hname, rfl⟩
        · refine .inr ⟨rest, name, hbelow, ?_⟩
          rw [List.append_assoc, List.singleton_append]
      · exact .inr ⟨key' :: rest, name, ⟨key', property', rest, hmem, rfl, h⟩, rfl⟩

end

/-- The walk finds every annotation on a chain of `properties`, and no other. -/
theorem mem_mirroredArguments {schema : Json} {header : String} {path : List String} :
    ⟨header, path⟩ ∈ mirroredArguments schema ↔
      ∃ name, Annotated schema path name ∧ header = paramHeader name := by
  unfold mirroredArguments
  rw [mem_walk]
  constructor
  · rintro ⟨rest, name, h, heq⟩
    obtain ⟨rfl, rfl⟩ := MirroredArgument.mk.inj heq
    exact ⟨name, h, rfl⟩
  · rintro ⟨name, h, rfl⟩
    exact ⟨path, name, h, rfl⟩

end Tronc.Mcp
