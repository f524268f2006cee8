import Tronc.Record

namespace Tronc.Mcp

open Record

/-- A JSON Schema property definition; an empty type is none. -/
structure PropertySchema where
  propertyType : String
  description : Option String
  items : Option PropertySchema
  properties : Option (List (String × PropertySchema))
  required : Option (List String)
  additionalProperties : Option Bool
  enumValues : Option (List Json)
  constValue : Option Json
  defaultValue : Option Json
  format : Option String
  pattern : Option String
  minimum : Option Binary64
  maximum : Option Binary64
  minLength : Option UInt64
  maxLength : Option UInt64
  minItems : Option UInt64
  maxItems : Option UInt64
  refPath : Option String
  oneOf : Option (List PropertySchema)
  anyOf : Option (List PropertySchema)
  allOf : Option (List PropertySchema)

/-- A JSON Schema of a tool's input or output; an empty type is none. -/
structure JsonSchema where
  schemaDialect : Option String
  schemaType : String
  description : Option String
  properties : Option (List (String × PropertySchema))
  required : Option (List String)
  additionalProperties : Option Bool
  defs : Option (List (String × PropertySchema))
  oneOf : Option (List PropertySchema)
  anyOf : Option (List PropertySchema)
  allOf : Option (List PropertySchema)

/-- A type is skipped when it is empty. -/
def typeField (name : String) : Option Json := if name = "" then none else some (.string name)

def readType : Option Json → Option String
  | none => some ""
  | some v => v.asStr

namespace PropertySchema

/-- The fields of a schema, with what is written of the schemas in it. -/
def fields (s : PropertySchema) (items properties oneOf anyOf allOf : Option Json) :
    List (String × Option Json) :=
  [("type", typeField s.propertyType), ("description", s.description.map .string),
    ("items", items), ("properties", properties),
    ("required", s.required.map (vec .string)),
    ("additionalProperties", s.additionalProperties.map .bool),
    ("enum", s.enumValues.map (vec id)), ("const", s.constValue), ("default", s.defaultValue),
    ("format", s.format.map .string), ("pattern", s.pattern.map .string),
    ("minimum", s.minimum.map f64), ("maximum", s.maximum.map f64),
    ("minLength", s.minLength.map u64), ("maxLength", s.maxLength.map u64),
    ("minItems", s.minItems.map u64), ("maxItems", s.maxItems.map u64),
    ("$ref", s.refPath.map .string), ("oneOf", oneOf), ("anyOf", anyOf), ("allOf", allOf)]

mutual

def toValue : PropertySchema → Json
  | ⟨propertyType, description, items, properties, required, additionalProperties, enumValues,
      constValue, defaultValue, format, pattern, minimum, maximum, minLength, maxLength, minItems,
      maxItems, refPath, oneOf, anyOf, allOf⟩ =>
    .object (compact (fields
      ⟨propertyType, description, items, properties, required, additionalProperties, enumValues,
        constValue, defaultValue, format, pattern, minimum, maximum, minLength, maxLength,
        minItems, maxItems, refPath, oneOf, anyOf, allOf⟩
      (match items with
        | some s => some s.toValue
        | none => none)
      (match properties with
        | some entries => some (.object (toValueMembers entries))
        | none => none)
      (match oneOf with
        | some schemas => some (.array (toValueEach schemas))
        | none => none)
      (match anyOf with
        | some schemas => some (.array (toValueEach schemas))
        | none => none)
      (match allOf with
        | some schemas => some (.array (toValueEach schemas))
        | none => none)))

def toValueEach : List PropertySchema → List Json
  | [] => []
  | s :: schemas => s.toValue :: toValueEach schemas

def toValueMembers : List (String × PropertySchema) → List (String × Json)
  | [] => []
  | (name, s) :: entries => (name, s.toValue) :: toValueMembers entries

end

def ofFields (readSchema : Json → Option PropertySchema) (field : String → Option Json) :
    Option PropertySchema := do
  let propertyType ← readType (field "type")
  let description ← optionalField Json.asStr (field "description")
  let items ← optionalField readSchema (field "items")
  let properties ← optionalField (readMap readSchema) (field "properties")
  let required ← optionalField (readVec Json.asStr) (field "required")
  let additionalProperties ← optionalField readBool (field "additionalProperties")
  let enumValues ← optionalField (readVec some) (field "enum")
  let constValue ← optionalField some (field "const")
  let defaultValue ← optionalField some (field "default")
  let format ← optionalField Json.asStr (field "format")
  let pattern ← optionalField Json.asStr (field "pattern")
  let minimum ← optionalField readF64 (field "minimum")
  let maximum ← optionalField readF64 (field "maximum")
  let minLength ← optionalField readU64 (field "minLength")
  let maxLength ← optionalField readU64 (field "maxLength")
  let minItems ← optionalField readU64 (field "minItems")
  let maxItems ← optionalField readU64 (field "maxItems")
  let refPath ← optionalField Json.asStr (field "$ref")
  let oneOf ← optionalField (readVec readSchema) (field "oneOf")
  let anyOf ← optionalField (readVec readSchema) (field "anyOf")
  let allOf ← optionalField (readVec readSchema) (field "allOf")
  return ⟨propertyType, description, items, properties, required, additionalProperties,
    enumValues, constValue, defaultValue, format, pattern, minimum, maximum, minLength, maxLength,
    minItems, maxItems, refPath, oneOf, anyOf, allOf⟩

def fieldNames : List String :=
  ["type", "description", "items", "properties", "required", "additionalProperties", "enum",
    "const", "default", "format", "pattern", "minimum", "maximum", "minLength", "maxLength",
    "minItems", "maxItems", "$ref", "oneOf", "anyOf", "allOf"]

/-- What is read of a value that is nested less deep than the fuel. -/
def fromValueWithin : Nat → Json → Option PropertySchema
  | 0, _ => none
  | fuel + 1, v => read fieldNames 5 (ofFields (fromValueWithin fuel)) v

def fromValue (v : Json) : Option PropertySchema := fromValueWithin (v.depth + 1) v

end PropertySchema

namespace JsonSchema

def fields (s : JsonSchema) : List (String × Option Json) :=
  [("$schema", s.schemaDialect.map .string), ("type", typeField s.schemaType),
    ("description", s.description.map .string),
    ("properties", s.properties.map (map PropertySchema.toValue)),
    ("required", s.required.map (vec .string)),
    ("additionalProperties", s.additionalProperties.map .bool),
    ("$defs", s.defs.map (map PropertySchema.toValue)),
    ("oneOf", s.oneOf.map (vec PropertySchema.toValue)),
    ("anyOf", s.anyOf.map (vec PropertySchema.toValue)),
    ("allOf", s.allOf.map (vec PropertySchema.toValue))]

def toValue (s : JsonSchema) : Json := .object (compact s.fields)

def ofFields (field : String → Option Json) : Option JsonSchema := do
  let schemaDialect ← optionalField Json.asStr (field "$schema")
  let schemaType ← readType (field "type")
  let description ← optionalField Json.asStr (field "description")
  let properties ← optionalField (readMap PropertySchema.fromValue) (field "properties")
  let required ← optionalField (readVec Json.asStr) (field "required")
  let additionalProperties ← optionalField readBool (field "additionalProperties")
  let defs ← optionalField (readMap PropertySchema.fromValue) (field "$defs")
  let oneOf ← optionalField (readVec PropertySchema.fromValue) (field "oneOf")
  let anyOf ← optionalField (readVec PropertySchema.fromValue) (field "anyOf")
  let allOf ← optionalField (readVec PropertySchema.fromValue) (field "allOf")
  return ⟨schemaDialect, schemaType, description, properties, required, additionalProperties,
    defs, oneOf, anyOf, allOf⟩

def fieldNames : List String :=
  ["$schema", "type", "description", "properties", "required", "additionalProperties", "$defs",
    "oneOf", "anyOf", "allOf"]

def fromValue : Json → Option JsonSchema := read fieldNames 5 ofFields

end JsonSchema

namespace PropertySchema

/-- A schema and the schemas in it. -/
inductive Part : PropertySchema → PropertySchema → Prop where
  | refl (s : PropertySchema) : Part s s
  | items {s t p : PropertySchema} : s.items = some t → Part t p → Part s p
  | property {s p : PropertySchema} {entries : List (String × PropertySchema)}
    {e : String × PropertySchema} : s.properties = some entries → e ∈ entries → Part e.2 p →
    Part s p
  | oneOf {s t p : PropertySchema} {schemas : List PropertySchema} : s.oneOf = some schemas →
    t ∈ schemas → Part t p → Part s p
  | anyOf {s t p : PropertySchema} {schemas : List PropertySchema} : s.anyOf = some schemas →
    t ∈ schemas → Part t p → Part s p
  | allOf {s t p : PropertySchema} {schemas : List PropertySchema} : s.allOf = some schemas →
    t ∈ schemas → Part t p → Part s p

/-- No value of its own is `null`, and its bounds are finite. -/
structure IsPlain (s : PropertySchema) : Prop where
  const : s.constValue ≠ some .null
  default : s.defaultValue ≠ some .null
  minimum : ∀ x, s.minimum = some x → x.isFinite = true
  maximum : ∀ x, s.maximum = some x → x.isFinite = true

end PropertySchema

/-- The schemas in a schema. -/
inductive JsonSchema.Part (s : JsonSchema) : PropertySchema → Prop where
  | property {p : PropertySchema} {entries : List (String × PropertySchema)}
    {e : String × PropertySchema} : s.properties = some entries → e ∈ entries → e.2.Part p →
    Part s p
  | defs {p : PropertySchema} {entries : List (String × PropertySchema)}
    {e : String × PropertySchema} : s.defs = some entries → e ∈ entries → e.2.Part p → Part s p
  | oneOf {t p : PropertySchema} {schemas : List PropertySchema} : s.oneOf = some schemas →
    t ∈ schemas → t.Part p → Part s p
  | anyOf {t p : PropertySchema} {schemas : List PropertySchema} : s.anyOf = some schemas →
    t ∈ schemas → t.Part p → Part s p
  | allOf {t p : PropertySchema} {schemas : List PropertySchema} : s.allOf = some schemas →
    t ∈ schemas → t.Part p → Part s p

end Tronc.Mcp
