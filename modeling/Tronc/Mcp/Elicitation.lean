import Tronc.Record

namespace Tronc.Mcp

open Record

inductive ObjectType where
  | object
  deriving DecidableEq

inductive StringType where
  | string
  deriving DecidableEq

inductive NumberType where
  | number
  | integer
  deriving DecidableEq

inductive BooleanType where
  | boolean
  deriving DecidableEq

inductive ArrayType where
  | array
  deriving DecidableEq

/-- The formats a string may be required to have. -/
inductive StringFormat where
  | email
  | uri
  | date
  | dateTime
  deriving DecidableEq

def ObjectType.asStr : ObjectType → String
  | object => "object"

def StringType.asStr : StringType → String
  | string => "string"

def NumberType.asStr : NumberType → String
  | number => "number"
  | integer => "integer"

def BooleanType.asStr : BooleanType → String
  | boolean => "boolean"

def ArrayType.asStr : ArrayType → String
  | array => "array"

def StringFormat.asStr : StringFormat → String
  | email => "email"
  | uri => "uri"
  | date => "date"
  | dateTime => "date-time"

def ObjectType.fromValue : Json → Option ObjectType := readName [("object", .object)]

def StringType.fromValue : Json → Option StringType := readName [("string", .string)]

def NumberType.fromValue : Json → Option NumberType :=
  readName [("number", .number), ("integer", .integer)]

def BooleanType.fromValue : Json → Option BooleanType := readName [("boolean", .boolean)]

def ArrayType.fromValue : Json → Option ArrayType := readName [("array", .array)]

def StringFormat.fromValue : Json → Option StringFormat :=
  readName [("email", .email), ("uri", .uri), ("date", .date), ("date-time", .dateTime)]

/-- A free-text field. -/
structure StringSchema where
  kind : StringType
  title : Option String
  description : Option String
  minLength : Option UInt64
  maxLength : Option UInt64
  format : Option StringFormat
  default : Option String
  deriving DecidableEq

namespace StringSchema

def fields (s : StringSchema) : List (String × Option Json) :=
  [("type", some (.string s.kind.asStr)), ("title", s.title.map .string),
    ("description", s.description.map .string), ("minLength", s.minLength.map u64),
    ("maxLength", s.maxLength.map u64),
    ("format", s.format.map fun format => .string format.asStr),
    ("default", s.default.map .string)]

def ofFields (field : String → Option Json) : Option StringSchema := do
  let kind ← (field "type").bind StringType.fromValue
  let title ← optionalField Json.asStr (field "title")
  let description ← optionalField Json.asStr (field "description")
  let minLength ← optionalField readU64 (field "minLength")
  let maxLength ← optionalField readU64 (field "maxLength")
  let format ← optionalField StringFormat.fromValue (field "format")
  let default ← optionalField Json.asStr (field "default")
  return ⟨kind, title, description, minLength, maxLength, format, default⟩

def toValue (s : StringSchema) : Json := .object (compact s.fields)

def fromValue : Json → Option StringSchema :=
  read ["type", "title", "description", "minLength", "maxLength", "format", "default"] 1 ofFields

end StringSchema

/-- A numeric field. -/
structure NumberSchema where
  kind : NumberType
  title : Option String
  description : Option String
  minimum : Option Number
  maximum : Option Number
  default : Option Number
  deriving DecidableEq

namespace NumberSchema

def fields (s : NumberSchema) : List (String × Option Json) :=
  [("type", some (.string s.kind.asStr)), ("title", s.title.map .string),
    ("description", s.description.map .string), ("minimum", s.minimum.map .number),
    ("maximum", s.maximum.map .number), ("default", s.default.map .number)]

def ofFields (field : String → Option Json) : Option NumberSchema := do
  let kind ← (field "type").bind NumberType.fromValue
  let title ← optionalField Json.asStr (field "title")
  let description ← optionalField Json.asStr (field "description")
  let minimum ← optionalField readNumber (field "minimum")
  let maximum ← optionalField readNumber (field "maximum")
  let default ← optionalField readNumber (field "default")
  return ⟨kind, title, description, minimum, maximum, default⟩

def toValue (s : NumberSchema) : Json := .object (compact s.fields)

def fromValue : Json → Option NumberSchema :=
  read ["type", "title", "description", "minimum", "maximum", "default"] 1 ofFields

end NumberSchema

/-- A yes/no field. -/
structure BooleanSchema where
  kind : BooleanType
  title : Option String
  description : Option String
  default : Option Bool
  deriving DecidableEq

namespace BooleanSchema

def fields (s : BooleanSchema) : List (String × Option Json) :=
  [("type", some (.string s.kind.asStr)), ("title", s.title.map .string),
    ("description", s.description.map .string), ("default", s.default.map .bool)]

def ofFields (field : String → Option Json) : Option BooleanSchema := do
  let kind ← (field "type").bind BooleanType.fromValue
  let title ← optionalField Json.asStr (field "title")
  let description ← optionalField Json.asStr (field "description")
  let default ← optionalField readBool (field "default")
  return ⟨kind, title, description, default⟩

def toValue (s : BooleanSchema) : Json := .object (compact s.fields)

def fromValue : Json → Option BooleanSchema :=
  read ["type", "title", "description", "default"] 1 ofFields

end BooleanSchema

/-- One titled option of an enum: the value sent back, and its label. -/
structure EnumOption where
  value : String
  title : String
  deriving DecidableEq

namespace EnumOption

def fields (o : EnumOption) : List (String × Option Json) :=
  [("const", some (.string o.value)), ("title", some (.string o.title))]

def ofFields (field : String → Option Json) : Option EnumOption := do
  let value ← (field "const").bind Json.asStr
  let title ← (field "title").bind Json.asStr
  return ⟨value, title⟩

def toValue (o : EnumOption) : Json := .object (compact o.fields)

def fromValue : Json → Option EnumOption := read ["const", "title"] 2 ofFields

end EnumOption

/-- A single-select enum of bare values. -/
structure UntitledSingleSelectSchema where
  kind : StringType
  title : Option String
  description : Option String
  values : List String
  default : Option String
  deriving DecidableEq

namespace UntitledSingleSelectSchema

def fields (s : UntitledSingleSelectSchema) : List (String × Option Json) :=
  [("type", some (.string s.kind.asStr)), ("title", s.title.map .string),
    ("description", s.description.map .string), ("enum", some (vec .string s.values)),
    ("default", s.default.map .string)]

def ofFields (field : String → Option Json) : Option UntitledSingleSelectSchema := do
  let kind ← (field "type").bind StringType.fromValue
  let title ← optionalField Json.asStr (field "title")
  let description ← optionalField Json.asStr (field "description")
  let values ← (field "enum").bind (readVec Json.asStr)
  let default ← optionalField Json.asStr (field "default")
  return ⟨kind, title, description, values, default⟩

def toValue (s : UntitledSingleSelectSchema) : Json := .object (compact s.fields)

def fromValue : Json → Option UntitledSingleSelectSchema :=
  read ["type", "title", "description", "enum", "default"] 4 ofFields

end UntitledSingleSelectSchema

/-- A single-select enum with a title per option. -/
structure TitledSingleSelectSchema where
  kind : StringType
  title : Option String
  description : Option String
  options : List EnumOption
  default : Option String
  deriving DecidableEq

namespace TitledSingleSelectSchema

def fields (s : TitledSingleSelectSchema) : List (String × Option Json) :=
  [("type", some (.string s.kind.asStr)), ("title", s.title.map .string),
    ("description", s.description.map .string), ("oneOf", some (vec EnumOption.toValue s.options)),
    ("default", s.default.map .string)]

def ofFields (field : String → Option Json) : Option TitledSingleSelectSchema := do
  let kind ← (field "type").bind StringType.fromValue
  let title ← optionalField Json.asStr (field "title")
  let description ← optionalField Json.asStr (field "description")
  let options ← (field "oneOf").bind (readVec EnumOption.fromValue)
  let default ← optionalField Json.asStr (field "default")
  return ⟨kind, title, description, options, default⟩

def toValue (s : TitledSingleSelectSchema) : Json := .object (compact s.fields)

def fromValue : Json → Option TitledSingleSelectSchema :=
  read ["type", "title", "description", "oneOf", "default"] 4 ofFields

end TitledSingleSelectSchema

/-- A single-select enum titled through a parallel list of names. -/
structure LegacyTitledEnumSchema where
  kind : StringType
  title : Option String
  description : Option String
  values : List String
  names : List String
  default : Option String
  deriving DecidableEq

namespace LegacyTitledEnumSchema

def fields (s : LegacyTitledEnumSchema) : List (String × Option Json) :=
  [("type", some (.string s.kind.asStr)), ("title", s.title.map .string),
    ("description", s.description.map .string), ("enum", some (vec .string s.values)),
    ("enumNames", some (vec .string s.names)), ("default", s.default.map .string)]

def ofFields (field : String → Option Json) : Option LegacyTitledEnumSchema := do
  let kind ← (field "type").bind StringType.fromValue
  let title ← optionalField Json.asStr (field "title")
  let description ← optionalField Json.asStr (field "description")
  let values ← (field "enum").bind (readVec Json.asStr)
  let names ← (field "enumNames").bind (readVec Json.asStr)
  let default ← optionalField Json.asStr (field "default")
  return ⟨kind, title, description, values, names, default⟩

def toValue (s : LegacyTitledEnumSchema) : Json := .object (compact s.fields)

def fromValue : Json → Option LegacyTitledEnumSchema :=
  read ["type", "title", "description", "enum", "enumNames", "default"] 5 ofFields

end LegacyTitledEnumSchema

/-- The items of a multi-select enum of bare values. -/
structure UntitledEnumItems where
  kind : StringType
  values : List String
  deriving DecidableEq

namespace UntitledEnumItems

def fields (i : UntitledEnumItems) : List (String × Option Json) :=
  [("type", some (.string i.kind.asStr)), ("enum", some (vec .string i.values))]

def ofFields (field : String → Option Json) : Option UntitledEnumItems := do
  let kind ← (field "type").bind StringType.fromValue
  let values ← (field "enum").bind (readVec Json.asStr)
  return ⟨kind, values⟩

def toValue (i : UntitledEnumItems) : Json := .object (compact i.fields)

def fromValue : Json → Option UntitledEnumItems := read ["type", "enum"] 2 ofFields

end UntitledEnumItems

/-- The items of a multi-select enum with a title per option. -/
structure TitledEnumItems where
  options : List EnumOption
  deriving DecidableEq

namespace TitledEnumItems

def fields (i : TitledEnumItems) : List (String × Option Json) :=
  [("anyOf", some (vec EnumOption.toValue i.options))]

def ofFields (field : String → Option Json) : Option TitledEnumItems := do
  let options ← (field "anyOf").bind (readVec EnumOption.fromValue)
  return ⟨options⟩

def toValue (i : TitledEnumItems) : Json := .object (compact i.fields)

def fromValue : Json → Option TitledEnumItems := read ["anyOf"] 1 ofFields

end TitledEnumItems

/-- A multi-select enum, its values in its items. -/
structure MultiSelectSchema (Items : Type) where
  kind : ArrayType
  title : Option String
  description : Option String
  minItems : Option UInt64
  maxItems : Option UInt64
  items : Items
  default : Option (List String)
  deriving DecidableEq

namespace MultiSelectSchema

variable {Items : Type}

def fields (item : Items → Json) (s : MultiSelectSchema Items) : List (String × Option Json) :=
  [("type", some (.string s.kind.asStr)), ("title", s.title.map .string),
    ("description", s.description.map .string), ("minItems", s.minItems.map u64),
    ("maxItems", s.maxItems.map u64), ("items", some (item s.items)),
    ("default", s.default.map (vec .string))]

def ofFields (item : Json → Option Items) (field : String → Option Json) :
    Option (MultiSelectSchema Items) := do
  let kind ← (field "type").bind ArrayType.fromValue
  let title ← optionalField Json.asStr (field "title")
  let description ← optionalField Json.asStr (field "description")
  let minItems ← optionalField readU64 (field "minItems")
  let maxItems ← optionalField readU64 (field "maxItems")
  let items ← (field "items").bind item
  let default ← optionalField (readVec Json.asStr) (field "default")
  return ⟨kind, title, description, minItems, maxItems, items, default⟩

def toValue (item : Items → Json) (s : MultiSelectSchema Items) : Json :=
  .object (compact (s.fields item))

def fromValue (item : Json → Option Items) : Json → Option (MultiSelectSchema Items) :=
  read ["type", "title", "description", "minItems", "maxItems", "items", "default"] 6
    (ofFields item)

end MultiSelectSchema

abbrev UntitledMultiSelectSchema := MultiSelectSchema UntitledEnumItems

abbrev TitledMultiSelectSchema := MultiSelectSchema TitledEnumItems

def UntitledMultiSelectSchema.toValue : UntitledMultiSelectSchema → Json :=
  MultiSelectSchema.toValue UntitledEnumItems.toValue

def UntitledMultiSelectSchema.fromValue : Json → Option UntitledMultiSelectSchema :=
  MultiSelectSchema.fromValue UntitledEnumItems.fromValue

def TitledMultiSelectSchema.toValue : TitledMultiSelectSchema → Json :=
  MultiSelectSchema.toValue TitledEnumItems.toValue

def TitledMultiSelectSchema.fromValue : Json → Option TitledMultiSelectSchema :=
  MultiSelectSchema.fromValue TitledEnumItems.fromValue

/-- One field of a form. -/
inductive PrimitiveSchema where
  | titledSingleSelect (s : TitledSingleSelectSchema)
  | legacyTitledEnum (s : LegacyTitledEnumSchema)
  | untitledSingleSelect (s : UntitledSingleSelectSchema)
  | titledMultiSelect (s : TitledMultiSelectSchema)
  | untitledMultiSelect (s : UntitledMultiSelectSchema)
  | string (s : StringSchema)
  | number (s : NumberSchema)
  | boolean (s : BooleanSchema)
  deriving DecidableEq

namespace PrimitiveSchema

def toValue : PrimitiveSchema → Json
  | titledSingleSelect s => s.toValue
  | legacyTitledEnum s => s.toValue
  | untitledSingleSelect s => s.toValue
  | titledMultiSelect s => TitledMultiSelectSchema.toValue s
  | untitledMultiSelect s => UntitledMultiSelectSchema.toValue s
  | string s => s.toValue
  | number s => s.toValue
  | boolean s => s.toValue

/-- The first variant that reads the value, in the order they are declared. -/
def fromValue (v : Json) : Option PrimitiveSchema :=
  [(TitledSingleSelectSchema.fromValue v).map titledSingleSelect,
    (LegacyTitledEnumSchema.fromValue v).map legacyTitledEnum,
    (UntitledSingleSelectSchema.fromValue v).map untitledSingleSelect,
    (TitledMultiSelectSchema.fromValue v).map titledMultiSelect,
    (UntitledMultiSelectSchema.fromValue v).map untitledMultiSelect,
    (StringSchema.fromValue v).map string,
    (NumberSchema.fromValue v).map number,
    (BooleanSchema.fromValue v).map boolean].findSome? id

end PrimitiveSchema

/-- The shape of a form: its fields by name, and the names that an answer must fill. -/
structure ElicitationSchema where
  kind : ObjectType
  properties : List (String × PrimitiveSchema)
  required : List String
  deriving DecidableEq

namespace ElicitationSchema

def fields (s : ElicitationSchema) : List (String × Option Json) :=
  [("type", some (.string s.kind.asStr)),
    ("properties", some (map PrimitiveSchema.toValue s.properties)),
    ("required", if s.required = [] then none else some (vec .string s.required))]

/-- A list of names that is absent is empty, and one that is null is refused. -/
def ofFields (field : String → Option Json) : Option ElicitationSchema := do
  let kind ← (field "type").bind ObjectType.fromValue
  let properties ← (field "properties").bind (readMap PrimitiveSchema.fromValue)
  let required ← match field "required" with
    | none => some []
    | some required => readVec Json.asStr required
  return ⟨kind, properties, required⟩

def toValue (s : ElicitationSchema) : Json := .object (compact s.fields)

def fromValue : Json → Option ElicitationSchema :=
  read ["type", "properties", "required"] 2 ofFields

end ElicitationSchema

end Tronc.Mcp
