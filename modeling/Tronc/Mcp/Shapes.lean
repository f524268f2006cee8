import Tronc.Mcp.Elicitation

namespace Tronc.Mcp

open Record

section Kinds

theorem ObjectType.fromValue_asStr (k : ObjectType) : fromValue (.string k.asStr) = some k := by
  cases k
  rfl

theorem StringType.fromValue_asStr (k : StringType) : fromValue (.string k.asStr) = some k := by
  cases k
  rfl

theorem NumberType.fromValue_asStr (k : NumberType) : fromValue (.string k.asStr) = some k := by
  cases k <;> rfl

theorem BooleanType.fromValue_asStr (k : BooleanType) : fromValue (.string k.asStr) = some k := by
  cases k
  rfl

theorem ArrayType.fromValue_asStr (k : ArrayType) : fromValue (.string k.asStr) = some k := by
  cases k
  rfl

theorem StringFormat.fromValue_asStr (f : StringFormat) : fromValue (.string f.asStr) = some f := by
  cases f <;> rfl

end Kinds

section Fields

variable {field : String → Option Json}

theorem StringSchema.ofFields_fields {s : StringSchema} (h : ∀ e ∈ s.fields, field e.1 = e.2) :
    ofFields field = some s := by
  obtain ⟨kind, title, description, minLength, maxLength, format, default⟩ := s
  have hformat : optionalField StringFormat.fromValue
      (format.map fun format => .string format.asStr) = some format :=
    optionalField_map _ fun f => ⟨f.fromValue_asStr, fun h => nomatch h⟩
  simp only [fields, List.forall_mem_cons] at h
  obtain ⟨hkind, htitle, hdescription, hmin, hmax, hformat', hdefault, -⟩ := h
  unfold ofFields
  rw [hkind, htitle, hdescription, hmin, hmax, hformat', hdefault, hformat]
  simp only [Option.bind_some, StringType.fromValue_asStr, optionalStr, optionalU64]
  rfl

theorem NumberSchema.ofFields_fields {s : NumberSchema} (h : ∀ e ∈ s.fields, field e.1 = e.2) :
    ofFields field = some s := by
  obtain ⟨kind, title, description, minimum, maximum, default⟩ := s
  simp only [fields, List.forall_mem_cons] at h
  obtain ⟨hkind, htitle, hdescription, hmin, hmax, hdefault, -⟩ := h
  unfold ofFields
  rw [hkind, htitle, hdescription, hmin, hmax, hdefault]
  simp only [Option.bind_some, NumberType.fromValue_asStr, optionalStr, optionalNumber]
  rfl

theorem BooleanSchema.ofFields_fields {s : BooleanSchema} (h : ∀ e ∈ s.fields, field e.1 = e.2) :
    ofFields field = some s := by
  obtain ⟨kind, title, description, default⟩ := s
  simp only [fields, List.forall_mem_cons] at h
  obtain ⟨hkind, htitle, hdescription, hdefault, -⟩ := h
  unfold ofFields
  rw [hkind, htitle, hdescription, hdefault]
  simp only [Option.bind_some, BooleanType.fromValue_asStr, optionalStr, optionalBool]
  rfl

theorem EnumOption.ofFields_fields {o : EnumOption} (h : ∀ e ∈ o.fields, field e.1 = e.2) :
    ofFields field = some o := by
  simp only [fields, List.forall_mem_cons] at h
  obtain ⟨hvalue, htitle, -⟩ := h
  unfold ofFields
  rw [hvalue, htitle]
  rfl

theorem EnumOption.fromValue_toValue (o : EnumOption) : fromValue o.toValue = some o :=
  read_compact (by decide : ["const", "title"].Nodup) fun _ => ofFields_fields

theorem readOptions (options : List EnumOption) :
    readVec EnumOption.fromValue (vec EnumOption.toValue options) = some options :=
  readVec_vec fun o _ => o.fromValue_toValue

theorem UntitledSingleSelectSchema.ofFields_fields {s : UntitledSingleSelectSchema}
    (h : ∀ e ∈ s.fields, field e.1 = e.2) : ofFields field = some s := by
  obtain ⟨kind, title, description, values, default⟩ := s
  simp only [fields, List.forall_mem_cons] at h
  obtain ⟨hkind, htitle, hdescription, hvalues, hdefault, -⟩ := h
  unfold ofFields
  rw [hkind, htitle, hdescription, hvalues, hdefault]
  simp only [Option.bind_some, StringType.fromValue_asStr, optionalStr, readStrings]
  rfl

theorem TitledSingleSelectSchema.ofFields_fields {s : TitledSingleSelectSchema}
    (h : ∀ e ∈ s.fields, field e.1 = e.2) : ofFields field = some s := by
  obtain ⟨kind, title, description, options, default⟩ := s
  simp only [fields, List.forall_mem_cons] at h
  obtain ⟨hkind, htitle, hdescription, hoptions, hdefault, -⟩ := h
  unfold ofFields
  rw [hkind, htitle, hdescription, hoptions, hdefault]
  simp only [Option.bind_some, StringType.fromValue_asStr, optionalStr, readOptions]
  rfl

theorem LegacyTitledEnumSchema.ofFields_fields {s : LegacyTitledEnumSchema}
    (h : ∀ e ∈ s.fields, field e.1 = e.2) : ofFields field = some s := by
  obtain ⟨kind, title, description, values, names, default⟩ := s
  simp only [fields, List.forall_mem_cons] at h
  obtain ⟨hkind, htitle, hdescription, hvalues, hnames, hdefault, -⟩ := h
  unfold ofFields
  rw [hkind, htitle, hdescription, hvalues, hnames, hdefault]
  simp only [Option.bind_some, StringType.fromValue_asStr, optionalStr, readStrings]
  rfl

theorem UntitledEnumItems.ofFields_fields {i : UntitledEnumItems}
    (h : ∀ e ∈ i.fields, field e.1 = e.2) : ofFields field = some i := by
  simp only [fields, List.forall_mem_cons] at h
  obtain ⟨hkind, hvalues, -⟩ := h
  unfold ofFields
  rw [hkind, hvalues]
  simp only [Option.bind_some, StringType.fromValue_asStr, readStrings]
  rfl

theorem TitledEnumItems.ofFields_fields {i : TitledEnumItems}
    (h : ∀ e ∈ i.fields, field e.1 = e.2) : ofFields field = some i := by
  simp only [fields, List.forall_mem_cons] at h
  obtain ⟨hoptions, -⟩ := h
  unfold ofFields
  rw [hoptions, Option.bind_some, readOptions]
  rfl

theorem UntitledEnumItems.fromValue_toValue (i : UntitledEnumItems) :
    fromValue i.toValue = some i :=
  read_compact (by decide : ["type", "enum"].Nodup) fun _ => ofFields_fields

theorem TitledEnumItems.fromValue_toValue (i : TitledEnumItems) : fromValue i.toValue = some i :=
  read_compact (by decide : ["anyOf"].Nodup) fun _ => ofFields_fields

/-- Items of bare values have no titles. -/
theorem TitledEnumItems.fromValue_untitled (i : UntitledEnumItems) :
    fromValue i.toValue = none := by
  have hnames : (i.fields.map Prod.fst).Nodup := (by decide : ["type", "enum"].Nodup)
  have hoptions : Map.get (compact i.fields) "anyOf" = none := get_compact hnames "anyOf"
  show ofFields _ = none
  unfold ofFields
  rw [hoptions]
  rfl

theorem MultiSelectSchema.ofFields_fields {Items : Type} {item : Items → Json}
    {readItem : Json → Option Items} {s : MultiSelectSchema Items}
    (hitem : readItem (item s.items) = some s.items)
    (h : ∀ e ∈ s.fields item, field e.1 = e.2) : ofFields readItem field = some s := by
  obtain ⟨kind, title, description, minItems, maxItems, items, default⟩ := s
  simp only [fields, List.forall_mem_cons] at h
  obtain ⟨hkind, htitle, hdescription, hmin, hmax, hitems, hdefault, -⟩ := h
  unfold ofFields
  rw [hkind, htitle, hdescription, hmin, hmax, hitems, hdefault]
  simp only [Option.bind_some, ArrayType.fromValue_asStr, optionalStr, optionalU64,
    optionalStrings, hitem]
  rfl

end Fields

/-! A shape is not read without the type it has, nor without what it alone requires. -/
section Refused

variable {field : String → Option Json}

theorem TitledSingleSelectSchema.ofFields_of_type
    (h : (field "type").bind StringType.fromValue = none) : ofFields field = none := by
  unfold ofFields
  rw [h]
  rfl

theorem TitledSingleSelectSchema.ofFields_of_oneOf (h : field "oneOf" = none) :
    ofFields field = none := by
  unfold ofFields
  rw [h]
  simp

theorem LegacyTitledEnumSchema.ofFields_of_type
    (h : (field "type").bind StringType.fromValue = none) : ofFields field = none := by
  unfold ofFields
  rw [h]
  rfl

theorem LegacyTitledEnumSchema.ofFields_of_enumNames (h : field "enumNames" = none) :
    ofFields field = none := by
  unfold ofFields
  rw [h]
  simp

theorem UntitledSingleSelectSchema.ofFields_of_type
    (h : (field "type").bind StringType.fromValue = none) : ofFields field = none := by
  unfold ofFields
  rw [h]
  rfl

theorem UntitledSingleSelectSchema.ofFields_of_enum (h : field "enum" = none) :
    ofFields field = none := by
  unfold ofFields
  rw [h]
  simp

theorem StringSchema.ofFields_of_type (h : (field "type").bind StringType.fromValue = none) :
    ofFields field = none := by
  unfold ofFields
  rw [h]
  rfl

theorem NumberSchema.ofFields_of_type (h : (field "type").bind NumberType.fromValue = none) :
    ofFields field = none := by
  unfold ofFields
  rw [h]
  rfl

theorem MultiSelectSchema.ofFields_of_type {Items : Type} {readItem : Json → Option Items}
    (h : (field "type").bind ArrayType.fromValue = none) : ofFields readItem field = none := by
  unfold ofFields
  rw [h]
  rfl

theorem MultiSelectSchema.ofFields_of_items {Items : Type} {readItem : Json → Option Items}
    (h : (field "items").bind readItem = none) : ofFields readItem field = none := by
  unfold ofFields
  rw [h]
  simp

end Refused

namespace PrimitiveSchema

variable {m : Map}

/-- No single-select enum and no string has another type than `"string"`. -/
theorem fromValue_of_not_string (h : (m.get "type").bind StringType.fromValue = none) :
    fromValue (.object m) =
      [(TitledMultiSelectSchema.fromValue (.object m)).map titledMultiSelect,
        (UntitledMultiSelectSchema.fromValue (.object m)).map untitledMultiSelect,
        (NumberSchema.fromValue (.object m)).map number,
        (BooleanSchema.fromValue (.object m)).map boolean].findSome? id := by
  have htitled : TitledSingleSelectSchema.fromValue (.object m) = none :=
    TitledSingleSelectSchema.ofFields_of_type h
  have hlegacy : LegacyTitledEnumSchema.fromValue (.object m) = none :=
    LegacyTitledEnumSchema.ofFields_of_type h
  have huntitled : UntitledSingleSelectSchema.fromValue (.object m) = none :=
    UntitledSingleSelectSchema.ofFields_of_type h
  have hstring : StringSchema.fromValue (.object m) = none := StringSchema.ofFields_of_type h
  unfold fromValue
  rw [htitled, hlegacy, huntitled, hstring]
  rfl

/-- No multi-select enum has another type than `"array"`. -/
theorem fromValue_of_not_array (h : (m.get "type").bind ArrayType.fromValue = none) :
    TitledMultiSelectSchema.fromValue (.object m) = none ∧
      UntitledMultiSelectSchema.fromValue (.object m) = none :=
  ⟨MultiSelectSchema.ofFields_of_type h, MultiSelectSchema.ofFields_of_type h⟩

theorem fromValue_titledSingleSelect (s : TitledSingleSelectSchema) :
    fromValue s.toValue = some (titledSingleSelect s) := by
  have hnames : (s.fields.map Prod.fst).Nodup :=
    (by decide : ["type", "title", "description", "oneOf", "default"].Nodup)
  have hread : TitledSingleSelectSchema.fromValue s.toValue = some s :=
    read_compact hnames fun _ => TitledSingleSelectSchema.ofFields_fields
  unfold fromValue
  rw [hread]
  rfl

theorem fromValue_legacyTitledEnum (s : LegacyTitledEnumSchema) :
    fromValue s.toValue = some (legacyTitledEnum s) := by
  have hnames : (s.fields.map Prod.fst).Nodup :=
    (by decide : ["type", "title", "description", "enum", "enumNames", "default"].Nodup)
  have hread : LegacyTitledEnumSchema.fromValue s.toValue = some s :=
    read_compact hnames fun _ => LegacyTitledEnumSchema.ofFields_fields
  have htitled : TitledSingleSelectSchema.fromValue s.toValue = none :=
    TitledSingleSelectSchema.ofFields_of_oneOf (get_compact hnames "oneOf")
  unfold fromValue
  rw [htitled, hread]
  rfl

theorem fromValue_untitledSingleSelect (s : UntitledSingleSelectSchema) :
    fromValue s.toValue = some (untitledSingleSelect s) := by
  have hnames : (s.fields.map Prod.fst).Nodup :=
    (by decide : ["type", "title", "description", "enum", "default"].Nodup)
  have hread : UntitledSingleSelectSchema.fromValue s.toValue = some s :=
    read_compact hnames fun _ => UntitledSingleSelectSchema.ofFields_fields
  have htitled : TitledSingleSelectSchema.fromValue s.toValue = none :=
    TitledSingleSelectSchema.ofFields_of_oneOf (get_compact hnames "oneOf")
  have hlegacy : LegacyTitledEnumSchema.fromValue s.toValue = none :=
    LegacyTitledEnumSchema.ofFields_of_enumNames (get_compact hnames "enumNames")
  unfold fromValue
  rw [htitled, hlegacy, hread]
  rfl

theorem fromValue_string (s : StringSchema) : fromValue s.toValue = some (string s) := by
  have hnames : (s.fields.map Prod.fst).Nodup := (by decide :
    ["type", "title", "description", "minLength", "maxLength", "format", "default"].Nodup)
  have hread : StringSchema.fromValue s.toValue = some s :=
    read_compact hnames fun _ => StringSchema.ofFields_fields
  have htype : Map.get (compact s.fields) "type" = some (.string s.kind.asStr) :=
    get_compact hnames "type"
  have htitled : TitledSingleSelectSchema.fromValue s.toValue = none :=
    TitledSingleSelectSchema.ofFields_of_oneOf (get_compact hnames "oneOf")
  have hlegacy : LegacyTitledEnumSchema.fromValue s.toValue = none :=
    LegacyTitledEnumSchema.ofFields_of_enumNames (get_compact hnames "enumNames")
  have huntitled : UntitledSingleSelectSchema.fromValue s.toValue = none :=
    UntitledSingleSelectSchema.ofFields_of_enum (get_compact hnames "enum")
  obtain ⟨hmulti, huntitledMulti⟩ := fromValue_of_not_array (m := compact s.fields) (by
    rw [htype]
    cases s.kind
    rfl)
  have hmulti : TitledMultiSelectSchema.fromValue s.toValue = none := hmulti
  have huntitledMulti : UntitledMultiSelectSchema.fromValue s.toValue = none := huntitledMulti
  unfold fromValue
  rw [htitled, hlegacy, huntitled, hmulti, huntitledMulti, hread]
  rfl

theorem fromValue_titledMultiSelect (s : TitledMultiSelectSchema) :
    fromValue (TitledMultiSelectSchema.toValue s) = some (titledMultiSelect s) := by
  have hnames : ((s.fields TitledEnumItems.toValue).map Prod.fst).Nodup := (by decide :
    ["type", "title", "description", "minItems", "maxItems", "items", "default"].Nodup)
  have hread : TitledMultiSelectSchema.fromValue
      (.object (compact (s.fields TitledEnumItems.toValue))) = some s :=
    MultiSelectSchema.ofFields_fields s.items.fromValue_toValue (get_field hnames)
  have htype : Map.get (compact (s.fields TitledEnumItems.toValue)) "type" =
    some (.string s.kind.asStr) := get_compact hnames "type"
  show fromValue (.object (compact (s.fields TitledEnumItems.toValue))) = _
  rw [fromValue_of_not_string, hread]
  · rfl
  · rw [htype]
    cases s.kind
    rfl

theorem fromValue_untitledMultiSelect (s : UntitledMultiSelectSchema) :
    fromValue (UntitledMultiSelectSchema.toValue s) = some (untitledMultiSelect s) := by
  have hnames : ((s.fields UntitledEnumItems.toValue).map Prod.fst).Nodup := (by decide :
    ["type", "title", "description", "minItems", "maxItems", "items", "default"].Nodup)
  have hread : UntitledMultiSelectSchema.fromValue
      (.object (compact (s.fields UntitledEnumItems.toValue))) = some s :=
    MultiSelectSchema.ofFields_fields s.items.fromValue_toValue (get_field hnames)
  have htype : Map.get (compact (s.fields UntitledEnumItems.toValue)) "type" =
    some (.string s.kind.asStr) := get_compact hnames "type"
  have hitems : Map.get (compact (s.fields UntitledEnumItems.toValue)) "items" =
    some s.items.toValue := get_compact hnames "items"
  have htitled : TitledMultiSelectSchema.fromValue
      (.object (compact (s.fields UntitledEnumItems.toValue))) = none := by
    apply MultiSelectSchema.ofFields_of_items
    rw [hitems, Option.bind_some, TitledEnumItems.fromValue_untitled]
  show fromValue (.object (compact (s.fields UntitledEnumItems.toValue))) = _
  rw [fromValue_of_not_string, htitled, hread]
  · rfl
  · rw [htype]
    cases s.kind
    rfl

theorem fromValue_number (s : NumberSchema) : fromValue s.toValue = some (number s) := by
  have hnames : (s.fields.map Prod.fst).Nodup := (by decide :
    ["type", "title", "description", "minimum", "maximum", "default"].Nodup)
  have hread : NumberSchema.fromValue (.object (compact s.fields)) = some s :=
    read_compact hnames fun _ => NumberSchema.ofFields_fields
  have htype : Map.get (compact s.fields) "type" = some (.string s.kind.asStr) :=
    get_compact hnames "type"
  obtain ⟨hmulti, huntitledMulti⟩ := fromValue_of_not_array (m := compact s.fields) (by
    rw [htype]
    cases s.kind <;> rfl)
  show fromValue (.object (compact s.fields)) = _
  rw [fromValue_of_not_string, hmulti, huntitledMulti, hread]
  · rfl
  · rw [htype]
    cases s.kind <;> rfl

theorem fromValue_boolean (s : BooleanSchema) : fromValue s.toValue = some (boolean s) := by
  have hnames : (s.fields.map Prod.fst).Nodup :=
    (by decide : ["type", "title", "description", "default"].Nodup)
  have hread : BooleanSchema.fromValue (.object (compact s.fields)) = some s :=
    read_compact hnames fun _ => BooleanSchema.ofFields_fields
  have htype : Map.get (compact s.fields) "type" = some (.string s.kind.asStr) :=
    get_compact hnames "type"
  obtain ⟨hmulti, huntitledMulti⟩ := fromValue_of_not_array (m := compact s.fields) (by
    rw [htype]
    cases s.kind
    rfl)
  have hnumber : NumberSchema.fromValue (.object (compact s.fields)) = none := by
    apply NumberSchema.ofFields_of_type
    rw [htype]
    cases s.kind
    rfl
  show fromValue (.object (compact s.fields)) = _
  rw [fromValue_of_not_string, hmulti, huntitledMulti, hnumber, hread]
  · rfl
  · rw [htype]
    cases s.kind
    rfl

/-- Each shape is read by its own variant. -/
theorem fromValue_toValue (s : PrimitiveSchema) : fromValue s.toValue = some s := by
  cases s with
  | titledSingleSelect s => exact fromValue_titledSingleSelect s
  | legacyTitledEnum s => exact fromValue_legacyTitledEnum s
  | untitledSingleSelect s => exact fromValue_untitledSingleSelect s
  | titledMultiSelect s => exact fromValue_titledMultiSelect s
  | untitledMultiSelect s => exact fromValue_untitledMultiSelect s
  | string s => exact fromValue_string s
  | number s => exact fromValue_number s
  | boolean s => exact fromValue_boolean s

end PrimitiveSchema

/-- A form is read back as it is. -/
theorem ElicitationSchema.round_trips (s : ElicitationSchema) : fromValue s.toValue = some s := by
  have hnames : (s.fields.map Prod.fst).Nodup :=
    (by decide : ["type", "properties", "required"].Nodup)
  refine read_compact hnames fun field h => ?_
  obtain ⟨kind, properties, required⟩ := s
  simp only [fields, List.forall_mem_cons] at h
  obtain ⟨hkind, hproperties, hrequired, -⟩ := h
  have hread : readMap PrimitiveSchema.fromValue (map PrimitiveSchema.toValue properties) =
      some properties := readMap_map fun e _ => e.2.fromValue_toValue
  unfold ofFields
  rw [hkind, hproperties, hrequired]
  simp only [Option.bind_some, ObjectType.fromValue_asStr, hread]
  cases required with
  | nil => rfl
  | cons name required =>
    rw [if_neg (List.cons_ne_nil _ _)]
    simp only [readStrings]
    rfl

end Tronc.Mcp
