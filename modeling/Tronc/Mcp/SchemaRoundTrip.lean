import Tronc.Mcp.SchemaTypes

namespace Tronc

namespace Json

theorem depth_le_depthEach {xs : List Json} {x : Json} (h : x ∈ xs) : x.depth ≤ depthEach xs := by
  induction xs with
  | nil => cases h
  | cons y xs ih =>
    rw [depthEach]
    rcases List.mem_cons.mp h with rfl | h
    · exact le_max_left _ _
    · exact (ih h).trans (le_max_right _ _)

theorem depth_le_depthMembers {fields : Map} {e : String × Json} (h : e ∈ fields) :
    e.2.depth ≤ depthMembers fields := by
  induction fields with
  | nil => cases h
  | cons d fields ih =>
    rw [depthMembers]
    rcases List.mem_cons.mp h with rfl | h
    · exact le_max_left _ _
    · exact (ih h).trans (le_max_right _ _)

theorem mem_of_get {fields : Map} {key : String} {v : Json} (h : fields.get key = some v) :
    (key, v) ∈ fields := by
  induction fields with
  | nil => cases h
  | cons e fields ih =>
    obtain ⟨k, x⟩ := e
    rw [Map.get, List.lookup_cons] at h
    by_cases hkey : key = k
    · subst hkey
      rw [beq_self_eq_true] at h
      obtain rfl := Option.some.inj h
      exact List.mem_cons_self
    · have hb : (key == k) = false := beq_eq_false_iff_ne.mpr hkey
      rw [hb] at h
      exact List.mem_cons_of_mem _ (ih h)

end Json

namespace Mcp

open Record

theorem readType_typeField (name : String) : readType (typeField name) = some name := by
  unfold typeField
  split
  · rename_i h
    rw [h]
    rfl
  · rfl

namespace PropertySchema

variable {readSchema : Json → Option PropertySchema} {field : String → Option Json}
  {s : PropertySchema}

theorem toValueEach_eq (schemas : List PropertySchema) :
    toValueEach schemas = schemas.map toValue := by
  induction schemas with
  | nil => rfl
  | cons s schemas ih =>
    rw [toValueEach, ih]
    rfl

theorem toValueMembers_eq (entries : List (String × PropertySchema)) :
    toValueMembers entries = entries.map fun e => (e.1, e.2.toValue) := by
  induction entries with
  | nil => rfl
  | cons e entries ih =>
    rw [toValueMembers, ih]
    rfl

/-- What is written of a schema. -/
def allFields (s : PropertySchema) : List (String × Option Json) :=
  s.fields (s.items.map toValue) (s.properties.map (map toValue)) (s.oneOf.map (vec toValue))
    (s.anyOf.map (vec toValue)) (s.allOf.map (vec toValue))

theorem toValue_eq (s : PropertySchema) : s.toValue = .object (compact s.allFields) := by
  have hvec (schemas : List PropertySchema) :
      Json.array (toValueEach schemas) = vec toValue schemas := by
    rw [toValueEach_eq]
    rfl
  have hmap (entries : List (String × PropertySchema)) :
      Json.object (toValueMembers entries) = map toValue entries := by
    rw [toValueMembers_eq]
    rfl
  obtain ⟨propertyType, description, items, properties, required, additionalProperties, enumValues,
    constValue, defaultValue, format, pattern, minimum, maximum, minLength, maxLength, minItems,
    maxItems, refPath, oneOf, anyOf, allOf⟩ := s
  rw [toValue.eq_def]
  simp only [hvec, hmap]
  unfold allFields
  congr
  · cases items <;> rfl
  · cases properties <;> rfl
  · cases oneOf <;> rfl
  · cases anyOf <;> rfl
  · cases allOf <;> rfl

theorem toValue_ne_null (s : PropertySchema) : s.toValue ≠ .null := by
  rw [toValue_eq]
  exact fun h => nomatch h

theorem names_nodup (s : PropertySchema) : (s.allFields.map Prod.fst).Nodup :=
  (by decide : fieldNames.Nodup)

section Fuel

variable {readOther : Json → Option PropertySchema}

theorem optionalField_congr {α : Type} {one other : Json → Option α} {v : Option Json}
    (h : ∀ x, v = some x → one x = other x) : optionalField one v = optionalField other v := by
  cases v with
  | none => rfl
  | some x =>
    unfold optionalField
    split
    · rfl
    · rfl
    · rename_i heq
      rw [← Option.some.inj heq, h x rfl]

theorem mapM_congr {α β : Type} {one other : α → Option β} {xs : List α}
    (h : ∀ x ∈ xs, one x = other x) : xs.mapM one = xs.mapM other := by
  induction xs with
  | nil => rfl
  | cons x xs ih =>
    obtain ⟨hx, hxs⟩ := List.forall_mem_cons.mp h
    rw [List.mapM_cons, List.mapM_cons, hx, ih hxs]

theorem readVec_congr {v : Json} (h : ∀ x, x.depth ≤ v.depth → readSchema x = readOther x) :
    readVec readSchema v = readVec readOther v := by
  cases v with
  | array xs =>
    refine mapM_congr fun x hx => h x ?_
    exact (Json.depth_le_depthEach hx).trans (Nat.le_succ _)
  | _ => rfl

theorem readMap_congr {v : Json} (h : ∀ x, x.depth ≤ v.depth → readSchema x = readOther x) :
    readMap readSchema v = readMap readOther v := by
  cases v with
  | object fields =>
    refine mapM_congr fun e he => ?_
    rw [h e.2 ((Json.depth_le_depthMembers he).trans (Nat.le_succ _))]
  | _ => rfl

theorem ofFields_congr
    (h : ∀ name v, field name = some v → ∀ x, x.depth ≤ v.depth → readSchema x = readOther x) :
    ofFields readSchema field = ofFields readOther field := by
  have hone (name : String) :
      optionalField readSchema (field name) = optionalField readOther (field name) :=
    optionalField_congr fun v hv => h name v hv v le_rfl
  have hvec (name : String) : optionalField (readVec readSchema) (field name) =
      optionalField (readVec readOther) (field name) :=
    optionalField_congr fun v hv => readVec_congr (h name v hv)
  have hmap : optionalField (readMap readSchema) (field "properties") =
      optionalField (readMap readOther) (field "properties") :=
    optionalField_congr fun v hv => readMap_congr (h _ v hv)
  unfold ofFields
  rw [hone, hmap, hvec, hvec, hvec]

/-- Fuel beyond the depth of a value changes nothing. -/
theorem fromValueWithin_eq {fuel other : Nat} {v : Json} (hfuel : v.depth < fuel)
    (hother : v.depth < other) : fromValueWithin fuel v = fromValueWithin other v := by
  induction fuel generalizing other v with
  | zero => exact absurd hfuel (Nat.not_lt_zero _)
  | succ fuel ih =>
    obtain ⟨other, rfl⟩ : ∃ n, other = n + 1 := ⟨other - 1, by omega⟩
    rw [fromValueWithin, fromValueWithin]
    refine read_congr (fun fields hv => ?_) fun xs hv => ?_
    · rw [hv, Json.depth] at hfuel hother
      refine ofFields_congr fun name v hget x hx => ?_
      have hle : v.depth ≤ Json.depthMembers fields :=
        Json.depth_le_depthMembers (Json.mem_of_get hget)
      exact ih (by omega) (by omega)
    · rw [hv, Json.depth] at hfuel hother
      refine ofFields_congr fun name v hget x hx => ?_
      have hle := Json.depth_le_depthEach (List.of_mem_zip (Json.mem_of_get hget)).2
      exact ih (by omega) (by omega)

end Fuel

/-- Whether the schemas right under a schema are read as they were. -/
structure ReadsUnder (readSchema : Json → Option PropertySchema) (s : PropertySchema) : Prop where
  items : ∀ t, s.items = some t → readSchema t.toValue = some t
  properties : ∀ entries, s.properties = some entries →
    ∀ e ∈ entries, readSchema e.2.toValue = some e.2
  oneOf : ∀ schemas, s.oneOf = some schemas → ∀ t ∈ schemas, readSchema t.toValue = some t
  anyOf : ∀ schemas, s.anyOf = some schemas → ∀ t ∈ schemas, readSchema t.toValue = some t
  allOf : ∀ schemas, s.allOf = some schemas → ∀ t ∈ schemas, readSchema t.toValue = some t

theorem optionalVec_iff {o : Option (List PropertySchema)} :
    optionalField (readVec readSchema) (o.map (vec toValue)) = some o ↔
      ∀ schemas, o = some schemas → ∀ t ∈ schemas, readSchema t.toValue = some t := by
  have hnull (schemas : List PropertySchema) : vec toValue schemas ≠ .null := fun h => nomatch h
  rw [optionalField_map_iff hnull]
  simp only [readVec_vec_iff]

theorem optionalMap_iff {o : Option (List (String × PropertySchema))} :
    optionalField (readMap readSchema) (o.map (map toValue)) = some o ↔
      ∀ entries, o = some entries → ∀ e ∈ entries, readSchema e.2.toValue = some e.2 := by
  have hnull (entries : List (String × PropertySchema)) : map toValue entries ≠ .null :=
    fun h => nomatch h
  rw [optionalField_map_iff hnull]
  simp only [readMap_map_iff]

theorem optionalEnum (o : Option (List Json)) :
    optionalField (readVec some) (o.map (vec id)) = some o :=
  optionalField_map o fun _ => ⟨readVec_vec fun _ _ => rfl, fun h => nomatch h⟩

/-- One level of a schema is read as it was if and only if it is plain and the next level is. -/
theorem ofFields_iff (h : ∀ e ∈ s.allFields, field e.1 = e.2) :
    ofFields readSchema field = some s ↔ s.IsPlain ∧ ReadsUnder readSchema s := by
  obtain ⟨propertyType, description, items, properties, required, additionalProperties, enumValues,
    constValue, defaultValue, format, pattern, minimum, maximum, minLength, maxLength, minItems,
    maxItems, refPath, oneOf, anyOf, allOf⟩ := s
  simp only [allFields, fields, List.forall_mem_cons] at h
  obtain ⟨h1, h2, h3, h4, h5, h6, h7, h8, h9, h10, h11, h12, h13, h14, h15, h16, h17, h18, h19,
    h20, h21, -⟩ := h
  unfold ofFields
  rw [h1, h2, h3, h4, h5, h6, h7, h8, h9, h10, h11, h12, h13, h14, h15, h16, h17, h18, h19, h20,
    h21, readType_typeField, optionalStr, optionalStrings, optionalBool, optionalEnum, optionalStr,
    optionalStr, optionalU64, optionalU64, optionalU64, optionalU64, optionalStr]
  constructor
  · intro h
    simp only [Option.bind_eq_bind, Option.bind_some] at h
    obtain ⟨_, hitems, h⟩ := Option.bind_eq_some_iff.mp h
    obtain ⟨_, hproperties, h⟩ := Option.bind_eq_some_iff.mp h
    obtain ⟨_, hconst, h⟩ := Option.bind_eq_some_iff.mp h
    obtain ⟨_, hdefault, h⟩ := Option.bind_eq_some_iff.mp h
    obtain ⟨_, hminimum, h⟩ := Option.bind_eq_some_iff.mp h
    obtain ⟨_, hmaximum, h⟩ := Option.bind_eq_some_iff.mp h
    obtain ⟨_, hone, h⟩ := Option.bind_eq_some_iff.mp h
    obtain ⟨_, hany, h⟩ := Option.bind_eq_some_iff.mp h
    obtain ⟨_, hall, h⟩ := Option.bind_eq_some_iff.mp h
    cases h
    exact ⟨⟨optionalValue_iff.mp hconst, optionalValue_iff.mp hdefault,
      optionalF64_iff.mp hminimum, optionalF64_iff.mp hmaximum⟩,
      (optionalField_map_iff toValue_ne_null).mp hitems, optionalMap_iff.mp hproperties,
      optionalVec_iff.mp hone, optionalVec_iff.mp hany, optionalVec_iff.mp hall⟩
  · rintro ⟨⟨hconst, hdefault, hminimum, hmaximum⟩, hitems, hproperties, hone, hany, hall⟩
    have hitems : optionalField readSchema (items.map toValue) = some items :=
      (optionalField_map_iff toValue_ne_null).mpr hitems
    rw [hitems, optionalMap_iff.mpr hproperties, optionalValue_iff.mpr hconst,
      optionalValue_iff.mpr hdefault, optionalF64_iff.mpr hminimum, optionalF64_iff.mpr hmaximum,
      optionalVec_iff.mpr hone, optionalVec_iff.mpr hany, optionalVec_iff.mpr hall]
    rfl

/-- Every schema in a schema is plain when it is itself and those right under it are all the way
down. -/
theorem forall_part_iff : (∀ p, Part s p → p.IsPlain) ↔ s.IsPlain ∧
    (∀ t, s.items = some t → ∀ p, Part t p → p.IsPlain) ∧
    (∀ entries, s.properties = some entries → ∀ e ∈ entries, ∀ p, Part e.2 p → p.IsPlain) ∧
    (∀ schemas, s.oneOf = some schemas → ∀ t ∈ schemas, ∀ p, Part t p → p.IsPlain) ∧
    (∀ schemas, s.anyOf = some schemas → ∀ t ∈ schemas, ∀ p, Part t p → p.IsPlain) ∧
    ∀ schemas, s.allOf = some schemas → ∀ t ∈ schemas, ∀ p, Part t p → p.IsPlain := by
  constructor
  · intro h
    exact ⟨h s (.refl s), fun _ ht p hp => h p (.items ht hp),
      fun _ hentries _ he p hp => h p (.property hentries he hp),
      fun _ hs _ ht p hp => h p (.oneOf hs ht hp), fun _ hs _ ht p hp => h p (.anyOf hs ht hp),
      fun _ hs _ ht p hp => h p (.allOf hs ht hp)⟩
  · rintro ⟨hself, hitems, hproperties, hone, hany, hall⟩ p hp
    cases hp with
    | refl => exact hself
    | items ht hp => exact hitems _ ht p hp
    | property hentries he hp => exact hproperties _ hentries _ he p hp
    | oneOf hs ht hp => exact hone _ hs _ ht p hp
    | anyOf hs ht hp => exact hany _ hs _ ht p hp
    | allOf hs ht hp => exact hall _ hs _ ht p hp

/-- What a schema has is nested less deep than it. -/
theorem depth_lt {name : String} {v : Json} (h : (name, some v) ∈ s.allFields) :
    v.depth < s.toValue.depth := by
  have hget := get_field s.names_nodup _ h
  have hle := Json.depth_le_depthMembers (Json.mem_of_get hget)
  rw [toValue_eq, Json.depth]
  exact Nat.lt_succ_of_le hle

theorem mem_items {t : PropertySchema} (h : s.items = some t) :
    ("items", some t.toValue) ∈ s.allFields := by
  unfold allFields fields
  rw [h]
  simp

theorem mem_properties {entries : List (String × PropertySchema)}
    (h : s.properties = some entries) :
    ("properties", some (map toValue entries)) ∈ s.allFields := by
  unfold allFields fields
  rw [h]
  simp

theorem mem_oneOf {schemas : List PropertySchema} (h : s.oneOf = some schemas) :
    ("oneOf", some (vec toValue schemas)) ∈ s.allFields := by
  unfold allFields fields
  rw [h]
  simp

theorem mem_anyOf {schemas : List PropertySchema} (h : s.anyOf = some schemas) :
    ("anyOf", some (vec toValue schemas)) ∈ s.allFields := by
  unfold allFields fields
  rw [h]
  simp

theorem mem_allOf {schemas : List PropertySchema} (h : s.allOf = some schemas) :
    ("allOf", some (vec toValue schemas)) ∈ s.allFields := by
  unfold allFields fields
  rw [h]
  simp

theorem depth_lt_vec {schemas : List PropertySchema} {t : PropertySchema} (h : t ∈ schemas) :
    t.toValue.depth < (vec toValue schemas).depth := by
  have hle := Json.depth_le_depthEach (List.mem_map_of_mem (f := toValue) h)
  exact Nat.lt_succ_of_le hle

theorem depth_lt_map {entries : List (String × PropertySchema)} {e : String × PropertySchema}
    (h : e ∈ entries) : e.2.toValue.depth < (map toValue entries).depth := by
  have hmem : (e.1, e.2.toValue) ∈ entries.map fun e => (e.1, e.2.toValue) :=
    List.mem_map.mpr ⟨e, h, rfl⟩
  exact Nat.lt_succ_of_le (Json.depth_le_depthMembers hmem)

/-- A schema is read as it was, at any depth, if and only if every schema in it is plain. -/
theorem fromValueWithin_iff {fuel : Nat} {s : PropertySchema} (h : s.toValue.depth < fuel) :
    fromValueWithin fuel s.toValue = some s ↔ ∀ p, Part s p → p.IsPlain := by
  induction fuel generalizing s with
  | zero => exact absurd h (Nat.not_lt_zero _)
  | succ fuel ih =>
    have under {t : PropertySchema} (ht : t.toValue.depth < s.toValue.depth) :
        fromValueWithin fuel t.toValue = some t ↔ ∀ p, Part t p → p.IsPlain :=
      ih (by omega)
    have inVec {name : String} {schemas : List PropertySchema}
        (hmem : (name, some (vec toValue schemas)) ∈ s.allFields) {t : PropertySchema}
        (ht : t ∈ schemas) : t.toValue.depth < s.toValue.depth :=
      (depth_lt_vec ht).trans (depth_lt hmem)
    have hlevel : fromValueWithin (fuel + 1) s.toValue = some s ↔
        s.IsPlain ∧ ReadsUnder (fromValueWithin fuel) s := by
      rw [fromValueWithin, toValue_eq]
      exact ofFields_iff (get_field s.names_nodup)
    rw [hlevel, forall_part_iff]
    refine and_congr_right fun _ => ?_
    constructor
    · rintro ⟨hitems, hproperties, hone, hany, hall⟩
      exact ⟨fun t ht => (under (depth_lt (mem_items ht))).mp (hitems t ht),
        fun entries he e hmem => (under ((depth_lt_map hmem).trans (depth_lt
          (mem_properties he)))).mp (hproperties entries he e hmem),
        fun schemas hs t ht => (under (inVec (mem_oneOf hs) ht)).mp (hone schemas hs t ht),
        fun schemas hs t ht => (under (inVec (mem_anyOf hs) ht)).mp (hany schemas hs t ht),
        fun schemas hs t ht => (under (inVec (mem_allOf hs) ht)).mp (hall schemas hs t ht)⟩
    · rintro ⟨hitems, hproperties, hone, hany, hall⟩
      exact ⟨fun t ht => (under (depth_lt (mem_items ht))).mpr (hitems t ht),
        fun entries he e hmem => (under ((depth_lt_map hmem).trans (depth_lt
          (mem_properties he)))).mpr (hproperties entries he e hmem),
        fun schemas hs t ht => (under (inVec (mem_oneOf hs) ht)).mpr (hone schemas hs t ht),
        fun schemas hs t ht => (under (inVec (mem_anyOf hs) ht)).mpr (hany schemas hs t ht),
        fun schemas hs t ht => (under (inVec (mem_allOf hs) ht)).mpr (hall schemas hs t ht)⟩

theorem fromValue_iff (s : PropertySchema) :
    fromValue s.toValue = some s ↔ ∀ p, Part s p → p.IsPlain :=
  fromValueWithin_iff (Nat.lt_succ_self _)

end PropertySchema

namespace JsonSchema

variable {s : JsonSchema}

theorem names_nodup (s : JsonSchema) : (s.fields.map Prod.fst).Nodup :=
  (by decide : fieldNames.Nodup)

theorem forall_part_iff : (∀ p, Part s p → p.IsPlain) ↔
    (∀ entries, s.properties = some entries → ∀ e ∈ entries, ∀ p, e.2.Part p → p.IsPlain) ∧
    (∀ entries, s.defs = some entries → ∀ e ∈ entries, ∀ p, e.2.Part p → p.IsPlain) ∧
    (∀ schemas, s.oneOf = some schemas → ∀ t ∈ schemas, ∀ p, t.Part p → p.IsPlain) ∧
    (∀ schemas, s.anyOf = some schemas → ∀ t ∈ schemas, ∀ p, t.Part p → p.IsPlain) ∧
    ∀ schemas, s.allOf = some schemas → ∀ t ∈ schemas, ∀ p, t.Part p → p.IsPlain := by
  constructor
  · intro h
    exact ⟨fun _ hentries _ he p hp => h p (.property hentries he hp),
      fun _ hentries _ he p hp => h p (.defs hentries he hp),
      fun _ hs _ ht p hp => h p (.oneOf hs ht hp), fun _ hs _ ht p hp => h p (.anyOf hs ht hp),
      fun _ hs _ ht p hp => h p (.allOf hs ht hp)⟩
  · rintro ⟨hproperties, hdefs, hone, hany, hall⟩ p hp
    cases hp with
    | property hentries he hp => exact hproperties _ hentries _ he p hp
    | defs hentries he hp => exact hdefs _ hentries _ he p hp
    | oneOf hs ht hp => exact hone _ hs _ ht p hp
    | anyOf hs ht hp => exact hany _ hs _ ht p hp
    | allOf hs ht hp => exact hall _ hs _ ht p hp

theorem fromValue_iff (s : JsonSchema) :
    fromValue s.toValue = some s ↔ ∀ p, Part s p → p.IsPlain := by
  have h := get_field s.names_nodup
  show ofFields (Map.get (compact s.fields)) = some s ↔ _
  rw [forall_part_iff]
  simp only [← PropertySchema.fromValue_iff]
  generalize Map.get (compact s.fields) = field at h
  obtain ⟨schemaDialect, schemaType, description, properties, required, additionalProperties, defs,
    oneOf, anyOf, allOf⟩ := s
  simp only [fields, List.forall_mem_cons] at h
  obtain ⟨h1, h2, h3, h4, h5, h6, h7, h8, h9, h10, -⟩ := h
  unfold ofFields
  rw [h1, h2, h3, h4, h5, h6, h7, h8, h9, h10, optionalStr, readType_typeField, optionalStr,
    optionalStrings, optionalBool]
  constructor
  · intro h
    simp only [Option.bind_eq_bind, Option.bind_some] at h
    obtain ⟨_, hproperties, h⟩ := Option.bind_eq_some_iff.mp h
    obtain ⟨_, hdefs, h⟩ := Option.bind_eq_some_iff.mp h
    obtain ⟨_, hone, h⟩ := Option.bind_eq_some_iff.mp h
    obtain ⟨_, hany, h⟩ := Option.bind_eq_some_iff.mp h
    obtain ⟨_, hall, h⟩ := Option.bind_eq_some_iff.mp h
    cases h
    exact ⟨PropertySchema.optionalMap_iff.mp hproperties, PropertySchema.optionalMap_iff.mp hdefs,
      PropertySchema.optionalVec_iff.mp hone, PropertySchema.optionalVec_iff.mp hany,
      PropertySchema.optionalVec_iff.mp hall⟩
  · rintro ⟨hproperties, hdefs, hone, hany, hall⟩
    rw [PropertySchema.optionalMap_iff.mpr hproperties, PropertySchema.optionalMap_iff.mpr hdefs,
      PropertySchema.optionalVec_iff.mpr hone, PropertySchema.optionalVec_iff.mpr hany,
      PropertySchema.optionalVec_iff.mpr hall]
    rfl

end JsonSchema

/-- A schema is read back as it was if and only if no `const` and no `default` in it is `null` and
every bound is finite. -/
theorem schemas_round_trip_iff (property : PropertySchema) (schema : JsonSchema) :
    (PropertySchema.fromValue property.toValue = some property ↔
      ∀ p, property.Part p → p.IsPlain) ∧
    (JsonSchema.fromValue schema.toValue = some schema ↔ ∀ p, schema.Part p → p.IsPlain) :=
  ⟨PropertySchema.fromValue_iff property, JsonSchema.fromValue_iff schema⟩

/-- A property that may only be `null`. -/
def nullOnly : PropertySchema where
  propertyType := ""
  description := none
  items := none
  properties := none
  required := none
  additionalProperties := none
  enumValues := none
  constValue := some .null
  defaultValue := none
  format := none
  pattern := none
  minimum := none
  maximum := none
  minLength := none
  maxLength := none
  minItems := none
  maxItems := none
  refPath := none
  oneOf := none
  anyOf := none
  allOf := none

theorem null_const_lost : nullOnly.toValue = .object [("const", .null)] ∧
    PropertySchema.fromValue nullOnly.toValue = some { nullOnly with constValue := none } ∧
    PropertySchema.fromValue nullOnly.toValue ≠ some nullOnly := by
  have hread : PropertySchema.fromValue nullOnly.toValue =
      some { nullOnly with constValue := none } := rfl
  refine ⟨rfl, hread, ?_⟩
  rw [hread]
  intro h
  have hconst := congrArg PropertySchema.constValue (Option.some.inj h)
  cases hconst

end Mcp

end Tronc
