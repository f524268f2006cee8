import Tronc.Tools.Registry

namespace Tronc.Tools

open Mcp (Crates)

/-- An output schema that the specification allows: the type of its root is `object`, its properties
are objects, and what it requires are names. -/
structure IsOutputSchema (schema : Json) : Prop where
  root : schema.get "type" = some (.string "object")
  properties : ∀ v, schema.get "properties" = some v →
    ∃ fields, v = .object fields ∧ ∀ e ∈ fields, ∃ members, e.2 = .object members
  required : ∀ v, schema.get "required" = some v → ∃ names : List String, v = .array (names.map .string)

/-- The context meets every requirement that a tool declares. -/
structure Meets (ctx : ToolContext) (caps : ToolCapabilities) (scopes : List String) : Prop where
  admin : caps.contains ToolCapabilities.ADMIN_ONLY = true → ctx.isAdmin = true
  user : caps.contains ToolCapabilities.REQUIRES_AUTH = true ∨
    caps.contains ToolCapabilities.REQUIRES_TENANT = true → ∃ id, ctx.userId = some id ∧ id ≠ ""
  tenant : caps.contains ToolCapabilities.REQUIRES_TENANT = true →
    ∃ id, ctx.tenantId = some id ∧ id ≠ ""
  scopes : ∀ scope ∈ scopes, scope ∈ ctx.scopes

section OutputSchemas

variable {crates : Crates} {schema v : Json}

theorem isObject_iff : isObject v = true ↔ ∃ members, v = .object members := by
  cases v with
  | object members => exact iff_of_true rfl ⟨members, rfl⟩
  | null => exact iff_of_false (fun h => nomatch h) (fun ⟨_, h⟩ => nomatch h)
  | bool b => exact iff_of_false (fun h => nomatch h) (fun ⟨_, h⟩ => nomatch h)
  | number n => exact iff_of_false (fun h => nomatch h) (fun ⟨_, h⟩ => nomatch h)
  | string s => exact iff_of_false (fun h => nomatch h) (fun ⟨_, h⟩ => nomatch h)
  | array xs => exact iff_of_false (fun h => nomatch h) (fun ⟨_, h⟩ => nomatch h)

theorem isNames_iff : isNames v = true ↔ ∃ names : List String, v = .array (names.map .string) := by
  constructor
  · intro h
    cases v with
    | array xs =>
      have hall : ∀ x ∈ xs, x.asStr.isSome = true := List.all_eq_true.mp h
      clear h
      induction xs with
      | nil => exact ⟨[], rfl⟩
      | cons x xs ih =>
        obtain ⟨names, hnames⟩ := ih fun y hy => hall y (List.mem_cons_of_mem x hy)
        obtain ⟨s, hs⟩ := Option.isSome_iff_exists.mp (hall x List.mem_cons_self)
        obtain rfl := Json.asStr_eq_some hs
        obtain rfl := Json.array.inj hnames
        exact ⟨s :: names, rfl⟩
    | null => cases h
    | bool b => cases h
    | number n => cases h
    | string s => cases h
    | object fields => cases h
  · rintro ⟨names, rfl⟩
    refine List.all_eq_true.mpr fun x hx => ?_
    obtain ⟨s, -, rfl⟩ := List.mem_map.mp hx
    rfl

theorem propertiesDefect_eq_none : propertiesDefect crates v = none ↔
    ∃ fields, v = .object fields ∧ ∀ e ∈ fields, ∃ members, e.2 = .object members := by
  cases v with
  | object fields =>
    have hfind : propertiesDefect crates (.object fields) = none ↔
        ∀ e ∈ fields, isObject e.2 = true := by
      unfold propertiesDefect
      rw [Option.map_eq_none_iff, List.find?_eq_none]
      simp
    rw [hfind]
    constructor
    · intro h
      exact ⟨fields, rfl, fun e he => isObject_iff.mp (h e he)⟩
    · rintro ⟨fields', hfields, h⟩ e he
      obtain rfl := Json.object.inj hfields
      exact isObject_iff.mpr (h e he)
  | null => exact iff_of_false (fun h => nomatch h) (fun ⟨_, h, _⟩ => nomatch h)
  | bool b => exact iff_of_false (fun h => nomatch h) (fun ⟨_, h, _⟩ => nomatch h)
  | number n => exact iff_of_false (fun h => nomatch h) (fun ⟨_, h, _⟩ => nomatch h)
  | string s => exact iff_of_false (fun h => nomatch h) (fun ⟨_, h, _⟩ => nomatch h)
  | array xs => exact iff_of_false (fun h => nomatch h) (fun ⟨_, h, _⟩ => nomatch h)

/-- A schema without a defect is one that is allowed. -/
theorem outputSchemaDefect_eq_none : outputSchemaDefect crates schema = none ↔
    IsOutputSchema schema := by
  have hproperties : (schema.get "properties").bind (propertiesDefect crates) = none ↔
      ∀ v, schema.get "properties" = some v →
        ∃ fields, v = .object fields ∧ ∀ e ∈ fields, ∃ members, e.2 = .object members := by
    rw [Option.bind_eq_none_iff]
    exact forall_congr' fun v => imp_congr_right fun _ => propertiesDefect_eq_none
  have hrequired : (schema.get "required").filter (fun required => !isNames required) = none ↔
      ∀ v, schema.get "required" = some v → ∃ names : List String, v = .array (names.map .string) := by
    rw [Option.filter_eq_none_iff]
    refine forall_congr' fun v => imp_congr_right fun _ => ?_
    rw [← isNames_iff, Bool.not_eq_true', Bool.not_eq_false]
  unfold outputSchemaDefect
  cases hroot : schema.get "type" with
  | none =>
    refine iff_of_false (fun h => nomatch h) fun h => ?_
    rw [h.root] at hroot
    cases hroot
  | some kind =>
    dsimp only
    split
    · rename_i hkind
      refine iff_of_false (fun h => nomatch h) fun h => hkind ?_
      rw [h.root] at hroot
      exact (Option.some.inj hroot).symm
    · rename_i hkind
      obtain rfl := not_not.mp hkind
      cases hdefect : (schema.get "properties").bind (propertiesDefect crates) with
      | some defect =>
        refine iff_of_false (fun h => nomatch h) fun h => ?_
        rw [hproperties.mpr h.properties] at hdefect
        cases hdefect
      | none =>
        dsimp only
        rw [Option.map_eq_none_iff, hrequired]
        exact ⟨fun h => ⟨hroot, hproperties.mp hdefect, h⟩, fun h => h.required⟩

end OutputSchemas

namespace ToolCapabilities

theorem intersects_or (caps flags more : ToolCapabilities) :
    caps.intersects (flags ||| more) = (caps.intersects flags || caps.intersects more) := by
  have hzero : caps &&& flags ||| caps &&& more = 0 ↔ caps &&& flags = 0 ∧ caps &&& more = 0 :=
    BitVec.or_eq_zero_iff
  unfold intersects
  rw [BitVec.and_or_distrib_left, Bool.eq_iff_iff, Bool.or_eq_true, bne_iff_ne, bne_iff_ne, bne_iff_ne,
    ne_eq, hzero, not_and_or]

/-- A single flag is contained if it is intersected. -/
theorem contains_twoPow (caps : ToolCapabilities) (i : Nat) (hi : i < 16) :
    caps.contains (BitVec.twoPow 16 i) = caps.intersects (BitVec.twoPow 16 i) := by
  unfold contains intersects
  rw [BitVec.and_twoPow]
  split
  · have hne : BitVec.twoPow 16 i ≠ 0 := by
      intro hzero
      have hbit := congrArg (fun x => x.getLsbD i) hzero
      rw [BitVec.getLsbD_twoPow] at hbit
      simp [hi] at hbit
    rw [Bool.eq_iff_iff, beq_iff_eq, bne_iff_ne]
    exact iff_of_true rfl hne
  · rename_i hbit
    rw [Bool.eq_iff_iff, beq_iff_eq, bne_iff_ne]
    refine iff_of_false (fun hzero => hbit ?_) fun h => h rfl
    have htwo := BitVec.getLsbD_twoPow (w := 16) i i
    rw [← hzero] at htwo
    simp [hi] at htwo

theorem intersects_caller (caps : ToolCapabilities) :
    caps.intersects (REQUIRES_AUTH ||| REQUIRES_TENANT) =
      (caps.contains REQUIRES_AUTH || caps.contains REQUIRES_TENANT) := by
  rw [intersects_or]
  exact congrArg₂ _ (contains_twoPow caps 0 (by decide)).symm (contains_twoPow caps 1 (by decide)).symm

end ToolCapabilities

section Gate

variable {caps : ToolCapabilities} {scopes : List String} {ctx : ToolContext}

theorem any_ne_empty {id : Option String} :
    (id.any fun id => id != "") = true ↔ ∃ s, id = some s ∧ s ≠ "" := by
  cases id with
  | none => simp
  | some s => simp

/-- A call is refused unless the context meets every requirement. -/
theorem refusal_eq_none : refusal caps scopes ctx = none ↔ Meets ctx caps scopes := by
  unfold refusal
  dsimp only
  rw [ToolCapabilities.intersects_caller]
  by_cases hadmin : (caps.contains ToolCapabilities.ADMIN_ONLY && !ctx.isAdmin) = true
  · rw [if_pos hadmin]
    refine iff_of_false (fun h => nomatch h) fun h => ?_
    rw [Bool.and_eq_true, Bool.not_eq_true'] at hadmin
    rw [h.admin hadmin.1] at hadmin
    cases hadmin.2
  · rw [if_neg hadmin]
    by_cases huser : ((caps.contains ToolCapabilities.REQUIRES_AUTH ||
        caps.contains ToolCapabilities.REQUIRES_TENANT) &&
        !ctx.userId.any fun id => id != "") = true
    · rw [if_pos huser]
      refine iff_of_false (fun h => nomatch h) fun h => ?_
      rw [Bool.and_eq_true, Bool.or_eq_true, Bool.not_eq_true'] at huser
      rw [any_ne_empty.mpr (h.user huser.1)] at huser
      cases huser.2
    · rw [if_neg huser]
      by_cases htenant : (caps.contains ToolCapabilities.REQUIRES_TENANT &&
          !ctx.tenantId.any fun id => id != "") = true
      · rw [if_pos htenant]
        refine iff_of_false (fun h => nomatch h) fun h => ?_
        rw [Bool.and_eq_true, Bool.not_eq_true'] at htenant
        rw [any_ne_empty.mpr (h.tenant htenant.1)] at htenant
        cases htenant.2
      · rw [if_neg htenant, Option.map_eq_none_iff, List.find?_eq_none]
        have hscopes : (∀ scope ∈ scopes,
            ¬ (!ctx.scopes.any fun granted => granted == scope) = true) ↔
            ∀ scope ∈ scopes, scope ∈ ctx.scopes := by
          refine forall_congr' fun scope => imp_congr_right fun _ => ?_
          simp
        rw [hscopes]
        simp only [Bool.and_eq_true, Bool.or_eq_true, Bool.not_eq_true', not_and,
          Bool.not_eq_false] at hadmin huser htenant
        exact ⟨fun h => ⟨hadmin, fun hcaps => any_ne_empty.mp (huser hcaps),
          fun hcaps => any_ne_empty.mp (htenant hcaps), h⟩, fun h => h.scopes⟩

theorem refusal_eq_admin : refusal caps scopes ctx = some .admin ↔
    caps.contains ToolCapabilities.ADMIN_ONLY = true ∧ ctx.isAdmin = false := by
  unfold refusal
  dsimp only
  rw [← Bool.not_eq_true', ← Bool.and_eq_true]
  split
  · rename_i hadmin
    exact iff_of_true rfl hadmin
  · rename_i hadmin
    refine iff_of_false ?_ hadmin
    split
    · exact fun h => nomatch h
    · split
      · exact fun h => nomatch h
      · rw [Option.map_eq_some_iff]
        rintro ⟨scope, -, h⟩
        cases h

end Gate

end Tronc.Tools
