import Tronc.Tools.Gate

namespace Tronc.Tools

open Mcp (Crates)

/-- The specification allows the output schema of the tool, if it has one. -/
def Admissible {S : Type} (tool : McpTool S) : Prop :=
  ∀ schema, tool.definition.outputSchema = some schema → IsOutputSchema schema

namespace ToolRegistry

variable {S : Type} (crates : Crates) (validatorFor : Json → Except String Validator)

/-- Every tool is under its own name with the validator of its definition, is admissible, and is all
that a category lists. -/
structure Consistent (registry : ToolRegistry S) : Prop where
  named : ∀ name tool, registry.tools.lookup name = some tool → tool.definition.name = name
  compiled : ∀ name, registry.validators.lookup name = (registry.tools.lookup name).map fun tool =>
    ToolSchemaValidator.compile validatorFor tool.definition
  admissible : ∀ name tool, registry.tools.lookup name = some tool → Admissible tool
  categories : ∀ category, ∀ name ∈ registry.toolsInCategory category, name ∈ registry.tools

/-- What a registry promises to those who register tools, list them and call them. -/
structure Gated (registry : ToolRegistry S) : Prop where
  validated : ∀ name, name ∈ registry.tools ↔ name ∈ registry.validators
  unknown : ∀ name state ctx arguments,
    (registry.execute name state ctx arguments).response name = none ↔ name ∉ registry.tools
  refused : ∀ call : Registration S,
    ((registry.insert crates validatorFor call.tool).2 = none ↔ ¬ Admissible call.tool) ∧
    ((registry.insert crates validatorFor call.tool).2 = none →
      registry.step crates validatorFor call = registry)
  registered : ∀ call : Registration S, Admissible call.tool →
    (registry.step crates validatorFor call).tools =
      registry.tools.insert call.tool.definition.name call.tool ∧
    ∀ category, (registry.step crates validatorFor call).toolsInCategory category =
      registry.toolsInCategory category ++ if call.category = some category then
        [call.tool.definition.name] else []
  categories : ∀ category, ∀ name ∈ registry.toolsInCategory category, name ∈ registry.tools
  schemas : ∀ tool ∈ registry.listDefinitions, ∀ schema, tool.outputSchema = some schema →
    IsOutputSchema schema
  listed : ∀ ctx : ToolContext, ctx.isAdmin = false → ∀ state arguments,
    registry.listDefinitionsFor ctx.isAdmin = registry.listDefinitions.filter fun tool =>
      !(registry.execute tool.name state ctx arguments).wantsAdmin
  ran : ∀ name state ctx arguments, (registry.execute name state ctx arguments).ran = true ↔
    ∃ tool validator, registry.tools.lookup name = some tool ∧
      Meets ctx tool.capabilities (tool.requiredScopes state) ∧
      ToolSchemaValidator.compile validatorFor tool.definition = .ok validator ∧
      validator.input arguments = []

variable {crates validatorFor} {registry : ToolRegistry S} {tool : McpTool S}

section Registering

theorem admissible_iff : Admissible tool ↔
    tool.definition.outputSchema.bind (outputSchemaDefect crates) = none := by
  unfold Admissible
  rw [Option.bind_eq_none_iff]
  exact forall_congr' fun schema => imp_congr_right fun _ => outputSchemaDefect_eq_none.symm

theorem insert_inadmissible (h : ¬ Admissible tool) :
    registry.insert crates validatorFor tool = (registry, none) := by
  have hdefect : tool.definition.outputSchema.bind (outputSchemaDefect crates) ≠ none :=
    fun hnone => h (admissible_iff.mpr hnone)
  obtain ⟨defect, hdefect⟩ := Option.ne_none_iff_exists'.mp hdefect
  unfold insert
  dsimp only
  rw [hdefect]

theorem insert_admissible (h : Admissible tool) :
    registry.insert crates validatorFor tool =
      ({ registry with
          validators := registry.validators.insert tool.definition.name
            (ToolSchemaValidator.compile validatorFor tool.definition)
          tools := registry.tools.insert tool.definition.name tool },
        some tool.definition.name) := by
  unfold insert
  dsimp only
  rw [admissible_iff.mp h]

theorem lookup_insert {V : Type} (entries : AList fun _ : String => V) (key name : String) (v : V) :
    (entries.insert key v).lookup name = if name = key then some v else entries.lookup name := by
  split
  · rename_i h
    rw [h, AList.lookup_insert]
  · rename_i h
    rw [AList.lookup_insert_ne h]

theorem Consistent.empty : Consistent validatorFor (empty : ToolRegistry S) where
  named _ _ h := nomatch h
  compiled _ := rfl
  admissible _ _ h := nomatch h
  categories _ _ h := nomatch h

theorem Consistent.insert (h : Consistent validatorFor registry) (hadmissible : Admissible tool) :
    Consistent validatorFor (registry.insert crates validatorFor tool).1 := by
  rw [insert_admissible hadmissible]
  constructor
  · intro name other hother
    dsimp only at hother
    rw [lookup_insert] at hother
    split at hother
    · rename_i hname
      rw [← Option.some.inj hother, hname]
    · exact h.named name other hother
  · intro name
    dsimp only
    rw [lookup_insert, lookup_insert]
    split
    · rfl
    · exact h.compiled name
  · intro name other hother
    dsimp only at hother
    rw [lookup_insert] at hother
    split at hother
    · rw [← Option.some.inj hother]
      exact hadmissible
    · exact h.admissible name other hother
  · intro category name hname
    exact (AList.mem_insert _).mpr (.inr (h.categories category name hname))

/-- A tool is put in a category after it is registered. -/
theorem Consistent.categorized (h : Consistent validatorFor registry) {name : String}
    (hname : name ∈ registry.tools) (category : String) :
    Consistent validatorFor { registry with
      categories := registry.categories.insert category
        ((registry.categories.lookup category).getD [] ++ [name]) } := by
  refine ⟨h.named, h.compiled, h.admissible, fun other listed hlisted => ?_⟩
  unfold toolsInCategory at hlisted
  dsimp only at hlisted
  rw [lookup_insert] at hlisted
  split at hlisted
  · rw [Option.getD_some] at hlisted
    rcases List.mem_append.mp hlisted with hbefore | hnew
    · exact h.categories category listed hbefore
    · rw [List.mem_singleton.mp hnew]
      exact hname
  · exact h.categories other listed hlisted

theorem step_inadmissible {call : Registration S} (h : ¬ Admissible call.tool) :
    registry.step crates validatorFor call = registry := by
  cases call with
  | register tool =>
    have hinsert : registry.insert crates validatorFor tool = (registry, none) :=
      insert_inadmissible h
    exact congrArg Prod.fst hinsert
  | registerWithCategory tool category =>
    have hinsert : registry.insert crates validatorFor tool = (registry, none) :=
      insert_inadmissible h
    show registry.registerWithCategory crates validatorFor tool category = registry
    unfold registerWithCategory
    rw [hinsert]

/-- What a call with an admissible tool registers, and where it lists it. -/
theorem step_admissible {call : Registration S} (h : Admissible call.tool) :
    (registry.step crates validatorFor call).tools =
      registry.tools.insert call.tool.definition.name call.tool ∧
    ∀ category, (registry.step crates validatorFor call).toolsInCategory category =
      registry.toolsInCategory category ++ if call.category = some category then
        [call.tool.definition.name] else [] := by
  cases call with
  | register tool =>
    have htool : Admissible tool := h
    show ((registry.insert crates validatorFor tool).1).tools = _ ∧ ∀ category,
      ((registry.insert crates validatorFor tool).1).toolsInCategory category = _
    rw [insert_admissible htool]
    exact ⟨rfl, fun category => (List.append_nil _).symm⟩
  | registerWithCategory tool category =>
    have htool : Admissible tool := h
    show (registry.registerWithCategory crates validatorFor tool category).tools = _ ∧ ∀ other,
      (registry.registerWithCategory crates validatorFor tool category).toolsInCategory other = _
    unfold registerWithCategory
    rw [insert_admissible htool]
    refine ⟨rfl, fun other => ?_⟩
    have listed : (Registration.registerWithCategory tool category).category = some other ↔
        other = category := by
      show some category = some other ↔ _
      rw [Option.some_inj, eq_comm]
    unfold toolsInCategory
    rw [lookup_insert]
    by_cases hother : other = category
    · rw [if_pos hother, if_pos (listed.mpr hother), hother]
      rfl
    · rw [if_neg hother, if_neg (fun heq => hother (listed.mp heq)), List.append_nil]

/-- A call of either kind keeps the registry consistent. -/
theorem Consistent.step (h : Consistent validatorFor registry) (call : Registration S) :
    Consistent validatorFor (registry.step crates validatorFor call) := by
  by_cases hadmissible : Admissible call.tool
  · cases call with
    | register tool => exact h.insert hadmissible
    | registerWithCategory tool category =>
      have htool : Admissible tool := hadmissible
      have hinsert : Consistent validatorFor (registry.insert crates validatorFor tool).1 :=
        h.insert htool
      show Consistent validatorFor
        (registry.registerWithCategory crates validatorFor tool category)
      unfold registerWithCategory
      rw [insert_admissible htool] at hinsert ⊢
      exact hinsert.categorized ((AList.mem_insert _).mpr (.inl rfl)) category
  · rw [step_inadmissible hadmissible]
    exact h

theorem Consistent.run (calls : List (Registration S)) :
    Consistent validatorFor (run crates validatorFor calls) := by
  unfold ToolRegistry.run
  have hfold (registry : ToolRegistry S) (h : Consistent validatorFor registry) :
      Consistent validatorFor (calls.foldl (ToolRegistry.step crates validatorFor) registry) := by
    induction calls generalizing registry with
    | nil => exact h
    | cons call calls ih => exact ih _ (h.step call)
  exact hfold _ .empty

end Registering

section Calling

variable {name : String} {state : S} {ctx : ToolContext} {arguments : Json}

theorem checkArguments_eq_ok {validator : ToolSchemaValidator} :
    validator.checkArguments arguments = .ok () ↔ validator.input arguments = [] := by
  unfold ToolSchemaValidator.checkArguments SchemaViolations.collect
  dsimp only
  rw [List.isEmpty_map]
  cases validator.input arguments with
  | nil => exact iff_of_true rfl rfl
  | cons violation rest => exact iff_of_false (fun h => nomatch h) fun h => nomatch h

theorem response_eq_none {e : Execution S} : e.response name = none ↔ e = .unknown := by
  cases e with
  | unknown => exact iff_of_true rfl rfl
  | refused reason => exact iff_of_false (fun h => nomatch h) fun h => nomatch h
  | uncompiled error => exact iff_of_false (fun h => nomatch h) fun h => nomatch h
  | invalidArguments violations => exact iff_of_false (fun h => nomatch h) fun h => nomatch h
  | mismatched state violations => exact iff_of_false (fun h => nomatch h) fun h => nomatch h
  | answered state response => exact iff_of_false (fun h => nomatch h) fun h => nomatch h

/-- What comes of a call of a tool that is registered. -/
theorem Consistent.execute_cases (h : Consistent validatorFor registry)
    (htool : registry.tools.lookup name = some tool) (state : S) (ctx : ToolContext)
    (arguments : Json) :
    (∃ reason, refusal tool.capabilities (tool.requiredScopes state) ctx = some reason ∧
      registry.execute name state ctx arguments = .refused reason) ∨
    Meets ctx tool.capabilities (tool.requiredScopes state) ∧
      ((∃ e, ToolSchemaValidator.compile validatorFor tool.definition = .error e ∧
        registry.execute name state ctx arguments = .uncompiled e) ∨
      ∃ validator, ToolSchemaValidator.compile validatorFor tool.definition = .ok validator ∧
        ((∃ violations, validator.input arguments ≠ [] ∧
          registry.execute name state ctx arguments = .invalidArguments violations) ∨
        validator.input arguments = [] ∧
          (registry.execute name state ctx arguments).ran = true)) := by
  have hvalidator := h.compiled name
  rw [htool, Option.map_some] at hvalidator
  unfold execute
  rw [htool]
  dsimp only
  cases hrefusal : refusal tool.capabilities (tool.requiredScopes state) ctx with
  | some reason => exact .inl ⟨reason, rfl, rfl⟩
  | none =>
    refine .inr ⟨refusal_eq_none.mp hrefusal, ?_⟩
    rw [hvalidator]
    cases hcompile : ToolSchemaValidator.compile validatorFor tool.definition with
    | error e => exact .inl ⟨e, rfl, rfl⟩
    | ok validator =>
      refine .inr ⟨validator, rfl, ?_⟩
      dsimp only
      cases hcheck : validator.checkArguments arguments with
      | error violations =>
        refine .inl ⟨violations, fun hnone => ?_, rfl⟩
        rw [checkArguments_eq_ok.mpr hnone] at hcheck
        cases hcheck
      | ok _ =>
        refine .inr ⟨checkArguments_eq_ok.mp hcheck, ?_⟩
        dsimp only
        cases validator.checkResult (tool.execute state ctx arguments).2 with
        | error violations => rfl
        | ok _ => rfl

theorem execute_absent (h : name ∉ registry.tools) :
    registry.execute name state ctx arguments = .unknown := by
  unfold execute
  rw [AList.lookup_eq_none.mpr h]

theorem Consistent.execute_unknown (h : Consistent validatorFor registry) :
    registry.execute name state ctx arguments = .unknown ↔ name ∉ registry.tools := by
  refine ⟨fun hunknown hmem => ?_, execute_absent⟩
  obtain ⟨tool, htool⟩ := Option.isSome_iff_exists.mp (AList.lookup_isSome.mpr hmem)
  rcases h.execute_cases htool state ctx arguments with
    ⟨reason, -, hexecute⟩ | ⟨-, ⟨e, -, hexecute⟩ | ⟨validator, -, ⟨violations, -, hexecute⟩ | ⟨-, hran⟩⟩⟩
  · rw [hexecute] at hunknown
    cases hunknown
  · rw [hexecute] at hunknown
    cases hunknown
  · rw [hexecute] at hunknown
    cases hunknown
  · rw [hunknown] at hran
    cases hran

/-- A body runs if and only if the context meets what the tool declares and the arguments validate. -/
theorem Consistent.execute_ran (h : Consistent validatorFor registry) :
    (registry.execute name state ctx arguments).ran = true ↔
      ∃ tool validator, registry.tools.lookup name = some tool ∧
        Meets ctx tool.capabilities (tool.requiredScopes state) ∧
        ToolSchemaValidator.compile validatorFor tool.definition = .ok validator ∧
        validator.input arguments = [] := by
  cases htool : registry.tools.lookup name with
  | none =>
    rw [execute_absent (AList.lookup_eq_none.mp htool)]
    refine iff_of_false (fun h => nomatch h) ?_
    rintro ⟨tool, validator, hsome, -⟩
    cases hsome
  | some tool =>
    rcases h.execute_cases htool state ctx arguments with
      ⟨reason, hreason, hexecute⟩ | ⟨hmeets, ⟨e, he, hexecute⟩ |
        ⟨validator, hvalidator, ⟨violations, hne, hexecute⟩ | ⟨hnone, hran⟩⟩⟩
    · rw [hexecute]
      refine iff_of_false (fun h => nomatch h) ?_
      rintro ⟨other, validator, hother, hmeets, -⟩
      obtain rfl := Option.some.inj hother
      rw [refusal_eq_none.mpr hmeets] at hreason
      cases hreason
    · rw [hexecute]
      refine iff_of_false (fun h => nomatch h) ?_
      rintro ⟨other, validator, hother, -, hvalidator, -⟩
      obtain rfl := Option.some.inj hother
      cases he.symm.trans hvalidator
    · rw [hexecute]
      refine iff_of_false (fun h => nomatch h) ?_
      rintro ⟨other, validator', hother, -, hvalidator', hnone⟩
      obtain rfl := Option.some.inj hother
      obtain rfl := Except.ok.inj (hvalidator.symm.trans hvalidator')
      exact hne hnone
    · exact iff_of_true hran ⟨tool, validator, rfl, hmeets, hvalidator, hnone⟩

theorem Consistent.execute_wantsAdmin (h : Consistent validatorFor registry)
    (htool : registry.tools.lookup name = some tool) (state : S) (ctx : ToolContext)
    (arguments : Json) :
    (registry.execute name state ctx arguments).wantsAdmin = true ↔
      tool.capabilities.contains ToolCapabilities.ADMIN_ONLY = true ∧ ctx.isAdmin = false := by
  have hmeets (hmeets : Meets ctx tool.capabilities (tool.requiredScopes state)) :
      ¬ (tool.capabilities.contains ToolCapabilities.ADMIN_ONLY = true ∧ ctx.isAdmin = false) := by
    rintro ⟨hadmin, hnot⟩
    rw [hmeets.admin hadmin] at hnot
    cases hnot
  rcases h.execute_cases htool state ctx arguments with
    ⟨reason, hreason, hexecute⟩ | ⟨hmeet, ⟨e, -, hexecute⟩ |
      ⟨validator, -, ⟨violations, -, hexecute⟩ | ⟨-, hran⟩⟩⟩
  · have hadmin : some reason = some Refusal.admin ↔
        tool.capabilities.contains ToolCapabilities.ADMIN_ONLY = true ∧ ctx.isAdmin = false := by
      rw [← hreason]
      exact refusal_eq_admin
    rw [hexecute, ← hadmin]
    cases reason with
    | admin => exact iff_of_true rfl rfl
    | caller => exact iff_of_false (fun h => nomatch h) fun h => nomatch h
    | tenant => exact iff_of_false (fun h => nomatch h) fun h => nomatch h
    | scope missing => exact iff_of_false (fun h => nomatch h) fun h => nomatch h
  · rw [hexecute]
    exact iff_of_false (fun h => nomatch h) (hmeets hmeet)
  · rw [hexecute]
    exact iff_of_false (fun h => nomatch h) (hmeets hmeet)
  · refine iff_of_false (fun hwants => ?_) (hmeets hmeet)
    cases hexecute : registry.execute name state ctx arguments with
    | mismatched state violations =>
      rw [hexecute] at hwants
      cases hwants
    | answered state response =>
      rw [hexecute] at hwants
      cases hwants
    | unknown =>
      rw [hexecute] at hran
      cases hran
    | refused reason =>
      rw [hexecute] at hran
      cases hran
    | uncompiled error =>
      rw [hexecute] at hran
      cases hran
    | invalidArguments violations =>
      rw [hexecute] at hran
      cases hran

end Calling

theorem Consistent.listed (h : Consistent validatorFor registry) {ctx : ToolContext}
    (hadmin : ctx.isAdmin = false) (state : S) (arguments : Json) :
    registry.listDefinitionsFor ctx.isAdmin = registry.listDefinitions.filter fun tool =>
      !(registry.execute tool.name state ctx arguments).wantsAdmin := by
  unfold listDefinitionsFor listDefinitions
  rw [List.filter_map]
  congr 1
  refine List.filter_congr fun e he => ?_
  obtain ⟨name, tool⟩ := e
  have htool : registry.tools.lookup name = some tool := AList.mem_lookup_iff.mpr he
  have hwants := h.execute_wantsAdmin htool state ctx arguments
  rw [Function.comp_apply]
  dsimp only
  rw [h.named name tool htool, hadmin, Bool.false_or, Bool.not_inj_iff, Bool.eq_iff_iff, hwants]
  exact (and_iff_left hadmin).symm

/-- After whatever calls a registry is consistent and gated. -/
theorem gated_run (calls : List (Registration S)) :
    Gated crates validatorFor (run crates validatorFor calls) := by
  have h : Consistent validatorFor (run crates validatorFor calls) := .run calls
  refine ⟨fun name => ?_, fun name state ctx arguments => ?_, fun call => ⟨⟨?_, ?_⟩, ?_⟩,
    fun call => step_admissible, h.categories, ?_, fun ctx hadmin => h.listed hadmin, fun name state ctx arguments => h.execute_ran⟩
  · rw [← AList.lookup_isSome, ← AList.lookup_isSome, h.compiled name, Option.isSome_map]
  · rw [response_eq_none, h.execute_unknown]
  · intro hnone hadmissible
    rw [insert_admissible hadmissible] at hnone
    cases hnone
  · intro hinadmissible
    rw [insert_inadmissible hinadmissible]
  · intro hnone
    refine step_inadmissible fun hadmissible => ?_
    rw [insert_admissible hadmissible] at hnone
    cases hnone
  · intro tool hlisted schema hschema
    obtain ⟨⟨name, other⟩, hmem, rfl⟩ := List.mem_map.mp hlisted
    exact h.admissible name other (AList.mem_lookup_iff.mpr hmem) schema hschema

end ToolRegistry

end Tronc.Tools
