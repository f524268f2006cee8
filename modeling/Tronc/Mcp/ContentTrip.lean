import Tronc.Mcp.ClientChannel
import Tronc.Mcp.Content
import Tronc.Mcp.Discipline

namespace Tronc.Mcp

open Record

/-- A priority is written as it is if it is finite. -/
def Annotations.IsPlain (a : Annotations) : Prop := ∀ x, a.priority = some x → x.isFinite = true

def Content.IsPlain (c : Content) : Prop := ∀ a, c.hints.annotations = some a → a.IsPlain

structure ToolResult.IsPlain (r : ToolResult) : Prop where
  content : ∀ c ∈ r.content, c.IsPlain
  structured : r.structuredContent ≠ some .null

structure ModelPreferences.IsPlain (p : ModelPreferences) : Prop where
  cost : ∀ x, p.costPriority = some x → x.isFinite = true
  speed : ∀ x, p.speedPriority = some x → x.isFinite = true
  intelligence : ∀ x, p.intelligencePriority = some x → x.isFinite = true

structure CreateMessageRequest.IsPlain (r : CreateMessageRequest) : Prop where
  messages : ∀ m ∈ r.messages, m.content.IsPlain
  preferences : ∀ p, r.modelPreferences = some p → p.IsPlain
  temperature : ∀ x, r.temperature = some x → x.isFinite = true

section Fields

variable {field : String → Option Json}

theorem Role.fromValue_asStr (r : Role) : fromValue (.string r.asStr) = some r := by
  cases r <;> rfl

theorem IconTheme.fromValue_asStr (t : IconTheme) : fromValue (.string t.asStr) = some t := by
  cases t <;> rfl

theorem optionalMeta (o : Option Map) : optionalField Json.asObject (o.map .object) = some o :=
  optionalField_map o fun _ => ⟨rfl, fun h => nomatch h⟩

theorem Annotations.toValue_ne_null (a : Annotations) : a.toValue ≠ .null := fun h => nomatch h

theorem Annotations.fromValue_iff (a : Annotations) :
    Annotations.fromValue a.toValue = some a ↔ a.IsPlain := by
  have hnames : (a.fields.map Prod.fst).Nodup :=
    (by decide : ["audience", "priority", "lastModified"].Nodup)
  have hfields := get_field hnames
  show ofFields (Map.get (compact a.fields)) = some a ↔ _
  obtain ⟨audience, priority, lastModified⟩ := a
  have haudience : optionalField (readVec Role.fromValue)
      (audience.map (vec fun role => .string role.asStr)) = some audience :=
    optionalField_map _ fun roles =>
      ⟨readVec_vec fun r _ => r.fromValue_asStr, fun h => nomatch h⟩
  simp only [fields, List.forall_mem_cons] at hfields
  obtain ⟨h1, h2, h3, -⟩ := hfields
  unfold ofFields
  simp only [fields] at h1 h2 h3 ⊢
  rw [h1, h2, h3, haudience, optionalStr]
  constructor
  · intro h
    simp only [Option.bind_eq_bind, Option.bind_some] at h
    obtain ⟨_, hpriority, h⟩ := Option.bind_eq_some_iff.mp h
    cases h
    exact optionalF64_iff.mp hpriority
  · intro h
    rw [optionalF64_iff.mpr h]
    rfl

/-- Hints are read as they were if and only if their annotations are. -/
theorem Hints.ofFields_iff {h : Hints} (hfields : ∀ e ∈ h.fields, field e.1 = e.2) :
    Hints.ofFields field = some h ↔ ∀ a, h.annotations = some a → a.IsPlain := by
  obtain ⟨annotations, meta_⟩ := h
  simp only [fields, List.forall_mem_cons] at hfields
  obtain ⟨h1, h2, -⟩ := hfields
  have hiff : optionalField Annotations.fromValue (annotations.map Annotations.toValue) =
      some annotations ↔ ∀ a, annotations = some a → Annotations.fromValue a.toValue = some a :=
    optionalField_map_iff Annotations.toValue_ne_null
  unfold ofFields
  rw [h1, h2, optionalMeta]
  constructor
  · intro h
    obtain ⟨_, hannotations, h⟩ := Option.bind_eq_some_iff.mp h
    cases h
    intro a ha
    exact a.fromValue_iff.mp (hiff.mp hannotations a ha)
  · intro h
    rw [hiff.mpr fun a ha => a.fromValue_iff.mpr (h a ha)]
    rfl

theorem Icon.fromValue_toValue (i : Icon) : Icon.fromValue i.toValue = some i := by
  have hnames : (i.fields.map Prod.fst).Nodup :=
    (by decide : ["src", "mimeType", "sizes", "theme"].Nodup)
  refine read_compact hnames fun field h => ?_
  obtain ⟨src, mimeType, sizes, theme⟩ := i
  have htheme : optionalField IconTheme.fromValue
      (theme.map fun theme => .string theme.asStr) = some theme :=
    optionalField_map _ fun t => ⟨t.fromValue_asStr, fun h => nomatch h⟩
  simp only [fields, List.forall_mem_cons] at h
  obtain ⟨h1, h2, h3, h4, -⟩ := h
  unfold ofFields
  rw [h1, h2, h3, h4, htheme, optionalStr, optionalStrings]
  rfl

theorem TextContent.ofFields_iff {c : TextContent} (h : ∀ e ∈ c.fields, field e.1 = e.2) :
    ofFields field = some c ↔ Hints.ofFields field = some c.toHints := by
  obtain ⟨hints, text⟩ := c
  have htext : field "text" = some (.string text) := h _ List.mem_cons_self
  unfold ofFields
  rw [htext]
  cases Hints.ofFields field <;> simp [Json.asStr]

theorem MediaContent.ofFields_iff {c : MediaContent} (h : ∀ e ∈ c.fields, field e.1 = e.2) :
    ofFields field = some c ↔ Hints.ofFields field = some c.toHints := by
  obtain ⟨hints, data, mimeType⟩ := c
  simp only [fields, List.forall_mem_cons] at h
  obtain ⟨hdata, htype, -⟩ := h
  unfold ofFields
  rw [hdata, htype]
  cases Hints.ofFields field <;> simp [Json.asStr]

theorem ResourceLink.ofFields_iff {l : ResourceLink} (h : ∀ e ∈ l.fields, field e.1 = e.2) :
    ofFields field = some l ↔ Hints.ofFields field = some l.toHints := by
  obtain ⟨hints, uri, name, title, description, mimeType, size, icons⟩ := l
  have hicons : optionalField (readVec Icon.fromValue) (icons.map (vec Icon.toValue)) = some icons :=
    optionalField_map _ fun icons =>
      ⟨readVec_vec fun i _ => i.fromValue_toValue, fun h => nomatch h⟩
  simp only [fields, List.forall_mem_cons] at h
  obtain ⟨h1, h2, h3, h4, h5, h6, h7, -⟩ := h
  unfold ofFields
  rw [h1, h2, h3, h4, h5, h6, h7, hicons, optionalStr, optionalStr, optionalStr, optionalU64]
  cases Hints.ofFields field <;> simp [Json.asStr]

theorem ResourceContents.fromValue_toValue (c : ResourceContents) :
    ResourceContents.fromValue c.toValue = some c := by
  cases c with
  | text c body =>
    have hnames : ((text c body).fields.map Prod.fst).Nodup :=
      (by decide : ["uri", "mimeType", "text", "_meta"].Nodup)
    have hblob : Map.get (compact (text c body).fields) "blob" = none :=
      get_compact_of_not_mem (by decide : "blob" ∉ ["uri", "mimeType", "text", "_meta"])
    have h := get_field hnames
    show ofFields (Map.get (compact (text c body).fields)) = _
    simp only [fields, List.forall_mem_cons] at h hblob ⊢
    obtain ⟨h1, h2, h3, h4, -⟩ := h
    unfold ofFields
    rw [h1, h2, h3, h4, hblob, optionalStr, optionalMeta]
    rfl
  | blob c bytes =>
    have hnames : ((blob c bytes).fields.map Prod.fst).Nodup :=
      (by decide : ["uri", "mimeType", "blob", "_meta"].Nodup)
    have htext : Map.get (compact (blob c bytes).fields) "text" = none :=
      get_compact_of_not_mem (by decide : "text" ∉ ["uri", "mimeType", "blob", "_meta"])
    have h := get_field hnames
    show ofFields (Map.get (compact (blob c bytes).fields)) = _
    simp only [fields, List.forall_mem_cons] at h htext ⊢
    obtain ⟨h1, h2, h3, h4, -⟩ := h
    unfold ofFields
    rw [h1, h2, h3, h4, htext, optionalStr, optionalMeta]
    rfl

theorem EmbeddedResource.ofFields_iff {e : EmbeddedResource} (h : ∀ x ∈ e.fields, field x.1 = x.2) :
    ofFields field = some e ↔ Hints.ofFields field = some e.toHints := by
  obtain ⟨hints, resource⟩ := e
  have hresource : field "resource" = some resource.toValue := h _ List.mem_cons_self
  unfold ofFields
  rw [hresource, Option.bind_some, resource.fromValue_toValue]
  cases Hints.ofFields field <;> simp

end Fields

namespace Content

variable {c : Content}

/-- The names a block is written under are each there once, and none is `type`. -/
theorem names_nodup (c : Content) : ("type" :: c.fields.map Prod.fst).Nodup := by
  cases c with
  | text => exact (by decide : ["type", "text", "annotations", "_meta"].Nodup)
  | image | audio => exact (by decide : ["type", "data", "mimeType", "annotations", "_meta"].Nodup)
  | resourceLink =>
    exact (by decide : ["type", "uri", "name", "title", "description", "mimeType", "size", "icons",
      "annotations", "_meta"].Nodup)
  | resource => exact (by decide : ["type", "resource", "annotations", "_meta"].Nodup)

theorem hints_fields (c : Content) : ∀ e ∈ c.hints.fields, e ∈ c.fields := by
  intro e he
  cases c with
  | text | resource => exact .tail _ he
  | image | audio => exact .tail _ (.tail _ he)
  | resourceLink => exact .tail _ (.tail _ (.tail _ (.tail _ (.tail _ (.tail _ (.tail _ he))))))

/-- A block is written as its fields under its `type`, and read of them. -/
theorem untag_toValue (c : Content) : untag c.toValue = some (c.tag, .object (compact c.fields)) := by
  have htype : Map.get (compact (("type", some (.string c.tag)) :: c.fields)) "type" =
      some (.string c.tag) := by
    rw [compact_cons]
    simp [Map.get]
  have hfilter : (compact (("type", some (.string c.tag)) :: c.fields)).filter (·.1 ≠ "type") =
      compact c.fields := by
    have hkeys : ∀ e ∈ compact c.fields, e.1 ≠ "type" := by
      intro e he heq
      have hmem : e.1 ∈ (compact c.fields).keys := List.mem_map.mpr ⟨e, he, rfl⟩
      rw [heq] at hmem
      exact (List.nodup_cons.mp c.names_nodup).1 ((keys_compact_sublist c.fields).subset hmem)
    rw [compact_cons]
    simpa using hkeys
  unfold toValue untag
  dsimp only
  rw [htype, hfilter]

theorem map_eq_some_self {α : Type} {f : α → Content} (hf : ∀ {a b}, f a = f b → a = b)
    {o : Option α} {a : α} : o.map f = some (f a) ↔ o = some a := by
  rw [Option.map_eq_some_iff]
  constructor
  · rintro ⟨b, hb, heq⟩
    rw [hb, hf heq]
  · intro h
    exact ⟨a, h, rfl⟩

theorem readUnder_iff (c : Content) :
    readUnder (.object (compact c.fields)) c.tag = some c ↔
      Hints.ofFields (Map.get (compact c.fields)) = some c.hints := by
  have hfields := get_field (List.nodup_cons.mp c.names_nodup).2
  cases c with
  | text block =>
    have hread : readUnder (.object (compact block.fields)) "text" =
        (TextContent.ofFields (Map.get (compact block.fields))).map text := rfl
    exact (iff_of_eq (congrArg (· = _) hread)).trans
      ((map_eq_some_self text.inj).trans (TextContent.ofFields_iff hfields))
  | image block =>
    have hread : readUnder (.object (compact block.fields)) "image" =
        (MediaContent.ofFields (Map.get (compact block.fields))).map image := rfl
    exact (iff_of_eq (congrArg (· = _) hread)).trans
      ((map_eq_some_self image.inj).trans (MediaContent.ofFields_iff hfields))
  | audio block =>
    have hread : readUnder (.object (compact block.fields)) "audio" =
        (MediaContent.ofFields (Map.get (compact block.fields))).map audio := rfl
    exact (iff_of_eq (congrArg (· = _) hread)).trans
      ((map_eq_some_self audio.inj).trans (MediaContent.ofFields_iff hfields))
  | resourceLink block =>
    have hread : readUnder (.object (compact block.fields)) "resource_link" =
        (ResourceLink.ofFields (Map.get (compact block.fields))).map resourceLink := rfl
    exact (iff_of_eq (congrArg (· = _) hread)).trans
      ((map_eq_some_self resourceLink.inj).trans (ResourceLink.ofFields_iff hfields))
  | resource block =>
    have hread : readUnder (.object (compact block.fields)) "resource" =
        (EmbeddedResource.ofFields (Map.get (compact block.fields))).map resource := rfl
    exact (iff_of_eq (congrArg (· = _) hread)).trans
      ((map_eq_some_self resource.inj).trans (EmbeddedResource.ofFields_iff hfields))

/-- A block is read as it was if and only if its annotations are finite. -/
theorem fromValue_iff (c : Content) : Content.fromValue c.toValue = some c ↔ c.IsPlain := by
  have hhints : ∀ e ∈ c.hints.fields, Map.get (compact c.fields) e.1 = e.2 := by
    intro e he
    exact get_field (List.nodup_cons.mp c.names_nodup).2 e (c.hints_fields e he)
  unfold Content.fromValue
  rw [untag_toValue, Option.bind_some]
  exact c.readUnder_iff.trans (Hints.ofFields_iff hhints)

end Content

theorem ToolResult.ofFields_iff {r : ToolResult} {field : String → Option Json}
    (h : ∀ e ∈ r.fields, field e.1 = e.2) : ofFields field = some r ↔ r.IsPlain := by
  obtain ⟨content, isError, structuredContent⟩ := r
  simp only [fields, List.forall_mem_cons] at h
  obtain ⟨hcontent, herror, hstructured, -⟩ := h
  have hblocks : readVec Content.fromValue (vec Content.toValue content) = some content ↔
      ∀ c ∈ content, c.IsPlain := by
    rw [readVec_vec_iff]
    exact forall₂_congr fun c _ => c.fromValue_iff
  unfold ofFields
  rw [hcontent, herror, hstructured]
  constructor
  · intro h
    obtain ⟨_, hread, h⟩ := Option.bind_eq_some_iff.mp h
    obtain ⟨_, _, h⟩ := Option.bind_eq_some_iff.mp h
    obtain ⟨_, hvalue, h⟩ := Option.bind_eq_some_iff.mp h
    cases h
    exact ⟨hblocks.mp hread, optionalValue_iff.mp hvalue⟩
  · rintro ⟨hplain, hvalue⟩
    rw [Option.bind_some, hblocks.mpr hplain, optionalValue_iff.mpr hvalue]
    rfl

theorem PromptMessage.toValue_iff (m : PromptMessage) :
    PromptMessage.fromValue m.toValue = some m ↔ m.content.IsPlain := by
  have hnames : (m.fields.map Prod.fst).Nodup := (by decide : ["role", "content"].Nodup)
  have h := get_field hnames
  show ofFields (Map.get (compact m.fields)) = _ ↔ _
  obtain ⟨role, content⟩ := m
  simp only [fields, List.forall_mem_cons] at h
  obtain ⟨hrole, hcontent, -⟩ := h
  unfold ofFields
  simp only [fields]
  rw [hrole, hcontent, Option.bind_some, Option.bind_some, role.fromValue_asStr]
  rw [← content.fromValue_iff]
  cases Content.fromValue content.toValue <;> simp

theorem ModelHint.fromValue_toValue (m : ModelHint) : ModelHint.fromValue m.toValue = some m := by
  obtain ⟨name⟩ := m
  cases name <;> rfl

theorem ModelPreferences.fromValue_iff (p : ModelPreferences) :
    ModelPreferences.fromValue p.toValue = some p ↔ p.IsPlain := by
  have hnames : (p.fields.map Prod.fst).Nodup :=
    (by decide : ["hints", "costPriority", "speedPriority", "intelligencePriority"].Nodup)
  have h := get_field hnames
  show ofFields (Map.get (compact p.fields)) = _ ↔ _
  obtain ⟨hints, cost, speed, intelligence⟩ := p
  have hhints : optionalField (readVec ModelHint.fromValue) (hints.map (vec ModelHint.toValue)) =
      some hints := optionalField_map _ fun hints =>
    ⟨readVec_vec fun m _ => m.fromValue_toValue, fun h => nomatch h⟩
  simp only [fields, List.forall_mem_cons] at h
  obtain ⟨h1, h2, h3, h4, -⟩ := h
  unfold ofFields
  simp only [fields]
  rw [h1, h2, h3, h4, hhints]
  constructor
  · intro h
    simp only [Option.bind_eq_bind, Option.bind_some] at h
    obtain ⟨_, hcost, h⟩ := Option.bind_eq_some_iff.mp h
    obtain ⟨_, hspeed, h⟩ := Option.bind_eq_some_iff.mp h
    obtain ⟨_, hintelligence, h⟩ := Option.bind_eq_some_iff.mp h
    cases h
    exact ⟨optionalF64_iff.mp hcost, optionalF64_iff.mp hspeed, optionalF64_iff.mp hintelligence⟩
  · rintro ⟨hcost, hspeed, hintelligence⟩
    rw [optionalF64_iff.mpr hcost, optionalF64_iff.mpr hspeed, optionalF64_iff.mpr hintelligence]
    rfl

theorem readI32_toInt (n : Int32) :
    CreateMessageRequest.readI32 (.number (Number.ofI32 n.toInt)) = some n := by
  unfold CreateMessageRequest.readI32
  dsimp only
  rw [Number.asI32_ofI32 n.le_toInt n.toInt_lt, Option.map_some, Int32.ofInt_toInt]

/-- What the client's model is asked is read as it was written if and only if its numbers are
finite. -/
theorem CreateMessageRequest.fromValue_iff (r : CreateMessageRequest) :
    CreateMessageRequest.fromValue r.toValue = some r ↔ r.IsPlain := by
  have hnames : (r.fields.map Prod.fst).Nodup :=
    (by decide : ["messages", "modelPreferences", "systemPrompt", "includeContext", "maxTokens",
      "temperature", "stopSequences", "metadata"].Nodup)
  have h := get_field hnames
  show ofFields (Map.get (compact r.fields)) = _ ↔ _
  obtain ⟨messages, preferences, systemPrompt, includeContext, maxTokens, temperature, stop,
    metadata⟩ := r
  have hmessages : readVec PromptMessage.fromValue (vec PromptMessage.toValue messages) =
      some messages ↔ ∀ m ∈ messages, m.content.IsPlain := by
    rw [readVec_vec_iff]
    exact forall₂_congr fun m _ => m.toValue_iff
  have hpreferences : optionalField ModelPreferences.fromValue
      (preferences.map ModelPreferences.toValue) = some preferences ↔
        ∀ p, preferences = some p → p.IsPlain := by
    have hnull (p : ModelPreferences) : p.toValue ≠ .null := fun h => nomatch h
    rw [optionalField_map_iff hnull]
    exact forall₂_congr fun p _ => p.fromValue_iff
  simp only [fields, List.forall_mem_cons] at h
  obtain ⟨h1, h2, h3, h4, h5, h6, h7, h8, -⟩ := h
  unfold ofFields
  simp only [fields]
  rw [h1, h2, h3, h4, h5, h6, h7, h8, optionalStr, optionalStr, optionalStrings, optionalMeta]
  simp only [Option.bind_some, readI32_toInt]
  constructor
  · intro h
    obtain ⟨_, hread, h⟩ := Option.bind_eq_some_iff.mp h
    obtain ⟨_, hprefer, h⟩ := Option.bind_eq_some_iff.mp h
    simp only [Option.bind_eq_bind, Option.bind_some] at h
    obtain ⟨_, htemperature, h⟩ := Option.bind_eq_some_iff.mp h
    cases h
    exact ⟨hmessages.mp hread, hpreferences.mp hprefer, optionalF64_iff.mp htemperature⟩
  · rintro ⟨hplain, hprefer, htemperature⟩
    rw [hmessages.mpr hplain, hpreferences.mpr hprefer, optionalF64_iff.mpr htemperature]
    rfl

theorem CreateMessageResult.fromValue_iff (r : CreateMessageResult) :
    CreateMessageResult.fromValue r.toValue = some r ↔ r.content.IsPlain := by
  have hnames : (r.fields.map Prod.fst).Nodup :=
    (by decide : ["role", "content", "model", "stopReason"].Nodup)
  have h := get_field hnames
  show ofFields (Map.get (compact r.fields)) = _ ↔ _
  obtain ⟨role, content, model, stopReason⟩ := r
  simp only [fields, List.forall_mem_cons] at h
  obtain ⟨hrole, hcontent, hmodel, hstop, -⟩ := h
  unfold ofFields
  simp only [fields]
  rw [hrole, hcontent, hmodel, hstop, optionalStr, Option.bind_some, Option.bind_some,
    role.fromValue_asStr]
  rw [← content.fromValue_iff]
  cases Content.fromValue content.toValue <;> simp [Json.asStr]

/-- The response a tool gives is this result, as it is written. -/
structure ToolResult.IsWritten (r : ToolResult) (response : Tools.ToolResponse) : Prop where
  content : response.content.map contentValue = r.content.map Content.toValue
  isError : response.isError = r.isError
  structured : response.structuredContent = r.structuredContent

theorem ToolResult.IsWritten.fields {r : ToolResult} {response : Tools.ToolResponse}
    (h : r.IsWritten response) : toolResponseFields response = compact r.fields := by
  unfold toolResponseFields ToolResult.fields vec
  rw [h.content, h.isError, h.structured]

/-- A server whose one tool answers with a greeting. -/
def Methods.greetServer : Methods.McpServer Unit :=
  { reportServer with
    toolDispatcher := some ⟨fun _ => [], fun _ _ _ => .immediate ⟨[.text "hello"], false, none⟩⟩ }

def greeting : ToolResult := ⟨[.text ⟨⟨none, none⟩, "hello"⟩], false, none⟩

section Relayed

variable {α : Type} {field : String → Option Json} {readOne : Json → Option α} {write : α → Json}

/-- A reader that takes only what is written of a value reads of a field all there is. -/
theorem optionalField_exact (hread : ∀ {x a}, readOne x = some a → x = write a) {v : Option Json}
    {o : Option α} (h : optionalField readOne v = some o) : optionValue v = o.map write := by
  cases v with
  | none =>
    obtain rfl := Option.some.inj h
    rfl
  | some x =>
    cases x with
    | null =>
      obtain rfl := Option.some.inj h
      rfl
    | bool | number | string | array | object =>
      obtain ⟨a, ha, rfl⟩ := Option.map_eq_some_iff.mp h
      exact congrArg some (hread ha)

theorem readU64_exact {x : Json} {a : UInt64} (h : readU64 x = some a) : x = u64 a := by
  unfold readU64 at h
  split at h
  · obtain rfl := Option.some.inj h
    rfl
  · cases h

theorem required_exact {v : Option Json} {a : String} (h : v.bind Json.asStr = some a) :
    optionValue v = some (.string a) := by
  obtain ⟨x, rfl, hx⟩ := Option.bind_eq_some_iff.mp h
  rw [Json.asStr_eq_some hx]
  rfl

/-- The fields a block is written with that hold values of their own. -/
def nested : List String := ["annotations", "icons", "resource"]

/-- The fields that are no records are read as they are. -/
def Keeps (field : String → Option Json) (fields : List (String × Option Json)) : Prop :=
  ∀ e ∈ fields, e.1 ∉ nested → optionValue (field e.1) = e.2

theorem Keeps.nil : Keeps field [] := fun _ h => absurd h List.not_mem_nil

theorem Keeps.cons {name : String} {v : Option Json} {fields : List (String × Option Json)}
    (hv : optionValue (field name) = v) (h : Keeps field fields) : Keeps field ((name, v) :: fields) := by
  intro e he hplain
  rcases List.mem_cons.mp he with rfl | he
  · exact hv
  · exact h e he hplain

theorem Keeps.skip {name : String} {v : Option Json} {fields : List (String × Option Json)}
    (hname : name ∈ nested) (h : Keeps field fields) : Keeps field ((name, v) :: fields) := by
  intro e he hplain
  rcases List.mem_cons.mp he with rfl | he
  · exact absurd hname hplain
  · exact h e he hplain

theorem Hints.ofFields_keeps {h : Hints} (hread : Hints.ofFields field = some h) :
    Keeps field h.fields := by
  obtain ⟨annotations, _, hread⟩ := Option.bind_eq_some_iff.mp hread
  obtain ⟨meta_, hmeta, hread⟩ := Option.bind_eq_some_iff.mp hread
  obtain rfl := Option.some.inj hread
  exact .skip (by decide) (.cons (optionalField_exact Json.asObject_eq_some hmeta) .nil)

theorem TextContent.ofFields_keeps {c : TextContent} (hread : ofFields field = some c) :
    Keeps field c.fields := by
  obtain ⟨text, htext, hread⟩ := Option.bind_eq_some_iff.mp hread
  obtain ⟨hints, hhints, hread⟩ := Option.bind_eq_some_iff.mp hread
  obtain rfl := Option.some.inj hread
  exact .cons (required_exact htext) (Hints.ofFields_keeps hhints)

theorem MediaContent.ofFields_keeps {c : MediaContent} (hread : ofFields field = some c) :
    Keeps field c.fields := by
  obtain ⟨data, hdata, hread⟩ := Option.bind_eq_some_iff.mp hread
  obtain ⟨mimeType, htype, hread⟩ := Option.bind_eq_some_iff.mp hread
  obtain ⟨hints, hhints, hread⟩ := Option.bind_eq_some_iff.mp hread
  obtain rfl := Option.some.inj hread
  exact .cons (required_exact hdata) (.cons (required_exact htype) (Hints.ofFields_keeps hhints))

theorem ResourceLink.ofFields_keeps {l : ResourceLink} (hread : ofFields field = some l) :
    Keeps field l.fields := by
  obtain ⟨uri, huri, hread⟩ := Option.bind_eq_some_iff.mp hread
  obtain ⟨name, hname, hread⟩ := Option.bind_eq_some_iff.mp hread
  obtain ⟨title, htitle, hread⟩ := Option.bind_eq_some_iff.mp hread
  obtain ⟨description, hdescription, hread⟩ := Option.bind_eq_some_iff.mp hread
  obtain ⟨mimeType, htype, hread⟩ := Option.bind_eq_some_iff.mp hread
  obtain ⟨size, hsize, hread⟩ := Option.bind_eq_some_iff.mp hread
  obtain ⟨icons, _, hread⟩ := Option.bind_eq_some_iff.mp hread
  obtain ⟨hints, hhints, hread⟩ := Option.bind_eq_some_iff.mp hread
  obtain rfl := Option.some.inj hread
  refine .cons (required_exact huri) (.cons (required_exact hname) ?_)
  refine .cons (optionalField_exact Json.asStr_eq_some htitle) ?_
  refine .cons (optionalField_exact Json.asStr_eq_some hdescription) ?_
  refine .cons (optionalField_exact Json.asStr_eq_some htype) ?_
  exact .cons (optionalField_exact readU64_exact hsize)
    (.skip (by decide) (Hints.ofFields_keeps hhints))

theorem EmbeddedResource.ofFields_keeps {e : EmbeddedResource} (hread : ofFields field = some e) :
    Keeps field e.fields ∧ (field "resource").bind ResourceContents.fromValue = some e.resource := by
  obtain ⟨resource, hresource, hread⟩ := Option.bind_eq_some_iff.mp hread
  obtain ⟨hints, hhints, hread⟩ := Option.bind_eq_some_iff.mp hread
  obtain rfl := Option.some.inj hread
  exact ⟨.skip (by decide) (Hints.ofFields_keeps hhints), hresource⟩

/-- Contents are read with all they hold, of one kind and none of the other. -/
theorem ResourceContents.ofFields_keeps {c : ResourceContents} (hread : ofFields field = some c) :
    Keeps field c.fields ∧
      ((optionValue (field "text")).isSome ↔ ¬ (optionValue (field "blob")).isSome) := by
  obtain ⟨uri, huri, hread⟩ := Option.bind_eq_some_iff.mp hread
  obtain ⟨mimeType, htype, hread⟩ := Option.bind_eq_some_iff.mp hread
  obtain ⟨body, hbody, hread⟩ := Option.bind_eq_some_iff.mp hread
  obtain ⟨bytes, hbytes, hread⟩ := Option.bind_eq_some_iff.mp hread
  obtain ⟨meta_, hmeta, hread⟩ := Option.bind_eq_some_iff.mp hread
  have htext := optionalField_exact Json.asStr_eq_some hbody
  have hblob := optionalField_exact Json.asStr_eq_some hbytes
  have hlast := Keeps.cons (optionalField_exact Json.asObject_eq_some hmeta) Keeps.nil
  have hfirst (name : String) (v : Option Json) (hv : optionValue (field name) = v) :=
    Keeps.cons (required_exact huri)
      (.cons (optionalField_exact Json.asStr_eq_some htype) (.cons hv hlast))
  cases body with
  | none =>
    cases bytes with
    | none => cases hread
    | some bytes =>
      obtain rfl := Option.some.inj hread
      exact ⟨hfirst "blob" _ hblob, by simp [htext, hblob]⟩
  | some body =>
    cases bytes with
    | none =>
      obtain rfl := Option.some.inj hread
      exact ⟨hfirst "text" _ htext, by simp [htext, hblob]⟩
    | some bytes => cases hread

end Relayed

theorem get_filter_of_ne {m : Map} {name key : String} (h : name ≠ key) :
    Map.get (m.filter (·.1 ≠ key)) name = m.get name := by
  unfold Map.get
  induction m with
  | nil => rfl
  | cons e m ih =>
    by_cases hkey : e.1 = key
    · have hother : (name == e.1) = false := by simp [hkey, h]
      rw [List.filter_cons_of_neg (by simpa using hkey), ih, List.lookup_cons, hother]
    · rw [List.filter_cons_of_pos (by simpa using hkey), List.lookup_cons, List.lookup_cons, ih]

theorem Content.fields_ne_type (c : Content) : ∀ e ∈ c.fields, e.1 ≠ "type" := by
  intro e he heq
  have hmem : e.1 ∈ c.fields.map Prod.fst := List.mem_map.mpr ⟨e, he, rfl⟩
  rw [heq] at hmem
  exact (List.nodup_cons.mp c.names_nodup).1 hmem

/-- What is read under a `type` is a block of that type, with all it holds. -/
theorem Content.readUnder_keeps {m : Map} {tag : String} {c : Content}
    (h : readUnder (.object m) tag = some c) : tag = c.tag ∧ Keeps m.get c.fields ∧
      ∀ block, c = .resource block →
        (m.get "resource").bind ResourceContents.fromValue = some block.resource := by
  unfold readUnder at h
  split at h
  · obtain ⟨block, hblock, rfl⟩ := Option.map_eq_some_iff.mp h
    exact ⟨rfl, TextContent.ofFields_keeps hblock, fun _ heq => nomatch heq⟩
  · obtain ⟨block, hblock, rfl⟩ := Option.map_eq_some_iff.mp h
    exact ⟨rfl, MediaContent.ofFields_keeps hblock, fun _ heq => nomatch heq⟩
  · obtain ⟨block, hblock, rfl⟩ := Option.map_eq_some_iff.mp h
    exact ⟨rfl, MediaContent.ofFields_keeps hblock, fun _ heq => nomatch heq⟩
  · obtain ⟨block, hblock, rfl⟩ := Option.map_eq_some_iff.mp h
    exact ⟨rfl, ResourceLink.ofFields_keeps hblock, fun _ heq => nomatch heq⟩
  · obtain ⟨block, hblock, rfl⟩ := Option.map_eq_some_iff.mp h
    obtain ⟨hkeeps, hresource⟩ := EmbeddedResource.ofFields_keeps hblock
    refine ⟨rfl, hkeeps, ?_⟩
    intro other heq
    rw [← Content.resource.inj heq]
    exact hresource
  · cases h

/-- A block that is read of an object and written again keeps its `type` and all that its kind has
of texts, numbers and `_meta`; and of a resource its text or its bytes, whichever it held. -/
theorem Content.relayed_kept {m : Map} {c : Content} (h : Content.fromValue (.object m) = some c) :
    m.get "type" = some (.string c.tag) ∧ Keeps m.get c.fields ∧
    ∀ block n, c = .resource block → m.get "resource" = some (.object n) →
      Keeps (Map.get n) block.resource.fields ∧
      ((optionValue (Map.get n "text")).isSome ↔ ¬ (optionValue (Map.get n "blob")).isSome) := by
  obtain ⟨⟨tag, rest⟩, huntag, hread⟩ := Option.bind_eq_some_iff.mp h
  unfold untag at huntag
  dsimp only at huntag
  split at huntag
  · rename_i tag' htype
    obtain ⟨rfl, rfl⟩ := Prod.mk.inj (Option.some.inj huntag)
    obtain ⟨rfl, hkeeps, hresource⟩ := readUnder_keeps hread
    refine ⟨htype, ?_, ?_⟩
    · intro e he hplain
      rw [← get_filter_of_ne (c.fields_ne_type e he)]
      exact hkeeps e he hplain
    · intro block n hblock hn
      have hcontents := hresource block hblock
      rw [get_filter_of_ne (by decide), hn] at hcontents
      exact ResourceContents.ofFields_keeps hcontents
  · cases huntag

/-- The contents of a note, and a block that carries them. -/
def noteContents : Map := [("uri", .string "file:///note"), ("mimeType", .null), ("text", .string "hi")]

theorem Content.relayed_kept_note :
    Keeps (Map.get noteContents) (ResourceContents.text ⟨"file:///note", none, none⟩ "hi").fields := by
  have hread : Content.fromValue (.object [("resource", .object noteContents),
      ("type", .string "resource")]) =
    some (.resource ⟨⟨none, none⟩, .text ⟨"file:///note", none, none⟩ "hi"⟩) := by decide
  exact ((relayed_kept hread).2.2 _ noteContents rfl rfl).1

end Tronc.Mcp
