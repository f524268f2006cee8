import Tronc.Mcp.Numbers
import Tronc.Mcp.Annotations
import Tronc.Mcp.ToolCall

namespace Tronc.Mcp

/-- A header that repeats something of the body. -/
def IsMirror (name : String) : Prop :=
  name = MCP_METHOD_HEADER ∨ name = MCP_NAME_HEADER ∨ isParamHeader name = true

/-- The header has one value, and that can be read. -/
def Carries (headers : HeaderMap) (name text : String) : Prop :=
  ∃ value, headers.getAll name = [value] ∧ value.toStr = some text

/-- A value that a header can carry. -/
def IsScalar : Json → Prop
  | .string _ | .bool _ | .number _ => True
  | .null | .array _ | .object _ => False

/-- Whether a header's decoded text is the value. Numbers are compared as numbers, a decimal of the
header as the double nearest to it. -/
def Denotes (decoded : String) : Json → Prop
  | .string s => decoded = s
  | .bool b => decoded = if b then "true" else "false"
  | .number n => ∃ x, Binary64.parse decoded = some x ∧ x.isFinite = true ∧ x.scaled = n.scaled
  | .null | .array _ | .object _ => False

/-- The text and the value are the two zeros. -/
def OppositeZeros (decoded : String) (v : Json) : Prop :=
  ∃ n x, v = .number n ∧ Binary64.parse decoded = some x ∧ n.asF64.magnitude = 0 ∧
    x.magnitude = 0 ∧ x ≠ n.asF64

/-- What one annotated argument's header says of it. -/
structure ArgumentMirrored (crates : Crates) (headers : HeaderMap) (header : String)
    (body : Option Json) : Prop where
  carried : (∃ text, Carries headers header text) ↔ ∃ v, body = some v ∧ IsScalar v
  denoted : ∀ text v, Carries headers header text → body = some v →
    ∃ decoded, decodeHeaderValue crates text = .ok decoded ∧ Denotes decoded v
  safe : ∀ n, body = some (.number n) → n.IsSafe

/-- The header and the argument are the two zeros. -/
def ZerosDiffer (crates : Crates) (headers : HeaderMap) (header : String) (body : Option Json) :
    Prop :=
  ∃ text decoded v, Carries headers header text ∧ decodeHeaderValue crates text = .ok decoded ∧
    body = some v ∧ OppositeZeros decoded v

section Argument

variable {crates : Crates} {body : Option Json}

/-- `mirrors` compares doubles bit by bit, so it tells the two zeros apart and nothing more. -/
theorem mirrors_iff {v : Json} {text decoded : String}
    (htext : mirrorable crates (some v) = some text) (hsafe : ∀ n, v = .number n → n.IsSafe) :
    mirrors v text decoded = true ↔ Denotes decoded v ∧ ¬ OppositeZeros decoded v := by
  cases v with
  | null | array _ | object _ => cases htext
  | string s =>
    obtain rfl : s = text := Option.some.inj htext
    have hzeros : ¬ OppositeZeros decoded (.string s) := by
      rintro ⟨n, x, h, _⟩
      cases h
    simp only [mirrors, Json.asF64, Denotes, beq_iff_eq, hzeros, not_false_eq_true, and_true]
  | bool b =>
    obtain rfl : (if b then "true" else "false") = text := Option.some.inj htext
    have hzeros : ¬ OppositeZeros decoded (.bool b) := by
      rintro ⟨n, x, h, _⟩
      cases h
    simp only [mirrors, Json.asF64, Denotes, beq_iff_eq, hzeros, not_false_eq_true, and_true]
  | number n =>
    have hn := hsafe n rfl
    obtain ⟨hfinite, _⟩ := isUnsafe_eq_false.mp ((isUnsafe_asF64 n).mpr hn)
    have hvalue := scaled_asF64 hn
    simp only [mirrors, Json.asF64, Option.any_eq_true, beq_iff_eq]
    constructor
    · rintro ⟨x, hparse, rfl⟩
      refine ⟨⟨_, hparse, hfinite, hvalue⟩, ?_⟩
      rintro ⟨n', y, heq, hy, _, _, hne⟩
      obtain rfl := Json.number.inj heq
      exact hne (Option.some.inj (hy.symm.trans hparse))
    · rintro ⟨⟨x, hparse, _, hx⟩, hzeros⟩
      refine ⟨x, hparse, ?_⟩
      rcases Binary64.scaled_eq_iff.mp (hx.trans hvalue.symm) with heq | ⟨hzero, hzero'⟩
      · exact heq
      · by_contra hne
        exact hzeros ⟨n, x, rfl, hparse, hzero', hzero, hne⟩

theorem mirrorable_isSome (crates : Crates) {v : Json} :
    (mirrorable crates (some v)).isSome = true ↔ IsScalar v := by
  cases v <;> simp [mirrorable, IsScalar]

theorem any_isUnsafe {v : Json} : v.asF64.any isUnsafe = false ↔ ∀ n, v = .number n → n.IsSafe := by
  cases v with
  | number n =>
    simp only [Json.asF64, Option.any_some, isUnsafe_asF64, Json.number.injEq, forall_eq']
  | null | bool _ | string _ | array _ | object _ => simp [Json.asF64]

variable {headers : HeaderMap} {forwarded : AList fun _ : String => Json}
  {arguments : Option Json} {argument : MirroredArgument}

/-- An argument whose header is there. -/
private theorem carried_argument_iff {header raw : String} {v : Json}
    (hcarries : Carries headers header raw)
    (hunique : ∀ text, Carries headers header text → text = raw) (hscalar : IsScalar v) :
    ArgumentMirrored crates headers header (some v) ∧ ¬ ZerosDiffer crates headers header (some v) ↔
      (∀ n, v = .number n → n.IsSafe) ∧ ∃ decoded, decodeHeaderValue crates raw = .ok decoded ∧
        Denotes decoded v ∧ ¬ OppositeZeros decoded v := by
  constructor
  · rintro ⟨h, hzeros⟩
    obtain ⟨decoded, hdecode, hdenotes⟩ := h.denoted raw v hcarries rfl
    refine ⟨fun n hn => h.safe n (congrArg some hn), decoded, hdecode, hdenotes, ?_⟩
    exact fun hopposite => hzeros ⟨raw, decoded, v, hcarries, hdecode, rfl, hopposite⟩
  · rintro ⟨hsafe, decoded, hdecode, hdenotes, hopposite⟩
    refine ⟨⟨?_, ?_, fun n hn => hsafe n (Option.some.inj hn)⟩, ?_⟩
    · exact iff_of_true ⟨raw, hcarries⟩ ⟨v, rfl, hscalar⟩
    · intro text v' hc hv
      rw [hunique text hc, ← Option.some.inj hv]
      exact ⟨decoded, hdecode, hdenotes⟩
    · rintro ⟨text, decoded', v', hc, hd, hv, hbad⟩
      rw [hunique text hc, hdecode] at hd
      rw [← Except.ok.inj hd, ← Option.some.inj hv] at hbad
      exact hopposite hbad

/-- A modern call's check of one argument. -/
theorem checkArgument_eq_ok
    (hheader : ∀ raw, (forwarded.lookup argument.header).bind Json.asStr = some raw ↔
      Carries headers argument.header raw)
    (hbody : (arguments.bind fun arguments => arguments.valueAt argument.path) = body) :
    checkArgument crates arguments forwarded true argument = .ok () ↔
      ArgumentMirrored crates headers argument.header body ∧
        ¬ ZerosDiffer crates headers argument.header body := by
  unfold checkArgument
  dsimp only
  rw [hbody]
  cases hraw : (forwarded.lookup argument.header).bind Json.asStr with
  | none =>
    have habsent (text : String) : ¬ Carries headers argument.header text := by
      rw [← hheader, hraw]
      exact Option.some_ne_none text ∘ Eq.symm
    cases htext : mirrorable crates body with
    | some text =>
      refine iff_of_false (fun h => by cases body <;> cases h) ?_
      rintro ⟨h, _⟩
      cases body with
      | none => cases htext
      | some v =>
        have hscalar : IsScalar v := (mirrorable_isSome crates).mp (Option.isSome_iff_exists.mpr ⟨text, htext⟩)
        obtain ⟨raw, hcarries⟩ := h.carried.mpr ⟨v, rfl, hscalar⟩
        exact habsent raw hcarries
    | none =>
      have hnot (v : Json) (hv : body = some v) : ¬ IsScalar v := by
        rw [← mirrorable_isSome crates, ← hv, htext]
        decide
      refine iff_of_true (by cases body <;> rfl) ⟨⟨?_, ?_, ?_⟩, ?_⟩
      · refine iff_of_false (fun h => habsent _ h.choose_spec) ?_
        rintro ⟨v, hv, hscalar⟩
        exact hnot v hv hscalar
      · exact fun text v hcarries _ => absurd hcarries (habsent text)
      · exact fun n hn => absurd trivial (hnot _ hn)
      · rintro ⟨text, _, _, hcarries, _⟩
        exact habsent text hcarries
  | some raw =>
    have hcarries : Carries headers argument.header raw := (hheader raw).mp hraw
    have hunique {text : String} (h : Carries headers argument.header text) : text = raw :=
      Option.some.inj (((hheader text).mpr h).symm.trans hraw)
    cases htext : mirrorable crates body with
    | none =>
      refine iff_of_false (fun h => by cases body <;> cases h) ?_
      rintro ⟨h, _⟩
      obtain ⟨v, hv, hscalar⟩ := h.carried.mp ⟨raw, hcarries⟩
      rw [← mirrorable_isSome crates, ← hv, htext] at hscalar
      cases hscalar
    | some text =>
      cases body with
      | none => cases htext
      | some v =>
        have hscalar : IsScalar v :=
          (mirrorable_isSome crates).mp (Option.isSome_iff_exists.mpr ⟨text, htext⟩)
        rw [carried_argument_iff hcarries (fun _ => hunique) hscalar, ← any_isUnsafe]
        cases hbeyond : v.asF64.any isUnsafe with
        | true => simp [hbeyond]
        | false =>
          simp only [hbeyond, Bool.false_eq_true, if_false, true_and]
          cases hdecode : decodeHeaderValue crates raw with
          | error reason => simp
          | ok decoded =>
            simp only [Except.ok.injEq, exists_eq_left',
              ← mirrors_iff htext (any_isUnsafe.mp hbeyond)]
            cases mirrors v text decoded <;> simp

end Argument

/-- What `Mcp-Method`, `Mcp-Name` and the wire form of the other mirrors say of a request. -/
structure StandardMirrored (crates : Crates) (headers : HeaderMap) (request : JsonRpcRequest) :
    Prop where
  single : ∀ name, IsMirror name → (headers.getAll name).length ≤ 1
  readable : ∀ name, IsMirror name → ∀ value ∈ headers.getAll name, value.toStr.isSome = true
  method : ∃ text, Carries headers MCP_METHOD_HEADER text ∧ Text.trim text = request.method
  name : ∀ field, mirroredNameField request.method = some field →
    ∃ text target, Carries headers MCP_NAME_HEADER text ∧
      decodeHeaderValue crates text = .ok target ∧
      (request.params.bind fun p => p.get field) = some (.string target)

section Standard

variable {crates : Crates} {headers : HeaderMap} {request : JsonRpcRequest}

/-- The characters of the wire form are those that can be read back. -/
theorem toStr_isSome (value : HeaderValue) :
    value.toStr.isSome = true ↔ isPermittedFieldValue value.bytes = true := by
  have hbyte (b : UInt8) : isVisibleAscii b = (b == 9 || (0x20 ≤ b && b ≤ 0x7E)) := by
    have hlt : (b < 127) = (b ≤ 0x7E) := by
      rw [UInt8.lt_iff_toNat_lt, UInt8.le_iff_toNat_le]
      exact propext Nat.lt_succ_iff
    unfold isVisibleAscii
    rw [Bool.or_comm, decide_eq_decide.mpr (iff_of_eq hlt)]
  unfold HeaderValue.toStr isPermittedFieldValue
  rw [funext hbyte]
  split <;> simp_all

theorem carries_or_absent {name : String} (hsingle : (headers.getAll name).length ≤ 1)
    (hread : ∀ value ∈ headers.getAll name, value.toStr.isSome = true) :
    headers.getAll name = [] ∨ ∃ text, Carries headers name text := by
  match hall : headers.getAll name with
  | [] => exact .inl rfl
  | [value] =>
    obtain ⟨text, htext⟩ := Option.isSome_iff_exists.mp (hread value (by rw [hall]; simp))
    exact .inr ⟨text, value, hall, htext⟩
  | _ :: _ :: _ =>
    rw [hall] at hsingle
    simp at hsingle

theorem singleHeader_eq_some {name text : String} :
    singleHeader headers name = .ok (some text) ↔ Carries headers name text := by
  rw [singleHeader_eq_ok]
  constructor
  · rintro (⟨_, h⟩ | ⟨value, read, hone, hread, heq⟩)
    · cases h
    · obtain rfl := Option.some.inj heq
      exact ⟨value, hone, hread⟩
  · rintro ⟨value, hone, hread⟩
    exact .inr ⟨value, text, hone, hread, rfl⟩

/-- A header is taken for what it says only when it says one thing. -/
theorem single_of_singleHeader {name : String} {text : Option String}
    (h : singleHeader headers name = .ok text) : (headers.getAll name).length ≤ 1 ∧
      ∀ value ∈ headers.getAll name, value.toStr.isSome = true := by
  rcases singleHeader_eq_ok.mp h with ⟨hnone, _⟩ | ⟨value, read, hone, hread, _⟩
  · rw [hnone]
    simp
  · rw [hone]
    refine ⟨Nat.le_refl 1, fun v hv => ?_⟩
    rw [List.mem_singleton.mp hv, hread]
    rfl

theorem getAll_eq_nil {name : String} (h : name ∉ headers.keys) : headers.getAll name = [] := by
  unfold HeaderMap.keys at h
  rw [List.mem_dedup] at h
  unfold HeaderMap.getAll
  rw [List.map_eq_nil_iff, List.filter_eq_nil_iff]
  intro e he hname
  rw [beq_iff_eq] at hname
  exact h (hname ▸ List.mem_map_of_mem he)

theorem paramWire_eq_ok : headers.keys.forM (checkParamWire headers) = .ok () ↔
    ∀ name, isParamHeader name = true → (headers.getAll name).length ≤ 1 ∧
      ∀ value ∈ headers.getAll name, value.toStr.isSome = true := by
  simp only [forM_eq_ok, checkParamWire_eq_ok, toStr_isSome]
  constructor
  · intro h name hparam
    by_cases hname : name ∈ headers.keys
    · exact h name hname hparam
    · rw [getAll_eq_nil hname]
      simp
  · exact fun h name _ hparam => h name hparam

theorem checkStandardHeaders_parts {modern : Bool} :
    checkStandardHeaders crates headers request modern = .ok () ↔
      (∀ name, isParamHeader name = true → (headers.getAll name).length ≤ 1 ∧
        ∀ value ∈ headers.getAll name, value.toStr.isSome = true) ∧
      checkMethodMirror headers request.method (modern && request.id.isSome) = .ok () ∧
      checkNameMirror crates headers request (modern && request.id.isSome) = .ok () := by
  unfold checkStandardHeaders
  dsimp only
  rw [← paramWire_eq_ok, bind_eq_ok]
  constructor
  · rintro ⟨_, hwire, hrest⟩
    obtain ⟨_, hmethod, hname⟩ := bind_eq_ok.mp hrest
    exact ⟨hwire, hmethod, hname⟩
  · rintro ⟨hwire, hmethod, hname⟩
    exact ⟨(), hwire, bind_eq_ok.mpr ⟨(), hmethod, hname⟩⟩

/-- Mirrors are singletons, whatever the era. -/
theorem single_of_checkStandardHeaders {modern : Bool}
    (h : checkStandardHeaders crates headers request modern = .ok ()) {name : String}
    (hmirror : IsMirror name) : (headers.getAll name).length ≤ 1 ∧
      ∀ value ∈ headers.getAll name, value.toStr.isSome = true := by
  obtain ⟨hwire, hmethod, hname⟩ := checkStandardHeaders_parts.mp h
  rcases hmirror with rfl | rfl | hparam
  · obtain ⟨text, hsingle, _⟩ := checkMethodMirror_eq_ok.mp hmethod
    exact single_of_singleHeader hsingle
  · obtain ⟨text, hsingle, _⟩ := checkNameMirror_eq_ok.mp hname
    exact single_of_singleHeader hsingle
  · exact hwire name hparam

/-- A modern request passes when its mirrors are those of its body. -/
theorem checkStandardHeaders_modern (hid : request.id.isSome = true) :
    checkStandardHeaders crates headers request true = .ok () ↔
      StandardMirrored crates headers request := by
  constructor
  · intro h
    obtain ⟨_, hmethod, hname⟩ := checkStandardHeaders_parts.mp h
    rw [hid] at hmethod hname
    refine ⟨fun name hm => (single_of_checkStandardHeaders h hm).1,
      fun name hm => (single_of_checkStandardHeaders h hm).2, ?_, ?_⟩
    · obtain ⟨text, hsingle, hmatch, hmissing⟩ := checkMethodMirror_eq_ok.mp hmethod
      cases text with
      | none => exact absurd (hmissing rfl) (by decide)
      | some text => exact ⟨text, singleHeader_eq_some.mp hsingle, hmatch text rfl⟩
    · intro field hfield
      obtain ⟨text, hsingle, hrest⟩ := checkNameMirror_eq_ok.mp hname
      obtain ⟨hmatch, hmissing⟩ := hrest field hfield
      cases text with
      | none => exact absurd (hmissing rfl) (by decide)
      | some text =>
        obtain ⟨target, hdecode, htarget⟩ := hmatch text rfl
        exact ⟨text, target, singleHeader_eq_some.mp hsingle, hdecode, htarget⟩
  · intro h
    refine checkStandardHeaders_parts.mpr ⟨fun name hp => ?_, ?_, ?_⟩
    · exact ⟨h.single name (.inr (.inr hp)), h.readable name (.inr (.inr hp))⟩
    · obtain ⟨text, hcarries, hmatch⟩ := h.method
      refine checkMethodMirror_eq_ok.mpr ⟨some text, singleHeader_eq_some.mpr hcarries, ?_, ?_⟩
      · intro read hread
        rw [← Option.some.inj hread]
        exact hmatch
      · exact fun hnone => absurd hnone (Option.some_ne_none text)
    · have hname : IsMirror MCP_NAME_HEADER := .inr (.inl rfl)
      rcases carries_or_absent (h.single _ hname) (h.readable _ hname) with habsent | hcarried
      · refine checkNameMirror_eq_ok.mpr
          ⟨none, singleHeader_eq_ok.mpr (.inl ⟨habsent, rfl⟩), fun field hfield => ?_⟩
        obtain ⟨text, _, ⟨value, hone, _⟩, _⟩ := h.name field hfield
        rw [habsent] at hone
        cases hone
      · obtain ⟨text, hcarries⟩ := hcarried
        refine checkNameMirror_eq_ok.mpr
          ⟨some text, singleHeader_eq_some.mpr hcarries, fun field hfield => ⟨?_, ?_⟩⟩
        · intro raw hraw
          obtain ⟨text', target, hcarries', hdecode, htarget⟩ := h.name field hfield
          have hsame : text = text' := by
            have heq := (singleHeader_eq_some.mpr hcarries).symm.trans
              (singleHeader_eq_some.mpr hcarries')
            exact Option.some.inj (Except.ok.inj heq)
          rw [← Option.some.inj hraw, hsame]
          exact ⟨target, hdecode, htarget⟩
        · exact fun hnone => absurd hnone (Option.some_ne_none text)

end Standard

end Tronc.Mcp
