import Tronc.Mcp.Mirror

namespace Tronc.Mcp

/-- A character that may stand in a field value: a tab, a space or a visible ASCII character. -/
def isPermittedChar (c : Char) : Bool := c.toNat == 9 || (32 ≤ c.toNat && c.toNat ≤ 126)

theorem isPermittedChar_ascii {c : Char} (h : isPermittedChar c = true) : c.toNat ≤ 127 := by
  simp only [isPermittedChar, Bool.or_eq_true, beq_iff_eq, Bool.and_eq_true, decide_eq_true_eq] at h
  omega

private theorem permittedByte_ofNat {n : Nat} (h : n ≤ 127) :
    (UInt8.ofNat n == 9 || (0x20 ≤ UInt8.ofNat n && UInt8.ofNat n ≤ 0x7E)) =
      (n == 9 || (32 ≤ n && n ≤ 126)) := by
  have hn : (UInt8.ofNat n).toNat = n := by
    rw [UInt8.toNat_ofNat']
    omega
  have heq : (UInt8.ofNat n == 9) = (n == 9) := by
    rw [Bool.eq_iff_iff, beq_iff_eq, beq_iff_eq, ← UInt8.toNat_inj, hn]
    rfl
  simp only [heq, UInt8.le_iff_toNat_le, hn]
  rfl

theorem isPermittedFieldValue_utf8 (s : String) :
    isPermittedFieldValue (Text.utf8 s) = s.toList.all isPermittedChar := by
  unfold isPermittedFieldValue Text.utf8
  induction s.toList with
  | nil => rfl
  | cons c l ih =>
    rw [List.flatMap_cons, List.all_append, ih, List.all_cons]
    congr 1
    by_cases hc : c.toNat ≤ 127
    · rw [Text.utf8EncodeChar_ascii hc, List.all_cons, List.all_nil, Bool.and_true,
        permittedByte_ofNat hc]
      rfl
    · obtain ⟨b, hb, hlarge⟩ := Text.utf8EncodeChar_first (Nat.lt_of_not_le hc)
      have hright : isPermittedChar c = false := by
        cases h : isPermittedChar c with
        | false => rfl
        | true => exact absurd (isPermittedChar_ascii h) hc
      rw [hright, List.all_eq_false]
      refine ⟨b, hb, ?_⟩
      simp only [Bool.or_eq_true, beq_iff_eq, Bool.and_eq_true, decide_eq_true_eq,
        UInt8.le_iff_toNat_le]
      rintro (rfl | ⟨_, hle⟩)
      · exact absurd hlarge (by decide)
      · have hle : b.toNat ≤ 126 := hle
        omega

/-- A text of permitted characters is read back from its header. -/
theorem toStr_ofString {s : String} (h : s.toList.all isPermittedChar = true) :
    (HeaderValue.ofString s).toStr = some s := by
  have hascii : ∀ c ∈ s.toList, c.toNat ≤ 127 := fun c hc =>
    isPermittedChar_ascii (List.all_eq_true.mp h c hc)
  have hvisible : (Text.utf8 s).all isVisibleAscii = true := by
    have hall := (isPermittedFieldValue_utf8 s).trans h
    unfold isPermittedFieldValue at hall
    rw [List.all_eq_true] at hall ⊢
    intro b hb
    have hb := hall b hb
    simp only [Bool.or_eq_true, beq_iff_eq, Bool.and_eq_true, decide_eq_true_eq] at hb
    simp only [isVisibleAscii, Bool.or_eq_true, beq_iff_eq, Bool.and_eq_true, decide_eq_true_eq]
    rcases hb with hb | ⟨hlow, hhigh⟩
    · exact .inr hb
    · rw [UInt8.le_iff_toNat_le] at hhigh
      rw [UInt8.lt_iff_toNat_lt]
      exact .inl ⟨hlow, Nat.lt_succ_of_le hhigh⟩
  have hback : ∀ c ∈ s.toList, Char.ofNat (UInt8.ofNat c.toNat).toNat = c := by
    intro c hc
    have hle := hascii c hc
    rw [UInt8.toNat_ofNat', Nat.mod_eq_of_lt (by omega), Char.ofNat_toNat]
  unfold HeaderValue.toStr HeaderValue.ofString
  rw [if_pos hvisible, Text.utf8_ascii hascii, List.map_map]
  have hsame : s.toList.map ((fun b : UInt8 => Char.ofNat b.toNat) ∘ fun c => UInt8.ofNat c.toNat) =
      s.toList := (List.map_congr_left hback).trans (List.map_id' _)
  rw [hsame, String.ofList_toList]

/-- The text between the markers of the wrapped form, if it has both. -/
def wrapped (text : String) : Option String :=
  (Text.stripPrefix text BASE64_PREFIX).bind (Text.stripSuffix · BASE64_SUFFIX)

theorem wrapped_eq_some {text payload : String} : wrapped text = some payload ↔
    text.toList = BASE64_PREFIX.toList ++ payload.toList ++ BASE64_SUFFIX.toList := by
  unfold wrapped
  rw [Option.bind_eq_some_iff]
  constructor
  · rintro ⟨rest, hp, hs⟩
    rw [Text.stripPrefix_eq_some.mp hp, Text.stripSuffix_eq_some.mp hs, List.append_assoc]
  · intro h
    refine ⟨payload ++ BASE64_SUFFIX, Text.stripPrefix_eq_some.mpr ?_,
      Text.stripSuffix_eq_some.mpr ?_⟩
    · rw [h, String.toList_append, List.append_assoc]
    · rw [String.toList_append]

/-- Whether the value travels as it is. -/
def isPlain (value : String) : Bool :=
  isPermittedFieldValue (Text.utf8 value) && Text.trim value == value

section Codec

variable (crates : Crates) (value : String)

theorem encodeHeaderValue_plain (h : isPlain value = true) :
    encodeHeaderValue crates value = value := by
  unfold encodeHeaderValue
  unfold isPlain at h
  rw [if_pos h]

theorem encodeHeaderValue_wrapped (h : isPlain value = false) : encodeHeaderValue crates value =
    BASE64_PREFIX ++ crates.base64.encode (Text.utf8 value) ++ BASE64_SUFFIX := by
  unfold encodeHeaderValue
  unfold isPlain at h
  rw [h, if_neg (by decide)]

theorem decodeHeaderValue_plain (ht : Text.trim value = value) (hw : wrapped value = none) :
    decodeHeaderValue crates value = .ok value := by
  unfold decodeHeaderValue
  unfold wrapped at hw
  simp only [ht, hw]

theorem decodeHeaderValue_wrapped {payload text : String} (ht : Text.trim value = value)
    (hw : wrapped value = some payload) : decodeHeaderValue crates value = .ok text ↔
      (crates.base64.decode payload).bind Text.fromUtf8 = some text := by
  unfold decodeHeaderValue
  unfold wrapped at hw
  simp only [ht, hw]
  cases hd : crates.base64.decode payload with
  | none => simp
  | some bytes =>
    cases hu : Text.fromUtf8 bytes with
    | none => simp [hu]
    | some s => simp [hu]

private theorem alphabet_permitted {c : Char} (h : Base64.isAlphabet c = true) :
    isPermittedChar c = true := by
  have hchar (d : Char) (hd : c = d) (hp : isPermittedChar d = true) : isPermittedChar c = true :=
    hd ▸ hp
  simp only [Base64.isAlphabet, Bool.or_eq_true, beq_iff_eq] at h
  rcases h with ((h | h) | h) | h
  · unfold Char.isAlphanum Char.isAlpha Char.isUpper Char.isLower Char.isDigit at h
    simp only [Bool.or_eq_true, Bool.and_eq_true, decide_eq_true_eq, ge_iff_le,
      UInt32.le_iff_toNat_le] at h
    simp only [isPermittedChar, Bool.or_eq_true, beq_iff_eq, Bool.and_eq_true, decide_eq_true_eq]
    have hv : c.toNat = c.val.toNat := rfl
    rcases h with (⟨hl, hh⟩ | ⟨hl, hh⟩) | ⟨hl, hh⟩
    all_goals
      refine .inr ⟨?_, ?_⟩
    · exact Nat.le_trans (by decide) hl
    · exact Nat.le_trans hh (by decide)
    · exact Nat.le_trans (by decide) hl
    · exact Nat.le_trans hh (by decide)
    · exact Nat.le_trans (by decide) hl
    · exact Nat.le_trans hh (by decide)
  · exact hchar _ h (by decide)
  · exact hchar _ h (by decide)
  · exact hchar _ h (by decide)

/-- Whatever the value, what travels is permitted in a field value. -/
theorem encodeHeaderValue_permitted :
    (encodeHeaderValue crates value).toList.all isPermittedChar = true := by
  cases hplain : isPlain value with
  | true =>
    rw [encodeHeaderValue_plain crates value hplain, ← isPermittedFieldValue_utf8]
    unfold isPlain at hplain
    rw [Bool.and_eq_true] at hplain
    exact hplain.1
  | false =>
    rw [encodeHeaderValue_wrapped crates value hplain, String.toList_append, String.toList_append,
      List.all_append, List.all_append, Bool.and_eq_true, Bool.and_eq_true]
    refine ⟨⟨by decide, ?_⟩, by decide⟩
    rw [List.all_eq_true]
    exact fun c hc => alphabet_permitted (crates.base64.encode_alphabet _ c hc)

/-- The wrapped form starts and ends with a marker, so nothing trims it. -/
theorem trim_wrapped {text payload : String} (h : wrapped text = some payload) :
    Text.trim text = text := by
  have hl := wrapped_eq_some.mp h
  apply Text.trim_eq_self
  · intro c hc
    rw [hl, List.append_assoc, List.head?_append] at hc
    obtain rfl : c = '=' := (Option.some.inj hc).symm
    decide
  · intro c hc
    rw [hl, List.getLast?_append] at hc
    obtain rfl : c = '=' := (Option.some.inj hc).symm
    decide

theorem trim_encodeHeaderValue :
    Text.trim (encodeHeaderValue crates value) = encodeHeaderValue crates value := by
  cases hplain : isPlain value with
  | true =>
    rw [encodeHeaderValue_plain crates value hplain]
    unfold isPlain at hplain
    rw [Bool.and_eq_true, beq_iff_eq] at hplain
    exact hplain.2
  | false =>
    rw [encodeHeaderValue_wrapped crates value hplain]
    apply @trim_wrapped _ (crates.base64.encode (Text.utf8 value))
    rw [wrapped_eq_some, String.toList_append, String.toList_append]

/-- What travels decodes to the value, unless the value travels as it is and looks wrapped. -/
theorem decode_encode_iff : decodeHeaderValue crates (encodeHeaderValue crates value) = .ok value ↔
    ¬ (isPlain value = true ∧ (wrapped value).isSome = true) := by
  cases hplain : isPlain value with
  | true =>
    have ht : Text.trim value = value := by
      unfold isPlain at hplain
      rw [Bool.and_eq_true, beq_iff_eq] at hplain
      exact hplain.2
    rw [encodeHeaderValue_plain crates value hplain]
    cases hw : wrapped value with
    | none =>
      rw [decodeHeaderValue_plain crates value ht hw]
      simp
    | some payload =>
      rw [decodeHeaderValue_wrapped crates value ht hw]
      refine iff_of_false ?_ (by simp)
      intro h
      obtain ⟨bytes, hd, hu⟩ := Option.bind_eq_some_iff.mp h
      -- the decoded text is shorter than what it would have to be
      have hbytes := crates.base64.decode_length payload bytes hd
      have htext := Text.fromUtf8_length hu
      have hlength := congrArg List.length (wrapped_eq_some.mp hw)
      rw [List.length_append, List.length_append] at hlength
      have hinit : BASE64_PREFIX.toList.length = 9 := by decide
      omega
  | false =>
    have hw : wrapped (encodeHeaderValue crates value) =
        some (crates.base64.encode (Text.utf8 value)) := by
      rw [encodeHeaderValue_wrapped crates value hplain, wrapped_eq_some, String.toList_append,
        String.toList_append]
    rw [decodeHeaderValue_wrapped crates _ (trim_encodeHeaderValue crates value) hw,
      crates.base64.decode_encode]
    refine iff_of_true ?_ (by simp)
    exact Text.fromUtf8_utf8 value

end Codec

/-- Both mirrors of a value, as `encode_header_value` writes them, are taken: as the name of a
call's target and as one of its arguments. -/
structure Mirrored (crates : Crates) (value : String) : Prop where
  named : ∀ (headers : HeaderMap) (request : JsonRpcRequest) (field : String) (required : Bool),
    mirroredNameField request.method = some field →
    (request.params.bind fun p => p.get field) = some (.string value) →
    headers.getAll MCP_NAME_HEADER = [.ofString (encodeHeaderValue crates value)] →
    checkNameMirror crates headers request required = .ok ()
  passed : ∀ (arguments : Option Json) (headers : AList fun _ : String => Json) (modern : Bool)
    (argument : MirroredArgument),
    (arguments.bind fun arguments => arguments.valueAt argument.path) = some (.string value) →
    headers.lookup argument.header = some (.string (encodeHeaderValue crates value)) →
    checkArgument crates arguments headers modern argument = .ok ()

/-- The value's encoding is a field value HTTP carries unchanged, decodes to the value, and passes
the mirror check. -/
structure Travels (crates : Crates) (value : String) : Prop where
  permitted : (encodeHeaderValue crates value).toList.all isPermittedChar = true
  trimmed : Text.trim (encodeHeaderValue crates value) = encodeHeaderValue crates value
  decoded : decodeHeaderValue crates (encodeHeaderValue crates value) = .ok value
  mirrored : Mirrored crates value

private theorem mirrored_of_decoded {crates : Crates} {value : String}
    (h : decodeHeaderValue crates (encodeHeaderValue crates value) = .ok value) :
    Mirrored crates value where
  named headers request field required hfield hbody hheader := by
    have hread := toStr_ofString (encodeHeaderValue_permitted crates value)
    refine checkNameMirror_eq_ok.mpr ⟨some (encodeHeaderValue crates value),
      singleHeader_eq_ok.mpr (.inr ⟨_, _, hheader, hread, rfl⟩), ?_⟩
    intro target htarget
    obtain rfl : field = target := Option.some.inj (hfield.symm.trans htarget)
    refine ⟨fun raw hraw => ?_, fun hnone => absurd hnone (Option.some_ne_none _)⟩
    obtain rfl := Option.some.inj hraw
    exact ⟨value, h, hbody⟩
  passed arguments headers modern argument hbody hheader := by
    unfold checkArgument
    simp only [hbody, hheader, Option.bind_some, Json.asStr, mirrorable, Json.asF64, h, mirrors,
      beq_self_eq_true, if_true]
    rfl

/-- A value's encoding is undone by decoding, and its mirrors pass, exactly when the value does not
both travel as it is and look wrapped. -/
theorem header_value_travels (crates : Crates) (value : String) : Travels crates value ↔
    ¬ (isPermittedFieldValue (Text.utf8 value) = true ∧ Text.trim value = value ∧
      ∃ payload : String,
        value.toList = BASE64_PREFIX.toList ++ payload.toList ++ BASE64_SUFFIX.toList) := by
  have hlooks : (isPlain value = true ∧ (wrapped value).isSome = true) ↔
      (isPermittedFieldValue (Text.utf8 value) = true ∧ Text.trim value = value ∧
        ∃ payload : String,
          value.toList = BASE64_PREFIX.toList ++ payload.toList ++ BASE64_SUFFIX.toList) := by
    unfold isPlain
    rw [Bool.and_eq_true, beq_iff_eq, and_assoc, Option.isSome_iff_exists]
    simp only [wrapped_eq_some]
  rw [← hlooks, ← decode_encode_iff crates value]
  constructor
  · exact fun h => h.decoded
  · intro h
    exact ⟨encodeHeaderValue_permitted crates value, trim_encodeHeaderValue crates value, h,
      mirrored_of_decoded h⟩

/-- A name that looks wrapped travels as it is, and arrives as another. -/
theorem header_value_travels_wrapped :
    ¬ Travels ⟨Base64.standard, fun _ => ""⟩ "=?base64?SGk=?=" ∧
    decodeHeaderValue ⟨Base64.standard, fun _ => ""⟩
      (encodeHeaderValue ⟨Base64.standard, fun _ => ""⟩ "=?base64?SGk=?=") = .ok "Hi" := by
  have harrives : decodeHeaderValue ⟨Base64.standard, fun _ => ""⟩
      (encodeHeaderValue ⟨Base64.standard, fun _ => ""⟩ "=?base64?SGk=?=") = .ok "Hi" := by
    decide +kernel
  refine ⟨fun h => ?_, harrives⟩
  have hsame := h.decoded
  rw [harrives] at hsame
  exact absurd (Except.ok.inj hsame) (by decide)

end Tronc.Mcp
