import Tronc.Library.Slices
import Tronc.Mcp.TraceContext
import Tronc.Server.Answers

namespace Tronc.Mcp

/-- A `traceparent` by its parts. -/
structure Traceparent where
  version : List UInt8
  traceId : List UInt8
  parentId : List UInt8
  flags : List UInt8
  /-- What a later version has after its flags. -/
  rest : List UInt8
  versionHex : version.length = 2 ∧ version.all isLowerHex = true ∧ version ≠ [102, 102]
  traceHex : traceId.length = 32 ∧ traceId.all isLowerHex = true ∧ traceId.any (· != 48) = true
  parentHex : parentId.length = 16 ∧ parentId.all isLowerHex = true ∧ parentId.any (· != 48) = true
  flagsHex : flags.length = 2 ∧ flags.all isLowerHex = true
  later : rest ≠ [] → version ≠ [48, 48] ∧ rest.head? = some 45

/-- The bytes of a `traceparent`, with dashes between the parts. -/
def Traceparent.bytes (t : Traceparent) : List UInt8 :=
  t.version ++ 45 :: t.traceId ++ 45 :: t.parentId ++ 45 :: t.flags ++ t.rest

namespace TraceContext

/-- The trace context of an HTTP request's headers. -/
def fromHeaders (headers : HeaderMap) : Option TraceContext := do
  let traceparent ← (← Server.getHeader headers TRACEPARENT).toStr
  parse traceparent ((Server.getHeader headers TRACESTATE).bind HeaderValue.toStr)

def traceId (context : TraceContext) : String :=
  ((Slices.slice 3 35 context.traceparent.toList).map .ofList).getD ""

end TraceContext

section Parts

variable {l front mid back : List UInt8} {d : UInt8} {n k : Nat}

theorem drop_cut (hd : l[k]? = some d) (hn : n ≤ k) :
    l.drop n = (l.take k).drop n ++ d :: l.drop (k + 1) := by
  obtain ⟨hk, rfl⟩ := List.getElem?_eq_some_iff.mp hd
  have hlength : n ≤ (l.take k).length := by
    rw [List.length_take]
    omega
  calc l.drop n = (l.take k ++ l.drop k).drop n := by rw [List.take_append_drop]
    _ = (l.take k).drop n ++ l.drop k := List.drop_append_of_le_length hlength
    _ = (l.take k).drop n ++ l[k] :: l.drop (k + 1) := by rw [List.drop_eq_getElem_cons hk]

theorem range_mid (h : l = front ++ (mid ++ back)) (hn : front.length = n)
    (hk : front.length + mid.length = k) : (l.take k).drop n = mid := by
  subst h hn hk
  rw [← List.append_assoc, List.take_left' List.length_append, List.drop_left]

theorem getElem?_mid (h : l = front ++ d :: back) (hk : front.length = k) : l[k]? = some d := by
  subst h hk
  simp

end Parts

section Grammar

variable {value : String}

theorem Traceparent.bytes_eq (t : Traceparent) : t.bytes = t.version ++ (45 :: (t.traceId ++
    (45 :: (t.parentId ++ (45 :: (t.flags ++ t.rest)))))) := by
  simp [Traceparent.bytes]

/-- Where the parts of a `traceparent` are. -/
structure Traceparent.Reads (t : Traceparent) : Prop where
  length : t.bytes.length = 55 + t.rest.length
  dashes : t.bytes[2]? = some 45 ∧ t.bytes[35]? = some 45 ∧ t.bytes[52]? = some 45
  version : (t.bytes.take 2).drop 0 = t.version
  traceId : (t.bytes.take 35).drop 3 = t.traceId
  parentId : (t.bytes.take 52).drop 36 = t.parentId
  flags : (t.bytes.take 55).drop 53 = t.flags
  rest : t.bytes.drop 55 = t.rest

theorem Traceparent.reads (t : Traceparent) : t.Reads := by
  have hversion : t.version.length = 2 := t.versionHex.1
  have htrace : t.traceId.length = 32 := t.traceHex.1
  have hparent : t.parentId.length = 16 := t.parentHex.1
  have hflags : t.flags.length = 2 := t.flagsHex.1
  -- each part stands after what is before it
  have hversionAt : (t.bytes.take 2).drop 0 = t.version :=
    range_mid t.bytes_eq (List.length_nil (α := UInt8)) (by simp [hversion])
  have hdash : t.bytes[2]? = some 45 := getElem?_mid t.bytes_eq hversion
  have hfirst : t.bytes = (t.version ++ [45]) ++ (t.traceId ++ 45 :: (t.parentId ++
      45 :: (t.flags ++ t.rest))) := by
    simp [t.bytes_eq]
  have hfront : (t.version ++ [45]).length = 3 := by simp [hversion]
  have htraceAt : (t.bytes.take 35).drop 3 = t.traceId :=
    range_mid hfirst hfront (by rw [hfront, htrace])
  have hsecond : t.bytes = ((t.version ++ [45]) ++ t.traceId) ++ 45 :: (t.parentId ++
      45 :: (t.flags ++ t.rest)) := by
    simp [t.bytes_eq]
  have hfront' : ((t.version ++ [45]) ++ t.traceId).length = 35 := by simp [hversion, htrace]
  have hdash' : t.bytes[35]? = some 45 := getElem?_mid hsecond hfront'
  have hthird : t.bytes = (((t.version ++ [45]) ++ t.traceId) ++ [45]) ++ (t.parentId ++
      45 :: (t.flags ++ t.rest)) := by
    simp [t.bytes_eq]
  have hback : (((t.version ++ [45]) ++ t.traceId) ++ [45]).length = 36 := by
    rw [List.length_append, hfront']
    rfl
  have hparentAt : (t.bytes.take 52).drop 36 = t.parentId :=
    range_mid hthird hback (by rw [hback, hparent])
  have hfourth : t.bytes = ((((t.version ++ [45]) ++ t.traceId) ++ [45]) ++ t.parentId) ++
      45 :: (t.flags ++ t.rest) := by
    simp [t.bytes_eq]
  have hback' : ((((t.version ++ [45]) ++ t.traceId) ++ [45]) ++ t.parentId).length = 52 := by
    rw [List.length_append, hback, hparent]
  have hdash'' : t.bytes[52]? = some 45 := getElem?_mid hfourth hback'
  have hfifth : t.bytes = (((((t.version ++ [45]) ++ t.traceId) ++ [45]) ++ t.parentId) ++ [45]) ++
      (t.flags ++ t.rest) := by
    simp [t.bytes_eq]
  have hend : (((((t.version ++ [45]) ++ t.traceId) ++ [45]) ++ t.parentId) ++ [45]).length = 53 := by
    rw [List.length_append, hback']
    rfl
  have hflagsAt : (t.bytes.take 55).drop 53 = t.flags :=
    range_mid hfifth hend (by rw [hend, hflags])
  have hlength : t.bytes.length = 55 + t.rest.length := by
    rw [hfifth, List.length_append, hend, List.length_append, hflags]
    omega
  have hrestAt : t.bytes.drop 55 = t.rest := by
    rw [hfifth, ← List.append_assoc]
    exact List.drop_left' (by rw [List.length_append, hend, hflags])
  exact ⟨hlength, ⟨hdash, hdash', hdash''⟩, hversionAt, htraceAt, hparentAt, hflagsAt, hrestAt⟩

/-- A `traceparent` is valid exactly if it has the parts, with dashes between. -/
theorem isValidTraceparent_iff :
    isValidTraceparent value = true ↔ ∃ t : Traceparent, Text.utf8 value = t.bytes := by
  unfold isValidTraceparent
  generalize Text.utf8 value = bytes
  simp only [Bool.and_eq_true, Bool.or_eq_true, decide_eq_true_eq, beq_iff_eq, bne_iff_ne]
  constructor
  · intro h
    obtain ⟨⟨⟨⟨⟨⟨⟨⟨⟨hlength, ⟨hdash, hdash'⟩, hdash''⟩, htail⟩, hversion⟩, hff⟩, htrace⟩, htrace'⟩, hparent⟩,
      hparent'⟩, hflags⟩ := h
    have hlong : 55 ≤ bytes.length := hlength
    have hspan (a b : Nat) (hb : b ≤ 55) : ((bytes.take b).drop a).length = b - a := by
      rw [List.length_drop, List.length_take]
      omega
    refine ⟨⟨(bytes.take 2).drop 0, (bytes.take 35).drop 3, (bytes.take 52).drop 36,
      (bytes.take 55).drop 53, bytes.drop 55, ⟨hspan 0 2 (by omega), hversion, hff⟩,
      ⟨hspan 3 35 (by omega), htrace, htrace'⟩, ⟨hspan 36 52 (by omega), hparent, hparent'⟩,
      ⟨hspan 53 55 (by omega), hflags⟩, ?_⟩, ?_⟩
    · intro hrest
      rcases htail with hexact | hlater
      · exact absurd (List.drop_eq_nil_of_le (Nat.le_of_eq hexact)) hrest
      · rw [List.head?_drop]
        exact hlater
    · rw [Traceparent.bytes_eq]
      have hfirst := drop_cut hdash (Nat.zero_le 2)
      have hsecond := drop_cut hdash' (by omega : 3 ≤ 35)
      have hthird := drop_cut hdash'' (by omega : 36 ≤ 52)
      have hlast : bytes.drop 53 = (bytes.take 55).drop 53 ++ bytes.drop 55 := by
        rw [← List.drop_append_of_le_length (by rw [List.length_take]; omega),
          List.take_append_drop]
      rw [List.drop_zero] at hfirst
      rw [← hlast, ← hthird, ← hsecond]
      exact hfirst
  · intro h
    obtain ⟨t, rfl⟩ := h
    obtain ⟨hversion, hff⟩ := t.versionHex.2
    obtain ⟨htrace, htrace'⟩ := t.traceHex.2
    obtain ⟨hparent, hparent'⟩ := t.parentHex.2
    obtain ⟨hlength, ⟨hdash, hdash', hdash''⟩, hversionAt, htraceAt, hparentAt, hflagsAt, hrestAt⟩ :=
      t.reads
    have htail : t.bytes.length = 55 ∨ t.version ≠ [48, 48] ∧ t.bytes[55]? = some 45 := by
      by_cases hrest : t.rest = []
      · rw [hrest] at hlength
        exact .inl hlength
      · obtain ⟨hlater, hdash⟩ := t.later hrest
        refine .inr ⟨hlater, ?_⟩
        rw [← hdash, ← hrestAt, List.head?_drop]
    have hlong : TRACEPARENT_LEN ≤ t.bytes.length := by
      rw [hlength]
      exact Nat.le_add_right 55 _
    rw [hversionAt, htraceAt, hparentAt, hflagsAt]
    exact ⟨⟨⟨⟨⟨⟨⟨⟨⟨hlong, ⟨hdash, hdash'⟩, hdash''⟩, htail⟩, hversion⟩, hff⟩, htrace⟩, htrace'⟩, hparent⟩,
      hparent'⟩, t.flagsHex.2⟩

end Grammar

section Joined

/-- A text whose bytes begin with ASCII ones begins with their characters. -/
theorem encode_ascii_front {front back : List UInt8} {text : List Char}
    (hascii : ∀ b ∈ front, b.toNat < 128) (h : Slices.encode text = front ++ back) :
    ∃ done rest, text = done ++ rest ∧ Slices.encode done = front ∧ Slices.encode rest = back := by
  induction front generalizing text with
  | nil => exact ⟨[], text, rfl, rfl, h⟩
  | cons b front ih =>
    cases text with
    | nil => cases h
    | cons c text =>
      rw [Slices.encode_cons] at h
      have hb : b.toNat < 128 := hascii b List.mem_cons_self
      have hmem : b ∈ String.utf8EncodeChar c := by
        cases hc : String.utf8EncodeChar c with
        | nil => exact absurd hc String.utf8EncodeChar_ne_nil
        | cons first others =>
          rw [hc] at h
          rw [(List.cons.inj h).1]
          exact List.mem_cons_self
      have hvalue : c.toNat = b.toNat := Text.mem_utf8EncodeChar hb hmem
      have hone : String.utf8EncodeChar c = [b] := by
        rw [Text.utf8EncodeChar_ascii (by omega), hvalue, UInt8.ofNat_toNat]
      rw [hone] at h
      obtain ⟨done, rest, htext, hdone, hrest⟩ :=
        ih (fun d hd => hascii d (List.mem_cons_of_mem b hd)) (List.cons.inj h).2
      refine ⟨c :: done, rest, by rw [htext, List.cons_append], ?_, hrest⟩
      rw [Slices.encode_cons, hone, hdone]
      rfl

theorem ascii_of_lowerHex {b : UInt8} (h : isLowerHex b = true) : b.toNat < 128 := by
  unfold isLowerHex at h
  simp only [Bool.or_eq_true, Bool.and_eq_true, decide_eq_true_eq, UInt8.le_iff_toNat_le] at h
  have hdigit : (57 : UInt8).toNat = 57 := rfl
  have hletter : (102 : UInt8).toNat = 102 := rfl
  omega

namespace TraceContext

/-- The trace that a context names is the 32 digits of its `traceparent`. -/
theorem traceId_eq (context : TraceContext) : ∃ t : Traceparent,
    Text.utf8 context.traceparent = t.bytes ∧ Text.utf8 context.traceId = t.traceId := by
  obtain ⟨t, ht⟩ := isValidTraceparent_iff.mp context.valid
  have hbytes : Slices.encode context.traceparent.toList = (t.version ++ [45]) ++ (t.traceId ++
      (45 :: (t.parentId ++ (45 :: (t.flags ++ t.rest))))) := by
    show Text.utf8 context.traceparent = _
    rw [ht, t.bytes_eq]
    simp
  have hversion : ∀ b ∈ t.version ++ [45], b.toNat < 128 := by
    intro b hb
    rcases List.mem_append.mp hb with hb | hb
    · exact ascii_of_lowerHex (List.all_eq_true.mp t.versionHex.2.1 b hb)
    · rw [List.mem_singleton.mp hb]
      decide
  have htrace : ∀ b ∈ t.traceId, b.toNat < 128 := fun b hb =>
    ascii_of_lowerHex (List.all_eq_true.mp t.traceHex.2.1 b hb)
  obtain ⟨done, rest, htext, hdone, hrest⟩ := encode_ascii_front hversion hbytes
  obtain ⟨digits, back, hdigits, hencode, -⟩ := encode_ascii_front htrace hrest
  have hstart : (Slices.encode done).length = 3 := by
    rw [hdone, List.length_append, t.versionHex.1]
    rfl
  have hstop : (Slices.encode (done ++ digits)).length = 35 := by
    rw [Slices.encode_append, List.length_append, hstart, hencode, t.traceHex.1]
  have hslice : Slices.slice 3 35 context.traceparent.toList = some digits := by
    rw [← hstart, ← hstop, htext, hdigits, ← List.append_assoc]
    exact Slices.slice_encode done digits back
  refine ⟨t, ht, ?_⟩
  unfold traceId
  rw [hslice]
  show Slices.encode (String.ofList digits).toList = t.traceId
  rw [String.toList_ofList, hencode]

theorem eq_of_parts {first second : TraceContext} (hparent : first.traceparent = second.traceparent)
    (hstate : first.tracestate = second.tracestate) : first = second := by
  cases first
  cases second
  dsimp only at hparent hstate
  subst hparent hstate
  rfl

theorem parse_parts {traceparent : String} {tracestate : Option String} {context : TraceContext}
    (h : parse traceparent tracestate = some context) :
    context.traceparent = Text.trim traceparent ∧
      context.tracestate = (tracestate.map Text.trim).filter isUsableTracestate := by
  unfold parse at h
  by_cases hvalid : isValidTraceparent (Text.trim traceparent) = true
  · rw [dif_pos hvalid] at h
    rw [← Option.some.inj h]
    exact ⟨rfl, rfl⟩
  · rw [dif_neg hvalid] at h
    cases h

theorem parse_isSome {traceparent : String} {tracestate : Option String} :
    (parse traceparent tracestate).isSome = isValidTraceparent (Text.trim traceparent) := by
  unfold parse
  by_cases hvalid : isValidTraceparent (Text.trim traceparent) = true
  · rw [dif_pos hvalid, hvalid]
    rfl
  · rw [dif_neg hvalid, Bool.eq_false_iff.mpr hvalid]
    rfl

/-- What is trimmed and usable already is kept. -/
theorem filter_trimmed (state : Option String) :
    (((state.map Text.trim).filter isUsableTracestate).map Text.trim).filter isUsableTracestate =
      (state.map Text.trim).filter isUsableTracestate := by
  cases state with
  | none => rfl
  | some state =>
    simp only [Option.map_some, Option.filter_some]
    by_cases husable : isUsableTracestate (Text.trim state) = true
    · simp [husable, Text.trim_trim, Option.filter_some]
    · simp [husable]

/-- A hop reads again what the hop before it kept. -/
theorem parse_kept {traceparent : String} {tracestate : Option String} {context : TraceContext}
    (h : parse traceparent tracestate = some context) :
    parse context.traceparent context.tracestate = some context := by
  obtain ⟨hparent, hstate⟩ := parse_parts h
  have hvalid : isValidTraceparent (Text.trim context.traceparent) = true := by
    rw [hparent, Text.trim_trim, ← hparent]
    exact context.valid
  have hsome : (parse context.traceparent context.tracestate).isSome = true :=
    parse_isSome.trans hvalid
  obtain ⟨again, hagain⟩ := Option.isSome_iff_exists.mp hsome
  obtain ⟨hparent', hstate'⟩ := parse_parts hagain
  have hparents : again.traceparent = context.traceparent := by
    rw [hparent', hparent, Text.trim_trim]
  have hstates : again.tracestate = context.tracestate := by
    rw [hstate', hstate, filter_trimmed]
  exact hagain.trans (congrArg some (eq_of_parts hparents hstates))

/-- A request names a trace if and only if its `traceparent` has the parts of one, between whatever
white space; what is kept of it is read again unchanged by the next hop, from a header or from a
`_meta` that holds it; and the trace that it names is the 32 digits in it. -/
theorem trace_kept (traceparent : String) (tracestate : Option String) :
    ((parse traceparent tracestate).isSome = true ↔
      ∃ t : Traceparent, Text.utf8 (Text.trim traceparent) = t.bytes) ∧
    ∀ context, parse traceparent tracestate = some context →
      parse context.traceparent context.tracestate = some context ∧
      (∃ t : Traceparent, Text.utf8 context.traceparent = t.bytes ∧
        Text.utf8 context.traceId = t.traceId) ∧
      (∀ headers value, Server.getHeader headers TRACEPARENT = some value →
        value.toStr = some context.traceparent →
        (Server.getHeader headers TRACESTATE).bind HeaderValue.toStr = context.tracestate →
        fromHeaders headers = some context) ∧
      ∀ params requestMeta : Json, params.get "_meta" = some requestMeta →
        requestMeta.get TRACEPARENT = some (.string context.traceparent) →
        requestMeta.get TRACESTATE = context.tracestate.map .string →
        fromMeta (some params) = some context := by
  refine ⟨?_, ?_⟩
  · rw [parse_isSome]
    exact isValidTraceparent_iff
  · intro context h
    refine ⟨parse_kept h, context.traceId_eq, ?_, ?_⟩
    · intro headers value hvalue hparent hstate
      have hread : fromHeaders headers = parse context.traceparent context.tracestate := by
        simp [fromHeaders, hvalue, hparent, hstate]
      rw [hread]
      exact parse_kept h
    intro params requestMeta hmeta hparent hstate
    have hstates : (requestMeta.get TRACESTATE).bind Json.asStr = context.tracestate := by
      rw [hstate]
      cases context.tracestate <;> rfl
    have hread : fromMeta (some params) = parse context.traceparent context.tracestate := by
      simp [fromMeta, hmeta, hparent, hstates, Json.asStr]
    rw [hread]
    exact parse_kept h

def hop : String := "00-4bf92f3577b34da6a3ce929d0e0e4736-00f067aa0ba902b7-01"

theorem trace_kept_hop : ∃ context, parse hop none = some context ∧
    parse context.traceparent context.tracestate = some context := by
  have hvalid : isValidTraceparent (Text.trim hop) = true := by decide +kernel
  have hsome : (parse hop none).isSome = true := parse_isSome.trans hvalid
  obtain ⟨context, h⟩ := Option.isSome_iff_exists.mp hsome
  exact ⟨context, h, ((trace_kept hop none).2 context h).1⟩

end TraceContext

end Joined

end Tronc.Mcp
