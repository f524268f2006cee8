import Tronc.HttpClient.Permits
import Tronc.Library.Percent

namespace Tronc.HttpClient

/-- A segment that no prefix may have. -/
def isInvalidSegment (segment : String) : Bool :=
  segment == "" || segment == "." || segment == ".." ||
    segment.toList.any fun c => (c == '%' || c == '\\' || c == '?' || c == '#') || isControl c ||
      Text.isWhitespace c

/-- The prefix that an entry's text after its host spells, if it spells one. -/
def PathPrefix.parse (text : String) : Except Unit (Option PathPrefix) :=
  if text = "" then .ok none
  else
    let (text, directory) := match Text.stripSuffix text "/" with
      | none => (text, false)
      | some rest => (rest, true)
    let segments := split '/' text
    if segments.any isInvalidSegment then .error () else .ok (some ⟨segments, directory⟩)

/-- What is relied on of `percent_decode_str` and `decode_utf8`. -/
def Decodes (crates : UrlCrates) : Prop :=
  ∀ text, crates.decode text = Text.fromUtf8 (Percent.decode (Text.utf8 text))

/-- Either slash. -/
def isSlash (b : UInt8) : Bool := b == 0x2F || b == 0x5C

/-- The dot segments resolved. -/
def resolveDots (parts : List (List UInt8)) : List (List UInt8) :=
  parts.foldl (fun seen part => if part = [0x2E] then seen
    else if part = [0x2E, 0x2E] then seen.dropLast else seen ++ [part]) []

/-- The segments that a server may take a path to have, after its first slash. -/
def seenSegments (path : List UInt8) : List (List UInt8) :=
  resolveDots ((path.splitOnP isSlash).drop 1)

/-- An empty segment at the end is none. -/
def unslashed (segments : List (List UInt8)) : List (List UInt8) :=
  if segments.getLast? = some [] then segments.dropLast else segments

/-- However often it is decoded, the path goes on where the prefix ends, and past it when that is a
directory. -/
def PathPrefix.Confines (pre : PathPrefix) (path : String) : Prop :=
  ∃ segments, (∀ n, seenSegments (Percent.decode^[n + 1] (Text.utf8 path)) = segments) ∧
    pre.segments.map Text.utf8 <+: unslashed segments ∧
    (pre.directory = true → pre.segments.length < (unslashed segments).length)

/-- A segment of ordinary characters: no slash, backslash, percent sign or control character. -/
def IsOrdinary (segment : String) : Prop := segment ≠ "" ∧ isAmbiguous segment = false

/-- The characters of the escape of a byte. -/
def escape (b : UInt8) : List Char := (Percent.encode b).map fun b => .ofNat b.toNat

/-- A segment with some of its characters percent-encoded. -/
def encodeSegment (encoded : Char → Bool) (segment : String) : String :=
  .ofList (segment.toList.flatMap fun c =>
    if encoded c then (String.utf8EncodeChar c).flatMap escape else [c])

/-- The path of the segments. -/
def pathOf (segments : List String) : String := "/" ++ "/".intercalate segments

section Bytes

/-- The parts that a separator leaves do not have it. -/
theorem not_mem_splitOn {c : Char} {l part : List Char} (h : part ∈ l.splitOn c) : c ∉ part := by
  induction l generalizing part with
  | nil => simp_all
  | cons d l ih =>
    rw [List.splitOn_cons_eq_if_modifyHead] at h
    split at h
    · rcases List.mem_cons.mp h with rfl | h
      · exact List.not_mem_nil
      · exact ih h
    · rename_i hd
      obtain ⟨first, rest, hsplit⟩ := List.exists_cons_of_ne_nil (List.splitOn_ne_nil c l)
      rw [hsplit] at h ih
      rcases List.mem_cons.mp h with rfl | h
      · intro hmem
        rcases List.mem_cons.mp hmem with rfl | hmem
        · simp at hd
        · exact ih (.head _) hmem
      · exact ih (.tail _ h)

theorem flatMap_intercalate {f : Char → List UInt8} {c : Char} (parts : List (List Char)) :
    ([c].intercalate parts).flatMap f = (f c).intercalate (parts.map (List.flatMap f)) := by
  induction parts with
  | nil => rfl
  | cons part parts ih =>
    cases parts with
    | nil => simp
    | cons next parts =>
      rw [List.intercalate_cons_cons, List.flatMap_append, List.flatMap_append, ih]
      simp [List.intercalate_cons_cons]

/-- The bytes of a text between slashes. -/
theorem utf8_split (rest : String) :
    Text.utf8 rest = [0x2F].intercalate ((split '/' rest).map Text.utf8) := by
  have hparts : (split '/' rest).map Text.utf8 =
      (rest.toList.splitOn '/').map (List.flatMap String.utf8EncodeChar) := by
    unfold split Text.utf8
    rw [List.map_map]
    simp [Function.comp_def]
  have hslash : String.utf8EncodeChar '/' = [0x2F] := by decide
  rw [hparts, ← hslash, ← flatMap_intercalate, List.intercalate_splitOn]
  rfl

end Bytes

section Unambiguous

variable {text : String}

theorem isAmbiguous_eq_false : isAmbiguous text = false ↔ text ≠ "." ∧ text ≠ ".." ∧
    ∀ c ∈ text.toList, c ≠ '/' ∧ c ≠ '\\' ∧ c ≠ '%' ∧ isControl c = false := by
  unfold isAmbiguous
  simp only [Bool.or_eq_false_iff, beq_eq_false_iff_ne, List.any_eq_false, Bool.or_eq_true,
    beq_iff_eq, not_or, Bool.not_eq_true, and_assoc, ne_eq]

/-- A text that is not ambiguous has no byte that is decoded or split at. -/
theorem byte_of_unambiguous (h : isAmbiguous text = false) :
    ∀ b ∈ Text.utf8 text, b ≠ 0x25 ∧ isSlash b = false := by
  obtain ⟨-, -, hchars⟩ := isAmbiguous_eq_false.mp h
  have absent (b : UInt8) (hb : b.toNat < 128) (hbad : ¬ (Char.ofNat b.toNat ≠ '/' ∧
      Char.ofNat b.toNat ≠ '\\' ∧ Char.ofNat b.toNat ≠ '%')) : b ∉ Text.utf8 text := by
    intro hmem
    obtain ⟨c, hc, hval⟩ := Text.mem_utf8 hb hmem
    rw [← hval, Char.ofNat_toNat] at hbad
    obtain ⟨hslash, hback, hpercent, -⟩ := hchars c hc
    exact hbad ⟨hslash, hback, hpercent⟩
  have hpercent := absent 0x25 (by decide) (by decide)
  have hslash := absent 0x2F (by decide) (by decide)
  have hback := absent 0x5C (by decide) (by decide)
  intro b hb
  refine ⟨fun heq => hpercent (heq ▸ hb), ?_⟩
  unfold isSlash
  rw [Bool.or_eq_false_iff, beq_eq_false_iff_ne, beq_eq_false_iff_ne]
  exact ⟨fun heq => hslash (heq ▸ hb), fun heq => hback (heq ▸ hb)⟩

theorem dots_of_unambiguous (h : isAmbiguous text = false) :
    Text.utf8 text ≠ [0x2E] ∧ Text.utf8 text ≠ [0x2E, 0x2E] := by
  obtain ⟨hdot, hdots, -⟩ := isAmbiguous_eq_false.mp h
  have one : Text.utf8 "." = [0x2E] := by decide
  have two : Text.utf8 ".." = [0x2E, 0x2E] := by decide
  rw [← two, ← one]
  exact ⟨fun heq => hdot (Text.utf8_injective heq), fun heq => hdots (Text.utf8_injective heq)⟩

/-- There is nothing to resolve where no segment is a dot segment. -/
theorem resolveDots_eq_self {parts : List (List UInt8)}
    (h : ∀ part ∈ parts, part ≠ [0x2E] ∧ part ≠ [0x2E, 0x2E]) : resolveDots parts = parts := by
  have hfold (seen : List (List UInt8)) : parts.foldl (fun seen part => if part = [0x2E] then seen
      else if part = [0x2E, 0x2E] then seen.dropLast else seen ++ [part]) seen = seen ++ parts := by
    induction parts generalizing seen with
    | nil => rw [List.foldl_nil, List.append_nil]
    | cons part parts ih =>
      obtain ⟨hpart, hparts⟩ := List.forall_mem_cons.mp h
      rw [List.foldl_cons, if_neg hpart.1, if_neg hpart.2, ih hparts, List.append_assoc,
        List.singleton_append]
  exact hfold []

end Unambiguous

variable {crates : UrlCrates} {pre : PathPrefix} {path : String}

/-- What a path that is spelled unambiguously is decoded to. -/
theorem decode_path (hdecode : Decodes crates) {rest : String} {decoded : List String}
    (hpath : Text.stripPrefix path "/" = some rest)
    (hall : List.Forall₂ (fun segment text => crates.decode segment = some text ∧
      isAmbiguous text = false) (split '/' rest) decoded) :
    Percent.decode (Text.utf8 path) = 0x2F :: [0x2F].intercalate (decoded.map Text.utf8) := by
  have hbytes : Text.utf8 path = 0x2F :: Text.utf8 rest := by
    unfold Text.utf8
    rw [Text.stripPrefix_eq_some.mp hpath, List.flatMap_append]
    rfl
  have hsegments : ((split '/' rest).map Text.utf8).map Percent.decode =
      decoded.map Text.utf8 := by
    generalize split '/' rest = segments at hall
    induction hall with
    | nil => rfl
    | @cons segment text segments decoded hfirst _ ih =>
      have htext := hfirst.1
      rw [hdecode] at htext
      rw [List.map_cons, List.map_cons, List.map_cons, ih, Text.utf8_of_fromUtf8 htext]
  rw [hbytes, Percent.decode_cons (by decide), utf8_split,
    Percent.decode_intercalate (by decide) (by decide), hsegments]

/-- However often the path is decoded, its segments are those that were compared. -/
theorem seenSegments_of_spells (hdecode : Decodes crates) {names : List String}
    (h : Spells crates path names) : ∃ segments,
      (∀ n, seenSegments (Percent.decode^[n + 1] (Text.utf8 path)) = segments) ∧
        unslashed segments = names.map Text.utf8 := by
  obtain ⟨rest, decoded, hpath, hall, -, rfl⟩ := h
  have hbytes := decode_path hdecode hpath hall
  have hclear : ∀ text ∈ decoded, isAmbiguous text = false := by
    clear hpath hbytes
    generalize split '/' rest = parts at hall
    induction hall with
    | nil => exact fun _ h => absurd h List.not_mem_nil
    | cons hfirst _ ih => exact List.forall_mem_cons.mpr ⟨hfirst.2, ih⟩
  have hne : decoded.map Text.utf8 ≠ [] := by
    intro hnil
    have hlength := hall.length_eq
    rw [List.map_eq_nil_iff.mp hnil] at hlength
    exact List.splitOn_ne_nil '/' rest.toList
      (List.map_eq_nil_iff.mp (List.eq_nil_of_length_eq_zero hlength))
  have hpercent : 0x25 ∉ Percent.decode (Text.utf8 path) := by
    rw [hbytes]
    intro hmem
    rcases List.mem_cons.mp hmem with hmem | hmem
    · exact absurd hmem (by decide)
    · rcases Percent.mem_intercalate hmem with hmem | ⟨part, hpart, hmem⟩
      · exact absurd hmem (by decide)
      · obtain ⟨text, htext, rfl⟩ := List.mem_map.mp hpart
        exact (byte_of_unambiguous (hclear text htext) _ hmem).1 rfl
  refine ⟨decoded.map Text.utf8, fun n => ?_, ?_⟩
  · rw [Percent.decode_iterate hpercent, hbytes]
    unfold seenSegments
    have hparts : ∀ part ∈ decoded.map Text.utf8, ∀ b ∈ part, isSlash b = false := by
      intro part hpart b hb
      obtain ⟨text, htext, rfl⟩ := List.mem_map.mp hpart
      exact (byte_of_unambiguous (hclear text htext) b hb).2
    rw [List.splitOnP_cons_eq_if_modifyHead, if_pos (by decide),
      Percent.splitOnP_intercalate (by decide) hparts hne, List.drop_one, List.tail_cons]
    refine resolveDots_eq_self fun part hpart => ?_
    obtain ⟨text, htext, rfl⟩ := List.mem_map.mp hpart
    exact dots_of_unambiguous (hclear text htext)
  · have hlast : (decoded.map Text.utf8).getLast? = some [] ↔ decoded.getLast? = some "" := by
      rw [List.getLast?_map, Option.map_eq_some_iff]
      constructor
      · rintro ⟨text, htext, hempty⟩
        rw [htext, Text.utf8_injective (t := "") hempty]
      · exact fun h => ⟨"", h, rfl⟩
    unfold unslashed
    by_cases hempty : decoded.getLast? = some ""
    · rw [if_pos (hlast.mpr hempty), if_pos hempty, List.map_dropLast]
    · rw [if_neg (fun h => hempty (hlast.mp h)), if_neg hempty]

/-- A prefix is not escaped. -/
theorem confines_of_admits (hdecode : Decodes crates) (h : pre.admits crates path = true) :
    pre.Confines path := by
  obtain ⟨names, hspells, hinit, hdirectory⟩ := PathPrefix.admits_iff.mp h
  obtain ⟨segments, hseen, hnames⟩ := seenSegments_of_spells hdecode hspells
  refine ⟨segments, hseen, ?_, fun hdir => ?_⟩
  · rw [hnames]
    exact hinit.map _
  · rw [hnames, List.length_map]
    exact (prefix_ne_iff hinit).mp (hdirectory hdir)

/-- What is not refused in a prefix is ordinary. -/
theorem ordinary_of_valid {segment : String} (hslash : '/' ∉ segment.toList)
    (h : isInvalidSegment segment = false) : IsOrdinary segment := by
  unfold isInvalidSegment at h
  simp only [Bool.or_eq_false_iff, beq_eq_false_iff_ne, List.any_eq_false, Bool.or_eq_true,
    beq_iff_eq, not_or, Bool.not_eq_true, and_assoc] at h
  obtain ⟨hne, hdot, hdots, hchars⟩ := h
  refine ⟨hne, isAmbiguous_eq_false.mpr ⟨hdot, hdots, fun c hc => ?_⟩⟩
  obtain ⟨hpercent, hback, -, -, hcontrol, -⟩ := hchars c hc
  exact ⟨fun heq => hslash (heq ▸ hc), hback, hpercent, hcontrol⟩

theorem parse_ordinary {text : String} (h : PathPrefix.parse text = .ok (some pre)) :
    pre.segments ≠ [] ∧ ∀ segment ∈ pre.segments, IsOrdinary segment := by
  unfold PathPrefix.parse at h
  split at h
  · cases Except.ok.inj h
  · generalize (match Text.stripSuffix text "/" with
      | none => (text, false)
      | some rest => (rest, true)) = stripped at h
    dsimp only at h
    split at h
    · cases h
    · rename_i hvalid
      obtain rfl := Option.some.inj (Except.ok.inj h)
      refine ⟨fun hnil => List.splitOn_ne_nil _ _ (List.map_eq_nil_iff.mp hnil), ?_⟩
      intro segment hsegment
      obtain ⟨part, hpart, rfl⟩ := List.mem_map.mp hsegment
      refine ordinary_of_valid ?_ ?_
      · rw [String.toList_ofList]
        exact not_mem_splitOn hpart
      · rw [Bool.not_eq_true, List.any_eq_false] at hvalid
        exact Bool.not_eq_true _ ▸ hvalid _ hsegment

theorem utf8_escape (b : UInt8) : (escape b).flatMap String.utf8EncodeChar = Percent.encode b := by
  have hall : ∀ n : Fin 256, (escape (UInt8.ofFin n)).flatMap String.utf8EncodeChar =
      Percent.encode (UInt8.ofFin n) := by decide +kernel
  exact hall b.toFin

theorem not_mem_escape (b : UInt8) : '/' ∉ escape b := by
  have hall : ∀ n : Fin 256, '/' ∉ escape (UInt8.ofFin n) := by decide +kernel
  exact hall b.toFin

theorem utf8_escapes (bytes : List UInt8) :
    (bytes.flatMap escape).flatMap String.utf8EncodeChar = bytes.flatMap Percent.encode := by
  induction bytes with
  | nil => rfl
  | cons b bytes ih =>
    rw [List.flatMap_cons, List.flatMap_append, ih, utf8_escape, List.flatMap_cons]

/-- A segment is decoded to what was encoded in it. -/
theorem decode_encodeSegment (encoded : Char → Bool) {segment : String}
    (h : '%' ∉ segment.toList) :
    Percent.decode (Text.utf8 (encodeSegment encoded segment)) = Text.utf8 segment := by
  unfold Text.utf8 encodeSegment
  rw [String.toList_ofList]
  generalize segment.toList = l at h
  induction l with
  | nil => rfl
  | cons c l ih =>
    obtain ⟨hc, hl⟩ := not_or.mp (mt List.mem_cons.mpr h)
    rw [List.flatMap_cons, List.flatMap_append, List.flatMap_cons, ← ih hl]
    split
    · rw [utf8_escapes, Percent.decode_flatMap_encode]
    · rw [List.flatMap_singleton]
      have hpercent : ∀ b ∈ String.utf8EncodeChar c, b ≠ 0x25 := by
        rintro b hb rfl
        have hval := Text.mem_utf8EncodeChar (by decide) hb
        rw [← Char.ofNat_toNat c, hval] at hc
        exact hc rfl
      generalize String.utf8EncodeChar c = bytes at hpercent
      induction bytes with
      | nil => rfl
      | cons b bytes ihb =>
        obtain ⟨hb, hbytes⟩ := List.forall_mem_cons.mp hpercent
        rw [List.cons_append, Percent.decode_cons hb, ihb hbytes, List.cons_append]

theorem slash_encodeSegment (encoded : Char → Bool) {segment : String}
    (h : '/' ∉ segment.toList) : '/' ∉ (encodeSegment encoded segment).toList := by
  unfold encodeSegment
  rw [String.toList_ofList]
  intro hmem
  obtain ⟨c, hc, hmem⟩ := List.mem_flatMap.mp hmem
  split at hmem
  · obtain ⟨b, -, hmem⟩ := List.mem_flatMap.mp hmem
    exact not_mem_escape b hmem
  · rw [List.mem_singleton] at hmem
    exact h (hmem ▸ hc)

theorem encodeSegment_ne_empty (encoded : Char → Bool) {segment : String} (h : segment ≠ "") :
    encodeSegment encoded segment ≠ "" := by
  intro hempty
  have hlist : segment.toList ≠ [] := fun hnil => h (String.toList_eq_nil_iff.mp hnil)
  obtain ⟨c, l, hl⟩ := List.exists_cons_of_ne_nil hlist
  have hnil := congrArg String.toList hempty
  unfold encodeSegment at hnil
  rw [String.toList_ofList, hl, List.flatMap_cons] at hnil
  have hfirst := (List.append_eq_nil_iff.mp hnil).1
  split at hfirst
  · obtain ⟨b, hb⟩ := List.exists_mem_of_ne_nil _ (String.utf8EncodeChar_ne_nil (c := c))
    have hescape : escape b ⊆ [] := by
      intro d hd
      rw [← hfirst]
      exact List.mem_flatMap.mpr ⟨b, hb, hd⟩
    exact List.not_mem_nil (hescape (List.mem_map_of_mem (.head _)))
  · cases hfirst

theorem split_pathOf {segments : List String} (hne : segments ≠ [])
    (h : ∀ segment ∈ segments, '/' ∉ segment.toList) :
    split '/' ("/".intercalate segments) = segments := by
  unfold split
  rw [String.toList_intercalate]
  show List.map String.ofList (List.splitOn '/' (['/'].intercalate _)) = segments
  rw [List.splitOn_intercalate]
  · rw [List.map_map]
    simp [Function.comp_def]
  · intro part hpart
    obtain ⟨segment, hsegment, rfl⟩ := List.mem_map.mp hpart
    exact h segment hsegment
  · simpa using hne

/-- What is encoded of a name is its segment in a path. -/
def IsEncoded (name segment : String) : Prop :=
  IsOrdinary name ∧ ∃ encoded, segment = encodeSegment encoded name

theorem IsEncoded.slash {name segment : String} (h : IsEncoded name segment) :
    '/' ∉ segment.toList := by
  obtain ⟨⟨-, hclear⟩, encoded, rfl⟩ := h
  exact slash_encodeSegment encoded fun hmem =>
    ((isAmbiguous_eq_false.mp hclear).2.2 _ hmem).1 rfl

theorem IsEncoded.decoded (hdecode : Decodes crates) {name segment : String}
    (h : IsEncoded name segment) : crates.decode segment = some name := by
  obtain ⟨⟨-, hclear⟩, encoded, rfl⟩ := h
  have hpercent : '%' ∉ name.toList := fun hmem =>
    ((isAmbiguous_eq_false.mp hclear).2.2 _ hmem).2.2.1 rfl
  rw [hdecode, decode_encodeSegment encoded hpercent, Text.fromUtf8_utf8]

/-- The path of ordinary segments, however they are encoded, spells them. -/
theorem spells_pathOf (hdecode : Decodes crates) {names segments : List String}
    (h : List.Forall₂ IsEncoded names segments) (hne : names ≠ []) :
    Spells crates (pathOf segments) names := by
  have hsegments : ∀ segment ∈ segments, '/' ∉ segment.toList ∧ segment ≠ "" := by
    clear hne
    induction h with
    | nil => exact fun _ hs => absurd hs List.not_mem_nil
    | cons hfirst _ ih =>
      refine List.forall_mem_cons.mpr ⟨⟨hfirst.slash, ?_⟩, ih⟩
      obtain ⟨⟨hname, -⟩, encoded, rfl⟩ := hfirst
      exact encodeSegment_ne_empty encoded hname
  have hne' : segments ≠ [] := by
    rintro rfl
    exact hne (List.eq_nil_of_length_eq_zero h.length_eq)
  have hlast : names.getLast? ≠ some "" := by
    intro hempty
    have hmem := List.mem_of_getLast? hempty
    clear hne hsegments hne' hempty
    induction h with
    | nil => cases hmem
    | cons hfirst _ ih =>
      rcases List.mem_cons.mp hmem with heq | hmem
      · exact hfirst.1.1 heq.symm
      · exact ih hmem
  refine ⟨"/".intercalate segments, names, ?_, ?_, ?_, ?_⟩
  · rw [Text.stripPrefix_eq_some, pathOf, String.toList_append]
  · rw [split_pathOf hne' fun segment hs => (hsegments segment hs).1]
    refine List.Forall₂.flip (h.imp fun name segment hencoded => ?_)
    exact ⟨hencoded.decoded hdecode, hencoded.1.2⟩
  · rw [split_pathOf hne' fun segment hs => (hsegments segment hs).1]
    exact fun segment hs => (hsegments segment (List.dropLast_subset _ hs)).2
  · rw [if_neg hlast]

/-- What is under a prefix is admitted. -/
theorem admits_pathOf (hdecode : Decodes crates) {text : String}
    (hparse : PathPrefix.parse text = .ok (some pre)) (p q : Char → Bool) {more : List String}
    (hmore : ∀ segment ∈ more, IsOrdinary segment) (hdirectory : pre.directory = true → more ≠ []) :
    pre.admits crates (pathOf (pre.segments.map (encodeSegment p) ++
      more.map (encodeSegment q))) = true := by
  have encoded (p : Char → Bool) (names : List String) (h : ∀ name ∈ names, IsOrdinary name) :
      List.Forall₂ IsEncoded names (names.map (encodeSegment p)) := by
    induction names with
    | nil => exact .nil
    | cons name names ih =>
      obtain ⟨hname, hnames⟩ := List.forall_mem_cons.mp h
      exact .cons ⟨hname, p, rfl⟩ (ih hnames)
  obtain ⟨hne, hordinary⟩ := parse_ordinary hparse
  have hboth := List.rel_append (encoded p _ hordinary) (encoded q _ hmore)
  have hspells := spells_pathOf hdecode hboth fun hnil => hne (List.append_eq_nil_iff.mp hnil).1
  refine PathPrefix.admits_iff.mpr ⟨_, hspells, List.prefix_append _ _, fun hdir heq => ?_⟩
  exact hdirectory hdir (List.self_eq_append_right.mp heq)

/-- What a prefix promises: no path it admits is outside it, however often the path is decoded, and
all that is spelled under it is admitted. -/
structure PathPrefix.Holds (crates : UrlCrates) (pre : PathPrefix) : Prop where
  confines : ∀ path, pre.admits crates path = true → pre.Confines path
  admits : ∀ (p q : Char → Bool) (more : List String), (∀ segment ∈ more, IsOrdinary segment) →
    (pre.directory = true → more ≠ []) → pre.admits crates
      (pathOf (pre.segments.map (encodeSegment p) ++ more.map (encodeSegment q))) = true

/-- A prefix that is accepted cannot be escaped. -/
theorem prefix_holds (hdecode : Decodes crates) {text : String}
    (hparse : PathPrefix.parse text = .ok (some pre)) : pre.Holds crates where
  confines _ h := confines_of_admits hdecode h
  admits p q _ hmore hdirectory := admits_pathOf hdecode hparse p q hmore hdirectory

/-- `percent_encoding` as it is; no URL is parsed. -/
def percentCrates : UrlCrates where
  parse _ := none
  decode text := Text.fromUtf8 (Percent.decode (Text.utf8 text))

theorem prefix_holds_export :
    PathPrefix.parse "strava.portability/" = .ok (some ⟨["strava.portability"], true⟩) ∧
      PathPrefix.Holds percentCrates ⟨["strava.portability"], true⟩ := by
  have hparse : PathPrefix.parse "strava.portability/" =
      .ok (some ⟨["strava.portability"], true⟩) := by decide +kernel
  exact ⟨hparse, prefix_holds (fun _ => rfl) hparse⟩

end Tronc.HttpClient
