import Mathlib.Data.List.Basic

namespace Base64

/-- A character of padded Base64. -/
def isAlphabet (c : Char) : Bool := c.isAlphanum || c == '+' || c == '/' || c == '='

/-- A codec of padded Base64. -/
structure Engine where
  encode : List UInt8 → String
  decode : String → Option (List UInt8)
  decode_encode : ∀ bytes, decode (encode bytes) = some bytes
  encode_alphabet : ∀ bytes, ∀ c ∈ (encode bytes).toList, isAlphabet c = true
  decode_length : ∀ text bytes, decode text = some bytes → bytes.length ≤ text.toList.length

/-- The character of six bits. -/
def character (n : Nat) : Char :=
  if n < 26 then .ofNat (n + 'A'.toNat)
  else if n < 52 then .ofNat (n - 26 + 'a'.toNat)
  else if n < 62 then .ofNat (n - 52 + '0'.toNat)
  else if n = 62 then '+'
  else '/'

def value (c : Char) : Option Nat :=
  if 'A' ≤ c ∧ c ≤ 'Z' then some (c.toNat - 'A'.toNat)
  else if 'a' ≤ c ∧ c ≤ 'z' then some (c.toNat - 'a'.toNat + 26)
  else if '0' ≤ c ∧ c ≤ '9' then some (c.toNat - '0'.toNat + 52)
  else if c = '+' then some 62
  else if c = '/' then some 63
  else none

def encodeChars : List UInt8 → List Char
  | a :: b :: c :: rest =>
    character (a.toNat / 4) :: character (a.toNat % 4 * 16 + b.toNat / 16) ::
      character (b.toNat % 16 * 4 + c.toNat / 64) :: character (c.toNat % 64) :: encodeChars rest
  | [a, b] => [character (a.toNat / 4), character (a.toNat % 4 * 16 + b.toNat / 16),
      character (b.toNat % 16 * 4), '=']
  | [a] => [character (a.toNat / 4), character (a.toNat % 4 * 16), '=', '=']
  | [] => []

/-- The three bytes of a full group. -/
def decodeGroup (a b c d : Char) : Option (List UInt8) := do
  let x ← value a
  let y ← value b
  let z ← value c
  let u ← value d
  some [.ofNat (x * 4 + y / 16), .ofNat (y % 16 * 16 + z / 4), .ofNat (z % 4 * 64 + u)]

/-- The bytes of a padded group: the bits no byte takes must be zero. -/
def decodeLast (a b c : Char) : Option (List UInt8) := do
  let x ← value a
  let y ← value b
  if c = '=' then
    if y % 16 = 0 then some [.ofNat (x * 4 + y / 16)] else none
  else
    let z ← value c
    if z % 4 = 0 then some [.ofNat (x * 4 + y / 16), .ofNat (y % 16 * 16 + z / 4)] else none

/-- The bytes of a text padded in full. -/
def decodeChars : List Char → Option (List UInt8)
  | [] => some []
  | a :: b :: c :: d :: rest =>
    if d = '=' then
      if rest = [] then decodeLast a b c else none
    else do
      let bytes ← decodeGroup a b c d
      let more ← decodeChars rest
      some (bytes ++ more)
  | _ => none

theorem value_character : ∀ n < 64, value (character n) = some n := by decide

theorem character_ne_pad : ∀ n < 64, character n ≠ '=' := by decide

theorem character_alphabet : ∀ n < 64, isAlphabet (character n) = true := by decide

private theorem byte_eq {a : UInt8} {n : Nat} (h : n = a.toNat) : UInt8.ofNat n = a := by
  rw [h, UInt8.ofNat_toNat]

private theorem decodeGroup_encode (a b c : UInt8) :
    decodeGroup (character (a.toNat / 4)) (character (a.toNat % 4 * 16 + b.toNat / 16))
      (character (b.toNat % 16 * 4 + c.toNat / 64)) (character (c.toNat % 64)) =
        some [a, b, c] := by
  have ha := a.toNat_lt
  have hb := b.toNat_lt
  have hc := c.toNat_lt
  unfold decodeGroup
  rw [value_character _ (by omega), value_character _ (by omega), value_character _ (by omega),
    value_character _ (by omega)]
  have h1 := byte_eq (a := a) (n := a.toNat / 4 * 4 + (a.toNat % 4 * 16 + b.toNat / 16) / 16)
    (by omega)
  have h2 := byte_eq (a := b) (n := (a.toNat % 4 * 16 + b.toNat / 16) % 16 * 16 +
    (b.toNat % 16 * 4 + c.toNat / 64) / 4) (by omega)
  have h3 := byte_eq (a := c) (n := (b.toNat % 16 * 4 + c.toNat / 64) % 4 * 64 + c.toNat % 64)
    (by omega)
  simp only [Option.bind_eq_bind, Option.bind_some, h1, h2, h3]

private theorem decodeLast_two (a b : UInt8) :
    decodeLast (character (a.toNat / 4)) (character (a.toNat % 4 * 16 + b.toNat / 16))
      (character (b.toNat % 16 * 4)) = some [a, b] := by
  have ha := a.toNat_lt
  have hb := b.toNat_lt
  unfold decodeLast
  rw [value_character _ (by omega), value_character _ (by omega), value_character _ (by omega)]
  have h1 := byte_eq (a := a) (n := a.toNat / 4 * 4 + (a.toNat % 4 * 16 + b.toNat / 16) / 16)
    (by omega)
  have h2 := byte_eq (a := b) (n := (a.toNat % 4 * 16 + b.toNat / 16) % 16 * 16 +
    b.toNat % 16 * 4 / 4) (by omega)
  simp only [Option.bind_eq_bind, Option.bind_some, h1, h2]
  rw [if_neg (character_ne_pad _ (by omega)), if_pos (by omega)]

private theorem decodeLast_one (a : UInt8) :
    decodeLast (character (a.toNat / 4)) (character (a.toNat % 4 * 16)) '=' = some [a] := by
  have ha := a.toNat_lt
  unfold decodeLast
  rw [value_character _ (by omega), value_character _ (by omega)]
  have h1 := byte_eq (a := a) (n := a.toNat / 4 * 4 + a.toNat % 4 * 16 / 16) (by omega)
  simp only [Option.bind_eq_bind, Option.bind_some, h1, if_true]
  rw [if_pos (by omega)]

theorem decodeChars_encodeChars (bytes : List UInt8) :
    decodeChars (encodeChars bytes) = some bytes := by
  induction bytes using encodeChars.induct with
  | case1 a b c rest ih =>
    unfold encodeChars decodeChars
    rw [if_neg (character_ne_pad _ (Nat.mod_lt _ (by decide))), decodeGroup_encode, ih]
    rfl
  | case2 a b =>
    unfold encodeChars decodeChars
    rw [if_pos rfl, if_pos rfl, decodeLast_two]
  | case3 a =>
    unfold encodeChars decodeChars
    rw [if_pos rfl, if_pos rfl, decodeLast_one]
  | case4 => rfl

theorem encodeChars_alphabet (bytes : List UInt8) :
    ∀ c ∈ encodeChars bytes, isAlphabet c = true := by
  induction bytes using encodeChars.induct with
  | case1 a b c rest ih =>
    have ha := a.toNat_lt
    have hb := b.toNat_lt
    have hc := c.toNat_lt
    intro d hd
    simp only [encodeChars, List.mem_cons] at hd
    rcases hd with rfl | rfl | rfl | rfl | hd
    · exact character_alphabet _ (by omega)
    · exact character_alphabet _ (by omega)
    · exact character_alphabet _ (by omega)
    · exact character_alphabet _ (by omega)
    · exact ih d hd
  | case2 a b =>
    have ha := a.toNat_lt
    have hb := b.toNat_lt
    intro d hd
    simp only [encodeChars, List.mem_cons, List.not_mem_nil, or_false] at hd
    rcases hd with rfl | rfl | rfl | rfl
    · exact character_alphabet _ (by omega)
    · exact character_alphabet _ (by omega)
    · exact character_alphabet _ (by omega)
    · rfl
  | case3 a =>
    have ha := a.toNat_lt
    intro d hd
    simp only [encodeChars, List.mem_cons, List.not_mem_nil, or_false] at hd
    rcases hd with rfl | rfl | rfl | rfl
    · exact character_alphabet _ (by omega)
    · exact character_alphabet _ (by omega)
    · rfl
    · rfl
  | case4 =>
    intro d hd
    simp [encodeChars] at hd

private theorem decodeGroup_length {a b c d : Char} {bytes : List UInt8}
    (h : decodeGroup a b c d = some bytes) : bytes.length = 3 := by
  obtain ⟨x, _, h⟩ := Option.bind_eq_some_iff.mp h
  obtain ⟨y, _, h⟩ := Option.bind_eq_some_iff.mp h
  obtain ⟨z, _, h⟩ := Option.bind_eq_some_iff.mp h
  obtain ⟨u, _, h⟩ := Option.bind_eq_some_iff.mp h
  obtain rfl := Option.some.inj h
  rfl

private theorem decodeLast_length {a b c : Char} {bytes : List UInt8}
    (h : decodeLast a b c = some bytes) : bytes.length ≤ 2 := by
  obtain ⟨x, _, h⟩ := Option.bind_eq_some_iff.mp h
  obtain ⟨y, _, h⟩ := Option.bind_eq_some_iff.mp h
  split at h
  · split at h
    · obtain rfl := Option.some.inj h
      simp
    · simp at h
  · obtain ⟨z, _, h⟩ := Option.bind_eq_some_iff.mp h
    split at h
    · obtain rfl := Option.some.inj h
      simp
    · simp at h

theorem decodeChars_length (text : List Char) (bytes : List UInt8)
    (h : decodeChars text = some bytes) : bytes.length ≤ text.length := by
  induction text using decodeChars.induct generalizing bytes with
  | case1 =>
    obtain rfl := Option.some.inj h
    exact Nat.le_refl _
  | case2 a b c =>
    have hle : bytes.length ≤ 2 := decodeLast_length h
    simp only [List.length_cons, List.length_nil]
    omega
  | case3 a b c rest hrest =>
    unfold decodeChars at h
    rw [if_pos rfl, if_neg hrest] at h
    simp at h
  | case4 a b c d rest hd ih =>
    unfold decodeChars at h
    rw [if_neg hd] at h
    obtain ⟨group, hg, h⟩ := Option.bind_eq_some_iff.mp h
    obtain ⟨more, hm, h⟩ := Option.bind_eq_some_iff.mp h
    obtain rfl := Option.some.inj h
    have hlen := decodeGroup_length hg
    have hle := ih more hm
    simp only [List.length_append, List.length_cons]
    omega
  | case5 text hnil hfour =>
    unfold decodeChars at h
    split at h
    · exact absurd rfl hnil
    · exact absurd rfl (hfour _ _ _ _ _)
    · simp at h

/-- Canonical padded Base64 with the standard alphabet. -/
def standard : Engine where
  encode bytes := .ofList (encodeChars bytes)
  decode text := decodeChars text.toList
  decode_encode bytes := by
    rw [String.toList_ofList]
    exact decodeChars_encodeChars bytes
  encode_alphabet bytes := by
    rw [String.toList_ofList]
    exact encodeChars_alphabet bytes
  decode_length text := decodeChars_length text.toList

/-- A codec of Base64 for URLs, without padding. -/
structure UrlEngine where
  encode : List UInt8 → String
  decode : String → Option (List UInt8)
  decode_encode : ∀ bytes, decode (encode bytes) = some bytes

def urlChar (c : Char) : Char := if c = '+' then '-' else if c = '/' then '_' else c

/-- The standard alphabet's character for one of the URL alphabet. -/
def ofUrlChar (c : Char) : Option Char :=
  if c = '-' then some '+' else if c = '_' then some '/'
  else if c = '+' ∨ c = '/' ∨ c = '=' then none else some c

def encodeUrlChars (bytes : List UInt8) : List Char :=
  ((encodeChars bytes).takeWhile (· ≠ '=')).map urlChar

/-- A last group that is not full, padded. -/
def pad : List Char → List Char
  | a :: b :: c :: d :: rest => a :: b :: c :: d :: pad rest
  | [a, b, c] => [a, b, c, '=']
  | [a, b] => [a, b, '=', '=']
  | short => short

def decodeUrlChars (text : List Char) : Option (List UInt8) :=
  (text.mapM ofUrlChar).bind fun text => decodeChars (pad text)

theorem ofUrlChar_urlChar : ∀ n < 64, ofUrlChar (urlChar (character n)) = some (character n) := by
  decide

private theorem character_cons {n : Nat} (hn : n < 64) (rest : List Char) :
    ((character n :: rest).takeWhile (· ≠ '=')) = character n :: rest.takeWhile (· ≠ '=') :=
  List.takeWhile_cons_of_pos (decide_eq_true (character_ne_pad n hn))

private theorem pad_cons {n : Nat} (hn : n < 64) {text : List Char} {out : List Char}
    (h : (text.map urlChar).mapM ofUrlChar = some out) :
    ((character n :: text).map urlChar).mapM ofUrlChar = some (character n :: out) := by
  rw [List.map_cons, List.mapM_cons, ofUrlChar_urlChar n hn, h]
  rfl

/-- Without its padding and in the URL alphabet, an encoded text is still what it was. -/
theorem pad_encodeUrlChars (bytes : List UInt8) : ((encodeUrlChars bytes).mapM ofUrlChar).map pad =
    some (encodeChars bytes) := by
  unfold encodeUrlChars
  induction bytes using encodeChars.induct with
  | case1 a b c rest ih =>
    have ha := a.toNat_lt
    have hb := b.toNat_lt
    have hc := c.toNat_lt
    obtain ⟨out, hout, hpad⟩ := Option.map_eq_some_iff.mp ih
    rw [encodeChars, character_cons (by omega), character_cons (by omega),
      character_cons (by omega), character_cons (by omega),
      pad_cons (by omega) (pad_cons (by omega) (pad_cons (by omega) (pad_cons (by omega) hout))),
      Option.map_some, pad, hpad]
  | case2 a b =>
    have ha := a.toNat_lt
    have hb := b.toNat_lt
    have hnil : (([] : List Char).map urlChar).mapM ofUrlChar = some [] := rfl
    rw [encodeChars, character_cons (by omega), character_cons (by omega),
      character_cons (by omega), List.takeWhile_cons_of_neg (by decide),
      pad_cons (by omega) (pad_cons (by omega) (pad_cons (by omega) hnil))]
    rfl
  | case3 a =>
    have ha := a.toNat_lt
    have hnil : (([] : List Char).map urlChar).mapM ofUrlChar = some [] := rfl
    rw [encodeChars, character_cons (by omega), character_cons (by omega),
      List.takeWhile_cons_of_neg (by decide), pad_cons (by omega) (pad_cons (by omega) hnil)]
    rfl
  | case4 => rfl

theorem decodeUrlChars_encodeUrlChars (bytes : List UInt8) :
    decodeUrlChars (encodeUrlChars bytes) = some bytes := by
  obtain ⟨out, hout, hpad⟩ := Option.map_eq_some_iff.mp (pad_encodeUrlChars bytes)
  unfold decodeUrlChars
  rw [hout, Option.bind_some, hpad, decodeChars_encodeChars]

/-- Canonical Base64 for URLs, without padding. -/
def urlSafe : UrlEngine where
  encode bytes := .ofList (encodeUrlChars bytes)
  decode text := decodeUrlChars text.toList
  decode_encode bytes := by
    rw [String.toList_ofList]
    exact decodeUrlChars_encodeUrlChars bytes

end Base64
