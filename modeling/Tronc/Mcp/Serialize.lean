import Tronc.Mcp.Mirror

namespace Tronc.Mcp

/-- How `serde_json` writes a character of a string. -/
def escapeChar (c : Char) : List Char :=
  if c = '\x22' then ['\\', '\x22']
  else if c = '\\' then ['\\', '\\']
  else if c = '\x08' then ['\\', 'b']
  else if c = '\t' then ['\\', 't']
  else if c = '\n' then ['\\', 'n']
  else if c = '\x0c' then ['\\', 'f']
  else if c = '\r' then ['\\', 'r']
  else if c.toNat < 32 then
    ['\\', 'u', '0', '0', (c.toNat / 16).digitChar, (c.toNat % 16).digitChar]
  else [c]

def quoted (s : String) : String := .ofList ('\x22' :: s.toList.flatMap escapeChar ++ ['\x22'])

mutual

/-- `serde_json::to_string` of a value, which is also its `Display`. -/
def toText (crates : Crates) : Json → String
  | .null => "null"
  | .bool b => if b then "true" else "false"
  | .number n => numberText crates n
  | .string s => quoted s
  | .array xs => "[" ++ ",".intercalate (toTexts crates xs) ++ "]"
  | .object fields => "\x7b" ++ ",".intercalate (toMembers crates fields) ++ "\x7d"

def toTexts (crates : Crates) : List Json → List String
  | [] => []
  | x :: xs => toText crates x :: toTexts crates xs

def toMembers (crates : Crates) : List (String × Json) → List String
  | [] => []
  | (key, x) :: fields => (quoted key ++ ":" ++ toText crates x) :: toMembers crates fields

end

/-- A character that the text of a number may have. -/
def isNumberChar (c : Char) : Bool := c.isDigit || c == '-' || c == '+' || c == '.' || c == 'e'

/-- What is relied on of the text of doubles: no two have the same, and none has an integer's. -/
structure FloatTexts (crates : Crates) : Prop where
  injective : ∀ x y : Binary64, x.isFinite = true → y.isFinite = true →
    crates.floatText x = crates.floatText y → x = y
  numeric : ∀ x : Binary64, x.isFinite = true → crates.floatText x ≠ "" ∧
    ∀ c ∈ (crates.floatText x).toList, isNumberChar c = true
  fractional : ∀ x : Binary64, x.isFinite = true → '.' ∈ (crates.floatText x).toList ∨
    'e' ∈ (crates.floatText x).toList

/-- What a character was escaped from, and what follows it. -/
def unescape : List Char → Option (Char × List Char)
  | '\\' :: 'u' :: '0' :: '0' :: high :: low :: rest =>
    some (.ofNat ((high.toNat - 48) * 16 +
      (if low.toNat < 58 then low.toNat - 48 else low.toNat - 87)), rest)
  | '\\' :: 'b' :: rest => some ('\x08', rest)
  | '\\' :: 't' :: rest => some ('\t', rest)
  | '\\' :: 'n' :: rest => some ('\n', rest)
  | '\\' :: 'f' :: rest => some ('\x0c', rest)
  | '\\' :: 'r' :: rest => some ('\r', rest)
  | '\\' :: c :: rest => some (c, rest)
  | c :: rest => some (c, rest)
  | [] => none

private theorem unescape_control (n : Fin 32) :
    (((n.val / 16).digitChar.toNat - 48) * 16 + (if (n.val % 16).digitChar.toNat < 58
      then (n.val % 16).digitChar.toNat - 48 else (n.val % 16).digitChar.toNat - 87)) = n.val := by
  revert n
  decide

theorem unescape_escapeChar (c : Char) (rest : List Char) :
    unescape (escapeChar c ++ rest) = some (c, rest) := by
  unfold escapeChar
  split_ifs with hquote hslash hb ht hn hf hr hcontrol
  · subst hquote
    rfl
  · subst hslash
    rfl
  · subst hb
    rfl
  · subst ht
    rfl
  · subst hn
    rfl
  · subst hf
    rfl
  · subst hr
    rfl
  · have hvalue := unescape_control ⟨c.toNat, hcontrol⟩
    show some (Char.ofNat _, rest) = some (c, rest)
    simp only at hvalue
    rw [hvalue, Char.ofNat_toNat]
  · show unescape (c :: rest) = some (c, rest)
    simp [unescape, hslash]

theorem flatMap_escapeChar_injective {s t : List Char}
    (h : s.flatMap escapeChar = t.flatMap escapeChar) : s = t := by
  have head (c : Char) (l : List Char) :
      unescape ((c :: l).flatMap escapeChar) = some (c, l.flatMap escapeChar) := by
    rw [List.flatMap_cons]
    exact unescape_escapeChar c _
  have none : unescape ([].flatMap escapeChar) = none := rfl
  induction s generalizing t with
  | nil =>
    cases t with
    | nil => rfl
    | cons d t =>
      have hd := head d t
      rw [← h, none] at hd
      cases hd
  | cons c s ih =>
    have hc := head c s
    cases t with
    | nil =>
      rw [h, none] at hc
      cases hc
    | cons d t =>
      rw [h, head d t] at hc
      obtain ⟨hcd, hst⟩ := Prod.mk.inj (Option.some.inj hc)
      rw [hcd, ih hst.symm]

theorem quoted_injective {s t : String} (h : quoted s = quoted t) : s = t := by
  have hchars := String.ofList_injective h
  have hbody := List.append_cancel_right (List.cons.inj hchars).2
  exact String.toList_injective (flatMap_escapeChar_injective hbody)

/-- The rest of a quoted text, up to its closing quote, and what follows; `fuel` outlasts it. -/
def readQuoted : Nat → List Char → Option (List Char × List Char)
  | 0, _ => none
  | _ + 1, '\x22' :: rest => some ([], rest)
  | fuel + 1, text => (unescape text).bind fun (c, rest) =>
    (readQuoted fuel rest).map fun (body, rest) => (c :: body, rest)

/-- No escape starts with a quote. -/
theorem escapeChar_head (c : Char) : ∃ d more, escapeChar c = d :: more ∧ d ≠ '\x22' := by
  unfold escapeChar
  split_ifs with hquote
  all_goals first
    | exact ⟨_, _, rfl, by decide⟩
    | exact ⟨_, _, rfl, hquote⟩

theorem length_le_escaped (body : List Char) : body.length ≤ (body.flatMap escapeChar).length := by
  induction body with
  | nil => exact Nat.le_refl _
  | cons c body ih =>
    obtain ⟨d, more, hhead, _⟩ := escapeChar_head c
    rw [List.flatMap_cons, hhead, List.length_append, List.length_cons, List.length_cons]
    omega

theorem readQuoted_escaped {fuel : Nat} {body : List Char} (rest : List Char)
    (h : body.length < fuel) :
    readQuoted fuel (body.flatMap escapeChar ++ '\x22' :: rest) = some (body, rest) := by
  induction body generalizing fuel with
  | nil =>
    obtain ⟨n, rfl⟩ := Nat.exists_eq_add_one_of_ne_zero (Nat.ne_of_gt h)
    rfl
  | cons c body ih =>
    rw [List.length_cons] at h
    obtain ⟨n, rfl⟩ := Nat.exists_eq_add_one_of_ne_zero (Nat.ne_of_gt (Nat.zero_lt_of_lt h))
    have read := unescape_escapeChar c (body.flatMap escapeChar ++ '\x22' :: rest)
    obtain ⟨d, more, hhead, hd⟩ := escapeChar_head c
    rw [List.flatMap_cons, List.append_assoc]
    rw [hhead] at read ⊢
    have steps : readQuoted (n + 1) (d :: more ++ (body.flatMap escapeChar ++ '\x22' :: rest)) =
        (unescape (d :: more ++ (body.flatMap escapeChar ++ '\x22' :: rest))).bind
          fun (c, rest) => (readQuoted n rest).map fun (body, rest) => (c :: body, rest) := by
      rw [List.cons_append, readQuoted]
      intro _ hquote
      exact hd (List.cons.inj hquote).1
    rw [steps, read, Option.bind_some]
    dsimp only
    rw [ih (Nat.lt_of_succ_lt_succ h)]
    rfl

theorem repr_injective {m n : Nat} (h : m.repr = n.repr) : m = n := by
  have hm : Nat.ofDigitChars 10 m.repr.toList 0 = m := by
    rw [Nat.toList_repr, Nat.ofDigitChars_ten_toDigits]
  rw [h, Nat.toList_repr, Nat.ofDigitChars_ten_toDigits] at hm
  exact hm.symm

theorem isDigit_repr {n : Nat} {c : Char} (hc : c ∈ n.repr.toList) : c.isDigit = true := by
  rw [Nat.toList_repr] at hc
  exact Nat.isDigit_of_mem_toDigits (by decide) (by decide) hc

theorem numberText_negInt (crates : Crates) (i : {i : Int64 // i < 0}) :
    numberText crates (.negInt i) = "-" ++ (-i.1.toInt).toNat.repr := by
  have hneg : i.1.toInt < 0 := Int64.lt_iff_toInt_lt.mp i.2
  show toString i.1.toInt = _
  rw [Int.toString_eq_repr, Int.repr_eq_if, if_neg (by omega)]

theorem toList_negInt (crates : Crates) (i : {i : Int64 // i < 0}) :
    (numberText crates (.negInt i)).toList = '-' :: (-i.1.toInt).toNat.repr.toList := by
  rw [numberText_negInt, String.toList_append]
  rfl

section Numbers

variable {crates : Crates} (hf : FloatTexts crates)
include hf

/-- The text of a number is made of the characters of numbers. -/
theorem numberText_numeric (n : Number) : (numberText crates n).toList ≠ [] ∧
    ∀ c ∈ (numberText crates n).toList, isNumberChar c = true := by
  have digit {c : Char} (hc : c.isDigit = true) : isNumberChar c = true := by
    unfold isNumberChar
    rw [hc]
    rfl
  cases n with
  | posInt n =>
    refine ⟨?_, fun c hc => digit (isDigit_repr hc)⟩
    show n.toNat.repr.toList ≠ []
    rw [Nat.toList_repr]
    exact Nat.toDigits_ne_nil
  | negInt i =>
    rw [toList_negInt]
    refine ⟨List.cons_ne_nil _ _, fun c hc => ?_⟩
    rcases List.mem_cons.mp hc with rfl | hc
    · rfl
    · exact digit (isDigit_repr hc)
  | float x =>
    obtain ⟨hne, hall⟩ := hf.numeric x.1 x.2
    exact ⟨fun hnil => hne (String.toList_eq_nil_iff.mp hnil), hall⟩

/-- No double has the text of an integer. -/
theorem floatText_not_integer {x : Binary64} (hx : x.isFinite = true) {l : List Char}
    (hl : ∀ c ∈ l, c.isDigit = true ∨ c = '-') : (crates.floatText x).toList ≠ l := by
  rintro rfl
  rcases hf.fractional x hx with h | h
  · rcases hl '.' h with hd | hm
    · exact absurd hd (by decide)
    · exact absurd hm (by decide)
  · rcases hl 'e' h with hd | hm
    · exact absurd hd (by decide)
    · exact absurd hm (by decide)

theorem numberText_injective {m n : Number} (h : numberText crates m = numberText crates n) :
    m = n := by
  have hchars := congrArg String.toList h
  have digits (k : Nat) : ∀ c ∈ k.repr.toList, c.isDigit = true ∨ c = '-' :=
    fun c hc => .inl (isDigit_repr hc)
  have signed (i : {i : Int64 // i < 0}) :
      ∀ c ∈ (numberText crates (.negInt i)).toList, c.isDigit = true ∨ c = '-' := by
    intro c hc
    rw [toList_negInt] at hc
    rcases List.mem_cons.mp hc with hc | hc
    · exact .inr hc
    · exact .inl (isDigit_repr hc)
  have sign (k : Nat) (i : {i : Int64 // i < 0}) :
      k.repr.toList ≠ (numberText crates (.negInt i)).toList := by
    intro heq
    have hmem : '-' ∈ k.repr.toList := by
      rw [heq, toList_negInt]
      exact List.mem_cons_self
    exact absurd (isDigit_repr hmem) (by decide)
  cases m with
  | posInt a =>
    cases n with
    | posInt b => rw [UInt64.toNat_inj.mp (repr_injective h)]
    | negInt j => exact absurd hchars (sign a.toNat j)
    | float y => exact absurd hchars.symm (floatText_not_integer hf y.2 (digits a.toNat))
  | negInt i =>
    cases n with
    | posInt b => exact absurd hchars.symm (sign b.toNat i)
    | negInt j =>
      rw [toList_negInt, toList_negInt] at hchars
      have hrepr := repr_injective (String.toList_injective (List.cons.inj hchars).2)
      have hi : i.1.toInt < 0 := Int64.lt_iff_toInt_lt.mp i.2
      have hj : j.1.toInt < 0 := Int64.lt_iff_toInt_lt.mp j.2
      have hval : i.1.toInt = j.1.toInt := by omega
      rw [Subtype.ext (Int64.toInt_inj.mp hval)]
    | float y => exact absurd hchars.symm (floatText_not_integer hf y.2 (signed i))
  | float x =>
    cases n with
    | posInt b => exact absurd hchars (floatText_not_integer hf x.2 (digits b.toNat))
    | negInt j => exact absurd hchars (floatText_not_integer hf x.2 (signed j))
    | float y => rw [Subtype.ext (hf.injective x.1 y.1 x.2 y.2 h)]

/-- What a request may be named by: `id.is_string() || id.is_number()`. -/
def isName : Json → Bool
  | .string _ | .number _ => true
  | _ => false

end Numbers

/-- The first character of a value's text. -/
def initial (crates : Crates) : Json → Option Char
  | .null => some 'n'
  | .bool true => some 't'
  | .bool false => some 'f'
  | .number n => (numberText crates n).toList.head?
  | .string _ => some '\x22'
  | .array _ => some '['
  | .object _ => some '\x7b'

theorem head_toText (crates : Crates) (v : Json) :
    (toText crates v).toList.head? = initial crates v := by
  cases v with
  | null => simp [toText, initial]
  | bool b => cases b <;> simp [toText, initial]
  | number n => simp [toText, initial]
  | string s => simp [toText, initial, quoted]
  | array xs => simp [toText, initial]
  | object fields => simp [toText, initial]

/-- Only one value has the text of a string or a number. -/
theorem toText_injective {crates : Crates} (hf : FloatTexts crates) {v id : Json}
    (hid : isName id = true) (h : toText crates v = toText crates id) : v = id := by
  have hhead : initial crates v = initial crates id := by
    rw [← head_toText, ← head_toText, h]
  have numeric (n : Number) : ∃ c, initial crates (.number n) = some c ∧
      isNumberChar c = true := by
    obtain ⟨hne, hall⟩ := numberText_numeric hf n
    obtain ⟨c, l, hl⟩ := List.exists_cons_of_ne_nil hne
    refine ⟨c, ?_, hall c ?_⟩
    · show (numberText crates n).toList.head? = some c
      rw [hl]
      rfl
    · rw [hl]
      exact List.mem_cons_self
  -- no other value's text starts as a number's does
  have other (n : Number) {c : Char} (hc : isNumberChar c = false) :
      initial crates (.number n) ≠ some c := by
    intro heq
    obtain ⟨d, hd, hnum⟩ := numeric n
    rw [heq] at hd
    rw [Option.some.inj hd, hnum] at hc
    cases hc
  cases id with
  | null | bool _ | array _ | object _ => cases hid
  | string t =>
    cases v with
    | string s =>
      simp only [toText] at h
      rw [quoted_injective h]
    | number n => exact absurd hhead (other n (by decide))
    | bool b => cases b <;> simp [initial] at hhead
    | null | array _ | object _ => simp [initial] at hhead
  | number n =>
    cases v with
    | number m =>
      simp only [toText] at h
      rw [numberText_injective hf h]
    | bool b =>
      cases b
      · exact absurd hhead.symm (other n (by decide))
      · exact absurd hhead.symm (other n (by decide))
    | null | string _ | array _ | object _ => exact absurd hhead.symm (other n (by decide))

/-- A text for every double, from its bits. -/
def bitsText (x : Binary64) : String := x.bits.toNat.repr ++ ".0"

theorem toList_bitsText (x : Binary64) :
    (bitsText x).toList = x.bits.toNat.repr.toList ++ ['.', '0'] := by
  unfold bitsText
  rw [String.toList_append]
  rfl

theorem bitsText_floatTexts : FloatTexts ⟨Base64.standard, bitsText⟩ where
  injective x y _ _ h := by
    have hchars : (bitsText x).toList = (bitsText y).toList := congrArg String.toList h
    rw [toList_bitsText, toList_bitsText] at hchars
    have hrepr := String.toList_injective (List.append_cancel_right hchars)
    have hbits := BitVec.eq_of_toNat_eq (repr_injective hrepr)
    cases x
    cases y
    rw [Binary64.mk.injEq]
    exact hbits
  numeric x _ := by
    refine ⟨fun h => ?_, fun c hc => ?_⟩
    · have hnil : (bitsText x).toList = [] := String.toList_eq_nil_iff.mpr h
      rw [toList_bitsText] at hnil
      simp at hnil
    · have hc' : c ∈ (bitsText x).toList := hc
      rw [toList_bitsText] at hc'
      rcases List.mem_append.mp hc' with hd | hd
      · unfold isNumberChar
        rw [isDigit_repr hd]
        rfl
      · simp only [List.mem_cons, List.not_mem_nil, or_false] at hd
        rcases hd with rfl | rfl
        · rfl
        · rfl
  fractional x _ := by
    have hdot : '.' ∈ (bitsText x).toList := by
      rw [toList_bitsText]
      simp
    exact .inl hdot

abbrev plainCrates : Crates := ⟨Base64.standard, bitsText⟩

end Tronc.Mcp
