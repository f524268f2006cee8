import Mathlib.Data.List.Basic
import Mathlib.Logic.Function.Iterate

namespace Percent

/-- What a hexadecimal digit stands for, in either case. -/
def hexValue (b : UInt8) : Option UInt8 :=
  if 0x30 ≤ b ∧ b ≤ 0x39 then some (b - 0x30)
  else if 0x41 ≤ b ∧ b ≤ 0x46 then some (b - 0x37)
  else if 0x61 ≤ b ∧ b ≤ 0x66 then some (b - 0x57)
  else none

/-- The byte that two digits stand for. -/
def escaped (high low : UInt8) : Option UInt8 :=
  (hexValue high).bind fun h => (hexValue low).map fun l => h * 16 + l

/-- Each percent sign that two digits follow, decoded; any other stands for itself. -/
def decode : List UInt8 → List UInt8
  | b :: high :: low :: rest =>
    if b = 0x25 then
      match escaped high low with
      | some x => x :: decode rest
      | none => b :: decode (high :: low :: rest)
    else b :: decode (high :: low :: rest)
  | rest => rest

def hexDigit (n : UInt8) : UInt8 := if n < 10 then n + 0x30 else n + 0x37

def encode (b : UInt8) : List UInt8 := [0x25, hexDigit (b / 16), hexDigit (b % 16)]

variable {l front rest : List UInt8} {b s : UInt8}

theorem decode_cons (h : b ≠ 0x25) : decode (b :: rest) = b :: decode rest := by
  match rest with
  | [] => rfl
  | [_] => rfl
  | _ :: _ :: _ => rw [decode, if_neg h]

theorem decode_eq_self (h : 0x25 ∉ l) : decode l = l := by
  induction l with
  | nil => rfl
  | cons b l ih =>
    obtain ⟨hb, hl⟩ := not_or.mp (mt List.mem_cons.mpr h)
    rw [decode_cons (Ne.symm hb), ih hl]

/-- What is decoded has nothing left to decode once it has no percent sign. -/
theorem decode_iterate (h : 0x25 ∉ decode l) (n : Nat) : decode^[n + 1] l = decode l := by
  induction n with
  | zero => rfl
  | succ n ih => rw [Function.iterate_succ_apply', ih, decode_eq_self h]

theorem escaped_none_left (h : hexValue s = none) : escaped s b = none := by
  unfold escaped
  rw [h]
  rfl

theorem escaped_none_right (h : hexValue s = none) : escaped b s = none := by
  unfold escaped
  rw [h]
  cases hexValue b <;> rfl

/-- No escape goes past a byte that is no digit. -/
theorem decode_stop (hs : hexValue s = none) (hne : s ≠ 0x25) :
    decode (front ++ s :: rest) = decode front ++ s :: decode rest := by
  have one (c : UInt8) : decode (c :: s :: rest) = c :: s :: decode rest := by
    rw [← decode_cons hne]
    cases rest with
    | nil => rfl
    | cons r rest =>
      rw [decode, escaped_none_left hs]
      split <;> rfl
  induction front using decode.induct with
  | case1 high low front x hx ih =>
    show decode (0x25 :: high :: low :: (front ++ s :: rest)) = _
    rw [decode, if_pos rfl, hx, decode, if_pos rfl, hx]
    exact congrArg (x :: ·) ih
  | case2 high low front hnone ih =>
    show decode (0x25 :: high :: low :: (front ++ s :: rest)) = _
    rw [decode, if_pos rfl, hnone, decode, if_pos rfl, hnone]
    exact congrArg (0x25 :: ·) ih
  | case3 b high low front hb ih =>
    show decode (b :: high :: low :: (front ++ s :: rest)) = _
    rw [decode, if_neg hb, decode, if_neg hb]
    exact congrArg (b :: ·) ih
  | case4 front hshort =>
    match front, hshort with
    | [], _ => exact decode_cons hne
    | [c], _ => exact one c
    | [c, d], _ =>
      show decode (c :: d :: s :: rest) = c :: d :: s :: decode rest
      rw [decode, escaped_none_right hs, one]
      split <;> rfl
    | b :: high :: low :: front, h => exact absurd rfl (h b high low front)

/-- Parts that a byte sets apart are decoded one by one. -/
theorem decode_intercalate (hs : hexValue s = none) (hne : s ≠ 0x25) (parts : List (List UInt8)) :
    decode ([s].intercalate parts) = [s].intercalate (parts.map decode) := by
  induction parts with
  | nil => rfl
  | cons part parts ih =>
    cases parts with
    | nil => rw [List.map_singleton, List.intercalate_singleton, List.intercalate_singleton]
    | cons next parts =>
      have hmore : (next :: parts).map decode ≠ [] := List.cons_ne_nil _ _
      rw [List.intercalate_cons_cons, List.append_assoc, List.singleton_append,
        decode_stop hs hne, ih]
      show _ = [s].intercalate (decode part :: (next :: parts).map decode)
      rw [List.intercalate_cons_of_ne_nil hmore, List.append_assoc, List.singleton_append]

theorem escaped_hexDigit (b : UInt8) :
    escaped (hexDigit (b / 16)) (hexDigit (b % 16)) = some b := by
  have hall : ∀ n : Fin 256, escaped (hexDigit (UInt8.ofFin n / 16))
      (hexDigit (UInt8.ofFin n % 16)) = some (UInt8.ofFin n) := by decide +kernel
  exact hall b.toFin

theorem decode_encode : decode (encode b ++ rest) = b :: decode rest := by
  show decode (0x25 :: hexDigit (b / 16) :: hexDigit (b % 16) :: rest) = _
  rw [decode, if_pos rfl, escaped_hexDigit]

theorem decode_flatMap_encode : decode (l.flatMap encode ++ rest) = l ++ decode rest := by
  induction l with
  | nil => rfl
  | cons b l ih =>
    rw [List.flatMap_cons, List.append_assoc, decode_encode, ih, List.cons_append]

/-- What is between parts is the separator. -/
theorem mem_intercalate {x y : UInt8} {parts : List (List UInt8)} (h : y ∈ [x].intercalate parts) :
    y = x ∨ ∃ part ∈ parts, y ∈ part := by
  induction parts with
  | nil => cases h
  | cons part parts ih =>
    cases parts with
    | nil =>
      rw [List.intercalate_singleton] at h
      exact .inr ⟨part, .head _, h⟩
    | cons next parts =>
      rw [List.intercalate_cons_cons, List.append_assoc, List.singleton_append] at h
      rcases List.mem_append.mp h with h | h
      · exact .inr ⟨part, .head _, h⟩
      · rcases List.mem_cons.mp h with h | h
        · exact .inl h
        · rcases ih h with h | ⟨part, hpart, h⟩
          · exact .inl h
          · exact .inr ⟨part, .tail _ hpart, h⟩

/-- Parts without a separator are found again. -/
theorem splitOnP_intercalate {α : Type} {p : α → Bool} {x : α} (hx : p x = true)
    {parts : List (List α)} (hparts : ∀ part ∈ parts, ∀ y ∈ part, p y = false)
    (hne : parts ≠ []) : ([x].intercalate parts).splitOnP p = parts := by
  induction parts with
  | nil => exact absurd rfl hne
  | cons part parts ih =>
    obtain ⟨hpart, hparts⟩ := List.forall_mem_cons.mp hparts
    cases parts with
    | nil =>
      rw [List.intercalate_singleton]
      exact List.splitOnP_eq_singleton hpart
    | cons next parts =>
      rw [List.intercalate_cons_cons, List.append_assoc, List.singleton_append,
        List.splitOnP_append_cons_of_forall_mem hpart x hx, ih hparts (List.cons_ne_nil _ _)]

end Percent
