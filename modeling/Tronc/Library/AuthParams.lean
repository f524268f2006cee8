import Mathlib.Data.List.Basic
import Mathlib.Data.String.Basic

namespace AuthParams

/-- A `tchar`. -/
def isTokenChar (c : Char) : Bool :=
  c.isAlphanum || ['!', '#', '$', '%', '&', '\'', '*', '+', '-', '.', '^', '_', '\x60', '|',
    '~'].contains c

/-- A `quoted-string` after its opening quote: the value, its escapes undone, and what follows the
closing quote. -/
def readQuoted : List Char → Option (List Char × List Char)
  | [] => none
  | ['\\'] => none
  | '\\' :: c :: rest => (readQuoted rest).map fun r => (c :: r.1, r.2)
  | c :: rest =>
    if c = '"' then some ([], rest) else (readQuoted rest).map fun r => (c :: r.1, r.2)

/-- A parameter: its name, and its value as it was before it was quoted. -/
structure Param where
  name : String
  value : String
  deriving DecidableEq, Repr

/-- What begins with a parameter. -/
def readParam (text : List Char) : Option (Param × List Char) :=
  match text.takeWhile isTokenChar, text.dropWhile isTokenChar with
  | c :: name, '=' :: '"' :: rest =>
    (readQuoted rest).map fun r => (⟨.ofList (c :: name), .ofList r.1⟩, r.2)
  | _, _ => none

/-- A parameter, with the scheme of the challenge that begins with it. -/
structure Item where
  scheme : Option String
  param : Param
  deriving DecidableEq, Repr

/-- What begins with a parameter, or with the scheme of a challenge and its first parameter. -/
def readItem (text : List Char) : Option (Item × List Char) :=
  match text.takeWhile isTokenChar, text.dropWhile isTokenChar with
  | c :: scheme, ' ' :: rest =>
    (readParam rest).map fun r => (⟨some (.ofList (c :: scheme)), r.1⟩, r.2)
  | _, _ => (readParam text).map fun r => (⟨none, r.1⟩, r.2)

section Lists

variable {α : Type} (read : List Char → Option (α × List Char))

/-- Everything a text has, with `", "` between. -/
def readEach : Nat → List Char → Option (List α)
  | 0, _ => none
  | fuel + 1, text =>
    match read text with
    | none => none
    | some (a, []) => some [a]
    | some (a, ',' :: ' ' :: rest) => (readEach fuel rest).map (a :: ·)
    | some _ => none

def readAll (text : List Char) : Option (List α) := readEach read (text.length + 1) text

/-- Whether this writing of a value is read as it, whatever follows. -/
def Reads (written : List Char) (a : α) : Prop := ∀ rest, read (written ++ rest) = some (a, rest)

variable {read} {written : List (List Char)} {as : List α}

theorem readEach_intercalate (h : List.Forall₂ (Reads read) written as) (hne : written ≠ [])
    {fuel : Nat} (hfuel : written.length ≤ fuel) :
    readEach read fuel ([',', ' '].intercalate written) = some as := by
  induction h generalizing fuel with
  | nil => exact absurd rfl hne
  | @cons w a written as hreads hrest ih =>
    obtain ⟨fuel, rfl⟩ : ∃ n, fuel = n + 1 := ⟨fuel - 1, by simp at hfuel; omega⟩
    have hread := hreads []
    rw [List.append_nil] at hread
    cases hrest with
    | nil =>
      rw [List.intercalate_singleton, readEach, hread]
    | @cons w' a' written as hreads' hrest =>
      have hshort : (w' :: written).length ≤ fuel := by
        simp at hfuel ⊢
        omega
      have ih := ih (List.cons_ne_nil _ _) hshort
      have hsplit : [',', ' '].intercalate (w :: w' :: written) =
          w ++ ',' :: ' ' :: [',', ' '].intercalate (w' :: written) := by
        simp [List.intercalate_cons_cons]
      rw [hsplit, readEach, hreads]
      simp only [ih, Option.map_some]

theorem intercalate_cons (w : List Char) (written : List (List Char)) :
    [',', ' '].intercalate (w :: written) = w ++ written.flatMap ([',', ' '] ++ ·) := by
  induction written generalizing w with
  | nil => simp
  | cons w' written ih =>
    rw [List.intercalate_cons_cons, ih, List.flatMap_cons]
    simp only [List.append_assoc]

theorem length_intercalate_le : written.length ≤ ([',', ' '].intercalate written).length + 1 := by
  induction written with
  | nil => simp
  | cons w written ih =>
    cases written with
    | nil => simp
    | cons w' written =>
      rw [List.intercalate_cons_cons]
      simp only [List.length_append, List.length_cons] at ih ⊢
      omega

/-- Written with `", "` between, everything is read, and nothing else. -/
theorem readAll_intercalate (h : List.Forall₂ (Reads read) written as) (hne : written ≠ []) :
    readAll read ([',', ' '].intercalate written) = some as :=
  readEach_intercalate h hne length_intercalate_le

end Lists

/-- Each character is written as itself or after a backslash, a quote and a backslash always so. -/
def Escapes (write : Char → List Char) : Prop :=
  ∀ c, write c = ['\\', c] ∨ write c = [c] ∧ c ≠ '"' ∧ c ≠ '\\'

section Written

variable {write : Char → List Char} {name : String}

theorem readQuoted_escaped (c : Char) (text : List Char) :
    readQuoted ('\\' :: c :: text) = (readQuoted text).map fun r => (c :: r.1, r.2) := by
  rw [readQuoted]

theorem readQuoted_plain {c : Char} (hquote : c ≠ '"') (hback : c ≠ '\\') (text : List Char) :
    readQuoted (c :: text) = (readQuoted text).map fun r => (c :: r.1, r.2) := by
  rw [readQuoted, if_neg hquote]
  · intro h
    exact absurd h hback
  · intro _ _ h
    exact absurd h hback

/-- No character of a value ends it. -/
theorem readQuoted_flatMap (h : Escapes write) (value rest : List Char) :
    readQuoted (value.flatMap write ++ '"' :: rest) = some (value, rest) := by
  induction value with
  | nil => rfl
  | cons c value ih =>
    rw [List.flatMap_cons, List.append_assoc]
    rcases h c with hc | ⟨hc, hquote, hback⟩
    · rw [hc]
      show readQuoted ('\\' :: c :: (value.flatMap write ++ '"' :: rest)) = _
      rw [readQuoted_escaped, ih]
      rfl
    · rw [hc]
      show readQuoted (c :: (value.flatMap write ++ '"' :: rest)) = _
      rw [readQuoted_plain hquote hback, ih]
      rfl

/-- A name that a parameter or a scheme may have. -/
def IsToken (name : String) : Prop := name.toList ≠ [] ∧ name.toList.all isTokenChar = true

instance : Decidable (IsToken name) := inferInstanceAs (Decidable (_ ∧ _))

theorem takeWhile_token (h : IsToken name) {c : Char} (hc : isTokenChar c = false)
    (rest : List Char) :
    (name.toList ++ c :: rest).takeWhile isTokenChar = name.toList ∧
      (name.toList ++ c :: rest).dropWhile isTokenChar = c :: rest := by
  have hall := List.all_eq_true.mp h.2
  constructor
  · rw [List.takeWhile_append_of_pos hall, List.takeWhile_cons_of_neg (by simp [hc]),
      List.append_nil]
  · rw [List.dropWhile_append_of_pos hall, List.dropWhile_cons_of_neg (by simp [hc])]

/-- A parameter as it is written. -/
def writeParam (write : Char → List Char) (p : Param) : List Char :=
  p.name.toList ++ '=' :: '"' :: (p.value.toList.flatMap write ++ ['"'])

theorem reads_param (hwrite : Escapes write) {p : Param} (hname : IsToken p.name) :
    Reads readParam (writeParam write p) p := by
  intro rest
  have htext : writeParam write p ++ rest =
      p.name.toList ++ '=' :: '"' :: (p.value.toList.flatMap write ++ '"' :: rest) := by
    simp [writeParam]
  obtain ⟨htake, hdrop⟩ := takeWhile_token hname (c := '=') (by decide)
    ('"' :: (p.value.toList.flatMap write ++ '"' :: rest))
  obtain ⟨c, l, hl⟩ := List.exists_cons_of_ne_nil hname.1
  rw [htext, readParam, htake, hdrop, hl]
  show (readQuoted _).map _ = _
  rw [readQuoted_flatMap hwrite, ← hl, Option.map_some, String.ofList_toList,
    String.ofList_toList]

/-- A parameter begins no challenge. -/
theorem reads_further (hwrite : Escapes write) {p : Param} (hname : IsToken p.name) :
    Reads readItem (writeParam write p) ⟨none, p⟩ := by
  intro rest
  have hread := reads_param hwrite hname rest
  have htext : writeParam write p ++ rest =
      p.name.toList ++ '=' :: '"' :: (p.value.toList.flatMap write ++ '"' :: rest) := by
    simp [writeParam]
  obtain ⟨-, hdrop⟩ := takeWhile_token hname (c := '=') (by decide)
    ('"' :: (p.value.toList.flatMap write ++ '"' :: rest))
  rw [← htext] at hdrop
  unfold readItem
  rw [hdrop]
  split
  · rename_i heq
    cases heq
  · rw [hread]
    rfl

/-- A scheme begins a challenge, with the parameter after it. -/
theorem reads_scheme (hwrite : Escapes write) {scheme : String} (hscheme : IsToken scheme)
    {p : Param} (hname : IsToken p.name) :
    Reads readItem (scheme.toList ++ ' ' :: writeParam write p) ⟨some scheme, p⟩ := by
  intro rest
  have htext : scheme.toList ++ ' ' :: writeParam write p ++ rest =
      scheme.toList ++ ' ' :: (writeParam write p ++ rest) := by
    simp
  obtain ⟨htake, hdrop⟩ := takeWhile_token hscheme (c := ' ') (by decide)
    (writeParam write p ++ rest)
  obtain ⟨c, l, hl⟩ := List.exists_cons_of_ne_nil hscheme.1
  rw [htext, readItem, htake, hdrop, hl]
  show (readParam _).map _ = _
  rw [reads_param hwrite hname, ← hl, Option.map_some, String.ofList_toList]

end Written

end AuthParams
