import Tronc.Json
import Mathlib.Data.List.AList

namespace Tronc.Notify

/-- The merged fields of an event. -/
abbrev Fields := AList fun _ : String => String

/-- What enclosing request spans carry and nobody wants to read. -/
def fieldDenylist : List String :=
  ["uri", "method", "version", "host", "grant_type", "username", "route", "id", "x-request-id"]

/-- The keys the headline consumes. -/
def liftedKeys : List String := ["message", "emoji"]

def isLifted (key : String) : Bool := liftedKeys.contains key

def endsWith (s tail : String) : Bool := tail.toList.isSuffixOf s.toList

def isIdField (key : String) : Bool := endsWith key "_id"

/-- Lower numbers are rendered first. -/
def fieldPriority (key : String) : Nat :=
  if key = "user_email" then 10 else if isIdField key then 90 else 50

/-- `str::replace` of one character. -/
def replaceChar (c : Char) (replacement : String) (text : String) : String :=
  .ofList (text.toList.flatMap fun d => if d = c then replacement.toList else [d])

def escapeMrkdwn (text : String) : String :=
  replaceChar '>' "&gt;" (replaceChar '<' "&lt;" (replaceChar '&' "&amp;" text))

def headline (eventName : String) (fields : Fields) : String :=
  let emoji := (fields.lookup "emoji").filter (· ≠ "")
  let message := ((fields.lookup "message").filter (· ≠ "")).map escapeMrkdwn
  match emoji, message with
  | some e, some m => e ++ " *" ++ eventName ++ "* — " ++ m
  | some e, none => e ++ " *" ++ eventName ++ "*"
  | none, some m => "*" ++ eventName ++ "* — " ++ m
  | none, none => "*" ++ eventName ++ "*"

/-- `str::parse::<u64>`. -/
def parseU64 (s : String) : Option Nat :=
  let digits := match s.toList with
    | '+' :: rest => rest
    | cs => cs
  if digits ≠ [] ∧ digits.all Char.isDigit then
    let n := digits.foldl (fun n c => 10 * n + (c.toNat - 48)) 0
    if n < 2^64 then some n else none
  else none

/-- A text of digits has no sign to read. -/
theorem parseU64_digits {text : String} (hne : text.toList ≠ [])
    (hdigits : ∀ c ∈ text.toList, c.isDigit = true) :
    parseU64 text =
      if text.toList.foldl (fun n c => 10 * n + (c.toNat - 48)) 0 < 2 ^ 64 then
        some (text.toList.foldl (fun n c => 10 * n + (c.toNat - 48)) 0)
      else none := by
  obtain ⟨c, rest, hlist⟩ := List.exists_cons_of_ne_nil hne
  have hdigit : c.isDigit = true := hdigits c (by rw [hlist]; exact List.mem_cons_self)
  have hsign : c ≠ '+' := by
    rintro rfl
    exact absurd hdigit (by decide)
  have hall : text.toList.all Char.isDigit = true := List.all_eq_true.mpr hdigits
  unfold parseU64
  rw [hlist] at hall ⊢
  split
  · rename_i h
    exact absurd (List.cons.inj h).1 hsign
  · rw [if_pos ⟨List.cons_ne_nil _ _, hall⟩]

/-- A number of 64 bits is read back from its decimal text. -/
theorem parseU64_repr (n : UInt64) : parseU64 n.toNat.repr = some n.toNat := by
  have hne : n.toNat.repr.toList ≠ [] := by
    rw [Nat.toList_repr]
    exact Nat.toDigits_ne_nil
  have hdigits : ∀ c ∈ n.toNat.repr.toList, c.isDigit = true := by
    intro c hc
    rw [Nat.toList_repr] at hc
    exact Nat.isDigit_of_mem_toDigits (by decide) (by decide) hc
  have hvalue : n.toNat.repr.toList.foldl (fun n c => 10 * n + (c.toNat - 48)) 0 = n.toNat := by
    rw [Nat.toList_repr]
    exact Nat.ofDigitChars_ten_toDigits
  rw [parseU64_digits hne hdigits, hvalue, if_pos n.toNat_lt]

/-- A number under 1000, in three digits. -/
def threeDigits (n : Nat) : String :=
  toString (n / 100) ++ toString (n / 10 % 10) ++ toString (n % 10)

def formatDurationMs (ms : Nat) : String :=
  if ms < 1000 then toString ms ++ "ms"
  else
    let secs := ms / 1000
    let remMs := ms % 1000
    if secs < 60 then
      if remMs = 0 then toString secs ++ "s"
      else toString secs ++ "." ++ threeDigits remMs ++ "s"
    else if secs < 3600 then
      let m := secs / 60
      let s := secs % 60
      if s = 0 then toString m ++ "m" else toString m ++ "m " ++ toString s ++ "s"
    else
      let h := secs / 3600
      let m := secs % 3600 / 60
      if m = 0 then toString h ++ "h" else toString h ++ "h " ++ toString m ++ "m"

def formatValue (key value : String) : String :=
  match if endsWith key "_ms" then parseU64 value else none with
  | some ms => formatDurationMs ms
  | none => escapeMrkdwn value

/-- The fields `keep` admits, in the order they are rendered in. -/
def rendered (keep : String → Bool) (fields : Fields) : List (String × String) :=
  let filtered := (fields.entries.map fun e => (e.1, e.2)).filter fun e => keep e.1
  filtered.mergeSort fun a b => decide (fieldPriority a.1 < fieldPriority b.1 ∨
    fieldPriority a.1 = fieldPriority b.1 ∧ a.1 ≤ b.1)

def renderable (key : String) : Bool := !isLifted key && !fieldDenylist.contains key

def formatLine (eventName : String) (fields : Fields) : String :=
  let head := headline eventName fields
  let pairs := (rendered renderable fields).map fun e => e.1 ++ "=" ++ formatValue e.1 e.2
  if pairs = [] then head else head ++ "\n" ++ ", ".intercalate pairs

def sectionBlock (eventName text : String) : Json :=
  .object [("type", .string "section"),
    ("text", .object [("type", .string "mrkdwn"), ("text", .string text)]),
    ("block_id", .string ("notify-" ++ eventName))]

/-- The section of the signal fields, and a context block for the identifiers if there are any. -/
def eventBlocks (eventName : String) (fields : Fields) : List Json :=
  let signal := rendered (fun k => renderable k && !isIdField k) fields
  let pairs := signal.map fun e => e.1 ++ "=" ++ formatValue e.1 e.2
  let text := if pairs = [] then headline eventName fields
    else headline eventName fields ++ "\n" ++ ", ".intercalate pairs
  let ids := rendered (fun k => renderable k && isIdField k) fields
  let context := "  ·  ".intercalate (ids.map fun e => e.1 ++ "=" ++ escapeMrkdwn e.2)
  sectionBlock eventName text :: if ids = [] then [] else
    [.object [("type", .string "context"),
      ("elements", .array [.object [("type", .string "mrkdwn"), ("text", .string context)]])]]

def singleLineBlocks (eventName line : String) : List Json := [sectionBlock eventName line]

end Tronc.Notify
