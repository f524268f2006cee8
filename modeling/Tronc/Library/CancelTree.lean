import Mathlib.Data.List.Infix

namespace CancelTree

/-- A cancellation token, by its line of descent: its own number, and then its parent's line. -/
structure Token where
  line : List Nat
  deriving DecidableEq

/-- Whether `u` is `t`, or descends from it. -/
def Token.isUnder (u t : Token) : Bool := t.line.isSuffixOf u.line

/-- The tokens made so far, and those that `cancel` was called on. -/
structure Tokens where
  made : List Token
  cancelled : List Token
  deriving DecidableEq

namespace Tokens

def empty : Tokens := ⟨[], []⟩

/-- A new token, under its parent's when it has one. -/
def child (ts : Tokens) (parent : Option Token) : Token :=
  ⟨ts.made.length :: parent.elim [] Token.line⟩

def make (ts : Tokens) (t : Token) : Tokens := { ts with made := t :: ts.made }

/-- Cancelling a token cancels all that descend from it, those made later too. -/
def cancel (ts : Tokens) (t : Token) : Tokens := { ts with cancelled := t :: ts.cancelled }

def isCancelled (ts : Tokens) (u : Token) : Bool := ts.cancelled.any u.isUnder

/-- The numbers in use are below that of the next token. -/
def Numbered (ts : Tokens) : Prop := ∀ t ∈ ts.made, ∀ n ∈ t.line, n < ts.made.length

variable {ts : Tokens} {t u : Token}

@[simp] theorem isUnder_self (t : Token) : t.isUnder t = true := by
  unfold Token.isUnder
  rw [List.isSuffixOf_iff_suffix]

theorem isCancelled_cancel : (ts.cancel t).isCancelled u = true ↔
    ts.isCancelled u = true ∨ u.isUnder t = true := by
  unfold isCancelled cancel
  rw [List.any_cons, Bool.or_eq_true, or_comm]

@[simp] theorem isCancelled_make (ts : Tokens) (t u : Token) :
    (ts.make t).isCancelled u = ts.isCancelled u := rfl

@[simp] theorem made_cancel (ts : Tokens) (t : Token) : (ts.cancel t).made = ts.made := rfl

/-- Several tokens cancelled one after the other. -/
theorem isCancelled_foldl (l : List Token) : (l.foldl cancel ts).isCancelled u = true ↔
    ts.isCancelled u = true ∨ ∃ t ∈ l, u.isUnder t = true := by
  induction l generalizing ts with
  | nil => simp
  | cons t l ih =>
    rw [List.foldl_cons, ih, isCancelled_cancel, or_assoc, List.exists_mem_cons_iff]

@[simp] theorem made_foldl (ts : Tokens) (l : List Token) : (l.foldl cancel ts).made = ts.made := by
  induction l generalizing ts with
  | nil => rfl
  | cons t l ih => rw [List.foldl_cons, ih, made_cancel]

theorem Numbered.make (h : ts.Numbered) {parent : Option Token}
    (hp : ∀ t, parent = some t → t ∈ ts.made) : (ts.make (ts.child parent)).Numbered := by
  intro t ht n hn
  have hlen : (ts.make (ts.child parent)).made.length = ts.made.length + 1 := rfl
  rw [hlen]
  rcases List.mem_cons.mp ht with rfl | ht
  · rcases List.mem_cons.mp hn with rfl | hn
    · exact Nat.lt_succ_self _
    · cases parent with
      | none => cases hn
      | some p => exact Nat.lt_succ_of_lt (h p (hp p rfl) n hn)
  · exact Nat.lt_succ_of_lt (h t ht n hn)

/-- No token made before is the new one. -/
theorem Numbered.child_ne (h : ts.Numbered) {parent : Option Token} (ht : t ∈ ts.made) :
    t ≠ ts.child parent := by
  rintro rfl
  exact Nat.lt_irrefl _ (h _ ht _ List.mem_cons_self)

end Tokens

end CancelTree
