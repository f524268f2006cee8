import Tronc.Library.Transition

namespace Courier

open Transition

/-- What a sender makes of an answer: it is done, or it waits and posts again. -/
inductive Verdict (σ R : Type*) where
  | done (result : R)
  | again (wait : Nat) (next : σ)

/-- A sender's loop: where it starts, what it posts of its parcel, and what it makes of an answer. -/
structure Loop (P Q σ A R : Type*) where
  start : σ
  request : P → Q
  judge : σ → A → Verdict σ R

/-- Where a loop is. -/
inductive Stage (σ R : Type*) where
  | posted (state : σ)
  | resting (state : σ)
  | ended (result : R)
  deriving DecidableEq

namespace Stage

variable {σ R : Type*}

def isPosted : Stage σ R → Bool
  | posted _ => true
  | resting _ | ended _ => false

def isEnded : Stage σ R → Bool
  | ended _ => true
  | posted _ | resting _ => false

def awake : Stage σ R → Stage σ R
  | resting state => posted state
  | posted state => posted state
  | ended result => ended result

end Stage

/-- How long a loop waited each time, and where that leaves it. -/
structure Course (σ R : Type*) where
  waits : List Nat
  stage : Stage σ R
  deriving DecidableEq

namespace Loop

variable {P Q σ A R : Type*} (loop : Loop P Q σ A R)

/-- The course of a loop over the answers it is given, from a state; what comes after its end makes no
difference. -/
def courseFrom : σ → List A → Course σ R
  | state, [] => ⟨[], .posted state⟩
  | state, a :: rest =>
    match loop.judge state a with
    | .done result => ⟨[], .ended result⟩
    | .again wait next => ⟨wait :: (courseFrom next rest).waits, (courseFrom next rest).stage⟩

def course (answers : List A) : Course σ R := loop.courseFrom loop.start answers

end Loop

/-- What has become of a copy: it is on its way, or the service has taken it in or refused it. -/
inductive Fate where
  | flying
  | taken
  | refused
  deriving DecidableEq

structure Copy (Q : Type*) where
  sender : Nat
  request : Q
  fate : Fate
  deriving DecidableEq

structure Sender (P σ R : Type*) where
  parcel : P
  waits : List Nat
  stage : Stage σ R
  deriving DecidableEq

/-- Every sender so far and every copy they posted. -/
structure World (P Q σ R : Type*) where
  senders : List (Sender P σ R)
  copies : List (Copy Q)
  deriving DecidableEq

namespace World

variable {P Q σ A R : Type*}

inductive Event (P A : Type*) where
  | send (parcel : P)
  /-- A copy arrives, and is taken in or refused. -/
  | arrive (copy : Nat) (taken : Bool)
  | answer (sender : Nat) (answer : A)
  | wake (sender : Nat)

variable (loop : Loop P Q σ A R) (s : World P Q σ R)

def copiesOf (i : Nat) : List (Copy Q) := s.copies.filter fun c => c.sender = i

def takenOf (i : Nat) : List (Copy Q) := (s.copiesOf i).filter fun c => c.fate = .taken

def post (i : Nat) (request : Q) : World P Q σ R :=
  { s with copies := s.copies ++ [⟨i, request, .flying⟩] }

def heard (i : Nat) (sender : Sender P σ R) : Verdict σ R → World P Q σ R
  | .done result => { s with senders := s.senders.set i { sender with stage := .ended result } }
  | .again wait next =>
    { s with
      senders := s.senders.set i
        { sender with waits := sender.waits ++ [wait], stage := .resting next } }

def step : Event P A → Option (World P Q σ R)
  | .send parcel =>
    some (({ s with senders := s.senders ++ [⟨parcel, [], .posted loop.start⟩] } : World P Q σ R).post
      s.senders.length (loop.request parcel))
  | .arrive k taken =>
    match s.copies[k]? with
    | some ⟨i, request, .flying⟩ =>
      some { s with copies := s.copies.set k ⟨i, request, if taken then .taken else .refused⟩ }
    | _ => none
  | .answer i a =>
    match s.senders[i]? with
    | some ⟨parcel, waits, .posted state⟩ =>
      some (s.heard i ⟨parcel, waits, .posted state⟩ (loop.judge state a))
    | _ => none
  | .wake i =>
    match s.senders[i]? with
    | some ⟨parcel, waits, .resting state⟩ =>
      some (({ s with senders := s.senders.set i ⟨parcel, waits, .posted state⟩ } : World P Q σ R).post
        i (loop.request parcel))
    | _ => none

end World

/-- What an answer may tell of the copy it answers: the service's side of the matter. -/
structure Honesty (A : Type*) where
  tells : Fate → A → Prop
  /-- An answer that may come while the copy flies tells nothing of what becomes of it. -/
  early : ∀ fate a, tells .flying a → tells fate a

/-- The senders of a loop and a service that is honest in its answers. -/
def deliveries {P Q σ A R : Type*} (loop : Loop P Q σ A R) (honesty : Honesty A) :
    Lts (World P Q σ R) (World.Event P A) where
  init s := s = ⟨[], []⟩
  step s e t := s.step loop e = some t ∧
    ∀ i a, e = .answer i a → ∀ c, (s.copiesOf i).getLast? = some c → honesty.tells c.fate a

section Courses

variable {P Q σ A R : Type*} {loop : Loop P Q σ A R} {state : σ}

/-- One more answer, to a loop that has a post out. -/
theorem Loop.courseFrom_snoc {answers : List A} {waits : List Nat} {next : σ} (a : A)
    (h : loop.courseFrom state answers = ⟨waits, .posted next⟩) :
    loop.courseFrom state (answers ++ [a]) =
      match loop.judge next a with
      | .done result => ⟨waits, .ended result⟩
      | .again wait next => ⟨waits ++ [wait], .posted next⟩ := by
  induction answers generalizing state waits with
  | nil =>
    obtain ⟨rfl, hstage⟩ := Course.mk.inj h
    obtain rfl := Stage.posted.inj hstage
    simp only [courseFrom, List.nil_append]
  | cons b answers ih =>
    rw [List.cons_append]
    simp only [courseFrom] at h ⊢
    cases hb : loop.judge state b with
    | done result =>
      rw [hb] at h
      cases (Course.mk.inj h).2
    | again wait following =>
      rw [hb] at h
      obtain ⟨rfl, hstage⟩ := Course.mk.inj h
      have hrest : loop.courseFrom following answers =
          ⟨(loop.courseFrom following answers).waits, .posted next⟩ := by
        rw [← hstage]
      dsimp only
      rw [ih hrest]
      cases loop.judge next a <;> simp

/-- What holds of a loop's state by how often it has waited. -/
structure Loop.Keeps (loop : Loop P Q σ A R) (J : Nat → σ → Prop) : Prop where
  start : J 0 loop.start
  again : ∀ n state a wait next, J n state → loop.judge state a = .again wait next → J (n + 1) next

theorem Loop.keeps_true (loop : Loop P Q σ A R) : loop.Keeps fun _ _ => True :=
  ⟨trivial, fun _ _ _ _ _ _ _ => trivial⟩

/-- Each wait is for the answer it follows. -/
theorem Loop.Keeps.waited_for {J : Nat → σ → Prop} (hJ : loop.Keeps J) {answers : List A}
    {n j wait : Nat} (hstate : J n state)
    (h : (loop.courseFrom state answers).waits[j]? = some wait) :
    ∃ a before next, answers[j]? = some a ∧ loop.judge before a = .again wait next ∧
      J (n + j) before := by
  induction answers generalizing state n j with
  | nil => simp [courseFrom] at h
  | cons b answers ih =>
    simp only [courseFrom] at h
    cases hb : loop.judge state b with
    | done result =>
      rw [hb] at h
      simp at h
    | again first following =>
      rw [hb] at h
      cases j with
      | zero =>
        obtain rfl := Option.some.inj h
        exact ⟨b, state, following, rfl, hb, hstate⟩
      | succ j =>
        have hrest := ih (hJ.again n state b first following hstate hb) h
        rw [Nat.add_right_comm, Nat.add_assoc] at hrest
        exact hrest

/-- The end is for the answer after the last wait. -/
theorem Loop.Keeps.ended_for {J : Nat → σ → Prop} (hJ : loop.Keeps J) {answers : List A}
    {waits : List Nat} {result : R} {n : Nat} (hstate : J n state)
    (h : loop.courseFrom state answers = ⟨waits, .ended result⟩) :
    ∃ a before, answers[waits.length]? = some a ∧ loop.judge before a = .done result ∧
      J (n + waits.length) before := by
  induction answers generalizing state waits n with
  | nil => cases (Course.mk.inj h).2
  | cons b answers ih =>
    simp only [courseFrom] at h
    cases hb : loop.judge state b with
    | done done =>
      rw [hb] at h
      obtain ⟨rfl, hstage⟩ := Course.mk.inj h
      obtain rfl := Stage.ended.inj hstage
      exact ⟨b, state, rfl, hb, hstate⟩
    | again wait following =>
      rw [hb] at h
      obtain ⟨rfl, hstage⟩ := Course.mk.inj h
      have hcourse : loop.courseFrom following answers =
          ⟨(loop.courseFrom following answers).waits, .ended result⟩ := by
        rw [← hstage]
      have hrest := ih (hJ.again n state b wait following hstate hb) hcourse
      rw [Nat.add_right_comm, Nat.add_assoc] at hrest
      exact hrest

end Courses

end Courier
