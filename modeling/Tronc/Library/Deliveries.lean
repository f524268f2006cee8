import Mathlib.Data.List.Forall2
import Tronc.Library.Courier

namespace Courier

open Transition

/-- The answers that a sender was told. -/
def answersTo {P Q σ A R : Type*} (tr : List (Taken (World P Q σ R) (World.Event P A))) (i : Nat) :
    List A :=
  tr.filterMap fun x => match x.label with
    | .answer j a => if j = i then some a else none
    | .send _ | .arrive _ _ | .wake _ => none

/-- Every sender is where its loop goes with the answers it was told; its copies are of its own parcel,
one for each answer and one more while a post is out, and each is what its answer tells. -/
structure Explained {P Q σ A R : Type*} (loop : Loop P Q σ A R) (honesty : Honesty A)
    (tr : List (Taken (World P Q σ R) (World.Event P A))) (s : World P Q σ R) : Prop where
  course : ∀ i sender, s.senders[i]? = some sender →
    loop.course (answersTo tr i) = ⟨sender.waits, sender.stage.awake⟩
  counted : ∀ i sender, s.senders[i]? = some sender →
    (answersTo tr i).length = sender.waits.length + if sender.stage.isEnded then 1 else 0
  quiet : ∀ i, s.senders.length ≤ i → answersTo tr i = []
  owned : ∀ c ∈ s.copies, ∃ sender, s.senders[c.sender]? = some sender ∧ c.request = loop.request sender.parcel
  posts : ∀ i sender, s.senders[i]? = some sender →
    (s.copiesOf i).length = (answersTo tr i).length + if sender.stage.isPosted then 1 else 0
  told : ∀ (i j : Nat) (c : Copy Q) (a : A), (s.copiesOf i)[j]? = some c →
    (answersTo tr i)[j]? = some a → honesty.tells c.fate a

section Runs

variable {P Q σ A R : Type*} {loop : Loop P Q σ A R} {honesty : Honesty A} {s t : World P Q σ R}
  {e : World.Event P A} {tr : List (Taken (World P Q σ R) (World.Event P A))}

theorem answersTo_snoc_answer (i j : Nat) (a : A) :
    answersTo (tr ++ [⟨s, .answer j a, t⟩]) i = answersTo tr i ++ if j = i then [a] else [] := by
  unfold answersTo
  rw [List.filterMap_append]
  by_cases h : j = i <;> simp [h]

theorem answersTo_snoc (i : Nat) (h : ∀ j a, e ≠ .answer j a) :
    answersTo (tr ++ [⟨s, e, t⟩]) i = answersTo tr i := by
  unfold answersTo
  rw [List.filterMap_append]
  cases e with
  | answer j a => exact absurd rfl (h j a)
  | send | arrive | wake => simp

theorem World.copiesOf_post (i j : Nat) (request : Q) : (s.post i request).copiesOf j =
    s.copiesOf j ++ if i = j then [⟨i, request, .flying⟩] else [] := by
  unfold copiesOf post
  rw [List.filter_append]
  by_cases h : i = j <;> simp [h]

theorem getElem?_set_of_some {l : List (Sender P σ R)} {i : Nat} {sender new : Sender P σ R}
    (h : l[i]? = some sender) : (l.set i new)[i]? = some new :=
  List.getElem?_set_self (List.getElem?_eq_some_iff.mp h).1

theorem Explained.start : Explained loop honesty [] (⟨[], []⟩ : World P Q σ R) := by
  refine ⟨?_, ?_, ?_, ?_, ?_, ?_⟩
  · intro i sender h
    simp at h
  · intro i sender h
    simp at h
  · intro i _
    rfl
  · intro c h
    exact absurd h List.not_mem_nil
  · intro i sender h
    simp at h
  · intro i j c a h _
    simp [World.copiesOf] at h

/-- A sender that there is not has posted nothing. -/
theorem Explained.copiesOf_eq_nil (h : Explained loop honesty tr s) {i : Nat}
    (hi : s.senders.length ≤ i) : s.copiesOf i = [] := by
  refine List.filter_eq_nil_iff.mpr ?_
  intro c hc hsender
  obtain ⟨sender, hget, -⟩ := h.owned c hc
  have hlt : c.sender < s.senders.length := (List.getElem?_eq_some_iff.mp hget).1
  have heq : c.sender = i := of_decide_eq_true hsender
  omega

/-- One more post of a sender's parcel, while it has been told of all the others. -/
theorem told_post (h : Explained loop honesty tr s) {k : Nat} {request : Q}
    (hlength : (s.copiesOf k).length = (answersTo tr k).length) {i j : Nat} {c : Copy Q} {a : A}
    (hc : (s.copiesOf i ++ if k = i then [⟨k, request, .flying⟩] else [])[j]? = some c)
    (ha : (answersTo tr i)[j]? = some a) : honesty.tells c.fate a := by
  by_cases hk : k = i
  · subst hk
    have hj : j < (s.copiesOf k).length := by
      rw [hlength]
      exact (List.getElem?_eq_some_iff.mp ha).1
    rw [List.getElem?_append_left hj] at hc
    exact h.told k j c a hc ha
  · rw [if_neg hk, List.append_nil] at hc
    exact h.told i j c a hc ha

theorem Explained.sends (h : Explained loop honesty tr s) {parcel : P}
    (hstep : s.step loop (.send parcel) = some t) :
    Explained loop honesty (tr ++ [⟨s, .send parcel, t⟩]) t := by
  have hsame (i : Nat) : answersTo (tr ++ [⟨s, .send parcel, t⟩]) i = answersTo tr i :=
    answersTo_snoc i (by intro _ _ heq; cases heq)
  obtain rfl := Option.some.inj hstep
  have hnone : s.copiesOf s.senders.length = [] := h.copiesOf_eq_nil (Nat.le_refl _)
  have hquiet : answersTo tr s.senders.length = [] := h.quiet _ (Nat.le_refl _)
  have hnew {i : Nat} {sender : Sender P σ R}
      (hi : (s.senders ++ [⟨parcel, [], .posted loop.start⟩])[i]? = some sender) :
      s.senders[i]? = some sender ∧ i ≠ s.senders.length ∨
        i = s.senders.length ∧ sender = ⟨parcel, [], .posted loop.start⟩ := by
    rcases Nat.lt_trichotomy i s.senders.length with hlt | heq | hgt
    · rw [List.getElem?_append_left hlt] at hi
      exact .inl ⟨hi, Nat.ne_of_lt hlt⟩
    · subst heq
      rw [List.getElem?_concat_length] at hi
      exact .inr ⟨rfl, (Option.some.inj hi).symm⟩
    · have hout : (s.senders ++ [(⟨parcel, [], .posted loop.start⟩ : Sender P σ R)]).length ≤ i := by
        rw [List.length_append, List.length_singleton]
        omega
      rw [List.getElem?_eq_none hout] at hi
      cases hi
  refine ⟨?_, ?_, ?_, ?_, ?_, ?_⟩
  · intro i sender hi
    rw [hsame]
    rcases hnew hi with ⟨hold, _⟩ | ⟨rfl, rfl⟩
    · exact h.course i sender hold
    · rw [hquiet]
      rfl
  · intro i sender hi
    rw [hsame]
    rcases hnew hi with ⟨hold, _⟩ | ⟨rfl, rfl⟩
    · exact h.counted i sender hold
    · rw [hquiet]
      rfl
  · intro i hi
    have hlength : s.senders.length ≤ i := by
      simp [World.post] at hi
      omega
    rw [hsame]
    exact h.quiet i hlength
  · intro c hc
    rcases List.mem_append.mp hc with hc | hc
    · obtain ⟨sender, hget, hparcel⟩ := h.owned c hc
      have hlt : c.sender < s.senders.length := (List.getElem?_eq_some_iff.mp hget).1
      refine ⟨sender, ?_, hparcel⟩
      show (s.senders ++ [_])[c.sender]? = some sender
      rw [List.getElem?_append_left hlt]
      exact hget
    · rw [List.mem_singleton.mp hc]
      exact ⟨⟨parcel, [], .posted loop.start⟩, List.getElem?_concat_length, rfl⟩
  · intro i sender hi
    rw [hsame, World.copiesOf_post]
    rcases hnew hi with ⟨hold, hne⟩ | ⟨rfl, rfl⟩
    · rw [if_neg (Ne.symm hne), List.append_nil]
      exact h.posts i sender hold
    · rw [if_pos rfl]
      show (s.copiesOf s.senders.length ++ _).length = _
      rw [hnone, hquiet]
      rfl
  · intro i j c a hc ha
    rw [hsame] at ha
    rw [World.copiesOf_post] at hc
    exact told_post h (by rw [hnone, hquiet]; rfl) hc ha

theorem getElem?_set_cases {l : List (Sender P σ R)} {k i : Nat} {old new sender : Sender P σ R}
    (hold : l[k]? = some old) (h : (l.set k new)[i]? = some sender) :
    k = i ∧ sender = new ∨ k ≠ i ∧ l[i]? = some sender := by
  by_cases hk : k = i
  · subst hk
    rw [getElem?_set_of_some hold] at h
    exact .inl ⟨rfl, (Option.some.inj h).symm⟩
  · rw [List.getElem?_set_ne hk] at h
    exact .inr ⟨hk, h⟩

/-- A sender that changes keeps its parcel, so the copies are still those of their senders. -/
theorem owned_set {k : Nat} {old : Sender P σ R} (new : Sender P σ R) (hold : s.senders[k]? = some old)
    (hparcel : new.parcel = old.parcel) {c : Copy Q}
    (hc : ∃ sender, s.senders[c.sender]? = some sender ∧ c.request = loop.request sender.parcel) :
    ∃ sender, (s.senders.set k new)[c.sender]? = some sender ∧ c.request = loop.request sender.parcel := by
  obtain ⟨sender, hget, heq⟩ := hc
  by_cases hk : k = c.sender
  · subst hk
    obtain rfl := Option.some.inj (hold.symm.trans hget)
    exact ⟨new, getElem?_set_of_some hold, heq.trans (congrArg loop.request hparcel.symm)⟩
  · exact ⟨sender, by rw [List.getElem?_set_ne hk]; exact hget, heq⟩

theorem Explained.wakes (h : Explained loop honesty tr s) {k : Nat}
    (hstep : s.step loop (.wake k) = some t) :
    Explained loop honesty (tr ++ [⟨s, .wake k, t⟩]) t := by
  have hsame (i : Nat) : answersTo (tr ++ [⟨s, .wake k, t⟩]) i = answersTo tr i :=
    answersTo_snoc i (by intro _ _ heq; cases heq)
  simp only [World.step] at hstep
  split at hstep
  · rename_i parcel waits state hk
    obtain rfl := Option.some.inj hstep
    have hlength : (s.copiesOf k).length = (answersTo tr k).length := h.posts k _ hk
    refine ⟨?_, ?_, ?_, ?_, ?_, ?_⟩
    · intro i sender hi
      rw [hsame]
      rcases getElem?_set_cases hk hi with ⟨rfl, rfl⟩ | ⟨_, hold⟩
      · exact h.course k ⟨parcel, waits, .resting state⟩ hk
      · exact h.course i sender hold
    · intro i sender hi
      rw [hsame]
      rcases getElem?_set_cases hk hi with ⟨rfl, rfl⟩ | ⟨_, hold⟩
      · exact h.counted k ⟨parcel, waits, .resting state⟩ hk
      · exact h.counted i sender hold
    · intro i hi
      have hi : s.senders.length ≤ i := by simpa [World.post] using hi
      rw [hsame]
      exact h.quiet i hi
    · intro c hc
      rcases List.mem_append.mp hc with hc | hc
      · exact owned_set ⟨parcel, waits, .posted state⟩ hk rfl (h.owned c hc)
      · rw [List.mem_singleton.mp hc]
        exact ⟨⟨parcel, waits, .posted state⟩, getElem?_set_of_some hk, rfl⟩
    · intro i sender hi
      rw [hsame, World.copiesOf_post]
      rcases getElem?_set_cases hk hi with ⟨rfl, rfl⟩ | ⟨hne, hold⟩
      · rw [if_pos rfl, List.length_append]
        show (s.copiesOf k).length + 1 = _
        rw [hlength]
        rfl
      · rw [if_neg hne, List.append_nil]
        exact h.posts i sender hold
    · intro i j c a hc ha
      rw [hsame] at ha
      rw [World.copiesOf_post] at hc
      exact told_post h hlength hc ha
  · cases hstep

/-- What a sender makes of an answer, as its loop has it. -/
theorem step_answer {k : Nat} {a : A} {answers : List A} {parcel : P} {waits : List Nat} {state : σ}
    (hk : s.senders[k]? = some ⟨parcel, waits, .posted state⟩)
    (hcourse : loop.course answers = ⟨waits, .posted state⟩) (hcount : answers.length = waits.length)
    (hstep : s.step loop (.answer k a) = some t) :
    ∃ new : Sender P σ R, loop.course (answers ++ [a]) = ⟨new.waits, new.stage.awake⟩ ∧
      (answers ++ [a]).length = new.waits.length + (if new.stage.isEnded then 1 else 0) ∧
      new.parcel = parcel ∧ new.stage.isPosted = false ∧ t.copies = s.copies ∧
      t.senders = s.senders.set k new := by
  have hnext := Loop.courseFrom_snoc a hcourse
  simp only [World.step, hk] at hstep
  cases hjudge : loop.judge state a with
  | done result =>
    rw [hjudge] at hnext hstep
    obtain rfl := Option.some.inj hstep
    have hone : (answers ++ [a]).length = waits.length + 1 := by simp [hcount]
    exact ⟨⟨parcel, waits, .ended result⟩, hnext, hone, rfl, rfl, rfl, rfl⟩
  | again wait next =>
    rw [hjudge] at hnext hstep
    obtain rfl := Option.some.inj hstep
    have hone : (answers ++ [a]).length = (waits ++ [wait]).length := by simp [hcount]
    exact ⟨⟨parcel, waits ++ [wait], .resting next⟩, hnext, hone, rfl, rfl, rfl, rfl⟩

/-- One more answer to a sender, which is to the copy it posted last. -/
theorem told_answer (h : Explained loop honesty tr s) {k : Nat} {a : A}
    (hlength : (s.copiesOf k).length = (answersTo tr k).length + 1)
    (hhonest : ∀ c, (s.copiesOf k).getLast? = some c → honesty.tells c.fate a) {j : Nat} {c : Copy Q}
    {b : A} (hc : (s.copiesOf k)[j]? = some c) (hb : (answersTo tr k ++ [a])[j]? = some b) :
    honesty.tells c.fate b := by
  rcases Nat.lt_or_ge j (answersTo tr k).length with hlt | hge
  · rw [List.getElem?_append_left hlt] at hb
    exact h.told k j c b hc hb
  · have hj : j < (s.copiesOf k).length := (List.getElem?_eq_some_iff.mp hc).1
    have hlast : j = (s.copiesOf k).length - 1 := by omega
    have hsame : j = (answersTo tr k).length := by omega
    rw [hsame, List.getElem?_concat_length] at hb
    obtain rfl := Option.some.inj hb
    apply hhonest
    rw [List.getLast?_eq_getElem?, ← hlast]
    exact hc

theorem Explained.answers (h : Explained loop honesty tr s) {k : Nat} {a : A}
    (hstep : s.step loop (.answer k a) = some t)
    (hhonest : ∀ c, (s.copiesOf k).getLast? = some c → honesty.tells c.fate a) :
    Explained loop honesty (tr ++ [⟨s, .answer k a, t⟩]) t := by
  have hother {i : Nat} (hk : k ≠ i) :
      answersTo (tr ++ [⟨s, .answer k a, t⟩]) i = answersTo tr i := by
    rw [answersTo_snoc_answer, if_neg hk, List.append_nil]
  have hown : answersTo (tr ++ [⟨s, .answer k a, t⟩]) k = answersTo tr k ++ [a] := by
    rw [answersTo_snoc_answer, if_pos rfl]
  have hfull := hstep
  simp only [World.step] at hstep
  split at hstep
  · rename_i parcel waits state hk
    have hlength : (s.copiesOf k).length = (answersTo tr k).length + 1 := h.posts k _ hk
    obtain ⟨new, hnew, hcounted, hparcel, hposted, hcopies, hsenders⟩ :=
      step_answer hk (h.course k _ hk) (h.counted k _ hk) hfull
    have hkept (i : Nat) : t.copiesOf i = s.copiesOf i := by
      unfold World.copiesOf
      rw [hcopies]
    refine ⟨?_, ?_, ?_, ?_, ?_, ?_⟩
    · intro i sender hi
      rw [hsenders] at hi
      rcases getElem?_set_cases hk hi with ⟨rfl, rfl⟩ | ⟨hne, hold⟩
      · rw [hown]
        exact hnew
      · rw [hother hne]
        exact h.course i sender hold
    · intro i sender hi
      rw [hsenders] at hi
      rcases getElem?_set_cases hk hi with ⟨rfl, rfl⟩ | ⟨hne, hold⟩
      · rw [hown]
        exact hcounted
      · rw [hother hne]
        exact h.counted i sender hold
    · intro i hi
      rw [hsenders, List.length_set] at hi
      have hlt : k < s.senders.length := (List.getElem?_eq_some_iff.mp hk).1
      have hne : k ≠ i := by omega
      rw [hother hne]
      exact h.quiet i hi
    · intro c hc
      rw [hcopies] at hc
      rw [hsenders]
      exact owned_set new hk hparcel (h.owned c hc)
    · intro i sender hi
      rw [hsenders] at hi
      rw [hkept]
      rcases getElem?_set_cases hk hi with ⟨rfl, rfl⟩ | ⟨hne, hold⟩
      · rw [hown, hposted, hlength, List.length_append]
        rfl
      · rw [hother hne]
        exact h.posts i sender hold
    · intro i j c b hc hb
      rw [hkept] at hc
      by_cases hne : k = i
      · subst hne
        rw [hown] at hb
        exact told_answer h hlength hhonest hc hb
      · rw [hother hne] at hb
        exact h.told i j c b hc hb
  · cases hstep

/-- What there is of a copy once one has arrived. -/
theorem forall₂_set {l : List (Copy Q)} {k : Nat} {c d : Copy Q} {Q : Copy Q → Copy Q → Prop}
    (hrefl : ∀ c, Q c c) (hk : l[k]? = some c) (hcd : Q c d) : List.Forall₂ Q l (l.set k d) := by
  induction l generalizing k with
  | nil => simp at hk
  | cons b l ih =>
    cases k with
    | zero =>
      obtain rfl := Option.some.inj hk
      exact .cons hcd (List.forall₂_same.mpr fun c _ => hrefl c)
    | succ k => exact .cons (hrefl b) (ih hk)

/-- A copy that is the same, or was on its way. -/
def Copy.Lands (c d : Copy Q) : Prop :=
  d.sender = c.sender ∧ d.request = c.request ∧ (c.fate = .flying ∨ d = c)

theorem Explained.arrives (h : Explained loop honesty tr s) {k : Nat} {taken : Bool}
    (hstep : s.step loop (.arrive k taken) = some t) :
    Explained loop honesty (tr ++ [⟨s, .arrive k taken, t⟩]) t := by
  have hsame (i : Nat) : answersTo (tr ++ [⟨s, .arrive k taken, t⟩]) i = answersTo tr i :=
    answersTo_snoc i (by intro _ _ heq; cases heq)
  simp only [World.step] at hstep
  split at hstep
  · rename_i owner parcel hk
    obtain rfl := Option.some.inj hstep
    have hland : List.Forall₂ Copy.Lands s.copies
        (s.copies.set k ⟨owner, parcel, if taken then .taken else .refused⟩) :=
      forall₂_set (fun _ => ⟨rfl, rfl, .inr rfl⟩) hk ⟨rfl, rfl, .inl rfl⟩
    have hof (i : Nat) : List.Forall₂ Copy.Lands (s.copiesOf i)
        (({ s with copies := s.copies.set k ⟨owner, parcel,
          if taken then .taken else .refused⟩ } : World P Q σ R).copiesOf i) := by
      refine List.rel_filter ?_ hland
      intro c d hcd
      have hsender : d.sender = c.sender := hcd.1
      simp [hsender]
    refine ⟨?_, ?_, ?_, ?_, ?_, ?_⟩
    · intro i sender hi
      rw [hsame]
      exact h.course i sender hi
    · intro i sender hi
      rw [hsame]
      exact h.counted i sender hi
    · intro i hi
      rw [hsame]
      exact h.quiet i hi
    · intro d hd
      obtain ⟨j, hj, rfl⟩ := List.mem_iff_getElem.mp hd
      have hj' : j < s.copies.length := by rwa [hland.length_eq]
      have hlands := List.forall₂_iff_get.mp hland |>.2 j hj' hj
      obtain ⟨sender, hget, hparcel⟩ := h.owned _ (List.getElem_mem hj')
      refine ⟨sender, ?_, hlands.2.1.trans hparcel⟩
      rw [← hget]
      exact congrArg _ hlands.1
    · intro i sender hi
      rw [hsame, ← (hof i).length_eq]
      exact h.posts i sender hi
    · intro i j d a hd ha
      rw [hsame] at ha
      obtain ⟨hj, rfl⟩ := List.getElem?_eq_some_iff.mp hd
      have hj' : j < (s.copiesOf i).length := by rwa [(hof i).length_eq]
      have hlands := List.forall₂_iff_get.mp (hof i) |>.2 j hj' hj
      have htold := h.told i j _ a (List.getElem?_eq_getElem hj') ha
      rcases hlands.2.2 with hflying | heq
      · have hfly : (s.copiesOf i)[j].fate = .flying := hflying
        rw [hfly] at htold
        exact honesty.early _ a htold
      · have heq' : _ = (s.copiesOf i)[j] := heq
        rw [← heq'] at htold
        exact htold
  · cases hstep

theorem Explained.step (h : Explained loop honesty tr s)
    (hstep : (deliveries loop honesty).step s e t) :
    Explained loop honesty (tr ++ [⟨s, e, t⟩]) t := by
  cases e with
  | send parcel => exact h.sends hstep.1
  | arrive k taken => exact h.arrives hstep.1
  | answer k a => exact h.answers hstep.1 (hstep.2 k a rfl)
  | wake k => exact h.wakes hstep.1

theorem run_explained {s₀ : World P Q σ R} (h₀ : (deliveries loop honesty).init s₀)
    (h : (deliveries loop honesty).Run s₀ tr s) : Explained loop honesty tr s := by
  induction h with
  | start =>
    obtain rfl := h₀
    exact .start
  | next _ hstep ih => exact ih.step hstep

theorem map_parcel_set {l : List (Sender P σ R)} {k : Nat} {old new : Sender P σ R}
    (hold : l[k]? = some old) (hparcel : new.parcel = old.parcel) :
    (l.set k new).map Sender.parcel = l.map Sender.parcel := by
  obtain ⟨hk, rfl⟩ := List.getElem?_eq_some_iff.mp hold
  have hlength : k < (l.map Sender.parcel).length := by rwa [List.length_map]
  rw [List.map_set, hparcel]
  calc (l.map Sender.parcel).set k l[k].parcel
      = (l.map Sender.parcel).set k (l.map Sender.parcel)[k] := by rw [List.getElem_map]
    _ = l.map Sender.parcel := List.set_getElem_self hlength

/-- Only a new sender brings a parcel. -/
theorem World.step_parcels (hstep : s.step loop e = some t) :
    t.senders.map Sender.parcel = s.senders.map Sender.parcel ∨ ∃ parcel, e = .send parcel ∧
      t.senders.map Sender.parcel = s.senders.map Sender.parcel ++ [parcel] := by
  cases e with
  | send parcel =>
    obtain rfl := Option.some.inj hstep
    exact .inr ⟨parcel, rfl, List.map_append⟩
  | arrive k taken =>
    simp only [step] at hstep
    split at hstep
    · obtain rfl := Option.some.inj hstep
      exact .inl rfl
    · cases hstep
  | answer k a =>
    simp only [step] at hstep
    split at hstep
    · rename_i hk
      obtain rfl := Option.some.inj hstep
      refine .inl ?_
      unfold heard
      split
      · exact map_parcel_set hk rfl
      · exact map_parcel_set hk rfl
    · cases hstep
  | wake k =>
    simp only [step] at hstep
    split at hstep
    · rename_i hk
      obtain rfl := Option.some.inj hstep
      exact .inl (map_parcel_set hk rfl)
    · cases hstep

/-- A list of which all but the last are out. -/
theorem filter_length_le_one {α : Type*} {p : α → Bool} {l : List α} {n : Nat}
    (hlength : l.length ≤ n + 1) (h : ∀ j x, l[j]? = some x → j < n → p x = false) :
    (l.filter p).length ≤ 1 := by
  have hfront : (l.take n).filter p = [] := by
    refine List.filter_eq_nil_iff.mpr ?_
    intro x hx
    obtain ⟨j, hj, rfl⟩ := List.mem_iff_getElem.mp hx
    have hn : j < n := by
      rw [List.length_take] at hj
      omega
    rw [h j _ (by rw [← List.getElem?_take_of_lt hn, List.getElem?_eq_getElem hj]) hn]
    exact Bool.false_ne_true
  have hback : (l.drop n).length ≤ 1 := by
    rw [List.length_drop]
    omega
  calc (l.filter p).length
      = ((l.take n).filter p ++ (l.drop n).filter p).length := by
        rw [← List.filter_append, List.take_append_drop]
    _ = ((l.drop n).filter p).length := by rw [hfront, List.nil_append]
    _ ≤ (l.drop n).length := List.length_filter_le ..
    _ ≤ 1 := hback

/-- The copies of a sender: one for each wait that is over, and one more unless it rests. -/
theorem Explained.copies_le (h : Explained loop honesty tr s) {i : Nat} {sender : Sender P σ R}
    (hi : s.senders[i]? = some sender) : (s.copiesOf i).length ≤ sender.waits.length + 1 := by
  have hposts := h.posts i sender hi
  have hcounted := h.counted i sender hi
  cases hstage : sender.stage <;> simp [hstage, Stage.isPosted, Stage.isEnded] at hposts hcounted <;>
    omega

section Tellings

variable {J : Nat → σ → Prop}

/-- A sender waited for what it was told of the copy it had posted. -/
theorem Explained.waited (h : Explained loop honesty tr s) (hJ : loop.Keeps J) {i : Nat}
    {sender : Sender P σ R} (hi : s.senders[i]? = some sender) {j wait : Nat}
    (hj : sender.waits[j]? = some wait) : ∃ state a next c, J j state ∧
      loop.judge state a = .again wait next ∧ (answersTo tr i)[j]? = some a ∧
        (s.copiesOf i)[j]? = some c ∧ honesty.tells c.fate a := by
  have hwaits : (loop.courseFrom loop.start (answersTo tr i)).waits = sender.waits := by
    rw [show loop.courseFrom loop.start (answersTo tr i) = _ from h.course i sender hi]
  obtain ⟨a, state, next, ha, hjudge, hstate⟩ :=
    hJ.waited_for (n := 0) hJ.start (by rw [hwaits]; exact hj)
  have hposts := h.posts i sender hi
  have hlt : j < (answersTo tr i).length := (List.getElem?_eq_some_iff.mp ha).1
  have hcopy : j < (s.copiesOf i).length := by omega
  rw [Nat.zero_add] at hstate
  exact ⟨state, a, next, _, hstate, hjudge, ha, List.getElem?_eq_getElem hcopy,
    h.told i j _ a (List.getElem?_eq_getElem hcopy) ha⟩

/-- A sender that is done was told so of the copy it posted last. -/
theorem Explained.ended_by (h : Explained loop honesty tr s) (hJ : loop.Keeps J) {i : Nat}
    {sender : Sender P σ R} {result : R} (hi : s.senders[i]? = some sender)
    (hended : sender.stage = .ended result) : ∃ state a c, J sender.waits.length state ∧
      loop.judge state a = .done result ∧ (s.copiesOf i).length = sender.waits.length + 1 ∧
        (answersTo tr i).getLast? = some a ∧ (s.copiesOf i)[sender.waits.length]? = some c ∧
          honesty.tells c.fate a := by
  have hcourse : loop.courseFrom loop.start (answersTo tr i) = ⟨sender.waits, .ended result⟩ := by
    rw [show loop.courseFrom loop.start (answersTo tr i) = _ from h.course i sender hi, hended]
    rfl
  obtain ⟨a, state, ha, hjudge, hstate⟩ := hJ.ended_for (n := 0) hJ.start hcourse
  have hcounted := h.counted i sender hi
  have hposts := h.posts i sender hi
  rw [hended] at hcounted hposts
  simp only [Stage.isEnded, Stage.isPosted, if_true, Bool.false_eq_true, if_false] at hcounted hposts
  have hcopy : sender.waits.length < (s.copiesOf i).length := by omega
  rw [Nat.zero_add] at hstate
  have hlast : (answersTo tr i).getLast? = some a := by
    rw [List.getLast?_eq_getElem?, hcounted, Nat.add_sub_cancel]
    exact ha
  exact ⟨state, a, _, hstate, hjudge, by omega, hlast, List.getElem?_eq_getElem hcopy,
    h.told i _ _ a (List.getElem?_eq_getElem hcopy) ha⟩

end Tellings

/-- Where a sender posts again only upon an answer that tells of a refusal, each parcel is taken in at
most once. -/
theorem Explained.taken_at_most_once (h : Explained loop honesty tr s)
    (hagain : ∀ state a wait next, loop.judge state a = .again wait next →
      ∀ fate, honesty.tells fate a → fate = .refused) (i : Nat) : (s.takenOf i).length ≤ 1 := by
  cases hi : s.senders[i]? with
  | none =>
    have hnone : s.copiesOf i = [] := h.copiesOf_eq_nil (List.getElem?_eq_none_iff.mp hi)
    simp [World.takenOf, hnone]
  | some sender =>
    refine filter_length_le_one (h.copies_le hi) ?_
    intro j c hc hj
    obtain ⟨state, a, next, d, -, hjudge, -, hd, htells⟩ :=
      h.waited loop.keeps_true hi (List.getElem?_eq_getElem hj)
    obtain rfl := Option.some.inj (hc.symm.trans hd)
    have hrefused : c.fate = .refused := hagain state a _ next hjudge _ htells
    simp [hrefused]

end Runs

end Courier
