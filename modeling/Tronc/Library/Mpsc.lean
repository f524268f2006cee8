import Mathlib.Data.List.Basic

namespace Mpsc

/-- An unbounded channel: what was taken off it, what waits on it, and whether it still takes
messages. A channel closes when its receiver closes it or its last sender is dropped. -/
structure Channel (α : Type*) where
  taken : List α
  queue : List α
  closed : Bool
  deriving DecidableEq

/-- What a receive finds. -/
inductive Received (α : Type*) where
  | message (x : α) (rest : Channel α)
  | disconnected
  | pending

namespace Channel

variable {α : Type*}

def empty : Channel α := ⟨[], [], false⟩

/-- All the channel ever accepted, in the order it did. -/
def accepted (c : Channel α) : List α := c.taken ++ c.queue

/-- A message sent on a closed channel is lost. -/
def send (c : Channel α) (x : α) : Channel α :=
  if c.closed then c else { c with queue := c.queue ++ [x] }

def close (c : Channel α) : Channel α := { c with closed := true }

/-- What is queued comes first, also on a closed channel. -/
def recv (c : Channel α) : Received α :=
  match c.queue with
  | x :: rest => .message x { c with taken := c.taken ++ [x], queue := rest }
  | [] => if c.closed then .disconnected else .pending

variable {c d : Channel α} {x : α}

@[simp] theorem accepted_empty : (empty : Channel α).accepted = [] := rfl

@[simp] theorem accepted_close (c : Channel α) : c.close.accepted = c.accepted := rfl

theorem accepted_send (hc : c.closed = false) (x : α) :
    (c.send x).accepted = c.accepted ++ [x] := by
  unfold send accepted
  rw [hc]
  simp

theorem send_closed (hc : c.closed = true) (x : α) : c.send x = c := by
  unfold send
  rw [hc]
  rfl

@[simp] theorem closed_send (c : Channel α) (x : α) : (c.send x).closed = c.closed := by
  unfold send
  split
  · rfl
  · rfl

@[simp] theorem taken_send (c : Channel α) (x : α) : (c.send x).taken = c.taken := by
  unfold send
  split
  · rfl
  · rfl

/-- A message received is the first one queued. -/
theorem recv_message (h : c.recv = .message x d) :
    c.queue = x :: d.queue ∧ d.taken = c.taken ++ [x] ∧ d.closed = c.closed := by
  unfold recv at h
  split at h
  · rename_i y rest hq
    injection h with hx hd
    subst hx
    subst hd
    exact ⟨hq, rfl, rfl⟩
  · split at h
    · cases h
    · cases h

theorem accepted_recv (h : c.recv = .message x d) : d.accepted = c.accepted := by
  obtain ⟨hq, ht, _⟩ := recv_message h
  unfold accepted
  rw [hq, ht, List.append_assoc]
  rfl

theorem recv_disconnected (h : c.recv = .disconnected) : c.queue = [] ∧ c.closed = true := by
  unfold recv at h
  split at h
  · cases h
  · rename_i hq
    split at h
    · rename_i hc
      exact ⟨hq, hc⟩
    · cases h

theorem recv_pending (h : c.recv = .pending) : c.queue = [] ∧ c.closed = false := by
  unfold recv at h
  split at h
  · cases h
  · rename_i hq
    split at h
    · cases h
    · rename_i hc
      exact ⟨hq, Bool.eq_false_iff.mpr hc⟩

/-- A receive that finds nothing found the queue empty. -/
theorem recv_nothing (h : ∀ x d, c.recv ≠ .message x d) : c.queue = [] := by
  cases hr : c.recv with
  | message x d => exact absurd hr (h x d)
  | disconnected => exact (recv_disconnected hr).1
  | pending => exact (recv_pending hr).1

end Channel

end Mpsc
