import Tronc.Library.Mpsc
import Tronc.Library.Transition

namespace Tronc.Notifications

open Transition

/-- A captured error event, ready for dispatch. -/
structure ErrorEvent where
  target : String
  message : String
  fields : List (String × String)
  deriving DecidableEq

/-- Where `Dispatcher::run` is. -/
inductive Stage where
  /-- It waits for the first event of a batch. -/
  | waiting
  /-- It has the first event, and has still to read the clock for the deadline. -/
  | opened (batch : List ErrorEvent)
  /-- At the top of the collecting loop. -/
  | collecting (batch : List ErrorEvent) (deadline : Nat)
  /-- It knows what is left of the window, and has still to set the timeout. -/
  | timing (batch : List ErrorEvent) (deadline remaining : Nat)
  | receiving (batch : List ErrorEvent) (deadline wake : Nat)
  /-- `dispatch_batch` has the batch. -/
  | dispatching (batch : List ErrorEvent)
  | ended
  deriving DecidableEq

/-- The partial batch: what was taken off the channel and is not handed on yet. -/
def Stage.held : Stage → List ErrorEvent
  | .opened batch | .collecting batch _ | .timing batch _ _ | .receiving batch _ _ => batch
  | .waiting | .dispatching _ | .ended => []

/-- Whether a batch is being collected. -/
def Stage.collects : Stage → Bool
  | .opened _ | .collecting _ _ | .timing _ _ _ | .receiving _ _ _ => true
  | .waiting | .dispatching _ | .ended => false

/-- The background dispatcher with its channel, and the batches it handed to `dispatch_batch`. -/
structure Dispatcher where
  batchWindow : Nat
  receiver : Mpsc.Channel ErrorEvent
  stage : Stage
  clock : Nat
  dispatched : List (List ErrorEvent)
  deriving DecidableEq

namespace Dispatcher

inductive Event where
  /-- `on_event` queues an error event. -/
  | send (event : ErrorEvent)
  /-- The layer is dropped, and the sender with it. -/
  | close
  | tick (now : Nat)
  /-- The dispatcher goes one step further. -/
  | run
  /-- The timeout of the receive it waits on strikes. -/
  | elapse
  deriving DecidableEq

variable (d : Dispatcher)

def goto (stage : Stage) : Dispatcher := { d with stage := stage }

def dispatch (batch : List ErrorEvent) : Dispatcher :=
  { d with stage := .dispatching batch, dispatched := d.dispatched ++ [batch] }

def run : Option Dispatcher :=
  match d.stage with
  | .waiting =>
    match d.receiver.recv with
    | .message event rest => some { d with receiver := rest, stage := .opened [event] }
    | .disconnected => some (d.goto .ended)
    | .pending => none
  | .opened batch => some (d.goto (.collecting batch (d.clock + d.batchWindow)))
  | .collecting batch deadline =>
    let remaining := deadline - d.clock
    some (if remaining = 0 then d.dispatch batch else d.goto (.timing batch deadline remaining))
  | .timing batch deadline remaining =>
    some (d.goto (.receiving batch deadline (d.clock + remaining)))
  | .receiving batch deadline _ =>
    match d.receiver.recv with
    | .message event rest =>
      some { d with receiver := rest, stage := .collecting (batch ++ [event]) deadline }
    -- the function returns here, and the batch is dropped with it
    | .disconnected => some (d.goto .ended)
    | .pending => none
  | .dispatching _ => some (d.goto .waiting)
  | .ended => none

/-- A receive may find nothing in time also when something is queued: its task may be out of
budget. -/
def elapse : Option Dispatcher :=
  match d.stage with
  | .receiving batch _ wake => if wake ≤ d.clock then some (d.dispatch batch) else none
  | _ => none

def step : Event → Option Dispatcher
  | .send event => some { d with receiver := d.receiver.send event }
  | .close => some { d with receiver := d.receiver.close }
  | .tick now => if d.clock ≤ now then some { d with clock := now } else none
  | .run => d.run
  | .elapse => d.elapse

/-- The work left once nothing more is queued. -/
def left : Nat :=
  7 * d.receiver.queue.length +
    match d.stage with
    | .ended => 0
    | .waiting => 1
    | .dispatching _ => 2
    | .receiving .. => 4
    | .timing .. => 5
    | .collecting .. => 6
    | .opened _ => 7

end Dispatcher

/-- `ErrorNotificationLayer::new`, and whatever happens to it. -/
def notifier : Lts Dispatcher Dispatcher.Event where
  init d := d.receiver = .empty ∧ d.stage = .waiting ∧ d.dispatched = []
  step d e d' := d.step e = some d'

/-- The dispatcher looks for one more event of a batch, and the channel is closed and empty. -/
def CutShort (x : Taken Dispatcher Dispatcher.Event) : Prop :=
  x.label = .run ∧
  (∃ batch deadline wake, x.source.stage = .receiving batch deadline wake) ∧
  x.source.receiver.queue = [] ∧ x.source.receiver.closed = true

namespace Dispatcher

variable {d d' : Dispatcher} {e : Event}

/-- What one step does to the channel, the partial batch and the batches handed on. -/
inductive Moves (d : Dispatcher) : Event → Dispatcher → Prop where
  | sends (event : ErrorEvent) : Moves d (.send event) { d with receiver := d.receiver.send event }
  | closes : Moves d .close { d with receiver := d.receiver.close }
  | ticks (now : Nat) : Moves d (.tick now) { d with clock := now }
  | takes (event : ErrorEvent) (rest : Mpsc.Channel ErrorEvent) (stage : Stage) :
      d.receiver.recv = .message event rest → d.stage ≠ .ended →
      stage.held = d.stage.held ++ [event] → stage.collects = true →
      Moves d .run { d with receiver := rest, stage := stage }
  | shifts (stage : Stage) : d.stage ≠ .ended → stage ≠ .ended → stage.held = d.stage.held →
      stage.collects = d.stage.collects → Moves d .run (d.goto stage)
  | dispatches (e : Event) (batch : List ErrorEvent) : e = .run ∨ e = .elapse →
      d.stage.collects = true → d.stage.held = batch → Moves d e (d.dispatch batch)
  | ends : d.receiver.recv = .disconnected → d.stage = .waiting → Moves d .run (d.goto .ended)
  | cuts (batch : List ErrorEvent) (deadline wake : Nat) : d.receiver.recv = .disconnected →
      d.stage = .receiving batch deadline wake → Moves d .run (d.goto .ended)

theorem run_moves (h : d.run = some d') : Moves d .run d' := by
  unfold run at h
  split at h
  · rename_i hs
    split at h
    · rename_i event rest hr
      obtain rfl := Option.some.inj h
      exact .takes event rest _ hr (by simp [hs]) (by rw [hs]; rfl) rfl
    · rename_i hr
      obtain rfl := Option.some.inj h
      exact .ends hr hs
    · cases h
  · rename_i batch hs
    obtain rfl := Option.some.inj h
    exact .shifts _ (by simp [hs]) (by simp) (by rw [hs]; rfl) (by rw [hs]; rfl)
  · rename_i batch deadline hs
    obtain rfl := Option.some.inj h
    split
    · exact .dispatches .run batch (.inl rfl) (by rw [hs]; rfl) (by rw [hs]; rfl)
    · exact .shifts _ (by simp [hs]) (by simp) (by rw [hs]; rfl) (by rw [hs]; rfl)
  · rename_i batch deadline remaining hs
    obtain rfl := Option.some.inj h
    exact .shifts _ (by simp [hs]) (by simp) (by rw [hs]; rfl) (by rw [hs]; rfl)
  · rename_i batch deadline wake hs
    split at h
    · rename_i event rest hr
      obtain rfl := Option.some.inj h
      exact .takes event rest _ hr (by simp [hs]) (by rw [hs]; rfl) rfl
    · rename_i hr
      obtain rfl := Option.some.inj h
      exact .cuts batch deadline wake hr hs
    · cases h
  · rename_i batch hs
    obtain rfl := Option.some.inj h
    exact .shifts _ (by simp [hs]) (by simp) (by rw [hs]; rfl) (by rw [hs]; rfl)
  · cases h

theorem elapse_moves (h : d.elapse = some d') : Moves d .elapse d' := by
  unfold elapse at h
  split at h
  · rename_i batch deadline wake hs
    split at h
    · obtain rfl := Option.some.inj h
      exact .dispatches .elapse batch (.inr rfl) (by rw [hs]; rfl) (by rw [hs]; rfl)
    · cases h
  · cases h

theorem step_moves (h : d.step e = some d') : Moves d e d' := by
  cases e with
  | send event =>
    obtain rfl := Option.some.inj h
    exact .sends event
  | close =>
    obtain rfl := Option.some.inj h
    exact .closes
  | tick now =>
    simp only [step] at h
    split at h
    · obtain rfl := Option.some.inj h
      exact .ticks now
    · cases h
  | run => exact run_moves h
  | elapse => exact elapse_moves h

/-- What was taken off the channel is handed on or held, until the dispatcher ends; a batch in the
making is not empty. -/
structure Accounted (d : Dispatcher) : Prop where
  taken : d.stage ≠ .ended → d.dispatched.flatten ++ d.stage.held = d.receiver.taken
  held : d.stage.collects = true → d.stage.held ≠ []
  closed : d.stage = .ended → d.receiver.queue = [] ∧ d.receiver.closed = true

theorem Accounted.step (h : Accounted d) (hs : d.step e = some d') : Accounted d' := by
  cases step_moves hs with
  | sends event =>
    refine ⟨fun hn => (h.taken hn).trans (Mpsc.Channel.taken_send _ _).symm, h.held, fun he => ?_⟩
    rw [Mpsc.Channel.send_closed (h.closed he).2]
    exact h.closed he
  | closes => exact ⟨h.taken, h.held, fun he => ⟨(h.closed he).1, rfl⟩⟩
  | ticks => exact ⟨h.taken, h.held, h.closed⟩
  | takes event rest stage hr hn hheld hcol =>
    obtain ⟨_, ht, _⟩ := Mpsc.Channel.recv_message hr
    refine ⟨fun _ => ?_, fun _ => ?_, fun he => ?_⟩
    · calc d.dispatched.flatten ++ stage.held
          = (d.dispatched.flatten ++ d.stage.held) ++ [event] := by rw [hheld, List.append_assoc]
        _ = rest.taken := by rw [h.taken hn, ht]
    · show stage.held ≠ []
      rw [hheld]
      simp
    · have hended : stage = .ended := he
      rw [hended] at hcol
      cases hcol
  | shifts stage hn hn' hheld hcol =>
    refine ⟨fun _ => ?_, fun hc => ?_, fun he => absurd he hn'⟩
    · show d.dispatched.flatten ++ stage.held = d.receiver.taken
      rw [hheld]
      exact h.taken hn
    · show stage.held ≠ []
      rw [hheld]
      exact h.held (hcol.symm.trans hc)
  | dispatches e batch _ hcol hheld =>
    have hn : d.stage ≠ .ended := by
      intro he
      rw [he] at hcol
      cases hcol
    refine ⟨fun _ => ?_, nofun, nofun⟩
    have ht := h.taken hn
    rw [hheld] at ht
    show (d.dispatched ++ [batch]).flatten ++ [] = d.receiver.taken
    rw [List.flatten_append, List.append_nil, List.flatten_singleton]
    exact ht
  | ends hr hw =>
    exact ⟨fun hn => absurd rfl hn, nofun, fun _ => Mpsc.Channel.recv_disconnected hr⟩
  | cuts batch deadline wake hr hw =>
    exact ⟨fun hn => absurd rfl hn, nofun, fun _ => Mpsc.Channel.recv_disconnected hr⟩

theorem run_accounted {d₀ : Dispatcher} {tr : List (Taken Dispatcher Event)}
    (hi : notifier.init d₀) (hr : notifier.Run d₀ tr d) : Accounted d := by
  refine hr.invariant (fun _ _ _ => Accounted.step) ?_
  obtain ⟨hc, hs, hd⟩ := hi
  refine ⟨fun _ => ?_, fun hcol => ?_, fun he => ?_⟩
  · rw [hc, hs, hd]
    rfl
  · rw [hs] at hcol
    cases hcol
  · rw [hs] at he
    cases he

/-- An ended dispatcher stays as it is, its channel shut. -/
theorem ended_stays (h : Accounted d) (he : d.stage = .ended) (hs : d.step e = some d') :
    d'.stage = .ended ∧ d'.dispatched = d.dispatched ∧ d'.receiver.accepted = d.receiver.accepted ∧
      ¬ CutShort ⟨d, e, d'⟩ := by
  have hcut : ¬ CutShort ⟨d, e, d'⟩ := by
    rintro ⟨_, ⟨batch, deadline, wake, hw⟩, _⟩
    rw [he] at hw
    cases hw
  cases step_moves hs with
  | sends event =>
    refine ⟨he, rfl, ?_, hcut⟩
    rw [Mpsc.Channel.send_closed (h.closed he).2]
  | closes => exact ⟨he, rfl, rfl, hcut⟩
  | ticks => exact ⟨he, rfl, rfl, hcut⟩
  | takes event rest stage hr hn _ _ => exact absurd he hn
  | shifts stage hn _ _ _ => exact absurd he hn
  | dispatches e batch _ hcol _ =>
    rw [he] at hcol
    cases hcol
  | ends hr hw =>
    rw [he] at hw
    cases hw
  | cuts batch deadline wake hr hw =>
    rw [he] at hw
    cases hw

/-- Either the dispatcher goes on, and no batch was cut short; or it ends, and what it handed on is
all that was queued unless the last batch was cut short. -/
theorem step_ends (h : Accounted d) (hn : d.stage ≠ .ended) (hs : d.step e = some d') :
    d'.stage ≠ .ended ∧ ¬ CutShort ⟨d, e, d'⟩ ∨
    d'.stage = .ended ∧
      (d'.dispatched.flatten = d'.receiver.accepted ↔ ¬ CutShort ⟨d, e, d'⟩) := by
  have later (hd : d'.stage ≠ .ended) (hc : CutShort ⟨d, e, d'⟩) : False := by
    obtain ⟨he, ⟨batch, deadline, wake, hw⟩, hq, hcl⟩ := hc
    have hrun : d.run = some d' := by
      have he' : e = .run := he
      rw [he'] at hs
      exact hs
    have hrecv : d.receiver.recv = .disconnected := by
      unfold Mpsc.Channel.recv
      have hq' : d.receiver.queue = [] := hq
      have hcl' : d.receiver.closed = true := hcl
      rw [hq', hcl']
      rfl
    have hw' : d.stage = .receiving batch deadline wake := hw
    simp only [run, hw', hrecv] at hrun
    exact hd (by rw [← Option.some.inj hrun]; rfl)
  cases step_moves hs with
  | sends event => exact .inl ⟨hn, later hn⟩
  | closes => exact .inl ⟨hn, later hn⟩
  | ticks => exact .inl ⟨hn, later hn⟩
  | takes event rest stage hr _ _ hcol =>
    have hne : stage ≠ .ended := by
      rintro rfl
      cases hcol
    exact .inl ⟨hne, later hne⟩
  | shifts stage _ hne _ _ => exact .inl ⟨hne, later hne⟩
  | dispatches e batch _ _ _ => exact .inl ⟨by simp [dispatch], later (by simp [dispatch])⟩
  | ends hr hw =>
    refine .inr ⟨rfl, ?_⟩
    have ht := h.taken hn
    rw [hw] at ht
    have hall : d.dispatched.flatten = d.receiver.accepted := by
      unfold Mpsc.Channel.accepted
      rw [(Mpsc.Channel.recv_disconnected hr).1, ← ht]
      simp [Stage.held]
    refine iff_of_true hall ?_
    rintro ⟨_, ⟨batch, deadline, wake, hw'⟩, _⟩
    rw [hw] at hw'
    cases hw'
  | cuts batch deadline wake hr hw =>
    refine .inr ⟨rfl, ?_⟩
    obtain ⟨hq, hc⟩ := Mpsc.Channel.recv_disconnected hr
    refine iff_of_false (fun hall => ?_) (fun hcut => hcut ⟨rfl, ⟨batch, deadline, wake, hw⟩, hq, hc⟩)
    have ht := h.taken hn
    have hlost : d.stage.held ≠ [] := h.held (by rw [hw]; rfl)
    have hsame : d.dispatched.flatten ++ d.stage.held = d.dispatched.flatten := by
      rw [ht]
      have haccepted : d.dispatched.flatten = d.receiver.taken ++ d.receiver.queue := hall
      rw [haccepted, hq, List.append_nil]
    exact hlost (List.append_right_eq_self.mp hsame)

/-- On a closed channel the dispatcher never waits. -/
theorem run_isSome (hc : d.receiver.closed = true) (hn : d.stage ≠ .ended) :
    ∃ d', d.run = some d' := by
  have hrecv : d.receiver.recv ≠ .pending := by
    intro hp
    rw [(Mpsc.Channel.recv_pending hp).2] at hc
    cases hc
  unfold run
  split
  · split
    · exact ⟨_, rfl⟩
    · exact ⟨_, rfl⟩
    · rename_i hp
      exact absurd hp hrecv
  · exact ⟨_, rfl⟩
  · exact ⟨_, rfl⟩
  · exact ⟨_, rfl⟩
  · split
    · exact ⟨_, rfl⟩
    · exact ⟨_, rfl⟩
    · rename_i hp
      exact absurd hp hrecv
  · exact ⟨_, rfl⟩
  · rename_i hs
    exact absurd hs hn

def Event.isWork : Event → Bool
  | .run | .elapse => true
  | .send _ | .close | .tick _ => false

/-- Every step of the dispatcher leaves it less to do. -/
theorem left_work (hw : e.isWork = true) (hs : d.step e = some d') : d'.left < d.left := by
  have message {event : ErrorEvent} {rest : Mpsc.Channel ErrorEvent}
      (hr : d.receiver.recv = .message event rest) :
      d.receiver.queue.length = rest.queue.length + 1 := by
    rw [(Mpsc.Channel.recv_message hr).1]
    rfl
  cases e with
  | send | close | tick => cases hw
  | run =>
    have h : d.run = some d' := hs
    unfold run at h
    unfold left
    split at h
    · rename_i hst
      split at h
      · rename_i event rest hr
        obtain rfl := Option.some.inj h
        have hq := message hr
        simp only [hst]
        omega
      · obtain rfl := Option.some.inj h
        simp [goto, hst]
      · cases h
    · rename_i batch hst
      obtain rfl := Option.some.inj h
      simp [goto, hst]
    · rename_i batch deadline hst
      obtain rfl := Option.some.inj h
      split
      · simp [dispatch, hst]
      · simp [goto, hst]
    · rename_i batch deadline remaining hst
      obtain rfl := Option.some.inj h
      simp [goto, hst]
    · rename_i batch deadline wake hst
      split at h
      · rename_i event rest hr
        obtain rfl := Option.some.inj h
        have hq := message hr
        simp only [hst]
        omega
      · obtain rfl := Option.some.inj h
        simp [goto, hst]
      · cases h
    · rename_i batch hst
      obtain rfl := Option.some.inj h
      simp [goto, hst]
    · cases h
  | elapse =>
    have h : d.elapse = some d' := hs
    unfold elapse at h
    split at h
    · rename_i batch deadline wake hst
      split at h
      · obtain rfl := Option.some.inj h
        simp [left, dispatch, hst]
      · cases h
    · cases h

/-- A closed channel takes nothing more, whatever happens. -/
theorem step_closed (hc : d.receiver.closed = true) (hs : d.step e = some d') :
    d'.receiver.closed = true ∧ (e.isWork = false → d'.left = d.left) := by
  cases step_moves hs with
  | sends event =>
    have hsame := Mpsc.Channel.send_closed hc event
    refine ⟨?_, fun _ => ?_⟩
    · rw [hsame]
      exact hc
    · unfold left
      rw [hsame]
  | closes => exact ⟨rfl, fun _ => rfl⟩
  | ticks => exact ⟨hc, fun _ => rfl⟩
  | takes event rest stage hr _ _ _ =>
    exact ⟨(Mpsc.Channel.recv_message hr).2.2.trans hc, nofun⟩
  | shifts => exact ⟨hc, nofun⟩
  | dispatches e batch he _ _ =>
    refine ⟨hc, fun hw => ?_⟩
    rcases he with rfl | rfl
    · cases hw
    · cases hw
  | ends => exact ⟨hc, nofun⟩
  | cuts => exact ⟨hc, nofun⟩

/-- The dispatcher gets to its end by itself, and no schedule keeps it from that for ever. -/
structure Ends (d : Dispatcher) : Prop where
  reaches : ∃ n d', exec step d (List.replicate n .run) = some d' ∧ d'.stage = .ended
  bounded : ∀ tr d', notifier.Run d tr d' →
    (tr.countP fun x => x.label.isWork) + d'.left ≤ d.left

private theorem reaches_end (n : Nat) (hc : d.receiver.closed = true) (hn : d.left ≤ n) :
    ∃ k d', exec step d (List.replicate k .run) = some d' ∧ d'.stage = .ended := by
  induction n generalizing d with
  | zero =>
    refine ⟨0, d, rfl, ?_⟩
    unfold left at hn
    cases hst : d.stage with
    | ended => rfl
    | _ =>
      rw [hst] at hn
      simp at hn
  | succ n ih =>
    by_cases he : d.stage = .ended
    · exact ⟨0, d, rfl, he⟩
    · obtain ⟨d', hrun⟩ := run_isSome hc he
      have hstep : d.step .run = some d' := hrun
      have hless := left_work rfl hstep
      obtain ⟨k, d'', hexec, hended⟩ := ih (step_closed hc hstep).1 (by omega)
      refine ⟨k + 1, d'', ?_, hended⟩
      rw [List.replicate_succ, exec, hstep]
      exact hexec

theorem ends_of_closed (hc : d.receiver.closed = true) : d.Ends where
  reaches := reaches_end d.left hc (Nat.le_refl _)
  bounded tr d' hr := by
    have hkept : d'.receiver.closed = true ∧
        (tr.countP fun x => x.label.isWork) + d'.left ≤ d.left := by
      induction hr with
      | start => exact ⟨hc, by simp⟩
      | @next v u tr e hr hs ih =>
        obtain ⟨hcv, hle⟩ := ih
        obtain ⟨hcu, hidle⟩ := step_closed hcv hs
        refine ⟨hcu, ?_⟩
        rw [List.countP_append, List.countP_singleton]
        cases hw : e.isWork with
        | true =>
          have hless := left_work hw hs
          simp only [if_true]
          omega
        | false =>
          have hsame := hidle hw
          simp only [Bool.false_eq_true, if_false]
          omega
    exact hkept.2

end Dispatcher

/-- Whatever the sends, the timing and the moment of the close: what was queued is handed on, in
batches, in order and once, if and only if the dispatcher does not find its channel closed with a
batch in the making; once the channel is closed the dispatcher ends. -/
theorem shutdown_hands_on {d₀ d : Dispatcher} {tr : List (Taken Dispatcher Dispatcher.Event)}
    (hi : notifier.init d₀) (hr : notifier.Run d₀ tr d) :
    (d.stage = .ended →
      (d.dispatched.flatten = d.receiver.accepted ↔ ∀ x ∈ tr, ¬ CutShort x)) ∧
    (d.stage ≠ .ended → (∀ x ∈ tr, ¬ CutShort x) ∧
      d.dispatched.flatten ++ d.stage.held ++ d.receiver.queue = d.receiver.accepted) ∧
    (d.receiver.closed = true → d.Ends) := by
  have hacc := Dispatcher.run_accounted hi hr
  have hcut : (d.stage = .ended →
      (d.dispatched.flatten = d.receiver.accepted ↔ ∀ x ∈ tr, ¬ CutShort x)) ∧
      (d.stage ≠ .ended → ∀ x ∈ tr, ¬ CutShort x) := by
    induction hr with
    | start =>
      obtain ⟨_, hs, _⟩ := hi
      refine ⟨fun he => ?_, fun _ => by simp⟩
      rw [hs] at he
      cases he
    | @next v u tr e hr hs ih =>
      have hv := Dispatcher.run_accounted hi hr
      obtain ⟨hended, hgoing⟩ := ih hv
      have hall : (∀ x ∈ tr ++ [⟨v, e, u⟩], ¬ CutShort x) ↔
          (∀ x ∈ tr, ¬ CutShort x) ∧ ¬ CutShort ⟨v, e, u⟩ := by
        rw [List.forall_mem_append, List.forall_mem_singleton]
      rw [hall]
      by_cases hve : v.stage = .ended
      · obtain ⟨hue, hd, ha, hno⟩ := Dispatcher.ended_stays hv hve hs
        refine ⟨fun _ => ?_, fun hn => absurd hue hn⟩
        rw [hd, ha, hended hve]
        exact ⟨fun h => ⟨h, hno⟩, And.left⟩
      · have hbefore := hgoing hve
        obtain ⟨hn, hno⟩ | ⟨he, hiff⟩ := Dispatcher.step_ends hv hve hs
        · exact ⟨fun he => absurd he hn, fun _ => ⟨hbefore, hno⟩⟩
        · exact ⟨fun _ => hiff.trans ⟨fun h => ⟨hbefore, h⟩, And.right⟩, fun hn => absurd he hn⟩
  refine ⟨hcut.1, fun hn => ⟨hcut.2 hn, ?_⟩, Dispatcher.ends_of_closed⟩
  rw [hacc.taken hn]
  rfl

/-- A dispatcher that has just been started. -/
def Dispatcher.started (batchWindow : Nat) : Dispatcher :=
  ⟨batchWindow, .empty, .waiting, 0, []⟩

/-- Two events in one window, and a close after it. -/
def flushedRun : List Dispatcher.Event :=
  [.send ⟨"a", "one", []⟩, .run, .run, .run, .run, .send ⟨"a", "two", []⟩, .run, .run, .run,
    .tick 5, .elapse, .run, .close, .run]

theorem shutdown_hands_on_flushed : ∃ d tr, notifier.Run (.started 5) tr d ∧ d.stage = .ended ∧
    d.dispatched = [[⟨"a", "one", []⟩, ⟨"a", "two", []⟩]] ∧ ∀ x ∈ tr, ¬ CutShort x := by
  have hrun : (exec Dispatcher.step (.started 5) flushedRun).map (fun d =>
      (d.stage, d.dispatched, d.receiver.accepted)) =
      some (.ended, [[⟨"a", "one", []⟩, ⟨"a", "two", []⟩]],
        [⟨"a", "one", []⟩, ⟨"a", "two", []⟩]) := by decide
  obtain ⟨d, hd, heq⟩ := Option.map_eq_some_iff.mp hrun
  obtain ⟨hs, hrest⟩ := Prod.mk.inj heq
  obtain ⟨hdis, hacc⟩ := Prod.mk.inj hrest
  obtain ⟨tr, hr⟩ := Lts.Run.exec (M := notifier) (I := fun _ => True)
    (fun _ _ _ _ hs => ⟨hs, trivial⟩) flushedRun trivial hd (.start _)
  have hall := shutdown_hands_on ⟨rfl, rfl, rfl⟩ hr
  exact ⟨d, _, hr, hs, hdis, (hall.1 hs).mp (by rw [hdis, hacc]; rfl)⟩

/-- An event is queued, and the channel is closed before its window is over. -/
def cutRun : List Dispatcher.Event :=
  [.send ⟨"a", "one", []⟩, .run, .run, .run, .run, .close, .run]

theorem shutdown_loses_batch : ∃ d tr, notifier.init (.started 5) ∧
    notifier.Run (.started 5) tr d ∧ d.receiver.closed = true ∧ d.stage = .ended ∧
    d.receiver.accepted = [⟨"a", "one", []⟩] ∧ d.dispatched = [] := by
  have hrun : (exec Dispatcher.step (.started 5) cutRun).map (fun d =>
      (d.receiver.closed, d.stage, d.receiver.accepted, d.dispatched)) =
      some (true, .ended, [⟨"a", "one", []⟩], []) := by decide
  obtain ⟨d, hd, heq⟩ := Option.map_eq_some_iff.mp hrun
  obtain ⟨hc, hrest⟩ := Prod.mk.inj heq
  obtain ⟨hs, hrest⟩ := Prod.mk.inj hrest
  obtain ⟨hacc, hdis⟩ := Prod.mk.inj hrest
  obtain ⟨tr, hr⟩ := Lts.Run.exec (M := notifier) (I := fun _ => True)
    (fun _ _ _ _ hs => ⟨hs, trivial⟩) cutRun trivial hd (.start _)
  exact ⟨d, _, ⟨rfl, rfl, rfl⟩, hr, hc, hs, hacc, hdis⟩

end Tronc.Notifications
