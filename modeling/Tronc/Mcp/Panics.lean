import Tronc.Mcp.StdioAnswers
import Tronc.Mcp.StreamedAnswer

namespace Tronc.Mcp

open Transition

namespace Answering

variable {w w' : Answering} {e : Event}

/-- Whether there is an answer to read: no panic unwound it, and its client is there. -/
def stands (w : Answering) : Bool :=
  match w.stage with
  | .panicked | .dropped => false
  | .selecting _ | .draining _ _ | .single _ | .streaming _ | .finished => true

/-- The reading left once a call has ended. -/
def left (w : Answering) : Nat :=
  match w.stage with
  | .draining _ sent => 2 * w.outbox.queue.length + sent.length + 4
  | .streaming ⟨.draining _, sent⟩ => w.outbox.queue.length + sent.length + 3
  | .streaming ⟨.done, sent⟩ => sent.length + 1
  | .streaming ⟨.running _, _⟩ | .selecting _ | .single _ | .finished | .panicked | .dropped => 0

/-- Reading on brings the end of the answer nearer. -/
structure Nearer (w w' : Answering) : Prop where
  run : w.run = some w'
  left : w'.left < w.left
  stands : w'.stands = true
  ended : w'.ended = w.ended

theorem drain_nearer {response : Option JsonRpcResponse} {sent : List JsonRpcMessage}
    (hs : w.stage = .draining response sent) : ∃ w', Nearer w w' := by
  have hleft : w.left = 2 * w.outbox.queue.length + sent.length + 4 := by
    unfold left
    rw [hs]
  cases hr : w.outbox.recv with
  | message message rest =>
    obtain ⟨hq, _⟩ := Mpsc.Channel.recv_message hr
    refine ⟨{ w with outbox := rest, stage := .draining response (sent ++ [message]) }, ?_, ?_, rfl,
      rfl⟩
    · simp only [run, hs, hr]
    · rw [hleft, hq]
      simp only [left, List.length_append, List.length_cons, List.length_nil]
      omega
  | disconnected | pending =>
    cases hempty : sent.isEmpty with
    | true =>
      refine ⟨w.finish (.single (renderResponse response w.modern w.rendering)), ?_, ?_, rfl, rfl⟩
      · simp only [run, hs, hr, hempty, if_true]
      · rw [hleft]
        exact Nat.succ_pos _
    | false =>
      refine ⟨w.goto (.streaming ⟨.draining response, sent⟩), ?_, ?_, rfl, rfl⟩
      · simp only [run, hs, hr, hempty, Bool.false_eq_true, if_false]
      · rw [hleft]
        show w.outbox.queue.length + sent.length + 3 < _
        omega

theorem next_nearer {phase : Phase} {sent : List JsonRpcMessage}
    (hs : w.stage = .streaming ⟨phase, sent⟩) (hphase : ∀ select, phase ≠ .running select) :
    ∃ w', Nearer w w' := by
  cases sent with
  | cons message rest =>
    refine ⟨(w.deliver message).goto (.streaming ⟨phase, rest⟩), ?_, ?_, rfl, rfl⟩
    · simp only [run, hs, next]
    · cases phase with
      | running select => exact absurd rfl (hphase select)
      | draining response =>
        simp only [left, hs, goto, deliver, List.length_cons]
        omega
      | done =>
        simp only [left, hs, goto, List.length_cons]
        omega
  | nil =>
    cases phase with
    | running select => exact absurd rfl (hphase select)
    | draining response =>
      have hleft : w.left = w.outbox.queue.length + 3 := by
        unfold left
        rw [hs]
        rfl
      cases hr : w.outbox.recv with
      | message message rest =>
        obtain ⟨hq, _⟩ := Mpsc.Channel.recv_message hr
        refine ⟨{ w.deliver message with outbox := rest }, ?_, ?_, ?_, rfl⟩
        · simp only [run, hs, next, hr]
        · rw [hleft, hq]
          simp only [left, deliver, hs, List.length_cons, List.length_nil]
          omega
        · simp only [stands, deliver, hs]
      | disconnected | pending =>
        cases response with
        | some response =>
          refine ⟨{ w.deliver (.response response) with
            serving := false, stage := .streaming ⟨.done, []⟩ }, ?_, ?_, rfl, rfl⟩
          · simp only [run, hs, next, hr]
          · rw [hleft]
            show 1 < _
            omega
        | none =>
          refine ⟨w.finish .finished, ?_, ?_, rfl, rfl⟩
          · simp only [run, hs, next, hr]
          · rw [hleft]
            exact Nat.succ_pos _
    | done =>
      refine ⟨w.finish .finished, ?_, ?_, rfl, rfl⟩
      · simp only [run, hs, next]
      · unfold left
        rw [hs]
        exact Nat.succ_pos _

theorem Kept.nearer (k : w.Kept) {response : Option JsonRpcResponse} (hn : w.ended = some response)
    (hstands : w.stands = true) : w.read.isSome = true ∨ ∃ w', Nearer w w' := by
  cases hs : w.stage with
  | selecting select =>
    rw [(k.selecting select hs).1] at hn
    cases hn
  | draining response sent => exact .inr (drain_nearer hs)
  | single body =>
    left
    unfold read
    rw [hs]
    rfl
  | finished =>
    left
    unfold read
    rw [hs]
    rfl
  | streaming stream =>
    right
    obtain ⟨phase, sent⟩ := stream
    refine next_nearer hs fun select hphase => ?_
    rw [hphase] at hs
    rw [(k.streamed select sent hs).1] at hn
    cases hn
  | panicked | dropped =>
    unfold stands at hstands
    rw [hs] at hstands
    cases hstands

theorem Kept.reaches (k : w.Kept) {response : Option JsonRpcResponse} (hn : w.ended = some response)
    (hstands : w.stands = true) :
    ∃ n w', exec Answering.step w (List.replicate n .run) = some w' ∧ w'.read.isSome = true := by
  induction hleft : w.left using Nat.strong_induction_on generalizing w with
  | _ m ih =>
    rcases k.nearer hn hstands with hread | ⟨w', hnearer⟩
    · exact ⟨0, w, rfl, hread⟩
    · obtain ⟨n, w'', hexec, hread⟩ := ih w'.left (by rw [← hleft]; exact hnearer.left)
        (k.step (e := .run) hnearer.run) (hnearer.ended.trans hn) hnearer.stands rfl
      refine ⟨n + 1, w'', ?_, hread⟩
      rw [List.replicate_succ, exec, show w.step .run = some w' from hnearer.run]
      exact hexec

/-- What a step leaves as it is once the call has ended. -/
structure Settled (w w' : Answering) : Prop where
  ended : w'.ended = w.ended
  sent : w'.sent = w.sent
  id : w'.id = w.id

theorem Kept.settled (k : w.Kept) {response : Option JsonRpcResponse}
    (hn : w.ended = some response) (h : w.step e = some w') : Settled w w' := by
  have running {select : Select} {sent : List JsonRpcMessage}
      (hs : w.stage = .streaming ⟨.running select, sent⟩) : Settled w w' := by
    rw [(k.streamed select sent hs).1] at hn
    cases hn
  have selecting {select : Select} (hs : w.stage = .selecting select) : Settled w w' := by
    rw [(k.selecting select hs).1] at hn
    cases hn
  cases step_moves h with
  | sends request =>
    refine ⟨rfl, ?_, rfl⟩
    show (if w.ended.isNone then w.sent ++ [.request request] else w.sent) = w.sent
    rw [hn]
    rfl
  | readies _ hs => exact selecting hs
  | panics hs => exact selecting hs
  | finishes _ _ sent hs => exact running hs
  | disconnects =>
    refine ⟨?_, rfl, rfl⟩
    show some (w.ended.getD none) = w.ended
    rw [hn]
    rfl
  | unsent | hangsUp | opens | selects | drains | answers | streams | pops | delivers | reselects
  | responds | closes | ends => exact ⟨rfl, rfl, rfl⟩

/-- An answer that stands does so until its client goes away, once the call has ended. -/
theorem Kept.stands_step (k : w.Kept) {response : Option JsonRpcResponse}
    (hn : w.ended = some response) (hstands : w.stands = true) (hne : e ≠ .disconnect)
    (h : w.step e = some w') : w'.stands = true := by
  cases step_moves h with
  | panics hs =>
    rw [(k.selecting _ hs).1] at hn
    cases hn
  | disconnects => exact absurd rfl hne
  | sends | unsent | hangsUp | delivers => exact hstands
  | opens | selects | drains | answers | streams | pops | reselects | responds | closes | ends
  | readies | finishes => rfl

/-- A client whose call has just panicked is answered. -/
structure PanicAnswered (s : Answering) : Prop where
  /-- As long as it stays, it gets to the end of the answer by reading on. -/
  reaches : ∀ tr w, answering.Run s tr w → (∀ x ∈ tr, x.label ≠ .disconnect) →
    ∃ n w', exec Answering.step w (List.replicate n .run) = some w' ∧ w'.read.isSome = true
  /-- By then it has every message the call sent, in order, and one response, with the request's
  id. -/
  whole : ∀ tr w items, answering.Run s tr w → w.read = some items → ∃ late response,
    items = s.sent ++ late ++ [.response response] ∧ response.id = s.id ∧
      items.filter JsonRpcMessage.isResponse = [.response response]

/-- A state whose call has ended, and what it is answered. -/
structure Ended (s w : Answering) (response : Option JsonRpcResponse) : Prop where
  kept : w.Kept
  requests : w.Requests
  ended : w.ended = some response
  sent : w.sent = s.sent
  id : w.id = s.id

theorem Ended.step {s : Answering} {response : Option JsonRpcResponse} (d : Ended s w response)
    (h : w.step e = some w') : Ended s w' response := by
  have hsettled := d.kept.settled d.ended h
  exact ⟨d.kept.step h, d.requests.step h, hsettled.ended.trans d.ended,
    hsettled.sent.trans d.sent, hsettled.id.trans d.id⟩

theorem answered_of_ended {s : Answering} {response : JsonRpcResponse}
    (d : Ended s s (some response)) (hid : response.id = s.id) (hstands : s.stands = true) :
    PanicAnswered s where
  reaches tr w hr hstays := by
    have hboth : Ended s w (some response) ∧ w.stands = true := by
      induction hr with
      | start => exact ⟨d, hstands⟩
      | @next w u tr e hr hstep ih =>
        obtain ⟨dw, hw⟩ := ih fun x hx => hstays x (List.mem_append_left _ hx)
        have hne : e ≠ .disconnect := hstays ⟨w, e, u⟩ (List.mem_append_right _ (.head _))
        exact ⟨dw.step hstep, dw.kept.stands_step dw.ended hw hne hstep⟩
    exact hboth.1.kept.reaches hboth.1.ended hboth.2
  whole tr w items hr hread := by
    have dw : Ended s w (some response) := hr.invariant (P := fun w => Ended s w (some response))
      (fun _ _ _ => Ended.step) d
    obtain ⟨response', hn, hwhole⟩ := dw.kept.whole dw.requests hread
    obtain rfl : some response = response' := Option.some.inj (dw.ended.symm.trans hn)
    obtain ⟨late, hitems, _⟩ := hwhole.ordered
    rw [dw.sent] at hitems
    exact ⟨late, response, hitems, hid, hwhole.once⟩

/-- A panic in a poll that the stream makes, and only there, is answered. -/
theorem panicAnswered_iff {x : Taken Answering Event} (k : x.source.Kept) (r : x.source.Requests)
    (hpanic : x.label = .poll .panicked) (h : answering.step x.source x.label x.target) :
    PanicAnswered x.target ↔ ∃ stream, x.source.stage = .streaming stream := by
  obtain ⟨w, e, w'⟩ := x
  obtain rfl : e = .poll .panicked := hpanic
  have hpoll : w.poll .panicked = some w' := h
  unfold poll at hpoll
  split at hpoll
  · rename_i hs
    obtain rfl := Option.some.inj hpoll
    refine iff_of_false (fun ha => ?_) ?_
    · obtain ⟨n, w', hexec, hread⟩ := ha.reaches [] _ (.start _)
        fun x hx => absurd hx List.not_mem_nil
      cases n with
      | zero =>
        rw [← Option.some.inj hexec] at hread
        cases hread
      | succ n => cases hexec
    · rintro ⟨stream, hstream⟩
      cases hs.symm.trans hstream
  · rename_i sent hs
    obtain rfl := Option.some.inj hpoll
    refine iff_of_true (answered_of_ended ⟨k.step h, r.step h, rfl, rfl, rfl⟩ rfl rfl) ?_
    exact ⟨_, hs⟩
  · cases hpoll

end Answering

namespace Stdio

variable {serde : Serde} {w w' : Stdio} {e : Event}

def Panicked (w : Stdio) (n : Nat) : Prop :=
  ∃ task, w.task n = some task ∧ task.stage = .ended .panicked

theorem Panicked.step {n : Nat} (h : w.Panicked n) (hs : w.step serde e = some w') :
    w'.Panicked n := by
  obtain ⟨task, htask, hended⟩ := h
  obtain ⟨task', htask', hgoes⟩ := task_step htask hs
  refine ⟨task', htask', ?_⟩
  cases hgoes with
  | stays heq => exact heq.trans hended
  | turns t => exact t.ended _ hended
  | responds response hr =>
    rw [hended] at hr
    cases hr

/-- Only the line `n` may differ. -/
structure Spares (n : Nat) (w w' : Stdio) : Prop where
  lines : ∀ m, m ≠ n → w'.lines[m]? = w.lines[m]?
  rest : { w with lines := w'.lines } = w'

theorem panic_step {n : Nat} (h : w.step serde (.panic n) = some w') :
    w'.Panicked n ∧ Spares n w w' := by
  obtain ⟨task, task', htask, hf, rfl⟩ := stepTask_eq h
  refine ⟨⟨task', by rw [task_setTask htask, if_pos rfl], ?_⟩, fun m hm => ?_, rfl⟩
  · unfold panicked at hf
    split at hf
    · rw [← Option.some.inj hf]
    all_goals cases hf
  · exact List.getElem?_set_ne (Ne.symm hm)

theorem unanswered_of_panicked {tr : List (Taken Stdio Event)} {w₀ : Stdio}
    (hi : (stdio serde).init w₀) (hr : (stdio serde).Run w₀ tr w) {n : Nat} (h : w.Panicked n) :
    answersTo n w.outbox.accepted = [] := by
  obtain ⟨_, _, k⟩ := run_kept hi hr
  obtain ⟨task, htask, hended⟩ := h
  have hgiven := k.given n
  rw [owedTo_eq (task_eq_some.mp htask), InputLine.owed, RequestTask.owed, hended] at hgiven
  exact List.sublist_nil.mp hgiven

end Stdio

/-- What a panic over HTTP does: which of the requests in flight panics, and in which step. -/
structure PanicsHttp (i : Nat) (x : Taken (Nat → Answering) (Nat × Answering.Event))
    (f : Nat → Answering) : Prop where
  answered : (x.target i).PanicAnswered ↔ ∃ stream, (x.source i).stage = .streaming stream
  others : ∀ j, j ≠ i → x.target j = x.source j
  whole : ∀ j items, (f j).read = some items →
    ∃ response, (f j).ended = some response ∧ Whole (f j) items response

structure PanicsStdio (serde : Serde) (tr : List (Taken Stdio Stdio.Event)) (n : Nat)
    (x : Taken Stdio Stdio.Event) (w : Stdio) : Prop where
  /-- Nothing queued or written answers the request, whatever else happens. -/
  unanswered : answersTo n w.outbox.accepted = [] ∧ answersTo n w.written = []
  others : Stdio.Spares n x.source x.target
  lines : LinesAnswered serde tr w

/-- A call that panics is answered where its stream polls it, and nowhere else; the other requests
of the connection are as they were. -/
theorem panics_answered (serde : Serde) :
    (∀ (f₀ f : Nat → Answering) (tr : List (Taken (Nat → Answering) (Nat × Answering.Event))),
      (answering.each Nat).init f₀ → (answering.each Nat).Run f₀ tr f → ∀ x ∈ tr, ∀ i,
        x.label = (i, .poll .panicked) → PanicsHttp i x f) ∧
    (∀ (w₀ w : Stdio) (tr : List (Taken Stdio Stdio.Event)),
      (stdio serde).init w₀ → (stdio serde).Run w₀ tr w → ∀ x ∈ tr, ∀ n,
        x.label = .panic n → PanicsStdio serde tr n x w) := by
  constructor
  · intro f₀ f tr hi hr x hx i hlabel
    obtain ⟨hstep, before, hbefore⟩ := hr.taken hx
    obtain ⟨trᵢ, hᵢ⟩ := hbefore.component i
    have k := Answering.run_kept (hi i) hᵢ
    have r := Answering.run_requests (hi i) hᵢ
    rw [hlabel] at hstep
    obtain ⟨hpanic, hothers⟩ := hstep
    refine ⟨?_, hothers, fun j items hread => ?_⟩
    · exact Answering.panicAnswered_iff (x := ⟨x.source i, .poll .panicked, x.target i⟩) k r rfl hpanic
    · obtain ⟨trⱼ, hⱼ⟩ := hr.component j
      exact (Answering.run_kept (hi j) hⱼ).whole (Answering.run_requests (hi j) hⱼ) hread
  · intro w₀ w tr hi hr x hx n hlabel
    obtain ⟨hstep, _⟩ := hr.taken hx
    rw [hlabel] at hstep
    obtain ⟨hpanicked, hothers⟩ := Stdio.panic_step hstep
    have hstays : w.Panicked n := hr.stays (P := fun w => w.Panicked n)
      (fun _ _ _ => Stdio.Panicked.step) hx hpanicked
    have hlines := Stdio.run_answered hi hr
    have hnone := Stdio.unanswered_of_panicked hi hr hstays
    refine ⟨⟨hnone, ?_⟩, hothers, hlines⟩
    have hinit := Stdio.answersTo_prefix (n := n) hlines.inOrder
    rw [hnone] at hinit
    exact List.prefix_nil.mp hinit

def panicking : List Answering.Event :=
  [.send (notice "first"), .poll .pending, .run, .run, .run]

def silenced : List Stdio.Event :=
  [.line pingText, .panic 0, .join 0, .endOfInput, .serve, .serve, .serve, .write, .write, .write,
    .serve, .serve]

theorem exists_panicking : ∃ (w w' : Answering) (tr : List (Taken Answering Answering.Event)),
    w.stage = .streaming ⟨.running .call, []⟩ ∧ answering.Run
      (.opening (some (.string "1")) false ⟨false, true⟩) (tr ++ [⟨w, .poll .panicked, w'⟩]) w' := by
  let w₀ := Answering.opening (some (.string "1")) false ⟨false, true⟩
  obtain ⟨w, hw⟩ : ∃ w, exec Answering.step w₀ panicking = some w :=
    Option.isSome_iff_exists.mp (by decide +kernel)
  have hread : (exec Answering.step w₀ panicking).map Answering.stage =
      some (.streaming ⟨.running .call, []⟩) := by decide +kernel
  rw [hw] at hread
  have hs : w.stage = .streaming ⟨.running .call, []⟩ := Option.some.inj hread
  obtain ⟨tr, hr, _⟩ := Lts.Run.labels (M := answering) (fun _ _ _ hs => hs) panicking hw (.start _)
  obtain ⟨w', hpoll⟩ : ∃ w', w.poll .panicked = some w' := by
    unfold Answering.poll
    rw [hs]
    exact ⟨_, rfl⟩
  have hstep : answering.step w (.poll .panicked) w' := hpoll
  exact ⟨w, w', tr, hs, hr.next hstep⟩

def WriterStage.endedWell : WriterStage → Bool
  | .ended (.ok ()) => true
  | _ => false

theorem exists_silenced : ∃ (w : Stdio) (tr : List (Taken Stdio Stdio.Event)) (x : _),
    (stdio pingSerde).Run .opening tr w ∧ x ∈ tr ∧ x.label = .panic 0 ∧
      w.connectionClosed = true ∧ ¬ w.WriteFailed := by
  obtain ⟨w, hw⟩ : ∃ w, exec (Stdio.step pingSerde) .opening silenced = some w :=
    Option.isSome_iff_exists.mp (by decide +kernel)
  have hread : (exec (Stdio.step pingSerde) .opening silenced).map (fun w =>
      (w.connectionClosed, w.writer.endedWell)) =
      some (true, true) := by decide +kernel
  rw [hw] at hread
  obtain ⟨hclosed, hwriter⟩ := Prod.mk.inj (Option.some.inj hread)
  obtain ⟨tr, hr, hlabels⟩ := Lts.Run.labels (M := stdio pingSerde) (fun _ _ _ hs => hs) silenced hw
    (.start _)
  have hpanic : Stdio.Event.panic 0 ∈ tr.map Taken.label := by
    rw [List.nil_append] at hr
    rw [hlabels]
    decide
  obtain ⟨x, hx, hlabel⟩ := List.mem_map.mp hpanic
  refine ⟨w, tr, x, hr, hx, hlabel, hclosed, ?_⟩
  rintro ⟨e, he⟩
  rw [he] at hwriter
  cases hwriter

theorem exists_unstreamed : ∃ (w w' : Answering) (tr : List (Taken Answering Answering.Event)),
    w.stage = .selecting .call ∧ w'.sent = [.request (notice "first")] ∧ answering.Run
      (.opening (some (.string "1")) false ⟨false, true⟩) (tr ++ [⟨w, .poll .panicked, w'⟩]) w' := by
  let w₀ := Answering.opening (some (.string "1")) false ⟨false, true⟩
  let w := w₀.send (notice "first")
  let w' : Answering := { w.finish .panicked with ended := some none }
  have hsend : answering.step w₀ (.send (notice "first")) w := rfl
  have hpanic : answering.step w (.poll .panicked) w' := rfl
  exact ⟨w, w', _, rfl, rfl, ((Lts.Run.start w₀).next hsend).next hpanic⟩

/-- Neither a request that panics over stdio is answered, where nothing else goes wrong, nor one
that panics over HTTP in its first poll. -/
theorem panic_unanswered : (∃ (w : Stdio) (tr : List (Taken Stdio Stdio.Event))
      (x : Taken Stdio Stdio.Event), (stdio pingSerde).Run .opening tr w ∧ x ∈ tr ∧
      x.label = .panic 0 ∧ w.connectionClosed = true ∧ ¬ w.WriteFailed ∧
      answersTo 0 w.written = []) ∧
    ∃ (w : Answering) (tr : List (Taken Answering Answering.Event)),
      answering.Run (.opening (some (.string "1")) false ⟨false, true⟩) tr w ∧
      (∃ x ∈ tr, x.label = .poll .panicked) ∧ w.sent = [.request (notice "first")] ∧
      ¬ w.PanicAnswered := by
  constructor
  · obtain ⟨w, tr, x, hr, hx, hlabel, hclosed, hwrites⟩ := exists_silenced
    obtain ⟨hstep, _⟩ := hr.taken hx
    rw [hlabel] at hstep
    have hstays : w.Panicked 0 := hr.stays (P := fun w => w.Panicked 0)
      (fun _ _ _ => Stdio.Panicked.step) hx (Stdio.panic_step hstep).1
    have hinit := Stdio.answersTo_prefix (n := 0) (Stdio.run_answered rfl hr).inOrder
    rw [Stdio.unanswered_of_panicked rfl hr hstays] at hinit
    exact ⟨w, tr, x, hr, hx, hlabel, hclosed, hwrites, List.prefix_nil.mp hinit⟩
  · obtain ⟨w, w', tr, hs, hsent, hr⟩ := exists_unstreamed
    have hin : (⟨w, .poll .panicked, w'⟩ : Taken Answering Answering.Event) ∈
        tr ++ [⟨w, .poll .panicked, w'⟩] := List.mem_append_right _ (.head _)
    obtain ⟨hstep, before, hbefore⟩ := hr.taken hin
    have hi := Answering.init_opening (some (.string "1")) false ⟨false, true⟩
    have hiff := Answering.panicAnswered_iff (x := ⟨w, .poll .panicked, w'⟩)
      (Answering.run_kept hi hbefore) (Answering.run_requests hi hbefore) rfl hstep
    refine ⟨w', _, hr, ⟨_, hin, rfl⟩, hsent, fun h => ?_⟩
    obtain ⟨stream, hstream⟩ := hiff.mp h
    cases hs.symm.trans hstream

theorem panics_answered_twice : ∃ (f₀ f : Nat → Answering)
    (tr : List (Taken (Nat → Answering) (Nat × Answering.Event))) (x : _),
    (answering.each Nat).Run f₀ tr f ∧ x ∈ tr ∧ (x.target 0).PanicAnswered ∧
    ∃ (w : Stdio) (tr : List (Taken Stdio Stdio.Event)) (x : _),
      (stdio pingSerde).Run .opening tr w ∧ PanicsStdio pingSerde tr 0 x w := by
  obtain ⟨w, w', tr, hs, hr⟩ := exists_panicking
  let f₀ : Nat → Answering := fun _ => .opening (some (.string "1")) false ⟨false, true⟩
  obtain ⟨tr', hr', hsame⟩ := hr.lift (f := f₀) (i := 0) rfl
  obtain ⟨x, hx, hlabel, hsource⟩ := hsame _ (List.mem_append_right _ (.head _))
  have hhttp := (panics_answered pingSerde).1 f₀ _ tr' (fun _ => Answering.init_opening _ _ _) hr' x hx 0 hlabel
  obtain ⟨v, trᵥ, y, hv, hy, hlabel', _⟩ := exists_silenced
  have hstdio := (panics_answered pingSerde).2 _ v trᵥ rfl hv y hy 0 hlabel'
  refine ⟨f₀, _, tr', x, hr', hx, hhttp.answered.mpr ⟨⟨.running .call, []⟩, ?_⟩, v, trᵥ, y, hv, hstdio⟩
  rw [hsource]
  exact hs

end Tronc.Mcp
