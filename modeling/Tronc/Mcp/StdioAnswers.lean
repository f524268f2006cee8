import Tronc.Mcp.Lines

namespace Tronc.Mcp

open Transition

/-- The messages that answer a line. -/
def answersTo (n : Nat) (items : List Outgoing) : List JsonRpcMessage :=
  (items.filter fun item => item.answers = some n).map Outgoing.message

theorem answersTo_append (n : Nat) (items items' : List Outgoing) :
    answersTo n (items ++ items') = answersTo n items ++ answersTo n items' := by
  simp [answersTo]

theorem answersTo_self (n : Nat) (message : JsonRpcMessage) :
    answersTo n [⟨message, some n⟩] = [message] := by
  simp [answersTo]

theorem answersTo_other {n : Nat} {answers : Option Nat} (h : answers ≠ some n)
    (message : JsonRpcMessage) : answersTo n [⟨message, answers⟩] = [] := by
  simp [answersTo, h]

theorem mem_answersTo {n : Nat} {item : Outgoing} {items : List Outgoing} (h : item ∈ items)
    (hn : item.answers = some n) : item.message ∈ answersTo n items :=
  List.mem_map.mpr ⟨item, List.mem_filter.mpr ⟨h, decide_eq_true hn⟩, rfl⟩

theorem InputLine.length_owed_le (line : InputLine) : line.owed.length ≤ 1 := by
  cases line with
  | blank | answer => exact Nat.zero_le _
  | refused => exact Nat.le_refl _
  | request task =>
    show task.owed.length ≤ 1
    unfold RequestTask.owed
    split
    all_goals simp

namespace Stdio

variable {serde : Serde} {w w' : Stdio} {e : Event}

/-- What the line read `n`-th has been given. -/
def owedTo (w : Stdio) (n : Nat) : List JsonRpcMessage :=
  match w.lines[n]? with
  | some line => line.owed
  | none => []

theorem owedTo_eq {n : Nat} {line : InputLine} (h : w.lines[n]? = some line) :
    w.owedTo n = line.owed := by
  unfold owedTo
  rw [h]

/-- Whether writing failed: on stdout, or on the way to it. -/
def WriteFailed (w : Stdio) : Prop := ∃ e, w.writer = .ended (.error e)

/-- A message accepted answers its line, and no line is answered twice. -/
structure Owed (w : Stdio) : Prop where
  given : ∀ n, (answersTo n w.outbox.accepted).Sublist (w.owedTo n)
  all : ¬ w.WriteFailed → ∀ n, answersTo n w.outbox.accepted = w.owedTo n
  requests : ∀ item ∈ w.outbox.accepted, item.answers = none →
    ∃ request, item.message = .request request

theorem Owed.frame (k : Owed w) (hlines : ∀ n, w'.owedTo n = w.owedTo n)
    (haccepted : w'.outbox.accepted = w.outbox.accepted)
    (hfailed : w.WriteFailed → w'.WriteFailed) : Owed w' := by
  refine ⟨fun n => ?_, fun hn n => ?_, ?_⟩
  · rw [hlines, haccepted]
    exact k.given n
  · rw [hlines, haccepted]
    exact k.all (fun h => hn (hfailed h)) n
  · rw [haccepted]
    exact k.requests

/-- A message that answers no line. -/
theorem Owed.send (k : Owed w) (request : JsonRpcRequest) : Owed (w.send (.request request) none) := by
  cases hc : w.outbox.closed with
  | true =>
    have hsame := Mpsc.Channel.send_closed hc (⟨.request request, none⟩ : Outgoing)
    exact k.frame (fun _ => rfl) (congrArg Mpsc.Channel.accepted hsame) id
  | false =>
    have ha := Mpsc.Channel.accepted_send hc (⟨.request request, none⟩ : Outgoing)
    have hanswers (n : Nat) : answersTo n (w.outbox.send ⟨.request request, none⟩).accepted =
        answersTo n w.outbox.accepted := by
      have hne : (none : Option Nat) ≠ some n := nofun
      rw [ha, answersTo_append, answersTo_other hne, List.append_nil]
    refine ⟨fun n => ?_, fun hn n => ?_, fun item hitem hnone => ?_⟩
    · show (answersTo n (w.outbox.send _).accepted).Sublist (w.owedTo n)
      rw [hanswers]
      exact k.given n
    · exact (hanswers n).trans (k.all hn n)
    · have hitem : item ∈ (w.outbox.send ⟨.request request, none⟩).accepted := hitem
      rw [ha] at hitem
      rcases List.mem_append.mp hitem with hitem | hitem
      · exact k.requests item hitem hnone
      · rw [List.mem_singleton.mp hitem]
        exact ⟨request, rfl⟩

/-- A response given to a line that had none; it is lost only where writing has failed. -/
theorem Owed.give (k : Owed w) {n : Nat} {response : JsonRpcResponse} (hnone : w.owedTo n = [])
    (hopen : ¬ w.WriteFailed → w.outbox.closed = false) (hwriter : w'.writer = w.writer)
    (houtbox : w'.outbox = w.outbox.send ⟨.response response, some n⟩)
    (hgiven : w'.owedTo n = [.response response]) (hrest : ∀ m, m ≠ n → w'.owedTo m = w.owedTo m) :
    Owed w' := by
  have hbefore : answersTo n w.outbox.accepted = [] := by
    have hsub := k.given n
    rw [hnone] at hsub
    exact List.sublist_nil.mp hsub
  cases hc : w.outbox.closed with
  | true =>
    rw [Mpsc.Channel.send_closed hc] at houtbox
    have hfailed : w.WriteFailed := by
      by_contra hn
      rw [hopen hn] at hc
      cases hc
    have hfailed' : w'.WriteFailed := by
      obtain ⟨e, he⟩ := hfailed
      exact ⟨e, hwriter.trans he⟩
    refine ⟨fun m => ?_, fun hn => absurd hfailed' hn, ?_⟩
    · rw [houtbox]
      by_cases hm : m = n
      · rw [hm, hbefore]
        exact List.nil_sublist _
      · rw [hrest m hm]
        exact k.given m
    · rw [houtbox]
      exact k.requests
  | false =>
    have ha := Mpsc.Channel.accepted_send hc (⟨.response response, some n⟩ : Outgoing)
    have hthis : answersTo n w'.outbox.accepted = w'.owedTo n := by
      rw [houtbox, ha, answersTo_append, hbefore, answersTo_self, hgiven]
      rfl
    have hother {m : Nat} (hm : m ≠ n) :
        answersTo m w'.outbox.accepted = answersTo m w.outbox.accepted := by
      have hne : some n ≠ some m := fun h => hm (Option.some.inj h).symm
      rw [houtbox, ha, answersTo_append, answersTo_other hne, List.append_nil]
    refine ⟨fun m => ?_, fun hn m => ?_, fun item hitem hin => ?_⟩
    · by_cases hm : m = n
      · rw [hm, hthis]
      · rw [hother hm, hrest m hm]
        exact k.given m
    · by_cases hm : m = n
      · rw [hm]
        exact hthis
      · rw [hother hm, hrest m hm]
        exact k.all (fun ⟨e, he⟩ => hn ⟨e, hwriter.trans he⟩) m
    · rw [houtbox, ha] at hitem
      rcases List.mem_append.mp hitem with hitem | hitem
      · exact k.requests item hitem hin
      · rw [List.mem_singleton.mp hitem] at hin
        cases hin

/-- A line read with nothing owed to it. -/
theorem owedTo_push {line : InputLine} (h : line.owed = []) (n : Nat) :
    owedTo { w with lines := w.lines ++ [line] } n = w.owedTo n := by
  unfold owedTo
  dsimp only
  rcases Nat.lt_trichotomy n w.lines.length with hlt | rfl | hgt
  · rw [List.getElem?_append_left hlt]
  · rw [List.getElem?_concat_length, List.getElem?_eq_none (Nat.le_refl _)]
    exact h
  · rw [List.getElem?_eq_none (by rw [List.length_append]; exact hgt),
      List.getElem?_eq_none hgt.le]

theorem owedTo_setTask {n : Nat} {task task' : RequestTask} (htask : w.task n = some task)
    (m : Nat) : (w.setTask n task').owedTo m = if m = n then task'.owed else w.owedTo m := by
  have hget := task_eq_some.mp htask
  have hlt : n < w.lines.length := (List.getElem?_eq_some_iff.mp hget).1
  unfold owedTo setTask
  dsimp only
  by_cases hm : m = n
  · rw [if_pos hm, hm, List.getElem?_set_self hlt]
    rfl
  · rw [if_neg hm, List.getElem?_set_ne (Ne.symm hm)]

theorem owedTo_abortAll (n : Nat) : w.abortAll.owedTo n = w.owedTo n := by
  unfold owedTo abortAll
  dsimp only
  rw [List.getElem?_map]
  cases w.lines[n]? with
  | none => rfl
  | some line => exact owed_abort line

theorem Owed.serve (k : Owed w) (h : Served w w') : Owed w' := by
  cases h with
  | cancels => exact k.frame owedTo_abortAll rfl id
  | timesOut => exact k.frame owedTo_abortAll rfl id
  | ends | abandons | rejects | shuts | closes | drains | stops | awaits | returns =>
    exact k.frame (fun _ => rfl) rfl id

theorem Owed.write (k : Owed w) (h : Wrote serde w w') : Owed w' := by
  have running (stage : WriterStage) (hw : w.writer = stage) (hs : ∀ e, stage ≠ .ended (.error e)) :
      w.WriteFailed → w'.WriteFailed := by
    rintro ⟨e, he⟩
    exact absurd (hw.symm.trans he) (hs e)
  have receives {stopped : Bool} (hw : w.writer = receiving stopped) :
      w.WriteFailed → w'.WriteFailed :=
    running _ hw fun e => ne_of_isReceiving (isReceiving_receiving stopped) rfl
  cases h with
  | stops hw => exact k.frame (fun _ => rfl) rfl (running _ hw nofun)
  | closes hw => exact k.frame (fun _ => rfl) rfl (running _ hw nofun)
  | takes item rest _ _ hw hr =>
    exact k.frame (fun _ => rfl) (Mpsc.Channel.accepted_recv hr) (receives hw)
  | encodes item rest _ hw hr =>
    have ha : rest.accepted = w.outbox.accepted := Mpsc.Channel.accepted_recv hr
    exact k.frame (fun _ => rfl) ha (receives hw)
  | finishes _ hw => exact k.frame (fun _ => rfl) rfl (receives hw)
  | flushes _ _ hw => exact k.frame (fun _ => rfl) rfl (running _ hw nofun)
  | chunks _ _ _ _ hw => exact k.frame (fun _ => rfl) rfl (running _ hw nofun)
  | fails _ _ _ hw => exact k.frame (fun _ => rfl) rfl (running _ hw nofun)

/-- While `serve_lines` has not settled, the outbox is open unless writing failed. -/
theorem open_of_unsettled (s : Shut w) (o : Ordered serde w) (h : w.stage.settled = false)
    (hn : ¬ w.WriteFailed) : w.outbox.closed = false := by
  cases hc : w.outbox.closed with
  | false => rfl
  | true =>
    rcases o.closed hc with hstop | hfailed
    · rw [s.unstopped h] at hstop
      cases hstop
    · exact absurd hfailed hn

theorem Owed.step (k : Owed w) (s : Shut w) (o : Ordered serde w)
    (h : w.step serde e = some w') : Owed w' := by
  cases step_moves h with
  | reads text line hs howed => exact k.frame (owedTo_push howed) rfl id
  | refuses text refusal hs =>
    have hnone : w.owedTo w.lines.length = [] := by
      unfold owedTo
      rw [List.getElem?_eq_none (Nat.le_refl _)]
    have hopen : ¬ w.WriteFailed → w.outbox.closed = false :=
      open_of_unsettled s o (by rw [hs]; rfl)
    refine k.give hnone hopen rfl rfl ?_ fun m hm => ?_
    · unfold owedTo Stdio.send
      dsimp only
      rw [List.getElem?_concat_length]
      rfl
    · unfold owedTo Stdio.send
      dsimp only
      rcases Nat.lt_or_gt_of_ne hm with hlt | hgt
      · rw [List.getElem?_append_left hlt]
      · rw [List.getElem?_eq_none (by rw [List.length_append]; exact hgt),
          List.getElem?_eq_none hgt.le]
  | sends request => exact k.send request
  | turns e n task task' htask t =>
    refine k.frame (fun m => ?_) rfl id
    rw [owedTo_setTask htask]
    split
    · rename_i hm
      rw [hm, t.owed, owedTo_eq (task_eq_some.mp htask)]
      rfl
    · rfl
  | responds n task response htask hs =>
    have hnone : w.owedTo n = [] := by
      rw [owedTo_eq (task_eq_some.mp htask), InputLine.owed, RequestTask.owed, hs]
    have hrunning : ∀ how, task.stage ≠ .ended how := by
      intro how hsame
      rw [hs] at hsame
      cases hsame
    have hunjoined := s.unjoined htask hrunning
    have hopen : ¬ w.WriteFailed → w.outbox.closed = false :=
      open_of_unsettled s o (s.unsettled htask hunjoined)
    have htask' : (w.send (.response response) (some n)).task n = some task := htask
    refine k.give hnone hopen rfl rfl ?_ fun m hm => ?_
    · rw [owedTo_setTask htask', if_pos rfl]
      rfl
    · rw [owedTo_setTask htask', if_neg hm]
      rfl
  | serves _ _ h => exact k.serve h
  | writes _ _ h => exact k.write h

theorem run_kept {w₀ : Stdio} {tr : List (Taken Stdio Event)} (hi : (stdio serde).init w₀)
    (hr : (stdio serde).Run w₀ tr w) : Shut w ∧ Ordered serde w ∧ Owed w := by
  refine hr.invariant (P := fun w => Shut w ∧ Ordered serde w ∧ Owed w) ?_ ?_
  · intro s e t ⟨hs, ho, hk⟩ hstep
    exact ⟨hs.step hstep, ho.step hstep, hk.step hs ho hstep⟩
  · obtain rfl : w₀ = .opening := hi
    refine ⟨⟨fun line hline => absurd hline List.not_mem_nil, nofun, nofun, nofun, nofun, nofun,
      nofun⟩, ⟨nofun, fun _ => ⟨rfl, rfl⟩, nofun, nofun, nofun, nofun⟩,
      ⟨fun _ => List.Sublist.refl _, fun _ _ => rfl, ?_⟩⟩
    intro item hitem
    exact absurd hitem List.not_mem_nil

/-- The handling of a request returned a response. -/
def Handled (w : Stdio) (n : Nat) (response : JsonRpcResponse) : Prop :=
  ∃ task, w.task n = some task ∧
    (task.stage = .responding response ∨ task.stage = .ended (.returned (some response)))

theorem task_setTask {n m : Nat} {task task' : RequestTask} (htask : w.task n = some task) :
    (w.setTask n task').task m = if m = n then some task' else w.task m := by
  have hlt : n < w.lines.length := (List.getElem?_eq_some_iff.mp (task_eq_some.mp htask)).1
  unfold Stdio.task setTask
  dsimp only
  by_cases hm : m = n
  · rw [if_pos hm, hm, List.getElem?_set_self hlt]
  · rw [if_neg hm, List.getElem?_set_ne (Ne.symm hm)]

theorem getElem?_push {n : Nat} {line : InputLine} (h : w.lines[n]? = some line)
    (more : InputLine) : (w.lines ++ [more])[n]? = some line := by
  rw [List.getElem?_append_left (List.getElem?_eq_some_iff.mp h).1]
  exact h

/-- What one step makes of a request's task. -/
inductive Goes (task task' : RequestTask) : Prop where
  | stays : task'.stage = task.stage → Goes task task'
  | turns : Turned task task' → Goes task task'
  | responds (response : JsonRpcResponse) : task.stage = .responding response →
      task'.stage = .ended (.returned (some response)) → Goes task task'

theorem goes_abortAll {n : Nat} {task : RequestTask} (htask : w.task n = some task) :
    ∃ task', w.abortAll.task n = some task' ∧ Goes task task' := by
  refine ⟨{ task with aborting := task.aborting || !task.joined }, task_eq_some.mpr ?_, .stays rfl⟩
  show (w.lines.map InputLine.abort)[n]? = _
  rw [List.getElem?_map, task_eq_some.mp htask]
  rfl

theorem task_step {n : Nat} {task : RequestTask} (htask : w.task n = some task)
    (hs : w.step serde e = some w') : ∃ task', w'.task n = some task' ∧ Goes task task' := by
  have push (more : InputLine) : Stdio.task { w with lines := w.lines ++ [more] } n = some task :=
    task_eq_some.mpr (getElem?_push (task_eq_some.mp htask) more)
  cases step_moves hs with
  | reads text line => exact ⟨task, push line, .stays rfl⟩
  | refuses text refusal => exact ⟨task, push _, .stays rfl⟩
  | sends => exact ⟨task, htask, .stays rfl⟩
  | turns e m task₁ task₂ htask₁ t =>
    by_cases hm : n = m
    · subst hm
      obtain rfl : task = task₁ := Option.some.inj (htask.symm.trans htask₁)
      exact ⟨task₂, by rw [task_setTask htask, if_pos rfl], .turns t⟩
    · exact ⟨task, by rw [task_setTask htask₁, if_neg hm]; exact htask, .stays rfl⟩
  | responds m task₁ response htask₁ hs₁ =>
    have htask₁' : (w.send (.response response) (some m)).task m = some task₁ := htask₁
    by_cases hm : n = m
    · subst hm
      obtain rfl : task = task₁ := Option.some.inj (htask.symm.trans htask₁)
      exact ⟨_, by rw [task_setTask htask₁', if_pos rfl], .responds response hs₁ rfl⟩
    · exact ⟨task, by rw [task_setTask htask₁', if_neg hm]; exact htask, .stays rfl⟩
  | serves _ _ h =>
    cases h with
    | cancels => exact goes_abortAll htask
    | timesOut => exact goes_abortAll htask
    | ends | abandons | rejects | shuts | closes | drains | stops | awaits | returns =>
      exact ⟨task, htask, .stays rfl⟩
  | writes _ _ h =>
    cases h with
    | stops | closes | takes | encodes | finishes | flushes | chunks | fails =>
      exact ⟨task, htask, .stays rfl⟩

theorem Handled.step {n : Nat} {response : JsonRpcResponse} (h : w.Handled n response)
    (hs : w.step serde e = some w') : w'.Handled n response := by
  obtain ⟨task, htask, hstage⟩ := h
  obtain ⟨task', htask', hgoes⟩ := task_step htask hs
  refine ⟨task', htask', ?_⟩
  cases hgoes with
  | stays heq =>
    rw [heq]
    exact hstage
  | turns t => exact hstage.imp (t.responding response) (t.ended _)
  | responds response' hr hended =>
    rw [hr] at hstage
    rcases hstage with hstage | hstage
    · obtain rfl := TaskStage.responding.inj hstage
      exact .inr hended
    · cases hstage

theorem refused_step {n : Nat} {refusal : JsonRpcResponse}
    (h : w.lines[n]? = some (.refused refusal)) (hs : w.step serde e = some w') :
    w'.lines[n]? = some (.refused refusal) := by
  have abort : w.abortAll.lines[n]? = some (.refused refusal) := by
    show (w.lines.map InputLine.abort)[n]? = _
    rw [List.getElem?_map, h]
    rfl
  have set {m : Nat} {task task' : RequestTask} (htask : w.task m = some task) :
      (w.lines.set m (.request task'))[n]? = some (.refused refusal) := by
    have hne : m ≠ n := by
      rintro rfl
      rw [task_eq_some.mp htask] at h
      cases h
    rw [List.getElem?_set_ne hne]
    exact h
  cases step_moves hs with
  | reads text line => exact getElem?_push h line
  | refuses text refusal => exact getElem?_push h _
  | sends => exact h
  | turns e m task task' htask => exact set htask
  | responds m task response htask => exact set htask
  | serves _ _ hserved =>
    cases hserved with
    | cancels => exact abort
    | timesOut => exact abort
    | ends | abandons | rejects | shuts | closes | drains | stops | awaits | returns => exact h
  | writes _ _ hwrote =>
    cases hwrote with
    | stops | closes | takes | encodes | finishes | flushes | chunks | fails => exact h

end Stdio

/-- What a stdio connection's client is written. -/
structure LinesAnswered (serde : Serde) (tr : List (Taken Stdio Stdio.Event)) (w : Stdio) :
    Prop where
  atMostOnce : ∀ n, (answersTo n w.written).length ≤ 1
  /-- A response written is the one a request or a refused line was given. -/
  responses : ∀ item ∈ w.written, ∀ response, item.message = .response response →
    ∃ n line, item.answers = some n ∧ w.lines[n]? = some line ∧ line.owed = [.response response]
  /-- Messages are written in the order they were queued in, each once. -/
  inOrder : w.written <+: w.outbox.accepted
  /-- Their lines are whole, but for one in the making, or at which writing failed. -/
  whole : ∃ items part, w.written ++ items <+: w.outbox.accepted ∧ items.length ≤ 1 ∧
    part <+: Stdio.textOf serde items ∧ w.output = Stdio.textOf serde w.written ++ part
  /-- Everything accepted before the writer closed its queue is written when `serve_lines`
  returns. -/
  complete : ∀ result, w.stage = .returned result → ¬ w.WriteFailed →
    w.written = w.outbox.accepted ∧ w.output = Stdio.textOf serde w.outbox.accepted
  refused : ∀ result, w.stage = .returned result → ¬ w.WriteFailed →
    ∀ x ∈ tr, ∀ text refusal, x.label = .line text → Text.trim text ≠ "" →
      JsonRpcMessage.parse serde text = .error refusal →
      answersTo x.source.lines.length w.written = [.response refusal]
  answered : ∀ result, w.stage = .returned result → ¬ w.WriteFailed →
    ∀ x ∈ tr, ∀ n response, x.label = .returns n (some response) →
      answersTo n w.written = [.response response]
  closed : ∀ result, w.stage = .returned result →
    w.connectionClosed = true ∧ w.pendingClosed = true

namespace Stdio

variable {serde : Serde} {w w' : Stdio}

theorem Ordered.inOrder (o : Ordered serde w) : ∃ items part,
    w.outbox.taken = w.written ++ items ∧ items.length ≤ 1 ∧ part <+: textOf serde items ∧
      w.output = textOf serde w.written ++ part := by
  have nothing (ht : w.outbox.taken = w.written) (ho : w.output = textOf serde w.written) :
      ∃ items part, w.outbox.taken = w.written ++ items ∧ items.length ≤ 1 ∧
        part <+: textOf serde items ∧ w.output = textOf serde w.written ++ part :=
    ⟨[], [], by rw [List.append_nil, ht], Nat.zero_le _, List.nil_prefix, by
      rw [List.append_nil, ho]⟩
  cases hw : w.writer with
  | selecting =>
    obtain ⟨ht, ho⟩ := o.receives (by rw [hw]; rfl)
    exact nothing ht ho
  | flushing =>
    obtain ⟨ht, ho⟩ := o.receives (by rw [hw]; rfl)
    exact nothing ht ho
  | closing =>
    obtain ⟨ht, ho, _⟩ := o.closing hw
    exact nothing ht ho
  | writing item rest stopped =>
    obtain ⟨ht, done, hl, ho⟩ := o.writing item rest stopped hw
    refine ⟨[item], done, ht, Nat.le_refl _, ?_, ho⟩
    rw [textOf_singleton hl]
    exact List.prefix_append _ _
  | ended result =>
    cases result with
    | ok value =>
      obtain ⟨ht, ho, _⟩ := o.finished hw
      exact nothing ht ho
    | error e =>
      obtain ⟨item, ht, done, hinit, ho⟩ := o.failed e hw
      exact ⟨[item], done, ht, Nat.le_refl _, hinit, ho⟩

/-- A writer that ended well has written all that was accepted. -/
theorem complete_of_returned (s : Shut w) (o : Ordered serde w)
    {result : Except TransportError Unit} (hs : w.stage = .returned result)
    (hn : ¬ w.WriteFailed) :
    w.written = w.outbox.accepted ∧ w.output = textOf serde w.outbox.accepted := by
  obtain ⟨written, hw⟩ := s.returned result hs
  cases written with
  | error e => exact absurd ⟨e, hw⟩ hn
  | ok value =>
    obtain ⟨ht, ho, hq, _⟩ := o.finished hw
    have ha : w.outbox.accepted = w.written := by
      rw [Mpsc.Channel.accepted, ht, hq, List.append_nil]
    rw [ha]
    exact ⟨rfl, ho⟩

theorem owedTo_cons {n : Nat} {message : JsonRpcMessage} (h : message ∈ w.owedTo n) :
    ∃ line, w.lines[n]? = some line ∧ line.owed = [message] := by
  unfold owedTo at h
  split at h
  · rename_i line hline
    obtain ⟨message', howed⟩ := List.length_eq_one_iff.mp
      (Nat.le_antisymm line.length_owed_le (List.length_pos_of_mem h))
    rw [howed] at h
    rw [List.mem_singleton.mp h]
    exact ⟨line, hline, howed⟩
  · cases h

theorem answersTo_prefix {n : Nat} {items items' : List Outgoing} (h : items <+: items') :
    answersTo n items <+: answersTo n items' := by
  obtain ⟨rest, rfl⟩ := h
  rw [answersTo_append]
  exact List.prefix_append _ _

theorem readLine_refused {text : String} {refusal : JsonRpcResponse} (htext : Text.trim text ≠ "")
    (h : JsonRpcMessage.parse serde text = .error refusal) :
    (w.readLine serde text).lines = w.lines ++ [.refused refusal] := by
  unfold readLine
  dsimp only
  rw [if_neg htext, h]
  rfl

theorem handled_returns {n : Nat} {response : JsonRpcResponse}
    (h : w.step serde (.returns n (some response)) = some w') : w'.Handled n response := by
  obtain ⟨task, task', htask, hf, rfl⟩ := stepTask_eq h
  refine ⟨task', by rw [task_setTask htask, if_pos rfl], ?_⟩
  unfold handled at hf
  split at hf
  · obtain rfl := Option.some.inj hf
    exact .inl rfl
  all_goals cases hf

end Stdio

theorem Stdio.run_answered {serde : Serde} {w₀ w : Stdio} {tr : List (Taken Stdio Stdio.Event)}
    (hi : (stdio serde).init w₀) (hr : (stdio serde).Run w₀ tr w) : LinesAnswered serde tr w := by
  obtain ⟨s, o, k⟩ := Stdio.run_kept hi hr
  obtain ⟨items, part, htaken, hitems, hpart, hout⟩ := o.inOrder
  have haccepted : w.written ++ items <+: w.outbox.accepted := by
    rw [← htaken]
    exact List.prefix_append _ _
  have hwritten : w.written <+: w.outbox.accepted := (List.prefix_append _ _).trans haccepted
  have hgiven (n : Nat) : (answersTo n w.written).Sublist (w.owedTo n) :=
    (Stdio.answersTo_prefix hwritten).sublist.trans (k.given n)
  have hall {result} (hs : w.stage = .returned result) (hn : ¬ w.WriteFailed) (n : Nat) :
      answersTo n w.written = w.owedTo n := by
    rw [(Stdio.complete_of_returned s o hs hn).1]
    exact k.all hn n
  constructor
  · intro n
    refine (hgiven n).length_le.trans ?_
    unfold Stdio.owedTo
    split
    · exact InputLine.length_owed_le _
    · exact Nat.zero_le _
  · intro item hitem response hresponse
    cases hanswers : item.answers with
    | none =>
      obtain ⟨request, hrequest⟩ := k.requests item (hwritten.subset hitem) hanswers
      cases hresponse.symm.trans hrequest
    | some n =>
      have hmem := (hgiven n).subset (mem_answersTo hitem hanswers)
      obtain ⟨line, hline, howed⟩ := Stdio.owedTo_cons hmem
      exact ⟨n, line, rfl, hline, howed.trans (by rw [hresponse])⟩
  · exact hwritten
  · exact ⟨items, part, haccepted, hitems, hpart, hout⟩
  · exact fun result hs hn => Stdio.complete_of_returned s o hs hn
  · intro result hs hn x hx text refusal hlabel htext hparse
    obtain ⟨hstep, _⟩ := hr.taken hx
    rw [hlabel] at hstep
    obtain ⟨_, htarget⟩ := Stdio.whileReading_eq hstep
    have hline : x.target.lines[x.source.lines.length]? = some (.refused refusal) := by
      rw [← htarget, Stdio.readLine_refused htext hparse, List.getElem?_concat_length]
    have hstays := hr.stays (P := fun w => w.lines[x.source.lines.length]? = some (.refused refusal))
      (fun _ _ _ => Stdio.refused_step) hx hline
    rw [hall hs hn, Stdio.owedTo_eq hstays]
    rfl
  · intro result hs hn x hx n response hlabel
    obtain ⟨hstep, _⟩ := hr.taken hx
    rw [hlabel] at hstep
    obtain ⟨task, htask, hstage⟩ := hr.stays (P := fun w => w.Handled n response)
      (fun _ _ _ => Stdio.Handled.step) hx (Stdio.handled_returns hstep)
    have hended : task.stage = .ended (.returned (some response)) := by
      rcases hstage with hstage | hstage
      · have hunjoined := s.unjoined htask (by rw [hstage]; exact nofun)
        have hunsettled := s.unsettled htask hunjoined
        rw [hs] at hunsettled
        cases hunsettled
      · exact hstage
    rw [hall hs hn, Stdio.owedTo_eq (Stdio.task_eq_some.mp htask), InputLine.owed,
      RequestTask.owed, hended]
  · intro result hs
    exact ⟨s.connection (by rw [hs]; rfl), s.pending (by rw [hs]; rfl)⟩

/-- Whatever order lines, responses, the end of input and the drain's bound come in. -/
theorem lines_answered_once {serde : Serde} {w₀ w : Stdio} {tr : List (Taken Stdio Stdio.Event)}
    (hi : (stdio serde).init w₀) (hr : (stdio serde).Run w₀ tr w) : LinesAnswered serde tr w :=
  Stdio.run_answered hi hr

/-- A `ping` as a client writes it. -/
def pingText : String := "\x7b\x22jsonrpc\x22:\x222.0\x22,\x22id\x22:\x221\x22,\x22method\x22:\x22ping\x22\x7d"

def pongText : String := "\x7b\x22jsonrpc\x22:\x222.0\x22,\x22result\x22:\x7b\x7d,\x22id\x22:\x221\x22\x7d"

def pong : JsonRpcResponse := .success (some (.string "1")) (.object [])

/-- What `serde_json` makes of a `ping`, of its answer, and of the text `?`. -/
def pingSerde : Serde where
  fromStr text :=
    if text = pingText then
      .ok (.object [("jsonrpc", .string "2.0"), ("id", .string "1"), ("method", .string "ping")])
    else .error "expected value at line 1 column 1"
  toVec message :=
    if message = .response pong then some (Text.utf8 pongText)
    else some (Text.utf8 ("\x7b\x22jsonrpc\x22:\x222.0\x22,\x22error\x22:\x7b\x22code\x22:-32700,\x22message\x22:" ++
      "\x22Parse error: expected value at line 1 column 1\x22\x7d,\x22id\x22:null\x7d"))
  requestReason _ := "missing field"
  responseReason _ := "missing field"

/-- A line that is refused and a `ping`, which is answered while the connection drains. -/
def pinged : List Stdio.Event :=
  [.line "?", .line pingText, .write, .chunk 500, .write, .endOfInput, .serve,
    .returns 1 (some pong), .respond 1, .join 1, .serve, .serve, .write, .write, .write,
    .chunk 500, .write, .write, .serve, .serve]

theorem lines_answered_once_pinged : ∃ tr w, (stdio pingSerde).Run .opening tr w ∧
    w.written.length = 2 ∧ answersTo 1 w.written = [.response pong] ∧
    LinesAnswered pingSerde tr w := by
  have hread : (exec (Stdio.step pingSerde) .opening pinged).map
      (fun w => (w.written.length, answersTo 1 w.written)) = some (2, [.response pong]) := by
    decide +kernel
  obtain ⟨w, hw, hfacts⟩ := Option.map_eq_some_iff.mp hread
  have hboth := Prod.mk.inj hfacts
  obtain ⟨tr, hr⟩ := Lts.Run.exec (M := stdio pingSerde) (I := fun _ => True)
    (fun _ _ _ _ hs => ⟨hs, trivial⟩) pinged trivial hw (.start _)
  exact ⟨tr, w, hr, hboth.1, hboth.2, lines_answered_once rfl hr⟩

end Tronc.Mcp
