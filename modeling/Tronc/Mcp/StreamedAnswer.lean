import Tronc.Mcp.CallStream

namespace Tronc.Mcp

open Transition

namespace Answering

variable {w w' : Answering} {e : Event}

/-- What one step does to the answer. -/
inductive Moves (w : Answering) : Event → Answering → Prop where
  | sends (request : JsonRpcRequest) : w.rendering.mayStream = true →
      Moves w (.send request)
        { w with
          outbox := w.outbox.send (.request request)
          sent := if w.ended.isNone then w.sent ++ [.request request] else w.sent }
  | unsent (request : JsonRpcRequest) : w.rendering.mayStream = false → Moves w (.send request) w
  | hangsUp (response : Option JsonRpcResponse) : w.ended = some response →
      Moves w .hangUp { w with outbox := w.outbox.close }
  | opens (first : JsonRpcMessage) (rest : Mpsc.Channel JsonRpcMessage) :
      w.stage = .selecting .outbox → w.outbox.recv = .message first rest →
      Moves w .run { w with outbox := rest, stage := .streaming ⟨.running .outbox, [first]⟩ }
  | selects (e : Event) (select select' : Select) : w.stage = .selecting select →
      Moves w e (w.goto (.selecting select'))
  | drains (response : Option JsonRpcResponse) (sent : List JsonRpcMessage)
      (message : JsonRpcMessage) (rest : Mpsc.Channel JsonRpcMessage) :
      w.stage = .draining response sent → w.outbox.recv = .message message rest →
      Moves w .run { w with outbox := rest, stage := .draining response (sent ++ [message]) }
  | answers (response : Option JsonRpcResponse) : w.stage = .draining response [] →
      w.outbox.queue = [] →
      Moves w .run (w.finish (.single (renderResponse response w.modern w.rendering)))
  | streams (response : Option JsonRpcResponse) (sent : List JsonRpcMessage) :
      w.stage = .draining response sent → sent ≠ [] →
      Moves w .run (w.goto (.streaming ⟨.draining response, sent⟩))
  | pops (phase : Phase) (message : JsonRpcMessage) (rest : List JsonRpcMessage) :
      w.stage = .streaming ⟨phase, message :: rest⟩ →
      Moves w .run ((w.deliver message).goto (.streaming ⟨phase, rest⟩))
  | delivers (phase : Phase) (message : JsonRpcMessage) (rest : Mpsc.Channel JsonRpcMessage) :
      w.stage = .streaming ⟨phase, []⟩ → phase ≠ .done → w.outbox.recv = .message message rest →
      Moves w .run { w.deliver message with outbox := rest }
  | reselects (e : Event) (select select' : Select) (sent : List JsonRpcMessage) :
      w.stage = .streaming ⟨.running select, sent⟩ →
      Moves w e (w.goto (.streaming ⟨.running select', sent⟩))
  | responds (response : JsonRpcResponse) : w.stage = .streaming ⟨.draining (some response), []⟩ →
      w.outbox.queue = [] →
      Moves w .run
        { w.deliver (.response response) with serving := false, stage := .streaming ⟨.done, []⟩ }
  | closes : w.stage = .streaming ⟨.draining none, []⟩ → w.outbox.queue = [] →
      Moves w .run (w.finish .finished)
  | ends : w.stage = .streaming ⟨.done, []⟩ → Moves w .run (w.finish .finished)
  | readies (response : Option JsonRpcResponse) : w.stage = .selecting .call →
      Moves w (.poll (.ready response))
        { w with stage := .draining response [], ended := some response }
  | panics : w.stage = .selecting .call →
      Moves w (.poll .panicked) { w.finish .panicked with ended := some none }
  | finishes (outcome : Poll) (response : Option JsonRpcResponse) (sent : List JsonRpcMessage) :
      w.stage = .streaming ⟨.running .call, sent⟩ →
      outcome = .ready response ∨ outcome = .panicked ∧ response = some (callFailed w.id) →
      Moves w (.poll outcome)
        { w with stage := .streaming ⟨.draining response, sent⟩, ended := some response }
  | disconnects : Moves w .disconnect { w.finish .dropped with ended := some (w.ended.getD none) }

theorem next_moves {stream : CallStream} (hs : w.stage = .streaming stream)
    (h : w.next stream = some w') : Moves w .run w' := by
  obtain ⟨phase, sent⟩ := stream
  unfold next at h
  split at h
  · rename_i message rest heq
    obtain rfl : sent = message :: rest := heq
    obtain rfl := Option.some.inj h
    exact .pops phase message rest hs
  · rename_i heq
    obtain rfl : sent = [] := heq
    split at h
    · rename_i heq
      obtain rfl : phase = .running .outbox := heq
      split at h
      · rename_i message rest hr
        obtain rfl := Option.some.inj h
        exact .delivers _ message rest hs nofun hr
      all_goals
        obtain rfl := Option.some.inj h
        exact .reselects .run _ .call [] hs
    · cases h
    · rename_i response heq
      obtain rfl : phase = .draining response := heq
      split at h
      · rename_i message rest hr
        obtain rfl := Option.some.inj h
        exact .delivers _ message rest hs nofun hr
      all_goals
        rename_i hr
        have hq : w.outbox.queue = [] := Mpsc.Channel.recv_nothing (by rw [hr]; nofun)
        cases response with
        | some response =>
          obtain rfl := Option.some.inj h
          exact .responds response hs hq
        | none =>
          obtain rfl := Option.some.inj h
          exact .closes hs hq
    · rename_i heq
      obtain rfl : phase = .done := heq
      obtain rfl := Option.some.inj h
      exact .ends hs

theorem run_moves (h : w.run = some w') : Moves w .run w' := by
  unfold run at h
  split at h
  · rename_i hs
    split at h
    · rename_i first rest hr
      obtain rfl := Option.some.inj h
      exact .opens first rest hs hr
    all_goals
      obtain rfl := Option.some.inj h
      exact .selects .run _ .call hs
  · rename_i response sent hs
    split at h
    · rename_i message rest hr
      obtain rfl := Option.some.inj h
      exact .drains response sent message rest hs hr
    all_goals
      rename_i hr
      have hq : w.outbox.queue = [] := Mpsc.Channel.recv_nothing (by rw [hr]; nofun)
      obtain rfl := Option.some.inj h
      split
      · rename_i hempty
        obtain rfl := List.isEmpty_iff.mp hempty
        exact .answers response hs hq
      · rename_i hempty
        exact .streams response sent hs fun hnil => hempty (List.isEmpty_iff.mpr hnil)
  · rename_i stream hs
    exact next_moves hs h
  all_goals cases h

theorem poll_moves {outcome : Poll} (h : w.poll outcome = some w') :
    Moves w (.poll outcome) w' := by
  unfold poll at h
  split at h
  · rename_i hs
    cases outcome with
    | pending =>
      obtain rfl := Option.some.inj h
      exact .selects _ _ .outbox hs
    | ready response =>
      obtain rfl := Option.some.inj h
      exact .readies response hs
    | panicked =>
      obtain rfl := Option.some.inj h
      exact .panics hs
  · rename_i sent hs
    cases outcome with
    | pending =>
      obtain rfl := Option.some.inj h
      exact .reselects _ _ .outbox sent hs
    | ready response =>
      obtain rfl := Option.some.inj h
      exact .finishes _ response sent hs (.inl rfl)
    | panicked =>
      obtain rfl := Option.some.inj h
      exact .finishes _ _ sent hs (.inr ⟨rfl, rfl⟩)
  · cases h

theorem step_moves (h : w.step e = some w') : Moves w e w' := by
  cases e with
  | send request =>
    obtain rfl := Option.some.inj h
    cases hr : w.rendering.mayStream with
    | true =>
      simp only [send, hr, if_true]
      exact .sends request hr
    | false =>
      simp only [send, hr, Bool.false_eq_true, if_false]
      exact .unsent request hr
  | hangUp =>
    simp only [step, hangUp] at h
    split at h
    · rename_i hended
      obtain ⟨response, hr⟩ := Option.isSome_iff_exists.mp hended
      obtain rfl := Option.some.inj h
      exact .hangsUp response hr
    · cases h
  | run => exact run_moves h
  | starve =>
    simp only [step, starve] at h
    split at h
    · rename_i hs
      obtain rfl := Option.some.inj h
      exact .selects _ _ .call hs
    · rename_i hs
      obtain rfl := Option.some.inj h
      exact .reselects _ _ .call [] hs
    · cases h
  | poll outcome => exact poll_moves h
  | disconnect =>
    simp only [step, disconnect] at h
    split at h
    all_goals
      cases h
      try exact .disconnects

/-- The last item, when the call produced a response. -/
def response (response : Option JsonRpcResponse) : List JsonRpcMessage :=
  response.toList.map .response

/-- The stream gave the client what was taken off the outbox, then the response. -/
structure Finished (w : Answering) : Prop where
  ended : ∃ response, w.ended = some response ∧
    w.delivered = w.outbox.taken ++ Answering.response response
  sent : w.sent <+: w.outbox.taken

/-- Nothing is lost between the call and its client. -/
structure Kept (w : Answering) : Prop where
  mute : w.rendering.mayStream = false → w.outbox.accepted = [] ∧ w.outbox.closed = true
  running : w.ended = none → w.outbox.accepted = w.sent ∧
    w.outbox.closed = !w.rendering.mayStream
  selecting : ∀ select, w.stage = .selecting select →
    w.ended = none ∧ w.outbox.taken = [] ∧ w.delivered = []
  draining : ∀ response sent, w.stage = .draining response sent →
    w.ended = some response ∧ w.outbox.taken = sent ∧ w.delivered = [] ∧
      w.sent <+: w.outbox.accepted
  single : ∀ body, w.stage = .single body → ∃ response, w.ended = some response ∧
    body = renderResponse response w.modern w.rendering ∧ w.sent = []
  streaming : ∀ stream, w.stage = .streaming stream → w.rendering.mayStream = true
  streamed : ∀ select sent, w.stage = .streaming ⟨.running select, sent⟩ →
    w.ended = none ∧ w.outbox.taken = w.delivered ++ sent
  answered : ∀ response sent, w.stage = .streaming ⟨.draining response, sent⟩ →
    w.ended = some response ∧ w.outbox.taken = w.delivered ++ sent ∧
      w.sent <+: w.outbox.accepted
  done : ∀ sent, w.stage = .streaming ⟨.done, sent⟩ → sent = [] ∧ w.Finished
  finished : w.stage = .finished → w.rendering.mayStream = true ∧ w.Finished

/-- What a stage says of the answer that has got there. -/
def Reached (w : Answering) : AnswerStage → Prop
  | .selecting _ => w.ended = none ∧ w.outbox.taken = [] ∧ w.delivered = []
  | .draining response sent =>
    w.ended = some response ∧ w.outbox.taken = sent ∧ w.delivered = [] ∧
      w.sent <+: w.outbox.accepted
  | .single body => ∃ response, w.ended = some response ∧
    body = renderResponse response w.modern w.rendering ∧ w.sent = []
  | .streaming ⟨.running _, sent⟩ => w.rendering.mayStream = true ∧
    w.ended = none ∧ w.outbox.taken = w.delivered ++ sent
  | .streaming ⟨.draining response, sent⟩ => w.rendering.mayStream = true ∧
    w.ended = some response ∧ w.outbox.taken = w.delivered ++ sent ∧ w.sent <+: w.outbox.accepted
  | .streaming ⟨.done, sent⟩ => w.rendering.mayStream = true ∧ sent = [] ∧ w.Finished
  | .finished => w.rendering.mayStream = true ∧ w.Finished
  | .panicked | .dropped => True

/-- Only the stage the answer is in has something to say. -/
theorem Kept.of_stage
    (mute : w.rendering.mayStream = false → w.outbox.accepted = [] ∧ w.outbox.closed = true)
    (running : w.ended = none → w.outbox.accepted = w.sent ∧
      w.outbox.closed = !w.rendering.mayStream) (h : w.Reached w.stage) : Kept w := by
  refine ⟨mute, running, fun select hs => ?_, fun response sent hs => ?_, fun body hs => ?_,
    fun stream hs => ?_, fun select sent hs => ?_, fun response sent hs => ?_, fun sent hs => ?_,
    fun hs => ?_⟩
  all_goals rw [hs] at h
  · exact h
  · exact h
  · exact h
  · obtain ⟨phase, sent⟩ := stream
    cases phase with
    | running select => exact h.1
    | draining response => exact h.1
    | done => exact h.1
  · exact h.2
  · exact h.2
  · exact h.2
  · exact h

theorem Kept.mayStream (k : Kept w) (h : w.outbox.accepted ≠ []) : w.rendering.mayStream = true := by
  cases hr : w.rendering.mayStream with
  | true => rfl
  | false => exact absurd (k.mute hr).1 h

theorem accepted_ne_nil {message : JsonRpcMessage} {rest : Mpsc.Channel JsonRpcMessage}
    (h : w.outbox.recv = .message message rest) : w.outbox.accepted ≠ [] := by
  unfold Mpsc.Channel.accepted
  rw [(Mpsc.Channel.recv_message h).1]
  simp

/-- What the outbox takes after the call's end comes after all the call sent. -/
theorem sent_prefix_send (h : w.sent <+: w.outbox.accepted) (message : JsonRpcMessage) :
    w.sent <+: (w.outbox.send message).accepted := by
  cases hc : w.outbox.closed with
  | true =>
    rw [Mpsc.Channel.send_closed hc]
    exact h
  | false =>
    rw [Mpsc.Channel.accepted_send hc]
    exact h.trans (List.prefix_append _ _)

theorem Kept.send (k : Kept w) (hmay : w.rendering.mayStream = true) (message : JsonRpcMessage) :
    Kept { w with
      outbox := w.outbox.send message
      sent := if w.ended.isNone then w.sent ++ [message] else w.sent } := by
  have htaken := Mpsc.Channel.taken_send w.outbox message
  have hended {response : Option JsonRpcResponse} (hr : w.ended = some response) :
      (if w.ended.isNone then w.sent ++ [message] else w.sent) = w.sent := by
    rw [hr]
    rfl
  have hfinished (h : w.Finished) : Finished { w with
      outbox := w.outbox.send message
      sent := if w.ended.isNone then w.sent ++ [message] else w.sent } := by
    obtain ⟨⟨response, hr, hd⟩, hs⟩ := h
    refine ⟨⟨response, hr, ?_⟩, ?_⟩
    · show w.delivered = (w.outbox.send message).taken ++ _
      rw [htaken]
      exact hd
    · show (if w.ended.isNone then w.sent ++ [message] else w.sent) <+: (w.outbox.send message).taken
      rw [hended hr, htaken]
      exact hs
  refine ⟨fun hm => ?_, fun hr => ?_, fun select hs => ?_, fun response sent hs => ?_,
    fun body hs => ?_, k.streaming, fun select sent hs => ?_, fun response sent hs => ?_,
    fun sent hs => ?_, fun hs => ?_⟩
  · rw [show w.rendering.mayStream = false from hm] at hmay
    cases hmay
  · have hr : w.ended = none := hr
    obtain ⟨ha, hc⟩ := k.running hr
    have hopen : w.outbox.closed = false := by rw [hc, hmay]; rfl
    refine ⟨?_, ?_⟩
    · show (w.outbox.send message).accepted = if w.ended.isNone then w.sent ++ [message] else w.sent
      rw [Mpsc.Channel.accepted_send hopen, ha, hr]
      rfl
    · show (w.outbox.send message).closed = !w.rendering.mayStream
      rw [Mpsc.Channel.closed_send]
      exact hc
  · obtain ⟨hr, ht, hd⟩ := k.selecting select hs
    exact ⟨hr, htaken.trans ht, hd⟩
  · obtain ⟨hr, ht, hd, hp⟩ := k.draining response sent hs
    refine ⟨hr, htaken.trans ht, hd, ?_⟩
    show (if w.ended.isNone then w.sent ++ [message] else w.sent) <+: _
    rw [hended hr]
    exact sent_prefix_send hp message
  · obtain ⟨response, hr, hb, hs⟩ := k.single body hs
    exact ⟨response, hr, hb, (hended hr).trans hs⟩
  · obtain ⟨hr, ht⟩ := k.streamed select sent hs
    exact ⟨hr, htaken.trans ht⟩
  · obtain ⟨hr, ht, hp⟩ := k.answered response sent hs
    refine ⟨hr, htaken.trans ht, ?_⟩
    show (if w.ended.isNone then w.sent ++ [message] else w.sent) <+: _
    rw [hended hr]
    exact sent_prefix_send hp message
  · obtain ⟨hnil, hf⟩ := k.done sent hs
    exact ⟨hnil, hfinished hf⟩
  · obtain ⟨hm, hf⟩ := k.finished hs
    exact ⟨hm, hfinished hf⟩

theorem Kept.step (k : Kept w) (h : w.step e = some w') : Kept w' := by
  cases step_moves h with
  | sends request hmay => exact k.send hmay (.request request)
  | unsent => exact k
  | hangsUp response hr =>
    have hfinished (h : w.Finished) : Finished { w with outbox := w.outbox.close } :=
      ⟨h.ended, h.sent⟩
    refine ⟨fun hm => ⟨(k.mute hm).1, rfl⟩, fun hn => ?_, k.selecting, k.draining, k.single,
      k.streaming, k.streamed, k.answered, fun sent hs => ?_, fun hs => ?_⟩
    · rw [show w.ended = none from hn] at hr
      cases hr
    · exact ⟨(k.done sent hs).1, hfinished (k.done sent hs).2⟩
    · exact ⟨(k.finished hs).1, hfinished (k.finished hs).2⟩
  | opens first rest hs hr =>
    obtain ⟨hq, ht, hc⟩ := Mpsc.Channel.recv_message hr
    have ha := Mpsc.Channel.accepted_recv hr
    obtain ⟨hn, ht', hd⟩ := k.selecting _ hs
    have hmay := k.mayStream (accepted_ne_nil hr)
    refine .of_stage (fun hm => ?_) (fun _ => ?_) ⟨hmay, hn, ?_⟩
    · rw [show w.rendering.mayStream = false from hm] at hmay
      cases hmay
    · exact ⟨ha.trans (k.running hn).1, hc.trans (k.running hn).2⟩
    · show rest.taken = w.delivered ++ [first]
      rw [ht, ht', hd]
  | selects e select select' hs => exact .of_stage k.mute k.running (k.selecting select hs)
  | drains response sent message rest hs hr =>
    obtain ⟨hq, ht, hc⟩ := Mpsc.Channel.recv_message hr
    have ha := Mpsc.Channel.accepted_recv hr
    obtain ⟨hn, ht', hd, hp⟩ := k.draining response sent hs
    refine .of_stage (fun hm => ?_) (fun hrun => ?_) ⟨hn, ?_, hd, ?_⟩
    · exact ⟨ha.trans (k.mute hm).1, hc.trans (k.mute hm).2⟩
    · exact ⟨ha.trans (k.running hrun).1, hc.trans (k.running hrun).2⟩
    · show rest.taken = sent ++ [message]
      rw [ht, ht']
    · show w.sent <+: rest.accepted
      rw [ha]
      exact hp
  | answers response hs hq =>
    obtain ⟨hn, ht, hd, hp⟩ := k.draining response [] hs
    have hnone : w.outbox.accepted = [] := by
      unfold Mpsc.Channel.accepted
      rw [ht, hq]
      rfl
    rw [hnone] at hp
    refine .of_stage (fun hm => ⟨(k.mute hm).1, rfl⟩) (fun hrun => ?_)
      ⟨response, hn, rfl, List.prefix_nil.mp hp⟩
    rw [show w.ended = none from hrun] at hn
    cases hn
  | streams response sent hs hne =>
    obtain ⟨hn, ht, hd, hp⟩ := k.draining response sent hs
    have hmay : w.rendering.mayStream = true := k.mayStream fun hnil => by
      rw [Mpsc.Channel.accepted, ht] at hnil
      exact hne (List.append_eq_nil_iff.mp hnil).1
    refine .of_stage k.mute k.running ⟨hmay, hn, ?_, hp⟩
    show w.outbox.taken = w.delivered ++ sent
    rw [ht, hd]
    rfl
  | pops phase message rest hs =>
    have hmay := k.streaming _ hs
    have hd (before after : List JsonRpcMessage) : w.outbox.taken = before ++ message :: after →
        w.outbox.taken = before ++ [message] ++ after := fun h => by
      rw [h, List.append_assoc]
      rfl
    refine .of_stage k.mute k.running ?_
    cases phase with
    | running select =>
      obtain ⟨hn, ht⟩ := k.streamed select _ hs
      exact ⟨hmay, hn, hd _ _ ht⟩
    | draining response =>
      obtain ⟨hn, ht, hp⟩ := k.answered response _ hs
      exact ⟨hmay, hn, hd _ _ ht, hp⟩
    | done => cases (k.done _ hs).1
  | delivers phase message rest hs hne hr =>
    obtain ⟨hq, ht, hc⟩ := Mpsc.Channel.recv_message hr
    have ha := Mpsc.Channel.accepted_recv hr
    have hmay := k.streaming _ hs
    have htaken : w.outbox.taken = w.delivered ++ [] →
        rest.taken = w.delivered ++ [message] ++ [] := fun h => by
      rw [ht, h, List.append_nil, List.append_nil]
    refine .of_stage (fun hm => ?_) (fun hrun => ?_) ?_
    · exact ⟨ha.trans (k.mute hm).1, hc.trans (k.mute hm).2⟩
    · exact ⟨ha.trans (k.running hrun).1, hc.trans (k.running hrun).2⟩
    · show Reached _ w.stage
      rw [hs]
      cases phase with
      | running select =>
        obtain ⟨hn, ht'⟩ := k.streamed select _ hs
        exact ⟨hmay, hn, htaken ht'⟩
      | draining response =>
        obtain ⟨hn, ht', hp⟩ := k.answered response _ hs
        refine ⟨hmay, hn, htaken ht', ?_⟩
        show w.sent <+: rest.accepted
        rw [ha]
        exact hp
      | done => exact absurd rfl hne
  | reselects e select select' sent hs =>
    exact .of_stage k.mute k.running ⟨k.streaming _ hs, k.streamed select sent hs⟩
  | responds response hs hq =>
    have hmay := k.streaming _ hs
    obtain ⟨hn, ht, hp⟩ := k.answered (some response) [] hs
    refine .of_stage k.mute k.running ⟨hmay, rfl, ⟨some response, hn, ?_⟩, ?_⟩
    · show w.delivered ++ [.response response] = w.outbox.taken ++ [.response response]
      rw [ht, List.append_nil]
    · show w.sent <+: w.outbox.taken
      rw [Mpsc.Channel.accepted, hq, List.append_nil] at hp
      exact hp
  | closes hs hq =>
    have hmay := k.streaming _ hs
    obtain ⟨hn, ht, hp⟩ := k.answered none [] hs
    refine .of_stage (fun hm => ⟨(k.mute hm).1, rfl⟩) (fun hrun => ?_)
      ⟨hmay, ⟨none, hn, ?_⟩, ?_⟩
    · rw [show w.ended = none from hrun] at hn
      cases hn
    · show w.delivered = w.outbox.taken ++ []
      rw [ht, List.append_nil, List.append_nil]
    · show w.sent <+: w.outbox.taken
      rw [Mpsc.Channel.accepted, hq, List.append_nil] at hp
      exact hp
  | ends hs =>
    have hmay := k.streaming _ hs
    obtain ⟨_, ⟨response, hn, hd⟩, hp⟩ := k.done [] hs
    refine .of_stage (fun hm => ⟨(k.mute hm).1, rfl⟩) (fun hrun => ?_)
      ⟨hmay, ⟨response, hn, hd⟩, hp⟩
    rw [show w.ended = none from hrun] at hn
    cases hn
  | readies response hs =>
    obtain ⟨hn, ht, hd⟩ := k.selecting _ hs
    refine .of_stage k.mute (fun hrun => nomatch hrun) ⟨rfl, ht, hd, ?_⟩
    show w.sent <+: w.outbox.accepted
    rw [(k.running hn).1]
  | panics hs =>
    exact .of_stage (fun hm => ⟨(k.mute hm).1, rfl⟩) (fun hrun => nomatch hrun) trivial
  | finishes outcome response sent hs =>
    have hmay := k.streaming _ hs
    obtain ⟨hn, ht⟩ := k.streamed _ sent hs
    refine .of_stage k.mute (fun hrun => nomatch hrun) ⟨hmay, rfl, ht, ?_⟩
    show w.sent <+: w.outbox.accepted
    rw [(k.running hn).1]
  | disconnects =>
    exact .of_stage (fun hm => ⟨(k.mute hm).1, rfl⟩) (fun hrun => nomatch hrun) trivial

theorem Kept.start (h : answering.init w) : Kept w := by
  obtain ⟨hs, hd, hsent, hn, ho⟩ := h
  have hstage (stage : AnswerStage) : w.stage = stage → stage = .selecting .call :=
    fun h => h.symm.trans hs
  have haccepted : w.outbox.accepted = [] := by
    rw [ho]
    split
    · rfl
    · rfl
  have hclosed : w.outbox.closed = !w.rendering.mayStream := by
    rw [ho]
    cases w.rendering.mayStream with
    | true => rfl
    | false => rfl
  refine ⟨fun hm => ⟨haccepted, by rw [hclosed, hm]; rfl⟩, fun _ => ⟨?_, hclosed⟩,
    fun select h => ⟨hn, ?_, hd⟩, fun _ _ h => ?_, fun _ h => ?_, fun _ h => ?_, fun _ _ h => ?_,
    fun _ _ h => ?_, fun _ h => ?_, fun h => ?_⟩
  · rw [haccepted, hsent]
  · exact (List.append_eq_nil_iff.mp haccepted).1
  all_goals cases hstage _ h

theorem run_kept {w₀ : Answering} {tr : List (Taken Answering Event)} (hi : answering.init w₀)
    (hr : answering.Run w₀ tr w) : Kept w :=
  hr.invariant (fun _ _ _ => Kept.step) (.start hi)

/-- A call sends its client no response. -/
def Requests (w : Answering) : Prop := ∀ message ∈ w.outbox.accepted, message.isResponse = false

theorem Requests.step (r : Requests w) (h : w.step e = some w') : Requests w' := by
  have same {accepted : List JsonRpcMessage} (h : accepted = w.outbox.accepted) :
      ∀ message ∈ accepted, message.isResponse = false := by
    rw [h]
    exact r
  cases step_moves h with
  | sends request =>
    intro message hm
    have hm : message ∈ (w.outbox.send (.request request)).accepted := hm
    cases hc : w.outbox.closed with
    | true =>
      rw [Mpsc.Channel.send_closed hc] at hm
      exact r message hm
    | false =>
      rw [Mpsc.Channel.accepted_send hc] at hm
      rcases List.mem_append.mp hm with hm | hm
      · exact r message hm
      · rw [List.mem_singleton.mp hm]
        rfl
  | opens first rest _ hr => exact same (Mpsc.Channel.accepted_recv hr)
  | drains _ _ message rest _ hr => exact same (Mpsc.Channel.accepted_recv hr)
  | delivers _ message rest _ _ hr => exact same (Mpsc.Channel.accepted_recv hr)
  | unsent | hangsUp | selects | answers | streams | pops | reselects | responds | closes | ends
  | readies | panics | finishes | disconnects => exact r

theorem run_requests {w₀ : Answering} {tr : List (Taken Answering Event)} (hi : answering.init w₀)
    (hr : answering.Run w₀ tr w) : Requests w := by
  refine hr.invariant (fun _ _ _ => Requests.step) ?_
  obtain ⟨_, _, _, _, ho⟩ := hi
  intro message hm
  rw [ho] at hm
  split at hm
  · exact absurd hm List.not_mem_nil
  · exact absurd hm List.not_mem_nil

/-- Of what the call sent and its response, only the response is one. -/
theorem Requests.filter (r : Requests w) {messages : List JsonRpcMessage}
    (h : messages <+: w.outbox.accepted) (response : Option JsonRpcResponse) :
    (messages ++ Answering.response response).filter JsonRpcMessage.isResponse =
      Answering.response response := by
  have hnone : messages.filter JsonRpcMessage.isResponse = [] := by
    refine List.filter_eq_nil_iff.mpr fun message hm => ?_
    rw [r message (h.subset hm)]
    exact Bool.false_ne_true
  rw [List.filter_append, hnone]
  cases response with
  | none => rfl
  | some response => rfl

/-- A single body is the response, if there is one. -/
theorem messages_renderResponse (response : Option JsonRpcResponse) (modern : Bool)
    (rendering : Rendering) :
    (renderResponse response modern rendering).messages = Answering.response response := by
  cases response with
  | none => rfl
  | some response =>
    simp only [renderResponse]
    split
    · rfl
    · split
      · rfl
      · rfl

end Answering

/-- The answer gave the client all that it should. -/
structure Whole (w : Answering) (items : List JsonRpcMessage) (response : Option JsonRpcResponse) :
    Prop where
  /-- What the call sent before it ended, then of what was sent later a first part, and the response
  last. -/
  ordered : ∃ late, items = w.sent ++ late ++ Answering.response response ∧
    w.sent ++ late <+: w.outbox.accepted
  once : items.filter JsonRpcMessage.isResponse = Answering.response response
  /-- One body is for a call that sent nothing. -/
  single : ∀ body, w.stage = .single body →
    body = renderResponse response w.modern w.rendering ∧ w.sent = []
  /-- A client that accepts no event stream gets the response, and gets it in one body. -/
  mute : w.rendering.mayStream = false →
    (∃ body, w.stage = .single body) ∧ items = Answering.response response

/-- An answer read to its end is whole. -/
theorem Answering.Kept.whole {w : Answering} {items : List JsonRpcMessage} (k : w.Kept)
    (r : w.Requests) (hread : w.read = some items) :
    ∃ response, w.ended = some response ∧ Whole w items response := by
  unfold Answering.read at hread
  split at hread
  · rename_i body hs
    obtain rfl := Option.some.inj hread
    obtain ⟨response, hn, hb, hsent⟩ := k.single body hs
    have hitems : body.messages = Answering.response response := by
      rw [hb]
      exact Answering.messages_renderResponse response w.modern w.rendering
    refine ⟨response, hn, ⟨[], ?_, ?_⟩, ?_, ?_, fun _ => ⟨⟨body, hs⟩, hitems⟩⟩
    · rw [hsent]
      exact hitems
    · rw [hsent]
      exact List.nil_prefix
    · rw [hitems]
      exact r.filter List.nil_prefix response
    · intro body' hs'
      obtain rfl : body = body' := AnswerStage.single.inj (hs.symm.trans hs')
      exact ⟨hb, hsent⟩
  · rename_i hs
    obtain rfl := Option.some.inj hread
    obtain ⟨hmay, ⟨response, hn, hd⟩, late, hlate⟩ := k.finished hs
    have htaken : w.outbox.taken <+: w.outbox.accepted := List.prefix_append _ _
    refine ⟨response, hn, ⟨late, ?_, ?_⟩, ?_, fun body hs' => ?_, fun hm => ?_⟩
    · rw [hd, hlate]
    · rw [hlate]
      exact htaken
    · rw [hd]
      exact r.filter htaken response
    · cases hs.symm.trans hs'
    · rw [hm] at hmay
      cases hmay
  all_goals cases hread

/-- Whatever a call sends its client and whenever, an answer read to its end is whole. -/
theorem streamed_answer_whole {w₀ w : Answering} {tr : List (Taken Answering Answering.Event)}
    {items : List JsonRpcMessage} (hi : answering.init w₀) (hr : answering.Run w₀ tr w)
    (hread : w.read = some items) :
    ∃ response, w.ended = some response ∧ Whole w items response :=
  (Answering.run_kept hi hr).whole (Answering.run_requests hi hr) hread

/-- A call at its first poll, on a server without sessions. -/
def Answering.opening (id : Option Json) (modern : Bool) (rendering : Rendering) : Answering where
  id := id
  modern := modern
  rendering := rendering
  serving := false
  outbox := if rendering.mayStream then .empty else Mpsc.Channel.empty.close
  stage := .selecting .call
  delivered := []
  sent := []
  ended := none

theorem Answering.init_opening (id : Option Json) (modern : Bool) (rendering : Rendering) :
    answering.init (.opening id modern rendering) := ⟨rfl, rfl, rfl, rfl, rfl⟩

/-- A notification a call sends its client. -/
def notice (method : String) : JsonRpcRequest := .received JSONRPC_VERSION method none none

/-- A call sends one message in its first poll, one in its second, and ends; a job it left sends a
third. -/
def chatty : List Answering.Event :=
  [.send (notice "first"), .poll .pending, .run, .run, .run, .send (notice "second"),
    .poll (.ready (some (.success (some (.string "1")) .null))), .run, .send (notice "third"), .run,
    .run, .hangUp, .run]

theorem streamed_answer_whole_chatty : ∃ (w : Answering) (items : List JsonRpcMessage)
    (response : Option JsonRpcResponse), items.length = 4 ∧ w.sent.length = 2 ∧
      w.ended = some response ∧ Whole w items response := by
  let w₀ := Answering.opening (some (.string "1")) false ⟨false, true⟩
  obtain ⟨w, hw⟩ : ∃ w, exec Answering.step w₀ chatty = some w :=
    Option.isSome_iff_exists.mp (by decide +kernel)
  have hread : (exec Answering.step w₀ chatty).map (fun w => (w.read.map List.length, w.sent.length))
      = some (some 4, 2) := by decide +kernel
  rw [hw] at hread
  have hboth := Prod.mk.inj (Option.some.inj hread)
  obtain ⟨items, hitems, hlength⟩ := Option.map_eq_some_iff.mp hboth.1
  obtain ⟨tr, hr⟩ := Lts.Run.exec (M := answering) (I := fun _ => True)
    (fun _ _ _ _ hs => ⟨hs, trivial⟩) chatty trivial hw (.start _)
  obtain ⟨response, hended, hwhole⟩ :=
    streamed_answer_whole (Answering.init_opening _ _ _) hr hitems
  exact ⟨w, items, response, hlength, hboth.2, hended, hwhole⟩

end Tronc.Mcp
