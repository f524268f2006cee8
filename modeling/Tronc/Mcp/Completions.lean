import Tronc.Mcp.Dispatch
import Tronc.Mcp.Isolation

namespace Tronc.Mcp

open CancelTree Transition

/-- What the observer holds while the message is dispatched. -/
def Stage.pending : Stage → Option Pending
  | .started pending | .drawn pending _ | .serving pending _ | .routing pending => some pending
  | .created | .returned _ | .gone => none

/-- Whether a request is being answered: no notification gets this far. -/
def Stage.answers : Stage → Bool
  | .drawn _ _ | .serving _ _ | .routing _ => true
  | .created | .started _ | .returned _ | .gone => false

namespace Operation

/-- The dispatch is over. -/
def Ended (op : Operation) : Prop := op.stage = .gone ∨ ∃ response, op.stage = .returned response

/-- It is over, and gave no response. -/
def Unanswered (op : Operation) : Prop := op.stage = .gone ∨ op.stage = .returned none

end Operation

/-- The observer is told of a start once, and once of a completion when the dispatch is over. -/
structure Completed (w : McpServer) (i : Nat) (op : Operation) : Prop where
  ended : op.Ended → (op.stage = .gone ∧ w.told i = []) ∨
    ∃ info outcome, w.told i = [.start info, .complete info outcome]
  going : ¬ op.Ended → w.told i = [] ∨ ∃ info, w.told i = [.start info]

/-- What the observer was told is what happened. -/
structure Truthful (w : McpServer) (i : Nat) (op : Operation) : Prop where
  accepted : ∀ info, .complete info .notificationAccepted ∈ w.told i → op.request.id = none
  unanswered : op.request.id ≠ none → op.Unanswered →
    ∀ info outcome, .complete info outcome ∈ w.told i → outcome = .cancelled

/-- A request's dispatch is polled, and finds the request's token fired. -/
def CancelledPoll (x : Taken McpServer McpServer.Event) : Prop :=
  ∃ i answer op pending guard, x.label = .poll i answer ∧ x.source.operations[i]? = some op ∧
    op.stage = .serving pending guard ∧ x.source.isCancelled guard = true

namespace McpServer

variable {crates : Crates} {policy : PayloadCapturePolicy} {w w' : McpServer} {e : Event}

/-- How one message goes on; `silent` when its token ends it. -/
inductive Turned (crates : Crates) (policy : PayloadCapturePolicy) (op : Operation) :
    Stage → List Observed → (silent : Bool) → Prop where
  | starts : op.stage = .created → Turned crates policy op
      (.started ⟨.ofRequest crates policy op.request, false⟩)
      [.start (.ofRequest crates policy op.request)] false
  | goes (pending : Pending) (stage : Stage) : op.stage.pending = some pending →
      stage.pending = some pending → (stage.answers = true → op.request.id ≠ none) →
      Turned crates policy op stage [] false
  | answers (pending : Pending) (response : Option JsonRpcResponse) :
      op.stage.pending = some pending → (response = none → op.request.id = none) →
      Turned crates policy op (.returned response) (pending.finish crates policy response) false
  | silenced (pending : Pending) (guard : Nat) : op.stage = .serving pending guard →
      Turned crates policy op (.returned none) (pending.finish crates policy none) true
  | unwinds (pending : Pending) : op.stage.pending = some pending →
      Turned crates policy op .gone pending.drop false
  | vanishes : op.stage = .created → Turned crates policy op .gone [] false

/-- What the registry came to by its own operations. -/
def Driven (crates : Crates) (serving serving' : Serving) : Prop :=
  ∃ l : List Serving.Event, serving' = l.foldl (act crates) serving

/-- What a step does to the messages and the log. -/
inductive Moves (crates : Crates) (policy : PayloadCapturePolicy) (w : McpServer) (e : Event) :
    McpServer → Prop where
  | stays (serving : Serving) : Driven crates w.serving serving → ¬ CancelledPoll ⟨w, e, w⟩ →
      Moves crates policy w e { w with serving := serving }
  | arrives (request : JsonRpcRequest) (ctx : ToolContext) : ¬ CancelledPoll ⟨w, e, w⟩ →
      Moves crates policy w e { w with operations := w.operations ++ [⟨request, ctx, .created⟩] }
  | turns (i : Nat) (op : Operation) (serving : Serving) (stage : Stage) (told : List Observed)
      (silent : Bool) : w.operations[i]? = some op → Driven crates w.serving serving →
      Turned crates policy op stage told silent →
      (silent = true ↔ CancelledPoll ⟨w, e, w⟩) →
      Moves crates policy w e (w.turn i op serving stage told)

theorem Driven.refl (serving : Serving) : Driven crates serving serving := ⟨[], rfl⟩

theorem Driven.act (serving : Serving) (e : Serving.Event) :
    Driven crates serving (McpServer.act crates serving e) := ⟨[e], rfl⟩

theorem Driven.step {serving serving' : Serving} {e : Serving.Event}
    (h : Serving.step crates serving e = some serving') : Driven crates serving serving' := by
  refine ⟨[e], ?_⟩
  show serving' = (Serving.step crates serving e).getD serving
  rw [h]
  rfl

theorem driven_notification (request : JsonRpcRequest) (ctx : ToolContext) :
    Driven crates w.serving (w.handleNotification crates request ctx) := by
  unfold handleNotification
  split
  · exact .act _ _
  · exact .refl _

theorem driven_abandon (guard : Nat) : Driven crates w.serving (w.abandon crates guard) := by
  unfold abandon
  cases w.serving.guards[guard]? with
  | none => exact .act _ _
  | some g => exact ⟨[.fire g.token, .drop guard], rfl⟩

theorem cancelledPoll_poll {i : Nat} {op : Operation} {answer : Option JsonRpcResponse}
    (hop : w.operations[i]? = some op) : CancelledPoll ⟨w, .poll i answer, w⟩ ↔
      ∃ pending guard, op.stage = .serving pending guard ∧ w.isCancelled guard = true := by
  constructor
  · rintro ⟨j, answer', op', pending, guard, hlabel, hop', hstage, hfired⟩
    obtain ⟨rfl, _⟩ := Event.poll.inj hlabel
    have hsame : w.operations[i]? = some op' := hop'
    rw [hop] at hsame
    obtain rfl := Option.some.inj hsame
    exact ⟨pending, guard, hstage, hfired⟩
  · rintro ⟨pending, guard, hstage, hfired⟩
    exact ⟨i, answer, op, pending, guard, rfl, hop, hstage, hfired⟩

theorem not_cancelledPoll (h : ∀ i answer, e ≠ .poll i answer) : ¬ CancelledPoll ⟨w, e, w⟩ := by
  rintro ⟨i, answer, op, pending, guard, hlabel, _⟩
  exact h i answer hlabel

theorem begin_turns {i : Nat} {op : Operation} (h : w.begin crates policy i op = some w') :
    ∃ serving stage told, w' = w.turn i op serving stage told ∧
      Driven crates w.serving serving ∧ Turned crates policy op stage told false := by
  unfold begin at h
  split at h
  · rename_i hs
    exact ⟨_, _, _, (Option.some.inj h).symm, .refl _, .starts hs⟩
  · cases h

theorem check_turns {i : Nat} {op : Operation} (h : w.check crates policy i op = some w') :
    ∃ serving stage told, w' = w.turn i op serving stage told ∧
      Driven crates w.serving serving ∧ Turned crates policy op stage told false := by
  unfold check at h
  split at h
  · rename_i pending hs
    have hp : op.stage.pending = some pending := by
      rw [hs]
      rfl
    obtain rfl := Option.some.inj h
    split
    · exact ⟨_, _, _, rfl, .refl _, .answers pending _ hp nofun⟩
    · split
      · rename_i hid
        exact ⟨_, _, _, rfl, driven_notification _ _, .answers pending none hp fun _ => hid⟩
      · rename_i requestId hid
        have hne : op.request.id ≠ none := by
          rw [hid]
          nofun
        split
        · exact ⟨_, _, _, rfl, .refl _, .goes pending _ hp rfl fun _ => hne⟩
        · exact ⟨_, _, _, rfl, .act _ _, .goes pending _ hp rfl fun _ => hne⟩
  · cases h

/-- A request is told apart from a notification before its answer is waited for. -/
def Identified (w : McpServer) : Prop :=
  ∀ (i : Nat) (op : Operation), w.operations[i]? = some op → op.stage.answers = true →
    op.request.id ≠ none

theorem push_turns {i : Nat} {op : Operation} (hid : op.stage.answers = true → op.request.id ≠ none)
    (h : w.push crates i op = some w') : ∃ serving stage told,
      w' = w.turn i op serving stage told ∧ Driven crates w.serving serving ∧
        Turned crates policy op stage told false := by
  unfold push at h
  split at h
  · rename_i pending guard hs
    refine ⟨_, _, _, (Option.some.inj h).symm, .act _ _, .goes pending _ ?_ rfl fun _ => hid ?_⟩
    · rw [hs]
      rfl
    · rw [hs]
      rfl
  · cases h

theorem panic_turns {i : Nat} {op : Operation} (h : w.panic crates i op = some w') :
    ∃ serving stage told, w' = w.turn i op serving stage told ∧
      Driven crates w.serving serving ∧ Turned crates policy op stage told false := by
  unfold panic at h
  split at h
  · rename_i pending guard hs
    split at h
    · cases h
    · exact ⟨_, _, _, (Option.some.inj h).symm, driven_abandon _, .unwinds pending (by rw [hs]; rfl)⟩
  · rename_i pending hs
    exact ⟨_, _, _, (Option.some.inj h).symm, .refl _, .unwinds pending (by rw [hs]; rfl)⟩
  · cases h

theorem redactorPanics_turns {i : Nat} {op : Operation}
    (h : w.redactorPanics crates i op = some w') : ∃ serving stage told,
      w' = w.turn i op serving stage told ∧ Driven crates w.serving serving ∧
        Turned crates policy op stage told false := by
  unfold redactorPanics at h
  split at h
  · rename_i hs
    exact ⟨_, _, _, (Option.some.inj h).symm, .refl _, .vanishes hs⟩
  · rename_i pending guard hs
    split at h
    · cases h
    · exact ⟨_, _, _, (Option.some.inj h).symm, .act _ _, .unwinds pending (by rw [hs]; rfl)⟩
  · rename_i pending hs
    exact ⟨_, _, _, (Option.some.inj h).symm, .refl _, .unwinds pending (by rw [hs]; rfl)⟩
  · cases h

theorem drop_turns {i : Nat} {op : Operation} (h : w.drop crates i op = some w') :
    ∃ serving stage told, w' = w.turn i op serving stage told ∧
      Driven crates w.serving serving ∧ Turned crates policy op stage told false := by
  unfold drop at h
  split at h
  · rename_i hs
    exact ⟨_, _, _, (Option.some.inj h).symm, .refl _, .vanishes hs⟩
  · rename_i pending guard hs
    exact ⟨_, _, _, (Option.some.inj h).symm, driven_abandon _, .unwinds pending (by rw [hs]; rfl)⟩
  · rename_i pending hs
    exact ⟨_, _, _, (Option.some.inj h).symm, .refl _, .unwinds pending (by rw [hs]; rfl)⟩
  · cases h

theorem poll_moves {i : Nat} {op : Operation} {answer : Option JsonRpcResponse}
    (hop : w.operations[i]? = some op) (h : w.poll crates policy i op answer = some w') :
    Moves crates policy w (.poll i answer) w' := by
  have hbad : CancelledPoll ⟨w, .poll i answer, w⟩ ↔ _ := cancelledPoll_poll hop
  unfold poll at h
  split at h
  · rename_i pending guard hs
    have hp : op.stage.pending = some pending := by
      rw [hs]
      rfl
    split at h
    · rename_i hfired
      obtain rfl := Option.some.inj h
      have hyes : CancelledPoll ⟨w, .poll i answer, w⟩ := hbad.mpr ⟨pending, guard, hs, hfired⟩
      exact .turns i op _ _ _ true hop (.act _ _) (.silenced pending guard hs) (iff_of_true rfl hyes)
    · rename_i hfired
      have hno : ¬ CancelledPoll ⟨w, .poll i answer, w⟩ := by
        rw [hbad]
        rintro ⟨pending', guard', hs', hfired'⟩
        rw [hs] at hs'
        obtain ⟨_, rfl⟩ := Stage.serving.inj hs'
        exact hfired hfired'
      split at h
      · obtain rfl := Option.some.inj h
        exact .turns i op _ _ _ false hop (.act _ _) (.answers pending _ hp nofun) (iff_of_false nofun hno)
      · obtain rfl := Option.some.inj h
        exact .stays w.serving (.refl _) hno
  · rename_i pending hs
    have hp : op.stage.pending = some pending := by
      rw [hs]
      rfl
    have hno : ¬ CancelledPoll ⟨w, .poll i answer, w⟩ := by
      rw [hbad]
      rintro ⟨pending', guard', hs', _⟩
      rw [hs] at hs'
      cases hs'
    split at h
    · obtain rfl := Option.some.inj h
      exact .turns i op _ _ _ false hop (.refl _) (.answers pending _ hp nofun) (iff_of_false nofun hno)
    · obtain rfl := Option.some.inj h
      exact .stays w.serving (.refl _) hno
  · cases h

theorem step_moves (hid : w.Identified) (h : step crates policy w e = some w') :
    Moves crates policy w e w' := by
  -- every step but a poll leaves the message's token aside
  have quiet {i : Nat} {f : Operation → Option McpServer} (hpoll : ∀ j a, e ≠ .poll j a)
      (hf : ∀ op, w.operations[i]? = some op → f op = some w' → ∃ serving stage told,
        w' = w.turn i op serving stage told ∧ Driven crates w.serving serving ∧
        Turned crates policy op stage told false)
      (hb : w.operations[i]?.bind f = some w') : Moves crates policy w e w' := by
    obtain ⟨op, hop, hw⟩ := Option.bind_eq_some_iff.mp hb
    obtain ⟨serving, stage, told, rfl, hdriven, hturn⟩ := hf op hop hw
    exact .turns i op serving stage told false hop hdriven hturn
      (iff_of_false nofun (not_cancelledPoll hpoll))
  cases e with
  | token parent =>
    simp only [step, Option.map_eq_some_iff] at h
    obtain ⟨serving, hs, rfl⟩ := h
    exact .stays serving (.step hs) (not_cancelledPoll nofun)
  | fire token =>
    simp only [step, Option.map_eq_some_iff] at h
    obtain ⟨serving, hs, rfl⟩ := h
    exact .stays serving (.step hs) (not_cancelledPoll nofun)
  | arrive request ctx =>
    simp only [step] at h
    split at h
    · obtain rfl := Option.some.inj h
      exact .arrives request ctx (not_cancelledPoll nofun)
    · cases h
  | begin i => exact quiet nofun (fun _ _ => begin_turns) h
  | check i => exact quiet nofun (fun _ _ => check_turns) h
  | push i => exact quiet nofun (fun op hop => push_turns (hid i op hop)) h
  | poll i answer =>
    obtain ⟨op, hop, hw⟩ := Option.bind_eq_some_iff.mp h
    exact poll_moves hop hw
  | panic i => exact quiet nofun (fun _ _ => panic_turns) h
  | redactorPanics i =>
    simp only [step] at h
    split at h
    · exact quiet nofun (fun _ _ => redactorPanics_turns) h
    · cases h
  | drop i => exact quiet nofun (fun _ _ => drop_turns) h

theorem getElem?_turn {i : Nat} {op : Operation} (hop : w.operations[i]? = some op)
    (serving : Serving) (stage : Stage) (told : List Observed) (j : Nat) :
    (w.turn i op serving stage told).operations[j]? =
      if j = i then some { op with stage := stage } else w.operations[j]? := by
  have hlt : i < w.operations.length := (List.getElem?_eq_some_iff.mp hop).1
  show (w.operations.set i _)[j]? = _
  split
  · rename_i hji
    rw [hji, List.getElem?_set_self hlt]
  · rename_i hji
    rw [List.getElem?_set_ne fun h => hji h.symm]

theorem told_turn {i : Nat} (op : Operation) (serving : Serving) (stage : Stage)
    (told : List Observed) (j : Nat) : (w.turn i op serving stage told).told j =
      if j = i then w.told i ++ told else w.told j := by
  have hmine (l : List Observed) :
      ((l.map fun o => (i, o)).filter fun e => e.1 == j).map Prod.snd = if j = i then l else [] := by
    split
    · rename_i hji
      rw [hji, List.filter_eq_self.mpr, List.map_map]
      · exact List.map_id' l
      · intro a ha
        obtain ⟨o, _, rfl⟩ := List.mem_map.mp ha
        exact beq_self_eq_true i
    · rename_i hji
      rw [List.filter_eq_nil_iff.mpr, List.map_nil]
      intro a ha
      obtain ⟨o, _, rfl⟩ := List.mem_map.mp ha
      have hij : ¬ i = j := fun h => hji h.symm
      simpa using hij
  show ((w.log ++ told.map (i, ·)).filter fun e => e.1 == j).map Prod.snd = _
  rw [List.filter_append, List.map_append, hmine]
  split
  · rename_i hji
    rw [hji]
    rfl
  · rw [List.append_nil]
    rfl

/-- What the observer was told of a message at each stage. -/
inductive Told (crates : Crates) (policy : PayloadCapturePolicy) (info : OperationInfo) :
    Stage → List Observed → Prop where
  | created : Told crates policy info .created []
  | unseen : Told crates policy info .gone []
  | running (stage : Stage) : stage.pending = some ⟨info, false⟩ →
      Told crates policy info stage [.start info]
  | abandoned : Told crates policy info .gone [.start info, .complete info .cancelled]
  | returned (response : Option JsonRpcResponse) : Told crates policy info (.returned response)
      [.start info, .complete info (.ofResponse crates policy info response)]

theorem Told.running_inv {info : OperationInfo} {stage : Stage} {l : List Observed}
    {pending : Pending} (h : Told crates policy info stage l) (hp : stage.pending = some pending) :
    pending = ⟨info, false⟩ ∧ l = [.start info] := by
  cases h with
  | created | unseen | abandoned | returned => cases hp
  | running _ hi =>
    rw [hi] at hp
    exact ⟨(Option.some.inj hp).symm, rfl⟩

theorem Told.created_inv {info : OperationInfo} {l : List Observed}
    (h : Told crates policy info .created l) : l = [] := by
  cases h with
  | created => rfl
  | running _ hi => cases hi

theorem Told.turned {op : Operation} {stage : Stage} {l told : List Observed} {silent : Bool}
    (h : Told crates policy (.ofRequest crates policy op.request) op.stage l)
    (ht : Turned crates policy op stage told silent) :
    Told crates policy (.ofRequest crates policy op.request) stage (l ++ told) := by
  cases ht with
  | starts hs =>
    rw [hs] at h
    rw [h.created_inv]
    exact .running _ rfl
  | goes pending stage hp hp' _ =>
    obtain ⟨rfl, rfl⟩ := h.running_inv hp
    exact .running _ hp'
  | answers pending response hp _ =>
    obtain ⟨rfl, rfl⟩ := h.running_inv hp
    exact .returned response
  | silenced pending guard hs =>
    obtain ⟨rfl, rfl⟩ := h.running_inv (by rw [hs]; rfl : op.stage.pending = some pending)
    exact .returned none
  | unwinds pending hp =>
    obtain ⟨rfl, rfl⟩ := h.running_inv hp
    exact .abandoned
  | vanishes hs =>
    rw [hs] at h
    rw [h.created_inv]
    exact .unseen

/-- Every message's account is right, and there is none of a message not yet handed over. -/
structure Accounted (crates : Crates) (policy : PayloadCapturePolicy) (w : McpServer) : Prop where
  identified : w.Identified
  told : ∀ (i : Nat) (op : Operation), w.operations[i]? = some op →
    Told crates policy (.ofRequest crates policy op.request) op.stage (w.told i)
  absent : ∀ i, w.operations.length ≤ i → w.told i = []

theorem Turned.answers_id {op : Operation} {stage : Stage} {told : List Observed} {silent : Bool}
    (h : Turned crates policy op stage told silent) (hs : stage.answers = true) :
    op.request.id ≠ none := by
  cases h with
  | goes _ _ _ _ hid => exact hid hs
  | starts | answers | silenced | unwinds | vanishes => cases hs

theorem Accounted.step (h : Accounted crates policy w) (hs : step crates policy w e = some w') :
    Accounted crates policy w' := by
  cases step_moves h.identified hs with
  | stays serving _ _ => exact ⟨h.identified, h.told, h.absent⟩
  | arrives request ctx _ =>
    have last {i : Nat} {op : Operation}
        (hop : (w.operations ++ [(⟨request, ctx, .created⟩ : Operation)])[i]? = some op) :
        w.operations[i]? = some op ∨ w.operations.length ≤ i ∧ op = ⟨request, ctx, .created⟩ := by
      rw [List.getElem?_append] at hop
      split at hop
      · exact .inl hop
      · rename_i hlt
        exact .inr ⟨Nat.le_of_not_lt hlt, List.mem_singleton.mp (List.mem_of_getElem? hop)⟩
    refine ⟨fun i op hop ha => ?_, fun i op hop => ?_, fun i hi => ?_⟩
    · rcases last hop with hop | ⟨_, rfl⟩
      · exact h.identified i op hop ha
      · cases ha
    · rcases last hop with hop | ⟨hi, rfl⟩
      · exact h.told i op hop
      · have hnone : w.told i = [] := h.absent i hi
        show Told crates policy _ .created (w.told i)
        rw [hnone]
        exact .created
    · have hlen : (w.operations ++ [(⟨request, ctx, .created⟩ : Operation)]).length ≤ i := hi
      rw [List.length_append] at hlen
      exact h.absent i (by omega)
  | turns i op serving stage told silent hop _ hturn _ =>
    refine ⟨fun j op' hop' ha => ?_, fun j op' hop' => ?_, fun j hj => ?_⟩
    · rw [getElem?_turn hop] at hop'
      split at hop'
      · obtain rfl := Option.some.inj hop'
        exact hturn.answers_id ha
      · exact h.identified j op' hop' ha
    · rw [getElem?_turn hop] at hop'
      rw [told_turn]
      split at hop'
      · rename_i hji
        obtain rfl := Option.some.inj hop'
        rw [if_pos hji]
        exact (h.told i op hop).turned hturn
      · rename_i hji
        rw [if_neg hji]
        exact h.told j op' hop'
    · have hlt : i < w.operations.length := (List.getElem?_eq_some_iff.mp hop).1
      have hlen : (w.operations.set i { op with stage := stage }).length ≤ j := hj
      rw [List.length_set] at hlen
      rw [told_turn, if_neg (by omega)]
      exact h.absent j hlen

theorem Accounted.completed (h : Accounted crates policy w) {i : Nat} {op : Operation}
    (hop : w.operations[i]? = some op) : Completed w i op := by
  have htold := h.told i op hop
  obtain ⟨request, ctx, stage⟩ := op
  generalize hl : w.told i = l at htold
  cases htold with
  | created =>
    refine ⟨fun hended => ?_, fun _ => .inl hl⟩
    rcases hended with hgone | ⟨r, hr⟩
    · cases hgone
    · cases hr
  | unseen => exact ⟨fun _ => .inl ⟨rfl, hl⟩, fun hgoing => absurd (.inl rfl) hgoing⟩
  | running _ hp =>
    refine ⟨fun hended => ?_, fun _ => .inr ⟨_, hl⟩⟩
    rcases hended with hgone | ⟨r, hr⟩
    · have hgone' : stage = .gone := hgone
      rw [hgone'] at hp
      cases hp
    · have hr' : stage = .returned r := hr
      rw [hr'] at hp
      cases hp
  | abandoned => exact ⟨fun _ => .inr ⟨_, _, hl⟩, fun hgoing => absurd (.inl rfl) hgoing⟩
  | returned r => exact ⟨fun _ => .inr ⟨_, _, hl⟩, fun hgoing => absurd (.inr ⟨r, rfl⟩) hgoing⟩

/-- Told truthfully, but for a request whose dispatch returned nothing. -/
theorem Accounted.truthful_iff (h : Accounted crates policy w) {i : Nat} {op : Operation}
    (hop : w.operations[i]? = some op) :
    Truthful w i op ↔ ¬ (op.request.id ≠ none ∧ op.stage = .returned none) := by
  have htold := h.told i op hop
  obtain ⟨request, ctx, stage⟩ := op
  generalize hl : w.told i = l at htold
  -- an account with no completion, or a dropped dispatch's, is truthful
  have quiet (hquiet : ∀ info outcome, .complete info outcome ∈ l → outcome = .cancelled) :
      Truthful w i ⟨request, ctx, stage⟩ := by
    refine ⟨fun info hmem => ?_, fun _ _ info outcome hmem => ?_⟩
    · rw [hl] at hmem
      exact absurd (hquiet info _ hmem) (by simp)
    · rw [hl] at hmem
      exact hquiet info outcome hmem
  cases htold with
  | created =>
    exact iff_of_true (quiet fun _ _ hmem => absurd hmem List.not_mem_nil) fun h => nomatch h.2
  | unseen =>
    exact iff_of_true (quiet fun _ _ hmem => absurd hmem List.not_mem_nil) fun h => nomatch h.2
  | running _ hp =>
    refine iff_of_true (quiet fun info outcome hmem => ?_) ?_
    · simp at hmem
    · rintro ⟨_, hs⟩
      have hs' : stage = .returned none := hs
      rw [hs'] at hp
      cases hp
  | abandoned =>
    refine iff_of_true (quiet fun info outcome hmem => ?_) fun h => nomatch h.2
    simp only [List.mem_cons, List.not_mem_nil, or_false, Observed.complete.injEq] at hmem
    rcases hmem with hmem | ⟨_, rfl⟩
    · cases hmem
    · rfl
  | returned r =>
    have hmem (info : OperationInfo) (outcome : OperationOutcome) :
        .complete info outcome ∈ w.told i ↔ info = .ofRequest crates policy request ∧
          outcome = .ofResponse crates policy (.ofRequest crates policy request) r := by
      rw [hl]
      simp
    cases r with
    | none =>
      by_cases hid : request.id = none
      · refine iff_of_true ⟨fun _ _ => hid, fun hne => absurd hid hne⟩ fun hbad => hbad.1 hid
      · refine iff_of_false (fun ht => hid (ht.accepted _ ((hmem _ _).mpr ⟨rfl, rfl⟩))) ?_
        exact fun hgood => hgood ⟨hid, rfl⟩
    | some response =>
      have hsome := ofResponse_some crates policy (.ofRequest crates policy request) response
      refine iff_of_true ⟨fun info hin => ?_, fun _ hun => ?_⟩ fun h => nomatch h.2
      · exact absurd ((hmem _ _).mp hin).2.symm hsome.1
      · rcases hun with hgone | hnone
        · cases hgone
        · cases hnone

/-- No request's dispatch has returned nothing. -/
def Answered (w : McpServer) : Prop := ∀ (i : Nat) (op : Operation), w.operations[i]? = some op →
  ¬ (op.request.id ≠ none ∧ op.stage = .returned none)

theorem Accounted.answered_step (h : Accounted crates policy w)
    (hs : McpServer.step crates policy w e = some w') :
    w'.Answered ↔ w.Answered ∧ ¬ CancelledPoll ⟨w, e, w'⟩ := by
  have hsame (u : McpServer) : CancelledPoll ⟨w, e, u⟩ ↔ CancelledPoll ⟨w, e, w⟩ := Iff.rfl
  rw [hsame w']
  cases step_moves h.identified hs with
  | stays serving _ hno => exact (and_iff_left hno).symm
  | arrives request ctx hno =>
    rw [and_iff_left hno]
    constructor
    · intro ha i op hop
      have hlt := (List.getElem?_eq_some_iff.mp hop).1
      refine ha i op ?_
      show (w.operations ++ [_])[i]? = some op
      rw [List.getElem?_append_left hlt]
      exact hop
    · intro ha i op hop
      have hop' : (w.operations ++ [_])[i]? = some op := hop
      rw [List.getElem?_append] at hop'
      split at hop'
      · exact ha i op hop'
      · rw [List.mem_singleton.mp (List.mem_of_getElem? hop')]
        rintro ⟨_, hstage⟩
        cases hstage
  | turns i op serving stage told silent hop _ hturn hiff =>
    have hat : (w.turn i op serving stage told).operations[i]? = some { op with stage := stage } := by
      rw [getElem?_turn hop, if_pos rfl]
    have others {j : Nat} (hji : j ≠ i) :
        (w.turn i op serving stage told).operations[j]? = w.operations[j]? := by
      rw [getElem?_turn hop, if_neg hji]
    have going {pending : Pending} (hp : op.stage.pending = some pending) :
        ¬ (op.request.id ≠ none ∧ op.stage = .returned none) := by
      rintro ⟨_, hstage⟩
      rw [hstage] at hp
      cases hp
    -- the one message that goes on decides
    have decided (hold : ¬ (op.request.id ≠ none ∧ op.stage = .returned none))
        (hnew : ¬ (op.request.id ≠ none ∧ stage = .returned none) ↔ ¬ silent = true) :
        (w.turn i op serving stage told).Answered ↔ w.Answered ∧ ¬ CancelledPoll ⟨w, e, w⟩ := by
      rw [← hiff, ← hnew]
      constructor
      · intro ha
        refine ⟨fun j op' hop' => ?_, ha i _ hat⟩
        by_cases hji : j = i
        · subst hji
          rw [hop] at hop'
          rw [← Option.some.inj hop']
          exact hold
        · exact ha j op' (by rw [others hji]; exact hop')
      · rintro ⟨ha, hgood⟩ j op' hop'
        by_cases hji : j = i
        · subst hji
          rw [hat] at hop'
          rw [← Option.some.inj hop']
          exact hgood
        · rw [others hji] at hop'
          exact ha j op' hop'
    cases hturn with
    | starts hstage =>
      refine decided ?_ (iff_of_true (fun h => nomatch h.2) nofun)
      rw [hstage]
      exact fun h => nomatch h.2
    | goes pending stage hp hp' _ =>
      refine decided (going hp) (iff_of_true ?_ nofun)
      rintro ⟨_, hstage⟩
      rw [hstage] at hp'
      cases hp'
    | answers pending response hp hnone =>
      refine decided (going hp) (iff_of_true ?_ nofun)
      rintro ⟨hid, hstage⟩
      exact hid (hnone (Stage.returned.inj hstage))
    | silenced pending guard hstage =>
      have hp : op.stage.pending = some pending := by
        rw [hstage]
        rfl
      have hid : op.request.id ≠ none := h.identified i op hop (by rw [hstage]; rfl)
      exact decided (going hp) (iff_of_false (fun hgood => hgood ⟨hid, rfl⟩) fun hn => hn rfl)
    | unwinds pending hp => exact decided (going hp) (iff_of_true (fun h => nomatch h.2) nofun)
    | vanishes hstage =>
      refine decided ?_ (iff_of_true (fun h => nomatch h.2) nofun)
      rw [hstage]
      exact fun h => nomatch h.2

theorem empty_none (i : Nat) (op : Operation) : McpServer.empty.operations[i]? ≠ some op := by
  show ([] : List Operation)[i]? ≠ some op
  simp

theorem empty_accounted : Accounted crates policy .empty :=
  ⟨fun i op hop => absurd hop (empty_none i op), fun i op hop => absurd hop (empty_none i op),
    fun _ _ => rfl⟩

theorem Driven.reachable {serving serving' : Serving} (h : Driven crates serving serving')
    (hr : (inFlight crates).Reachable serving) : (inFlight crates).Reachable serving' := by
  obtain ⟨l, rfl⟩ := h
  induction l generalizing serving with
  | nil => exact hr
  | cons e l ih =>
    refine ih ?_
    show (inFlight crates).Reachable ((Serving.step crates serving e).getD serving)
    cases hs : Serving.step crates serving e with
    | none => exact hr
    | some serving' => exact hr.next hs

/-- The dispatch drives the registry through its own operations only, so that what holds of the
registry in every run holds under any dispatches. -/
theorem run_registry {tr : List (Taken McpServer Event)}
    (hr : (observed crates policy).Run .empty tr w) : (inFlight crates).Reachable w.serving := by
  have hboth : Accounted crates policy w ∧ (inFlight crates).Reachable w.serving := by
    refine hr.invariant
      (P := fun w => Accounted crates policy w ∧ (inFlight crates).Reachable w.serving)
      (fun v e u h hs => ⟨h.1.step hs, ?_⟩) ⟨empty_accounted, .start rfl⟩
    cases step_moves h.1.identified hs with
    | stays serving hdriven _ => exact hdriven.reachable h.2
    | arrives request ctx _ => exact h.2
    | turns i op serving stage told silent _ hdriven _ _ => exact hdriven.reachable h.2
  exact hboth.2

end McpServer

/-- However a dispatch goes on, is cancelled, dropped or unwound: each start has one completion,
when the dispatch is over. What it says is true of every message if and only if no dispatch was
polled with its request's token fired. -/
theorem completions_truthful {crates : Crates} {policy : PayloadCapturePolicy} {w₀ w : McpServer}
    {tr : List (Taken McpServer McpServer.Event)} (hi : (observed crates policy).init w₀)
    (hr : (observed crates policy).Run w₀ tr w) :
    (∀ (i : Nat) (op : Operation), w.operations[i]? = some op → Completed w i op) ∧
    ((∀ (i : Nat) (op : Operation), w.operations[i]? = some op → Truthful w i op) ↔
      ∀ x ∈ tr, ¬ CancelledPoll x) := by
  have hempty : w₀ = .empty := hi
  subst hempty
  have hkept : ∀ {t : McpServer} {before : List (Taken McpServer McpServer.Event)},
      (observed crates policy).Run .empty before t → McpServer.Accounted crates policy t := by
    intro t before ht
    exact ht.invariant (fun _ _ _ => McpServer.Accounted.step) McpServer.empty_accounted
  have hanswered : w.Answered ↔ ∀ x ∈ tr, ¬ CancelledPoll x := by
    clear hi
    generalize hstart : McpServer.empty = w₀ at hr
    induction hr with
    | start =>
      subst hstart
      exact iff_of_true (fun i op hop => absurd hop (McpServer.empty_none i op))
        fun x hx => absurd hx List.not_mem_nil
    | @next v u tr e hr hs ih =>
      subst hstart
      rw [(hkept hr).answered_step hs, ih, List.forall_mem_append, List.forall_mem_singleton]
  have haccounted := hkept hr
  refine ⟨fun i op hop => haccounted.completed hop, ?_⟩
  rw [← hanswered]
  constructor
  · intro ht i op hop
    exact (haccounted.truthful_iff hop).mp (ht i op hop)
  · intro ha i op hop
    exact (haccounted.truthful_iff hop).mpr (ha i op hop)

section Runs

def pingRequest (id : UInt64) : JsonRpcRequest := .received "2.0" "ping" none (some (.number (.posInt id)))

def cancelNotice (id : UInt64) : JsonRpcRequest :=
  .received "2.0" NOTIFICATIONS_CANCELLED (named id) none

/-- One request is answered, and another dropped before it is. -/
def answeredAndDropped : List McpServer.Event :=
  [.token none, .arrive (pingRequest 7) (inSession "a" ⟨[0]⟩), .begin 0, .check 0, .push 0,
    .arrive (pingRequest 8) (inSession "a" ⟨[0]⟩), .begin 1, .check 1, .push 1, .poll 1 none,
    .poll 0 (some (.success (some (.number (.posInt 7))) .null)), .drop 1]

/-- The outcomes an observer was told of, in order. -/
def outcomes (w : McpServer) : List (Nat × OperationOutcome) :=
  w.log.filterMap fun e =>
    match e.2 with
    | .start _ => none
    | .complete _ outcome => some (e.1, outcome)

theorem completions_truthful_dropped : ∃ w tr,
    (observed plainCrates .disabled).Run .empty tr w ∧
    outcomes w = [(0, .completed none), (1, .cancelled)] ∧
    (∀ (i : Nat) (op : Operation), w.operations[i]? = some op → Completed w i op) ∧
    ((∀ (i : Nat) (op : Operation), w.operations[i]? = some op → Truthful w i op) ↔
      ∀ x ∈ tr, ¬ CancelledPoll x) := by
  have hrun : (exec (McpServer.step plainCrates .disabled) .empty answeredAndDropped).map outcomes =
      some [(0, .completed none), (1, .cancelled)] := by decide +kernel
  obtain ⟨w, hw, houtcomes⟩ := Option.map_eq_some_iff.mp hrun
  obtain ⟨tr, hr⟩ := Lts.Run.exec (M := observed plainCrates .disabled) (I := fun _ => True)
    (fun _ _ _ _ hs => ⟨hs, trivial⟩) answeredAndDropped trivial hw (.start _)
  exact ⟨w, _, hr, houtcomes, completions_truthful rfl hr⟩

/-- A client cancels its request, whose dispatch is then polled. -/
def cancelledRequest : List McpServer.Event :=
  [.token none, .arrive (pingRequest 7) (inSession "a" ⟨[0]⟩), .begin 0, .check 0, .push 0,
    .poll 0 none, .arrive (cancelNotice 7) (inSession "a" ⟨[0]⟩), .begin 1, .check 1, .poll 0 none]

theorem cancelled_completes_accepted : ∃ w tr op,
    (observed plainCrates .disabled).init .empty ∧
    (observed plainCrates .disabled).Run .empty tr w ∧ w.operations[0]? = some op ∧
    op.request.id = some (.number (.posInt 7)) ∧ op.stage = .returned none ∧
    (0, .notificationAccepted) ∈ outcomes w ∧ (0, .cancelled) ∉ outcomes w := by
  have hrun : (exec (McpServer.step plainCrates .disabled) .empty cancelledRequest).bind (fun w =>
      w.operations[0]?.map fun op => (op.request.id, op.stage, outcomes w)) =
      some (some (.number (.posInt 7)), .returned none,
        [(1, .notificationAccepted), (0, .notificationAccepted)]) := by decide +kernel
  obtain ⟨w, hw, hrest⟩ := Option.bind_eq_some_iff.mp hrun
  obtain ⟨op, hop, hfacts⟩ := Option.map_eq_some_iff.mp hrest
  obtain ⟨hid, hfacts⟩ := Prod.mk.inj hfacts
  obtain ⟨hstage, houtcomes⟩ := Prod.mk.inj hfacts
  obtain ⟨tr, hr⟩ := Lts.Run.exec (M := observed plainCrates .disabled) (I := fun _ => True)
    (fun _ _ _ _ hs => ⟨hs, trivial⟩) cancelledRequest trivial hw (.start _)
  refine ⟨w, _, op, rfl, hr, hop, hid, hstage, ?_, ?_⟩
  · rw [houtcomes]
    decide
  · rw [houtcomes]
    decide

end Runs

end Tronc.Mcp
