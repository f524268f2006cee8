import Tronc.Tasks.Registry

namespace Tronc.Tasks

open InMemoryTaskStore (Visible)

namespace World

/-- Call `k` asked for `requests` on task `id`. -/
def Asked (w : World) (k : OpId) (id : TaskId) (requests : Map) : Prop :=
  ∃ op, w.ops k = some op ∧
    ((∃ r run, op.call = .runRequestInput r requests ∧ w.taskRuns r = some run ∧
      run.task.taskId = id) ∨
    ∃ owner, op.call = .transition owner id (.inputRequired requests))

/-- Call `k` is an `apply_input` of `responses` to task `id`. -/
def Applied (w : World) (k : OpId) (id : TaskId) (responses : InputResponses) : Prop :=
  ∃ op owner, w.ops k = some op ∧ op.call = .applyInput owner id responses

/-- An `apply_input` has taken `a` for `id` and is yet to hand it over. -/
def Handing (w : World) (id : TaskId) (a : Answer) : Prop :=
  ∃ k op owner responses inputs t, w.ops k = some op ∧
    op.call = .applyInput owner id responses ∧ op.stage = .working inputs a t

/-- `a` was accepted for the task of `run` and may still reach the run's channel, or is in it. -/
def InFlight (w : World) (run : TaskRun) (a : Answer) : Prop :=
  a ∈ run.inputs ∨
  (∃ c ∈ w.bus, c.signal = .input run.task.taskId a ∧ run.manager ∉ c.delivered) ∨
  w.Handing run.task.taskId a

/-- `a` is what an `apply_input` validated against the requests a call had asked for on `id`. -/
structure Vouched (w : World) (id : TaskId) (a : Answer) : Prop where
  keys : SameKeys a.requests a.responses
  applied : w.Applied a.sentBy id a.responses
  asked : w.Asked a.askedBy id a.requests

/-- Every accepted answer is vouched for, wherever it is. -/
structure Vouching (w : World) : Prop where
  handing : ∀ id a, w.Handing id a → w.Vouched id a
  carried : ∀ c ∈ w.bus, ∀ id a, c.signal = .input id a → w.Vouched id a
  queued : ∀ r run, w.taskRuns r = some run → ∀ a ∈ run.inputs, w.Vouched run.task.taskId a
  stored : ∀ id owner t requests, w.entries.lookup id = some (owner, t) →
    t.payload = .inputRequired requests → w.Asked (w.asked id) id requests
  returned : ∀ k op r requests a, w.ops k = some op → op.call = .runRequestInput r requests →
    op.stage = .returned (.responses a) →
      ∃ run, w.taskRuns r = some run ∧ w.Vouched run.task.taskId a

end World

variable {cfg : Config} {w w' : World} {a : Action}

theorem Step.asked_kept (h : Step cfg w a w') (hw : w.Registered) {k : OpId} {id : TaskId}
    {requests : Map} (hk : w.Asked k id requests) : w'.Asked k id requests := by
  obtain ⟨op, hop, hasks⟩ := hk
  obtain ⟨stage, hop'⟩ := h.opMove.forth hw hop
  refine ⟨_, hop', ?_⟩
  obtain ⟨r, run, hc, hr, hid⟩ | hd := hasks
  · obtain ⟨run', hr', _, _, ht, _⟩ := h.runMove.forth hw hr
    exact .inl ⟨r, run', hc, hr', by rw [ht]; exact hid⟩
  · exact .inr hd

theorem Step.vouched_kept (h : Step cfg w a w') (hw : w.Registered) {id : TaskId} {x : Answer}
    (hx : w.Vouched id x) : w'.Vouched id x := by
  obtain ⟨op, owner, hop, hc⟩ := hx.applied
  obtain ⟨stage, hop'⟩ := h.opMove.forth hw hop
  exact ⟨hx.keys, ⟨_, owner, hop', hc⟩, h.asked_kept hw hx.asked⟩

/-- An answer is taken by the step that finds its requests on the task. -/
structure World.Takes (w : World) (a : Action) (id : TaskId) (x : Answer) : Prop where
  polled : ∃ now ch, a = .poll x.sentBy now ch
  stored : ∃ owner t, w.entries.lookup id = some (owner, t) ∧
    t.payload = .inputRequired x.requests
  keys : SameKeys x.requests x.responses
  asked : x.askedBy = w.asked id
  applied : w.Applied x.sentBy id x.responses

theorem Step.handing_back (h : Step cfg w a w') {id : TaskId} {x : Answer}
    (hx : w'.Handing id x) : w.Handing id x ∨ w.Takes a id x := by
  obtain ⟨j, op', owner, responses, inputs, t, hj, hc', hs'⟩ := hx
  have other {v : World} {k : OpId} {op : Op} {stage : Stage} (hv : v.ops = w.ops)
      (hne : ∀ inputs t, stage ≠ .working inputs x t)
      (hw' : w'.ops = (v.advance k op stage).ops) : w.Handing id x := by
    rw [hw'] at hj
    obtain ⟨_, rfl⟩ | ⟨_, hj⟩ := World.setOp_eq_some hj
    · exact absurd hs' (hne _ _)
    · rw [hv] at hj
      exact ⟨j, op', owner, responses, inputs, t, hj, hc', hs'⟩
  have passive {c : Call} {stage : Stage} (hq : stage.Passive c) :
      ∀ inputs t, stage ≠ .working inputs x t := by
    rintro inputs t rfl
    exact hq
  cases h with
  | @called m c =>
    rw [World.start_ops] at hj
    by_cases he : j = w.nextOp
    · rw [he, Function.update_self] at hj
      obtain rfl := Option.some.inj hj
      simp at hs'
    · rw [Function.update_of_ne he] at hj
      exact .inl ⟨j, op', owner, responses, inputs, t, hj, hc', hs'⟩
  | @taken k now ch op owner' id' responses' inputs' requests t' hop hc hs hv hp hkeys =>
    obtain ⟨rfl, rfl⟩ | ⟨_, hj⟩ := World.setOp_eq_some hj
    · rw [hc] at hc'
      obtain ⟨rfl, rfl, rfl⟩ := Call.applyInput.inj hc'
      obtain ⟨rfl, rfl, rfl⟩ := Stage.working.inj hs'
      exact .inr ⟨⟨now, ch, rfl⟩, ⟨owner', t', hv.1, hp⟩, hkeys, rfl, ⟨op, owner', hop, hc⟩⟩
    · exact .inl ⟨j, op', owner, responses, inputs, t, hj, hc', hs'⟩
  | moved hop hs hq => exact .inl (other rfl (passive hq) rfl)
  | updated hop hs hsub hq => exact .inl (other rfl (passive hq) rfl)
  | stored | registered | recorded | asked | swept | sent | published | answered | consumed
  | looked | signalled | fired | unheard | carried | uncarried | unanswered | forgotten | unwaited
  | unconsumed => exact .inl (other rfl (by simp) rfl)
  | runDropped | unreceived | receivedCancelled | receivedInput | lost =>
    exact .inl ⟨j, op', owner, responses, inputs, t, hj, hc', hs'⟩

/-- What is on the bus was there, delivered no further than now, or was just being handed over. -/
theorem Step.bus_back (h : Step cfg w a w') {c' : Carried} (hc' : c' ∈ w'.bus) {id : TaskId}
    {x : Answer} (hx : c'.signal = .input id x) :
    (∃ c ∈ w.bus, c.signal = c'.signal ∧ ∀ m ∈ c.delivered, m ∈ c'.delivered) ∨
      w.Handing id x := by
  have old (hc : c' ∈ w.bus) :
      ∃ c ∈ w.bus, c.signal = c'.signal ∧ ∀ m ∈ c.delivered, m ∈ c'.delivered :=
    ⟨c', hc, rfl, fun _ h => h⟩
  have received {i : Nat} {m : ManagerId} {c : Carried} (hi : w.bus[i]? = some c)
      (hc' : c' ∈ w.bus.set i { c with delivered := m :: c.delivered }) :
      ∃ c ∈ w.bus, c.signal = c'.signal ∧ ∀ m ∈ c.delivered, m ∈ c'.delivered := by
    obtain hc' | rfl := List.mem_or_eq_of_mem_set hc'
    · exact ⟨c', hc', rfl, fun _ h => h⟩
    · exact ⟨c, List.mem_of_getElem? hi, rfl, fun _ h => List.mem_cons_of_mem _ h⟩
  cases h with
  | called =>
    rw [World.start_bus] at hc'
    exact .inl (old hc')
  | carried =>
    obtain hc' | hc' := List.mem_append.mp hc'
    · exact .inl (old hc')
    · rw [List.mem_singleton.mp hc'] at hx
      simp at hx
  | published hop hc hs =>
    obtain hc' | hc' := List.mem_append.mp hc'
    · exact .inl (old hc')
    · rw [List.mem_singleton.mp hc'] at hx
      obtain ⟨rfl, rfl⟩ := TaskSignal.input.inj hx
      exact .inr ⟨_, _, _, _, _, _, hop, hc, hs⟩
  | unreceived hi => exact .inl (received hi hc')
  | receivedCancelled hi => exact .inl (received hi hc')
  | receivedInput hi => exact .inl (received hi hc')
  | lost => exact .inl (old (List.mem_of_mem_eraseIdx hc'))
  | _ => exact .inl (old hc')

/-- A run's channel keeps what it holds, gets an answer in flight, or gives its first one. -/
inductive ChannelMove (w w' : World) (r : RunId) (run run' : TaskRun) : Prop where
  | same (hi : run'.inputs = run.inputs)
  | sent (x : Answer) (hx : w.InFlight run x) (hi : run'.inputs = run.inputs ++ [x])
  | given (k : OpId) (op : Op) (requests : Map) (x : Answer) (hop : w.ops k = some op)
      (hc : op.call = .runRequestInput r requests) (hs : op.stage = .awaiting)
      (hi : run.inputs = x :: run'.inputs)
      (ho : w'.ops k = some { op with stage := .returned (.responses x) })

theorem Step.channelMove (h : Step cfg w a w') (hw : w.Registered) {r : RunId} {run : TaskRun}
    (hr : w.taskRuns r = some run) :
    ∃ run', w'.taskRuns r = some run' ∧ run'.manager = run.manager ∧ run'.task = run.task ∧
      ChannelMove w w' r run run' := by
  have tended {v : World} {r' : RunId} {f : TaskRun → TaskRun} (hv : v.taskRuns = w.taskRuns)
      (hf : (f run).manager = run.manager ∧ (f run).task = run.task)
      (hi : r = r' → ChannelMove w w' r run (f run))
      (ht : w'.taskRuns = (v.modifyRun r' f).taskRuns) :
      ∃ run', w'.taskRuns r = some run' ∧ run'.manager = run.manager ∧ run'.task = run.task ∧
        ChannelMove w w' r run run' := by
    rw [ht, World.modifyRun_taskRuns, hv]
    by_cases he : r = r'
    · subst he
      exact ⟨f run, by rw [if_pos rfl, hr]; rfl, hf.1, hf.2, hi rfl⟩
    · exact ⟨run, by rw [if_neg he]; exact hr, rfl, rfl, .same rfl⟩
  cases h with
  | @called m c =>
    by_cases hc : c.run = some r
    · refine ⟨{ run with usedBy := some w.nextOp }, ?_, rfl, rfl, .same rfl⟩
      rw [World.start_taskRuns, if_pos hc, hr]
      rfl
    · refine ⟨run, ?_, rfl, rfl, .same rfl⟩
      rw [World.start_taskRuns, if_neg hc]
      exact hr
  | registered hop hc hs =>
    refine ⟨run, (Function.update_of_ne ?_ _ _).trans hr, rfl, rfl, .same rfl⟩
    rintro rfl
    obtain ⟨op', hop', hs'⟩ := hw.creator _ _ hr
    rw [hop] at hop'
    rw [← Option.some.inj hop', hs] at hs'
    simp at hs'
  | fired | unanswered | receivedCancelled | unwaited =>
    exact tended rfl ⟨rfl, rfl⟩ (fun _ => .same rfl) rfl
  | consumed | unconsumed | runDropped =>
    exact tended rfl ⟨rfl, rfl⟩ (fun _ => .same rfl) rfl
  | @sent k now ch op owner id responses r' answer t run' hop hc hs hr' hl =>
    refine tended rfl ⟨rfl, rfl⟩ ?_ rfl
    rintro rfl
    obtain ⟨run'', hr'', hid⟩ := hw.handed k op owner id responses r hop hc (by rw [hs]; rfl)
    rw [hr] at hr''
    obtain rfl := Option.some.inj hr''
    refine .sent answer (.inr (.inr ?_)) rfl
    rw [hid]
    exact ⟨k, op, owner, responses, _, t, hop, hc, hs⟩
  | @answered k now ch op r' requests run' answer inputs hop hc hs hr' hin =>
    refine tended rfl ⟨rfl, rfl⟩ ?_ rfl
    rintro rfl
    rw [hr] at hr'
    obtain rfl := Option.some.inj hr'
    exact .given k op requests answer hop hc hs hin (by simp [World.setOp_ops])
  | @receivedInput i m c id answer r' run' hi hm hsig hl hr' hlive =>
    refine tended rfl ⟨rfl, rfl⟩ ?_ rfl
    rintro rfl
    obtain ⟨run'', hr'', hrm, hid, _⟩ := hw.listed m id r hl
    rw [hr] at hr''
    obtain rfl := Option.some.inj hr''
    refine .sent answer (.inr (.inl ⟨c, List.mem_of_getElem? hi, ?_, ?_⟩)) rfl
    · rw [hid]
      exact hsig
    · rw [hrm]
      exact hm
  | _ => exact ⟨run, hr, rfl, rfl, .same rfl⟩

theorem World.Takes.vouched {id : TaskId} {x : Answer} (hx : w.Takes a id x) (hw : w.Vouching) :
    w.Vouched id x := by
  obtain ⟨owner, t, hl, hp⟩ := hx.stored
  refine ⟨hx.keys, hx.applied, ?_⟩
  rw [hx.asked]
  exact hw.stored id owner t x.requests hl hp

theorem World.Vouching.inFlight (hw : w.Vouching) {r : RunId} {run : TaskRun} {x : Answer}
    (hr : w.taskRuns r = some run) (hx : w.InFlight run x) : w.Vouched run.task.taskId x := by
  obtain hx | ⟨c, hc, hsig, _⟩ | hx := hx
  · exact hw.queued r run hr x hx
  · exact hw.carried c hc _ x hsig
  · exact hw.handing _ x hx

/-- Call `k` is about to put `requests` on task `id`, which is open and visible to `owner`. -/
structure World.Asking (cfg : Config) (w : World) (k : OpId) (now : Int) (owner : TaskOwner)
    (id : TaskId) (requests : Map) : Prop where
  call : ∃ op, w.ops k = some op ∧ op.stage = .called ∧
    ((∃ r run, op.call = .runRequestInput r requests ∧ w.taskRuns r = some run ∧
      run.owner = owner ∧ run.task.taskId = id) ∨
    op.call = .transition owner id (.inputRequired requests))
  stored : ∃ t, Visible cfg.chrono now w.entries owner id t ∧ t.status.isTerminal = false

theorem World.Asking.asked {k : OpId} {now : Int} {owner : TaskOwner} {id : TaskId}
    {requests : Map} (h : w.Asking cfg k now owner id requests) : w.Asked k id requests := by
  obtain ⟨op, hop, _, ⟨r, run, hc, hr, _, hid⟩ | hc⟩ := h.call
  · exact ⟨op, hop, .inl ⟨r, run, hc, hr, hid⟩⟩
  · exact ⟨op, hop, .inr ⟨owner, hc⟩⟩

/-- Requests on the task are those of the call last recorded, or were there already. -/
theorem Step.requests_back (h : Step cfg w a w') {id : TaskId} {owner : TaskOwner}
    {t : DetailedTask} {requests : Map} (hl : w'.entries.lookup id = some (owner, t))
    (hp : t.payload = .inputRequired requests) :
    (w'.asked id = w.asked id ∧ ∃ t', w.entries.lookup id = some (owner, t') ∧
      t'.payload = .inputRequired requests) ∨
    ∃ now ch, a = .poll (w'.asked id) now ch ∧
      w.Asking cfg (w'.asked id) now owner id requests := by
  have inserted {entries : Entries} {id' : TaskId} {owner' : TaskOwner} {u : DetailedTask}
      (he : w'.entries = entries.insert id' (owner', u)) :
      (id = id' ∧ owner = owner' ∧ t = u) ∨
        (id ≠ id' ∧ entries.lookup id = some (owner, t)) := by
    rw [he] at hl
    by_cases hid : id = id'
    · subst hid
      rw [AList.lookup_insert] at hl
      obtain ⟨rfl, rfl⟩ := Prod.mk.inj (Option.some.inj hl)
      exact .inl ⟨rfl, rfl, rfl⟩
    · rw [AList.lookup_insert_ne hid] at hl
      exact .inr ⟨hid, hl⟩
  have asking {k : OpId} {now : Int} {ch : Choice} (ha : a = .poll k now ch)
      (hk : w'.asked id = k) (hx : w.Asking cfg k now owner id requests) :
      ∃ now ch, a = .poll (w'.asked id) now ch ∧
        w.Asking cfg (w'.asked id) now owner id requests := by
    subst hk
    exact ⟨now, ch, ha, hx⟩
  cases h with
  | called =>
    rw [World.start_entries] at hl
    exact .inl ⟨by rw [World.start_asked], t, hl, hp⟩
  | stored hop hc hs hch hid htask =>
    obtain ⟨_, _, rfl⟩ | ⟨_, hl⟩ := inserted rfl
    · simp at hp
    · exact .inl ⟨rfl, t, hl, hp⟩
  | @updated k now ch op owner' id' t' payload asked' stage hop hs hsub hq hv ht ha =>
    obtain ⟨rfl, rfl, rfl⟩ | ⟨hne, hl⟩ := inserted rfl
    · have hpay : payload = .inputRequired requests := hp
      obtain ⟨requests', hpay', rfl, hcalled, owner'', hc⟩ | ⟨hno, _⟩ := ha
      · have howner : owner'' = owner := by
          simp only [Op.subject, hc] at hsub
          exact (Prod.mk.inj (Option.some.inj hsub)).1
        refine .inr (asking rfl (Function.update_self _ _ _) ⟨⟨op, hop, hcalled, .inr ?_⟩, t', hv, ht⟩)
        rw [hc, howner, hpay]
      · exact absurd hpay (hno requests)
    · refine .inl ⟨?_, t, hl, hp⟩
      obtain ⟨_, _, rfl, _⟩ | ⟨_, rfl⟩ := ha
      · exact Function.update_of_ne hne _ _
      · rfl
  | recorded =>
    obtain ⟨_, _, rfl⟩ | ⟨_, hl⟩ := inserted rfl
    · simp [DetailedTask.touched] at hp
    · exact .inl ⟨rfl, t, hl, hp⟩
  | @asked k now ch op r requests' run t' hop hc hs hr hv ht =>
    obtain ⟨rfl, rfl, rfl⟩ | ⟨hne, hl⟩ := inserted rfl
    · obtain rfl : requests' = requests := TaskPayload.inputRequired.inj hp
      exact .inr (asking rfl (Function.update_self _ _ _)
        ⟨⟨op, hop, hs, .inl ⟨r, run, hc, hr, rfl, rfl⟩⟩, t', hv, ht⟩)
    · exact .inl ⟨Function.update_of_ne hne _ _, t, hl, hp⟩
  | taken =>
    obtain ⟨_, _, rfl⟩ | ⟨_, hl⟩ := inserted rfl
    · simp [DetailedTask.touched] at hp
    · exact .inl ⟨rfl, t, hl, hp⟩
  | swept => exact .inl ⟨rfl, t, (AList.lookup_retain_eq_some.mp hl).1, hp⟩
  | _ => exact .inl ⟨rfl, t, hl, hp⟩

/-- A call returns responses that were first in its run's channel. -/
theorem Step.returned_back (h : Step cfg w a w') {j : OpId} {op' : Op} {r : RunId} {requests : Map}
    {x : Answer} (hj : w'.ops j = some op') (hc' : op'.call = .runRequestInput r requests)
    (hs' : op'.stage = .returned (.responses x)) :
    w.ops j = some op' ∨ ∃ op run rest, w.ops j = some op ∧ op.call = .runRequestInput r requests ∧
      op.stage = .awaiting ∧ w.taskRuns r = some run ∧ run.inputs = x :: rest := by
  have other {v : World} {k : OpId} {op : Op} {stage : Stage} (hv : v.ops = w.ops)
      (hne : op.call = .runRequestInput r requests → stage ≠ .returned (.responses x))
      (hw' : w'.ops = (v.advance k op stage).ops) : w.ops j = some op' := by
    rw [hw'] at hj
    obtain ⟨_, rfl⟩ | ⟨_, hj⟩ := World.setOp_eq_some hj
    · exact absurd hs' (hne hc')
    · rw [← hv]
      exact hj
  have passive {c : Call} {stage : Stage} (hq : stage.Passive c) :
      stage ≠ .returned (.responses x) := by
    rintro rfl
    exact hq
  cases h with
  | @called m c =>
    rw [World.start_ops] at hj
    by_cases he : j = w.nextOp
    · rw [he, Function.update_self] at hj
      obtain rfl := Option.some.inj hj
      simp at hs'
    · rw [Function.update_of_ne he] at hj
      exact .inl hj
  | @answered k now ch op r' requests' run answer inputs hop hc hs hr hin =>
    obtain ⟨rfl, rfl⟩ | ⟨_, hj⟩ := World.setOp_eq_some hj
    · rw [hc] at hc'
      obtain ⟨rfl, rfl⟩ := Call.runRequestInput.inj hc'
      obtain rfl := Outcome.responses.inj (Stage.returned.inj hs')
      exact .inr ⟨op, run, inputs, hop, hc, hs, hr, hin⟩
    · exact .inl hj
  | signalled hop hrun hs =>
    refine .inl (other rfl (fun hc => ?_) rfl)
    rw [hc] at hrun
    simp [Call.run] at hrun
  | consumed hop hc hs hr hne =>
    refine .inl (other rfl (fun hc'' => ?_) rfl)
    rw [hc''] at hc
    obtain rfl := Option.some.inj hc
    exact absurd hc'' (hne requests)
  | moved hop hs hq => exact .inl (other rfl (fun _ => passive hq) rfl)
  | updated hop hs hsub hq => exact .inl (other rfl (fun _ => passive hq) rfl)
  | stored | registered | recorded | asked | swept | taken | sent | published
  | looked | fired | unheard | carried | uncarried | unanswered | forgotten | unwaited
  | unconsumed => exact .inl (other rfl (by simp) rfl)
  | runDropped | unreceived | receivedCancelled | receivedInput | lost => exact .inl hj

theorem Step.vouching_kept (h : Step cfg w a w') (hw : w.Registered) (hv : w.Vouching) :
    w'.Vouching where
  handing id x hx := by
    obtain hx | hx := h.handing_back hx
    · exact h.vouched_kept hw (hv.handing id x hx)
    · exact h.vouched_kept hw (hx.vouched hv)
  carried c' hc' id x hx := by
    obtain ⟨c, hc, hsig, _⟩ | hx := h.bus_back hc' hx
    · exact h.vouched_kept hw (hv.carried c hc id x (hsig.trans hx))
    · exact h.vouched_kept hw (hv.handing id x hx)
  queued r run' hr' x hx := by
    obtain ⟨run, hr, hm, ht, _⟩ | ⟨op, hop, hs, _, hempty, _⟩ := h.runMove.back hr'
    · obtain ⟨run'', hr'', _, _, hi⟩ := h.channelMove hw hr
      rw [hr'] at hr''
      obtain rfl := Option.some.inj hr''
      rw [ht]
      cases hi with
      | same hi =>
        rw [hi] at hx
        exact h.vouched_kept hw (hv.queued r run hr x hx)
      | sent y hy hi =>
        rw [hi] at hx
        rcases List.mem_append.mp hx with hx | hx
        · exact h.vouched_kept hw (hv.queued r run hr x hx)
        · rw [List.mem_singleton.mp hx]
          exact h.vouched_kept hw (hv.inFlight hr hy)
      | given k op requests y hop hc hs hi =>
        refine h.vouched_kept hw (hv.queued r run hr x ?_)
        rw [hi]
        exact List.mem_cons_of_mem _ hx
    · rw [hempty] at hx
      simp at hx
  stored id owner t requests hl hp := by
    obtain ⟨he, t', hl', hp'⟩ | ⟨_, _, _, hasking⟩ := h.requests_back hl hp
    · rw [he]
      exact h.asked_kept hw (hv.stored id owner t' requests hl' hp')
    · exact h.asked_kept hw hasking.asked
  returned k op' r requests x hk hc hs := by
    obtain hk | ⟨op, run, rest, hop, hc, _, hr, hi⟩ := h.returned_back hk hc hs
    · obtain ⟨run, hr, hx⟩ := hv.returned k op' r requests x hk hc hs
      obtain ⟨run', hr', _, _, ht, _⟩ := h.runMove.forth hw hr
      exact ⟨run', hr', by rw [ht]; exact h.vouched_kept hw hx⟩
    · obtain ⟨run', hr', _, _, ht, _⟩ := h.runMove.forth hw hr
      refine ⟨run', hr', ?_⟩
      rw [ht]
      refine h.vouched_kept hw (hv.queued r run hr x ?_)
      rw [hi]
      exact List.mem_cons_self

theorem reachable_vouching (h : (machine cfg).Reachable w) : w.Vouching := by
  refine h.invariant (P := World.Vouching) ?_ ?_
  · rintro _ rfl
    constructor <;> simp [World.init, World.Handing]
  · intro s a t hr hs step
    exact (World.step_sound step).vouching_kept (reachable_registered hr) hs

end Tronc.Tasks
