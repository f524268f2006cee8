import Tronc.Server.Guard

namespace Tronc.Server

open Transition
open Mcp (Crates HeaderMap HeaderValue)

namespace InFlight

variable (r : InFlight) (status : StatusCode) (now : Nat)

/-- A request that has written its line writes no other when it is dropped. -/
theorem finish_eq : r.finish status now = [r.line (r.completion status now)] := rfl

theorem drop_eq (h : r.finished = false) :
    r.drop now = [r.line (.dropped (durationMs (now - r.started)))] := by
  unfold drop
  rw [h]
  rfl

theorem completion_isEnd : (r.completion status now).isEnd = true := by
  unfold completion
  cases r.slowThreshold with
  | none => rfl
  | some threshold =>
    dsimp only
    split <;> rfl

end InFlight

namespace Guarded

variable (crates : Crates)

/-- The lines that say how a request ended. -/
def endings (s : Guarded) (i : RequestNo) : List Line :=
  (s.log.filter fun entry => entry.1 == i && entry.2.kind.isEnd).map Prod.snd

/-- The step that ends a request, and how its line says it ended. -/
inductive Ends (r : InFlight) (i : RequestNo) : Taken Guarded Event → Kind → Prop where
  /-- The handler's answer is whole. -/
  | answered {s t : Guarded} {outcome : Except String Response} {minted : String}
      {headers : HeaderMap} : s.requests i = some (.running minted headers r) →
      isStreamedAnswer r.method (responseOf crates r outcome) = false →
      Ends r i ⟨s, .finish i outcome, t⟩ (r.completion (responseOf crates r outcome).status s.clock)
  /-- The body of its streamed answer ends. -/
  | streamed {s t : Guarded} {status : StatusCode} : s.requests i = some (.streaming ⟨some r, status⟩) →
      Ends r i ⟨s, .poll i .done, t⟩ (r.completion status s.clock)
  /-- The body of its streamed answer is dropped before that. -/
  | cut {s t : Guarded} {status : StatusCode} : s.requests i = some (.streaming ⟨some r, status⟩) →
      Ends r i ⟨s, .drop i, t⟩ (.cut status (durationMs (s.clock - r.started)))
  /-- It is dropped before its handler has answered. -/
  | dropped {s t : Guarded} {minted : String} {headers : HeaderMap} :
      s.requests i = some (.running minted headers r) →
      Ends r i ⟨s, .drop i, t⟩ (.dropped (durationMs (s.clock - r.started)))

/-- What a step of request `i` does to its one line. -/
inductive LineMoves (s : Guarded) (e : Event) (t : Guarded) (i : RequestNo) (before after : Stage)
    (lines : List Line) : Prop where
  | waits : after.open? = before.open? → lines.filter (fun line => line.kind.isEnd) = [] →
      LineMoves s e t i before after lines
  | ends (r : InFlight) (kind : Kind) : before.open? = some r → after.open? = none →
      lines.filter (fun line => line.kind.isEnd) = [r.line kind] → Ends crates r i ⟨s, e, t⟩ kind →
      LineMoves s e t i before after lines

/-- A request that is open after a step was so before it. -/
theorem LineMoves.before {crates : Crates} {s t : Guarded} {e : Event} {i : RequestNo}
    {before after : Stage} {lines : List Line} {r : InFlight}
    (h : LineMoves crates s e t i before after lines) (hopen : after.open? = some r) :
    before.open? = some r := by
  cases h with
  | waits same _ => exact same ▸ hopen
  | ends r' kind _ hafter _ _ =>
    rw [hafter] at hopen
    cases hopen

/-- All that one step can do. -/
inductive Moves (s : Guarded) : Event → Guarded → Prop where
  | ticks (now : Nat) : s.clock ≤ now → Moves s (.tick now) { s with clock := now }
  | arrives (i : RequestNo) (method path : String) (headers : HeaderMap) : s.requests i = none →
      Moves s (.arrive i method path headers)
        { s.goto i (.running (mint s.instanceId s.sequence) headers (s.start method path headers)) []
          with sequence := if adopts headers then s.sequence else s.sequence + 1 }
  | answers (i : RequestNo) (minted : String) (headers : HeaderMap) (r : InFlight)
      (outcome : Except String Response) (after : Stage) (lines : List Line) (t : Guarded) :
      s.requests i = some (.running minted headers r) →
      (∀ line ∈ lines, ∃ kind, line = r.line kind) →
      (∀ minted headers r, after ≠ .running minted headers r) →
      LineMoves crates s (.finish i outcome) t i (.running minted headers r) after lines →
      t = { s.goto i after lines with
        answers := Function.update s.answers i
          (some (guardRequests crates minted headers outcome.toOption)) } →
      Moves s (.finish i outcome) t
  | goes (e : Event) (i : RequestNo) (before after : Stage) (lines : List Line) :
      (∀ i method path headers, e ≠ .arrive i method path headers) → s.requests i = some before →
      (∀ line ∈ lines, ∃ r kind, before.open? = some r ∧ line = r.line kind) →
      (∀ minted headers r, after ≠ .running minted headers r) →
      LineMoves crates s e (s.goto i after lines) i before after lines →
      Moves s e (s.goto i after lines)

variable {crates} {s t : Guarded} {e : Event} {i j : RequestNo}

theorem panicLines_mem {r : InFlight} {outcome : Except String Response} {line : Line}
    (h : line ∈ panicLines r outcome) : ∃ kind, line = r.line kind := by
  cases outcome with
  | ok response => cases h
  | error panic => exact ⟨_, List.mem_singleton.mp h⟩

theorem panicLines_filter (r : InFlight) (outcome : Except String Response) :
    (panicLines r outcome).filter (fun line => line.kind.isEnd) = [] := by
  cases outcome <;> rfl

theorem filter_isEnd (r : InFlight) {kind : Kind} (h : kind.isEnd = true) :
    [r.line kind].filter (fun line => line.kind.isEnd) = [r.line kind] := by
  have ends : (r.line kind).kind.isEnd = true := h
  rw [List.filter_singleton, ends]
  rfl

private theorem answer_moves {minted : String} {headers : HeaderMap} {r : InFlight}
    {outcome : Except String Response} (hc : s.requests i = some (.running minted headers r)) :
    Moves crates s (.finish i outcome) (s.answer crates i minted headers r outcome) := by
  by_cases hstream : isStreamedAnswer r.method (responseOf crates r outcome) = true
  · refine .answers i minted headers r outcome
      (.streaming ⟨some r, (responseOf crates r outcome).status⟩) (panicLines r outcome) _ hc
      (fun line => panicLines_mem) nofun (.waits rfl (panicLines_filter r outcome)) ?_
    unfold answer
    dsimp only
    rw [if_pos hstream]
    rfl
  · refine .answers i minted headers r outcome .answered
      (panicLines r outcome ++ r.finish (responseOf crates r outcome).status s.clock) _ hc ?_ nofun
      (.ends r _ rfl rfl ?_ (.answered hc (Bool.eq_false_of_not_eq_true hstream))) ?_
    · intro line hline
      rcases List.mem_append.mp hline with h | h
      · exact panicLines_mem h
      · exact ⟨_, List.mem_singleton.mp h⟩
    · rw [List.filter_append, panicLines_filter, List.nil_append, InFlight.finish_eq]
      exact filter_isEnd r (r.completion_isEnd _ _)
    · unfold answer
      dsimp only
      rw [if_neg hstream]
      rfl

private theorem poll_moves {answer : StreamedAnswer} {polled : Polled}
    (hc : s.requests i = some (.streaming answer)) :
    Moves crates s (.poll i polled) (s.goto i (.streaming (answer.pollNext s.clock polled).2)
      (answer.pollNext s.clock polled).1) := by
  have same (h : answer.pollNext s.clock polled = ([], answer)) :
      Moves crates s (.poll i polled) (s.goto i (.streaming (answer.pollNext s.clock polled).2)
        (answer.pollNext s.clock polled).1) := by
    rw [h]
    exact .goes _ i _ _ [] nofun hc nofun nofun (.waits rfl rfl)
  cases polled with
  | done =>
    obtain ⟨inFlight, status⟩ := answer
    cases inFlight with
    | none => exact same rfl
    | some r =>
      refine .goes _ i (.streaming ⟨some r, status⟩) (.streaming ⟨none, status⟩)
        (r.finish status s.clock) nofun hc ?_ nofun (.ends r _ rfl rfl ?_ (.streamed hc))
      · intro line hline
        exact ⟨r, _, rfl, List.mem_singleton.mp hline⟩
      · exact filter_isEnd r (r.completion_isEnd _ _)
  | pending => exact same rfl
  | chunk data => exact same rfl
  | failed cause => exact same rfl

private theorem drop_moves {stage : Stage} (hc : s.requests i = some stage)
    (hopen : ∀ r, stage.open? = some r → r.finished = false) (h : s.dropStage i stage = some t) :
    Moves crates s (.drop i) t := by
  cases stage with
  | running minted headers r =>
    obtain rfl := Option.some.inj h
    rw [r.drop_eq s.clock (hopen r rfl)]
    refine .goes _ i _ .gone _ nofun hc ?_ nofun (.ends r _ rfl rfl (filter_isEnd r rfl) (.dropped hc))
    intro line hline
    exact ⟨r, _, rfl, List.mem_singleton.mp hline⟩
  | streaming answer =>
    obtain rfl := Option.some.inj h
    obtain ⟨inFlight, status⟩ := answer
    cases inFlight with
    | none => exact .goes _ i _ .gone [] nofun hc nofun nofun (.waits rfl rfl)
    | some r =>
      refine .goes _ i _ .gone (r.cut status s.clock) nofun hc ?_ nofun
        (.ends r _ rfl rfl (filter_isEnd r rfl) (.cut hc))
      intro line hline
      exact ⟨r, _, rfl, List.mem_singleton.mp hline⟩
  | answered => cases h
  | gone => cases h

theorem step_moves (hopen : ∀ i stage r, s.requests i = some stage → stage.open? = some r →
    r.finished = false) (h : s.step crates e = some t) : Moves crates s e t := by
  cases e with
  | tick now =>
    simp only [step] at h
    split at h
    · rename_i hle
      obtain rfl := Option.some.inj h
      exact .ticks now hle
    · cases h
  | arrive i method path headers =>
    simp only [step] at h
    split at h
    · rename_i hn
      obtain rfl := Option.some.inj h
      exact .arrives i method path headers (Option.isNone_iff_eq_none.mp hn)
    · cases h
  | finish i outcome =>
    simp only [step] at h
    split at h
    · rename_i minted headers r hc
      obtain rfl := Option.some.inj h
      exact answer_moves hc
    · cases h
  | poll i polled =>
    simp only [step] at h
    split at h
    · rename_i answer hc
      obtain rfl := Option.some.inj h
      exact poll_moves hc
    · cases h
  | drop i =>
    obtain ⟨stage, hc, hd⟩ := Option.bind_eq_some_iff.mp h
    exact drop_moves hc (fun r => hopen i stage r hc) hd

theorem goto_endings_of_ne (after : Stage) (lines : List Line) (h : j ≠ i) :
    (s.goto i after lines).endings j = s.endings j := by
  have none : ((lines.map fun line => (i, line)).filter fun entry =>
      entry.1 == j && entry.2.kind.isEnd) = [] := by
    rw [List.filter_eq_nil_iff]
    intro entry hentry
    obtain ⟨line, _, rfl⟩ := List.mem_map.mp hentry
    simp [Ne.symm h]
  unfold endings goto
  rw [List.filter_append, none, List.append_nil]

theorem goto_endings (s : Guarded) (i : RequestNo) (after : Stage) (lines : List Line) :
    (s.goto i after lines).endings i =
      s.endings i ++ lines.filter (fun line => line.kind.isEnd) := by
  have mine : (((lines.map fun line => (i, line)).filter fun entry =>
      entry.1 == i && entry.2.kind.isEnd).map Prod.snd) =
        lines.filter fun line => line.kind.isEnd := by
    rw [List.filter_map, List.map_map]
    simp [Function.comp_def]
  unfold endings goto
  rw [List.filter_append, List.map_append, mine]

/-- The request arrives in this step, and is in flight from it on. -/
def Arrives (x : Taken Guarded Event) (i : RequestNo) (r : InFlight) : Prop :=
  ∃ method path headers, x.label = .arrive i method path headers ∧
    r = x.source.start method path headers

/-- What there is to say of a request after a run: it has not come, it has its line still to write, or
it has written it, in the step that ended it. -/
def Logged (crates : Crates) (tr : List (Taken Guarded Event)) (s : Guarded) (i : RequestNo) : Prop :=
  match s.requests i with
  | none => s.endings i = [] ∧ ∀ x ∈ tr, ∀ r, ¬ Arrives x i r
  | some stage => ∃ r, r.finished = false ∧ (∀ x ∈ tr, ∀ r', Arrives x i r' → r' = r) ∧
    (stage.open? = some r ∧ s.endings i = [] ∨ stage.open? = none ∧
      ∃ y ∈ tr, ∃ kind, s.endings i = [r.line kind] ∧ Ends crates r i y kind)

/-- What is said of a request stays true in a step that leaves it alone. -/
theorem Logged.frame {tr : List (Taken Guarded Event)} {x : Taken Guarded Event}
    (h : Logged crates tr s i) (hr : t.requests i = s.requests i) (he : t.endings i = s.endings i)
    (hx : ∀ r, ¬ Arrives x i r) : Logged crates (tr ++ [x]) t i := by
  unfold Logged at h ⊢
  rw [hr, he]
  have split {P : Taken Guarded Event → Prop} (old : ∀ y ∈ tr, P y) (new : P x) :
      ∀ y ∈ tr ++ [x], P y := by
    intro y hy
    rcases List.mem_append.mp hy with hy | hy
    · exact old y hy
    · rw [List.mem_singleton.mp hy]
      exact new
  cases hs : s.requests i with
  | none =>
    rw [hs] at h
    exact ⟨h.1, split h.2 hx⟩
  | some stage =>
    rw [hs] at h
    obtain ⟨r, hf, same, rest⟩ := h
    refine ⟨r, hf, split same (fun r' h => absurd h (hx r')), ?_⟩
    rcases rest with waits | ⟨hopen, y, hy, kind, hkind⟩
    · exact .inl waits
    · exact .inr ⟨hopen, y, List.mem_append_left _ hy, kind, hkind⟩

theorem Logged.moves {tr : List (Taken Guarded Event)} {before after : Stage} {lines : List Line}
    (h : Logged crates tr s i) (hc : s.requests i = some before)
    (hr : t.requests i = some after)
    (he : t.endings i = s.endings i ++ lines.filter (fun line => line.kind.isEnd))
    (hmoves : LineMoves crates s e t i before after lines)
    (hx : ∀ r, ¬ Arrives ⟨s, e, t⟩ i r) : Logged crates (tr ++ [⟨s, e, t⟩]) t i := by
  unfold Logged at h ⊢
  rw [hc] at h
  rw [hr]
  obtain ⟨r, hf, same, rest⟩ := h
  refine ⟨r, hf, fun y hy r' harrives => ?_, ?_⟩
  · rcases List.mem_append.mp hy with hy | hy
    · exact same y hy r' harrives
    · rw [List.mem_singleton.mp hy] at harrives
      exact absurd harrives (hx r')
  · cases hmoves with
    | waits hopen hlines =>
      rw [he, hlines, List.append_nil]
      rcases rest with ⟨hbefore, none⟩ | ⟨hbefore, y, hy, kind, hkind⟩
      · exact .inl ⟨hopen.trans hbefore, none⟩
      · exact .inr ⟨hopen.trans hbefore, y, List.mem_append_left _ hy, kind, hkind⟩
    | ends r' kind hbefore hafter hlines hends =>
      rcases rest with ⟨hopen, none⟩ | ⟨hopen, _⟩
      · rw [hbefore] at hopen
        obtain rfl := Option.some.inj hopen
        exact .inr ⟨hafter, _, List.mem_append_right _ (.head _), kind, by rw [he, none, hlines]; rfl,
          hends⟩
      · rw [hbefore] at hopen
        cases hopen

theorem Logged.unfinished {tr : List (Taken Guarded Event)} (h : ∀ i, Logged crates tr s i)
    (i : RequestNo) (stage : Stage) (r : InFlight) (hc : s.requests i = some stage)
    (hopen : stage.open? = some r) : r.finished = false := by
  have logged := h i
  unfold Logged at logged
  rw [hc] at logged
  obtain ⟨r', hf, _, ⟨hopen', _⟩ | ⟨hopen', _⟩⟩ := logged
  · rw [hopen] at hopen'
    rw [Option.some.inj hopen']
    exact hf
  · rw [hopen] at hopen'
    cases hopen'

theorem Logged.step {tr : List (Taken Guarded Event)} (h : ∀ i, Logged crates tr s i)
    (hs : s.step crates e = some t) (j : RequestNo) : Logged crates (tr ++ [⟨s, e, t⟩]) t j := by
  cases step_moves (Logged.unfinished h) hs with
  | ticks now hle =>
    refine (h j).frame rfl rfl ?_
    rintro r ⟨_, _, _, he, _⟩
    cases he
  | arrives i method path headers hn =>
    by_cases hj : j = i
    · subst hj
      have before := h j
      unfold Logged at before ⊢
      rw [hn] at before
      dsimp only [goto]
      rw [Function.update_self]
      refine ⟨s.start method path headers, rfl, fun y hy r' harrives => ?_, .inl ⟨rfl, ?_⟩⟩
      · rcases List.mem_append.mp hy with hy | hy
        · exact absurd harrives (before.2 y hy r')
        · rw [List.mem_singleton.mp hy] at harrives
          obtain ⟨_, _, _, he, hr'⟩ := harrives
          obtain ⟨_, rfl, rfl, rfl⟩ := Event.arrive.inj he
          exact hr'
      · have none := goto_endings s j
          (.running (mint s.instanceId s.sequence) headers (s.start method path headers)) []
        rw [before.1] at none
        exact none
    · refine (h j).frame (Function.update_of_ne hj _ _)
        (goto_endings_of_ne (.running (mint s.instanceId s.sequence) headers
          (s.start method path headers)) [] hj) ?_
      rintro r ⟨_, _, _, he, _⟩
      obtain ⟨rfl, _⟩ := Event.arrive.inj he
      exact hj rfl
  | answers i minted headers r outcome after lines _ hc _ _ hmoves ht =>
    have noArrival : ∀ r, ¬ Arrives ⟨s, .finish i outcome, t⟩ j r := by
      rintro r ⟨_, _, _, he, _⟩
      cases he
    subst ht
    by_cases hj : j = i
    · subst hj
      exact (h j).moves hc (Function.update_self ..) (goto_endings s j after lines) hmoves noArrival
    · exact (h j).frame (Function.update_of_ne hj _ _) (goto_endings_of_ne after lines hj) noArrival
  | goes e i before after lines hne hc _ _ hmoves =>
    have noArrival : ∀ r, ¬ Arrives ⟨s, e, s.goto i after lines⟩ j r := by
      rintro r ⟨method, path, headers, he, _⟩
      exact hne j method path headers he
    by_cases hj : j = i
    · subst hj
      exact (h j).moves hc (Function.update_self ..) (goto_endings s j after lines) hmoves noArrival
    · exact (h j).frame (Function.update_of_ne hj _ _) (goto_endings_of_ne after lines hj) noArrival

theorem Logged.run {tr : List (Taken Guarded Event)} (h : (guarded crates).Run s tr t)
    (h₀ : (guarded crates).init s) (i : RequestNo) : Logged crates tr t i := by
  induction h generalizing i with
  | start =>
    obtain ⟨instanceId, raw, clock, rfl⟩ := h₀
    refine ⟨rfl, ?_⟩
    intro x hx
    cases hx
  | next _ step ih => exact Logged.step ih step i

/-- A slow request beside a streamed answer that is cut, and one that is dropped. -/
def mixed : List Event :=
  [.arrive 0 "POST" "/mcp" [], .arrive 1 "GET" "/health" [(REQUEST_ID_HEADER, .ofString "req-42")],
    .tick 12000000000,
    .finish 0 (.ok ⟨.OK, [("content-type", .ofString "Text/Event-Stream")], []⟩),
    .finish 1 (.ok ⟨.OK, [], []⟩), .poll 0 (.chunk [100]),
    .arrive 2 "POST" "/mcp" [], .drop 0, .drop 2]

end Guarded

end Tronc.Server
