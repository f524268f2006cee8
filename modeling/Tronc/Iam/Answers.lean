import Tronc.Iam.Downloads

namespace Tronc.Iam

open Transition

/-- The answer a call has, and the clock it was given by. -/
def Stage.answer : Stage → Option (Answer × Nat)
  | .answered answer time | .returned answer time => some (answer, time)
  | .called | .waiting | .holding | .allowed _ | .downloading | .downloaded _ | .finished ..
  | .dropped => none

namespace Callers

/-- The set in the cache, while it is younger than its time to live. -/
def Current (w : Callers) (fetched : FetchedKeys) : Prop :=
  w.cache.fetched = some fetched ∧ fetched.isCurrent w.clock = true

def Answered (w : Callers) (i : CallId) (answer : Answer) (time : Nat) : Prop :=
  ∃ call, w.calls i = some call ∧ call.stage.answer = some (answer, time)

end Callers

/-- The step is a look of a call at the cache. -/
structure Looks (x : Taken Callers Callers.Event) (i : CallId) (call : Call) : Prop where
  label : x.label = .advance i
  made : x.source.calls i = some call
  looks : call.stage = .called ∨ call.stage = .holding

/-- The call reads the clock at `time`. -/
def ReadBy (tr : List (Taken Callers Callers.Event)) (i : CallId) (time : Nat) : Prop :=
  ∃ x ∈ tr, x.label = .advance i ∧ x.source.clock = time

/-- A download ended so, and was over by the time its end is dated. -/
def EndedSo (tr : List (Taken Callers Callers.Event)) (outcome : Downloaded) (time : Nat) : Prop :=
  ∃ x ∈ tr, ∃ i, x.label = .respond i outcome ∧ x.source.clock ≤ time ∧ ReadBy tr i time

/-- A download brought the set. -/
def Fetched (tr : List (Taken Callers Callers.Event)) (fetched : FetchedKeys) : Prop :=
  EndedSo tr (.ok fetched.keys) fetched.fetchedAt

/-- The end of a download that the step writes down, with its date. -/
def recorded (x : Taken Callers Callers.Event) : Option (Downloaded × Nat) :=
  match x.label with
  | .advance i => (x.source.calls i).bind fun call =>
    match call.stage with
    | .finished outcome time => some (outcome, time)
    | _ => none
  | _ => none

/-- What is to be known after some ends: the last set that was brought, and the date of the last
end of all. -/
def remembered (ends : List (Downloaded × Nat)) : CacheState where
  fetched := (ends.filterMap fun e => e.1.toOption.map fun keys => ⟨keys, e.2⟩).getLast?
  lastAttempt := ends.getLast?.map Prod.snd

/-- The key is out of a set that was current when the call read the clock last. -/
def Given (tr : List (Taken Callers Callers.Event)) (i : CallId) (kid : String)
    (key : GoogleSigningKey) (time : Nat) : Prop :=
  ∃ fetched, Fetched tr fetched ∧ fetched.isCurrent time = true ∧ key ∈ fetched.keys ∧
    key.kid = kid ∧ ReadBy tr i time

section Later

variable {tr : List (Taken Callers Callers.Event)} (x : Taken Callers Callers.Event)

theorem ReadBy.later {i : CallId} {time : Nat} (h : ReadBy tr i time) :
    ReadBy (tr ++ [x]) i time := by
  obtain ⟨y, hy, hrest⟩ := h
  exact ⟨y, List.mem_append_left _ hy, hrest⟩

theorem EndedSo.later {outcome : Downloaded} {time : Nat} (h : EndedSo tr outcome time) :
    EndedSo (tr ++ [x]) outcome time := by
  obtain ⟨y, hy, i, hl, ht, hr⟩ := h
  exact ⟨y, List.mem_append_left _ hy, i, hl, ht, hr.later x⟩

theorem Fetched.later {fetched : FetchedKeys} (h : Fetched tr fetched) :
    Fetched (tr ++ [x]) fetched := EndedSo.later x h

theorem Given.later {i : CallId} {kid : String} {key : GoogleSigningKey} {time : Nat}
    (h : Given tr i kid key time) : Given (tr ++ [x]) i kid key time := by
  obtain ⟨fetched, hf, hc, hk, hkid, hr⟩ := h
  exact ⟨fetched, hf.later x, hc, hk, hkid, hr.later x⟩

end Later

theorem findKey_eq_some {keys : List GoogleSigningKey} {kid : String} {key : GoogleSigningKey}
    (h : findKey keys kid = some key) : key ∈ keys ∧ key.kid = kid := by
  refine ⟨List.mem_of_find?_eq_some h, ?_⟩
  have hk := List.find?_some h
  exact beq_iff_eq.mp hk

theorem isCurrent_self (keys : List GoogleSigningKey) (time : Nat) :
    (⟨keys, time⟩ : FetchedKeys).isCurrent time = true := by
  unfold FetchedKeys.isCurrent
  rw [Nat.sub_self]
  rfl

section Memory

variable {set : GoogleKeySet} {state : CacheState} {now : Nat} {kid : String}
  {fetched : FetchedKeys}

/-- A key in the current set is answered from memory. -/
theorem answer_known {key : GoogleSigningKey} (hf : state.fetched = some fetched)
    (hc : fetched.isCurrent now = true) (hk : findKey fetched.keys kid = some key) :
    set.answerFromMemory state now kid = some (.ok key) := by
  unfold GoogleKeySet.answerFromMemory
  have hfilter : (state.fetched.filter fun fetched => fetched.isCurrent now) = some fetched := by
    rw [hf, Option.filter_some, if_pos hc]
  rw [hfilter]
  simp only [hk]

/-- A `kid` the current set does not carry is refused from memory, or has the set fetched. -/
theorem answer_unknown (hf : state.fetched = some fetched) (hc : fetched.isCurrent now = true)
    (hk : findKey fetched.keys kid = none) :
    set.answerFromMemory state now kid =
      if set.coolingDown state now then some (.error (unknownKid kid)) else none := by
  unfold GoogleKeySet.answerFromMemory
  have hfilter : (state.fetched.filter fun fetched => fetched.isCurrent now) = some fetched := by
    rw [hf, Option.filter_some, if_pos hc]
  rw [hfilter]
  simp only [hk]

/-- Without a current set the last failure is answered, or the set is fetched. -/
theorem answer_stale (hn : ∀ fetched, state.fetched = some fetched → fetched.isCurrent now = false) :
    set.answerFromMemory state now kid =
      if set.coolingDown state now then some (.error set.lastFetchFailed) else none := by
  unfold GoogleKeySet.answerFromMemory
  have hfilter : (state.fetched.filter fun fetched => fetched.isCurrent now) = none := by
    cases hf : state.fetched with
    | none => rfl
    | some fetched => rw [Option.filter_some, hn fetched hf, if_neg (by simp)]
  rw [hfilter]

/-- What memory knows of the cache's set. -/
theorem answer_ok {key : GoogleSigningKey}
    (h : set.answerFromMemory state now kid = some (.ok key)) :
    ∃ fetched, state.fetched = some fetched ∧ fetched.isCurrent now = true ∧
      key ∈ fetched.keys ∧ key.kid = kid := by
  by_cases hn : ∀ fetched, state.fetched = some fetched → fetched.isCurrent now = false
  · rw [answer_stale hn] at h
    split at h
    · cases h
    · cases h
  · push Not at hn
    obtain ⟨fetched, hf, hc⟩ := hn
    have hcur : fetched.isCurrent now = true := by simpa using hc
    cases hk : findKey fetched.keys kid with
    | some found =>
      rw [answer_known hf hcur hk] at h
      obtain ⟨hmem, hkid⟩ := findKey_eq_some hk
      have heq : found = key := by simpa using h
      exact ⟨fetched, hf, hcur, heq ▸ hmem, heq ▸ hkid⟩
    | none =>
      rw [answer_unknown hf hcur hk] at h
      split at h
      · cases h
      · cases h

theorem answer_unavailable {why : String}
    (h : set.answerFromMemory state now kid = some (.error (.jwksUnavailable why))) :
    (∀ fetched, state.fetched = some fetched → fetched.isCurrent now = false) ∧
      set.coolingDown state now = true := by
  by_cases hn : ∀ fetched, state.fetched = some fetched → fetched.isCurrent now = false
  · refine ⟨hn, ?_⟩
    rw [answer_stale hn] at h
    split at h
    · assumption
    · cases h
  · push Not at hn
    obtain ⟨fetched, hf, hc⟩ := hn
    have hcur : fetched.isCurrent now = true := by simpa using hc
    cases hk : findKey fetched.keys kid with
    | some found =>
      rw [answer_known hf hcur hk] at h
      cases h
    | none =>
      rw [answer_unknown hf hcur hk] at h
      split at h
      · have himp := Option.some.inj h
        cases himp
      · cases h

theorem coolingDown_iff : set.coolingDown state now = true ↔
    ∃ a, state.lastAttempt = some a ∧ now - a < set.minRefetchInterval := by
  unfold GoogleKeySet.coolingDown
  cases state.lastAttempt with
  | none => simp
  | some a => simp

end Memory

/-- Where everything a call or the cache has came from. -/
structure Traced (tr : List (Taken Callers Callers.Event)) (w : Callers) : Prop where
  cache : ∀ fetched, w.cache.fetched = some fetched → Fetched tr fetched
  downloaded : ∀ i call outcome, w.calls i = some call → call.stage = .downloaded outcome →
    ∃ x ∈ tr, x.label = .respond i outcome ∧ x.source.clock ≤ w.clock
  finished : ∀ i call outcome time, w.calls i = some call → call.stage = .finished outcome time →
    EndedSo tr outcome time ∧ ReadBy tr i time
  answered : ∀ i call key time, w.calls i = some call →
    call.stage.answer = some (.ok key, time) → Given tr i call.kid key time

namespace Callers

variable {w w' : Callers} {e : Event} {tr : List (Taken Callers Event)}

/-- A step that moves one call, or begins it, owes an account of that call's new stage alone. -/
theorem traced_goto {x : Taken Callers Event} {i : CallId} (call : Call) (stage : Stage)
    (h : Traced tr w) (hcalls : w'.calls = (w.goto i call stage).calls)
    (hclock : w'.clock = w.clock)
    (hcache : ∀ fetched, w'.cache.fetched = some fetched → Fetched (tr ++ [x]) fetched)
    (hdownloaded : ∀ outcome, stage = .downloaded outcome →
      ∃ y ∈ tr ++ [x], y.label = .respond i outcome ∧ y.source.clock ≤ w.clock)
    (hfinished : ∀ outcome time, stage = .finished outcome time →
      EndedSo (tr ++ [x]) outcome time ∧ ReadBy (tr ++ [x]) i time)
    (hanswered : ∀ key time, stage.answer = some (.ok key, time) →
      Given (tr ++ [x]) i call.kid key time) : Traced (tr ++ [x]) w' := by
  refine ⟨hcache, fun j c outcome hj hst => ?_, fun j c outcome time hj hst => ?_,
    fun j c key time hj hst => ?_⟩
  · rw [hclock]
    obtain ⟨rfl, rfl⟩ | ⟨_, hold⟩ := goto_calls (hcalls ▸ hj)
    · exact hdownloaded outcome hst
    · obtain ⟨y, hy, hl, ht⟩ := h.downloaded j c outcome hold hst
      exact ⟨y, List.mem_append_left _ hy, hl, ht⟩
  · obtain ⟨rfl, rfl⟩ | ⟨_, hold⟩ := goto_calls (hcalls ▸ hj)
    · exact hfinished outcome time hst
    · obtain ⟨hended, hread⟩ := h.finished j c outcome time hold hst
      exact ⟨hended.later x, hread.later x⟩
  · obtain ⟨rfl, rfl⟩ | ⟨_, hold⟩ := goto_calls (hcalls ▸ hj)
    · exact hanswered key time hst
    · exact (h.answered j c key time hold hst).later x

/-- What memory answers is out of the current set. -/
private theorem given_of_look (h : Traced tr w) {i : CallId} {kid : String}
    {key : GoogleSigningKey} (ha : w.set.answerFromMemory w.cache w.clock kid = some (.ok key)) :
    Given (tr ++ [⟨w, .advance i, w'⟩]) i kid key w.clock := by
  obtain ⟨fetched, hf, hcur, hmem, hkid⟩ := answer_ok ha
  exact ⟨fetched, (h.cache fetched hf).later _, hcur, hmem, hkid,
    ⟨w, .advance i, w'⟩, by simp, rfl, rfl⟩

/-- An answer that a call comes to by itself is one of memory, or the one it had. -/
private theorem given_of_reach {i : CallId} {call : Call} {stage : Stage} (h : Traced tr w)
    (hc : w.calls i = some call) (hreach : w.Reaches call stage) {key : GoogleSigningKey}
    {time : Nat} (hst : stage.answer = some (.ok key, time)) :
    Given (tr ++ [⟨w, .advance i, w'⟩]) i call.kid key time := by
  cases stage with
  | answered answer t =>
    obtain ⟨rfl, rfl⟩ := Prod.mk.inj (Option.some.inj hst)
    obtain ⟨_, rfl, hlook⟩ := hreach
    exact given_of_look h hlook
  | returned answer t =>
    obtain ⟨rfl, rfl⟩ := Prod.mk.inj (Option.some.inj hst)
    obtain hbefore | ⟨_, rfl, hlook⟩ := hreach
    · have hhad : call.stage.answer = some (.ok key, t) := by
        rw [hbefore]
        rfl
      exact (h.answered i call key t hc hhad).later _
    · exact given_of_look h hlook
  | _ => cases hst

/-- The end that a call reads off is that of its own download. -/
private theorem ended_of_read (h : Traced tr w) {i : CallId} {call : Call} {outcome : Downloaded}
    (hc : w.calls i = some call) (hst : call.stage = .downloaded outcome) :
    EndedSo (tr ++ [⟨w, .advance i, w'⟩]) outcome w.clock ∧
      ReadBy (tr ++ [⟨w, .advance i, w'⟩]) i w.clock := by
  obtain ⟨y, hy, hl, ht⟩ := h.downloaded i call outcome hc hst
  have hread : ReadBy (tr ++ [⟨w, .advance i, w'⟩]) i w.clock :=
    ⟨⟨w, .advance i, w'⟩, by simp, rfl, rfl⟩
  exact ⟨⟨y, List.mem_append_left _ hy, i, hl, ht, hread⟩, hread⟩

/-- A recorded download answers a key only out of the set it brought. -/
private theorem given_of_record {i : CallId} (state : CacheState) {outcome : Downloaded}
    {kid : String} {key : GoogleSigningKey} {time : Nat} (hended : EndedSo tr outcome time)
    (hread : ReadBy tr i time) (hans : (state.record outcome time kid).2 = .ok key) :
    Given tr i kid key time := by
  cases outcome with
  | error why => cases hans
  | ok keys =>
    have hfound : findKey keys kid = some key := by
      simp only [CacheState.record] at hans
      split at hans
      · rename_i found hfound
        rw [hfound, Except.ok.inj hans]
      · cases hans
    obtain ⟨hmem, hkid⟩ := findKey_eq_some hfound
    exact ⟨⟨keys, time⟩, hended, isCurrent_self keys time, hmem, hkid, hread⟩

theorem traced_step (h : Traced tr w) (hs : w.step e = some w') :
    Traced (tr ++ [⟨w, e, w'⟩]) w' := by
  have hcache (x : Taken Callers Event) (fetched : FetchedKeys)
      (hf : w.cache.fetched = some fetched) : Fetched (tr ++ [x]) fetched :=
    (h.cache fetched hf).later x
  have last : ⟨w, e, w'⟩ ∈ tr ++ [⟨w, e, w'⟩] := by simp
  cases step_moves hs with
  | ticks now hle =>
    refine ⟨hcache _, fun i call outcome hc hst => ?_, fun i call outcome time hc hst => ?_,
      fun i call key time hc hst => ?_⟩
    · obtain ⟨y, hy, hl, ht⟩ := h.downloaded i call outcome hc hst
      exact ⟨y, List.mem_append_left _ hy, hl, ht.trans hle⟩
    · obtain ⟨hended, hread⟩ := h.finished i call outcome time hc hst
      exact ⟨hended.later _, hread.later _⟩
    · exact (h.answered i call key time hc hst).later _
  | calls i kid hn =>
    exact traced_goto ⟨kid, .called⟩ .called h rfl rfl (hcache _) nofun nofun nofun
  | goes e i call stage lock he hc hturn hreach =>
    have advances (hne : stage ≠ .dropped) : e = .advance i := by
      rcases he with ⟨he, _⟩ | ⟨_, hd⟩
      · exact he
      · exact absurd hd hne
    refine traced_goto call stage h rfl rfl (hcache _)
      (fun outcome hst => ?_) (fun outcome time hst => ?_) (fun key time hst => ?_)
    · rw [hst] at hreach
      exact hreach.elim
    · subst hst
      obtain ⟨hdown, rfl⟩ := hreach
      obtain rfl := advances nofun
      exact ended_of_read h hc hdown
    · have hne : stage ≠ .dropped := by
        rintro rfl
        cases hst
      obtain rfl := advances hne
      exact given_of_reach h hc hreach hst
  | records i call outcome time hc hst =>
    obtain ⟨hended, hread⟩ := h.finished i call outcome time hc hst
    refine traced_goto call (.answered _ time) h rfl rfl (fun fetched hf => ?_)
      nofun nofun (fun key t hst => ?_)
    · cases outcome with
      | error why => exact hcache _ fetched hf
      | ok keys =>
        obtain rfl : ⟨keys, time⟩ = fetched := Option.some.inj hf
        exact hended.later _
    · obtain ⟨hans, rfl⟩ := Prod.mk.inj (Option.some.inj hst)
      exact given_of_record w.cache (hended.later _) (hread.later _) hans
  | responds i call outcome how hc hst hhow =>
    refine traced_goto call (.downloaded outcome) h rfl rfl (hcache _)
      (fun ended hended => ?_) nofun nofun
    obtain rfl := Stage.downloaded.inj hended
    exact ⟨_, last, rfl, Nat.le_refl _⟩
  | abandons i call hc hst =>
    exact traced_goto call .dropped h rfl rfl (hcache _) nofun nofun nofun

theorem run_traced {w₀ : Callers} (hi : keySet.init w₀) (hr : keySet.Run w₀ tr w) :
    Traced tr w := by
  induction hr with
  | start =>
    obtain ⟨hcache, _, hcalls, _⟩ := hi
    refine ⟨fun f hf => ?_, fun i call outcome hc => ?_, fun i call outcome time hc => ?_,
      fun i call key time hc => ?_⟩
    · rw [hcache] at hf
      cases hf
    all_goals
      rw [hcalls] at hc
      cases hc
  | next _ hs ih => exact traced_step ih hs

theorem recorded_advance {i : CallId} {call : Call} (hc : w.calls i = some call) :
    recorded ⟨w, .advance i, w'⟩ = match call.stage with
      | .finished outcome time => some (outcome, time)
      | _ => none := by
  unfold recorded
  dsimp only
  rw [hc]
  rfl

/-- What a step writes down is all that it changes the cache by. -/
theorem step_recorded (hs : w.step e = some w') :
    recorded ⟨w, e, w'⟩ = none ∧ w'.cache = w.cache ∨
      ∃ i call outcome time, e = .advance i ∧ w.calls i = some call ∧
        call.stage = .finished outcome time ∧ recorded ⟨w, e, w'⟩ = some (outcome, time) ∧
        w'.cache = (w.cache.record outcome time call.kid).1 := by
  cases step_moves hs with
  | ticks | calls | responds | abandons => exact .inl ⟨rfl, rfl⟩
  | records i call outcome time hc hst =>
    refine .inr ⟨i, call, outcome, time, rfl, hc, hst, ?_, rfl⟩
    rw [recorded_advance hc, hst]
  | goes e i call stage lock he hc hturn hreach =>
    refine .inl ⟨?_, rfl⟩
    obtain ⟨rfl, hne⟩ | ⟨rfl, _⟩ := he
    · rw [recorded_advance hc]
      split
      · -- a call at the end of its download goes nowhere but to record it
        rename_i outcome time hst
        cases stage with
        | dropped => exact absurd rfl hne
        | called | downloaded outcome => exact hreach.elim
        | holding => exact absurd (hst.symm.trans hreach) nofun
        | downloading =>
          obtain ⟨seen, hseen⟩ := hreach
          exact absurd (hst.symm.trans hseen) nofun
        | waiting | allowed _ | finished _ _ | answered _ _ =>
          exact absurd (hst.symm.trans hreach.1) nofun
        | returned answer t =>
          obtain hbefore | ⟨hbefore, _⟩ := hreach
          · exact absurd (hst.symm.trans hbefore) nofun
          · exact absurd (hst.symm.trans hbefore) nofun
      · rfl
    · rfl

theorem remembered_append (ends : List (Downloaded × Nat)) (outcome : Downloaded) (time : Nat)
    (kid : String) : remembered (ends ++ [(outcome, time)]) =
      ((remembered ends).record outcome time kid).1 := by
  unfold remembered CacheState.record
  rw [List.filterMap_append, List.getLast?_append, List.getLast?_append]
  cases outcome with
  | error why => rfl
  | ok keys => rfl

/-- The cache knows what the ends written down so far tell, and each of them was a download's. -/
theorem run_remembered {w₀ : Callers} (hi : keySet.init w₀) (hr : keySet.Run w₀ tr w) :
    w.cache = remembered (tr.filterMap recorded) ∧
      ∀ e ∈ tr.filterMap recorded, EndedSo tr e.1 e.2 := by
  induction hr with
  | start =>
    obtain ⟨hcache, _⟩ := hi
    exact ⟨hcache, nofun⟩
  | @next w w' tr e before hs ih =>
    obtain ⟨hcache, hends⟩ := ih
    rw [List.filterMap_append]
    rcases step_recorded hs with ⟨hnone, hsame⟩ | ⟨i, call, outcome, time, _, hc, hst, hsome, hcache'⟩
    · rw [List.filterMap_cons_none hnone, List.filterMap_nil, List.append_nil, hsame]
      exact ⟨hcache, fun e he => (hends e he).later _⟩
    · rw [List.filterMap_cons_some hsome, List.filterMap_nil, remembered_append _ _ _ call.kid,
        ← hcache]
      refine ⟨hcache', fun e he => ?_⟩
      rcases List.mem_append.mp he with he | he
      · exact (hends e he).later _
      · rw [List.mem_singleton.mp he]
        exact ((run_traced hi before).finished i call outcome time hc hst).1.later _

/-- A download that is over is written down once its call is polled again. -/
theorem records_next {i : CallId} {call : Call} {outcome : Downloaded}
    (hc : w.calls i = some call) (hst : call.stage = .downloaded outcome) :
    ∃ w', exec step w [.advance i, .advance i] = some w' ∧
      w'.cache = (w.cache.record outcome w.clock call.kid).1 := by
  have first : w.step (.advance i) = some (w.goto i call (.finished outcome w.clock)) := by
    show (w.calls i).bind _ = _
    rw [hc]
    show w.advance i call = _
    unfold advance
    rw [hst]
  have second : (w.goto i call (.finished outcome w.clock)).calls i =
      some { call with stage := .finished outcome w.clock } := Function.update_self _ _ _
  have last : (w.goto i call (.finished outcome w.clock)).step (.advance i) =
      (w.goto i call (.finished outcome w.clock)).advance i
        { call with stage := .finished outcome w.clock } := by
    show ((w.goto i call (.finished outcome w.clock)).calls i).bind _ = _
    rw [second]
    rfl
  refine ⟨{ (w.goto i call (.finished outcome w.clock)).goto i
      { call with stage := .finished outcome w.clock }
      (.answered (w.cache.record outcome w.clock call.kid).2 w.clock) with
      cache := (w.cache.record outcome w.clock call.kid).1 }, ?_, rfl⟩
  unfold exec
  rw [first, Option.bind_some]
  unfold exec
  rw [last]
  rfl

/-- A look leaves the call with the answer memory gives. -/
theorem answered_of_look {x : Taken Callers Event} {i : CallId} {call : Call} {answer : Answer}
    (hx : x.source.step x.label = some x.target) (hl : Looks x i call)
    (ha : x.source.set.answerFromMemory x.source.cache x.source.clock call.kid = some answer) :
    x.target.Answered i answer x.source.clock := by
  obtain ⟨w, e, w'⟩ := x
  obtain ⟨rfl, hc, hst⟩ := hl
  obtain ⟨c, hc', hadv⟩ := Option.bind_eq_some_iff.mp hx
  have hsame : call = c := Option.some.inj (hc.symm.trans hc')
  subst hsame
  unfold advance at hadv
  rcases hst with hst | hst
  · rw [hst] at hadv
    dsimp only at hadv ha
    rw [ha] at hadv
    obtain rfl := Option.some.inj hadv
    exact ⟨_, Function.update_self _ _ _, rfl⟩
  · rw [hst] at hadv
    dsimp only at hadv ha
    rw [ha] at hadv
    obtain rfl := Option.some.inj hadv
    exact ⟨_, Function.update_self _ _ _, rfl⟩

/-- What a look leaves the call with is what memory gives. -/
theorem look_of_answered {x : Taken Callers Event} {i : CallId} {call : Call} {answer : Answer}
    {time : Nat} (hx : x.source.step x.label = some x.target) (hl : Looks x i call)
    (ha : x.target.Answered i answer time) :
    x.source.set.answerFromMemory x.source.cache x.source.clock call.kid = some answer := by
  cases hlook : x.source.set.answerFromMemory x.source.cache x.source.clock call.kid with
  | some found =>
    obtain ⟨c, hc, hans⟩ := answered_of_look hx hl hlook
    obtain ⟨c', hc', hans'⟩ := ha
    rw [hc] at hc'
    obtain rfl := Option.some.inj hc'
    rw [hans] at hans'
    rw [(Prod.mk.inj (Option.some.inj hans')).1]
  | none =>
    obtain ⟨w, e, w'⟩ := x
    obtain ⟨rfl, hc, hst⟩ := hl
    obtain ⟨c, hc', hadv⟩ := Option.bind_eq_some_iff.mp hx
    have hsame : call = c := Option.some.inj (hc.symm.trans hc')
    subst hsame
    obtain ⟨c', hc', hans'⟩ := ha
    unfold advance at hadv
    rcases hst with hst | hst
    · rw [hst] at hadv
      dsimp only at hadv hlook
      rw [hlook] at hadv
      obtain rfl := Option.some.inj hadv
      obtain ⟨_, rfl⟩ | ⟨hne, _⟩ := goto_calls hc'
      · cases hans'
      · exact absurd rfl hne
    · rw [hst] at hadv
      dsimp only at hadv hlook
      rw [hlook] at hadv
      obtain rfl := Option.some.inj hadv
      obtain ⟨_, rfl⟩ | ⟨hne, _⟩ := goto_calls hc'
      · cases hans'
      · exact absurd rfl hne

/-- The look that allows a fetch asked for a key no set has had since. -/
def Wanting (w : Callers) : Prop :=
  ∀ i call seen, w.calls i = some call → call.stage = .allowed seen →
    w.set.answerFromMemory w.cache seen call.kid = none

theorem wanting_step (h : w.Wanting) (ho : w.Orderly) (hs : w.step e = some w') : w'.Wanting := by
  intro j c seen hj hst
  have alone {i : CallId} {call : Call} (hc : w.calls i = some call)
      (ht : call.stage.hasTurn = true) (hji : j ≠ i) (hold : w.calls j = some c) : False := by
    have hi := (ho.turn i call hc).mp ht
    rw [(ho.turn j c hold).mp (by rw [hst]; rfl)] at hi
    exact hji (Option.some.inj hi)
  cases step_moves hs with
  | ticks => exact h j c seen hj hst
  | calls i kid hn =>
    by_cases hji : j = i
    · subst hji
      replace hj : Function.update w.calls j (some ⟨kid, .called⟩) j = some c := hj
      rw [Function.update_self] at hj
      rw [← Option.some.inj hj] at hst
      cases hst
    · exact h j c seen ((Function.update_of_ne hji _ _).symm.trans hj) hst
  | goes e i call stage lock he hc hturn hreach =>
    obtain ⟨rfl, rfl⟩ | ⟨_, hold⟩ := goto_calls hj
    · have hstage : stage = .allowed seen := hst
      subst hstage
      obtain ⟨_, rfl, hlook⟩ := hreach
      exact hlook
    · exact h j c seen hold hst
  | records i call outcome time hc hsti =>
    obtain ⟨rfl, rfl⟩ | ⟨hji, hold⟩ := goto_calls hj
    · cases hst
    · exact (alone hc (by rw [hsti]; rfl) hji hold).elim
  | responds i call outcome how hc hsti _ =>
    obtain ⟨rfl, rfl⟩ | ⟨hji, hold⟩ := goto_calls hj
    · cases hst
    · exact h j c seen hold hst
  | abandons i call hc hsti =>
    obtain ⟨rfl, rfl⟩ | ⟨hji, hold⟩ := goto_calls hj
    · cases hst
    · exact h j c seen hold hst

theorem reachable_wanting (h : keySet.Reachable w) : w.Wanting := by
  refine h.invariant (fun w hi => ?_)
    fun _ _ _ hr hw hs => wanting_step hw (reachable_orderly hr) hs
  obtain ⟨_, _, hcalls, _⟩ := hi
  intro i call seen hc
  rw [hcalls] at hc
  cases hc

/-- A download starts only outside the cooldown, and for no key of the current set. -/
theorem starts_needed {x : Taken Callers Event} {i : CallId}
    (hs : x.source.step x.label = some x.target) (hreach : keySet.Reachable x.source)
    (hstarts : Starts x i) : ∃ call, x.source.calls i = some call ∧
      x.source.set.coolingDown x.source.cache x.source.clock = false ∧
      ∀ fetched, x.source.Current fetched → findKey fetched.keys call.kid = none := by
  obtain ⟨_, call, seen, hc, hst⟩ := starts_allowed hs hstarts.1 hstarts.2
  have hlook := reachable_wanting hreach i call seen hc hst
  have hsuits := (reachable_orderly hreach).suits i call hc
  unfold Suits at hsuits
  rw [hst] at hsuits
  refine ⟨call, hc, ?_, fun fetched hcur => ?_⟩
  · cases hcool : x.source.set.coolingDown x.source.cache x.source.clock with
    | false => rfl
    | true =>
      obtain ⟨a, ha, hlt⟩ := coolingDown_iff.mp hcool
      have hlate := hsuits.2 a ha
      omega
  · have hseen : fetched.isCurrent seen = true := by
      have hnow := hcur.2
      unfold FetchedKeys.isCurrent at hnow ⊢
      rw [decide_eq_true_eq] at hnow ⊢
      omega
    cases hk : findKey fetched.keys call.kid with
    | none => rfl
    | some key =>
      rw [answer_known hcur.1 hseen hk] at hlook
      cases hlook

/-- A key set that is unavailable from memory has had its last download fail. -/
theorem unavailable_failed {why : String} {kid : String} (ho : w.Orderly)
    (ha : w.set.answerFromMemory w.cache w.clock kid = some (.error (.jwksUnavailable why))) :
    (∀ fetched, ¬ w.Current fetched) ∧
      ∃ a e, w.cache.lastAttempt = some a ∧ w.clock - a < w.set.minRefetchInterval ∧
        w.ended = some e ∧ e.how = .failed ∧ e.time ≤ a := by
  obtain ⟨hstale, hcool⟩ := answer_unavailable ha
  refine ⟨fun fetched hcur => ?_, ?_⟩
  · have hnow := hcur.2
    rw [hstale fetched hcur.1] at hnow
    cases hnow
  · obtain ⟨a, ha', hlt⟩ := coolingDown_iff.mp hcool
    have hle := ho.past a ha'
    obtain hlate | ⟨e, he, het, hfailed | ⟨fetched, hf, rfl⟩⟩ := ho.quiet a ha'
    · omega
    · exact ⟨a, e, ha', hlt, he, hfailed, het⟩
    · have hcurrent : fetched.isCurrent w.clock = true := by
        unfold FetchedKeys.isCurrent
        rw [decide_eq_true_eq]
        exact Nat.lt_of_lt_of_le hlt w.set.interval_le
      rw [hstale fetched hf] at hcurrent
      cases hcurrent

end Callers

/-- Whatever the interleaving and the downloads: the cache holds the last set that was brought and
the date of the last end that was recorded, and a download's end is recorded as soon as its call goes
on; a key comes out of a set that a download brought less than its time to live ago; a key of the
current set is answered at once, and no download starts for one; an unavailable key set is answered
from memory only when there is no current set and the last download failed within the cooldown; and
within it an unknown key is refused from memory. -/
theorem key_answers_sound {w₀ w : Callers} {tr : List (Taken Callers Callers.Event)}
    (hi : keySet.init w₀) (hr : keySet.Run w₀ tr w) :
    (w.cache = remembered (tr.filterMap recorded) ∧
      (∀ e ∈ tr.filterMap recorded, EndedSo tr e.1 e.2) ∧
      ∀ i call outcome, w.calls i = some call → call.stage = .downloaded outcome →
        ∃ w', exec Callers.step w [.advance i, .advance i] = some w' ∧
          w'.cache.lastAttempt = some w.clock ∧
          ∀ keys, outcome = .ok keys → w'.cache.fetched = some ⟨keys, w.clock⟩) ∧
    (∀ i call key time, w.calls i = some call → call.stage.answer = some (.ok key, time) →
      Given tr i call.kid key time) ∧
    (∀ x ∈ tr, ∀ i call, Looks x i call → ∀ fetched, x.source.Current fetched →
      (∀ key, findKey fetched.keys call.kid = some key →
        x.target.Answered i (.ok key) x.source.clock) ∧
      (findKey fetched.keys call.kid = none →
        x.source.set.coolingDown x.source.cache x.source.clock = true →
          x.target.Answered i (.error (unknownKid call.kid)) x.source.clock)) ∧
    (∀ x ∈ tr, ∀ i, Starts x i → ∃ call, x.source.calls i = some call ∧
      x.source.set.coolingDown x.source.cache x.source.clock = false ∧
      ∀ fetched, x.source.Current fetched → findKey fetched.keys call.kid = none) ∧
    ∀ x ∈ tr, ∀ i call, Looks x i call → ∀ why time,
      x.target.Answered i (.error (.jwksUnavailable why)) time →
        (∀ fetched, ¬ x.source.Current fetched) ∧
        ∃ a e, x.source.cache.lastAttempt = some a ∧
          x.source.clock - a < x.source.set.minRefetchInterval ∧
          x.source.ended = some e ∧ e.how = .failed ∧ e.time ≤ a := by
  have traced := Callers.run_traced hi hr
  have taken {x : Taken Callers Callers.Event} (hx : x ∈ tr) :
      x.source.step x.label = some x.target ∧ keySet.Reachable x.source := by
    obtain ⟨hs, before, hbefore⟩ := hr.taken hx
    exact ⟨hs, _, _, hi, hbefore⟩
  have remembers := Callers.run_remembered hi hr
  refine ⟨⟨remembers.1, remembers.2, fun i call outcome hc hst => ?_⟩, traced.answered,
    fun x hx i call hl fetched hcur => ⟨fun key hk => ?_, fun hk hc => ?_⟩,
    fun x hx i hstarts => ?_, fun x hx i call hl why time ha => ?_⟩
  · obtain ⟨w', hexec, hcache⟩ := Callers.records_next hc hst
    refine ⟨w', hexec, ?_, fun keys hok => ?_⟩
    · rw [hcache]
      cases outcome with
      | error why => rfl
      | ok keys => rfl
    · rw [hcache, hok]
      rfl
  · exact Callers.answered_of_look (taken hx).1 hl (answer_known hcur.1 hcur.2 hk)
  · refine Callers.answered_of_look (taken hx).1 hl ?_
    rw [answer_unknown hcur.1 hcur.2 hk, if_pos hc]
  · exact Callers.starts_needed (taken hx).1 (taken hx).2 hstarts
  · exact Callers.unavailable_failed (Callers.reachable_orderly (taken hx).2)
      (Callers.look_of_answered (taken hx).1 hl ha)

/-- A call fetches the set, a second one is answered from it, a third one is refused, and long after
the set is due a fourth one finds the download failing and a fifth one hears of it. -/
def answeredRun : List Callers.Event :=
  [.call 0 "a", .advance 0, .advance 0, .advance 0, .advance 0,
    .respond 0 (.ok [⟨"a", "n", "e"⟩]), .advance 0, .advance 0, .advance 0,
    .tick 5, .call 1 "a", .advance 1, .call 2 "b", .advance 2,
    .tick KEY_SET_TTL, .call 3 "a", .advance 3, .advance 3, .advance 3, .advance 3,
    .respond 3 (.error "refused"), .advance 3, .advance 3, .advance 3, .call 4 "a", .advance 4]

theorem key_answers_sound_run : ∃ w tr call, keySet.Run (.fresh .new) tr w ∧
    w.calls 1 = some call ∧ call.stage.answer = some (.ok ⟨"a", "n", "e"⟩, 5) ∧
    Given tr 1 call.kid ⟨"a", "n", "e"⟩ 5 := by
  have hrun : (exec Callers.step (.fresh .new) answeredRun).map (fun w =>
      ((w.calls 1).bind fun call => call.stage.answer)) =
      some (some (.ok ⟨"a", "n", "e"⟩, 5)) := by decide
  obtain ⟨w, hw, hanswer⟩ := Option.map_eq_some_iff.mp hrun
  obtain ⟨call, hc, hst⟩ := Option.bind_eq_some_iff.mp hanswer
  obtain ⟨tr, hr⟩ := Lts.Run.exec (M := keySet) (I := fun _ => True)
    (fun _ _ _ _ hs => ⟨hs, trivial⟩) answeredRun trivial hw (.start _)
  exact ⟨w, _, call, hr, hc, hst,
    (key_answers_sound ⟨rfl, rfl, rfl, rfl⟩ hr).2.1 1 call _ 5 hc hst⟩

end Tronc.Iam
