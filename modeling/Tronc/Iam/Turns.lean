import Tronc.Iam.KeySet

namespace Tronc.Iam

open Transition

namespace Callers

/-- How the turn to fetch goes when a call moves from one stage to another. -/
inductive TurnMoves (w : Callers) (i : CallId) (before after : Stage) : Option CallId → Prop where
  | stays : after.hasTurn = before.hasTurn → TurnMoves w i before after w.fetching
  | takes : w.fetching = none → after.hasTurn = true → TurnMoves w i before after (some i)
  | gives : before.hasTurn = true → after.hasTurn = false → TurnMoves w i before after none

/-- What brings a call to a stage by itself. -/
def Reaches (w : Callers) (call : Call) : Stage → Prop
  | .called | .downloaded _ => False
  | .waiting =>
    call.stage = .called ∧ w.set.answerFromMemory w.cache w.clock call.kid = none
  | .holding => call.stage = .waiting
  | .allowed seen => call.stage = .holding ∧ seen = w.clock ∧
    w.set.answerFromMemory w.cache w.clock call.kid = none
  | .downloading => ∃ seen, call.stage = .allowed seen
  | .finished outcome time => call.stage = .downloaded outcome ∧ time = w.clock
  | .answered answer time => call.stage = .holding ∧ time = w.clock ∧
    w.set.answerFromMemory w.cache w.clock call.kid = some answer
  | .returned answer time => call.stage = .answered answer time ∨
    call.stage = .called ∧ time = w.clock ∧
      w.set.answerFromMemory w.cache w.clock call.kid = some answer
  | .dropped => call.stage ≠ .downloading

/-- All that one step can do. -/
inductive Moves (w : Callers) : Event → Callers → Prop where
  | ticks (now : Nat) : w.clock ≤ now → Moves w (.tick now) { w with clock := now }
  | calls (i : CallId) (kid : String) : w.calls i = none →
      Moves w (.call i kid) { w with calls := Function.update w.calls i (some ⟨kid, .called⟩) }
  | goes (e : Event) (i : CallId) (call : Call) (stage : Stage) (lock : Option CallId) :
      e = .advance i ∧ stage ≠ .dropped ∨ e = .drop i ∧ stage = .dropped →
      w.calls i = some call →
      w.TurnMoves i call.stage stage lock → w.Reaches call stage →
      Moves w e { w.goto i call stage with fetching := lock }
  | records (i : CallId) (call : Call) (outcome : Downloaded) (time : Nat) :
      w.calls i = some call → call.stage = .finished outcome time →
      Moves w (.advance i)
        { w.goto i call (.answered (w.cache.record outcome time call.kid).2 time) with
          cache := (w.cache.record outcome time call.kid).1 }
  | responds (i : CallId) (call : Call) (outcome : Downloaded) (how : Ending) :
      w.calls i = some call → call.stage = .downloading →
      (how = .succeeded ∧ (∃ keys, outcome = .ok keys) ∨
        how = .failed ∧ ∃ why, outcome = .error why) →
      Moves w (.respond i outcome)
        { w.goto i call (.downloaded outcome) with ended := some ⟨how, w.clock⟩ }
  | abandons (i : CallId) (call : Call) : w.calls i = some call → call.stage = .downloading →
      Moves w (.drop i) { w.release i call .dropped with ended := some ⟨.abandoned, w.clock⟩ }

variable {w w' : Callers} {e : Event} {i j : CallId} {call c : Call}

private theorem advance_moves (hc : w.calls i = some call) (h : w.advance i call = some w') :
    Moves w (.advance i) w' := by
  unfold advance at h
  split at h
  · rename_i hs
    split at h
    · rename_i answer ha
      obtain rfl := Option.some.inj h
      exact .goes _ i call _ _ (.inl ⟨rfl, nofun⟩) hc (.stays (by rw [hs]; rfl)) (.inr ⟨hs, rfl, ha⟩)
    · rename_i ha
      obtain rfl := Option.some.inj h
      exact .goes _ i call _ _ (.inl ⟨rfl, nofun⟩) hc (.stays (by rw [hs]; rfl)) ⟨hs, ha⟩
  · rename_i hs
    split at h
    · rename_i hfree
      obtain rfl := Option.some.inj h
      exact .goes _ i call _ _ (.inl ⟨rfl, nofun⟩) hc (.takes hfree rfl) hs
    · cases h
  · rename_i hs
    split at h
    · rename_i answer ha
      obtain rfl := Option.some.inj h
      exact .goes _ i call _ _ (.inl ⟨rfl, nofun⟩) hc (.stays (by rw [hs]; rfl)) ⟨hs, rfl, ha⟩
    · rename_i ha
      obtain rfl := Option.some.inj h
      exact .goes _ i call _ _ (.inl ⟨rfl, nofun⟩) hc (.stays (by rw [hs]; rfl)) ⟨hs, rfl, ha⟩
  · rename_i seen hs
    obtain rfl := Option.some.inj h
    exact .goes _ i call _ _ (.inl ⟨rfl, nofun⟩) hc (.stays (by rw [hs]; rfl)) ⟨seen, hs⟩
  · cases h
  · rename_i outcome hs
    obtain rfl := Option.some.inj h
    exact .goes _ i call _ _ (.inl ⟨rfl, nofun⟩) hc (.stays (by rw [hs]; rfl)) ⟨hs, rfl⟩
  · rename_i outcome time hs
    obtain rfl := Option.some.inj h
    exact .records i call outcome time hc hs
  · rename_i answer time hs
    obtain rfl := Option.some.inj h
    exact .goes _ i call _ _ (.inl ⟨rfl, nofun⟩) hc (.gives (by rw [hs]; rfl) rfl) (.inl hs)
  · cases h
  · cases h

private theorem respond_moves {outcome : Downloaded} (hc : w.calls i = some call)
    (h : w.respond i call outcome = some w') : Moves w (.respond i outcome) w' := by
  unfold respond at h
  split at h
  · rename_i hs
    obtain rfl := Option.some.inj h
    cases outcome with
    | ok keys => exact .responds i call _ _ hc hs (.inl ⟨rfl, keys, rfl⟩)
    | error why => exact .responds i call _ _ hc hs (.inr ⟨rfl, why, rfl⟩)
  · cases h

private theorem dropFuture_moves (hc : w.calls i = some call)
    (h : w.dropFuture i call = some w') : Moves w (.drop i) w' := by
  have gone {before : Stage} (hs : call.stage = before) (hne : before ≠ .downloading) :
      w.Reaches call .dropped := by
    intro hd
    exact hne (hs.symm.trans hd)
  unfold dropFuture at h
  split at h
  · rename_i hs
    obtain rfl := Option.some.inj h
    exact .goes _ i call _ _ (.inr ⟨rfl, rfl⟩) hc (.stays (by rw [hs]; rfl)) (gone hs (by simp))
  · rename_i hs
    obtain rfl := Option.some.inj h
    exact .goes _ i call _ _ (.inr ⟨rfl, rfl⟩) hc (.stays (by rw [hs]; rfl)) (gone hs (by simp))
  · rename_i hs
    obtain rfl := Option.some.inj h
    exact .goes _ i call _ _ (.inr ⟨rfl, rfl⟩) hc (.gives (by rw [hs]; rfl) rfl)
      (gone hs (by simp))
  · rename_i outcome time hs
    obtain rfl := Option.some.inj h
    exact .goes _ i call _ _ (.inr ⟨rfl, rfl⟩) hc (.gives (by rw [hs]; rfl) rfl)
      (gone hs (by simp))
  · rename_i hs
    obtain rfl := Option.some.inj h
    exact .abandons i call hc hs
  all_goals cases h

theorem step_moves (h : w.step e = some w') : Moves w e w' := by
  cases e with
  | tick now =>
    simp only [step] at h
    split at h
    · rename_i hle
      obtain rfl := Option.some.inj h
      exact .ticks now hle
    · cases h
  | call i kid =>
    simp only [step] at h
    split at h
    · rename_i hn
      obtain rfl := Option.some.inj h
      exact .calls i kid (Option.isNone_iff_eq_none.mp hn)
    · cases h
  | advance i =>
    obtain ⟨call, hc, ha⟩ := Option.bind_eq_some_iff.mp h
    exact advance_moves hc ha
  | respond i outcome =>
    obtain ⟨call, hc, ha⟩ := Option.bind_eq_some_iff.mp h
    exact respond_moves hc ha
  | drop i =>
    obtain ⟨call, hc, ha⟩ := Option.bind_eq_some_iff.mp h
    exact dropFuture_moves hc ha

/-- What is known of a fetch under way: the last recorded attempt is far enough behind, and once the
download has ended it is the last one that did. -/
def Suits (w : Callers) (call : Call) : Prop :=
  match call.stage with
  | .allowed seen =>
    seen ≤ w.clock ∧ ∀ a, w.cache.lastAttempt = some a → a + w.set.minRefetchInterval ≤ seen
  | .downloading => ∀ a, w.cache.lastAttempt = some a → a + w.set.minRefetchInterval ≤ w.clock
  | .downloaded outcome =>
    (∀ a, w.cache.lastAttempt = some a → a + w.set.minRefetchInterval ≤ w.clock) ∧
    ∃ e, w.ended = some e ∧ e.time ≤ w.clock ∧
      (e.how = .succeeded ∧ (∃ keys, outcome = .ok keys) ∨
        e.how = .failed ∧ ∃ why, outcome = .error why)
  | .finished outcome time => time ≤ w.clock ∧
    (∀ a, w.cache.lastAttempt = some a → a + w.set.minRefetchInterval ≤ w.clock) ∧
    ∃ e, w.ended = some e ∧ e.time ≤ time ∧
      (e.how = .succeeded ∧ (∃ keys, outcome = .ok keys) ∨
        e.how = .failed ∧ ∃ why, outcome = .error why)
  | .called | .waiting | .holding | .answered .. | .returned .. | .dropped => True

/-- The attempt recorded is out of the way, or the last download that ended is the one it records,
and brought the current set unless it failed. -/
def Quiet (w : Callers) : Prop :=
  ∀ a, w.cache.lastAttempt = some a → a + w.set.minRefetchInterval ≤ w.clock ∨
    ∃ e, w.ended = some e ∧ e.time ≤ a ∧
      (e.how = .failed ∨ ∃ fetched, w.cache.fetched = some fetched ∧ fetched.fetchedAt = a)

/-- One call at a time has the turn to fetch. -/
structure Orderly (w : Callers) : Prop where
  held : ∀ i, w.fetching = some i → w.calls i ≠ none
  turn : ∀ i call, w.calls i = some call → (call.stage.hasTurn = true ↔ w.fetching = some i)
  past : ∀ a, w.cache.lastAttempt = some a → a ≤ w.clock
  suits : ∀ i call, w.calls i = some call → w.Suits call
  quiet : w.Quiet

theorem goto_calls {stage : Stage} (h : (w.goto i call stage).calls j = some c) :
    j = i ∧ c = { call with stage := stage } ∨ j ≠ i ∧ w.calls j = some c := by
  replace h : Function.update w.calls i (some { call with stage := stage }) j = some c := h
  by_cases hj : j = i
  · subst hj
    rw [Function.update_self] at h
    exact .inl ⟨rfl, (Option.some.inj h).symm⟩
  · rw [Function.update_of_ne hj] at h
    exact .inr ⟨hj, h⟩

private theorem goto_held {stage : Stage} (h : j ≠ i → w.calls j ≠ none) :
    (w.goto i call stage).calls j ≠ none := by
  show Function.update w.calls i (some { call with stage := stage }) j ≠ none
  by_cases hj : j = i
  · subst hj
    rw [Function.update_self]
    nofun
  · rw [Function.update_of_ne hj]
    exact h hj

/-- A look that allows a fetch comes long enough after the attempt recorded. -/
theorem interval_passed (hp : ∀ a, w.cache.lastAttempt = some a → a ≤ w.clock) {kid : String}
    (h : w.set.answerFromMemory w.cache w.clock kid = none) :
    ∀ a, w.cache.lastAttempt = some a → a + w.set.minRefetchInterval ≤ w.clock := by
  intro a ha
  have hcool : w.set.coolingDown w.cache w.clock = false := by
    unfold GoogleKeySet.answerFromMemory at h
    split at h
    · split at h
      · cases h
      · split at h
        · cases h
        · rename_i hc
          exact Bool.eq_false_iff.mpr hc
    · split at h
      · cases h
      · rename_i hc
        exact Bool.eq_false_iff.mpr hc
  unfold GoogleKeySet.coolingDown at hcool
  rw [ha] at hcool
  have hlate : ¬ w.clock - a < w.set.minRefetchInterval := by simpa using hcool
  have hle := hp a ha
  omega

/-- The turn stays with one call at most. -/
private theorem TurnMoves.turn {before stage : Stage} {lock : Option CallId}
    (hw : w.Orderly) (hc : w.calls i = some call) (hb : call.stage = before)
    (h : w.TurnMoves i before stage lock) :
    (stage.hasTurn = true ↔ lock = some i) ∧ ∀ j, j ≠ i → (lock = some j ↔ w.fetching = some j) := by
  have own := hw.turn i call hc
  rw [hb] at own
  cases h with
  | stays hsame =>
    refine ⟨?_, fun _ _ => .rfl⟩
    rw [hsame]
    exact own
  | takes hfree hturn =>
    refine ⟨by simp [hturn], fun j hj => ?_⟩
    rw [hfree]
    simp [hj.symm]
  | gives hb hturn =>
    refine ⟨by simp [hturn], fun j hj => ?_⟩
    rw [own.mp hb]
    simp [hj.symm]

private theorem Suits.keep (h : w.Suits c) (hset : w'.set = w.set)
    (hcache : w'.cache.lastAttempt = w.cache.lastAttempt) (hended : w'.ended = w.ended)
    (hclock : w.clock ≤ w'.clock) : w'.Suits c := by
  unfold Suits at h ⊢
  rw [hset, hcache, hended]
  split
  · rename_i seen hs
    rw [hs] at h
    exact ⟨h.1.trans hclock, h.2⟩
  · rename_i hs
    rw [hs] at h
    exact fun a ha => (h a ha).trans hclock
  · rename_i outcome hs
    rw [hs] at h
    obtain ⟨ha, e, he, ht, hrest⟩ := h
    exact ⟨fun a hl => (ha a hl).trans hclock, e, he, ht.trans hclock, hrest⟩
  · rename_i outcome time hs
    rw [hs] at h
    obtain ⟨ht, ha, hrest⟩ := h
    exact ⟨ht.trans hclock, fun a hl => (ha a hl).trans hclock, hrest⟩
  all_goals trivial

/-- A call that has no turn knows nothing. -/
private theorem Suits.of_idle (h : c.stage.hasTurn = false) : w.Suits c := by
  unfold Suits
  split
  · rename_i seen hs
    rw [hs] at h
    cases h
  · rename_i hs
    rw [hs] at h
    cases h
  · rename_i outcome hs
    rw [hs] at h
    cases h
  · rename_i outcome time hs
    rw [hs] at h
    cases h
  all_goals trivial

private theorem Reaches.suits (hw : w.Orderly) (hc : w.calls i = some call) {stage : Stage}
    (h : w.Reaches call stage) : w.Suits { call with stage := stage } := by
  have own := hw.suits i call hc
  cases stage with
  | called => exact h.elim
  | downloaded outcome => exact h.elim
  | waiting => trivial
  | holding => trivial
  | answered answer time => trivial
  | returned answer time => trivial
  | dropped => trivial
  | allowed seen =>
    obtain ⟨_, rfl, hlook⟩ := h
    exact ⟨Nat.le_refl _, interval_passed hw.past hlook⟩
  | downloading =>
    obtain ⟨seen, hs⟩ := h
    unfold Suits at own
    rw [hs] at own
    exact fun a ha => (own.2 a ha).trans own.1
  | finished outcome time =>
    obtain ⟨hs, rfl⟩ := h
    unfold Suits at own
    rw [hs] at own
    exact ⟨Nat.le_refl _, own.1, own.2⟩

theorem Orderly.step (h : w.Orderly) (hs : w.step e = some w') : w'.Orderly := by
  have alone {v : Callers} {i j : CallId} {call c : Call} (hc : w.calls i = some call)
      (ht : call.stage.hasTurn = true) (hj : j ≠ i) (hcj : w.calls j = some c) : v.Suits c := by
    refine .of_idle ?_
    cases hturn : c.stage.hasTurn with
    | false => rfl
    | true =>
      have hi := (h.turn i call hc).mp ht
      rw [(h.turn j c hcj).mp hturn] at hi
      exact absurd (Option.some.inj hi) hj
  cases step_moves hs with
  | ticks now hle =>
    refine ⟨h.held, h.turn, fun a ha => (h.past a ha).trans hle, fun j c hj => ?_,
      fun a ha => ?_⟩
    · exact (h.suits j c hj).keep rfl rfl rfl hle
    · exact (h.quiet a ha).imp_left fun hold => hold.trans hle
  | calls i kid hn =>
    have old {j : CallId} {c : Call}
        (hj : Function.update w.calls i (some ⟨kid, .called⟩) j = some c) :
        j = i ∧ c = ⟨kid, .called⟩ ∨ w.calls j = some c := by
      by_cases hji : j = i
      · subst hji
        rw [Function.update_self] at hj
        exact .inl ⟨rfl, (Option.some.inj hj).symm⟩
      · rw [Function.update_of_ne hji] at hj
        exact .inr hj
    refine ⟨fun j hj => ?_, fun j c hj => ?_, h.past, fun j c hj => ?_, h.quiet⟩
    · show Function.update w.calls i (some ⟨kid, .called⟩) j ≠ none
      have hji : j ≠ i := by
        rintro rfl
        exact h.held j hj hn
      rw [Function.update_of_ne hji]
      exact h.held j hj
    · obtain ⟨rfl, rfl⟩ | hj := old hj
      · exact iff_of_false (by simp [Stage.hasTurn]) fun hf => h.held j hf hn
      · exact h.turn j c hj
    · obtain ⟨rfl, rfl⟩ | hj := old hj
      · trivial
      · exact (h.suits j c hj).keep rfl rfl rfl (Nat.le_refl _)
  | goes e i call stage lock he hc hturn hreach =>
    obtain ⟨hown, hother⟩ := hturn.turn h hc rfl
    refine ⟨fun j hj => goto_held fun hji => h.held j ((hother j hji).mp hj), fun j c hj => ?_,
      h.past, fun j c hj => ?_, h.quiet⟩
    · obtain ⟨rfl, rfl⟩ | ⟨hji, hj⟩ := goto_calls hj
      · exact hown
      · exact (h.turn j c hj).trans (hother j hji).symm
    · obtain ⟨rfl, rfl⟩ | ⟨hji, hj⟩ := goto_calls hj
      · exact (hreach.suits h hc).keep rfl rfl rfl (Nat.le_refl _)
      · exact (h.suits j c hj).keep rfl rfl rfl (Nat.le_refl _)
  | records i call outcome time hc hst =>
    have hturn : call.stage.hasTurn = true := by
      rw [hst]
      rfl
    have own := h.suits i call hc
    unfold Suits at own
    rw [hst] at own
    obtain ⟨htime, _, e, hended, hle, hhow⟩ := own
    have hlast : (w.cache.record outcome time call.kid).1.lastAttempt = some time := by
      cases outcome with
      | ok keys => rfl
      | error why => rfl
    refine ⟨fun j hj => goto_held fun _ => h.held j hj, fun j c hj => ?_, fun a ha => ?_,
      fun j c hj => ?_, fun a ha => ?_⟩
    · obtain ⟨rfl, rfl⟩ | ⟨_, hj⟩ := goto_calls hj
      · exact iff_of_true rfl ((h.turn j call hc).mp hturn)
      · exact h.turn j c hj
    · rw [hlast] at ha
      exact Option.some.inj ha ▸ htime
    · obtain ⟨rfl, rfl⟩ | ⟨hji, hj⟩ := goto_calls hj
      · trivial
      · exact alone hc hturn hji hj
    · rw [hlast] at ha
      obtain rfl := Option.some.inj ha
      refine .inr ⟨e, hended, hle, ?_⟩
      rcases hhow with ⟨_, keys, rfl⟩ | ⟨hfailed, _⟩
      · exact .inr ⟨⟨keys, time⟩, rfl, rfl⟩
      · exact .inl hfailed
  | responds i call outcome how hc hst hhow =>
    have hturn : call.stage.hasTurn = true := by
      rw [hst]
      rfl
    have own := h.suits i call hc
    unfold Suits at own
    rw [hst] at own
    refine ⟨fun j hj => goto_held fun _ => h.held j hj, fun j c hj => ?_, h.past,
      fun j c hj => ?_, fun a ha => .inl (own a ha)⟩
    · obtain ⟨rfl, rfl⟩ | ⟨_, hj⟩ := goto_calls hj
      · exact iff_of_true rfl ((h.turn j call hc).mp hturn)
      · exact h.turn j c hj
    · obtain ⟨rfl, rfl⟩ | ⟨hji, hj⟩ := goto_calls hj
      · exact ⟨own, ⟨how, w.clock⟩, rfl, Nat.le_refl _, hhow⟩
      · exact alone hc hturn hji hj
  | abandons i call hc hst =>
    have hturn : call.stage.hasTurn = true := by
      rw [hst]
      rfl
    have own := h.suits i call hc
    unfold Suits at own
    rw [hst] at own
    have hlock := (h.turn i call hc).mp hturn
    refine ⟨nofun, fun j c hj => ?_, h.past, fun j c hj => ?_, fun a ha => .inl (own a ha)⟩
    · refine iff_of_false ?_ nofun
      obtain ⟨rfl, rfl⟩ | ⟨hji, hj⟩ := goto_calls hj
      · simp [Stage.hasTurn]
      · rw [h.turn j c hj, hlock]
        exact fun heq => hji (Option.some.inj heq).symm
    · obtain ⟨rfl, rfl⟩ | ⟨hji, hj⟩ := goto_calls hj
      · trivial
      · exact alone hc hturn hji hj

theorem reachable_orderly (h : keySet.Reachable w) : w.Orderly := by
  refine h.invariant (fun w hi => ?_) fun _ _ _ _ ho hs => ho.step hs
  obtain ⟨hcache, hfree, hcalls, _⟩ := hi
  have none {i : CallId} {call : Call} : w.calls i ≠ some call := by
    rw [hcalls]
    nofun
  refine ⟨fun i hi => ?_, fun i call hc => absurd hc none, fun a ha => ?_,
    fun i call hc => absurd hc none, fun a ha => ?_⟩
  · rw [hfree] at hi
    cases hi
  · rw [hcache] at ha
    cases ha
  · rw [hcache] at ha
    cases ha

/-- At most one download is in flight. -/
theorem one_in_flight (h : w.Orderly) (hi : w.calls i = some call) (hj : w.calls j = some c)
    (hsi : call.stage = .downloading) (hsj : c.stage = .downloading) : i = j := by
  have hti := (h.turn i call hi).mp (by rw [hsi]; rfl)
  have htj := (h.turn j c hj).mp (by rw [hsj]; rfl)
  exact Option.some.inj (hti.symm.trans htj)

end Callers

end Tronc.Iam
