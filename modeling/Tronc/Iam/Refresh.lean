import Tronc.Iam.TokenSource

namespace Tronc.Iam.IdTokenSource

open Transition
open Server (StatusCode)

namespace Callers

variable (display : StatusCode → String)

/-- How the cache's lock goes when a call moves from one stage to another. -/
inductive LockMoves (w : Callers) (i : CallId) (before after : Stage) : Option CallId → Prop where
  | stays : after.writes = before.writes → LockMoves w i before after w.writer
  | takes : w.writer = none → after.writes = true → LockMoves w i before after (some i)
  | gives : before.writes = true → after.writes = false → LockMoves w i before after none

/-- What brings a call from one stage to another, the write to the cache apart. -/
def Reaches (w : Callers) (e : Event) (i : CallId) (before : Stage) : Stage → Prop
  | .called => False
  | .missed => before = .called ∧ w.fresh = none
  | .fetching request => before = .missed ∧ request = metadataRequest w.audience w.env
  | .fetched token => (∃ request, before = .fetching request) ∧
    ∃ answer, e = .respond i answer ∧ readToken display answer = .ok token
  | .holding token => before = .fetched token
  | .storing token => before = .holding token ∧ w.fresh = none
  | .returned (.ok token) time => time = w.clock ∧ ∃ cached, w.fresh = some cached ∧
    cached.token = token
  | .returned (.error failure) time => time = w.clock ∧ (∃ request, before = .fetching request) ∧
    ∃ answer, e = .respond i answer ∧ readToken display answer = .error failure
  | .dropped => before.writes = false

/-- All that one step can do. -/
inductive Moves (w : Callers) : Event → Callers → Prop where
  | ticks (now : Nat) : w.clock ≤ now → Moves w (.tick now) { w with clock := now }
  | hosts (env : Option String) : Moves w (.setHost env) { w with env := env }
  | calls (i : CallId) : w.calls i = none → Moves w (.call i) (w.goto i .called)
  | goes (e : Event) (i : CallId) (before after : Stage) (lock : Option CallId) :
      w.calls i = some before → w.LockMoves i before after lock →
      w.Reaches display e i before after → Moves w e { w.goto i after with writer := lock }
  | stores (i : CallId) (token : String) : w.calls i = some (.storing token) →
      Moves w (.advance i)
        { w.release i (.returned (.ok token) w.clock) with cached := some ⟨token, w.clock⟩ }

variable {display} {w w' : Callers} {e : Event} {i j : CallId} {stage : Stage} {token : String}

private theorem advance_moves (hc : w.calls i = some stage) (h : w.advance i stage = some w') :
    w.Moves display (.advance i) w' := by
  cases stage with
  | called =>
    simp only [advance] at h
    split at h
    · split at h
      · rename_i cached hf
        obtain rfl := Option.some.inj h
        exact .goes _ i _ _ _ hc (.stays rfl) ⟨rfl, cached, hf, rfl⟩
      · rename_i hf
        obtain rfl := Option.some.inj h
        exact .goes _ i _ _ _ hc (.stays rfl) ⟨rfl, hf⟩
    · cases h
  | missed =>
    obtain rfl := Option.some.inj h
    exact .goes _ i _ _ _ hc (.stays rfl) ⟨rfl, rfl⟩
  | fetched token =>
    simp only [advance] at h
    split at h
    · rename_i hfree
      obtain rfl := Option.some.inj h
      exact .goes _ i _ (.holding token) _ hc (.takes hfree rfl) rfl
    · cases h
  | holding token =>
    simp only [advance] at h
    split at h
    · rename_i cached hf
      obtain rfl := Option.some.inj h
      exact .goes _ i _ _ _ hc (.gives rfl rfl) ⟨rfl, cached, hf, rfl⟩
    · rename_i hf
      obtain rfl := Option.some.inj h
      exact .goes _ i _ _ _ hc (.stays rfl) ⟨rfl, hf⟩
  | storing token =>
    obtain rfl := Option.some.inj h
    exact .stores i token hc
  | fetching request => cases h
  | returned answer time => cases h
  | dropped => cases h

private theorem respond_moves {answer : MetadataAnswer} (hc : w.calls i = some stage)
    (h : w.respond i display answer stage = some w') :
    w.Moves display (.respond i answer) w' := by
  cases stage with
  | fetching request =>
    simp only [respond] at h
    split at h
    · rename_i token hr
      obtain rfl := Option.some.inj h
      exact .goes _ i _ _ _ hc (.stays rfl) ⟨⟨request, rfl⟩, answer, rfl, hr⟩
    · rename_i failure hr
      obtain rfl := Option.some.inj h
      exact .goes _ i _ _ _ hc (.stays rfl) ⟨rfl, ⟨request, rfl⟩, answer, rfl, hr⟩
  | _ => cases h

private theorem dropFuture_moves (hc : w.calls i = some stage)
    (h : w.dropFuture i stage = some w') : w.Moves display (.drop i) w' := by
  cases stage with
  | called =>
    obtain rfl := Option.some.inj h
    exact .goes _ i _ _ _ hc (.stays rfl) rfl
  | fetching request =>
    obtain rfl := Option.some.inj h
    exact .goes _ i _ _ _ hc (.stays rfl) rfl
  | fetched token =>
    obtain rfl := Option.some.inj h
    exact .goes _ i _ _ _ hc (.stays rfl) rfl
  | _ => cases h

theorem step_moves (h : w.step display e = some w') : w.Moves display e w' := by
  cases e with
  | tick now =>
    simp only [step] at h
    split at h
    · rename_i hle
      obtain rfl := Option.some.inj h
      exact .ticks now hle
    · cases h
  | setHost env =>
    obtain rfl := Option.some.inj h
    exact .hosts env
  | call i =>
    simp only [step] at h
    split at h
    · rename_i hn
      obtain rfl := Option.some.inj h
      exact .calls i (Option.isNone_iff_eq_none.mp hn)
    · cases h
  | advance i =>
    obtain ⟨stage, hc, ha⟩ := Option.bind_eq_some_iff.mp h
    exact advance_moves hc ha
  | respond i answer =>
    obtain ⟨stage, hc, ha⟩ := Option.bind_eq_some_iff.mp h
    exact respond_moves hc ha
  | drop i =>
    obtain ⟨stage, hc, ha⟩ := Option.bind_eq_some_iff.mp h
    exact dropFuture_moves hc ha

theorem goto_calls {after : Stage} (h : (w.goto i after).calls j = some stage) :
    j = i ∧ stage = after ∨ j ≠ i ∧ w.calls j = some stage := by
  have looked : Function.update w.calls i (some after) j = some stage := h
  by_cases hj : j = i
  · subst hj
    rw [Function.update_self] at looked
    exact .inl ⟨rfl, (Option.some.inj looked).symm⟩
  · rw [Function.update_of_ne hj] at looked
    exact .inr ⟨hj, looked⟩

theorem fresh_eq_some {cached : Cached} : w.fresh = some cached ↔
    w.cached = some cached ∧ w.clock - cached.fetchedAt < REFRESH_AFTER := by
  unfold fresh
  rw [Option.filter_eq_some_iff, decide_eq_true_iff]

theorem fresh_eq_none (h : w.fresh = none) {cached : Cached} (hc : w.cached = some cached) :
    REFRESH_AFTER ≤ w.clock - cached.fetchedAt := by
  by_contra young
  rw [fresh_eq_some.mpr ⟨hc, Nat.lt_of_not_le young⟩] at h
  cases h

/-- One call at a time writes to the cache, and it has looked again by then. -/
structure Orderly (w : Callers) : Prop where
  lock : ∀ i stage, w.calls i = some stage → stage.writes = true → w.writer = some i
  past : ∀ cached, w.cached = some cached → cached.fetchedAt ≤ w.clock
  old : ∀ i token, w.calls i = some (.storing token) → w.fresh = none

theorem LockMoves.lock {before after : Stage} {lock : Option CallId}
    (h : w.LockMoves i before after lock) (hw : w.Orderly) (hc : w.calls i = some before)
    (hs : (w.goto i after).calls j = some stage) (writes : stage.writes = true) : lock = some j := by
  rcases goto_calls hs with ⟨hj, hstage⟩ | ⟨hj, hold⟩
  · subst hj hstage
    cases h with
    | stays same => exact hw.lock j before hc (same ▸ writes)
    | takes _ _ => rfl
    | gives _ none => exact absurd writes (by rw [none]; exact Bool.false_ne_true)
  · have held : w.writer = some j := hw.lock j stage hold writes
    cases h with
    | stays _ => exact held
    | takes free _ =>
      rw [free] at held
      cases held
    | gives gave _ =>
      have mine := hw.lock i before hc gave
      rw [held] at mine
      exact absurd (Option.some.inj mine) hj

theorem Orderly.step (hw : w.Orderly) (h : w.step display e = some w') : w'.Orderly := by
  cases step_moves h with
  | ticks now hle =>
    refine ⟨hw.lock, fun cached hc => Nat.le_trans (hw.past cached hc) hle, ?_⟩
    intro i token hc
    -- what was too old stays too old
    by_contra some
    obtain ⟨cached, hf⟩ := Option.ne_none_iff_exists'.mp some
    obtain ⟨hcached, young⟩ := fresh_eq_some.mp hf
    have old := fresh_eq_none (hw.old i token hc) hcached
    have later : w.clock - cached.fetchedAt ≤ now - cached.fetchedAt := Nat.sub_le_sub_right hle _
    exact absurd young (Nat.not_lt.mpr (Nat.le_trans old later))
  | hosts env => exact ⟨hw.lock, hw.past, hw.old⟩
  | calls i hn =>
    refine ⟨fun j stage hj writes => ?_, hw.past, fun j token hj => ?_⟩
    · rcases goto_calls hj with ⟨_, hs⟩ | ⟨_, hold⟩
      · rw [hs] at writes
        cases writes
      · exact hw.lock j stage hold writes
    · rcases goto_calls hj with ⟨_, hs⟩ | ⟨_, hold⟩
      · cases hs
      · exact hw.old j token hold
  | goes e i before after lock hc moves reaches =>
    refine ⟨fun j stage hj writes => moves.lock hw hc hj writes, hw.past, fun j token hj => ?_⟩
    rcases goto_calls hj with ⟨_, hs⟩ | ⟨_, hold⟩
    · subst hs
      exact reaches.2
    · exact hw.old j token hold
  | stores i token hc =>
    have alone {j : CallId} {stage : Stage} (hj : (w.goto i (.returned (.ok token) w.clock)).calls j =
        some stage) : stage.writes = false := by
      rcases goto_calls hj with ⟨_, hs⟩ | ⟨hne, hold⟩
      · rw [hs]
        rfl
      · by_contra writes
        have mine := hw.lock i _ hc rfl
        rw [hw.lock j stage hold (Bool.eq_true_of_not_eq_false writes)] at mine
        exact hne (Option.some.inj mine)
    refine ⟨fun j stage hj writes => ?_, fun cached hcached => ?_, fun j token hj => ?_⟩
    · rw [alone hj] at writes
      cases writes
    · rw [← Option.some.inj hcached]
      exact Nat.le_refl _
    · cases alone hj

theorem Orderly.new (audience : String) (env : Option String) (clock : Nat) :
    (new audience env clock).Orderly := by
  refine ⟨?_, ?_, ?_⟩
  · intro i stage h
    cases h
  · intro cached h
    cases h
  · intro i token h
    cases h

/-- The cache has kept its token, or has a younger one that came when that one was old. -/
def Kept (before after : Callers) : Prop :=
  ∀ cached, before.cached = some cached → ∃ later, after.cached = some later ∧
    (later = cached ∨ cached.fetchedAt + REFRESH_AFTER ≤ later.fetchedAt)

theorem Kept.refl (w : Callers) : Kept w w := by
  intro cached h
  exact ⟨cached, h, .inl rfl⟩

theorem Kept.trans (s t u : Callers) (first : Kept s t) (second : Kept t u) : Kept s u := by
  intro cached h
  obtain ⟨mid, hmid, hold⟩ := first cached h
  obtain ⟨last, hlast, hnew⟩ := second mid hmid
  refine ⟨last, hlast, ?_⟩
  rcases hold with rfl | apart
  · exact hnew
  · rcases hnew with rfl | more
    · exact .inr apart
    · have := Nat.le_add_right mid.fetchedAt REFRESH_AFTER
      exact .inr (by omega)

theorem Kept.step (hw : w.Orderly) (h : w.step display e = some w') : Kept w w' := by
  cases step_moves h with
  | stores i token hc =>
    intro cached hcached
    have old := fresh_eq_none (hw.old i token hc) hcached
    have past := hw.past cached hcached
    refine ⟨⟨token, w.clock⟩, rfl, .inr ?_⟩
    show cached.fetchedAt + REFRESH_AFTER ≤ w.clock
    omega
  | _ => exact Kept.refl w

/-- A call gets its answer in this step. -/
def Answered (x : Taken Callers Event) (i : CallId) (answer : Answer) : Prop :=
  ∃ time, x.target.calls i = some (.returned answer time) ∧ x.source.calls i ≠ x.target.calls i

/-- The step puts another token in the cache. -/
def Replaces (x : Taken Callers Event) : Prop := x.target.cached ≠ x.source.cached

/-- The metadata server has sent a token, to a fetch for the audience. -/
def Received (display : StatusCode → String) (audience : String) (tr : List (Taken Callers Event))
    (token : String) : Prop :=
  ∃ x ∈ tr, ∃ j answer env, x.label = .respond j answer ∧ readToken display answer = .ok token ∧
    x.source.calls j = some (.fetching (metadataRequest audience env))

/-- What a call is answered with: the cache's token, still young, or the failure of its own fetch,
and then the cache stays as it was. -/
theorem answered_step {answer : Answer} (h : w.step display e = some w')
    (ha : Answered ⟨w, e, w'⟩ i answer) :
    (∃ cached, answer = .ok cached.token ∧ w'.cached = some cached ∧
        w'.clock - cached.fetchedAt < REFRESH_AFTER) ∨
      ∃ failure reply request, answer = .error failure ∧ e = .respond i reply ∧
        readToken display reply = .error failure ∧ w.calls i = some (.fetching request) ∧
        w'.cached = w.cached := by
  obtain ⟨time, hret, hnew⟩ := ha
  have young (cached : Cached) (hf : w.fresh = some cached) := fresh_eq_some.mp hf
  cases step_moves h with
  | ticks now hle => exact absurd rfl hnew
  | hosts env => exact absurd rfl hnew
  | calls j hn =>
    rcases goto_calls hret with ⟨_, hs⟩ | ⟨_, hold⟩
    · cases hs
    · exact absurd (hold.trans hret.symm) hnew
  | goes e j before after lock hc moves reaches =>
    rcases goto_calls hret with ⟨hj, hs⟩ | ⟨_, hold⟩
    · subst hj hs
      cases answer with
      | ok token =>
        obtain ⟨_, cached, hf, htoken⟩ := reaches
        exact .inl ⟨cached, by rw [htoken], young cached hf⟩
      | error failure =>
        obtain ⟨_, ⟨request, hb⟩, reply, he, hr⟩ := reaches
        exact .inr ⟨failure, reply, request, rfl, he, hr, hb ▸ hc, rfl⟩
    · exact absurd (hold.trans hret.symm) hnew
  | stores j token hc =>
    rcases goto_calls hret with ⟨hj, hs⟩ | ⟨_, hold⟩
    · obtain ⟨hanswer, _⟩ := Stage.returned.inj hs
      refine .inl ⟨⟨token, w.clock⟩, hanswer, rfl, ?_⟩
      show w.clock - w.clock < REFRESH_AFTER
      rw [Nat.sub_self]
      decide
    · exact absurd (hold.trans hret.symm) hnew

/-- A token that replaces one comes when that one is old. -/
theorem replaces_step (hw : w.Orderly) (h : w.step display e = some w')
    (hr : Replaces ⟨w, e, w'⟩) : ∃ cached, w'.cached = some cached ∧
      ∀ before, w.cached = some before → before.fetchedAt + REFRESH_AFTER ≤ cached.fetchedAt := by
  cases step_moves h with
  | stores i token hc =>
    refine ⟨⟨token, w.clock⟩, rfl, fun before hbefore => ?_⟩
    have old := fresh_eq_none (hw.old i token hc) hbefore
    have past := hw.past before hbefore
    show before.fetchedAt + REFRESH_AFTER ≤ w.clock
    omega
  | _ => exact absurd rfl hr

/-- Where the tokens of a source come from. -/
structure Sourced (display : StatusCode → String) (tr : List (Taken Callers Event))
    (w : Callers) : Prop where
  asked : ∀ i request, w.calls i = some (.fetching request) →
    ∃ env, request = metadataRequest w.audience env
  own : ∀ i stage token, w.calls i = some stage → stage.own = some token →
    Received display w.audience tr token
  cached : ∀ cached, w.cached = some cached → Received display w.audience tr cached.token

theorem Received.append {audience : String} {tr : List (Taken Callers Event)}
    (h : Received display audience tr token) (x : Taken Callers Event) :
    Received display audience (tr ++ [x]) token := by
  obtain ⟨y, hy, rest⟩ := h
  exact ⟨y, List.mem_append_left _ hy, rest⟩

theorem Sourced.step {tr : List (Taken Callers Event)} (hw : Sourced display tr w)
    (h : w.step display e = some w') : Sourced display (tr ++ [⟨w, e, w'⟩]) w' := by
  have kept {token : String} (hr : Received display w.audience tr token) :=
    hr.append ⟨w, e, w'⟩
  cases step_moves h with
  | ticks now hle =>
    exact ⟨hw.asked, fun i s t hs ht => kept (hw.own i s t hs ht), fun c hc => kept (hw.cached c hc)⟩
  | hosts env =>
    exact ⟨hw.asked, fun i s t hs ht => kept (hw.own i s t hs ht), fun c hc => kept (hw.cached c hc)⟩
  | calls i hn =>
    refine ⟨fun j request hj => ?_, fun j s t hj ht => ?_, fun c hc => kept (hw.cached c hc)⟩
    · rcases goto_calls hj with ⟨_, hs⟩ | ⟨_, hold⟩
      · cases hs
      · exact hw.asked j request hold
    · rcases goto_calls hj with ⟨_, hs⟩ | ⟨_, hold⟩
      · rw [hs] at ht
        cases ht
      · exact kept (hw.own j s t hold ht)
  | goes e i before after lock hc moves reaches =>
    refine ⟨fun j request hj => ?_, fun j s t hj ht => ?_, fun c hc => kept (hw.cached c hc)⟩
    · rcases goto_calls hj with ⟨_, hs⟩ | ⟨_, hold⟩
      · subst hs
        exact ⟨w.env, reaches.2⟩
      · exact hw.asked j request hold
    · rcases goto_calls hj with ⟨_, hs⟩ | ⟨_, hold⟩
      · subst hs
        cases s with
        | fetched token =>
          obtain ⟨⟨request, hb⟩, answer, he, hr⟩ := reaches
          obtain ⟨env, hrequest⟩ := hw.asked i request (hb ▸ hc)
          obtain rfl := Option.some.inj ht
          subst hb hrequest
          exact ⟨_, List.mem_append_right _ (.head _), i, answer, env, he, hr, hc⟩
        | holding token =>
          obtain rfl : before = .fetched token := reaches
          exact kept (hw.own i _ t hc ht)
        | storing token =>
          obtain ⟨rfl, _⟩ := reaches
          exact kept (hw.own i _ t hc ht)
        | _ => cases ht
      · exact kept (hw.own j s t hold ht)
  | stores i token hc =>
    refine ⟨fun j request hj => ?_, fun j s t hj ht => ?_, fun c hcached => ?_⟩
    · rcases goto_calls hj with ⟨_, hs⟩ | ⟨_, hold⟩
      · cases hs
      · exact hw.asked j request hold
    · rcases goto_calls hj with ⟨_, hs⟩ | ⟨_, hold⟩
      · rw [hs] at ht
        cases ht
      · exact kept (hw.own j s t hold ht)
    · rw [← Option.some.inj hcached]
      exact kept (hw.own i _ token hc rfl)

theorem Sourced.run {tr : List (Taken Callers Event)} (h : (tokenSource display).Run w tr w')
    (h₀ : (tokenSource display).init w) : Sourced display tr w' := by
  induction h with
  | start =>
    obtain ⟨audience, env, clock, rfl⟩ := h₀
    refine ⟨?_, ?_, ?_⟩
    · intro i request h
      cases h
    · intro i stage token h
      cases h
    · intro cached h
      cases h
  | next _ step ih => exact ih.step step

theorem Orderly.init (h : (tokenSource display).init w) : w.Orderly := by
  obtain ⟨audience, env, clock, rfl⟩ := h
  exact Orderly.new audience env clock

section Runs

variable (display : StatusCode → String) {w w' : Callers} {tr : List (Taken Callers Event)}

theorem kept_along (h₀ : (tokenSource display).init w) (h : (tokenSource display).Run w tr w') :
    tr.Pairwise fun x y => Kept x.target y.source :=
  h.ordered (I := Orderly) (Orderly.init h₀) (fun _ _ _ => Orderly.step) Kept.refl Kept.trans
    fun _ _ _ => Kept.step

def minted (token : String) : MetadataAnswer := .answered .OK (.ok token)

/-- Two callers miss, and the slower one is given the faster one's token. -/
def refresh : List Event :=
  [.call 0, .call 1, .advance 0, .advance 1, .advance 0, .advance 1, .respond 1 (minted "a.b.c"),
    .respond 0 (minted "d.e.f"), .advance 1, .advance 1, .tick 5, .advance 1, .advance 0]

/-- A third caller comes when the token of the first two is old. -/
def secondRefresh : List Event :=
  refresh ++ [.advance 0, .tick (5 + REFRESH_AFTER), .call 2, .advance 2, .advance 2,
    .respond 2 (minted "g.h.i"), .advance 2, .advance 2, .advance 2]

theorem run_of_labels {labels : List Event} (h : (exec (fun w => w.step display) w labels).isSome) :
    ∃ tr u, (tokenSource display).Run w tr u ∧ tr.map Taken.label = labels := by
  obtain ⟨u, hu⟩ := Option.isSome_iff_exists.mp h
  obtain ⟨rest, hrun, hlabels⟩ := Lts.Run.labels (M := tokenSource display)
    (fun s a t (hs : s.step display a = some t) => hs) labels hu (.start w)
  exact ⟨rest, u, hrun, hlabels⟩

/-- Of any two calls that are given a token, the later one is given the same, or one that was stored
when that had been in the cache for its 45 minutes: no slow fetch replaces a token before. -/
theorem answers_never_older (h₀ : (tokenSource display).init w)
    (h : (tokenSource display).Run w tr w') :
    tr.Pairwise fun x y => ∀ i j s t, Answered x i (.ok s) → Answered y j (.ok t) →
      ∃ c d, x.target.cached = some c ∧ c.token = s ∧ y.target.cached = some d ∧ d.token = t ∧
        (d = c ∨ c.fetchedAt + REFRESH_AFTER ≤ d.fetchedAt) := by
  refine (kept_along display h₀ h).imp_of_mem fun {x y} hx hy between i j s t hs ht => ?_
  obtain ⟨stepx, _⟩ := h.taken hx
  obtain ⟨stepy, before, hbefore⟩ := h.taken hy
  have orderly : y.source.Orderly :=
    hbefore.invariant (fun _ _ _ => Orderly.step) (Orderly.init h₀)
  have ofx := answered_step stepx hs
  have ofy := answered_step stepy ht
  obtain ⟨c, hc, hcached, _⟩ | ⟨_, _, _, hc, _⟩ := ofx
  · obtain ⟨d, hd, hlater, _⟩ | ⟨_, _, _, hd, _⟩ := ofy
    · obtain ⟨last, hlast, order⟩ :=
        Kept.trans _ _ _ between (Kept.step orderly stepy) c hcached
      rw [hlater] at hlast
      obtain rfl := Option.some.inj hlast
      exact ⟨c, d, hcached, (Except.ok.inj hc).symm, hlater, (Except.ok.inj hd).symm, order⟩
    · cases hd
  · cases hc

theorem answers_never_older_run : ∃ tr u,
    (tokenSource fun _ => "").Run (new "service" none 0) tr u ∧
      tr.map Taken.label = secondRefresh ∧
      tr.Pairwise fun x y => ∀ i j s t, Answered x i (.ok s) → Answered y j (.ok t) →
        ∃ c d, x.target.cached = some c ∧ c.token = s ∧ y.target.cached = some d ∧ d.token = t ∧
          (d = c ∨ c.fetchedAt + REFRESH_AFTER ≤ d.fetchedAt) := by
  have runs : (exec (fun w => w.step fun _ => "") (new "service" none 0) secondRefresh).isSome := by
    decide +kernel
  obtain ⟨tr, u, hrun, hlabels⟩ := run_of_labels (fun _ => "") runs
  exact ⟨tr, u, hrun, hlabels, answers_never_older _ ⟨_, _, _, rfl⟩ hrun⟩

/-- Tokens are put in the cache at least 45 minutes apart, whatever the fetches under way. -/
theorem stores_spaced (h₀ : (tokenSource display).init w) (h : (tokenSource display).Run w tr w') :
    tr.Pairwise fun x y => Replaces x → Replaces y → ∃ c d, x.target.cached = some c ∧
      y.target.cached = some d ∧ c.fetchedAt + REFRESH_AFTER ≤ d.fetchedAt := by
  refine (kept_along display h₀ h).imp_of_mem fun {x y} hx hy between hrx hry => ?_
  obtain ⟨stepx, front, hfront⟩ := h.taken hx
  obtain ⟨stepy, before, hbefore⟩ := h.taken hy
  have ofx : x.source.Orderly := hfront.invariant (fun _ _ _ => Orderly.step) (Orderly.init h₀)
  have ofy : y.source.Orderly := hbefore.invariant (fun _ _ _ => Orderly.step) (Orderly.init h₀)
  obtain ⟨c, hc, _⟩ := replaces_step ofx stepx hrx
  obtain ⟨d, hd, apart⟩ := replaces_step ofy stepy hry
  obtain ⟨mid, hmid, order⟩ := between c hc
  refine ⟨c, d, hc, hd, ?_⟩
  have gap := apart mid hmid
  rcases order with rfl | more
  · exact gap
  · omega

theorem stores_spaced_run : ∃ tr u,
    (tokenSource fun _ => "").Run (new "service" none 0) tr u ∧
      tr.map Taken.label = secondRefresh ∧
      tr.Pairwise fun x y => Replaces x → Replaces y → ∃ c d, x.target.cached = some c ∧
        y.target.cached = some d ∧ c.fetchedAt + REFRESH_AFTER ≤ d.fetchedAt := by
  have runs : (exec (fun w => w.step fun _ => "") (new "service" none 0) secondRefresh).isSome := by
    decide +kernel
  obtain ⟨tr, u, hrun, hlabels⟩ := run_of_labels (fun _ => "") runs
  exact ⟨tr, u, hrun, hlabels, stores_spaced _ ⟨_, _, _, rfl⟩ hrun⟩

/-- A token that is handed out is the cache's, stored less than 45 minutes ago, has the shape of a JWT,
and was sent by the metadata server to a fetch for this audience; a failure is the caller's own
fetch's, and leaves the cache as it was. -/
theorem answers_explained {e : Event} {u : Callers} {i : CallId} {answer : Answer}
    (h₀ : (tokenSource display).init w) (h : (tokenSource display).Run w tr u)
    (hs : (tokenSource display).step u e w') (ha : Answered ⟨u, e, w'⟩ i answer) :
    (∃ cached, answer = .ok cached.token ∧ w'.cached = some cached ∧
        w'.clock - cached.fetchedAt < REFRESH_AFTER ∧ isThreeSegments cached.token = true ∧
        Received display w.audience (tr ++ [⟨u, e, w'⟩]) cached.token) ∨
      ∃ failure reply env, answer = .error failure ∧ e = .respond i reply ∧
        readToken display reply = .error failure ∧
        u.calls i = some (.fetching (metadataRequest w.audience env)) ∧ w'.cached = u.cached := by
  have same : u.audience = w.audience := by
    refine h.invariant (P := fun v => v.audience = w.audience) (fun s a t hs hst => ?_) rfl
    rw [← hs]
    cases step_moves hst <;> rfl
  have same' : w'.audience = u.audience := by
    cases step_moves hs <;> rfl
  have before : Sourced display tr u := Sourced.run h h₀
  have after : Sourced display (tr ++ [⟨u, e, w'⟩]) w' := before.step hs
  obtain ⟨cached, hanswer, hcached, young⟩ | ⟨failure, reply, request, hanswer, he, hr, hc, hkept⟩ :=
    answered_step hs ha
  · have received := after.cached cached hcached
    rw [same', same] at received
    obtain ⟨x, hx, j, reply, env, hlabel, hread, hfetch⟩ := received
    exact .inl ⟨cached, hanswer, hcached, young, readToken_ok display hread, x, hx, j, reply, env,
      hlabel, hread, hfetch⟩
  · obtain ⟨env, hrequest⟩ := before.asked i request hc
    rw [hrequest, same] at hc
    exact .inr ⟨failure, reply, env, hanswer, he, hr, hc, hkept⟩

theorem answers_explained_run : ∃ tr u w, (tokenSource fun _ => "").Run (new "service" none 0) tr u ∧
    tr.map Taken.label = refresh ∧ Answered ⟨u, .advance 0, w⟩ 0 (.ok "a.b.c") ∧
    Received (fun _ => "") "service" (tr ++ [⟨u, .advance 0, w⟩]) "a.b.c" := by
  have runs : ((exec (fun w => w.step fun _ => "") (new "service" none 0) refresh).bind fun u =>
      (u.step (fun _ => "") (.advance 0)).map fun w => (u.calls 0, w.calls 0)) =
      some (some (.holding "d.e.f"), some (.returned (.ok "a.b.c") 5)) := by decide +kernel
  obtain ⟨u, hu, hafter⟩ := Option.bind_eq_some_iff.mp runs
  obtain ⟨w, hw, hboth⟩ := Option.map_eq_some_iff.mp hafter
  obtain ⟨hbefore, hanswer⟩ := Prod.mk.inj hboth
  obtain ⟨tr, hrun, hlabels⟩ := Lts.Run.labels (M := tokenSource fun _ => "")
    (fun s a t (hs : s.step (fun _ => "") a = some t) => hs) refresh hu (.start _)
  have answered : Answered ⟨u, .advance 0, w⟩ 0 (.ok "a.b.c") :=
    ⟨5, hanswer, by rw [hbefore, hanswer]; exact nofun⟩
  refine ⟨tr, u, w, hrun, hlabels, answered, ?_⟩
  obtain ⟨cached, htoken, _, _, _, received⟩ | ⟨failure, _, _, hfailed, _⟩ :=
    answers_explained _ ⟨_, _, _, rfl⟩ hrun hw answered
  · rw [Except.ok.inj htoken]
    exact received
  · cases hfailed

end Runs

end Callers

end Tronc.Iam.IdTokenSource
