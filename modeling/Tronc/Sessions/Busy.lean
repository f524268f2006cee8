import Tronc.Sessions.Interleaving

namespace Tronc.Sessions

open Transition

/-- The clock an operation reads once, when it starts. -/
def Stage.now : Stage → Option Nat
  | .called | .removed _ | .returned _ => none
  | .timed now | .due now | .ready now | .visit now .. | .visitIdle now .. | .visitExpired now ..
  | .found now .. | .foundIdle now .. | .foundExpired now .. | .unexpired now .. | .scan now ..
  | .scanIdle now .. | .evicting now _ | .checkTotal now | .recheckTotal now => some now

/-- The session found is in its bounds, and its use is about to begin. -/
private def Stage.isUnexpired : Stage → Bool
  | .unexpired .. => true
  | _ => false

namespace Threads

/-- What brings an operation from one stage to the next. -/
structure Follows (w : Threads) (before after : Stage) : Prop where
  now : after.now = none ∨ after.now = before.now ∨ before = .called ∧ after.now = some w.clock
  judged : ∀ now id s, after = .unexpired now id s →
    (before = .found now id s ∨ before = .foundIdle now id s) ∧
      w.cells.isExpired s w.ttl now = false

variable {w w' : Threads} {i j : OpId} {op op' : Op}

/-- The operation is now at `stage`, where it got from where it was. -/
def Goes (w : Threads) (i : OpId) (op : Op) (w' : Threads) : Prop :=
  ∃ stage, w'.ops = Function.update w.ops i (some { op with stage := stage }) ∧
    w.Follows op.stage stage

private theorem Goes.on (stage : Stage)
    (h : w'.ops = Function.update w.ops i (some { op with stage := stage }))
    (hn : stage.now = none ∨ stage.now = op.stage.now)
    (hu : stage.isUnexpired = false) : Goes w i op w' := by
  refine ⟨stage, h, hn.imp_right .inl, fun now id s hs => ?_⟩
  rw [hs] at hu
  cases hu

private theorem Goes.take {stage : Stage} (h : w.take i op stage = some w')
    (hn : stage.now = op.stage.now) (hu : stage.isUnexpired = false) :
    Goes w i op w' := by
  unfold Threads.take at h
  split at h
  · obtain rfl := Option.some.inj h
    exact .on _ rfl (.inr hn) hu
  · simp at h

private theorem Goes.putIn (h : w.putIn i op = some w') : Goes w i op w' := by
  unfold Threads.putIn at h
  split at h
  · split at h
    · obtain rfl := Option.some.inj h
      exact .on (.returned .inserted) rfl (.inl rfl) rfl
    · simp at h
  · simp at h

private theorem Goes.look {now : Nat} {id : String} (hs : op.stage = .ready now)
    (h : (match w.sessions.lookup id with
      | none => if w.lock = none then some (w.goto i op (.returned (.session none))) else none
      | some session => w.take i op (.found now id session)) = some w') : Goes w i op w' := by
  split at h
  · split at h
    · obtain rfl := Option.some.inj h
      exact .on _ rfl (.inl rfl) rfl
    · simp at h
  · exact .take h (by rw [hs]; rfl) rfl

private theorem Goes.begin {now : Nat} (hs : op.stage = .ready now)
    (h : w.begin i op now = some w') : Goes w i op w' := by
  obtain ⟨call, stage⟩ := op
  cases call with
  | insert session =>
    simp only [Threads.begin] at h
    split at h
    · obtain rfl := Option.some.inj h
      exact .on _ rfl (.inl rfl) rfl
    · exact .take h (by rw [hs]; rfl) rfl
  | enter id ctx => exact .look hs h
  | find id => exact .look hs h
  | endSession id => simp [Threads.begin] at h
  | sweep =>
    obtain rfl := Option.some.inj h
    exact .on _ rfl (.inl rfl) rfl

theorem advance_goes (h : w.advance i op = some w') : Goes w i op w' := by
  obtain ⟨call, stage⟩ := op
  cases stage with
  | called =>
    simp only [advance] at h
    split at h
    · split at h
      · split at h
        · obtain rfl := Option.some.inj h
          exact .on _ rfl (.inl rfl) rfl
        · rename_i session _
          obtain rfl := Option.some.inj h
          exact .on (.removed session) rfl (.inl rfl) rfl
      · simp at h
    · obtain rfl := Option.some.inj h
      refine ⟨_, rfl, .inr (.inr ⟨rfl, rfl⟩), ?_⟩
      intro _ _ _ hs
      cases hs
  | timed now =>
    simp only [advance] at h
    split at h
    · obtain rfl := Option.some.inj h
      exact .on _ rfl (.inr rfl) rfl
    · obtain rfl := Option.some.inj h
      exact .on (.due now) rfl (.inr rfl) rfl
  | due now => exact .take h rfl rfl
  | ready now => exact .begin rfl h
  | visit now todo full =>
    cases todo with
    | nil =>
      obtain rfl := Option.some.inj h
      cases full with
      | true => exact .on _ rfl (.inr rfl) rfl
      | false => exact .on (.ready now) rfl (.inr rfl) rfl
    | cons key todo =>
      simp only [advance] at h
      split at h
      · obtain rfl := Option.some.inj h
        exact .on _ rfl (.inr rfl) rfl
      · obtain rfl := Option.some.inj h
        split
        · exact .on _ rfl (.inr rfl) rfl
        · exact .on _ rfl (.inr rfl) rfl
  | visitIdle now key session todo full =>
    obtain rfl := Option.some.inj h
    split
    · exact .on _ rfl (.inr rfl) rfl
    · exact .on _ rfl (.inr rfl) rfl
  | visitExpired now key session todo full =>
    obtain rfl := Option.some.inj h
    exact .on (.visit now todo full) rfl (.inr rfl) rfl
  | found now id session =>
    obtain rfl := Option.some.inj h
    cases hi : w.cells.isIdle session with
    | true => exact .on _ rfl (.inr rfl) rfl
    | false =>
      refine ⟨_, rfl, .inr (.inl rfl), fun now' id' s hs => ?_⟩
      obtain ⟨rfl, rfl, rfl⟩ := Stage.unexpired.inj hs
      exact ⟨.inl rfl, by simp [Cells.isExpired, hi]⟩
  | foundIdle now id session =>
    obtain rfl := Option.some.inj h
    by_cases hx : w.ttl ≤ now - w.cells.lastSeen session
    · rw [if_pos hx]
      exact .on _ rfl (.inr rfl) rfl
    · rw [if_neg hx]
      refine ⟨_, rfl, .inr (.inl rfl), fun now' id' s hs => ?_⟩
      obtain ⟨rfl, rfl, rfl⟩ := Stage.unexpired.inj hs
      exact ⟨.inr rfl, by simp [Cells.isExpired, hx]⟩
  | foundExpired now id session =>
    obtain rfl := Option.some.inj h
    exact .on (.returned (.session none)) rfl (.inl rfl) rfl
  | unexpired now id session =>
    simp only [advance] at h
    split at h
    · split at h
      · obtain rfl := Option.some.inj h
        exact .on (.returned (.session (some session))) rfl (.inl rfl) rfl
      · obtain rfl := Option.some.inj h
        exact .on (.returned (.session none)) rfl (.inl rfl) rfl
    · obtain rfl := Option.some.inj h
      exact .on (.returned (.session (some session))) rfl (.inl rfl) rfl
  | scan now todo theirs leastRecent =>
    cases todo with
    | nil =>
      simp only [advance] at h
      split at h
      · split at h
        · obtain rfl := Option.some.inj h
          exact .on (.returned (.refused .callerFull)) rfl (.inl rfl) rfl
        · obtain rfl := Option.some.inj h
          exact .on _ rfl (.inr rfl) rfl
      · obtain rfl := Option.some.inj h
        exact .on _ rfl (.inr rfl) rfl
    | cons key todo =>
      simp only [advance] at h
      split at h
      · obtain rfl := Option.some.inj h
        split
        · split
          · exact .on _ rfl (.inr rfl) rfl
          · exact .on _ rfl (.inr rfl) rfl
        · exact .on _ rfl (.inr rfl) rfl
      · obtain rfl := Option.some.inj h
        exact .on _ rfl (.inr rfl) rfl
  | scanIdle now key live todo theirs leastRecent =>
    obtain rfl := Option.some.inj h
    exact .on _ rfl (.inr rfl) rfl
  | evicting now key =>
    simp only [advance] at h
    split at h
    · obtain rfl := Option.some.inj h
      exact .on _ rfl (.inr rfl) rfl
    · obtain rfl := Option.some.inj h
      exact .on (.checkTotal now) rfl (.inr rfl) rfl
  | checkTotal now =>
    simp only [advance] at h
    split at h
    · obtain rfl := Option.some.inj h
      exact .on _ rfl (.inr rfl) rfl
    · exact .putIn h
  | recheckTotal now =>
    simp only [advance] at h
    split at h
    · obtain rfl := Option.some.inj h
      exact .on (.returned (.refused .serverFull)) rfl (.inl rfl) rfl
    · exact .putIn h
  | removed session =>
    obtain rfl := Option.some.inj h
    exact .on (.returned (.ended true)) rfl (.inl rfl) rfl
  | returned answer => simp [advance] at h

/-- How many guards on the session `SessionStore::enter` has handed out that are not dropped. -/
def handed (w : Threads) (session : Session) : Nat :=
  w.guards.countP fun guard => guard.session = session ∧ guard.viaStore = true

/-- A step that no operation takes. -/
structure Passes (w w' : Threads) : Prop where
  lookup : ∀ key, w'.sessions.lookup key = w.sessions.lookup key
  cancelled : w'.cells.cancelled = w.cells.cancelled
  ended : w'.ended = w.ended
  handed : ∀ s, w'.handed s ≤ w.handed s

theorem Passes.live (h : w.Passes w') (s : Session) : w'.Live s ↔ w.Live s := by
  simp only [Live, h.lookup]

private theorem Passes.drop {guard : Guard} (hg : guard ∈ w.guards) :
    w.Passes (w.dropGuard guard) := by
  have perm := List.perm_cons_erase hg
  unfold dropGuard
  split
  all_goals
    refine ⟨fun _ => rfl, rfl, rfl, fun s => ?_⟩
    unfold Threads.handed
    rw [perm.countP_eq, List.countP_cons]
  · rw [List.countP_cons]
  · rw [List.countP_cons]
  · exact Nat.le_add_right _ _

theorem step_cases {e : Event} (h : w.Sound) (hs : w.step e = some w') :
    w.Passes w' ∨ ∃ i op, e = .advance i ∧ w.ops i = some op ∧ Effect w i op w' := by
  cases e with
  | tick now =>
    simp only [step] at hs
    split at hs
    · obtain rfl := Option.some.inj hs
      exact .inl ⟨fun _ => rfl, rfl, rfl, fun _ => Nat.le_refl _⟩
    · simp at hs
  | mint id ctx =>
    simp only [step] at hs
    split at hs
    · simp at hs
    · obtain rfl := Option.some.inj hs
      exact .inl ⟨fun _ => rfl, rfl, rfl, fun _ => Nat.le_refl _⟩
  | use session =>
    simp only [step] at hs
    split at hs
    · obtain rfl := Option.some.inj hs
      refine .inl ⟨fun _ => rfl, rfl, rfl, fun s => ?_⟩
      simp [handed]
    · simp at hs
  | call i call =>
    simp only [step] at hs
    split at hs
    · obtain rfl := Option.some.inj hs
      exact .inl ⟨fun _ => rfl, rfl, rfl, fun _ => Nat.le_refl _⟩
    · simp at hs
  | advance i =>
    obtain ⟨op, ho, ha⟩ := Option.bind_eq_some_iff.mp hs
    exact .inr ⟨i, op, rfl, ho, advance_effect h ho ha⟩
  | drop guard =>
    simp only [step] at hs
    split at hs
    · rename_i hg
      obtain rfl := Option.some.inj hs
      exact .inl (.drop hg)
    · simp at hs
  | rehash sessions =>
    simp only [step] at hs
    split at hs
    · rename_i hmay
      obtain rfl := Option.some.inj hs
      exact .inl ⟨fun key => AList.perm_lookup hmay.2, rfl, rfl, fun _ => Nat.le_refl _⟩
    · simp at hs

end Threads

/-- A step of an `end` of the session's id. -/
def ByEnd (x : Taken Threads Threads.Event) (s : Session) : Prop :=
  ∃ i op id, x.label = .advance i ∧ x.source.ops i = some op ∧ op.call = .endSession id ∧
    s.id = some id

/-- The step takes the session out of the store. -/
def Removes (x : Taken Threads Threads.Event) (s : Session) : Prop :=
  x.source.Live s ∧ ¬ x.target.Live s

/-- The step fires the session's token. -/
def Fires (x : Taken Threads Threads.Event) (s : Session) : Prop :=
  x.source.cells.cancelled s = false ∧ x.target.cells.cancelled s = true

namespace Threads

variable {w w' : Threads} {e : Event} {s : Session}

/-- A session that leaves the store with no guard on it is left to `drop_expired`, `find`, `enter`
and `insert`; any other is ended. -/
theorem removes_byEnd (h : w.Sound) (hs : w.step e = some w') (hr : Removes ⟨w, e, w'⟩ s) :
    w.Free s ∨ ByEnd ⟨w, e, w'⟩ s := by
  obtain ⟨hlive, hgone⟩ := hr
  obtain hp | ⟨i, op, rfl, ho, heff⟩ := step_cases h hs
  · exact absurd ((hp.live s).mpr hlive) hgone
  · cases heff with
    | moves | enters | fires => exact absurd hlive hgone
    | expels key session stage lock _ hk hfree _ _ =>
      by_cases he : s = session
      · exact .inl (he ▸ hfree)
      · exact absurd ((h.stored.live_erase hk s).mpr ⟨hlive, he⟩) hgone
    | inserts session id _ _ _ hid =>
      refine absurd ?_ hgone
      obtain ⟨key, hl⟩ := hlive
      by_cases hk : key = id
      · subst hk
        have hsuits := h.served.suits i op ho
        have same := h.stored.single s (h.stored.minted s (h.stored.unfired s ⟨key, hl⟩).1) session
          (h.stored.minted session (hsuits.given session (by assumption)))
          ((h.stored.keyed key s hl).trans hid.symm)
        exact ⟨key, (AList.lookup_insert _).trans (congrArg some same.symm)⟩
      · exact ⟨key, (AList.lookup_insert_ne hk).trans hl⟩
    | removes id session _ hop hk =>
      by_cases he : s = session
      · subst he hop
        exact .inr ⟨i, _, id, rfl, ho, rfl, h.stored.keyed id s hk⟩
      · exact absurd ((h.stored.live_erase hk s).mpr ⟨hlive, he⟩) hgone

/-- A token that fires with a guard on its session fires through `end`. -/
theorem fires_byEnd (h : w.Sound) (hs : w.step e = some w') (hf : Fires ⟨w, e, w'⟩ s) :
    w.Free s ∧ s ∉ w.ended ∨ ByEnd ⟨w, e, w'⟩ s := by
  obtain ⟨hold, hnew⟩ := hf
  have same (hc : w'.cells.cancelled s = w.cells.cancelled s) : False := by
    have both := hnew.symm.trans (hc.trans hold)
    simp at both
  obtain hp | ⟨i, op, rfl, ho, heff⟩ := step_cases h hs
  · exact (same (congrFun hp.cancelled s)).elim
  · cases heff with
    | moves | enters | inserts | removes => exact (same rfl).elim
    | expels key session stage lock _ hk hfree _ _ =>
      by_cases he : s = session
      · subst he
        exact .inl ⟨hfree, (h.stored.unfired s ⟨key, hk⟩).2.2⟩
      · exact (same (Function.update_of_ne he _ _)).elim
    | fires id session hop _ hid =>
      by_cases he : s = session
      · subst he hop
        exact .inr ⟨i, _, id, rfl, ho, rfl, hid⟩
      · exact (same (Function.update_of_ne he _ _)).elim

theorem ended_cases (h : w.Sound) (hs : w.step e = some w') (he : s ∈ w'.ended) :
    s ∈ w.ended ∨
      Removes ⟨w, e, w'⟩ s ∧ ByEnd ⟨w, e, w'⟩ s ∧ w'.cells.cancelled s = false := by
  obtain hp | ⟨i, op, rfl, ho, heff⟩ := step_cases h hs
  · rw [hp.ended] at he
    exact .inl he
  · cases heff with
    | moves | enters | fires | expels | inserts => exact .inl he
    | removes id session _ hop hk =>
      rcases List.mem_cons.mp he with rfl | he
      · subst hop
        have hlive : w.Live s := ⟨id, hk⟩
        refine .inr ⟨⟨hlive, fun hl => ?_⟩, ⟨i, _, id, rfl, ho, rfl, h.stored.keyed id s hk⟩,
          (h.stored.unfired s hlive).2.1⟩
        exact ((h.stored.live_erase hk s).mp hl).2 rfl
      · exact .inl he

/-- A guard is handed out by `enter`, to the session's caller. -/
theorem handed_cases (h : w.Sound) (hs : w.step e = some w') (hlt : w.handed s < w'.handed s) :
    ∃ i id ctx now, e = .advance i ∧ w.ops i = some ⟨.enter id ctx, .unexpired now id s⟩ ∧
      s.isOwnedBy ctx = true ∧ w.sessions.lookup id = some s := by
  obtain hp | ⟨i, op, rfl, ho, heff⟩ := step_cases h hs
  · exact absurd (hp.handed s) (Nat.not_le_of_lt hlt)
  · cases heff with
    | moves | expels | inserts | removes | fires => exact absurd hlt (Nat.lt_irrefl _)
    | enters id ctx now session _ hop hk hown =>
      have heq : session = s := by
        by_contra hne
        have same : ({ w.release i op (.returned (.session (some session))) with
            guards := ⟨session, true, .held⟩ :: w.guards
            cells := w.cells.enter session } : Threads).handed s = w.handed s := by
          unfold handed
          rw [List.countP_cons, if_neg (by simp [hne])]
          rfl
        rw [same] at hlt
        exact Nat.lt_irrefl _ hlt
      subst heq hop
      exact ⟨i, id, ctx, now, rfl, ho, hown, hk⟩

/-- An operation stays where it is, starts, or goes on from where it was. -/
theorem step_ops (hs : w.step e = some w') {i : OpId} {op : Op} (ho : w'.ops i = some op) :
    w.ops i = some op ∨ op.stage = .called ∨
      e = .advance i ∧ ∃ before, w.ops i = some before ∧ op.call = before.call ∧
        w.Follows before.stage op.stage := by
  cases e with
  | call j call =>
    simp only [step] at hs
    split at hs
    · obtain rfl := Option.some.inj hs
      replace ho : Function.update w.ops j (some ⟨call, .called⟩) i = some op := ho
      by_cases hij : i = j
      · subst hij
        rw [Function.update_self] at ho
        exact .inr (.inl (by rw [← Option.some.inj ho]))
      · rw [Function.update_of_ne hij] at ho
        exact .inl ho
    · simp at hs
  | advance j =>
    obtain ⟨before, hb, ha⟩ := Option.bind_eq_some_iff.mp hs
    obtain ⟨stage, hops, hf⟩ := advance_goes ha
    rw [hops] at ho
    by_cases hij : i = j
    · subst hij
      rw [Function.update_self] at ho
      obtain rfl := Option.some.inj ho
      exact .inr (.inr ⟨rfl, before, hb, rfl, hf⟩)
    · rw [Function.update_of_ne hij] at ho
      exact .inl ho
  | drop guard =>
    simp only [step] at hs
    split at hs
    · obtain rfl := Option.some.inj hs
      left
      unfold dropGuard at ho
      split at ho
      all_goals exact ho
    · simp at hs
  | tick | mint | use | rehash =>
    simp only [step] at hs
    split at hs
    all_goals first
    | (obtain rfl := Option.some.inj hs; exact .inl ho)
    | simp at hs

end Threads

/-- The operation read the clock when it was called, and found the session it is about to enter
unexpired by that time, under the lock. -/
structure Judged (tr : List (Taken Threads Threads.Event)) (i : OpId) (op : Op) : Prop where
  called : ∀ now, op.stage.now = some now → ∃ x ∈ tr, x.label = .advance i ∧
    x.source.ops i = some ⟨op.call, .called⟩ ∧ x.source.clock = now
  unexpired : ∀ now id s, op.stage = .unexpired now id s → ∃ x ∈ tr, x.label = .advance i ∧
    x.source.lock = some i ∧ x.source.sessions.lookup id = some s ∧
    x.source.cells.isExpired s x.source.ttl now = false

private theorem Judged.later {tr : List (Taken Threads Threads.Event)} {i : OpId} {op : Op}
    (h : Judged tr i op) (x : Taken Threads Threads.Event) : Judged (tr ++ [x]) i op where
  called now hn := by
    obtain ⟨y, hy, hrest⟩ := h.called now hn
    exact ⟨y, List.mem_append_left _ hy, hrest⟩
  unexpired now id s hs := by
    obtain ⟨y, hy, hrest⟩ := h.unexpired now id s hs
    exact ⟨y, List.mem_append_left _ hy, hrest⟩

namespace Threads

variable {w₀ w w' : Threads} {tr : List (Taken Threads Event)} {e : Event} {s : Session}

theorem run_judged (hi : threads.init w₀) (hr : threads.Run w₀ tr w) {i : OpId} {op : Op}
    (ho : w.ops i = some op) : Judged tr i op := by
  induction hr generalizing i op with
  | start =>
    obtain ⟨_, _, _, hops, _⟩ := hi
    rw [hops] at ho
    simp at ho
  | @next v w' tr e hr hs ih =>
    have hsound := reachable_sound ⟨_, _, hi, hr⟩
    obtain hold | hcalled | ⟨rfl, before, hb, hcall, hf⟩ := step_ops hs ho
    · exact (ih hold).later _
    · refine ⟨fun now hn => ?_, fun now id s hu => ?_⟩
      · rw [hcalled] at hn
        simp [Stage.now] at hn
      · rw [hcalled] at hu
        simp at hu
    · have hj := (ih hb).later ⟨v, .advance i, w'⟩
      refine ⟨fun now hn => ?_, fun now id s hu => ?_⟩
      · obtain hnone | hsame | ⟨hstart, hclock⟩ := hf.now
        · rw [hnone] at hn
          simp at hn
        · rw [hcall]
          exact hj.called now (hsame.symm.trans hn)
        · rw [hclock] at hn
          refine ⟨⟨v, .advance i, w'⟩, by simp, rfl, ?_, Option.some.inj hn⟩
          rw [hcall, ← hstart]
          exact hb
      · obtain ⟨hfrom, hx⟩ := hf.judged now id s hu
        have hsuits := hsound.served.suits i before hb
        have hfits := hsuits.fits
        have hlocks := hsuits.locks
        refine ⟨⟨v, .advance i, w'⟩, by simp, rfl, ?_, ?_, hx⟩
        · rcases hfrom with hfrom | hfrom
          · exact hlocks.mp (by rw [hfrom]; rfl)
          · exact hlocks.mp (by rw [hfrom]; rfl)
        · rcases hfrom with hfrom | hfrom
          · rw [hfrom] at hfits
            exact hfits.2
          · rw [hfrom] at hfits
            exact hfits.2.1

/-- A session that was ended was removed by `end`, and its token fires there. -/
theorem run_ended (hi : threads.init w₀) (hr : threads.Run w₀ tr w) (hs : s ∈ w.ended) :
    (∃ x ∈ tr, Removes x s ∧ ByEnd x s) ∧
    (w.cells.cancelled s = true → ∃ x ∈ tr, Fires x s ∧ ByEnd x s) := by
  induction hr with
  | start =>
    obtain ⟨_, _, _, _, _, _, _, _, hended⟩ := hi
    rw [hended] at hs
    simp at hs
  | @next v w' tr e hr hstep ih =>
    have hsound := reachable_sound ⟨_, _, hi, hr⟩
    have last : ⟨v, e, w'⟩ ∈ tr ++ [⟨v, e, w'⟩] := by simp
    have early {P : Taken Threads Event → Prop} (h : ∃ x ∈ tr, P x) :
        ∃ x ∈ tr ++ [⟨v, e, w'⟩], P x := by
      obtain ⟨x, hx, hp⟩ := h
      exact ⟨x, List.mem_append_left _ hx, hp⟩
    by_cases hold : s ∈ v.ended
    · obtain ⟨hremoved, hfired⟩ := ih hold
      refine ⟨early hremoved, fun hc => ?_⟩
      cases hc₀ : v.cells.cancelled s with
      | true => exact early (hfired hc₀)
      | false =>
        obtain ⟨_, hnot⟩ | hby := fires_byEnd hsound hstep ⟨hc₀, hc⟩
        · exact absurd hold hnot
        · exact ⟨_, last, ⟨hc₀, hc⟩, hby⟩
    · obtain hold' | ⟨hr, hby, hc⟩ := ended_cases hsound hstep hs
      · exact absurd hold' hold
      · refine ⟨⟨_, last, hr, hby⟩, fun hc' => ?_⟩
        rw [hc] at hc'
        simp at hc'

end Threads

/-- Whatever the interleaving, a session is counted busy once for each of its guards; one that
`enter` handed a guard on leaves the store, and its token fires, only through `end`; and `enter`
hands a guard out only to the session's own caller, on a session that is live and unexpired. -/
theorem busy_session_kept {w₀ w : Threads} {tr : List (Taken Threads Threads.Event)}
    (hi : threads.init w₀) (hr : threads.Run w₀ tr w) :
    (∀ s, w.cells.active s = (w.guards.countP fun guard => guard.session = s : Nat)) ∧
    (∀ guard ∈ w.guards, guard.viaStore = true →
      (w.Live guard.session ∧ w.cells.cancelled guard.session = false ∨
        ∃ x ∈ tr, Removes x guard.session ∧ ByEnd x guard.session) ∧
      (w.cells.cancelled guard.session = true →
        ∃ x ∈ tr, Fires x guard.session ∧ ByEnd x guard.session)) ∧
    ∀ e w', w.step e = some w' →
      (∀ guard ∈ w.guards, guard.viaStore = true →
        Removes ⟨w, e, w'⟩ guard.session ∨ Fires ⟨w, e, w'⟩ guard.session →
          ByEnd ⟨w, e, w'⟩ guard.session) ∧
      ∀ s, w.handed s < w'.handed s → ∃ i op id ctx, e = .advance i ∧ w.ops i = some op ∧
        op.call = .enter id ctx ∧ s.isOwnedBy ctx = true ∧
        w.sessions.lookup id = some s ∧ w.cells.cancelled s = false ∧
        ∃ now, (∃ x ∈ tr, x.label = .advance i ∧ x.source.ops i = some ⟨op.call, .called⟩ ∧
            x.source.clock = now) ∧
          ∃ x ∈ tr, x.label = .advance i ∧ x.source.lock = some i ∧
            x.source.sessions.lookup id = some s ∧
            x.source.cells.isExpired s x.source.ttl now = false := by
  have hsound := Threads.reachable_sound ⟨_, _, hi, hr⟩
  refine ⟨hsound.stored.counted, fun guard hg hv => ?_, fun e w' hs => ⟨fun guard hg hv he => ?_,
    fun s hlt => ?_⟩⟩
  · rcases hsound.stored.guarded guard hg hv with hlive | hended
    · have hc := (hsound.stored.unfired _ hlive).2.1
      refine ⟨.inl ⟨hlive, hc⟩, fun hf => ?_⟩
      rw [hc] at hf
      simp at hf
    · obtain ⟨hremoved, hfired⟩ := Threads.run_ended hi hr hended
      exact ⟨.inr hremoved, hfired⟩
  · have busy : ¬ w.Free guard.session := by
      intro hfree
      rw [hfree guard hg rfl] at hv
      simp at hv
    rcases he with he | he
    · exact (Threads.removes_byEnd hsound hs he).resolve_left busy
    · exact (Threads.fires_byEnd hsound hs he).resolve_left fun h => busy h.1
  · obtain ⟨i, id, ctx, now, rfl, ho, hown, hk⟩ := Threads.handed_cases hsound hs hlt
    have hj := Threads.run_judged hi hr ho
    exact ⟨i, _, id, ctx, rfl, ho, rfl, hown, hk, (hsound.stored.unfired s ⟨id, hk⟩).2.1, now,
      hj.called now rfl, hj.unexpired now id s rfl⟩

/-- A store of nothing. -/
def Threads.empty (ttl : Nat) (limits : SessionLimits) : Threads where
  ttl := ttl
  limits := limits
  sessions := ∅
  lock := none
  lastSweep := 0
  cells := ⟨fun _ => 0, fun _ => 0, fun _ => false⟩
  guards := []
  ops _ := none
  clock := 0
  minted := []
  inserted := []
  ended := []

/-- A session is inserted and entered; long after its time-to-live a sweep passes it by, and `end`
ends it under its request. -/
def busyRun : List Threads.Event :=
  [.mint "a" ⟨some "grace", none⟩, .call 0 (.insert ⟨0, some "a", some "grace", none⟩)] ++
  List.replicate 5 (.advance 0) ++ [.call 1 (.enter "a" ⟨some "grace", none⟩)] ++
  List.replicate 6 (.advance 1) ++ [.tick 100, .call 2 .sweep] ++ List.replicate 6 (.advance 2) ++
  [.call 3 (.endSession "a"), .advance 3, .advance 3]

theorem busy_session_kept_ended : ∃ (w : Threads) (tr : List (Taken Threads Threads.Event))
    (guard : Guard), threads.Run (.empty 10 ⟨2, 1, by decide, by decide⟩) tr w ∧
    guard ∈ w.guards ∧ guard.viaStore = true ∧ w.cells.active guard.session = 1 ∧
    ∃ x ∈ tr, Fires x guard.session ∧ ByEnd x guard.session := by
  have hrun : (exec Threads.step (.empty 10 ⟨2, 1, by decide, by decide⟩) busyRun).map (fun w =>
      (w.guards, w.cells.active ⟨0, some "a", some "grace", none⟩,
        w.cells.cancelled ⟨0, some "a", some "grace", none⟩)) =
      some ([⟨⟨0, some "a", some "grace", none⟩, true, .held⟩], 1, true) := by decide
  obtain ⟨w, hw, hend⟩ := Option.map_eq_some_iff.mp hrun
  obtain ⟨hguards, hrest⟩ := Prod.mk.inj hend
  obtain ⟨hactive, hfired⟩ := Prod.mk.inj hrest
  obtain ⟨tr, hr⟩ := Lts.Run.exec (M := threads) (I := fun _ => True) (fun _ _ _ _ hs => ⟨hs, trivial⟩)
    busyRun trivial hw (.start _)
  have hmem : (⟨⟨0, some "a", some "grace", none⟩, true, .held⟩ : Guard) ∈ w.guards := by
    rw [hguards]
    exact List.mem_cons_self
  have hkept := busy_session_kept ⟨rfl, rfl, rfl, rfl, rfl, rfl, rfl, rfl, rfl⟩ hr
  exact ⟨w, _, _, hr, hmem, rfl, hactive, (hkept.2.1 _ hmem rfl).2 hfired⟩

end Tronc.Sessions
