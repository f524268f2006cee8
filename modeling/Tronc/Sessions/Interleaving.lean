import Tronc.Sessions.Advance

namespace Tronc.Sessions

namespace Threads

variable {w w' : Threads} {i j : OpId} {op op' : Op}

theorem advance_isOver (ha : w.advance i op = some w') : op.stage.isOver = false := by
  cases hs : op.stage with
  | returned answer =>
    simp only [advance, hs] at ha
    simp at ha
  | _ => rfl

private theorem Fits.keep {call : Call} {stage : Stage} (h : w.Fits call stage)
    (hs : stage.locks = true → (∀ key, w'.sessions.lookup key = w.sessions.lookup key) ∧
      ∀ s, w.Free s → w'.Free s)
    (he : ∀ s ∈ w.ended, s ∈ w'.ended) : w'.Fits call stage := by
  cases stage with
  | called | timed | due | ready | visit | checkTotal | recheckTotal | returned => trivial
  | removed session => exact ⟨he session h.1, h.2⟩
  | visitIdle now key session todo full =>
    obtain ⟨hl, hf⟩ := hs rfl
    exact ⟨(hl key).trans h.1, hf _ h.2⟩
  | visitExpired now key session todo full =>
    obtain ⟨hl, hf⟩ := hs rfl
    exact ⟨(hl key).trans h.1, hf _ h.2⟩
  | found now id session =>
    obtain ⟨hl, hf⟩ := hs rfl
    exact ⟨h.1, (hl id).trans h.2⟩
  | unexpired now id session =>
    obtain ⟨hl, hf⟩ := hs rfl
    exact ⟨h.1, (hl id).trans h.2⟩
  | foundIdle now id session =>
    obtain ⟨hl, hf⟩ := hs rfl
    exact ⟨h.1, (hl id).trans h.2.1, hf _ h.2.2⟩
  | foundExpired now id session =>
    obtain ⟨hl, hf⟩ := hs rfl
    exact ⟨h.1, (hl id).trans h.2.1, hf _ h.2.2⟩
  | scan now todo theirs leastRecent =>
    obtain ⟨hl, hf⟩ := hs rfl
    exact fun seen key session hr hk => hf _ (h seen key session hr ((hl key).symm.trans hk))
  | scanIdle now key live todo theirs leastRecent =>
    obtain ⟨hl, hf⟩ := hs rfl
    exact ⟨(hl key).trans h.1, hf _ h.2.1,
      fun seen key session hr hk => hf _ (h.2.2 seen key session hr ((hl key).symm.trans hk))⟩
  | evicting now key =>
    obtain ⟨hl, hf⟩ := hs rfl
    exact fun session hk => hf _ (h session ((hl key).symm.trans hk))

/-- What others do leaves an operation as it is. -/
private theorem Suits.keep (h : w.Suits j op) (hl : w'.lock = some j ↔ w.lock = some j)
    (hi : ∀ s ∈ w.inserted, s ∈ w'.inserted)
    (ho : ∀ s, op.call = .insert s → w.Out s → w'.Out s)
    (hs : w.lock = some j → (∀ key, w'.sessions.lookup key = w.sessions.lookup key) ∧
      ∀ s, w.Free s → w'.Free s)
    (he : ∀ s ∈ w.ended, s ∈ w'.ended) : w'.Suits j op where
  locks := h.locks.trans hl.symm
  given s hc := hi s (h.given s hc)
  waits s hc hover := ho s hc (h.waits s hc hover)
  fits := h.fits.keep (fun hlock => hs (h.locks.mp hlock)) he

/-- After a step of one operation the operations are still in order. -/
private theorem Served.advance (h : w.Served) (ho : w.ops i = some op)
    (hover : op.stage.isOver = false) (stage : Stage)
    (hops : w'.ops = Function.update w.ops i (some { op with stage := stage }))
    (hl : w.LockMoves i stage w'.lock) (hi : w'.inserted = w.inserted)
    (hout : ∀ s, w.Out s → op.call ≠ .insert s ∨ stage.isOver = false → w'.Out s)
    (hs : ∀ j, j ≠ i → w.lock = some j → (∀ key, w'.sessions.lookup key = w.sessions.lookup key) ∧
      ∀ s, w.Free s → w'.Free s)
    (he : ∀ s ∈ w.ended, s ∈ w'.ended) (hf : w'.Fits op.call stage) : w'.Served := by
  have old (j : OpId) (op' : Op) (hj : w'.ops j = some op') :
      ∃ op₀, w.ops j = some op₀ ∧ op₀.call = op'.call := by
    rw [hops] at hj
    by_cases hji : j = i
    · subst hji
      rw [Function.update_self] at hj
      exact ⟨op, ho, by rw [← Option.some.inj hj]⟩
    · rw [Function.update_of_ne hji] at hj
      exact ⟨op', hj, rfl⟩
  refine ⟨fun j hj => ?_, fun j k opj opk s hj hk hcj hck => ?_, fun j op' hj => ?_⟩
  · rw [hops]
    by_cases hji : j = i
    · subst hji
      rw [Function.update_self]
      simp
    · rw [Function.update_of_ne hji]
      exact h.held j ((hl.2 j hji).mp hj)
  · obtain ⟨oldj, hoj, hcj'⟩ := old j opj hj
    obtain ⟨oldk, hok, hck'⟩ := old k opk hk
    exact h.once j k oldj oldk s hoj hok (hcj'.trans hcj) (hck'.trans hck)
  · rw [hops] at hj
    by_cases hji : j = i
    · subst hji
      rw [Function.update_self] at hj
      obtain rfl := Option.some.inj hj
      have own := h.suits j op ho
      refine ⟨hl.1, fun s hc => ?_, fun s hc hnot => ?_, hf⟩
      · rw [hi]
        exact own.given s hc
      · exact hout s (own.waits s hc hover) (.inr hnot)
    · rw [Function.update_of_ne hji] at hj
      refine (h.suits j op' hj).keep (hl.2 j hji) (by rw [hi]; exact fun s hs => hs)
        (fun s hc hs => hout s hs (.inl fun hc' => ?_)) (hs j hji) he
      exact hji (h.once j i op' op s hj ho hc hc')

/-- Every other session stays when `key` is erased. -/
theorem Stored.live_erase (h : w.Stored) {key : String} {session : Session}
    (hk : w.sessions.lookup key = some session) (s : Session) :
    (∃ key', (w.sessions.erase key).lookup key' = some s) ↔ w.Live s ∧ s ≠ session := by
  constructor
  · rintro ⟨key', hl⟩
    obtain ⟨hne, hl⟩ := AList.lookup_erase_eq_some.mp hl
    refine ⟨⟨key', hl⟩, ?_⟩
    rintro rfl
    have same := (h.keyed key' s hl).symm.trans (h.keyed key s hk)
    exact hne (Option.some.inj same)
  · rintro ⟨⟨key', hl⟩, hne⟩
    refine ⟨key', AList.lookup_erase_eq_some.mpr ⟨?_, hl⟩⟩
    rintro rfl
    rw [hk] at hl
    exact hne (Option.some.inj hl).symm

private theorem Stored.keyed_erase (h : w.Stored) (key : String) (key' : String) (s : Session)
    (hl : (w.sessions.erase key).lookup key' = some s) : s.id = some key' :=
  h.keyed key' s (AList.lookup_erase_eq_some.mp hl).2

/-- One more guard, counted. -/
private theorem counted_enter
    (h : ∀ s, w.cells.active s = (w.guards.countP fun guard => guard.session = s : Nat))
    (session : Session) {viaStore : Bool} (s : Session) :
    (w.cells.enter session).active s = (((⟨session, viaStore, .held⟩ : Guard) :: w.guards).countP
      fun guard => guard.session = s : Nat) := by
  change Function.update w.cells.active session (w.cells.active session + 1) s = _
  rw [List.countP_cons]
  by_cases he : s = session
  · subst he
    rw [Function.update_self, h]
    simp
  · have hne : session ≠ s := fun h => he h.symm
    rw [Function.update_of_ne he, h]
    simp [hne]

private theorem Effect.stored (h : w.Sound) (ho : w.ops i = some op) (he : Effect w i op w') :
    w'.Stored := by
  have hs := h.stored
  cases he with
  | moves stage lock lastSweep _ _ =>
    exact ⟨hs.counted, hs.keyed, hs.unfired, hs.guarded, hs.fired, hs.ended, hs.minted, hs.single⟩
  | expels key session stage lock hlock hk hfree _ _ =>
    refine ⟨hs.counted, hs.keyed_erase key, fun s hl => ?_, fun guard hg hv => ?_, fun s hc => ?_,
      hs.ended, hs.minted, hs.single⟩
    · obtain ⟨hl, hne⟩ := (hs.live_erase hk s).mp hl
      obtain ⟨hin, hc, hend⟩ := hs.unfired s hl
      exact ⟨hin, (Function.update_of_ne hne _ _).trans hc, hend⟩
    · refine (hs.guarded guard hg hv).imp (fun hl => (hs.live_erase hk _).mpr ⟨hl, ?_⟩)
        fun hm => hm
      rintro rfl
      rw [hfree guard hg rfl] at hv
      simp at hv
    · by_cases hne : s = session
      · exact hne ▸ (hs.unfired session ⟨key, hk⟩).1
      · exact hs.fired s ((Function.update_of_ne hne _ _).symm.trans hc)
  | inserts session id hlock hcall hover hid =>
    have hsuits := h.served.suits i op ho
    have hin := hsuits.given session hcall
    obtain ⟨habsent, hc, hend⟩ := hsuits.waits session hcall hover
    have hfresh : w.sessions.lookup id = none := by
      cases hl : w.sessions.lookup id with
      | none => rfl
      | some s =>
        have same := hs.single s (hs.minted s (hs.unfired s ⟨id, hl⟩).1) session
          (hs.minted session hin) ((hs.keyed id s hl).trans hid.symm)
        exact absurd ⟨id, same ▸ hl⟩ habsent
    have cases (key : String) (s : Session)
        (hl : (w.sessions.insert id session).lookup key = some s) :
        key = id ∧ s = session ∨ w.sessions.lookup key = some s := by
      by_cases hk : key = id
      · subst hk
        rw [AList.lookup_insert] at hl
        exact .inl ⟨rfl, (Option.some.inj hl).symm⟩
      · rw [AList.lookup_insert_ne hk] at hl
        exact .inr hl
    refine ⟨hs.counted, fun key s hl => ?_, fun s hl => ?_, fun guard hg hv => ?_, hs.fired,
      hs.ended, hs.minted, hs.single⟩
    · obtain ⟨rfl, rfl⟩ | hl := cases key s hl
      · exact hid
      · exact hs.keyed key s hl
    · obtain ⟨key, hl⟩ := hl
      obtain ⟨rfl, rfl⟩ | hl := cases key s hl
      · exact ⟨hin, hc, hend⟩
      · exact hs.unfired s ⟨key, hl⟩
    · refine (hs.guarded guard hg hv).imp (fun ⟨key, hl⟩ => ⟨key, ?_⟩) fun hm => hm
      refine (AList.lookup_insert_ne ?_).trans hl
      rintro rfl
      rw [hfresh] at hl
      simp at hl
  | enters id ctx now session hlock hop hk hown =>
    refine ⟨fun s => ?_, hs.keyed, hs.unfired, fun guard hg hv => ?_, hs.fired, hs.ended,
      hs.minted, hs.single⟩
    · exact counted_enter hs.counted session s
    · rcases List.mem_cons.mp hg with rfl | hg
      · exact .inl ⟨id, hk⟩
      · exact hs.guarded guard hg hv
  | removes id session hlock hop hk =>
    refine ⟨hs.counted, hs.keyed_erase id, fun s hl => ?_, fun guard hg hv => ?_, hs.fired,
      fun s hm => ?_, hs.minted, hs.single⟩
    · obtain ⟨hl, hne⟩ := (hs.live_erase hk s).mp hl
      obtain ⟨hin, hc, hend⟩ := hs.unfired s hl
      exact ⟨hin, hc, fun hm => (List.mem_cons.mp hm).elim hne hend⟩
    · by_cases heq : guard.session = session
      · exact .inr (heq ▸ List.mem_cons_self)
      · exact (hs.guarded guard hg hv).imp (fun hl => (hs.live_erase hk _).mpr ⟨hl, heq⟩)
          (List.mem_cons_of_mem _)
    · rcases List.mem_cons.mp hm with rfl | hm
      · exact (hs.unfired s ⟨id, hk⟩).1
      · exact hs.ended s hm
  | fires id session hop hended hid =>
    refine ⟨hs.counted, hs.keyed, fun s hl => ?_, hs.guarded, fun s hc => ?_, hs.ended, hs.minted,
      hs.single⟩
    · obtain ⟨hin, hc, hend⟩ := hs.unfired s hl
      refine ⟨hin, (Function.update_of_ne ?_ _ _).trans hc, hend⟩
      rintro rfl
      exact hend hended
    · by_cases hne : s = session
      · exact hne ▸ hs.ended session hended
      · exact hs.fired s ((Function.update_of_ne hne _ _).symm.trans hc)

private theorem Effect.served (h : w.Sound) (ho : w.ops i = some op)
    (hover : op.stage.isOver = false) (he : Effect w i op w') : w'.Served := by
  have hs := h.stored
  have alone {j : OpId} (hlock : w.lock = some i) (hj : j ≠ i) (hlj : w.lock = some j) : False := by
    rw [hlock] at hlj
    exact hj (Option.some.inj hlj).symm
  cases he with
  | moves stage lock lastSweep hl hf =>
    refine h.served.advance ho hover stage rfl hl rfl
      (fun s hout _ => ⟨hout.absent, hout.unfired, hout.unended⟩)
      (fun _ _ _ => ⟨fun _ => rfl, fun _ hfree => hfree⟩) (fun _ hm => hm) ?_
    exact hf.keep (fun _ => ⟨fun _ => rfl, fun _ hfree => hfree⟩) fun _ hm => hm
  | expels key session stage lock hlock hk hfree hl hf =>
    refine h.served.advance ho hover stage rfl hl rfl (fun s hout _ => ?_)
      (fun j hj hlj => (alone hlock hj hlj).elim) (fun _ hm => hm) (hf _)
    refine ⟨fun hl => hout.absent ((hs.live_erase hk s).mp hl).1, ?_, hout.unended⟩
    refine (Function.update_of_ne ?_ _ _).trans hout.unfired
    rintro rfl
    exact hout.absent ⟨key, hk⟩
  | inserts session id hlock hcall _ hid =>
    refine h.served.advance ho hover (.returned .inserted) rfl (.frees hlock rfl) rfl
      (fun s hout hne => ?_) (fun j hj hlj => (alone hlock hj hlj).elim) (fun _ hm => hm) trivial
    have hne : s ≠ session := by
      rintro rfl
      exact hne.elim (fun hc => hc hcall) (by simp [Stage.isOver])
    refine ⟨fun ⟨key, hl⟩ => ?_, hout.unfired, hout.unended⟩
    by_cases hk : key = id
    · subst hk
      have same : (w.sessions.insert key session).lookup key = some s := hl
      rw [AList.lookup_insert] at same
      exact hne (Option.some.inj same).symm
    · exact hout.absent ⟨key, (AList.lookup_insert_ne hk).symm.trans hl⟩
  | enters id ctx now session hlock hop hk hown =>
    exact h.served.advance ho hover (.returned (.session (some session))) rfl
      (.frees hlock rfl) rfl (fun s hout _ => ⟨hout.absent, hout.unfired, hout.unended⟩)
      (fun j hj hlj => (alone hlock hj hlj).elim) (fun _ hm => hm) trivial
  | removes id session hlock hop hk =>
    subst hop
    refine h.served.advance ho hover (.removed session) rfl
      (.stays (h.served.suits i _ ho) rfl) rfl
      (fun s hout _ => ⟨fun hl => hout.absent ((hs.live_erase hk s).mp hl).1, hout.unfired,
        fun hm => ?_⟩)
      (fun j _ hlj => ?_) (fun _ hm => List.mem_cons_of_mem _ hm)
      ⟨List.mem_cons_self, id, rfl, hs.keyed id session hk⟩
    · rcases List.mem_cons.mp hm with rfl | hm
      · exact hout.absent ⟨id, hk⟩
      · exact hout.unended hm
    · rw [hlock] at hlj
      simp at hlj
  | fires id session hop hended hid =>
    subst hop
    refine h.served.advance ho hover (.returned (.ended true)) rfl
      (.stays (h.served.suits i _ ho) rfl) rfl (fun s hout _ => ⟨hout.absent, ?_, hout.unended⟩)
      (fun _ _ _ => ⟨fun _ => rfl, fun _ hfree => hfree⟩) (fun _ hm => hm) trivial
    refine (Function.update_of_ne ?_ _ _).trans hout.unfired
    rintro rfl
    exact hout.unended hended

/-- What leaves the operations alone leaves them in order. -/
private theorem Served.keep (h : w.Served) (hops : w'.ops = w.ops) (hl : w'.lock = w.lock)
    (hi : w'.inserted = w.inserted) (he : w'.ended = w.ended)
    (hs : ∀ key, w'.sessions.lookup key = w.sessions.lookup key)
    (hc : w'.cells.cancelled = w.cells.cancelled) (hf : ∀ s, w.Free s → w'.Free s) :
    w'.Served where
  held j hj := by
    rw [hops]
    exact h.held j (hl.symm.trans hj)
  once := by
    rw [hops]
    exact h.once
  suits j op hj := by
    rw [hops] at hj
    refine (h.suits j op hj).keep (by rw [hl]) (by rw [hi]; exact fun s hm => hm)
      (fun s _ hout => ⟨fun ⟨key, hk⟩ => hout.absent ⟨key, (hs key).symm.trans hk⟩, ?_, ?_⟩)
      (fun _ => ⟨hs, hf⟩) (by rw [he]; exact fun s hm => hm)
    · rw [hc]
      exact hout.unfired
    · rw [he]
      exact hout.unended

private theorem Sound.mint (h : w.Sound) {id : String} {ctx : ToolContext}
    (hs : w.step (.mint id ctx) = some w') : w'.Sound := by
  simp only [step] at hs
  split at hs
  · simp at hs
  · rename_i hfresh
    obtain rfl := Option.some.inj hs
    have st := h.stored
    have unused : ∀ s ∈ w.minted, s.id ≠ some id := by
      intro s hm hid
      exact hfresh (List.any_eq_true.mpr ⟨s, hm, by rw [hid]; exact beq_self_eq_true _⟩)
    refine ⟨⟨st.counted, st.keyed, st.unfired, st.guarded, st.fired, st.ended,
      fun s hm => List.mem_cons_of_mem _ (st.minted s hm), fun s hm s' hm' hid => ?_⟩,
      h.served.keep rfl rfl rfl rfl (fun _ => rfl) rfl fun _ hf => hf⟩
    rcases List.mem_cons.mp hm with rfl | hm <;> rcases List.mem_cons.mp hm' with rfl | hm'
    · rfl
    · exact absurd hid.symm (unused s' hm')
    · exact absurd hid (unused s hm)
    · exact st.single s hm s' hm' hid

private theorem Sound.use (h : w.Sound) {session : Session}
    (hs : w.step (.use session) = some w') : w'.Sound := by
  simp only [step] at hs
  split at hs
  · obtain rfl := Option.some.inj hs
    have st := h.stored
    refine ⟨⟨fun s => ?_, st.keyed, st.unfired, fun guard hg hv => ?_, st.fired, st.ended,
      st.minted, st.single⟩, h.served.keep rfl rfl rfl rfl (fun _ => rfl) rfl
      fun s hf guard hg he => ?_⟩
    · exact counted_enter st.counted session s
    · rcases List.mem_cons.mp hg with rfl | hg
      · simp at hv
      · exact st.guarded guard hg hv
    · rcases List.mem_cons.mp hg with rfl | hg
      · rfl
      · exact hf guard hg he
  · simp at hs

private theorem Sound.call (h : w.Sound) {call : Call}
    (hs : w.step (.call i call) = some w') : w'.Sound := by
  simp only [step] at hs
  split at hs
  · rename_i hmay
    obtain ⟨hnone, hmay⟩ := hmay
    obtain rfl := Option.some.inj hs
    have st := h.stored
    have hnone : w.ops i = none := Option.isNone_iff_eq_none.mp hnone
    have fresh (s : Session) (hc : call = .insert s) : s ∉ w.inserted ∧ s ∈ w.minted := by
      subst hc
      simp only [mayCall, decide_eq_true_eq] at hmay
      exact ⟨hmay.2, hmay.1⟩
    have grows : ∀ s ∈ w.inserted, s ∈ w.insertedBy call := by
      intro s hm
      cases call with
      | insert session => exact List.mem_cons_of_mem _ hm
      | _ => exact hm
    have given (j : OpId) (op : Op) (s : Session) (hj : w.ops j = some op)
        (hc : op.call = .insert s) (hc' : call = .insert s) : False :=
      (fresh s hc').1 ((h.served.suits j op hj).given s hc)
    refine ⟨⟨st.counted, st.keyed, fun s hl => ⟨grows s (st.unfired s hl).1, (st.unfired s hl).2⟩,
      st.guarded, fun s hc => grows s (st.fired s hc), fun s hm => grows s (st.ended s hm),
      fun s hm => ?_, st.single⟩, fun j hj => ?_, fun j k opj opk s hj hk hcj hck => ?_,
      fun j op hj => ?_⟩
    · cases call with
      | insert session =>
        rcases List.mem_cons.mp hm with rfl | hm
        · exact (fresh s rfl).2
        · exact st.minted s hm
      | _ => exact st.minted s hm
    · change Function.update w.ops i _ j ≠ none
      by_cases hji : j = i
      · subst hji
        rw [Function.update_self]
        simp
      · rw [Function.update_of_ne hji]
        exact h.served.held j hj
    · replace hj : Function.update w.ops i (some ⟨call, .called⟩) j = some opj := hj
      replace hk : Function.update w.ops i (some ⟨call, .called⟩) k = some opk := hk
      by_cases hji : j = i <;> by_cases hki : k = i
      · exact hji.trans hki.symm
      · subst hji
        rw [Function.update_self] at hj
        rw [Function.update_of_ne hki] at hk
        obtain rfl := Option.some.inj hj
        exact (given k opk s hk hck hcj).elim
      · subst hki
        rw [Function.update_self] at hk
        rw [Function.update_of_ne hji] at hj
        obtain rfl := Option.some.inj hk
        exact (given j opj s hj hcj hck).elim
      · rw [Function.update_of_ne hji] at hj
        rw [Function.update_of_ne hki] at hk
        exact h.served.once j k opj opk s hj hk hcj hck
    · replace hj : Function.update w.ops i (some ⟨call, .called⟩) j = some op := hj
      by_cases hji : j = i
      · subst hji
        rw [Function.update_self] at hj
        obtain rfl := Option.some.inj hj
        refine ⟨iff_of_false (by simp [Stage.locks]) fun hl => h.served.held j hl hnone,
          fun s hc => ?_, fun s hc _ => ⟨fun hl => ?_, ?_, fun hm => ?_⟩, trivial⟩
        · obtain rfl : call = .insert s := hc
          exact List.mem_cons_self
        · exact (fresh s hc).1 (st.unfired s hl).1
        · cases hfired : w.cells.cancelled s with
          | false => rfl
          | true => exact absurd (st.fired s hfired) (fresh s hc).1
        · exact (fresh s hc).1 (st.ended s hm)
      · rw [Function.update_of_ne hji] at hj
        exact (h.served.suits j op hj).keep .rfl grows
          (fun s _ hout => ⟨hout.absent, hout.unfired, hout.unended⟩)
          (fun _ => ⟨fun _ => rfl, fun _ hf => hf⟩) fun _ hm => hm
  · simp at hs

private theorem Sound.drop (h : w.Sound) {guard : Guard}
    (hs : w.step (.drop guard) = some w') : w'.Sound := by
  simp only [step] at hs
  split at hs
  · rename_i hmem
    obtain rfl := Option.some.inj hs
    have st := h.stored
    have perm := List.perm_cons_erase hmem
    -- the guard goes on, or leaves
    have goes (stage : GuardStage) (cells : Cells) (ha : cells.active = w.cells.active)
        (hc : cells.cancelled = w.cells.cancelled) : Sound { w with
          guards := { guard with stage := stage } :: w.guards.erase guard
          cells := cells } := by
      have old {g : Guard} (hg : g ∈ { guard with stage := stage } :: w.guards.erase guard) :
          ∃ g₀ ∈ w.guards, g₀.session = g.session ∧ g₀.viaStore = g.viaStore := by
        rcases List.mem_cons.mp hg with rfl | hg
        · exact ⟨guard, hmem, rfl, rfl⟩
        · exact ⟨g, List.mem_of_mem_erase hg, rfl, rfl⟩
      refine ⟨⟨fun s => ?_, st.keyed, fun s hl => ?_, fun g hg hv => ?_, fun s hf => ?_, st.ended,
        st.minted, st.single⟩, h.served.keep rfl rfl rfl rfl (fun _ => rfl) hc
        fun s hf g hg he => ?_⟩
      · change cells.active s = _
        rw [ha, st.counted, perm.countP_eq, List.countP_cons, List.countP_cons]
      · obtain ⟨hin, hfired, hend⟩ := st.unfired s hl
        exact ⟨hin, (congrFun hc s).trans hfired, hend⟩
      · obtain ⟨g₀, hg₀, hsession, hvia⟩ := old hg
        have hlive := st.guarded g₀ hg₀ (hvia.trans hv)
        rw [hsession] at hlive
        exact hlive
      · exact st.fired s ((congrFun hc s).symm.trans hf)
      · obtain ⟨g₀, hg₀, hsession, hvia⟩ := old hg
        exact hvia.symm.trans (hf g₀ hg₀ (hsession.trans he))
    unfold dropGuard
    split
    · exact goes _ w.cells rfl rfl
    · exact goes _ _ rfl rfl
    · have old {g : Guard} (hg : g ∈ w.guards.erase guard) : g ∈ w.guards := List.mem_of_mem_erase hg
      refine ⟨⟨fun s => ?_, st.keyed, st.unfired, fun g hg hv => st.guarded g (old hg) hv,
        st.fired, st.ended, st.minted, st.single⟩, h.served.keep rfl rfl rfl rfl (fun _ => rfl) rfl
        fun s hf g hg he => hf g (old hg) he⟩
      change Function.update w.cells.active guard.session
        (w.cells.active guard.session - 1) s = _
      have hcount := st.counted s
      rw [perm.countP_eq, List.countP_cons] at hcount
      by_cases he : s = guard.session
      · subst he
        rw [Function.update_self, hcount]
        simp
      · have hne : guard.session ≠ s := fun h => he h.symm
        rw [Function.update_of_ne he, hcount]
        simp [hne]
  · simp at hs

private theorem Sound.rehash (h : w.Sound) {sessions : AList fun _ : String => Session}
    (hs : w.step (.rehash sessions) = some w') : w'.Sound := by
  simp only [step] at hs
  split at hs
  · rename_i hmay
    obtain rfl := Option.some.inj hs
    have st := h.stored
    have same (key : String) : sessions.lookup key = w.sessions.lookup key :=
      AList.perm_lookup hmay.2
    have live (s : Session) : (∃ key, sessions.lookup key = some s) ↔ w.Live s := by
      simp only [same, Live]
    exact ⟨⟨st.counted, fun key s hl => st.keyed key s ((same key).symm.trans hl),
      fun s hl => st.unfired s ((live s).mp hl),
      fun g hg hv => (st.guarded g hg hv).imp (live _).mpr fun hm => hm, st.fired, st.ended,
      st.minted, st.single⟩, h.served.keep rfl rfl rfl rfl same rfl fun _ hf => hf⟩
  · simp at hs

theorem Sound.step {e : Event} (h : w.Sound) (hs : w.step e = some w') : w'.Sound := by
  cases e with
  | tick now =>
    simp only [Threads.step] at hs
    split at hs
    · obtain rfl := Option.some.inj hs
      have st := h.stored
      exact ⟨⟨st.counted, st.keyed, st.unfired, st.guarded, st.fired, st.ended, st.minted,
        st.single⟩, h.served.keep rfl rfl rfl rfl (fun _ => rfl) rfl fun _ hf => hf⟩
    · simp at hs
  | mint id ctx => exact h.mint hs
  | use session => exact h.use hs
  | call i call => exact h.call hs
  | advance i =>
    obtain ⟨op, ho, ha⟩ := Option.bind_eq_some_iff.mp hs
    have he := advance_effect h ho ha
    exact ⟨he.stored h ho, he.served h ho (advance_isOver ha)⟩
  | drop guard => exact h.drop hs
  | rehash sessions => exact h.rehash hs

theorem reachable_sound (h : threads.Reachable w) : w.Sound := by
  refine h.invariant (P := Sound) ?_ fun s a t _ hs step => hs.step step
  rintro w ⟨hs, hl, hg, ho, ha, hc, hm, hi, he⟩
  have empty (key : String) (s : Session) : w.sessions.lookup key ≠ some s := by
    rw [hs]
    simp
  refine ⟨⟨fun s => ?_, fun key s hk => absurd hk (empty key s), fun s ⟨key, hk⟩ =>
    absurd hk (empty key s), ?_, fun s hf => ?_, ?_, ?_, ?_⟩, ?_, ?_, ?_⟩
  · rw [ha, hg]
    rfl
  · simp [hg]
  · simp [hc] at hf
  · simp [he]
  · simp [hi]
  · simp [hm]
  · simp [hl]
  · simp [ho]
  · simp [ho]

end Threads

end Tronc.Sessions
