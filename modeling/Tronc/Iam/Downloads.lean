import Tronc.Iam.Turns

namespace Tronc.Iam

open Transition

namespace Callers

/-- The call has a download in flight. -/
def inFlight (w : Callers) (i : CallId) : Bool :=
  match w.calls i with
  | some ⟨_, .downloading⟩ => true
  | _ => false

/-- No future is dropped between the start of its download and the recording of the download's end,
unless no interval is asked for. -/
def Awaited (w : Callers) (e : Event) : Prop :=
  w.set.minRefetchInterval = 0 ∨
    ∀ i call, e = .drop i → w.calls i = some call → call.stage.unrecorded = false

/-- The end of the last download is recorded or about to be, and a fetch that is allowed comes long
enough after it. -/
structure Spaced (w : Callers) : Prop where
  recorded : ∀ e, w.ended = some e →
    (∃ i call, w.calls i = some call ∧ call.stage.unrecorded = true) ∨
      ∃ a, w.cache.lastAttempt = some a ∧ e.time ≤ a
  allowed : ∀ i call seen, w.calls i = some call → call.stage = .allowed seen →
    ∀ e, w.ended = some e → e.time + w.set.minRefetchInterval ≤ seen

variable {w w' : Callers} {e : Event} {i : CallId} {call : Call}

theorem inFlight_iff : w.inFlight i = true ↔
    ∃ call, w.calls i = some call ∧ call.stage = .downloading := by
  unfold inFlight
  constructor
  · intro h
    split at h
    · rename_i kid hc
      exact ⟨_, hc, rfl⟩
    · cases h
  · rintro ⟨⟨kid, stage⟩, hc, hs⟩
    have hstage : stage = .downloading := hs
    rw [hc, hstage]

theorem unrecorded_hasTurn {stage : Stage} (h : stage.unrecorded = true) :
    stage.hasTurn = true := by
  cases stage with
  | downloading | downloaded | finished => rfl
  | _ => cases h

/-- Nobody has a download behind it while another call has the turn. -/
theorem no_unrecorded (hw : w.Orderly) (hc : w.calls i = some call)
    (ht : call.stage.hasTurn = true) (hu : call.stage.unrecorded = false) :
    ¬ ∃ j c, w.calls j = some c ∧ c.stage.unrecorded = true := by
  rintro ⟨j, c, hj, hcu⟩
  have hi := (hw.turn i call hc).mp ht
  rw [(hw.turn j c hj).mp (unrecorded_hasTurn hcu)] at hi
  obtain rfl := Option.some.inj hi
  rw [hc] at hj
  obtain rfl := Option.some.inj hj
  rw [hu] at hcu
  cases hcu

theorem Spaced.step (h : w.Spaced) (hw : w.Orderly) (hs : w.step e = some w')
    (hkept : ∀ i call, e = .drop i → w.calls i = some call → call.stage.unrecorded = false) :
    w'.Spaced := by
  cases step_moves hs with
  | ticks now hle => exact ⟨h.recorded, h.allowed⟩
  | calls i kid hn =>
    have old {j : CallId} {c : Call}
        (hj : Function.update w.calls i (some ⟨kid, .called⟩) j = some c) :
        c.stage = .called ∨ w.calls j = some c := by
      by_cases hji : j = i
      · subst hji
        rw [Function.update_self] at hj
        exact .inl (by rw [← Option.some.inj hj])
      · rw [Function.update_of_ne hji] at hj
        exact .inr hj
    refine ⟨fun e he => ?_, fun j c seen hj hseen => ?_⟩
    · refine (h.recorded e he).imp_left fun ⟨j, c, hj, hu⟩ => ⟨j, c, ?_, hu⟩
      refine (Function.update_of_ne ?_ _ _).trans hj
      rintro rfl
      rw [hn] at hj
      cases hj
    · obtain hcalled | hj := old hj
      · rw [hcalled] at hseen
        cases hseen
      · exact h.allowed j c seen hj hseen
  | goes e i call stage lock he hc hturn hreach =>
    refine ⟨fun e' he' => ?_, fun j c seen hj hseen e' he' => ?_⟩
    · refine (h.recorded e' he').imp_left fun ⟨j, c, hj, hu⟩ => ?_
      by_cases hji : j = i
      · subst hji
        rw [hc] at hj
        obtain rfl := Option.some.inj hj
        refine ⟨j, { call with stage := stage }, Function.update_self _ _ _, ?_⟩
        have hstays : call.stage.unrecorded = stage.unrecorded := by
          cases stage with
          | called => exact hreach.elim
          | downloaded outcome => exact hreach.elim
          | waiting =>
            rw [hreach.1]
            rfl
          | holding =>
            have hst : call.stage = .waiting := hreach
            rw [hst]
            rfl
          | allowed seen =>
            rw [hreach.1]
            rfl
          | downloading =>
            obtain ⟨seen, hst⟩ := hreach
            rw [hst] at hu
            cases hu
          | finished outcome time =>
            rw [hreach.1]
            rfl
          | answered answer time =>
            rw [hreach.1]
            rfl
          | returned answer time =>
            obtain hst | ⟨hst, _⟩ := hreach
            · rw [hst]
              rfl
            · rw [hst]
              rfl
          | dropped =>
            rcases he with ⟨_, hne⟩ | ⟨he, _⟩
            · exact absurd rfl hne
            · exact hkept j call he hc
        exact hstays.symm.trans hu
      · exact ⟨j, c, (Function.update_of_ne hji _ _).trans hj, hu⟩
    · obtain ⟨rfl, rfl⟩ | ⟨hji, hj⟩ := goto_calls hj
      · have hst : stage = .allowed seen := hseen
        subst hst
        obtain ⟨hhold, rfl, hlook⟩ := hreach
        obtain hun | ⟨a, ha, hle⟩ := h.recorded e' he'
        · exact absurd hun (no_unrecorded hw hc (by rw [hhold]; rfl) (by rw [hhold]; rfl))
        · have hlate := interval_passed hw.past hlook a ha
          show e'.time + w.set.minRefetchInterval ≤ w.clock
          omega
      · exact h.allowed j c seen hj hseen e' he'
  | records i call outcome time hc hst =>
    have own := hw.suits i call hc
    unfold Suits at own
    rw [hst] at own
    obtain ⟨_, _, e, hended, hle, _⟩ := own
    refine ⟨fun e' he' => ?_, fun j c seen hj hseen e' he' => ?_⟩
    · have hlast : (w.cache.record outcome time call.kid).1.lastAttempt = some time := by
        cases outcome with
        | ok keys => rfl
        | error why => rfl
      refine .inr ⟨time, hlast, ?_⟩
      have heq : e' = e := Option.some.inj (he'.symm.trans hended)
      rw [heq]
      exact hle
    · obtain ⟨rfl, rfl⟩ | ⟨_, hj⟩ := goto_calls hj
      · cases hseen
      · exact h.allowed j c seen hj hseen e' he'
  | responds i call outcome how hc hst hhow =>
    refine ⟨fun e' _ => .inl ⟨i, _, Function.update_self _ _ _, rfl⟩,
      fun j c seen hj hseen e' he' => ?_⟩
    obtain ⟨rfl, rfl⟩ | ⟨hji, hj⟩ := goto_calls hj
    · cases hseen
    · have hi := (hw.turn i call hc).mp (by rw [hst]; rfl)
      have hj' := (hw.turn j c hj).mp (by rw [hseen]; rfl)
      rw [hi] at hj'
      exact absurd (Option.some.inj hj').symm hji
  | abandons i call hc hst =>
    have hno := hkept i call rfl hc
    rw [hst] at hno
    cases hno

theorem step_set (hs : w.step e = some w') : w'.set = w.set := by
  cases step_moves hs with
  | ticks | calls | goes | records | responds | abandons => rfl

theorem step_ended (h : ∀ e, w.ended = some e → e.time ≤ w.clock) (hs : w.step e = some w') :
    ∀ e, w'.ended = some e → e.time ≤ w'.clock := by
  intro e' he'
  cases step_moves hs with
  | ticks now hle => exact (h e' he').trans hle
  | calls | goes | records => exact h e' he'
  | responds | abandons =>
    have heq := Option.some.inj he'
    subst heq
    exact Nat.le_refl _

/-- A download starts from a fetch that was allowed. -/
theorem starts_allowed (hs : w.step e = some w') (hno : w.inFlight i = false)
    (hin : w'.inFlight i = true) :
    e = .advance i ∧ ∃ call seen, w.calls i = some call ∧ call.stage = .allowed seen := by
  obtain ⟨c, hc, hst⟩ := inFlight_iff.mp hin
  have same (hold : w.calls i = some c) : False := by
    rw [inFlight_iff.mpr ⟨c, hold, hst⟩] at hno
    cases hno
  cases step_moves hs with
  | ticks => exact (same hc).elim
  | calls j kid hn =>
    by_cases hij : i = j
    · subst hij
      replace hc : Function.update w.calls i (some ⟨kid, .called⟩) i = some c := hc
      rw [Function.update_self] at hc
      rw [← Option.some.inj hc] at hst
      cases hst
    · exact (same ((Function.update_of_ne hij _ _).symm.trans hc)).elim
  | goes e j call stage lock he hcj hturn hreach =>
    obtain ⟨rfl, rfl⟩ | ⟨_, hold⟩ := goto_calls hc
    · have hstage : stage = .downloading := hst
      subst hstage
      obtain ⟨seen, hallowed⟩ := hreach
      rcases he with ⟨he, _⟩ | ⟨_, hne⟩
      · exact ⟨he, call, seen, hcj, hallowed⟩
      · cases hne
    · exact (same hold).elim
  | records j call outcome time hcj hstj =>
    obtain ⟨rfl, rfl⟩ | ⟨_, hold⟩ := goto_calls hc
    · cases hst
    · exact (same hold).elim
  | responds j call outcome how hcj hstj _ =>
    obtain ⟨rfl, rfl⟩ | ⟨_, hold⟩ := goto_calls hc
    · cases hst
    · exact (same hold).elim
  | abandons j call hcj hstj =>
    obtain ⟨rfl, rfl⟩ | ⟨_, hold⟩ := goto_calls hc
    · cases hst
    · exact (same hold).elim

end Callers

/-- The step starts the download of a call. -/
def Starts (x : Taken Callers Callers.Event) (i : CallId) : Prop :=
  x.source.inFlight i = false ∧ x.target.inFlight i = true

/-- The interval between the end of the last download and this moment is over. -/
def Callers.RefetchDue (w : Callers) : Prop :=
  ∀ e, w.ended = some e → e.time + w.set.minRefetchInterval ≤ w.clock

/-- Whatever the interleaving, one download is in flight at a time; and when no future is dropped
with a download that is not recorded, none starts within the interval after the last one's end. -/
theorem downloads_bounded {w₀ w : Callers} {tr : List (Taken Callers Callers.Event)}
    (hi : keySet.init w₀) (hr : (keySet.restrict Callers.Awaited).Run w₀ tr w) :
    (∀ i j, w.inFlight i = true → w.inFlight j = true → i = j) ∧
    ∀ x ∈ tr, ∀ i, Starts x i → x.source.RefetchDue := by
  have kept {v : Callers} {before : List (Taken Callers Callers.Event)}
      (hrun : (keySet.restrict Callers.Awaited).Run w₀ before v) :
      v.Orderly ∧ (∀ e, v.ended = some e → e.time ≤ v.clock) ∧
        (v.set.minRefetchInterval = 0 ∨ v.Spaced) := by
    refine Lts.Run.invariant (P := fun v => v.Orderly ∧
      (∀ e, v.ended = some e → e.time ≤ v.clock) ∧ (v.set.minRefetchInterval = 0 ∨ v.Spaced))
      hrun (fun u e u' hu hs => ?_) ?_
    · obtain ⟨ho, hended, hspaced⟩ := hu
      obtain ⟨hawaited, hstep⟩ := hs
      refine ⟨ho.step hstep, Callers.step_ended hended hstep, ?_⟩
      rw [Callers.step_set hstep]
      rcases hspaced with hzero | hspaced
      · exact .inl hzero
      · exact hawaited.imp_right (hspaced.step ho hstep)
    · have ho := Callers.reachable_orderly (.start hi)
      obtain ⟨_, _, hcalls, hended⟩ := hi
      refine ⟨ho, fun e he => ?_, .inr ⟨fun e he => ?_, ?_⟩⟩
      · rw [hended] at he
        cases he
      · rw [hended] at he
        cases he
      · intro i call seen hc
        rw [hcalls] at hc
        cases hc
  refine ⟨fun i j hin hjn => ?_, fun x hx i hstarts e he => ?_⟩
  · obtain ⟨ci, hci, hsi⟩ := Callers.inFlight_iff.mp hin
    obtain ⟨cj, hcj, hsj⟩ := Callers.inFlight_iff.mp hjn
    exact Callers.one_in_flight (kept hr).1 hci hcj hsi hsj
  · obtain ⟨⟨_, hstep⟩, before, hbefore⟩ := hr.taken hx
    obtain ⟨ho, hended, hspaced⟩ := kept hbefore
    obtain ⟨_, call, seen, hc, hallowed⟩ := Callers.starts_allowed hstep hstarts.1 hstarts.2
    rcases hspaced with hzero | hspaced
    · rw [hzero]
      exact hended e he
    · have hsuits := ho.suits i call hc
      unfold Callers.Suits at hsuits
      rw [hallowed] at hsuits
      exact (hspaced.allowed i call seen hc hallowed e he).trans hsuits.1

/-- A key set nobody has asked anything of. -/
def Callers.fresh (set : GoogleKeySet) : Callers where
  set := set
  cache := ⟨none, none⟩
  fetching := none
  calls _ := none
  clock := 0
  ended := none

/-- Whether a future is dropped there. -/
def Callers.Event.isDrop : Callers.Event → Bool
  | .drop _ => true
  | .tick _ | .call .. | .advance _ | .respond .. => false

/-- A call fetches, another waits for its turn and is refused from memory, and a third one looks
again once the interval is over. -/
def spacedRun : List Callers.Event :=
  [.call 0 "a", .call 1 "b", .advance 0, .advance 1, .advance 0, .advance 0, .advance 0,
    .respond 0 (.ok [⟨"a", "n", "e"⟩]), .advance 0, .advance 0, .advance 0, .advance 1, .advance 1,
    .advance 1, .tick MIN_REFETCH_INTERVAL, .call 2 "b", .advance 2, .advance 2, .advance 2]

theorem downloads_bounded_spaced : ∃ w w' tr, (keySet.restrict Callers.Awaited).Run (.fresh .new)
    (tr ++ [⟨w, .advance 2, w'⟩]) w' ∧ Starts ⟨w, .advance 2, w'⟩ 2 ∧
    w.ended = some ⟨.succeeded, 0⟩ ∧ w.RefetchDue := by
  have hrun : ((exec (fun (w : Callers) e => if !e.isDrop then w.step e else none) (.fresh .new)
      spacedRun).bind fun w => (w.step (.advance 2)).map fun w' =>
        (w.inFlight 2, w'.inFlight 2, w.ended)) = some (false, true, some ⟨.succeeded, 0⟩) := by
    decide
  obtain ⟨w, hw, hlast⟩ := Option.bind_eq_some_iff.mp hrun
  obtain ⟨w', hstep, heq⟩ := Option.map_eq_some_iff.mp hlast
  obtain ⟨hno, heq⟩ := Prod.mk.inj heq
  obtain ⟨hin, hended⟩ := Prod.mk.inj heq
  have awaited (w : Callers) (e : Callers.Event) (he : (!e.isDrop) = true) : w.Awaited e := by
    refine .inr fun i call hd => ?_
    rw [hd] at he
    cases he
  obtain ⟨tr, hr⟩ := Lts.Run.execIf (M := keySet) (p := fun _ e => !e.isDrop)
    awaited (fun _ _ _ hs => hs) spacedRun hw
  have hall : (keySet.restrict Callers.Awaited).Run (.fresh .new)
      (tr ++ [⟨w, .advance 2, w'⟩]) w' := hr.next ⟨awaited w (.advance 2) rfl, hstep⟩
  have hlast : (⟨w, .advance 2, w'⟩ : Taken Callers Callers.Event) ∈
      tr ++ [⟨w, .advance 2, w'⟩] := by simp
  exact ⟨w, w', tr, hall, ⟨hno, hin⟩, hended,
    (downloads_bounded ⟨rfl, rfl, rfl, rfl⟩ hall).2 _ hlast 2 ⟨hno, hin⟩⟩

/-- A call is dropped while it downloads, and another goes for a download at once. -/
def abandonedRun : List Callers.Event :=
  [.call 0 "a", .advance 0, .advance 0, .advance 0, .advance 0, .drop 0,
    .call 1 "a", .advance 1, .advance 1, .advance 1]

theorem downloads_unbounded : ∃ w w' tr, keySet.init (.fresh .new) ∧
    keySet.Run (.fresh .new) (tr ++ [⟨w, .advance 1, w'⟩]) w' ∧ Starts ⟨w, .advance 1, w'⟩ 1 ∧
    w.ended = some ⟨.abandoned, 0⟩ ∧ w.clock = 0 ∧
    w.set.minRefetchInterval = MIN_REFETCH_INTERVAL ∧ ¬ w.RefetchDue := by
  have hrun : ((exec Callers.step (.fresh .new) abandonedRun).bind fun w =>
      (w.step (.advance 1)).map fun w' =>
        (w.inFlight 1, w'.inFlight 1, w.ended, w.clock, w.set.minRefetchInterval)) =
      some (false, true, some ⟨.abandoned, 0⟩, 0, MIN_REFETCH_INTERVAL) := by decide
  obtain ⟨w, hw, hlast⟩ := Option.bind_eq_some_iff.mp hrun
  obtain ⟨w', hstep, heq⟩ := Option.map_eq_some_iff.mp hlast
  obtain ⟨hno, heq⟩ := Prod.mk.inj heq
  obtain ⟨hin, heq⟩ := Prod.mk.inj heq
  obtain ⟨hended, heq⟩ := Prod.mk.inj heq
  obtain ⟨hclock, hset⟩ := Prod.mk.inj heq
  obtain ⟨tr, hr⟩ := Lts.Run.exec (M := keySet) (I := fun _ => True)
    (fun _ _ _ _ hs => ⟨hs, trivial⟩) abandonedRun trivial hw (.start _)
  refine ⟨w, w', tr, ⟨rfl, rfl, rfl, rfl⟩, hr.next hstep, ⟨hno, hin⟩, hended, hclock, hset,
    fun hdue => ?_⟩
  have hlate := hdue _ hended
  rw [hclock, hset] at hlate
  exact absurd hlate (by decide)

end Tronc.Iam
