import Tronc.Notify.Layer

namespace Tronc.Notify

open Transition

/-- The value a dedup key has of a field: a missing one counts as empty. -/
def keyValue (fields : Fields) (key : String) : String := (fields.lookup key).getD ""

def SameValues (keys : List String) (f g : Fields) : Prop :=
  ∀ key ∈ keys, keyValue f key = keyValue g key

instance (keys : List String) (f g : Fields) : Decidable (SameValues keys f g) :=
  inferInstanceAs (Decidable (∀ key ∈ keys, keyValue f key = keyValue g key))

namespace NotifyLayer

/-- An event of the name that was let through less than the window ago. -/
def Recent (s : NotifyLayer) (dedup : DedupRule) (e : Emitted) (p : Passed) : Prop :=
  p ∈ s.passed ∧ p.name = e.name ∧ s.clock - p.time < dedup.window

def Duplicate (s : NotifyLayer) (dedup : DedupRule) (e : Emitted) : Prop :=
  ∃ p, s.Recent dedup e p ∧ SameValues dedup.keys p.fields e.fields

/-- A recent event has the same text in its dedup key, and none has the same values. -/
def Mistaken (s : NotifyLayer) (dedup : DedupRule) (e : Emitted) : Prop :=
  ¬ s.Duplicate dedup e ∧
    ∃ p, s.Recent dedup e p ∧ joinKeys dedup.keys p.fields = joinKeys dedup.keys e.fields

/-- Every event with a dedup rule has the one its name is given. -/
def Steady (rules : String → DedupRule) (s : NotifyLayer) : Event → Prop
  | .dispatch e => ∀ rule dedup, s.admits e = some rule → rule.dedup = some dedup →
      dedup = rules e.name
  | _ => True

end NotifyLayer

theorem joinKeys_congr {keys : List String} {f g : Fields} (h : SameValues keys f g) :
    joinKeys keys f = joinKeys keys g := by
  have hmap : keys.map (keyValue f) = keys.map (keyValue g) := List.map_congr_left h
  exact congrArg "\x00".intercalate hmap

theorem toList_joinKeys (keys : List String) (f : Fields) : (joinKeys keys f).toList =
    ['\x00'].intercalate (keys.map fun key => (keyValue f key).toList) := by
  unfold joinKeys
  rw [String.toList_intercalate, List.map_map]
  rfl

/-- The text tells the values apart when there is one key, or no value has a NUL. -/
theorem sameValues_of_joinKeys {keys : List String} {f g : Fields}
    (h : joinKeys keys f = joinKeys keys g)
    (plain : keys.length ≤ 1 ∨ ∀ key ∈ keys, '\x00' ∉ (keyValue f key).toList ∧
      '\x00' ∉ (keyValue g key).toList) : SameValues keys f g := by
  have htexts := congrArg String.toList h
  rw [toList_joinKeys, toList_joinKeys] at htexts
  have hvalues : keys.map (fun key => (keyValue f key).toList) =
      keys.map fun key => (keyValue g key).toList := by
    rcases plain with hone | hnul
    · match keys, hone with
      | [], _ => rfl
      | [key], _ => simpa using htexts
    · rcases eq_or_ne keys [] with rfl | hne
      · rfl
      · have hsplit := congrArg (List.splitOn '\x00') htexts
        rw [List.splitOn_intercalate, List.splitOn_intercalate] at hsplit
        · exact hsplit
        · intro l hl
          obtain ⟨key, hkey, rfl⟩ := List.mem_map.mp hl
          exact (hnul key hkey).2
        · simpa using hne
        · intro l hl
          obtain ⟨key, hkey, rfl⟩ := List.mem_map.mp hl
          exact (hnul key hkey).1
        · simpa using hne
  intro key hkey
  have heq := List.map_inj_left.mp hvalues key hkey
  exact String.toList_inj.mp heq

namespace NotifyLayer

variable {rules : String → DedupRule} {s s₀ t : NotifyLayer}

/-- What `forward` and the steps other than a dispatch leave alone. -/
structure SameDedup (s t : NotifyLayer) : Prop where
  dedup : t.dedup = s.dedup
  passed : t.passed = s.passed
  clock : s.clock ≤ t.clock

theorem forward_sameDedup (s : NotifyLayer) (rule : RoutingRule) (e : Emitted) :
    SameDedup s (s.forward rule e) := by
  unfold forward
  split
  · exact ⟨rfl, rfl, Nat.le_refl _⟩
  · exact ⟨rfl, rfl, Nat.le_refl _⟩

/-- A step keeps the dedup map, or lets an event through. -/
theorem step_dedup {a : Event} (h : s.step a = some t) : SameDedup s t ∨
    ∃ e rule dedup, a = .dispatch e ∧ s.admits e = some rule ∧ rule.dedup = some dedup ∧
      SameDedup (s.letThrough dedup e) t := by
  cases step_moves h with
  | dispatches e =>
    unfold dispatch
    split
    · exact .inl ⟨rfl, rfl, Nat.le_refl _⟩
    · rename_i rule hrule
      split
      · exact .inl (forward_sameDedup s rule e)
      · rename_i dedup hdedup
        split
        · exact .inl ⟨rfl, rfl, Nat.le_refl _⟩
        · exact .inr ⟨e, rule, dedup, rfl, hrule, hdedup, forward_sameDedup _ rule e⟩
  | ticks now hle => exact .inl ⟨rfl, rfl, hle⟩
  | enqueues | wakes | drains | rests | posts => exact .inl ⟨rfl, rfl, Nat.le_refl _⟩

/-- The key an event that passed has under the rule of its name. -/
def keyOf (rules : String → DedupRule) (p : Passed) : String × String :=
  buildDedupKey p.name (rules p.name).keys p.fields

/-- The dedup map has, for each key, the time of the last event that passed with it. -/
structure Seen (rules : String → DedupRule) (s : NotifyLayer) : Prop where
  past : ∀ p ∈ s.passed, p.time ≤ s.clock
  recorded : ∀ key time, s.dedup.lookup key = some time →
    ∃ p ∈ s.passed, keyOf rules p = key ∧ p.time = time
  latest : ∀ p ∈ s.passed, ∃ time, s.dedup.lookup (keyOf rules p) = some time ∧ p.time ≤ time

theorem Seen.of_same (h : Seen rules s) (same : SameDedup s t) : Seen rules t := by
  obtain ⟨hdedup, hpassed, hclock⟩ := same
  refine ⟨?_, ?_, ?_⟩
  · intro p hp
    rw [hpassed] at hp
    exact Nat.le_trans (h.past p hp) hclock
  · rw [hdedup, hpassed]
    exact h.recorded
  · rw [hdedup, hpassed]
    exact h.latest

theorem Seen.letThrough {e : Emitted} (h : Seen rules s) :
    Seen rules (s.letThrough (rules e.name) e) := by
  have hnew : keyOf rules ⟨e.name, e.fields, s.clock⟩ =
      buildDedupKey e.name (rules e.name).keys e.fields := rfl
  refine ⟨?_, ?_, ?_⟩
  · intro p hp
    rcases List.mem_append.mp hp with hp | hp
    · exact h.past p hp
    · rw [List.mem_singleton.mp hp]
      exact Nat.le_refl _
  · intro key time hlookup
    by_cases hkey : key = buildDedupKey e.name (rules e.name).keys e.fields
    · subst hkey
      have htime : some s.clock = some time := (AList.lookup_insert _).symm.trans hlookup
      exact ⟨_, List.mem_append_right _ (.head _), hnew, Option.some.inj htime⟩
    · have hold : s.dedup.lookup key = some time :=
        (AList.lookup_insert_ne hkey).symm.trans hlookup
      obtain ⟨p, hp, hpkey⟩ := h.recorded key time hold
      exact ⟨p, List.mem_append_left _ hp, hpkey⟩
  · intro p hp
    by_cases hkey : keyOf rules p = buildDedupKey e.name (rules e.name).keys e.fields
    · refine ⟨s.clock, ?_, ?_⟩
      · rw [hkey]
        exact AList.lookup_insert _
      · rcases List.mem_append.mp hp with hp | hp
        · exact h.past p hp
        · rw [List.mem_singleton.mp hp]
    · rcases List.mem_append.mp hp with hp | hp
      · obtain ⟨time, hlookup, hle⟩ := h.latest p hp
        exact ⟨time, (AList.lookup_insert_ne hkey).trans hlookup, hle⟩
      · rw [List.mem_singleton.mp hp] at hkey
        exact absurd hnew hkey

theorem seen_step {a : Event} (h : Seen rules s) (hstep : Steady rules s a ∧ s.step a = some t) :
    Seen rules t := by
  obtain ⟨hsteady, hs⟩ := hstep
  rcases step_dedup hs with same | ⟨e, rule, dedup, rfl, hrule, hdedup, same⟩
  · exact h.of_same same
  · obtain rfl := hsteady rule dedup hrule hdedup
    exact h.letThrough.of_same same

theorem seen_init (h : notifyLayer.init s) : Seen rules s := by
  obtain ⟨environment, defaultRule, clock, rfl⟩ := h
  refine ⟨?_, ?_, ?_⟩
  · intro p hp
    exact absurd hp List.not_mem_nil
  · intro key time hlookup
    cases (AList.lookup_empty key).symm.trans hlookup
  · intro p hp
    exact absurd hp List.not_mem_nil

/-- What the dedup map says of an event: one with the same text passed within the window. -/
theorem Seen.suppresses_iff {e : Emitted} (h : Seen rules s) :
    s.suppresses (rules e.name) e = true ↔ ∃ p, s.Recent (rules e.name) e p ∧
      joinKeys (rules e.name).keys p.fields = joinKeys (rules e.name).keys e.fields := by
  unfold suppresses repeats
  rw [Option.any_eq_true]
  constructor
  · rintro ⟨last, hlookup, hwindow⟩
    obtain ⟨p, hp, hkey, rfl⟩ := h.recorded _ _ hlookup
    obtain ⟨hname, hjoin⟩ := Prod.mk.inj hkey
    rw [hname] at hjoin
    exact ⟨p, ⟨hp, hname, of_decide_eq_true hwindow⟩, hjoin⟩
  · rintro ⟨p, ⟨hp, hname, hwindow⟩, hjoin⟩
    obtain ⟨last, hlookup, hle⟩ := h.latest p hp
    have hkey : keyOf rules p = buildDedupKey e.name (rules e.name).keys e.fields := by
      unfold keyOf buildDedupKey
      rw [hname, hjoin]
    rw [hkey] at hlookup
    refine ⟨last, hlookup, decide_eq_true ?_⟩
    omega

theorem Duplicate.joined {dedup : DedupRule} {e : Emitted} (h : s.Duplicate dedup e) :
    ∃ p, s.Recent dedup e p ∧ joinKeys dedup.keys p.fields = joinKeys dedup.keys e.fields := by
  obtain ⟨p, hp, hsame⟩ := h
  exact ⟨p, hp, joinKeys_congr hsame⟩

/-- No event is mistaken for another when its rule has one key, or no value in play has a NUL. -/
theorem not_mistaken {dedup : DedupRule} {e : Emitted}
    (plain : dedup.keys.length ≤ 1 ∨ ∀ key ∈ dedup.keys, '\x00' ∉ (keyValue e.fields key).toList ∧
      ∀ p ∈ s.passed, '\x00' ∉ (keyValue p.fields key).toList) : ¬ s.Mistaken dedup e := by
  rintro ⟨hnone, p, hp, hjoin⟩
  refine hnone ⟨p, hp, sameValues_of_joinKeys hjoin (plain.imp id ?_)⟩
  intro hnul key hkey
  exact ⟨(hnul key hkey).2 p hp.1, (hnul key hkey).1⟩

end NotifyLayer

open NotifyLayer

/-- In every run, an event is suppressed exactly when it repeats one let through within the window,
but for those whose key text is that of a recent event with other values. -/
theorem dedup_exact {rules : String → DedupRule} {s₀ s : NotifyLayer}
    {tr : List (Taken NotifyLayer Event)} (h₀ : notifyLayer.init s₀)
    (h : (notifyLayer.restrict (Steady rules)).Run s₀ tr s) :
    ∀ x ∈ tr, ∀ e rule dedup, x.label = .dispatch e → x.source.admits e = some rule →
      rule.dedup = some dedup →
      ((x.source.suppresses dedup e = true ↔ x.source.Duplicate dedup e) ↔
        ¬ x.source.Mistaken dedup e) := by
  intro x hx e rule dedup hlabel hrule hdedup
  obtain ⟨⟨hsteady, -⟩, before, hbefore⟩ := h.taken hx
  have hseen : Seen rules x.source := hbefore.invariant (fun _ _ _ => seen_step) (seen_init h₀)
  rw [hlabel] at hsteady
  obtain rfl := hsteady rule dedup hrule hdedup
  rw [hseen.suppresses_iff]
  constructor
  · rintro hexact ⟨hnone, hjoined⟩
    exact hnone (hexact.mp hjoined)
  · intro hmistaken
    refine ⟨fun hjoined => ?_, Duplicate.joined⟩
    by_contra hnone
    exact hmistaken ⟨hnone, hjoined⟩

/-- A rule for `e` with two dedup keys, and an event it is the rule of. -/
def pairRule : RoutingRule := { RoutingRule.toChannel "#ops" with dedup := some ⟨["a", "b"], 60⟩ }

def pairEvent (a b : String) : Emitted :=
  ⟨"e", [⟨"a", a⟩, ⟨"b", b⟩].toAList, some pairRule, true, none⟩

/-- A layer that has dispatched one such event. -/
def afterPair (a b : String) : NotifyLayer :=
  (NotifyLayer.build "production" none).dispatch (pairEvent a b)

theorem pair_run (a b c d : String) :
    (notifyLayer.restrict (Steady fun _ => ⟨["a", "b"], 60⟩)).Run (.build "production" none)
      [⟨.build "production" none, .dispatch (pairEvent a b), afterPair a b⟩,
        ⟨afterPair a b, .dispatch (pairEvent c d), (afterPair a b).dispatch (pairEvent c d)⟩]
      ((afterPair a b).dispatch (pairEvent c d)) := by
  have hsteady (s : NotifyLayer) (a b : String) :
      Steady (fun _ => ⟨["a", "b"], 60⟩) s (.dispatch (pairEvent a b)) := by
    intro rule dedup hrule hdedup
    have hpair : s.admits (pairEvent a b) = some pairRule := rfl
    rw [hpair] at hrule
    obtain rfl := Option.some.inj hrule
    exact (Option.some.inj hdedup).symm
  have first := Lts.Run.next (M := notifyLayer.restrict (Steady fun _ => ⟨["a", "b"], 60⟩))
    (.start (.build "production" none)) ⟨hsteady _ a b, rfl⟩
  exact first.next ⟨hsteady _ c d, rfl⟩

theorem dedup_exact_again :
    (afterPair "x" "y").suppresses ⟨["a", "b"], 60⟩ (pairEvent "x" "y") = true ↔
      (afterPair "x" "y").Duplicate ⟨["a", "b"], 60⟩ (pairEvent "x" "y") := by
  refine (dedup_exact ⟨"production", none, 0, rfl⟩ (pair_run "x" "y" "x" "y") _
    (.tail _ (.head _)) _ pairRule _ rfl rfl rfl).mpr (not_mistaken (.inr ?_))
  decide +kernel

/-- The values `x`, NUL and nothing, `y` join as `x` and nothing, NUL, `y` do. -/
theorem nul_values_collide : ¬ ∀ (rules : String → DedupRule) (s₀ s : NotifyLayer)
    (tr : List (Taken NotifyLayer Event)), notifyLayer.init s₀ →
    (notifyLayer.restrict (Steady rules)).Run s₀ tr s →
    ∀ x ∈ tr, ∀ e rule dedup, x.label = .dispatch e → x.source.admits e = some rule →
      rule.dedup = some dedup →
      (x.source.suppresses dedup e = true ↔ x.source.Duplicate dedup e) := by
  intro h
  have hexact := h _ _ _ _ ⟨"production", none, 0, rfl⟩ (pair_run "x\x00" "y" "x" "\x00y") _
    (.tail _ (.head _)) _ pairRule _ rfl rfl rfl
  obtain ⟨p, ⟨hp, -, -⟩, hsame⟩ := hexact.mp (by decide +kernel)
  rw [List.mem_singleton.mp hp] at hsame
  have ha := hsame "a" (.head _)
  exact absurd ha (by decide +kernel)

end Tronc.Notify
