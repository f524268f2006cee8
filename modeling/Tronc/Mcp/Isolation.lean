import Tronc.Mcp.InFlight

namespace Tronc.Mcp

open CancelTree Transition

/-- What one step of a run does to the registrations it is not about, and to the tokens. -/
structure Isolated (x : Taken Serving Serving.Event) : Prop where
  /-- A cancellation fires the tokens of the live registrations of its caller and its id, and what
  descends from them; it fires no other. -/
  fires : ∀ ctx params, x.label = .notify ctx params → ∀ u,
    (x.target.tokens.isCancelled u = true ↔ x.source.tokens.isCancelled u = true ∨
      ∃ (i : Nat) (g : Registration), x.source.guards[i]? = some g ∧ g.isLive = true ∧
        g.caller = ctx.caller ∧ cancelledRequestId params = some g.requestId ∧
        u.isUnder g.token = true)
  /-- A caller that may be taken for another cancels nothing. -/
  untold : ∀ ctx params, x.label = .notify ctx params → ctx.caller.tellsCallersApart = false →
    x.target = x.source
  /-- Registering and dropping a request fire nothing. -/
  quiet : (∀ ctx params, x.label ≠ .notify ctx params) → (∀ t, x.label ≠ .fire t) →
    ∀ u, x.target.tokens.isCancelled u = x.source.tokens.isCancelled u
  /-- A guard dropped leaves every other registration as it is, and where it is. -/
  drops : ∀ i, x.label = .drop i → ∀ j, j ≠ i → x.target.guards[j]? = x.source.guards[j]? ∧
    ∀ g, x.source.guards[j]? = some g → ∀ key token,
      (g.serial, token) ∈ x.target.registry.under key ↔
        (g.serial, token) ∈ x.source.registry.under key

namespace Serving

variable {crates : Crates} {w w' : Serving} {e : Event}

/-- The table holds the live registrations and nothing else, each under the key of its caller and
its id, and each once. -/
structure Exact (crates : Crates) (w : Serving) : Prop where
  occupied : w.registry.Occupied
  once : ∀ key, ((w.registry.under key).map Prod.fst).Nodup
  live : ∀ key serial token, (serial, token) ∈ w.registry.under key ↔
    ∃ (i : Nat) (g : Registration), w.guards[i]? = some g ∧ g.isLive = true ∧
      g.serial = serial ∧ g.token = token ∧ key = ⟨g.caller, toText crates g.requestId⟩

/-- Each registration has a token of its own, the key of its caller and its id, and the serial that
the counter had come to, which wraps. -/
structure Known (crates : Crates) (w : Serving) : Prop where
  numbered : w.tokens.Numbered
  next : w.registry.nextSerial = .ofNat w.guards.length
  serial : ∀ (i : Nat) (g : Registration), w.guards[i]? = some g → g.serial = .ofNat i
  key : ∀ (i : Nat) (g : Registration), w.guards[i]? = some g → g.key =
    if g.caller.tellsCallersApart then some ⟨g.caller, toText crates g.requestId⟩ else none
  made : ∀ (i : Nat) (g : Registration), w.guards[i]? = some g → g.token ∈ w.tokens.made
  single : ∀ (i j : Nat) (g h : Registration), w.guards[i]? = some g → w.guards[j]? = some h →
    g.token = h.token → i = j

/-- What a step is. -/
inductive Moves (crates : Crates) (w : Serving) : Event → Serving → Prop where
  | makes (parent : Option Token) : (∀ t, parent = some t → t ∈ w.tokens.made) →
      Moves crates w (.token parent) { w with tokens := w.tokens.make (w.tokens.child parent) }
  | fires (t : Token) : Moves crates w (.fire t) { w with tokens := w.tokens.cancel t }
  | registers (ctx : ToolContext) (requestId : Json) : ctx.cancellation ∈ w.tokens.made →
      Moves crates w (.register ctx requestId) (register crates w ctx requestId)
  | pushes (i : Nat) (g : Registration) : w.guards[i]? = some g → g.stage = .drawn →
      Moves crates w (.push i) (w.push i g)
  | notifies (ctx : ToolContext) (params : Option Json) :
      Moves crates w (.notify ctx params) (notify crates w ctx params)
  | drops (i : Nat) (g : Registration) : w.guards[i]? = some g → g.stage = .held →
      Moves crates w (.drop i) (w.drop i g)

theorem step_moves (h : step crates w e = some w') : Moves crates w e w' := by
  cases e with
  | token parent =>
    simp only [step] at h
    split at h
    · rename_i hp
      obtain rfl := Option.some.inj h
      exact .makes parent hp
    · cases h
  | fire t =>
    obtain rfl := Option.some.inj h
    exact .fires t
  | register ctx requestId =>
    simp only [step] at h
    split at h
    · rename_i hp
      obtain rfl := Option.some.inj h
      exact .registers ctx requestId hp
    · cases h
  | push i =>
    simp only [step] at h
    split at h
    · rename_i g hg
      split at h
      · rename_i hs
        obtain rfl := Option.some.inj h
        exact .pushes i g hg hs
      · cases h
    · cases h
  | notify ctx params =>
    obtain rfl := Option.some.inj h
    exact .notifies ctx params
  | drop i =>
    simp only [step] at h
    split at h
    · rename_i g hg
      split at h
      · rename_i hs
        obtain rfl := Option.some.inj h
        exact .drops i g hg hs
      · cases h
    · cases h

/-- A notification touches no registration. -/
theorem notify_frame (ctx : ToolContext) (params : Option Json) :
    (notify crates w ctx params).registry = w.registry ∧
    (notify crates w ctx params).guards = w.guards ∧
    (notify crates w ctx params).tokens.made = w.tokens.made := by
  unfold notify
  split
  · exact ⟨rfl, rfl, rfl⟩
  · exact ⟨rfl, rfl, InFlightRequests.made_cancel _ _ _ _⟩

/-- Another stage for one registration, and everything else about them all as before. -/
theorem getElem?_stage {i j : Nat} {g h : Registration} {stage : Registration.Stage}
    (hg : w.guards[i]? = some g) (hh : (w.guards.set i { g with stage := stage })[j]? = some h) :
    ∃ h', w.guards[j]? = some h' ∧ h.caller = h'.caller ∧ h.requestId = h'.requestId ∧
      h.key = h'.key ∧ h.serial = h'.serial ∧ h.token = h'.token := by
  by_cases hij : i = j
  · subst hij
    have hlt : i < w.guards.length := (List.getElem?_eq_some_iff.mp hg).1
    rw [List.getElem?_set_self hlt] at hh
    obtain rfl := Option.some.inj hh
    exact ⟨g, hg, rfl, rfl, rfl, rfl, rfl⟩
  · rw [List.getElem?_set_ne hij] at hh
    exact ⟨h, hh, rfl, rfl, rfl, rfl, rfl⟩

theorem Known.restage (k : Known crates w) {i : Nat} {g : Registration}
    (hg : w.guards[i]? = some g) (stage : Registration.Stage) (registry : InFlightRequests)
    (hnext : registry.nextSerial = w.registry.nextSerial) :
    Known crates { w with registry := registry, guards := w.guards.set i { g with stage := stage } } := by
  refine ⟨k.numbered, ?_, ?_, ?_, ?_, ?_⟩
  · show registry.nextSerial = .ofNat (w.guards.set i _).length
    rw [List.length_set, hnext]
    exact k.next
  · intro j h hh
    obtain ⟨h', hh', _, _, _, hserial, _⟩ := getElem?_stage hg hh
    rw [hserial]
    exact k.serial j h' hh'
  · intro j h hh
    obtain ⟨h', hh', hcaller, hid, hkey, _, _⟩ := getElem?_stage hg hh
    rw [hcaller, hid, hkey]
    exact k.key j h' hh'
  · intro j h hh
    obtain ⟨h', hh', _, _, _, _, htoken⟩ := getElem?_stage hg hh
    rw [htoken]
    exact k.made j h' hh'
  · intro j l h m hh hm heq
    obtain ⟨h', hh', _, _, _, _, htoken⟩ := getElem?_stage hg hh
    obtain ⟨m', hm', _, _, _, _, mtoken⟩ := getElem?_stage hg hm
    rw [htoken, mtoken] at heq
    exact k.single j l h' m' hh' hm' heq

/-- A registration is one of those there were, or the one just made. -/
theorem register_guards {ctx : ToolContext} {requestId : Json} {i : Nat} {g : Registration}
    (hg : (register crates w ctx requestId).guards[i]? = some g) :
    w.guards[i]? = some g ∨ i = w.guards.length ∧ g = ⟨ctx.caller, requestId,
      RequestKey.of crates ctx requestId, w.registry.nextSerial,
      w.tokens.child (some ctx.cancellation), .drawn⟩ := by
  have hg' : (w.guards ++ [_])[i]? = some g := hg
  rw [List.getElem?_append] at hg'
  split at hg'
  · exact .inl hg'
  · rename_i hlt
    obtain ⟨hi, hval⟩ := List.getElem?_eq_some_iff.mp hg'
    have hi' : i - w.guards.length < 1 := hi
    have hlen : i = w.guards.length := by omega
    subst hlen
    rw [Nat.sub_self] at hg'
    exact .inr ⟨rfl, (Option.some.inj hg').symm⟩

theorem Known.step (k : Known crates w) (hs : step crates w e = some w') : Known crates w' := by
  cases step_moves hs with
  | makes parent hp =>
    exact ⟨k.numbered.make hp, k.next, k.serial, k.key,
      fun i g hg => List.mem_cons_of_mem _ (k.made i g hg), k.single⟩
  | fires t => exact ⟨k.numbered, k.next, k.serial, k.key, k.made, k.single⟩
  | notifies ctx params =>
    obtain ⟨hr, hg, hm⟩ := @notify_frame crates w ctx params
    refine ⟨?_, ?_, ?_, ?_, ?_, ?_⟩
    · intro t ht n hn
      rw [hm] at ht ⊢
      exact k.numbered t ht n hn
    · rw [hr, hg]
      exact k.next
    · rw [hg]
      exact k.serial
    · rw [hg]
      exact k.key
    · rw [hg, hm]
      exact k.made
    · rw [hg]
      exact k.single
  | pushes i g hg hd =>
    refine k.restage hg .held _ ?_
    unfold InFlightRequests.push
    split <;> rfl
  | drops i g hg hd =>
    refine k.restage hg .dropped _ ?_
    cases g.key with
    | none => rfl
    | some key =>
      show (w.registry.release key g.serial).nextSerial = _
      unfold InFlightRequests.release
      split
      · rfl
      · dsimp only
        split <;> rfl
  | registers ctx requestId hm =>
    have hparent : ∀ t, some ctx.cancellation = some t → t ∈ w.tokens.made := by
      intro t ht
      rw [← Option.some.inj ht]
      exact hm
    refine ⟨k.numbered.make hparent, ?_, ?_, ?_, ?_, ?_⟩
    · show w.registry.nextSerial + 1 = .ofNat (w.guards ++ [_]).length
      rw [List.length_append, k.next, UInt64.ofNat_add]
      rfl
    · intro i g hg
      rcases register_guards hg with hg | ⟨rfl, rfl⟩
      · exact k.serial i g hg
      · exact k.next
    · intro i g hg
      rcases register_guards hg with hg | ⟨rfl, rfl⟩
      · exact k.key i g hg
      · rfl
    · intro i g hg
      rcases register_guards hg with hg | ⟨rfl, rfl⟩
      · exact List.mem_cons_of_mem _ (k.made i g hg)
      · exact List.mem_cons_self
    · intro i j g h hg hh heq
      rcases register_guards hg with hg | ⟨rfl, rfl⟩
      · rcases register_guards hh with hh | ⟨rfl, rfl⟩
        · exact k.single i j g h hg hh heq
        · exact absurd heq (k.numbered.child_ne (k.made i g hg))
      · rcases register_guards hh with hh | ⟨rfl, rfl⟩
        · exact absurd heq.symm (k.numbered.child_ne (k.made j h hh))
        · rfl

/-- Serials are drawn apart until the counter has come round. -/
theorem Known.apart (k : Known crates w) (hlen : w.guards.length ≤ 2 ^ 64) {i j : Nat}
    {g h : Registration} (hg : w.guards[i]? = some g) (hh : w.guards[j]? = some h)
    (heq : g.serial = h.serial) : i = j := by
  have hi := (List.getElem?_eq_some_iff.mp hg).1
  have hj := (List.getElem?_eq_some_iff.mp hh).1
  rw [k.serial i g hg, k.serial j h hh] at heq
  have hnat := congrArg UInt64.toNat heq
  rwa [UInt64.toNat_ofNat_of_lt' (Nat.lt_of_lt_of_le hi hlen),
    UInt64.toNat_ofNat_of_lt' (Nat.lt_of_lt_of_le hj hlen)] at hnat

/-- One registration for another at its place. -/
theorem exists_set {i : Nat} {g g' : Registration} (hg : w.guards[i]? = some g)
    (P : Registration → Prop) : (∃ (j : Nat) (h : Registration), (w.guards.set i g')[j]? = some h ∧ P h) ↔
      P g' ∨ ∃ (j : Nat) (h : Registration), j ≠ i ∧ w.guards[j]? = some h ∧ P h := by
  have hlt : i < w.guards.length := (List.getElem?_eq_some_iff.mp hg).1
  constructor
  · rintro ⟨j, h, hh, hp⟩
    by_cases hij : j = i
    · subst hij
      rw [List.getElem?_set_self hlt] at hh
      obtain rfl := Option.some.inj hh
      exact .inl hp
    · rw [List.getElem?_set_ne (fun heq => hij heq.symm)] at hh
      exact .inr ⟨j, h, hij, hh, hp⟩
  · rintro (hp | ⟨j, h, hij, hh, hp⟩)
    · exact ⟨i, g', List.getElem?_set_self hlt, hp⟩
    · exact ⟨j, h, (List.getElem?_set_ne (fun heq => hij heq.symm)).trans hh, hp⟩

theorem isLive_restage (g : Registration) (stage : Registration.Stage) :
    { g with stage := stage }.isLive = (stage == .held && g.caller.tellsCallersApart) := rfl

/-- A registration is under the key of its caller and its id, or under none. -/
theorem Known.key_eq (k : Known crates w) {i : Nat} {g : Registration}
    (hg : w.guards[i]? = some g) : g.key = none ∧ g.caller.tellsCallersApart = false ∨
      g.key = some ⟨g.caller, toText crates g.requestId⟩ ∧ g.caller.tellsCallersApart = true := by
  have hkey := k.key i g hg
  split at hkey
  · rename_i ht
    exact .inr ⟨hkey, ht⟩
  · rename_i ht
    exact .inl ⟨hkey, Bool.eq_false_iff.mpr ht⟩

/-- What a key holds once a registration is pushed. -/
theorem Known.under_push (k : Known crates w) {i : Nat} {g : Registration}
    (hg : w.guards[i]? = some g) (key : RequestKey) :
    (w.push i g).registry.under key = w.registry.under key ++
      if g.caller.tellsCallersApart = true ∧ key = ⟨g.caller, toText crates g.requestId⟩ then
        [(g.serial, g.token)] else [] := by
  show (w.registry.push g.key g.serial g.token).under key = _
  obtain ⟨hkey, htells⟩ | ⟨hkey, htells⟩ := k.key_eq hg
  · rw [hkey, htells, if_neg (by simp), List.append_nil]
    rfl
  · rw [hkey, htells, InFlightRequests.under_push]
    by_cases heq : key = ⟨g.caller, toText crates g.requestId⟩
    · rw [if_pos heq, if_pos ⟨rfl, heq⟩, heq]
    · rw [if_neg heq, if_neg (fun h => heq h.2), List.append_nil]

theorem Exact.push (k : Known crates w) (h : Exact crates w) (hlen : w.guards.length ≤ 2 ^ 64)
    {i : Nat} {g : Registration} (hg : w.guards[i]? = some g) (hd : g.stage = .drawn) :
    Exact crates (w.push i g) := by
  have drawn : g.isLive = false := by
    unfold Registration.isLive
    rw [hd]
    rfl
  refine ⟨h.occupied.push _ _ _, ?_, ?_⟩
  · intro key
    -- a serial under the key is another registration's, as this one's is not yet there
    have absent : g.serial ∉ (w.registry.under key).map Prod.fst := by
      intro hmem
      obtain ⟨⟨serial, token⟩, hentry, rfl⟩ := List.mem_map.mp hmem
      obtain ⟨j, g', hg', hlive, hserial, _⟩ := (h.live key g.serial token).mp hentry
      obtain rfl := k.apart hlen hg' hg hserial
      rw [hg] at hg'
      rw [← Option.some.inj hg', drawn] at hlive
      cases hlive
    rw [k.under_push hg]
    split
    · rw [List.map_append, List.nodup_append]
      refine ⟨h.once key, List.nodup_singleton _, fun a ha b hb hab => ?_⟩
      rw [hab, List.mem_singleton.mp hb] at ha
      exact absent ha
    · rw [List.append_nil]
      exact h.once key
  · intro key serial token
    have others : (∃ (j : Nat) (h : Registration), j ≠ i ∧ w.guards[j]? = some h ∧ h.isLive = true ∧ h.serial = serial ∧
        h.token = token ∧ key = ⟨h.caller, toText crates h.requestId⟩) ↔
        (serial, token) ∈ w.registry.under key := by
      rw [h.live]
      constructor
      · rintro ⟨j, g', _, hown⟩
        exact ⟨j, g', hown⟩
      · rintro ⟨j, g', hg', hlive, hown⟩
        refine ⟨j, g', ?_, hg', hlive, hown⟩
        rintro rfl
        rw [hg] at hg'
        rw [← Option.some.inj hg', drawn] at hlive
        cases hlive
    show _ ↔ ∃ j h, (w.guards.set i { g with stage := .held })[j]? = some h ∧ _
    rw [exists_set hg, isLive_restage, others, k.under_push hg, List.mem_append, or_comm]
    refine or_congr_left ?_
    split
    · rename_i hown
      rw [List.mem_singleton, Prod.mk.injEq]
      simp [hown.1, hown.2, @eq_comm _ serial, @eq_comm _ token]
    · rename_i hown
      refine iff_of_false List.not_mem_nil fun hp => hown ⟨?_, hp.2.2.2⟩
      exact (Bool.and_eq_true_iff.mp hp.1).2

/-- What a key holds once a registration is dropped. -/
theorem Known.mem_under_drop (k : Known crates w) {i : Nat} {g : Registration}
    (hg : w.guards[i]? = some g) (key : RequestKey) (serial : UInt64) (token : Token) :
    (serial, token) ∈ (w.drop i g).registry.under key ↔ (serial, token) ∈ w.registry.under key ∧
      ¬ (g.caller.tellsCallersApart = true ∧ key = ⟨g.caller, toText crates g.requestId⟩ ∧
        serial = g.serial) := by
  show (serial, token) ∈ (g.key.elim w.registry (w.registry.release · g.serial)).under key ↔ _
  obtain ⟨hkey, htells⟩ | ⟨hkey, htells⟩ := k.key_eq hg
  · rw [hkey, htells]
    simp
  · rw [hkey, htells]
    show (serial, token) ∈ (w.registry.release _ g.serial).under key ↔ _
    rw [InFlightRequests.under_release]
    split
    · rename_i heq
      rw [heq, List.mem_filter]
      simp
    · rename_i hne
      simp [hne]

theorem Exact.drop (k : Known crates w) (h : Exact crates w) (hlen : w.guards.length ≤ 2 ^ 64)
    {i : Nat} {g : Registration} (hg : w.guards[i]? = some g) : Exact crates (w.drop i g) := by
  refine ⟨?_, ?_, ?_⟩
  · show (g.key.elim w.registry (w.registry.release · g.serial)).Occupied
    cases g.key with
    | none => exact h.occupied
    | some key => exact h.occupied.release key g.serial
  · intro key
    show (((g.key.elim w.registry (w.registry.release · g.serial)).under key).map Prod.fst).Nodup
    cases g.key with
    | none => exact h.once key
    | some key' =>
      show (((w.registry.release key' g.serial).under key).map Prod.fst).Nodup
      rw [InFlightRequests.under_release]
      split
      · exact (h.once key').sublist (List.filter_sublist.map Prod.fst)
      · exact h.once key
  · intro key serial token
    rw [k.mem_under_drop hg, h.live]
    show _ ↔ ∃ j h, (w.guards.set i { g with stage := .dropped })[j]? = some h ∧ _
    rw [exists_set hg, isLive_restage]
    constructor
    · rintro ⟨⟨j, g', hg', hlive, hserial, hown⟩, hother⟩
      refine .inr ⟨j, g', ?_, hg', hlive, hserial, hown⟩
      rintro rfl
      rw [hg] at hg'
      obtain rfl := Option.some.inj hg'
      exact hother ⟨(Bool.and_eq_true_iff.mp hlive).2, hown.2, hserial.symm⟩
    · rintro (⟨hlive, _⟩ | ⟨j, g', hj, hg', hlive, hserial, hown⟩)
      · cases hlive
      · refine ⟨⟨j, g', hg', hlive, hserial, hown⟩, fun hsame => hj ?_⟩
        exact k.apart hlen hg' hg (hserial.trans hsame.2.2)

theorem Exact.step (k : Known crates w) (h : Exact crates w) (hlen : w.guards.length ≤ 2 ^ 64)
    (hs : step crates w e = some w') : Exact crates w' := by
  cases step_moves hs with
  | makes parent hp => exact ⟨h.occupied, h.once, h.live⟩
  | fires t => exact ⟨h.occupied, h.once, h.live⟩
  | notifies ctx params =>
    obtain ⟨hr, hg, _⟩ := @notify_frame crates w ctx params
    refine ⟨?_, ?_, ?_⟩
    · rw [hr]
      exact h.occupied
    · rw [hr]
      exact h.once
    · rw [hr, hg]
      exact h.live
  | pushes i g hg hd => exact h.push k hlen hg hd
  | drops i g hg hd => exact h.drop k hlen hg
  | registers ctx requestId hm =>
    refine ⟨h.occupied, h.once, fun key serial token => ?_⟩
    show (serial, token) ∈ w.registry.under key ↔
      ∃ i g, (w.guards ++ [_])[i]? = some g ∧ _
    rw [h.live]
    constructor
    · rintro ⟨i, g, hg, hlive⟩
      have hlt := (List.getElem?_eq_some_iff.mp hg).1
      exact ⟨i, g, by rw [List.getElem?_append_left hlt]; exact hg, hlive⟩
    · rintro ⟨i, g, hg, hlive⟩
      rw [List.getElem?_append] at hg
      split at hg
      · exact ⟨i, g, hg, hlive⟩
      · -- the registration just drawn is not live
        rw [List.mem_singleton.mp (List.mem_of_getElem? hg)] at hlive
        exact absurd hlive.1 (by simp [Registration.isLive])

theorem cancelledRequestId_isName {params : Option Json} {requestId : Json}
    (h : cancelledRequestId params = some requestId) : isName requestId = true :=
  (Option.filter_eq_some_iff.mp h).2

theorem notify_fires (hf : FloatTexts crates) (h : Exact crates w) (ctx : ToolContext)
    (params : Option Json) (u : Token) :
    (notify crates w ctx params).tokens.isCancelled u = true ↔ w.tokens.isCancelled u = true ∨
      ∃ (i : Nat) (g : Registration), w.guards[i]? = some g ∧ g.isLive = true ∧
        g.caller = ctx.caller ∧ cancelledRequestId params = some g.requestId ∧
        u.isUnder g.token = true := by
  unfold notify
  split
  · rename_i hnone
    simp [hnone]
  · rename_i requestId hid
    rw [InFlightRequests.isCancelled_cancel]
    refine or_congr_right ?_
    constructor
    · rintro ⟨key, hkey, ⟨serial, token⟩, hmem, hu⟩
      obtain ⟨i, g, hg, hlive, _, htoken, hown⟩ := (h.live key serial token).mp hmem
      unfold RequestKey.of at hkey
      split at hkey
      · rw [hown, Option.some_inj, RequestKey.mk.injEq] at hkey
        have hsame := toText_injective hf (cancelledRequestId_isName hid) hkey.2.symm
        rw [← htoken] at hu
        exact ⟨i, g, hg, hlive, hkey.1.symm, by rw [hsame, hid], hu⟩
      · cases hkey
    · rintro ⟨i, g, hg, hlive, hcaller, hnamed, hu⟩
      rw [hid] at hnamed
      have htells : ctx.caller.tellsCallersApart = true := by
        rw [← hcaller]
        exact (Bool.and_eq_true_iff.mp hlive).2
      have hmem := (h.live ⟨g.caller, toText crates g.requestId⟩ g.serial g.token).mpr
        ⟨i, g, hg, hlive, rfl, rfl, rfl⟩
      refine ⟨⟨g.caller, toText crates g.requestId⟩, ?_, (g.serial, g.token), hmem, hu⟩
      unfold RequestKey.of
      rw [if_pos htells, hcaller, Option.some.inj hnamed]

theorem notify_untold {ctx : ToolContext} (h : ctx.caller.tellsCallersApart = false)
    (params : Option Json) : notify crates w ctx params = w := by
  unfold notify
  split
  · rfl
  · rename_i requestId _
    have hnone : RequestKey.of crates ctx requestId = none := by
      unfold RequestKey.of
      rw [h]
      rfl
    unfold InFlightRequests.cancel
    rw [hnone]

/-- An event that neither cancels nor drops answers only for what it fires. -/
theorem isolated_of_quiet (hn : ∀ ctx params, e ≠ .notify ctx params) (hd : ∀ i, e ≠ .drop i)
    (hq : (∀ t, e ≠ .fire t) → ∀ u, w'.tokens.isCancelled u = w.tokens.isCancelled u) :
    Isolated ⟨w, e, w'⟩ where
  fires ctx params h := absurd h (hn ctx params)
  untold ctx params h := absurd h (hn ctx params)
  quiet _ := hq
  drops i h := absurd h (hd i)

theorem step_isolated (hf : FloatTexts crates) (k : Known crates w) (h : Exact crates w)
    (hlen : w.guards.length ≤ 2 ^ 64) (hs : step crates w e = some w') : Isolated ⟨w, e, w'⟩ := by
  cases step_moves hs with
  | makes parent hp =>
    exact isolated_of_quiet (fun _ _ h => nomatch h) (fun _ h => nomatch h) fun _ _ => rfl
  | fires t =>
    exact isolated_of_quiet (fun _ _ h => nomatch h) (fun _ h => nomatch h)
      fun hn => absurd rfl (hn t)
  | registers ctx requestId hm =>
    exact isolated_of_quiet (fun _ _ h => nomatch h) (fun _ h => nomatch h) fun _ _ => rfl
  | pushes i g hg hd =>
    exact isolated_of_quiet (fun _ _ h => nomatch h) (fun _ h => nomatch h) fun _ _ => rfl
  | notifies ctx params =>
    refine ⟨fun ctx' params' heq u => ?_, fun ctx' params' heq ht => ?_,
      fun hn => absurd rfl (hn ctx params), fun i h => (nomatch h)⟩
    · obtain ⟨rfl, rfl⟩ := Event.notify.inj heq
      exact notify_fires hf h ctx params u
    · obtain ⟨rfl, rfl⟩ := Event.notify.inj heq
      exact notify_untold ht params
  | drops i g hg hd =>
    refine ⟨fun _ _ h => (nomatch h), fun _ _ h => (nomatch h), fun _ _ _ => rfl,
      fun i' heq j hj => ?_⟩
    obtain rfl := Event.drop.inj heq
    have hguard : (w.drop i g).guards[j]? = w.guards[j]? :=
      List.getElem?_set_ne (fun hij => hj hij.symm)
    refine ⟨hguard, fun g' hg' key token => ?_⟩
    rw [k.mem_under_drop hg, and_iff_left]
    rintro ⟨_, _, hserial⟩
    exact hj (k.apart hlen hg' hg hserial)

theorem step_length (hs : step crates w e = some w') : w.guards.length ≤ w'.guards.length := by
  cases step_moves hs with
  | makes parent hp => exact Nat.le_refl _
  | fires t => exact Nat.le_refl _
  | notifies ctx params =>
    rw [(@notify_frame crates w ctx params).2.1]
  | pushes i g hg hd => exact Nat.le_of_eq List.length_set.symm
  | drops i g hg hd => exact Nat.le_of_eq List.length_set.symm
  | registers ctx requestId hm =>
    show w.guards.length ≤ (w.guards ++ [_]).length
    rw [List.length_append]
    exact Nat.le_add_right _ _

theorem empty_guards (i : Nat) : empty.guards[i]? = none := rfl

theorem empty_under (key : RequestKey) : empty.registry.under key = [] := by
  show ((∅ : AList fun _ : RequestKey => List (UInt64 × Token)).lookup key).getD [] = []
  rw [AList.lookup_empty]
  rfl

theorem empty_known (crates : Crates) : empty.Known crates := by
  have none (i : Nat) (g : Registration) : empty.guards[i]? ≠ some g := by
    rw [empty_guards]
    nofun
  exact ⟨fun t ht => absurd ht List.not_mem_nil, rfl, fun i g hg => absurd hg (none i g),
    fun i g hg => absurd hg (none i g), fun i g hg => absurd hg (none i g),
    fun i _ g _ hg => absurd hg (none i g)⟩

theorem empty_exact (crates : Crates) : empty.Exact crates := by
  refine ⟨fun key => ?_, fun key => ?_, fun key serial token => ?_⟩
  · show (∅ : AList fun _ : RequestKey => List (UInt64 × Token)).lookup key ≠ some []
    rw [AList.lookup_empty]
    nofun
  · rw [empty_under]
    exact List.nodup_nil
  · rw [empty_under]
    refine iff_of_false List.not_mem_nil ?_
    rintro ⟨i, g, hg, _⟩
    rw [empty_guards] at hg
    cases hg

end Serving

/-- Over any interleaving of requests served and cancelled: a cancellation reaches the requests of
its own caller under its id, and what was made under their tokens; the table holds the live
registrations and nothing else. The counter of serials has not come round. -/
theorem cancellation_isolated {crates : Crates} (hf : FloatTexts crates) {w₀ w : Serving}
    {tr : List (Taken Serving Serving.Event)} (hi : (inFlight crates).init w₀)
    (hr : (inFlight crates).Run w₀ tr w) (hlen : w.guards.length ≤ 2 ^ 64) :
    (∀ x ∈ tr, Isolated x ∧ x.target.Exact crates) ∧
    ∀ (i j : Nat) (g h : Registration), w.guards[i]? = some g → w.guards[j]? = some h →
      g.token = h.token → i = j := by
  have kept : (w.Known crates ∧ w.Exact crates) ∧ ∀ x ∈ tr, Isolated x ∧ x.target.Exact crates := by
    induction hr with
    | start =>
      have hempty : w₀ = .empty := hi
      rw [hempty]
      refine ⟨⟨Serving.empty_known crates, Serving.empty_exact crates⟩, fun x hx => ?_⟩
      exact absurd hx List.not_mem_nil
    | @next w w' tr e before hs ih =>
      have hle := Nat.le_trans (Serving.step_length hs) hlen
      obtain ⟨⟨hk, he⟩, earlier⟩ := ih hle
      have exact' := he.step hk hle hs
      refine ⟨⟨hk.step hs, exact'⟩, fun x hx => ?_⟩
      rcases List.mem_append.mp hx with hx | hx
      · exact earlier x hx
      · rw [List.mem_singleton.mp hx]
        exact ⟨Serving.step_isolated hf hk he hle hs, exact'⟩
  exact ⟨kept.2, kept.1.1.single⟩

section Runs

/-- A caller in a session of its own, whose transport made it the token. -/
def inSession (id : String) (token : Token) : ToolContext :=
  ⟨⟨none, none⟩, some ⟨none, none, .session id⟩, token⟩

def named (n : UInt64) : Option Json := some (.object [("requestId", .number (.posInt n))])

/-- Two clients count their ids from one, and the first cancels its request. -/
def twoClients : List Serving.Event :=
  [.token none, .token none, .register (inSession "a" ⟨[0]⟩) (.number (.posInt 1)),
    .register (inSession "b" ⟨[1]⟩) (.number (.posInt 1)), .push 0, .push 1,
    .notify (inSession "a" ⟨[0]⟩) (named 1), .drop 0]

theorem cancellation_isolated_clients : ∃ w tr, (inFlight plainCrates).Run .empty tr w ∧
    (w.guards.map fun g => (g.stage, w.tokens.isCancelled g.token)) =
      [(.dropped, true), (.held, false)] ∧
    (∀ x ∈ tr, Isolated x ∧ x.target.Exact plainCrates) := by
  have hrun : (exec (Serving.step plainCrates) .empty twoClients).map (fun w =>
      w.guards.map fun g => (g.stage, w.tokens.isCancelled g.token)) =
      some [(.dropped, true), (.held, false)] := by decide +kernel
  obtain ⟨w, hw, hguards⟩ := Option.map_eq_some_iff.mp hrun
  obtain ⟨tr, hr⟩ := Lts.Run.exec (M := inFlight plainCrates) (I := fun _ => True)
    (fun _ _ _ _ hs => ⟨hs, trivial⟩) twoClients trivial hw (.start _)
  have hlen : w.guards.length = 2 := by simpa using congrArg List.length hguards
  exact ⟨w, _, hr, hguards,
    (cancellation_isolated bitsText_floatTexts rfl hr (by rw [hlen]; decide)).1⟩

/-- A tool dispatches a request of its own under its token. -/
def nestedCall : List Serving.Event :=
  [.token none, .register (inSession "a" ⟨[0]⟩) (.number (.posInt 1)), .push 0,
    .register (inSession "a" ⟨[1, 0]⟩) (.number (.posInt 2)), .push 1]

/-- A live registration under another id is cancelled too, when it descends from the one named. -/
theorem cancellation_reaches_nested : ∃ w w' tr, (inFlight plainCrates).Run .empty tr w ∧
    (inFlight plainCrates).step w (.notify (inSession "a" ⟨[0]⟩) (named 1)) w' ∧
    ∃ g, w.guards[1]? = some g ∧ g.isLive = true ∧
      cancelledRequestId (named 1) = some (.number (.posInt 1)) ∧
      g.requestId = .number (.posInt 2) ∧ w.tokens.isCancelled g.token = false ∧
      w'.tokens.isCancelled g.token = true := by
  have hrun : (exec (Serving.step plainCrates) .empty nestedCall).bind (fun w =>
      (Serving.step plainCrates w (.notify (inSession "a" ⟨[0]⟩) (named 1))).bind fun w' =>
      w.guards[1]?.map fun g => (g.isLive, g.requestId, w.tokens.isCancelled g.token,
        w'.tokens.isCancelled g.token)) =
      some (true, .number (.posInt 2), false, true) := by decide +kernel
  obtain ⟨w, hw, hrest⟩ := Option.bind_eq_some_iff.mp hrun
  obtain ⟨w', hw', hrest⟩ := Option.bind_eq_some_iff.mp hrest
  obtain ⟨g, hg, hfacts⟩ := Option.map_eq_some_iff.mp hrest
  obtain ⟨hlive, hfacts⟩ := Prod.mk.inj hfacts
  obtain ⟨hid, hfacts⟩ := Prod.mk.inj hfacts
  obtain ⟨hbefore, hafter⟩ := Prod.mk.inj hfacts
  obtain ⟨tr, hr⟩ := Lts.Run.exec (M := inFlight plainCrates) (I := fun _ => True)
    (fun _ _ _ _ hs => ⟨hs, trivial⟩) nestedCall trivial hw (.start _)
  exact ⟨w, w', _, hr, hw', g, hg, hlive, rfl, hid, hbefore, hafter⟩

end Runs

end Tronc.Mcp
