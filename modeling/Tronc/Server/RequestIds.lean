import Tronc.Library.Slices
import Tronc.Server.RequestLog

namespace Tronc.Server

open Transition
open Mcp (Crates HeaderMap HeaderValue)

theorem hexDigit_usable {d : Nat} (h : d < 16) :
    d.digitChar.isAlphanum = true ∧ d.digitChar ≠ '-' := by
  have all : ∀ m : Fin 16, m.val.digitChar.isAlphanum = true ∧ m.val.digitChar ≠ '-' := by decide
  exact all ⟨d, h⟩

theorem mint_toList (instanceId sequence : UInt64) : (mint instanceId sequence).toList =
    Hex.padded 16 instanceId.toNat ++ '-' :: Hex.digits sequence.toNat := String.toList_ofList

theorem ascii_of_usable {id : String} (h : isUsableRequestId id = true) :
    ∀ c ∈ id.toList, 32 < c.toNat ∧ c.toNat < 127 := by
  intro c hc
  have all := (Bool.and_eq_true_iff.mp h).2
  have hchar := List.all_eq_true.mp all c hc
  have word (hw : c.isAlphanum = true) : 32 < c.toNat ∧ c.toNat < 127 := by
    unfold Char.isAlphanum Char.isAlpha Char.isUpper Char.isLower Char.isDigit at hw
    simp only [Bool.or_eq_true, Bool.and_eq_true, decide_eq_true_eq, UInt32.le_iff_toNat_le,
      ge_iff_le] at hw
    change ((65 ≤ c.toNat ∧ c.toNat ≤ 90) ∨ (97 ≤ c.toNat ∧ c.toNat ≤ 122)) ∨
      (48 ≤ c.toNat ∧ c.toNat ≤ 57) at hw
    omega
  simp only [Bool.or_eq_true, beq_iff_eq] at hchar
  rcases hchar with (((hw | rfl) | rfl) | rfl) | rfl
  · exact word hw
  all_goals decide

theorem headerValueOf_usable {id : String} (h : isUsableRequestId id = true) :
    headerValueOf id = some (.ofString id) := by
  have ascii := ascii_of_usable h
  unfold headerValueOf
  rw [if_pos]
  rw [Text.utf8_ascii fun c hc => by have := ascii c hc; omega, List.all_map, List.all_eq_true]
  intro c hc
  have visible := ascii c hc
  have byte : (UInt8.ofNat c.toNat).toNat = c.toNat := by
    rw [UInt8.toNat_ofNat']
    omega
  have low : (32 : UInt8) ≤ .ofNat c.toNat := by
    rw [UInt8.le_iff_toNat_le, byte]
    exact Nat.le_of_lt visible.1
  have high : UInt8.ofNat c.toNat ≠ 127 := by
    intro same
    have value := congrArg UInt8.toNat same
    rw [byte] at value
    have : (127 : UInt8).toNat = 127 := rfl
    omega
  simp [low, high]

theorem mint_chars {instanceId sequence : UInt64} {c : Char}
    (h : c ∈ (mint instanceId sequence).toList) : (∃ d < 16, c = d.digitChar) ∨ c = '-' := by
  rw [mint_toList] at h
  rcases List.mem_append.mp h with high | low
  · exact .inl (Hex.mem_padded high)
  · rcases List.mem_cons.mp low with dash | low
    · exact .inr dash
    · exact .inl (Hex.mem_digits low)

/-- An id that is minted is one that another service would adopt. -/
theorem mint_usable (instanceId sequence : UInt64) :
    isUsableRequestId (mint instanceId sequence) = true := by
  have width : (Hex.padded 16 instanceId.toNat).length = 16 :=
    Hex.padded_length (by decide) instanceId.toNat_lt
  have short : (Hex.digits sequence.toNat).length ≤ 16 :=
    Hex.digits_length (by decide) sequence.toNat_lt
  have chars {c : Char} (hc : c ∈ (mint instanceId sequence).toList) :
      (c.isAlphanum || c == '-' || c == '_' || c == '.' || c == ':') = true := by
    rcases mint_chars hc with ⟨d, hd, rfl⟩ | rfl
    · rw [(hexDigit_usable hd).1]
      rfl
    · rfl
  have nonempty : mint instanceId sequence ≠ "" := by
    intro empty
    have none := congrArg String.toList empty
    rw [mint_toList] at none
    have lengths := congrArg List.length none
    rw [List.length_append, width] at lengths
    simp at lengths
  have ascii : ∀ c ∈ Hex.padded 16 instanceId.toNat ++ '-' :: Hex.digits sequence.toNat,
      c.toNat ≤ 127 := by
    intro c hc
    rw [← mint_toList] at hc
    rcases mint_chars hc with ⟨d, hd, rfl⟩ | rfl
    · have all : ∀ m : Fin 16, m.val.digitChar.toNat ≤ 127 := by decide
      exact all ⟨d, hd⟩
    · decide
  have size : (mint instanceId sequence).utf8ByteSize ≤ MAX_REQUEST_ID_LEN := by
    unfold mint
    rw [Slices.utf8ByteSize_ofList, Slices.length_encode_eq.mpr ascii, List.length_append,
      List.length_cons, width]
    exact Nat.le_trans (Nat.add_le_add_left (Nat.succ_le_succ short) 16) (by decide)
  unfold isUsableRequestId
  rw [Bool.and_eq_true, Bool.and_eq_true]
  exact ⟨⟨bne_iff_ne.mpr nonempty, decide_eq_true size⟩, List.all_eq_true.mpr fun c => chars⟩

/-- Ids that are minted differ, over all processes and all that each of them mints. -/
theorem mint_injective {instanceId sequence instanceId' sequence' : UInt64}
    (h : mint instanceId sequence = mint instanceId' sequence') :
    instanceId = instanceId' ∧ sequence = sequence' := by
  have texts := congrArg String.toList h
  rw [mint_toList, mint_toList] at texts
  have widths : (Hex.padded 16 instanceId.toNat).length = (Hex.padded 16 instanceId'.toNat).length := by
    rw [Hex.padded_length (by decide) instanceId.toNat_lt,
      Hex.padded_length (by decide) instanceId'.toNat_lt]
  obtain ⟨high, low⟩ := List.append_inj texts widths
  have first := congrArg Hex.value high
  rw [Hex.value_padded, Hex.value_padded] at first
  have second := congrArg Hex.value (List.cons.inj low).2
  rw [Hex.value_digits, Hex.value_digits] at second
  exact ⟨UInt64.toNat_inj.mp first, UInt64.toNat_inj.mp second⟩

/-- Whatever id a request brings, the one it goes under may be adopted by the services it calls. -/
theorem requestIdOf_usable (instanceId sequence : UInt64) (headers : HeaderMap) :
    isUsableRequestId (requestIdOf (mint instanceId sequence) headers) = true := by
  unfold requestIdOf
  cases hid : ((getHeader headers REQUEST_ID_HEADER).bind HeaderValue.toStr).filter
      isUsableRequestId with
  | none => exact mint_usable instanceId sequence
  | some id => exact (Option.filter_eq_some_iff.mp hid).2

namespace Guarded

variable {crates : Crates} {s t : Guarded} {e : Event} {i j : RequestNo}

/-- A request's id, as its lines and its answer have it. -/
structure Named (s : Guarded) (i : RequestNo) (stage : Stage) (r : InFlight) : Prop where
  usable : isUsableRequestId r.requestId = true
  open_ : ∀ r', stage.open? = some r' → r' = r
  running : ∀ minted headers r', stage = .running minted headers r' →
    r.requestId = requestIdOf minted headers
  lines : ∀ entry ∈ s.log, entry.1 = i → ∃ kind, entry.2 = r.line kind
  answer : ∀ response, s.answers i = some response →
    getHeader response.headers REQUEST_ID_HEADER = some (.ofString r.requestId)

/-- Where a request is known, it is known by the id it arrived with. -/
def Known (tr : List (Taken Guarded Event)) (s : Guarded) (i : RequestNo) : Prop :=
  match s.requests i with
  | none => (∀ entry ∈ s.log, entry.1 ≠ i) ∧ s.answers i = none
  | some stage => ∃ r, (∀ x ∈ tr, ∀ r', Arrives x i r' → r' = r) ∧ Named s i stage r

theorem guardRequests_id {minted : String} {headers : HeaderMap} {outcome : Option Response}
    (h : isUsableRequestId (requestIdOf minted headers) = true) :
    getHeader (guardRequests crates minted headers outcome).headers REQUEST_ID_HEADER =
      some (.ofString (requestIdOf minted headers)) := by
  unfold guardRequests
  dsimp only
  rw [headerValueOf_usable h]
  exact getHeader_insertHeader

theorem goto_log (after : Stage) (lines : List Line) {entry : RequestNo × Line}
    (h : entry ∈ (s.goto i after lines).log) :
    entry ∈ s.log ∨ entry.1 = i ∧ entry.2 ∈ lines := by
  rcases List.mem_append.mp h with old | new
  · exact .inl old
  · obtain ⟨line, hline, rfl⟩ := List.mem_map.mp new
    exact .inr ⟨rfl, hline⟩

/-- A step that is another request's. -/
theorem Known.frame {tr : List (Taken Guarded Event)} {x : Taken Guarded Event}
    (h : Known tr s i) (hr : t.requests i = s.requests i)
    (hlog : ∀ entry ∈ t.log, entry.1 = i → entry ∈ s.log) (ha : t.answers i = s.answers i)
    (hx : ∀ r, ¬ Arrives x i r) : Known (tr ++ [x]) t i := by
  unfold Known at h ⊢
  rw [hr]
  cases hs : s.requests i with
  | none =>
    rw [hs] at h
    refine ⟨fun entry hentry mine => ?_, ha.trans h.2⟩
    exact h.1 entry (hlog entry hentry mine) mine
  | some stage =>
    rw [hs] at h
    obtain ⟨r, same, named⟩ := h
    refine ⟨r, fun y hy r' harrives => ?_, named.usable, named.open_, named.running, ?_, ?_⟩
    · rcases List.mem_append.mp hy with hy | hy
      · exact same y hy r' harrives
      · rw [List.mem_singleton.mp hy] at harrives
        exact absurd harrives (hx r')
    · intro entry hentry mine
      exact named.lines entry (hlog entry hentry mine) mine
    · rw [ha]
      exact named.answer

theorem Known.step {tr : List (Taken Guarded Event)} (hl : ∀ i, Logged crates tr s i)
    (h : ∀ i, Known tr s i) (hs : s.step crates e = some t) (j : RequestNo) :
    Known (tr ++ [⟨s, e, t⟩]) t j := by
  have others {i : RequestNo} (hj : j ≠ i) (after : Stage) (lines : List Line) :
      ∀ entry ∈ (s.goto i after lines).log, entry.1 = j → entry ∈ s.log := by
    intro entry hentry mine
    rcases goto_log after lines hentry with old | ⟨theirs, _⟩
    · exact old
    · exact absurd (mine.symm.trans theirs) hj
  cases step_moves (Logged.unfinished hl) hs with
  | ticks now hle =>
    refine (h j).frame rfl (fun entry hentry _ => hentry) rfl ?_
    rintro r ⟨_, _, _, he, _⟩
    cases he
  | arrives i method path headers hn =>
    by_cases hj : j = i
    · subst hj
      have before := h j
      have unseen := hl j
      unfold Known at before ⊢
      unfold Logged at unseen
      rw [hn] at before unseen
      dsimp only [goto]
      rw [Function.update_self]
      refine ⟨s.start method path headers, fun y hy r' harrives => ?_,
        requestIdOf_usable s.instanceId s.sequence headers, ?_, ?_, ?_, ?_⟩
      · rcases List.mem_append.mp hy with hy | hy
        · exact absurd harrives (unseen.2 y hy r')
        · rw [List.mem_singleton.mp hy] at harrives
          obtain ⟨_, _, _, he, hr'⟩ := harrives
          obtain ⟨_, rfl, rfl, rfl⟩ := Event.arrive.inj he
          exact hr'
      · intro r' hopen
        exact (Option.some.inj hopen).symm
      · intro minted headers' r' hstage
        obtain ⟨rfl, rfl, _⟩ := Stage.running.inj hstage
        rfl
      · intro entry hentry mine
        rcases List.mem_append.mp hentry with old | new
        · exact absurd mine (before.1 entry old)
        · cases new
      · intro response hresponse
        rw [before.2] at hresponse
        cases hresponse
    · refine (h j).frame (Function.update_of_ne hj _ _) (others hj (.running
        (mint s.instanceId s.sequence) headers (s.start method path headers)) []) rfl ?_
      rintro r ⟨_, _, _, he, _⟩
      obtain ⟨rfl, _⟩ := Event.arrive.inj he
      exact hj rfl
  | answers i minted headers r outcome after lines _ hc hlines hafter hmoves ht =>
    have noArrival : ∀ r, ¬ Arrives ⟨s, .finish i outcome, t⟩ j r := by
      rintro r ⟨_, _, _, he, _⟩
      cases he
    subst ht
    by_cases hj : j = i
    · subst hj
      have before := h j
      unfold Known at before ⊢
      rw [hc] at before
      dsimp only [goto]
      rw [Function.update_self]
      obtain ⟨r', same, named⟩ := before
      obtain rfl := named.open_ r rfl
      have id := named.running minted headers r rfl
      refine ⟨r, fun y hy r' harrives => ?_, named.usable, ?_, ?_, ?_, ?_⟩
      · rcases List.mem_append.mp hy with hy | hy
        · exact same y hy r' harrives
        · rw [List.mem_singleton.mp hy] at harrives
          exact absurd harrives (noArrival r')
      · intro r' hopen
        exact named.open_ r' (hmoves.before hopen)
      · intro minted' headers' r' hstage
        exact absurd hstage (hafter minted' headers' r')
      · intro entry hentry mine
        rcases goto_log after lines hentry with old | ⟨_, new⟩
        · exact named.lines entry old mine
        · exact hlines entry.2 new
      · intro response hresponse
        dsimp only at hresponse
        rw [Function.update_self] at hresponse
        rw [← Option.some.inj hresponse, id]
        exact guardRequests_id (id ▸ named.usable)
    · exact (h j).frame (Function.update_of_ne hj _ _) (others hj after lines)
        (Function.update_of_ne hj _ _) noArrival
  | goes e i stage after lines hne hc hlines hafter hmoves =>
    have noArrival : ∀ r, ¬ Arrives ⟨s, e, s.goto i after lines⟩ j r := by
      rintro r ⟨method, path, headers, he, _⟩
      exact hne j method path headers he
    by_cases hj : j = i
    · subst hj
      have before := h j
      unfold Known at before ⊢
      rw [hc] at before
      dsimp only [goto]
      rw [Function.update_self]
      obtain ⟨r, same, named⟩ := before
      refine ⟨r, fun y hy r' harrives => ?_, named.usable, ?_, ?_, ?_, named.answer⟩
      · rcases List.mem_append.mp hy with hy | hy
        · exact same y hy r' harrives
        · rw [List.mem_singleton.mp hy] at harrives
          exact absurd harrives (noArrival r')
      · intro r' hopen
        exact named.open_ r' (hmoves.before hopen)
      · intro minted' headers' r' hstage
        exact absurd hstage (hafter minted' headers' r')
      · intro entry hentry mine
        rcases goto_log after lines hentry with old | ⟨_, new⟩
        · exact named.lines entry old mine
        · obtain ⟨r', kind, hopen, hline⟩ := hlines entry.2 new
          rw [named.open_ r' hopen] at hline
          exact ⟨kind, hline⟩
    · exact (h j).frame (Function.update_of_ne hj _ _) (others hj after lines) rfl noArrival

theorem Known.run {tr : List (Taken Guarded Event)} (h : (guarded crates).Run s tr t)
    (h₀ : (guarded crates).init s) (i : RequestNo) : Known tr t i := by
  induction h generalizing i with
  | start =>
    obtain ⟨instanceId, raw, clock, rfl⟩ := h₀
    refine ⟨?_, rfl⟩
    intro entry hentry
    cases hentry
  | next before step ih => exact Known.step (Logged.run before h₀) ih step i

/-- A request's answer and all its lines go under one id, one the services it calls would adopt, with
the method and the path it came with. -/
theorem one_id_per_request {tr : List (Taken Guarded Event)} {x : Taken Guarded Event}
    {r : InFlight} (h₀ : (guarded crates).init s) (h : (guarded crates).Run s tr t) (hx : x ∈ tr)
    (ha : Arrives x i r) : isUsableRequestId r.requestId = true ∧
      (∀ entry ∈ t.log, entry.1 = i → ∃ kind, entry.2 = r.line kind) ∧
      ∀ response, t.answers i = some response →
        getHeader response.headers REQUEST_ID_HEADER = some (.ofString r.requestId) := by
  have logged := Logged.run h h₀ i
  have known := Known.run h h₀ i
  unfold Logged at logged
  unfold Known at known
  cases hs : t.requests i with
  | none =>
    rw [hs] at logged
    exact absurd ha (logged.2 x hx r)
  | some stage =>
    rw [hs] at known
    obtain ⟨r', same, named⟩ := known
    rw [same x hx r ha]
    exact ⟨named.usable, named.lines, named.answer⟩

theorem one_id_per_request_mixed : ∃ tr t,
    (guarded Mcp.plainCrates).Run (fresh 7 none 0) tr t ∧ tr.map Taken.label = mixed ∧
      ∀ x ∈ tr, ∀ i r, Arrives x i r → isUsableRequestId r.requestId = true ∧
        (∀ entry ∈ t.log, entry.1 = i → ∃ kind, entry.2 = r.line kind) ∧
        ∀ response, t.answers i = some response →
          getHeader response.headers REQUEST_ID_HEADER = some (.ofString r.requestId) := by
  have runs : (exec (fun s => s.step Mcp.plainCrates) (fresh 7 none 0) mixed).isSome := by
    decide +kernel
  obtain ⟨t, ht⟩ := Option.isSome_iff_exists.mp runs
  obtain ⟨tr, hrun, hlabels⟩ := Lts.Run.labels (M := guarded Mcp.plainCrates)
    (fun s a t (hs : s.step Mcp.plainCrates a = some t) => hs) mixed ht (.start _)
  exact ⟨tr, t, hrun, hlabels, fun x hx i r ha =>
    one_id_per_request ⟨7, none, 0, rfl⟩ hrun hx ha⟩

/-- A request that comes without an id to adopt is given one here. -/
def Mints (x : Taken Guarded Event) (id : String) : Prop :=
  ∃ i method path headers, x.label = .arrive i method path headers ∧ adopts headers = false ∧
    id = requestIdOf (mint x.source.instanceId x.source.sequence) headers

theorem Mints.id {x : Taken Guarded Event} {id : String} (h : Mints x id) :
    id = mint x.source.instanceId x.source.sequence := by
  obtain ⟨i, method, path, headers, _, hadopts, rfl⟩ := h
  unfold adopts at hadopts
  unfold requestIdOf
  rw [Option.isSome_eq_false_iff, Option.isNone_iff_eq_none] at hadopts
  rw [hadopts]
  rfl

theorem sequence_step {tr : List (Taken Guarded Event)} (hl : ∀ i, Logged crates tr s i)
    (hs : s.step crates e = some t) : t.instanceId = s.instanceId ∧
      (t.sequence = s.sequence ∧ (∀ id, ¬ Mints ⟨s, e, t⟩ id) ∨ t.sequence = s.sequence + 1) := by
  cases step_moves (Logged.unfinished hl) hs with
  | ticks now hle =>
    refine ⟨rfl, .inl ⟨rfl, ?_⟩⟩
    rintro id ⟨_, _, _, _, he, _⟩
    cases he
  | arrives i method path headers hn =>
    refine ⟨rfl, ?_⟩
    cases ha : adopts headers with
    | true =>
      refine .inl ⟨rfl, ?_⟩
      rintro id ⟨_, _, _, _, he, hadopts, _⟩
      obtain ⟨_, _, _, rfl⟩ := Event.arrive.inj he
      rw [ha] at hadopts
      cases hadopts
    | false => exact .inr rfl
  | answers i minted headers r outcome after lines _ hc _ _ hmoves ht =>
    subst ht
    refine ⟨rfl, .inl ⟨rfl, ?_⟩⟩
    rintro id ⟨_, _, _, _, he, _⟩
    cases he
  | goes e i before after lines hne hc _ _ hmoves =>
    refine ⟨rfl, .inl ⟨rfl, ?_⟩⟩
    rintro id ⟨i, method, path, headers, he, _⟩
    exact hne i method path headers he

/-- The number a process mints with goes up with every id, as long as it does not come round. -/
structure Counted (tr : List (Taken Guarded Event)) (s t : Guarded) : Prop where
  process : t.instanceId = s.instanceId
  within : t.sequence.toNat ≤ tr.length
  behind : ∀ x ∈ tr, ∀ id, Mints x id → x.source.instanceId = s.instanceId ∧
    x.source.sequence.toNat < t.sequence.toNat
  apart : tr.Pairwise fun x y => ∀ id, Mints x id → ¬ Mints y id

theorem Counted.run {tr : List (Taken Guarded Event)} (h : (guarded crates).Run s tr t)
    (h₀ : (guarded crates).init s) (hlen : tr.length < 2 ^ 64) : Counted tr s t := by
  induction h with
  | start =>
    obtain ⟨instanceId, raw, clock, rfl⟩ := h₀
    exact ⟨rfl, Nat.le_refl _, nofun, .nil⟩
  | @next t u tr e before step ih =>
    rw [List.length_append, List.length_singleton] at hlen
    have counted := ih (by omega)
    have moved := sequence_step (Logged.run before h₀) step
    have next : (t.sequence + 1).toNat = t.sequence.toNat + 1 := by
      have one : (1 : UInt64).toNat = 1 := rfl
      have within := counted.within
      rw [UInt64.toNat_add, one]
      omega
    have within := counted.within
    have grows : t.sequence.toNat ≤ u.sequence.toNat ∧ u.sequence.toNat ≤ tr.length + 1 ∧
        ∀ id, Mints ⟨t, e, u⟩ id → t.sequence.toNat < u.sequence.toNat := by
      rcases moved.2 with ⟨same, none⟩ | one
      · rw [same]
        exact ⟨Nat.le_refl _, by omega, fun id mints => absurd mints (none id)⟩
      · rw [one, next]
        exact ⟨by omega, by omega, fun _ _ => by omega⟩
    refine ⟨moved.1.trans counted.process, ?_, ?_, ?_⟩
    · rw [List.length_append, List.length_singleton]
      exact grows.2.1
    · intro x hx id mints
      rcases List.mem_append.mp hx with hx | hx
      · have old := counted.behind x hx id mints
        exact ⟨old.1, Nat.lt_of_lt_of_le old.2 grows.1⟩
      · rw [List.mem_singleton.mp hx] at mints ⊢
        exact ⟨counted.process, grows.2.2 id mints⟩
    · refine List.pairwise_append.mpr ⟨counted.apart, List.pairwise_singleton _ _, ?_⟩
      intro x hx y hy id mintsx mintsy
      rw [List.mem_singleton.mp hy] at mintsy
      have behind := (counted.behind x hx id mintsx).2
      have same := (mint_injective (mintsx.id.symm.trans mintsy.id)).2
      rw [same] at behind
      exact absurd behind (Nat.lt_irrefl _)

/-- No process gives two of its requests one id, as long as the number it mints with has not come
round. -/
theorem minted_once {tr : List (Taken Guarded Event)} (h₀ : (guarded crates).init s)
    (h : (guarded crates).Run s tr t) (hlen : tr.length < 2 ^ 64) :
    tr.Pairwise fun x y => ∀ id, Mints x id → ¬ Mints y id := (Counted.run h h₀ hlen).apart

theorem minted_once_mixed : ∃ tr t,
    (guarded Mcp.plainCrates).Run (fresh 7 none 0) tr t ∧ tr.map Taken.label = mixed ∧
      tr.Pairwise fun x y => ∀ id, Mints x id → ¬ Mints y id := by
  have runs : (exec (fun s => s.step Mcp.plainCrates) (fresh 7 none 0) mixed).isSome := by
    decide +kernel
  obtain ⟨t, ht⟩ := Option.isSome_iff_exists.mp runs
  obtain ⟨tr, hrun, hlabels⟩ := Lts.Run.labels (M := guarded Mcp.plainCrates)
    (fun s a t (hs : s.step Mcp.plainCrates a = some t) => hs) mixed ht (.start _)
  have short : tr.length < 2 ^ 64 := by
    have lengths := congrArg List.length hlabels
    rw [List.length_map] at lengths
    rw [lengths]
    decide
  exact ⟨tr, t, hrun, hlabels, minted_once ⟨7, none, 0, rfl⟩ hrun short⟩

end Guarded

end Tronc.Server
