import Tronc.Library.SlidingWindow
import Tronc.Notifications.Digest

namespace Tronc.Notifications

open Transition SlidingWindow

/-- The events of a batch that have the key. -/
def withKey (key : String) (batch : List ErrorEvent) : List ErrorEvent :=
  batch.filter fun event => event.dedupKey = key

theorem withKey_snoc (key : String) (batch : List ErrorEvent) (event : ErrorEvent) :
    withKey key (batch ++ [event]) =
      withKey key batch ++ if event.dedupKey = key then [event] else [] := by
  unfold withKey
  rw [List.filter_append]
  by_cases hkey : event.dedupKey = key
  · simp [hkey]
  · simp [hkey]

theorem lookup_addEvent (grouped : Grouped) (event : ErrorEvent) (key : String) :
    (addEvent grouped event).lookup key =
      if event.dedupKey = key then
        some ((grouped.lookup key).elim (event, 1) fun found => (found.1, found.2 + 1))
      else grouped.lookup key := by
  unfold addEvent
  split
  · rename_i first count hfound
    split
    · rename_i hkey
      subst hkey
      rw [AList.lookup_insert, hfound]
      rfl
    · rename_i hkey
      exact AList.lookup_insert_ne (Ne.symm hkey)
  · rename_i hnone
    split
    · rename_i hkey
      subst hkey
      rw [AList.lookup_insert, hnone]
      rfl
    · rename_i hkey
      exact AList.lookup_insert_ne (Ne.symm hkey)

/-- A key's group has the first event with it, and their number. -/
theorem lookup_group (batch : List ErrorEvent) (key : String) : (group batch).lookup key =
    (withKey key batch).head?.map fun first => (first, (withKey key batch).length) := by
  induction batch using List.reverseRecOn with
  | nil => rfl
  | append_singleton batch event ih =>
    have hstep : group (batch ++ [event]) = addEvent (group batch) event := by
      unfold group
      rw [List.foldl_append]
      rfl
    rw [hstep, lookup_addEvent, ih, withKey_snoc]
    by_cases hkey : event.dedupKey = key
    · rw [if_pos hkey, if_pos hkey]
      cases withKey key batch with
      | nil => rfl
      | cons first rest => simp
    · rw [if_neg hkey, if_neg hkey, List.append_nil]

theorem entry_of_group {batch : List ErrorEvent} {e : Entry} (h : e ∈ (group batch).toEntries) :
    e.event.dedupKey = e.key ∧ e.count = (withKey e.key batch).length := by
  obtain ⟨pair, hpair, rfl⟩ := List.mem_map.mp h
  have hlookup : (group batch).lookup pair.1 = some pair.2 := AList.mem_entries_iff.mp hpair
  rw [lookup_group] at hlookup
  obtain ⟨first, hfirst, hvalue⟩ := Option.map_eq_some_iff.mp hlookup
  have hmem := List.mem_of_mem_head? hfirst
  rw [← hvalue]
  exact ⟨of_decide_eq_true (List.mem_filter.mp hmem).2, rfl⟩

theorem toEntries_keys (grouped : Grouped) : (grouped.toEntries.map Entry.key).Nodup := by
  have hkeys : grouped.toEntries.map Entry.key = grouped.keys := by
    unfold Grouped.toEntries
    rw [List.map_map]
    rfl
  rw [hkeys]
  exact grouped.keys_nodup

namespace Digester

variable {d d' d₀ : Digester}

/-- What one step does, and when. -/
inductive Moves (d : Digester) : Event → Digester → Prop where
  | rests (batch : List ErrorEvent) (order : List Entry) : order.Perm (group batch).toEntries →
      d.fresh order = [] → Moves d (.dispatch batch order) d
  | holds (batch : List ErrorEvent) (order : List Entry) : order.Perm (group batch).toEntries →
      d.fresh order ≠ [] → d.pruneRecentSends.underRateLimit = false →
      Moves d (.dispatch batch order) d.pruneRecentSends
  | sends (batch : List ErrorEvent) (order : List Entry) : order.Perm (group batch).toEntries →
      d.fresh order ≠ [] → d.pruneRecentSends.underRateLimit = true →
      Moves d (.dispatch batch order) (d.pruneRecentSends.send (d.fresh order))
  | ticks (now : Nat) : d.clock ≤ now → Moves d (.tick now) { d with clock := now }

theorem step_moves {e : Event} (h : d.step e = some d') : Moves d e d' := by
  cases e with
  | dispatch batch order =>
    simp only [step] at h
    split at h
    · rename_i hperm
      obtain rfl := Option.some.inj h
      unfold dispatchBatch
      dsimp only
      split
      · rename_i hnone
        exact .rests batch order hperm hnone
      · rename_i hsome
        split
        · rename_i hroom
          exact .sends batch order hperm hsome hroom
        · rename_i hfull
          exact .holds batch order hperm hsome (Bool.eq_false_iff.mpr hfull)
    · cases h
  | tick now =>
    simp only [step] at h
    split at h
    · rename_i hle
      obtain rfl := Option.some.inj h
      exact .ticks now hle
    · cases h

theorem mem_digests {entries : List Entry} {m : Digest} (h : m ∈ d.digests entries) :
    m.time = d.clock ∧ m.entries = entries ∧
      (m.channel = .slack ∧ d.slack = true ∨ m.channel = .email ∧ d.email = true) := by
  unfold digests at h
  rcases List.mem_append.mp h with h | h
  · split at h
    · rename_i hslack
      rw [List.mem_singleton.mp h]
      exact ⟨rfl, rfl, .inl ⟨rfl, hslack⟩⟩
    · cases h
  · split at h
    · rename_i hemail
      rw [List.mem_singleton.mp h]
      exact ⟨rfl, rfl, .inr ⟨rfl, hemail⟩⟩
    · cases h

theorem lookup_foldl_insert (now : Nat) (entries : List Entry)
    (notified : AList fun _ : String => Nat) (key : String) :
    (entries.foldl (fun notified e => notified.insert e.key now) notified).lookup key =
      if key ∈ entries.map Entry.key then some now else notified.lookup key := by
  induction entries generalizing notified with
  | nil => simp
  | cons e rest ih =>
    rw [List.foldl_cons, ih, List.map_cons]
    by_cases hrest : key ∈ rest.map Entry.key
    · rw [if_pos hrest, if_pos (.tail _ hrest)]
    · rw [if_neg hrest]
      by_cases hkey : key = e.key
      · subst hkey
        rw [AList.lookup_insert, if_pos (.head _)]
      · rw [AList.lookup_insert_ne hkey, if_neg]
        intro hmem
        rcases List.mem_cons.mp hmem with heq | hmem
        · exact hkey heq
        · exact hrest hmem

theorem lookup_markNotified (d : Digester) (entries : List Entry) (key : String) :
    (d.markNotified entries).lookup key =
      if key ∈ entries.map Entry.key then some d.clock else d.lastNotified.lookup key :=
  lookup_foldl_insert d.clock entries d.lastNotified key

/-- What was told of each key, and when. -/
structure Told (d : Digester) : Prop where
  past : ∀ m ∈ d.sent, m.time ≤ d.clock
  latest : ∀ m ∈ d.sent, ∀ key ∈ m.keys, ∃ last, d.lastNotified.lookup key = some last ∧
    m.time ≤ last
  once : ∀ m ∈ d.sent, m.keys.Nodup
  apart : d.sent.Pairwise fun a b => a.channel = b.channel → ∀ key ∈ a.keys, key ∈ b.keys →
    a.time + d.config.dedupWindow ≤ b.time

/-- A key that is due was last told the window ago. -/
theorem Told.due (h : Told d) {m : Digest} (hm : m ∈ d.sent) {key : String} (hkey : key ∈ m.keys)
    (hdue : d.isDue key = true) : m.time + d.config.dedupWindow ≤ d.clock := by
  obtain ⟨last, hlookup, hle⟩ := h.latest m hm key hkey
  have hpast := h.past m hm
  unfold isDue at hdue
  rw [hlookup] at hdue
  have hwindow : d.config.dedupWindow ≤ d.clock - last := of_decide_eq_true hdue
  omega

theorem digests_pairwise {R : Digest → Digest → Prop} (d : Digester) (entries : List Entry)
    (h : ∀ a b : Digest, a.channel ≠ b.channel → R a b) : (d.digests entries).Pairwise R := by
  unfold digests
  cases d.slack with
  | false => cases d.email <;> simp
  | true =>
    cases d.email with
    | false => simp
    | true => simp [h ⟨.slack, d.clock, entries⟩ ⟨.email, d.clock, entries⟩ (by simp)]

theorem Told.send (h : Told d) {entries : List Entry}
    (hdue : ∀ e ∈ entries, d.isDue e.key = true) (hkeys : (entries.map Entry.key).Nodup) :
    Told (d.send entries) := by
  refine ⟨?_, ?_, ?_, ?_⟩
  · intro m hm
    rcases List.mem_append.mp hm with hm | hm
    · exact h.past m hm
    · exact Nat.le_of_eq (mem_digests hm).1
  · intro m hm key hkey
    have hmarked := lookup_markNotified d entries key
    have hpast : m.time ≤ d.clock := by
      rcases List.mem_append.mp hm with hm | hm
      · exact h.past m hm
      · exact Nat.le_of_eq (mem_digests hm).1
    by_cases hnew : key ∈ entries.map Entry.key
    · exact ⟨d.clock, hmarked.trans (if_pos hnew), hpast⟩
    · rcases List.mem_append.mp hm with hm | hm
      · obtain ⟨last, hlookup, hle⟩ := h.latest m hm key hkey
        exact ⟨last, (hmarked.trans (if_neg hnew)).trans hlookup, hle⟩
      · unfold Digest.keys at hkey
        rw [(mem_digests hm).2.1] at hkey
        exact absurd hkey hnew
  · intro m hm
    rcases List.mem_append.mp hm with hm | hm
    · exact h.once m hm
    · unfold Digest.keys
      rw [(mem_digests hm).2.1]
      exact hkeys
  · refine List.pairwise_append.mpr ⟨h.apart, ?_, ?_⟩
    · exact digests_pairwise d entries fun a b hne heq => absurd heq hne
    · intro m hm new hnew _ key hkey hkey'
      obtain ⟨htime, hentries, -⟩ := mem_digests hnew
      unfold Digest.keys at hkey'
      rw [hentries] at hkey'
      obtain ⟨e, he, rfl⟩ := List.mem_map.mp hkey'
      rw [htime]
      exact h.due hm hkey (hdue e he)

theorem fresh_due {order : List Entry} : ∀ e ∈ d.fresh order, d.isDue e.key = true :=
  fun _ he => (List.mem_filter.mp he).2

theorem fresh_keys {batch : List ErrorEvent} {order : List Entry}
    (hperm : order.Perm (group batch).toEntries) : ((d.fresh order).map Entry.key).Nodup := by
  have hkeys := (hperm.map Entry.key).nodup_iff.mpr (toEntries_keys (group batch))
  exact hkeys.sublist (List.filter_sublist.map _)

theorem told_step {e : Event} (h : Told d) (hstep : d.step e = some d') : Told d' := by
  cases step_moves hstep with
  | rests => exact h
  | holds => exact ⟨h.past, h.latest, h.once, h.apart⟩
  | sends batch order hperm =>
    have hpruned : Told d.pruneRecentSends := ⟨h.past, h.latest, h.once, h.apart⟩
    exact hpruned.send fresh_due (fresh_keys hperm)
  | ticks now hle => exact ⟨fun m hm => Nat.le_trans (h.past m hm) hle, h.latest, h.once, h.apart⟩

/-- Whether there is a client for the channel. -/
def has (d : Digester) : Channel → Bool
  | .slack => d.slack
  | .email => d.email

/-- When messages went out on a channel. -/
def timesOf (c : Channel) (sent : List Digest) : List Nat :=
  (sent.filter fun m => m.channel = c).map Digest.time

theorem timesOf_append (c : Channel) (sent more : List Digest) :
    timesOf c (sent ++ more) = timesOf c sent ++ timesOf c more := by
  unfold timesOf
  rw [List.filter_append, List.map_append]

theorem timesOf_digests (d : Digester) (entries : List Entry) (c : Channel) :
    timesOf c (d.digests entries) = if d.has c then [d.clock] else [] := by
  unfold timesOf digests has
  cases c with
  | slack => cases d.slack <;> cases d.email <;> rfl
  | email => cases d.slack <;> cases d.email <;> rfl

/-- The times kept are those of the last minute, and each channel keeps to the limit. -/
structure Limited (d : Digester) : Prop where
  short : d.recentSends.length ≤ d.config.maxMessagesPerMinute.toNat
  served : ∀ m ∈ d.sent, d.has m.channel = true
  kept : ∀ c, d.has c = true →
    recent oneMinute d.clock (timesOf c d.sent) = recent oneMinute d.clock d.recentSends
  window : ∀ c t, (inWindow oneMinute t (timesOf c d.sent)).length ≤
    d.config.maxMessagesPerMinute.toNat

theorem Limited.prune (h : Limited d) : Limited d.pruneRecentSends := by
  refine ⟨?_, h.served, ?_, h.window⟩
  · exact Nat.le_trans (List.length_filter_le _ _) h.short
  · intro c hc
    exact (h.kept c hc).trans (recent_recent d.recentSends (Nat.le_refl d.clock)).symm

/-- The cast to 32 bits changes nothing: no more times are kept than the limit. -/
theorem Limited.room (h : Limited d) (hroom : d.underRateLimit = true) :
    d.recentSends.length < d.config.maxMessagesPerMinute.toNat := by
  have hlt : d.recentSends.length % 2^32 < d.config.maxMessagesPerMinute.toNat :=
    of_decide_eq_true hroom
  have hmax := d.config.maxMessagesPerMinute.toNat_lt
  rw [Nat.mod_eq_of_lt (by have := h.short; omega)] at hlt
  exact hlt

theorem Limited.send (h : Limited d) (hroom : d.underRateLimit = true) (entries : List Entry) :
    Limited (d.send entries) := by
  have htimes (c : Channel) : timesOf c (d.send entries).sent =
      timesOf c d.sent ++ if d.has c then [d.clock] else [] := by
    rw [← timesOf_digests d entries c]
    exact timesOf_append c d.sent (d.digests entries)
  refine ⟨?_, ?_, ?_, ?_⟩
  · have hlen : (d.recentSends ++ [d.clock]).length ≤ d.config.maxMessagesPerMinute.toNat := by
      rw [List.length_append]
      exact h.room hroom
    exact hlen
  · intro m hm
    rcases List.mem_append.mp hm with hm | hm
    · exact h.served m hm
    · rcases (mem_digests hm).2.2 with ⟨hc, hslack⟩ | ⟨hc, hemail⟩
      · rw [hc]
        exact hslack
      · rw [hc]
        exact hemail
  · intro c hc
    have hcurrent : d.has c = true := hc
    rw [htimes, if_pos hcurrent]
    have hkept : recent oneMinute d.clock (timesOf c d.sent ++ [d.clock]) =
        recent oneMinute d.clock (d.recentSends ++ [d.clock]) := by
      rw [recent_append, recent_append, h.kept c hcurrent]
    exact hkept
  · intro c t
    rw [htimes]
    by_cases hc : d.has c = true
    · rw [if_pos hc]
      refine inWindow_snoc (h.window c) ?_ t
      rw [h.kept c hc]
      exact Nat.lt_of_le_of_lt (List.length_filter_le _ _) (h.room hroom)
    · rw [if_neg hc, List.append_nil]
      exact h.window c t

theorem limited_step {e : Event} (h : Limited d) (hstep : d.step e = some d') : Limited d' := by
  cases step_moves hstep with
  | rests => exact h
  | holds => exact h.prune
  | sends batch order _ _ hroom => exact h.prune.send hroom (d.fresh order)
  | ticks now hle => exact ⟨h.short, h.served, fun c hc => recent_later (h.kept c hc) hle, h.window⟩

/-- The messages of a window, on every channel. -/
def sentIn (d : Digester) (t : Nat) : List Digest :=
  d.sent.filter fun m => t ≤ m.time ∧ m.time < t + oneMinute

/-- With one channel its window counts every message. -/
theorem Limited.one_channel (h : Limited d) {c : Channel}
    (hone : ∀ c', d.has c' = true → c' = c) (t : Nat) :
    (d.sentIn t).length ≤ d.config.maxMessagesPerMinute.toNat := by
  have hall : d.sent.filter (fun m => m.channel = c) = d.sent :=
    List.filter_eq_self.mpr fun m hm => decide_eq_true (hone _ (h.served m hm))
  have hwindow := h.window c t
  unfold inWindow timesOf at hwindow
  rw [hall, List.filter_map, List.length_map] at hwindow
  exact hwindow

theorem Limited.max_zero (h : Limited d) (hzero : d.config.maxMessagesPerMinute.toNat = 0)
    (t : Nat) : (d.sentIn t).length ≤ 0 := by
  rw [Nat.le_zero, List.length_eq_zero_iff]
  refine List.filter_eq_nil_iff.mpr fun m hm _ => ?_
  have hwindow := h.window m.channel m.time
  have hmem : m.time ∈ inWindow oneMinute m.time (timesOf m.channel d.sent) := by
    refine List.mem_filter.mpr ⟨List.mem_map.mpr ⟨m, ?_, rfl⟩, decide_eq_true ?_⟩
    · exact List.mem_filter.mpr ⟨hm, decide_eq_true rfl⟩
    · simp [oneMinute]
  have hpos := List.length_pos_of_mem hmem
  omega

/-- The limit holds back the batch. -/
def HeldBack (d : Digester) (order : List Entry) : Prop :=
  d.fresh order ≠ [] ∧ d.pruneRecentSends.underRateLimit = false

theorem step_settings {e : Event} (hstep : d.step e = some d') :
    d'.config = d.config ∧ d'.slack = d.slack ∧ d'.email = d.email := by
  cases step_moves hstep with
  | rests | holds | sends | ticks => exact ⟨rfl, rfl, rfl⟩

/-- What every reachable state has. -/
structure Lawful (config : NotificationConfig) (slack email : Bool) (d : Digester) : Prop where
  settings : d.config = config ∧ d.slack = slack ∧ d.email = email
  told : Told d
  limited : Limited d

variable {config : NotificationConfig} {slack email : Bool}

theorem lawful_init (h : (digester config slack email).init d) : Lawful config slack email d := by
  obtain ⟨clock, rfl⟩ := h
  refine ⟨⟨rfl, rfl, rfl⟩, ⟨?_, ?_, ?_, .nil⟩, ⟨Nat.zero_le _, ?_, fun _ _ => rfl, ?_⟩⟩
  · exact fun m hm => absurd hm List.not_mem_nil
  · exact fun m hm => absurd hm List.not_mem_nil
  · exact fun m hm => absurd hm List.not_mem_nil
  · exact fun m hm => absurd hm List.not_mem_nil
  · exact fun c t => Nat.zero_le _

theorem lawful_step {e : Event} (h : Lawful config slack email d)
    (hstep : (digester config slack email).step d e d') : Lawful config slack email d' := by
  obtain ⟨hconfig, hslack, hemail⟩ := step_settings hstep
  obtain ⟨hold, hold', hold''⟩ := h.settings
  exact ⟨⟨hconfig.trans hold, hslack.trans hold', hemail.trans hold''⟩,
    told_step h.told hstep, limited_step h.limited hstep⟩

theorem Lawful.run {tr : List (Taken Digester Event)} (h₀ : (digester config slack email).init d₀)
    (h : (digester config slack email).Run d₀ tr d) : Lawful config slack email d :=
  h.invariant (fun _ _ _ => lawful_step) (lawful_init h₀)

/-- What dispatching a batch leaves, when it is held back, and what it sends. -/
theorem dispatch_tells {batch : List ErrorEvent} {order : List Entry}
    (hstep : d.step (.dispatch batch order) = some d') :
    (d.HeldBack order → d'.lastNotified = d.lastNotified ∧ d'.sent = d.sent ∧
      ∀ e ∈ d.fresh order, d'.isDue e.key = true) ∧
    ∃ new, d'.sent = d.sent ++ new ∧ ∀ m ∈ new, m.time = d.clock ∧ ∀ e ∈ m.entries,
      e.event.dedupKey = e.key ∧ e.count = (withKey e.key batch).length := by
  cases step_moves hstep with
  | rests _ _ _ hnone =>
    refine ⟨fun hheld => absurd hnone hheld.1, [], (List.append_nil _).symm, ?_⟩
    exact fun m hm => absurd hm List.not_mem_nil
  | holds =>
    refine ⟨fun _ => ⟨rfl, rfl, fresh_due⟩, [], (List.append_nil _).symm, ?_⟩
    exact fun m hm => absurd hm List.not_mem_nil
  | sends _ _ hperm _ hroom =>
    refine ⟨fun hheld => ?_, d.pruneRecentSends.digests (d.fresh order), rfl, ?_⟩
    · rw [hheld.2] at hroom
      cases hroom
    · intro m hm
      obtain ⟨htime, hentries, -⟩ := mem_digests hm
      refine ⟨htime, ?_⟩
      rw [hentries]
      intro e he
      exact entry_of_group (hperm.subset (List.mem_filter.mp he).1)

/-- What a step sent. -/
def toldIn (x : Taken Digester Event) : List Digest := x.target.sent.drop x.source.sent.length

/-- A step sends one message a channel at most, then and there, about keys that are due. -/
theorem step_tells {e : Event} (hstep : d.step e = some d') :
    d'.sent = d.sent ++ toldIn ⟨d, e, d'⟩ ∧ ((toldIn ⟨d, e, d'⟩).map Digest.channel).Nodup ∧
      ∀ m ∈ toldIn ⟨d, e, d'⟩, m.time = d.clock ∧ ∀ key ∈ m.keys, d.isDue key = true := by
  have tells {new : List Digest} (hsent : d'.sent = d.sent ++ new) : toldIn ⟨d, e, d'⟩ = new := by
    show d'.sent.drop d.sent.length = new
    rw [hsent, List.drop_left]
  have silent (hsent : d'.sent = d.sent) : d'.sent = d.sent ++ toldIn ⟨d, e, d'⟩ ∧
      ((toldIn ⟨d, e, d'⟩).map Digest.channel).Nodup ∧
      ∀ m ∈ toldIn ⟨d, e, d'⟩, m.time = d.clock ∧ ∀ key ∈ m.keys, d.isDue key = true := by
    rw [tells (hsent.trans (List.append_nil _).symm)]
    exact ⟨hsent.trans (List.append_nil _).symm, .nil, fun m hm => absurd hm List.not_mem_nil⟩
  cases step_moves hstep with
  | rests | holds | ticks => exact silent rfl
  | sends batch order hperm hsome hroom =>
    have hnew : toldIn ⟨d, .dispatch batch order, d.pruneRecentSends.send (d.fresh order)⟩ =
        d.pruneRecentSends.digests (d.fresh order) := tells rfl
    rw [hnew]
    refine ⟨rfl, ?_, ?_⟩
    · exact List.pairwise_map.mpr (digests_pairwise _ _ fun a b hne => hne)
    · intro m hm
      obtain ⟨htime, hentries, -⟩ := mem_digests hm
      refine ⟨htime, fun key hkey => ?_⟩
      unfold Digest.keys at hkey
      rw [hentries] at hkey
      obtain ⟨e, he, rfl⟩ := List.mem_map.mp hkey
      exact fresh_due e he

/-- Two dispatches that tell of one key are the window apart, on whatever channels. -/
theorem run_apart {tr : List (Taken Digester Event)} (h₀ : (digester config slack email).init d₀)
    (h : (digester config slack email).Run d₀ tr d) :
    (∀ x ∈ tr, ∀ m ∈ toldIn x, m ∈ d.sent) ∧
    tr.Pairwise fun x y => ∀ a ∈ toldIn x, ∀ b ∈ toldIn y, ∀ key ∈ a.keys, key ∈ b.keys →
      a.time + config.dedupWindow ≤ b.time := by
  induction h with
  | start => exact ⟨fun x hx => absurd hx List.not_mem_nil, .nil⟩
  | @next v u tr e hr hstep ih =>
    obtain ⟨hsent, hapart⟩ := ih
    obtain ⟨⟨hconfig, -, -⟩, htold, -⟩ := Lawful.run h₀ hr
    obtain ⟨hgrows, -, htells⟩ := step_tells hstep
    refine ⟨?_, List.pairwise_append.mpr ⟨hapart, List.pairwise_singleton _ _, ?_⟩⟩
    · intro x hx m hm
      rw [hgrows]
      rcases List.mem_append.mp hx with hx | hx
      · exact List.mem_append_left _ (hsent x hx m hm)
      · rw [List.mem_singleton.mp hx] at hm
        exact List.mem_append_right _ hm
    · intro x hx y hy a ha b hb key hkey hkey'
      rw [List.mem_singleton.mp hy] at hb
      obtain ⟨htime, hdue⟩ := htells b hb
      rw [htime, ← hconfig]
      exact htold.due (hsent x hx a ha) hkey (hdue key hkey')

/-- Error number `k` has a key of its own. -/
def errorNo (k : Nat) : ErrorEvent := ⟨.ofList (.replicate k 'e'), "", []⟩

def entryNo (k : Nat) : Entry := ⟨(errorNo k).dedupKey, errorNo k, 1⟩

theorem errorNo_dedupKey {j k : Nat} (h : (errorNo j).dedupKey = (errorNo k).dedupKey) : j = k := by
  have hlength := congrArg (fun s : String => s.toList.length) h
  simp [ErrorEvent.dedupKey, errorNo] at hlength
  exact hlength

/-- With both channels, as many batches as the limit allows are sent twice over in an instant. -/
theorem both_channels_fill (config : NotificationConfig) (k : Nat)
    (hk : k ≤ config.maxMessagesPerMinute.toNat) : ∃ d₀ d tr,
    (digester config true true).init d₀ ∧ (digester config true true).Run d₀ tr d ∧
    d.clock = 0 ∧ d.recentSends = List.replicate k 0 ∧ d.sent.length = 2 * k ∧
    (∀ m ∈ d.sent, m.time = 0) ∧
    ∀ j, k ≤ j → d.lastNotified.lookup (errorNo j).dedupKey = none := by
  induction k with
  | zero =>
    refine ⟨_, _, [], ⟨0, rfl⟩, .start _, rfl, rfl, rfl, ?_, fun j _ => AList.lookup_empty _⟩
    exact fun m hm => absurd hm List.not_mem_nil
  | succ k ih =>
    obtain ⟨d₀, d, tr, h₀, hrun, hclock, hrecent, hlength, htimes, hnew⟩ := ih (by omega)
    obtain ⟨hconfig, hslack, hemail⟩ := (Lawful.run h₀ hrun).settings
    have hfresh : d.fresh [entryNo k] = [entryNo k] := by
      refine List.filter_eq_self.mpr fun e he => ?_
      rw [List.mem_singleton.mp he]
      unfold isDue entryNo
      rw [hnew k (Nat.le_refl k)]
      rfl
    have hpruned : d.pruneRecentSends = d := by
      have hkept : d.recentSends.filter (fun ts => d.clock - ts < oneMinute) = d.recentSends := by
        refine List.filter_eq_self.mpr fun ts _ => decide_eq_true ?_
        rw [hclock, Nat.zero_sub]
        decide
      unfold pruneRecentSends
      rw [hkept]
    have hroom : d.underRateLimit = true := by
      have hmax := config.maxMessagesPerMinute.toNat_lt
      unfold underRateLimit
      rw [hrecent, List.length_replicate, hconfig, Nat.mod_eq_of_lt (by omega)]
      exact decide_eq_true (by omega)
    have hstep : d.step (.dispatch [errorNo k] [entryNo k]) = some (d.send [entryNo k]) := by
      have hdispatch : d.dispatchBatch [entryNo k] = d.send [entryNo k] := by
        unfold dispatchBatch
        rw [hfresh, hpruned, hroom]
        rfl
      rw [step, hdispatch]
      exact if_pos (.refl _)
    refine ⟨d₀, _, _, h₀, hrun.next hstep, hclock, ?_, ?_, ?_, ?_⟩
    · have hsends : d.recentSends ++ [d.clock] = List.replicate (k + 1) 0 := by
        rw [hrecent, hclock]
        exact List.replicate_succ'.symm
      exact hsends
    · have hsent : (d.sent ++ d.digests [entryNo k]).length = 2 * (k + 1) := by
        rw [List.length_append, hlength, digests, hslack, hemail]
        rfl
      exact hsent
    · intro m hm
      rcases List.mem_append.mp hm with hm | hm
      · exact htimes m hm
      · exact (mem_digests hm).1.trans hclock
    · intro j hj
      have hmarked := lookup_markNotified d [entryNo k] (errorNo j).dedupKey
      have hother : (errorNo j).dedupKey ∉ [entryNo k].map Entry.key := by
        intro hmem
        have hkey := errorNo_dedupKey (List.mem_singleton.mp hmem)
        omega
      rw [if_neg hother, hnew j (by omega)] at hmarked
      exact hmarked

end Digester

open Digester

/-- Whatever the configuration, no key is told by two dispatches within its window, nor twice on a
channel by one; a batch held back leaves what was told as it was, and each line counts the batch's
events with its key; and the limit of messages a minute is kept in every run exactly when there is one
channel at most, or no message may be sent at all. -/
theorem notifier_limits (config : NotificationConfig) (slack email : Bool) :
    (∀ d₀ d tr, (digester config slack email).init d₀ → (digester config slack email).Run d₀ tr d →
      (∀ m ∈ d.sent, m.keys.Nodup) ∧
      (d.sent.Pairwise fun a b => a.channel = b.channel → ∀ key ∈ a.keys, key ∈ b.keys →
        a.time + config.dedupWindow ≤ b.time) ∧
      (tr.Pairwise fun x y => ∀ a ∈ toldIn x, ∀ b ∈ toldIn y, ∀ key ∈ a.keys, key ∈ b.keys →
        a.time + config.dedupWindow ≤ b.time) ∧
      (∀ x ∈ tr, x.target.sent = x.source.sent ++ toldIn x ∧
        ((toldIn x).map Digest.channel).Nodup) ∧
      ∀ x ∈ tr, ∀ batch order, x.label = .dispatch batch order →
        (x.source.HeldBack order → x.target.lastNotified = x.source.lastNotified ∧
          x.target.sent = x.source.sent ∧
          ∀ e ∈ x.source.fresh order, x.target.isDue e.key = true) ∧
        ∃ new, x.target.sent = x.source.sent ++ new ∧ ∀ m ∈ new, m.time = x.source.clock ∧
          ∀ e ∈ m.entries, e.event.dedupKey = e.key ∧
            e.count = (withKey e.key batch).length) ∧
    ((∀ d₀ d tr, (digester config slack email).init d₀ →
        (digester config slack email).Run d₀ tr d →
        ∀ t, (d.sentIn t).length ≤ config.maxMessagesPerMinute.toNat) ↔
      config.maxMessagesPerMinute = 0 ∨ ¬ (slack = true ∧ email = true)) := by
  refine ⟨?_, ?_, ?_⟩
  · intro d₀ d tr h₀ h
    obtain ⟨⟨hconfig, -, -⟩, htold, -⟩ := Lawful.run h₀ h
    refine ⟨htold.once, hconfig ▸ htold.apart, (run_apart h₀ h).2, ?_, ?_⟩
    · intro x hx
      obtain ⟨hsent, hchannels, -⟩ := step_tells (h.taken hx).1
      exact ⟨hsent, hchannels⟩
    intro x hx batch order hlabel
    obtain ⟨hstep, -⟩ := h.taken hx
    rw [hlabel] at hstep
    exact dispatch_tells hstep
  · intro hbound
    by_contra hneither
    rw [not_or, not_not] at hneither
    obtain ⟨hmax, rfl, rfl⟩ := hneither
    obtain ⟨d₀, d, tr, h₀, hrun, -, -, hlength, htimes, -⟩ :=
      both_channels_fill config _ (Nat.le_refl _)
    have hall : d.sentIn 0 = d.sent := by
      refine List.filter_eq_self.mpr fun m hm => decide_eq_true ?_
      rw [htimes m hm]
      decide
    have hle := hbound d₀ d tr h₀ hrun 0
    rw [hall, hlength] at hle
    have hzero : config.maxMessagesPerMinute.toNat = 0 := by omega
    exact hmax (UInt32.toNat_inj.mp hzero)
  · intro hwhen d₀ d tr h₀ h t
    obtain ⟨⟨hconfig, hslack, hemail⟩, -, hlimited⟩ := Lawful.run h₀ h
    rw [← hconfig]
    rcases hwhen with hzero | hone
    · have hmax : d.config.maxMessagesPerMinute.toNat = 0 := by
        rw [hconfig, hzero]
        rfl
      rw [hmax]
      exact hlimited.max_zero hmax t
    · cases hs : slack with
      | false =>
        refine @Limited.one_channel d hlimited .email ?_ t
        intro c hc
        cases c with
        | slack => exact absurd (hslack.symm.trans hc) (by simp [hs])
        | email => rfl
      | true =>
        refine @Limited.one_channel d hlimited .slack ?_ t
        intro c hc
        cases c with
        | slack => rfl
        | email => exact absurd ⟨hs, hemail.symm.trans hc⟩ hone

/-- With Slack and email and one message a minute, one batch sends two. -/
theorem both_channels_exceed : ¬ ∀ (config : NotificationConfig) (slack email : Bool)
    (d₀ d : Digester) (tr : List (Taken Digester Digester.Event)),
    (digester config slack email).init d₀ → (digester config slack email).Run d₀ tr d →
    ∀ t, (d.sentIn t).length ≤ config.maxMessagesPerMinute.toNat := by
  intro h
  have hexec : (exec Digester.step ⟨⟨none, 1, 30, "service", "production", none⟩, true, true, ∅, [],
      0, []⟩ [.dispatch [⟨"db", "down", []⟩] [⟨"db::down", ⟨"db", "down", []⟩, 1⟩]]).any
        (fun d => (d.sentIn 0).length = 2) = true := by decide +kernel
  obtain ⟨d, hd, htwo⟩ := (Option.any_eq_true _ _).mp hexec
  obtain ⟨tr, hrun, -⟩ := Lts.Run.labels
    (M := digester ⟨none, 1, 30, "service", "production", none⟩ true true)
    (fun _ _ _ hstep => hstep) _ hd (.start _)
  have hle := h _ true true _ d tr ⟨0, rfl⟩ hrun 0
  rw [of_decide_eq_true htwo] at hle
  exact absurd hle (by decide)

end Tronc.Notifications
