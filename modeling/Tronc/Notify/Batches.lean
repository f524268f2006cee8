import Tronc.Notify.Layer

namespace Tronc.Notify

open Transition

abbrev Batches := AList fun _ : String => BatchBuffer

/-- The lines of one event. -/
def linesOf (name : String) (lines : List Queued) : List Queued :=
  lines.filter fun l => l.eventName = name

theorem linesOf_append (name : String) (l₁ l₂ : List Queued) :
    linesOf name (l₁ ++ l₂) = linesOf name l₁ ++ linesOf name l₂ := List.filter_append ..

theorem linesOf_all {name : String} {lines : List Queued} (h : ∀ l ∈ lines, l.eventName = name) :
    linesOf name lines = lines :=
  List.filter_eq_self.mpr fun l hl => decide_eq_true (h l hl)

theorem linesOf_none {name o : String} {lines : List Queued}
    (h : ∀ l ∈ lines, l.eventName = o) (hne : o ≠ name) : linesOf name lines = [] :=
  List.filter_eq_nil_iff.mpr fun l hl heq => hne ((h l hl).symm.trans (of_decide_eq_true heq))

/-- The lines an event's buffer has. -/
def buffered (batches : Batches) (name : String) : List Queued :=
  (batches.lookup name).elim [] BatchBuffer.lines

/-- Every buffer has lines of its own event only. -/
def Sorted (batches : Batches) : Prop :=
  ∀ name buffer, batches.lookup name = some buffer → ∀ l ∈ buffer.lines, l.eventName = name

/-- A flush at `now` takes the buffer's lines. -/
def BatchBuffer.Ripe (buffer : BatchBuffer) (now : Nat) : Prop :=
  ∃ oldest, buffer.lines.head? = some oldest ∧ buffer.interval ≤ now - oldest.line.queuedAt

/-- What drains leave of a property of buffers. -/
structure Emptying (P : String → BatchBuffer → Prop) (batches : Batches) : Prop where
  each : ∀ name buffer, batches.lookup name = some buffer → P name buffer
  emptied : ∀ name buffer, P name buffer → P name { buffer with lines := [] }

theorem Emptying.insert {P : String → BatchBuffer → Prop} {batches : Batches} {name : String}
    {buffer : BatchBuffer} (h : Emptying P batches) (hb : P name buffer) :
    Emptying P (batches.insert name buffer) := by
  refine ⟨?_, h.emptied⟩
  intro other found hfound
  by_cases hother : other = name
  · subst hother
    rw [AList.lookup_insert] at hfound
    obtain rfl := Option.some.inj hfound
    exact hb
  · rw [AList.lookup_insert_ne hother] at hfound
    exact h.each other found hfound

/-- One turn of the loop: the buffer is taken whole, or left as it is. -/
theorem drainRipe_cons (now : Nat) (name : String) (rest : List String) (batches : Batches) :
    (∃ buffer, batches.lookup name = some buffer ∧ buffer.Ripe now ∧
      drainRipe now (name :: rest) batches =
        (⟨name, buffer.channel, buffer.lines⟩ ::
          (drainRipe now rest (batches.insert name { buffer with lines := [] })).1,
          (drainRipe now rest (batches.insert name { buffer with lines := [] })).2)) ∨
    ((∀ buffer, batches.lookup name = some buffer → ¬ buffer.Ripe now) ∧
      drainRipe now (name :: rest) batches = drainRipe now rest batches) := by
  rw [drainRipe]
  split
  · rename_i hnone
    refine .inr ⟨fun buffer hbuffer => ?_, rfl⟩
    rw [hnone] at hbuffer
    cases hbuffer
  · rename_i buffer hbuffer
    have hunripe (h : ¬ buffer.Ripe now) :
        ∀ found, batches.lookup name = some found → ¬ found.Ripe now := by
      intro found hfound
      rw [hbuffer] at hfound
      obtain rfl := Option.some.inj hfound
      exact h
    split
    · rename_i hlines
      refine .inr ⟨hunripe ?_, rfl⟩
      rintro ⟨oldest, hhead, -⟩
      rw [hlines] at hhead
      cases hhead
    · rename_i oldest more hlines
      have hhead : buffer.lines.head? = some oldest := by rw [hlines]; rfl
      split
      · rename_i hearly
        refine .inr ⟨hunripe ?_, rfl⟩
        rintro ⟨first, hfirst, hle⟩
        rw [hhead] at hfirst
        obtain rfl := Option.some.inj hfirst
        omega
      · rename_i hlate
        exact .inl ⟨buffer, hbuffer, ⟨oldest, hhead, by omega⟩, rfl⟩

/-- What a flush takes of an event, with what it leaves, is what the event's buffer had. -/
theorem drainRipe_keeps (now : Nat) (order : List String) {batches : Batches}
    (h : Sorted batches) (name : String) :
    linesOf name ((drainRipe now order batches).1.flatMap Digest.lines) ++
      buffered (drainRipe now order batches).2 name = buffered batches name := by
  induction order generalizing batches with
  | nil => rfl
  | cons head rest ih =>
    rcases drainRipe_cons now head rest batches with ⟨buffer, hbuffer, -, heq⟩ | ⟨-, heq⟩
    · have hsorted : Sorted (batches.insert head { buffer with lines := [] }) :=
        (Emptying.mk h fun _ _ _ => by simp).insert (by simp) |>.each
      rw [heq, List.flatMap_cons, linesOf_append, List.append_assoc, ih hsorted]
      by_cases hname : name = head
      · subst hname
        rw [linesOf_all (h name buffer hbuffer), buffered, buffered, AList.lookup_insert, hbuffer]
        exact List.append_nil _
      · rw [linesOf_none (h head buffer hbuffer) (Ne.symm hname), buffered, buffered,
          AList.lookup_insert_ne hname]
        rfl
    · rw [heq]
      exact ih h

/-- A flush empties every ripe buffer. -/
theorem drainRipe_empties (now : Nat) (order : List String) {batches : Batches}
    (h : Sorted batches) {name : String} {buffer : BatchBuffer} (hname : name ∈ order)
    (hbuffer : batches.lookup name = some buffer) (hripe : buffer.Ripe now) :
    buffered (drainRipe now order batches).2 name = [] := by
  induction order generalizing batches with
  | nil => cases hname
  | cons head rest ih =>
    rcases drainRipe_cons now head rest batches with ⟨found, hfound, -, heq⟩ | ⟨hnone, heq⟩
    · have hsorted : Sorted (batches.insert head { found with lines := [] }) :=
        (Emptying.mk h fun _ _ _ => by simp).insert (by simp) |>.each
      rw [heq]
      by_cases hhead : name = head
      · subst hhead
        have hkeeps := drainRipe_keeps now rest hsorted name
        have hempty : buffered (batches.insert name { found with lines := [] }) name = [] := by
          rw [buffered, AList.lookup_insert]
          rfl
        rw [hempty] at hkeeps
        exact (List.append_eq_nil_iff.mp hkeeps).2
      · have hrest : name ∈ rest := (List.mem_cons.mp hname).resolve_left hhead
        exact ih hsorted hrest ((AList.lookup_insert_ne hhead).trans hbuffer)
    · rw [heq]
      rcases List.mem_cons.mp hname with rfl | hrest
      · exact absurd hripe (hnone buffer hbuffer)
      · exact ih h hrest hbuffer

/-- Every digest of a flush is a ripe buffer's, and what is left has the properties it had. -/
theorem drainRipe_digests (now : Nat) (order : List String) {P : String → BatchBuffer → Prop}
    {batches : Batches} (h : Emptying P batches) :
    (∀ d ∈ (drainRipe now order batches).1, ∃ buffer, P d.eventName buffer ∧ buffer.Ripe now ∧
      d.channel = buffer.channel ∧ d.lines = buffer.lines) ∧
    Emptying P (drainRipe now order batches).2 := by
  induction order generalizing batches with
  | nil => exact ⟨fun d hd => absurd hd List.not_mem_nil, h⟩
  | cons head rest ih =>
    rcases drainRipe_cons now head rest batches with ⟨buffer, hbuffer, hripe, heq⟩ | ⟨-, heq⟩
    · have hP := h.each head buffer hbuffer
      obtain ⟨hdigests, hleft⟩ := ih (h.insert (h.emptied head buffer hP))
      rw [heq]
      refine ⟨?_, hleft⟩
      intro d hd
      rcases List.mem_cons.mp hd with rfl | hd
      · exact ⟨buffer, hP, hripe, rfl, rfl⟩
      · exact hdigests d hd
    · rw [heq]
      exact ih h

namespace NotifyLayer

/-- The lines handed to the Slack client, and those of the digests the flusher has still to post. -/
def handed (s : NotifyLayer) : List Queued := s.posted.flatMap fun p => p.digest.lines

def pending (s : NotifyLayer) : List Queued := s.flusher.toPost.flatMap Digest.lines

/-- Every line enqueued is handed on, about to be, or buffered, in the order of its event's
lines. -/
structure Kept (s : NotifyLayer) : Prop where
  sorted : Sorted s.batches
  whole : ∀ name, linesOf name (s.handed ++ s.pending) ++ buffered s.batches name =
    linesOf name s.enqueued

/-- What a dispatch leaves alone. -/
structure SameBatching (s t : NotifyLayer) : Prop where
  clock : t.clock = s.clock
  batches : t.batches = s.batches
  flusher : t.flusher = s.flusher
  enqueued : t.enqueued = s.enqueued
  posted : t.posted = s.posted

variable {s s₀ t : NotifyLayer}

theorem forward_sameBatching (s : NotifyLayer) (rule : RoutingRule) (e : Emitted) :
    SameBatching s (s.forward rule e) := by
  unfold forward
  split
  · exact ⟨rfl, rfl, rfl, rfl, rfl⟩
  · exact ⟨rfl, rfl, rfl, rfl, rfl⟩

theorem dispatch_sameBatching (s : NotifyLayer) (e : Emitted) :
    SameBatching s (s.dispatch e) := by
  unfold dispatch
  split
  · exact ⟨rfl, rfl, rfl, rfl, rfl⟩
  · rename_i rule hrule
    split
    · exact forward_sameBatching s rule e
    · rename_i dedup hdedup
      split
      · exact ⟨rfl, rfl, rfl, rfl, rfl⟩
      · obtain ⟨hclock, hbatches, hflusher, henqueued, hposted⟩ :=
          forward_sameBatching (s.letThrough dedup e) rule e
        exact ⟨hclock, hbatches, hflusher, henqueued, hposted⟩

/-- The buffer `enqueue` leaves for the event. -/
def bufferAfter (s : NotifyLayer) (r : Routed) : BatchBuffer :=
  let buffer := (s.batches.lookup r.eventName).getD (.new r.channel r.interval)
  { buffer with lines := buffer.lines ++ [⟨r.eventName, r.channel, r.interval, s.clock, r.text⟩] }

/-- The lines of the buffer before are those it had, or none when there was none. -/
theorem bufferAfter_lines (s : NotifyLayer) (r : Routed) : (s.bufferAfter r).lines =
    buffered s.batches r.eventName ++ [⟨r.eventName, r.channel, r.interval, s.clock, r.text⟩] := by
  unfold bufferAfter buffered
  cases s.batches.lookup r.eventName with
  | none => rfl
  | some buffer => rfl

theorem Sorted.buffered {batches : Batches} (h : Sorted batches) {name : String} :
    ∀ l ∈ buffered batches name, l.eventName = name := by
  unfold Notify.buffered
  cases hb : batches.lookup name with
  | none => exact fun l hl => absurd hl List.not_mem_nil
  | some buffer => exact h name buffer hb

theorem Kept.enqueue {r : Routed} (h : Kept s) : Kept (s.enqueue r) := by
  have howned : ∀ l ∈ (s.bufferAfter r).lines, l.eventName = r.eventName := by
    rw [bufferAfter_lines]
    intro l hl
    rcases List.mem_append.mp hl with hl | hl
    · exact Sorted.buffered h.sorted l hl
    · rw [List.mem_singleton.mp hl]
  refine ⟨?_, ?_⟩
  · exact (Emptying.mk h.sorted fun _ _ _ => by simp).insert howned |>.each
  · intro name
    have hwhole : linesOf name (s.handed ++ s.pending) ++
        Notify.buffered (s.batches.insert r.eventName (s.bufferAfter r)) name =
        linesOf name (s.enqueued ++ [⟨r.eventName, r.channel, r.interval, s.clock, r.text⟩]) := by
      rw [linesOf_append name s.enqueued, ← h.whole name, List.append_assoc]
      congr 1
      by_cases hname : name = r.eventName
      · subst hname
        rw [Notify.buffered, AList.lookup_insert, Option.elim_some, bufferAfter_lines,
          linesOf_all (by simp)]
      · rw [Notify.buffered, AList.lookup_insert_ne hname,
          linesOf_none (o := r.eventName) (by simp) (Ne.symm hname), List.append_nil]
        rfl
    exact hwhole

theorem kept_step {a : Event} (h : Kept s) (hstep : s.step a = some t) : Kept t := by
  cases step_moves hstep with
  | dispatches e =>
    obtain ⟨-, hbatches, hflusher, henqueued, hposted⟩ := dispatch_sameBatching s e
    refine ⟨?_, ?_⟩
    · rw [hbatches]
      exact h.sorted
    · intro name
      unfold handed pending
      rw [hbatches, hflusher, henqueued, hposted]
      exact h.whole name
  | enqueues i r hr =>
    obtain ⟨hsorted, hwhole⟩ := Kept.enqueue (r := r) h
    exact ⟨hsorted, hwhole⟩
  | ticks => exact ⟨h.sorted, h.whole⟩
  | wakes hidle =>
    refine ⟨h.sorted, fun name => ?_⟩
    have hwhole := h.whole name
    unfold pending at hwhole
    rw [hidle] at hwhole
    exact hwhole
  | drains now order htimed hperm =>
    refine ⟨?_, fun name => ?_⟩
    · exact (drainRipe_digests now order (Emptying.mk h.sorted fun _ _ _ => by simp)).2.each
    · have hwhole := h.whole name
      unfold pending at hwhole
      rw [htimed, Flusher.toPost, List.flatMap_nil, List.append_nil,
        ← drainRipe_keeps now order h.sorted name, ← List.append_assoc, ← linesOf_append] at hwhole
      exact hwhole
  | rests hdone =>
    refine ⟨h.sorted, fun name => ?_⟩
    have hwhole := h.whole name
    unfold pending at hwhole
    rw [hdone] at hwhole
    exact hwhole
  | posts d rest hposting =>
    refine ⟨h.sorted, fun name => ?_⟩
    have hwhole := h.whole name
    unfold pending at hwhole
    rw [hposting, Flusher.toPost, List.flatMap_cons, ← List.append_assoc] at hwhole
    have hmoved : (s.posted ++ [⟨d, s.clock⟩] : List Posted).flatMap
        (fun p : Posted => p.digest.lines) = s.handed ++ d.lines := by
      rw [List.flatMap_append, List.flatMap_cons, List.flatMap_nil, List.append_nil]
      rfl
    unfold handed pending
    rw [hmoved]
    exact hwhole

theorem kept_init (h : notifyLayer.init s) : Kept s := by
  obtain ⟨environment, defaultRule, clock, rfl⟩ := h
  refine ⟨?_, fun name => rfl⟩
  intro name buffer hbuffer
  cases (AList.lookup_empty name).symm.trans hbuffer

/-- What is handed on or about to be stays so, in its order. -/
theorem sent_step {a : Event} (hstep : s.step a = some t) :
    s.handed ++ s.pending <+: t.handed ++ t.pending := by
  cases step_moves hstep with
  | dispatches e =>
    obtain ⟨-, -, hflusher, -, hposted⟩ := dispatch_sameBatching s e
    unfold handed pending
    rw [hflusher, hposted]
  | enqueues | ticks => exact List.prefix_rfl
  | wakes hidle =>
    unfold handed pending
    rw [hidle]
    exact List.prefix_rfl
  | drains now order htimed =>
    have hnone : s.pending = [] := by
      unfold pending
      rw [htimed]
      rfl
    rw [hnone, List.append_nil]
    exact List.prefix_append ..
  | rests hdone =>
    unfold handed pending
    rw [hdone]
    exact List.prefix_rfl
  | posts d rest hposting =>
    unfold handed pending
    rw [hposting, List.flatMap_append, List.append_assoc]
    simp [Flusher.toPost]

/-- The flusher posts what it drained, and comes to rest. -/
theorem posting_finishes (toPost : List Digest) {s : NotifyLayer}
    (h : s.flusher = .posting toPost) : ∃ t, exec step s (.replicate (toPost.length + 1) .post) =
      some t ∧ t.flusher = .idle ∧ t.handed = s.handed ++ s.pending := by
  induction toPost generalizing s with
  | nil =>
    refine ⟨{ s with flusher := .idle }, ?_, rfl, ?_⟩
    · simp [exec, step, h, List.replicate_succ]
    · unfold pending
      rw [h]
      exact (List.append_nil _).symm
  | cons d rest ih =>
    obtain ⟨t, hexec, hidle, hhanded⟩ :=
      @ih { s with flusher := .posting rest, posted := s.posted ++ [⟨d, s.clock⟩] } rfl
    refine ⟨t, ?_, hidle, ?_⟩
    · rw [List.length_cons, List.replicate_succ, exec]
      simp only [step, h, Option.bind_some]
      exact hexec
    · rw [hhanded]
      unfold handed pending
      rw [h, List.flatMap_append]
      simp [Flusher.toPost]

/-- A line comes for an event that has a buffer only when its rule names the buffer's channel, and
no longer interval. -/
def SameRoute (s : NotifyLayer) : Event → Prop
  | .enqueue i => ∀ r ∈ s.routed[i]?, ∀ buffer ∈ s.batches.lookup r.eventName,
      r.channel = buffer.channel ∧ r.interval ≤ buffer.interval
  | _ => True

instance (s : NotifyLayer) : (a : Event) → Decidable (SameRoute s a)
  | .enqueue i => inferInstanceAs (Decidable (∀ r ∈ s.routed[i]?,
      ∀ buffer ∈ s.batches.lookup r.eventName,
        r.channel = buffer.channel ∧ r.interval ≤ buffer.interval))
  | .dispatch _ | .tick _ | .wake | .drain _ | .post => isTrue trivial

end NotifyLayer

/-- A buffer of lines that were meant for it. -/
structure BatchBuffer.Agrees (clock : Nat) (buffer : BatchBuffer) : Prop where
  named : ∀ l ∈ buffer.lines, l.channel = buffer.channel ∧ l.interval ≤ buffer.interval
  past : ∀ l ∈ buffer.lines, l.line.queuedAt ≤ clock

/-- A digest that goes where each line's rule named, and not before its interval is up. -/
def Digest.Meant (d : Digest) (time : Nat) : Prop :=
  ∀ l ∈ d.lines, l.channel = d.channel ∧
    ∃ oldest, d.lines.head? = some oldest ∧ oldest.line.queuedAt + l.interval ≤ time

theorem Digest.Meant.later {d : Digest} {time later : Nat} (h : d.Meant time)
    (hle : time ≤ later) : d.Meant later := by
  intro l hl
  obtain ⟨hchannel, oldest, hhead, hdue⟩ := h l hl
  exact ⟨hchannel, oldest, hhead, by omega⟩

theorem BatchBuffer.Agrees.later {buffer : BatchBuffer} {clock later : Nat}
    (h : buffer.Agrees clock) (hle : clock ≤ later) : buffer.Agrees later :=
  ⟨h.named, fun l hl => Nat.le_trans (h.past l hl) hle⟩

/-- The digest of a ripe buffer is due. -/
theorem BatchBuffer.Agrees.meant {buffer : BatchBuffer} {d : Digest} {now clock : Nat}
    (h : buffer.Agrees clock) (hripe : buffer.Ripe now) (hnow : now ≤ clock)
    (hchannel : d.channel = buffer.channel) (hlines : d.lines = buffer.lines) :
    d.Meant clock := by
  obtain ⟨oldest, hhead, hle⟩ := hripe
  have hpast := h.past oldest (List.mem_of_mem_head? hhead)
  intro l hl
  rw [hlines] at hl ⊢
  obtain ⟨hnamed, hinterval⟩ := h.named l hl
  exact ⟨hnamed.trans hchannel.symm, oldest, hhead, by omega⟩

namespace NotifyLayer

variable {s s₀ t : NotifyLayer}

/-- Everything buffered and everything on its way or posted is where it was meant to be. -/
structure Placed (s : NotifyLayer) : Prop where
  buffers : ∀ name buffer, s.batches.lookup name = some buffer → buffer.Agrees s.clock
  timed : ∀ now, s.flusher = .timed now → now ≤ s.clock
  toPost : ∀ d ∈ s.flusher.toPost, d.Meant s.clock
  posted : ∀ p ∈ s.posted, p.digest.Meant p.time

theorem bufferAfter_agrees {r : Routed} (h : Placed s)
    (hroute : ∀ buffer, s.batches.lookup r.eventName = some buffer →
      r.channel = buffer.channel ∧ r.interval ≤ buffer.interval) :
    (s.bufferAfter r).Agrees s.clock := by
  unfold bufferAfter
  cases hbuffer : s.batches.lookup r.eventName with
  | none =>
    refine ⟨?_, ?_⟩
    · simp [BatchBuffer.new]
    · simp [BatchBuffer.new]
  | some buffer =>
    obtain ⟨hnamed, hpast⟩ := h.buffers _ _ hbuffer
    refine ⟨?_, ?_⟩
    · intro l hl
      rcases List.mem_append.mp hl with hl | hl
      · exact hnamed l hl
      · rw [List.mem_singleton.mp hl]
        exact hroute buffer hbuffer
    · intro l hl
      rcases List.mem_append.mp hl with hl | hl
      · exact hpast l hl
      · rw [List.mem_singleton.mp hl]

theorem placed_step {a : Event} (h : Placed s) (hstep : SameRoute s a ∧ s.step a = some t) :
    Placed t := by
  obtain ⟨hroute, hs⟩ := hstep
  cases step_moves hs with
  | dispatches e =>
    obtain ⟨hclock, hbatches, hflusher, -, hposted⟩ := dispatch_sameBatching s e
    refine ⟨?_, ?_, ?_, ?_⟩
    · rw [hbatches, hclock]
      exact h.buffers
    · rw [hflusher, hclock]
      exact h.timed
    · rw [hflusher, hclock]
      exact h.toPost
    · rw [hposted]
      exact h.posted
  | enqueues i r hr =>
    refine ⟨?_, h.timed, h.toPost, h.posted⟩
    have hafter := bufferAfter_agrees h fun buffer hbuffer => hroute r hr buffer hbuffer
    have hall : Emptying (fun _ buffer => buffer.Agrees s.clock) s.batches :=
      ⟨h.buffers, fun _ _ _ => ⟨by simp, by simp⟩⟩
    exact (hall.insert hafter).each
  | ticks now hle =>
    refine ⟨?_, ?_, ?_, h.posted⟩
    · intro name buffer hbuffer
      exact (h.buffers name buffer hbuffer).later hle
    · intro now' hnow
      exact Nat.le_trans (h.timed now' hnow) hle
    · intro d hd
      exact (h.toPost d hd).later hle
  | wakes hidle =>
    refine ⟨h.buffers, ?_, ?_, h.posted⟩
    · intro now hnow
      rw [Flusher.timed.inj hnow]
    · intro d hd
      cases hd
  | drains now order htimed hperm =>
    have hall : Emptying (fun _ buffer => buffer.Agrees s.clock) s.batches :=
      ⟨h.buffers, fun _ _ _ => ⟨by simp, by simp⟩⟩
    obtain ⟨hdigests, hleft⟩ := drainRipe_digests now order hall
    refine ⟨hleft.each, ?_, ?_, h.posted⟩
    · intro now' hnow
      cases hnow
    · intro d hd
      obtain ⟨buffer, hagrees, hripe, hchannel, hlines⟩ := hdigests d hd
      exact hagrees.meant hripe (h.timed now htimed) hchannel hlines
  | rests hdone =>
    refine ⟨h.buffers, ?_, ?_, h.posted⟩
    · intro now hnow
      cases hnow
    · intro d hd
      cases hd
  | posts d rest hposting =>
    have htoPost := h.toPost
    rw [hposting] at htoPost
    refine ⟨h.buffers, ?_, ?_, ?_⟩
    · intro now hnow
      cases hnow
    · intro d' hd
      exact htoPost d' (.tail _ hd)
    · intro p hp
      rcases List.mem_append.mp hp with hp | hp
      · exact h.posted p hp
      · rw [List.mem_singleton.mp hp]
        exact htoPost d (.head _)

theorem placed_init (h : notifyLayer.init s) : Placed s := by
  obtain ⟨environment, defaultRule, clock, rfl⟩ := h
  refine ⟨?_, ?_, ?_, ?_⟩
  · intro name buffer hbuffer
    cases (AList.lookup_empty name).symm.trans hbuffer
  · intro now hnow
    cases hnow
  · intro d hd
    exact absurd hd List.not_mem_nil
  · intro p hp
    exact absurd hp List.not_mem_nil

/-- A flush at `now` finds the event's buffer ripe. -/
def Ripens (s : NotifyLayer) (name : String) : Prop :=
  ∃ now buffer, s.flusher = .timed now ∧ s.batches.lookup name = some buffer ∧ buffer.Ripe now

/-- A flush that finds an event's buffer ripe takes every line enqueued for the event so far. -/
theorem drain_takes {order : List String} {name : String} (h : Kept s)
    (hstep : s.step (.drain order) = some t) (hripe : s.Ripens name) :
    linesOf name (t.handed ++ t.pending) = linesOf name s.enqueued := by
  obtain ⟨_, hwhole⟩ := kept_step h hstep
  cases step_moves hstep with
  | drains now order htimed hperm =>
    obtain ⟨_, buffer, hnow, hbuffer, hready⟩ := hripe
    rw [htimed] at hnow
    obtain rfl := Flusher.timed.inj hnow
    have hname : name ∈ order := by
      rw [hperm.mem_iff]
      exact AList.lookup_isSome.mp (by rw [hbuffer]; rfl)
    have hempty := drainRipe_empties now order h.sorted hname hbuffer hready
    have hall := hwhole name
    rw [hempty, List.append_nil] at hall
    exact hall

end NotifyLayer

open NotifyLayer

/-- In every run whose lines each name the channel of their event's buffer and no longer interval,
what is posted of an event is what was enqueued for it, once and in order; a flush that finds the
event's buffer ripe takes all of it, and posts it; and each line comes to the channel its rule named,
when the interval it named is up. -/
theorem batches_reach {s₀ s : NotifyLayer} {tr : List (Taken NotifyLayer Event)}
    (h₀ : notifyLayer.init s₀) (h : (notifyLayer.restrict SameRoute).Run s₀ tr s) :
    (∀ name, linesOf name s.handed <+: linesOf name s.enqueued) ∧
    (∀ x ∈ tr, ∀ order, x.label = .drain order → ∀ name, x.source.Ripens name →
      linesOf name x.source.enqueued <+: linesOf name (s.handed ++ s.pending)) ∧
    (∃ n t, exec step s (.replicate n .post) = some t ∧ t.pending = [] ∧
      t.handed = s.handed ++ s.pending) ∧
    ∀ p ∈ s.posted, p.digest.Meant p.time := by
  have hfree := h.of_restrict
  have hkept : Kept s := hfree.invariant (fun _ _ _ => kept_step) (kept_init h₀)
  refine ⟨?_, ?_, ?_, ?_⟩
  · intro name
    rw [← hkept.whole name, linesOf_append, List.append_assoc]
    exact List.prefix_append ..
  · intro x hx order hlabel name hripe
    obtain ⟨hstep, before, hbefore⟩ := hfree.taken hx
    rw [hlabel] at hstep
    have hsource : Kept x.source := hbefore.invariant (fun _ _ _ => kept_step) (kept_init h₀)
    have htakes := drain_takes hsource hstep hripe
    have hsent : x.target.handed ++ x.target.pending <+: s.handed ++ s.pending :=
      hfree.stays (P := fun s => x.target.handed ++ x.target.pending <+: s.handed ++ s.pending)
        (fun _ _ _ hsofar hnext => hsofar.trans (sent_step hnext)) hx List.prefix_rfl
    rw [← htakes]
    exact hsent.filter _
  · cases hflusher : s.flusher with
    | posting toPost =>
      obtain ⟨t, hexec, hidle, hhanded⟩ := posting_finishes toPost hflusher
      refine ⟨_, t, hexec, ?_, hhanded⟩
      unfold pending
      rw [hidle]
      rfl
    | idle | timed now =>
      have hnone : s.pending = [] := by
        unfold pending
        rw [hflusher]
        rfl
      exact ⟨0, s, rfl, hnone, by rw [hnone, List.append_nil]⟩
  · exact (h.invariant (fun _ _ _ => placed_step) (placed_init h₀)).posted

/-- A login, batched for ten ticks to the channel the provider names. -/
def login (channel : String) : Emitted :=
  ⟨"login", ∅, some { RoutingRule.toChannel channel with batch := some ⟨10⟩ }, true, none⟩

/-- The line is enqueued, and the flusher wakes ten ticks later, at `now`. -/
def loginPosted (channel : String) (now : Nat) : List NotifyLayer.Event :=
  [.dispatch (login channel), .enqueue 0, .tick now, .wake, .drain ["login"], .post, .post]

theorem batches_reach_login : ∃ s tr, (notifyLayer.restrict SameRoute).Run
    (.build "production" none) tr s ∧ s.handed.length = 1 ∧
      ∀ p ∈ s.posted, p.digest.Meant p.time := by
  have hexec : (exec (fun s a => if decide (SameRoute s a) then step s a else none)
      (.build "production" none) (loginPosted "#logins" 10)).any
        (fun s => s.handed.length = 1) = true := by decide +kernel
  obtain ⟨s, hs, hlength⟩ := (Option.any_eq_true _ _).mp hexec
  obtain ⟨tr, hrun⟩ := Lts.Run.execIf (M := notifyLayer) (G := SameRoute)
    (fun _ _ => of_decide_eq_true) (fun _ _ _ hstep => hstep) _ hs
  have hreach := batches_reach ⟨"production", none, 0, rfl⟩ hrun
  exact ⟨s, tr, hrun, of_decide_eq_true hlength, hreach.2.2.2⟩

/-- A reloaded rule names `#security` once `#logins` had its first digest; the next digest goes to
`#logins` all the same. -/
theorem reloaded_channel_missed : ¬ ∀ (s₀ s : NotifyLayer) (tr : List (Taken NotifyLayer Event)),
    notifyLayer.init s₀ → notifyLayer.Run s₀ tr s →
    ∀ p ∈ s.posted, ∀ l ∈ p.digest.lines, l.channel = p.digest.channel := by
  intro h
  have hexec : (exec step (.build "production" none)
      (loginPosted "#logins" 10 ++ loginPosted "#security" 20)).any (fun s =>
        s.posted.any fun p => p.digest.lines.any fun l => l.channel ≠ p.digest.channel) = true := by
    decide +kernel
  obtain ⟨s, hs, hmissed⟩ := (Option.any_eq_true _ _).mp hexec
  obtain ⟨tr, hrun, -⟩ := Lts.Run.labels (M := notifyLayer) (fun _ _ _ hstep => hstep) _ hs
    (.start _)
  obtain ⟨p, hp, hmissed⟩ := List.any_eq_true.mp hmissed
  obtain ⟨l, hl, hmissed⟩ := List.any_eq_true.mp hmissed
  exact of_decide_eq_true hmissed (h _ s _ ⟨"production", none, 0, rfl⟩ hrun p hp l hl)

end Tronc.Notify
