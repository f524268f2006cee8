import Tronc.Library.Retain
import Tronc.Library.Transition
import Tronc.Notify.Render

namespace Tronc.Notify

open Transition

structure DedupRule where
  keys : List String
  window : Nat
  deriving DecidableEq

structure BatchRule where
  interval : Nat
  deriving DecidableEq

structure RoutingRule where
  channel : String
  enabled : Bool
  dedup : Option DedupRule
  batch : Option BatchRule
  sampleRate : Rat
  enabledEnvs : Option (List String)
  deriving DecidableEq

def RoutingRule.toChannel (channel : String) : RoutingRule :=
  ⟨channel, true, none, none, 1, none⟩

def RoutingRule.allowsEnv (rule : RoutingRule) (env : String) : Bool :=
  rule.enabledEnvs.all (·.contains env)

/-- The values of the key fields, with a NUL between each two. -/
def joinKeys (keys : List String) (fields : Fields) : String :=
  "\x00".intercalate (keys.map fun key => (fields.lookup key).getD "")

/-- `build_dedup_key`. -/
def buildDedupKey (eventName : String) (keys : List String) (fields : Fields) : String × String :=
  (eventName, joinKeys keys fields)

structure BatchedLine where
  queuedAt : Nat
  text : String
  deriving DecidableEq

/-- A buffered line, with the channel and the interval its event's rule named. The code keeps the
line alone. -/
structure Queued where
  eventName : String
  channel : String
  interval : Nat
  line : BatchedLine
  deriving DecidableEq

structure BatchBuffer where
  channel : String
  interval : Nat
  lines : List Queued
  deriving DecidableEq

def BatchBuffer.new (channel : String) (interval : Nat) : BatchBuffer := ⟨channel, interval, []⟩

def formatBatch (eventName : String) (lines : List BatchedLine) : String :=
  let head := "*" ++ eventName ++ "* — batched x" ++ toString lines.length
  head ++ "\n" ++ "\n".intercalate (lines.map fun line => "• " ++ line.text)

/-- An event that reaches `dispatch`: what the provider answers for it, what the sampling counter
gives, and what the host's actions supply. -/
structure Emitted where
  name : String
  fields : Fields
  route : Option RoutingRule
  drawn : Bool
  actions : Option (List Json)
  deriving DecidableEq

/-- A line on its way to `enqueue_batch`, before the lock is taken. -/
structure Routed where
  eventName : String
  channel : String
  interval : Nat
  text : String
  deriving DecidableEq

/-- A drained buffer that is still to be posted. -/
structure Digest where
  eventName : String
  channel : String
  lines : List Queued
  deriving DecidableEq

def Digest.blocks (d : Digest) : List Json :=
  singleLineBlocks d.eventName (formatBatch d.eventName (d.lines.map Queued.line))

/-- A digest handed to the Slack client, and when. -/
structure Posted where
  digest : Digest
  time : Nat
  deriving DecidableEq

/-- Where the batch flusher is. -/
inductive Flusher where
  | idle
  /-- `flush_ripe_batches` has read the clock, and has still to take the lock. -/
  | timed (now : Nat)
  | posting (toPost : List Digest)
  deriving DecidableEq

def Flusher.toPost : Flusher → List Digest
  | .posting toPost => toPost
  | .idle | .timed _ => []

/-- An event that passed its rule's deduplication, and when. -/
structure Passed where
  name : String
  fields : Fields
  time : Nat
  deriving DecidableEq

/-- A layer with its flusher; `passed`, `enqueued`, `immediate` and `posted` tell what happened so
far. -/
structure NotifyLayer where
  environment : String
  defaultRule : Option RoutingRule
  clock : Nat
  dedup : AList fun _ : String × String => Nat
  routed : List Routed
  batches : AList fun _ : String => BatchBuffer
  flusher : Flusher
  passed : List Passed
  enqueued : List Queued
  immediate : List (String × List Json)
  posted : List Posted
  deriving DecidableEq

/-- `NotifyLayerBuilder::build` of a layer with a Slack sink. -/
def NotifyLayer.build (environment : String) (defaultRule : Option RoutingRule) : NotifyLayer where
  environment := environment
  defaultRule := defaultRule
  clock := 0
  dedup := ∅
  routed := []
  batches := ∅
  flusher := .idle
  passed := []
  enqueued := []
  immediate := []
  posted := []

/-- `sample_passes`; between the two ends the counter decides. -/
def samplePasses (sampleRate : Rat) (drawn : Bool) : Bool :=
  if 1 ≤ sampleRate then true else if sampleRate ≤ 0 then false else drawn

/-- `immediate_blocks`. -/
def immediateBlocks (e : Emitted) : List Json :=
  eventBlocks e.name e.fields ++
    match e.actions with
    | none | some [] => []
    | some elements => [.object [("type", .string "actions"),
        ("block_id", .string ("notify-actions-" ++ e.name)), ("elements", .array elements)]]

/-- Whether the time since the last one with the key is within the window. -/
def repeats (dedup : AList fun _ : String × String => Nat) (key : String × String)
    (now window : Nat) : Bool :=
  (dedup.lookup key).any fun last => now - last < window

/-- The loop of `flush_ripe_batches` over the buffers, in the order the map gives them. -/
def drainRipe (now : Nat) : List String → (AList fun _ : String => BatchBuffer) →
    List Digest × AList fun _ : String => BatchBuffer
  | [], batches => ([], batches)
  | eventName :: rest, batches =>
    match batches.lookup eventName with
    | none => drainRipe now rest batches
    | some buffer =>
      match buffer.lines with
      | [] => drainRipe now rest batches
      | oldest :: _ =>
        if now - oldest.line.queuedAt < buffer.interval then drainRipe now rest batches
        else
          let drained := drainRipe now rest (batches.insert eventName { buffer with lines := [] })
          (⟨eventName, buffer.channel, buffer.lines⟩ :: drained.1, drained.2)

namespace NotifyLayer

inductive Event where
  | dispatch (e : Emitted)
  /-- A dispatch of a batched event gets the lock on the buffers. -/
  | enqueue (i : Nat)
  | tick (now : Nat)
  /-- The ticker wakes the flusher. -/
  | wake
  /-- The flusher has the lock; the map gives its buffers in the order named. -/
  | drain (order : List String)
  | post
  deriving DecidableEq

variable (s : NotifyLayer)

/-- The rule in force for an event, if it lets the event go on to deduplication. -/
def admits (e : Emitted) : Option RoutingRule :=
  match e.route.or s.defaultRule with
  | none => none
  | some rule =>
    if !rule.enabled || !rule.allowsEnv s.environment then none
    else if !samplePasses rule.sampleRate e.drawn then none
    else some rule

/-- What follows deduplication: the line goes to its buffer, or the event is posted at once. -/
def forward (rule : RoutingRule) (e : Emitted) : NotifyLayer :=
  match rule.batch with
  | some batch =>
    { s with routed := s.routed ++
        [⟨e.name, rule.channel, batch.interval, formatLine e.name e.fields⟩] }
  | none => { s with immediate := s.immediate ++ [(rule.channel, immediateBlocks e)] }

def letThrough (dedup : DedupRule) (e : Emitted) : NotifyLayer :=
  { s with
    dedup := s.dedup.insert (buildDedupKey e.name dedup.keys e.fields) s.clock
    passed := s.passed ++ [⟨e.name, e.fields, s.clock⟩] }

/-- The negation of `dedup_passes`. -/
def suppresses (dedup : DedupRule) (e : Emitted) : Bool :=
  repeats s.dedup (buildDedupKey e.name dedup.keys e.fields) s.clock dedup.window

def dispatch (e : Emitted) : NotifyLayer :=
  match s.admits e with
  | none => s
  | some rule =>
    match rule.dedup with
    | none => s.forward rule e
    | some dedup => if s.suppresses dedup e then s else (s.letThrough dedup e).forward rule e

/-- `enqueue_batch`: the event's buffer is made with the channel and the interval of the first line
that comes for it. -/
def enqueue (r : Routed) : NotifyLayer :=
  let queued : Queued := ⟨r.eventName, r.channel, r.interval, s.clock, r.text⟩
  let buffer := (s.batches.lookup r.eventName).getD (.new r.channel r.interval)
  { s with
    batches := s.batches.insert r.eventName { buffer with lines := buffer.lines ++ [queued] }
    enqueued := s.enqueued ++ [queued] }

def step : Event → Option NotifyLayer
  | .dispatch e => some (s.dispatch e)
  | .enqueue i => s.routed[i]?.map fun r => { s.enqueue r with routed := s.routed.eraseIdx i }
  | .tick now => if s.clock ≤ now then some { s with clock := now } else none
  | .wake =>
    match s.flusher with
    | .idle => some { s with flusher := .timed s.clock }
    | _ => none
  | .drain order =>
    match s.flusher with
    | .timed now =>
      if order.Perm s.batches.keys then
        let drained := drainRipe now order s.batches
        some { s with flusher := .posting drained.1, batches := drained.2 }
      else none
    | _ => none
  | .post =>
    match s.flusher with
    | .posting [] => some { s with flusher := .idle }
    | .posting (d :: rest) =>
      some { s with flusher := .posting rest, posted := s.posted ++ [⟨d, s.clock⟩] }
    | _ => none

variable {s t : NotifyLayer}

/-- What one step does, and when it may be taken. -/
inductive Moves (s : NotifyLayer) : Event → NotifyLayer → Prop where
  | dispatches (e : Emitted) : Moves s (.dispatch e) (s.dispatch e)
  | enqueues (i : Nat) (r : Routed) : s.routed[i]? = some r →
      Moves s (.enqueue i) { s.enqueue r with routed := s.routed.eraseIdx i }
  | ticks (now : Nat) : s.clock ≤ now → Moves s (.tick now) { s with clock := now }
  | wakes : s.flusher = .idle → Moves s .wake { s with flusher := .timed s.clock }
  | drains (now : Nat) (order : List String) : s.flusher = .timed now →
      order.Perm s.batches.keys → Moves s (.drain order)
        { s with
          flusher := .posting (drainRipe now order s.batches).1
          batches := (drainRipe now order s.batches).2 }
  | rests : s.flusher = .posting [] → Moves s .post { s with flusher := .idle }
  | posts (d : Digest) (rest : List Digest) : s.flusher = .posting (d :: rest) →
      Moves s .post { s with flusher := .posting rest, posted := s.posted ++ [⟨d, s.clock⟩] }

theorem step_moves {a : Event} (h : s.step a = some t) : Moves s a t := by
  cases a with
  | dispatch e =>
    obtain rfl := Option.some.inj h
    exact .dispatches e
  | enqueue i =>
    obtain ⟨r, hr, rfl⟩ := Option.map_eq_some_iff.mp h
    exact .enqueues i r hr
  | tick now =>
    simp only [step] at h
    split at h
    · rename_i hle
      obtain rfl := Option.some.inj h
      exact .ticks now hle
    · cases h
  | wake =>
    simp only [step] at h
    split at h
    · rename_i hidle
      obtain rfl := Option.some.inj h
      exact .wakes hidle
    · cases h
  | drain order =>
    simp only [step] at h
    split at h
    · rename_i now hnow
      split at h
      · rename_i hperm
        obtain rfl := Option.some.inj h
        exact .drains now order hnow hperm
      · cases h
    · cases h
  | post =>
    simp only [step] at h
    split at h
    · rename_i hdone
      obtain rfl := Option.some.inj h
      exact .rests hdone
    · rename_i d rest hposting
      obtain rfl := Option.some.inj h
      exact .posts d rest hposting
    · cases h

end NotifyLayer

/-- A layer with a Slack sink, and whatever happens to it. -/
def notifyLayer : Lts NotifyLayer NotifyLayer.Event where
  init s := ∃ environment defaultRule clock, s = { NotifyLayer.build environment defaultRule with
    clock := clock }
  step s e t := s.step e = some t

end Tronc.Notify
