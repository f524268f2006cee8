import Mathlib.Data.List.AList
import Tronc.Library.Transition
import Tronc.Mcp.Caller
import Tronc.Mcp.Serialize

namespace Tronc.Mcp

open CancelTree Transition

def NOTIFICATIONS_CANCELLED : String := "notifications/cancelled"

/-- Who sent a request, in which session, and the text of the id they gave it. -/
structure RequestKey where
  caller : CallerKey
  request : String
  deriving DecidableEq

/-- `RequestKey::new`: none for a caller that cannot be told from another. -/
def RequestKey.of (crates : Crates) (ctx : ToolContext) (requestId : Json) : Option RequestKey :=
  if ctx.caller.tellsCallersApart then some ⟨ctx.caller, toText crates requestId⟩ else none

/-- What a cancellation names: a string or a number, and nothing else. -/
def cancelledRequestId (params : Option Json) : Option Json :=
  (params.bind (Json.get · "requestId")).filter isName

/-- The requests a server is serving. -/
structure InFlightRequests where
  nextSerial : UInt64
  entries : AList fun _ : RequestKey => List (UInt64 × Token)
  deriving DecidableEq

namespace InFlightRequests

variable (r : InFlightRequests)

/-- What is registered under a key. -/
def under (key : RequestKey) : List (UInt64 × Token) := (r.entries.lookup key).getD []

def push (key : Option RequestKey) (serial : UInt64) (token : Token) : InFlightRequests :=
  match key with
  | none => r
  | some key => { r with entries := r.entries.insert key (r.under key ++ [(serial, token)]) }

/-- `InFlightRequests::cancel`, with whether a request was found. -/
def cancel (crates : Crates) (tokens : Tokens) (ctx : ToolContext) (requestId : Json) :
    Tokens × Bool :=
  match RequestKey.of crates ctx requestId with
  | none => (tokens, false)
  | some key =>
    match r.entries.lookup key with
    | none => (tokens, false)
    | some entries => ((entries.map Prod.snd).foldl Tokens.cancel tokens, !entries.isEmpty)

def release (key : RequestKey) (serial : UInt64) : InFlightRequests :=
  match r.entries.lookup key with
  | none => r
  | some live =>
    let live := live.filter fun e => e.1 != serial
    if live.isEmpty then { r with entries := r.entries.erase key }
    else { r with entries := r.entries.insert key live }

end InFlightRequests

/-- Where a registration is: its guard is made once its entry is in the table. -/
inductive Registration.Stage where
  | drawn
  | held
  | dropped
  deriving DecidableEq

/-- An `InFlightGuard`, with the caller and the id it is for. -/
structure Registration where
  caller : CallerKey
  requestId : Json
  key : Option RequestKey
  serial : UInt64
  token : Token
  stage : Registration.Stage
  deriving DecidableEq

/-- Whether a notification may find it. -/
def Registration.isLive (g : Registration) : Bool :=
  g.stage == .held && g.caller.tellsCallersApart

/-- The registry under its users: every registration so far, and the tokens of the process. -/
structure Serving where
  registry : InFlightRequests
  guards : List Registration
  tokens : Tokens
  deriving DecidableEq

namespace Serving

inductive Event where
  /-- A token is made elsewhere, by a transport or a caller. -/
  | token (parent : Option Token)
  /-- A token is cancelled elsewhere. -/
  | fire (token : Token)
  /-- `register` draws a serial and makes the request's token. -/
  | register (ctx : ToolContext) (requestId : Json)
  /-- `register` enters the request in the table, and returns its guard. -/
  | push (i : Nat)
  /-- `notifications/cancelled`. -/
  | notify (ctx : ToolContext) (params : Option Json)
  /-- A guard is dropped. -/
  | drop (i : Nat)
  deriving DecidableEq

variable (crates : Crates) (w : Serving)

def register (ctx : ToolContext) (requestId : Json) : Serving :=
  let token := w.tokens.child (some ctx.cancellation)
  { registry := { w.registry with nextSerial := w.registry.nextSerial + 1 }
    guards := w.guards ++
      [⟨ctx.caller, requestId, RequestKey.of crates ctx requestId, w.registry.nextSerial, token,
        .drawn⟩]
    tokens := w.tokens.make token }

def push (i : Nat) (g : Registration) : Serving :=
  { w with
    registry := w.registry.push g.key g.serial g.token
    guards := w.guards.set i { g with stage := .held } }

/-- What the server does on the notification. -/
def notify (ctx : ToolContext) (params : Option Json) : Serving :=
  match cancelledRequestId params with
  | none => w
  | some requestId =>
    { w with tokens := (w.registry.cancel crates w.tokens ctx requestId).1 }

/-- `InFlightGuard::drop`. -/
def drop (i : Nat) (g : Registration) : Serving :=
  { w with
    registry := g.key.elim w.registry (w.registry.release · g.serial)
    guards := w.guards.set i { g with stage := .dropped } }

def step : Event → Option Serving
  | .token parent =>
    if ∀ t ∈ parent, t ∈ w.tokens.made then
      some { w with tokens := w.tokens.make (w.tokens.child parent) }
    else none
  | .fire token => some { w with tokens := w.tokens.cancel token }
  | .register ctx requestId =>
    if ctx.cancellation ∈ w.tokens.made then some (register crates w ctx requestId) else none
  | .push i =>
    match w.guards[i]? with
    | some g => if g.stage = .drawn then some (w.push i g) else none
    | none => none
  | .notify ctx params => some (notify crates w ctx params)
  | .drop i =>
    match w.guards[i]? with
    | some g => if g.stage = .held then some (w.drop i g) else none
    | none => none

def empty : Serving := ⟨⟨0, ∅⟩, [], .empty⟩

end Serving

/-- A server's registry, from when it is made. -/
def inFlight (crates : Crates) : Lts Serving Serving.Event where
  init w := w = .empty
  step w e w' := Serving.step crates w e = some w'

namespace InFlightRequests

variable {r : InFlightRequests} {key key' : RequestKey} {serial : UInt64} {token : Token}

/-- No entry is left empty. -/
def Occupied (r : InFlightRequests) : Prop := ∀ key, r.entries.lookup key ≠ some []

theorem under_push : (r.push (some key) serial token).under key' =
    if key' = key then r.under key ++ [(serial, token)] else r.under key' := by
  show ((r.entries.insert key (r.under key ++ [(serial, token)])).lookup key').getD [] = _
  by_cases heq : key' = key
  · rw [if_pos heq, heq, AList.lookup_insert]
    rfl
  · rw [if_neg heq, AList.lookup_insert_ne heq]
    rfl

theorem Occupied.push (h : r.Occupied) (key : Option RequestKey) (serial : UInt64) (token : Token) :
    (r.push key serial token).Occupied := by
  cases key with
  | none => exact h
  | some key =>
    intro key'
    show (r.entries.insert key _).lookup key' ≠ some []
    by_cases heq : key' = key
    · rw [heq, AList.lookup_insert]
      simp
    · rw [AList.lookup_insert_ne heq]
      exact h key'

theorem under_release : (r.release key serial).under key' =
    if key' = key then (r.under key).filter (fun e => e.1 != serial) else r.under key' := by
  have hunder : r.under key = (r.entries.lookup key).getD [] := rfl
  unfold release
  split
  · rename_i hnone
    rw [hnone] at hunder
    split
    · rename_i heq
      rw [heq, hunder]
      rfl
    · rfl
  · rename_i live hsome
    rw [hsome] at hunder
    by_cases heq : key' = key
    · rw [if_pos heq, heq, hunder]
      dsimp only
      split
      · rename_i hempty
        show ((r.entries.erase key).lookup key).getD [] = _
        rw [AList.lookup_erase]
        exact (List.isEmpty_iff.mp hempty).symm
      · show ((r.entries.insert key _).lookup key).getD [] = _
        rw [AList.lookup_insert]
        rfl
    · rw [if_neg heq]
      dsimp only
      split
      · show ((r.entries.erase key).lookup key').getD [] = _
        rw [AList.lookup_erase_ne heq]
        rfl
      · show ((r.entries.insert key _).lookup key').getD [] = _
        rw [AList.lookup_insert_ne heq]
        rfl

theorem Occupied.release (h : r.Occupied) (key : RequestKey) (serial : UInt64) :
    (r.release key serial).Occupied := by
  intro key'
  unfold InFlightRequests.release
  split
  · exact h key'
  · dsimp only
    split
    · show (r.entries.erase key).lookup key' ≠ some []
      by_cases heq : key' = key
      · rw [heq, AList.lookup_erase]
        simp
      · rw [AList.lookup_erase_ne heq]
        exact h key'
    · rename_i hne
      show (r.entries.insert key _).lookup key' ≠ some []
      by_cases heq : key' = key
      · rw [heq, AList.lookup_insert]
        intro hnil
        rw [Option.some.inj hnil] at hne
        exact hne rfl
      · rw [AList.lookup_insert_ne heq]
        exact h key'

/-- A cancellation fires what is registered under its key. -/
theorem isCancelled_cancel (crates : Crates) (tokens : Tokens) (ctx : ToolContext)
    (requestId : Json) (u : Token) :
    (r.cancel crates tokens ctx requestId).1.isCancelled u = true ↔
      tokens.isCancelled u = true ∨ ∃ key, RequestKey.of crates ctx requestId = some key ∧
        ∃ e ∈ r.under key, u.isUnder e.2 = true := by
  unfold cancel
  split
  · rename_i hnone
    simp [hnone]
  · rename_i key hkey
    rw [hkey]
    split
    · rename_i hnone
      have hunder : r.under key = [] := by
        unfold under
        rw [hnone]
        rfl
      simp [hunder]
    · rename_i entries hsome
      have hunder : r.under key = entries := by
        unfold under
        rw [hsome]
        rfl
      have hmap : (∃ t ∈ entries.map Prod.snd, u.isUnder t = true) ↔
          ∃ e ∈ entries, u.isUnder e.2 = true := by
        simp only [List.mem_map]
        constructor
        · rintro ⟨t, ⟨e, he, rfl⟩, hu⟩
          exact ⟨e, he, hu⟩
        · rintro ⟨e, he, hu⟩
          exact ⟨e.2, ⟨e, he, rfl⟩, hu⟩
      rw [Tokens.isCancelled_foldl, hmap]
      simp [hunder]

@[simp] theorem made_cancel (crates : Crates) (tokens : Tokens) (ctx : ToolContext)
    (requestId : Json) : (r.cancel crates tokens ctx requestId).1.made = tokens.made := by
  unfold cancel
  split
  · rfl
  · split
    · rfl
    · exact Tokens.made_foldl _ _

end InFlightRequests

end Tronc.Mcp
