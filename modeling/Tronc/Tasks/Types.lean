import Tronc.Json

namespace Tronc.Tasks

/-- Opaque, server-minted task identifier. -/
structure TaskId where
  raw : String
  deriving DecidableEq

inductive TaskStatus where
  | working
  | inputRequired
  | completed
  | failed
  | cancelled
  deriving DecidableEq

/-- No transition leaves a terminal state. -/
def TaskStatus.isTerminal : TaskStatus → Bool
  | .completed | .failed | .cancelled => true
  | .working | .inputRequired => false

/-- What is used of chrono: the RFC 3339 text of an instant, in milliseconds, and its reading. -/
structure Chrono where
  toRfc3339Millis : Int → String
  parseFromRfc3339 : String → Option Int

/-- Operational metadata carried by every task-bearing message. -/
structure Task where
  taskId : TaskId
  status : TaskStatus
  statusMessage : Option String
  createdAt : String
  lastUpdatedAt : String
  ttlMs : Option UInt64
  pollIntervalMs : Option UInt64
  deriving DecidableEq

/-- Seed a new working task; `now` is the `current_timestamp` it reads. -/
def Task.new (now : String) (taskId : TaskId) (ttlMs pollIntervalMs : Option UInt64) : Task where
  taskId := taskId
  status := .working
  statusMessage := none
  createdAt := now
  lastUpdatedAt := now
  ttlMs := ttlMs
  pollIntervalMs := pollIntervalMs

inductive TaskPayload where
  | working
  | inputRequired (inputRequests : Map)
  | completed (result : Map)
  | failed (error : Map)
  | cancelled
  deriving DecidableEq

def TaskPayload.status : TaskPayload → TaskStatus
  | .working => .working
  | .inputRequired _ => .inputRequired
  | .completed _ => .completed
  | .failed _ => .failed
  | .cancelled => .cancelled

structure DetailedTask where
  task : Task
  payload : TaskPayload
  deriving DecidableEq

namespace DetailedTask

/-- Pair a task with a payload, forcing `task.status` to match the payload. -/
def new (task : Task) (payload : TaskPayload) : DetailedTask :=
  ⟨{ task with status := payload.status }, payload⟩

def status (t : DetailedTask) : TaskStatus := t.task.status

/-- The base status is the one the payload corresponds to. -/
def Agrees (t : DetailedTask) : Prop := t.task.status = t.payload.status

theorem new_agrees (task : Task) (payload : TaskPayload) : (new task payload).Agrees := rfl

@[simp] theorem new_status (task : Task) (payload : TaskPayload) :
    (new task payload).status = payload.status := rfl

@[simp] theorem new_payload (task : Task) (payload : TaskPayload) :
    (new task payload).payload = payload := rfl

/-- What a transition may not change. -/
def seed (t : DetailedTask) : TaskId × String × Option UInt64 :=
  (t.task.taskId, t.task.createdAt, t.task.ttlMs)

end DetailedTask

/-- Who a task belongs to. -/
structure TaskOwner where
  userId : Option String
  tenantId : Option String
  deriving DecidableEq

inductive TaskError where
  | notFound (id : TaskId)
  | invalidState (taskId : TaskId) (status : TaskStatus)
  | invalidInput (taskId : TaskId) (reason : String)
  | detached (id : TaskId)
  | store (reason : String)
  deriving DecidableEq

/-- Retention and pacing applied to newly created tasks. -/
structure TaskOptions where
  ttlMs : Option UInt64
  pollIntervalMs : UInt64

/-- Client answers, keyed like the `inputRequests` they answer. -/
abbrev InputResponses := Map

/-- Check that `responses` answers exactly the outstanding `requests`. -/
def validateInputKeys (taskId : TaskId) (requests : Map) (responses : InputResponses) :
    Except TaskError Unit :=
  match requests.keys.find? fun key => !responses.containsKey key with
  | some missing => .error (.invalidInput taskId s!"no response for input request '{missing}'")
  | none =>
    match responses.keys.find? fun key => !requests.containsKey key with
    | some unknown =>
      .error (.invalidInput taskId s!"'{unknown}' names no outstanding input request")
    | none => .ok ()

def SameKeys (requests responses : Map) : Prop :=
  ∀ key, key ∈ requests.keys ↔ key ∈ responses.keys

private theorem find_missing_eq_none {asked given : Map} :
    (asked.keys.find? fun key => !given.containsKey key) = none ↔
      ∀ key ∈ asked.keys, key ∈ given.keys := by
  simp [List.find?_eq_none, Map.containsKey_iff]

theorem validateInputKeys_eq_ok {id : TaskId} {requests : Map} {responses : InputResponses} :
    validateInputKeys id requests responses = .ok () ↔ SameKeys requests responses := by
  unfold validateInputKeys
  cases hm : requests.keys.find? fun key => !responses.containsKey key with
  | some missing =>
    refine ⟨fun h => by simp at h, fun h => ?_⟩
    have hn := find_missing_eq_none.mpr fun key hk => (h key).mp hk
    rw [hn] at hm
    simp at hm
  | none =>
    have hsub := find_missing_eq_none.mp hm
    cases hu : responses.keys.find? fun key => !requests.containsKey key with
    | some unknown =>
      refine ⟨fun h => by simp at h, fun h => ?_⟩
      have hn := find_missing_eq_none.mpr fun key hk => (h key).mpr hk
      rw [hn] at hu
      simp at hu
    | none =>
      have hsup := find_missing_eq_none.mp hu
      exact iff_of_true rfl fun key => ⟨hsub key, hsup key⟩

end Tronc.Tasks
