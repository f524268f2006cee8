import Tronc.Record
import Tronc.Tasks.Types

namespace Tronc.Tasks

open Mcp (optionalField)
open Record

def TaskStatus.asStr : TaskStatus → String
  | working => "working"
  | inputRequired => "input_required"
  | completed => "completed"
  | failed => "failed"
  | cancelled => "cancelled"

/-- The status of this name. -/
def TaskStatus.ofName (name : String) : Option TaskStatus :=
  [working, inputRequired, completed, failed, cancelled].find? fun status => status.asStr == name

/-- What `serde` reads of a status in a flattened object: its name, or an object with that one
member and nothing in it. -/
def TaskStatus.fromValue : Json → Option TaskStatus
  | .string name => ofName name
  | .object [(name, .null)] | .object [(name, .object [])] => ofName name
  | _ => none

theorem TaskStatus.fromValue_asStr (status : TaskStatus) :
    fromValue (.string status.asStr) = some status := by
  cases status <;> rfl

namespace Task

/-- The fields of a task on the wire: a lifetime always. -/
def fields (t : Task) : List (String × Option Json) :=
  [("taskId", some (.string t.taskId.raw)),
    ("status", some (.string t.status.asStr)),
    ("statusMessage", t.statusMessage.map .string),
    ("createdAt", some (.string t.createdAt)),
    ("lastUpdatedAt", some (.string t.lastUpdatedAt)),
    ("ttlMs", some ((t.ttlMs.map u64).getD .null)),
    ("pollIntervalMs", t.pollIntervalMs.map u64)]

def ofFields (field : String → Option Json) : Option Task := do
  let taskId ← (field "taskId").bind Json.asStr
  let status ← (field "status").bind TaskStatus.fromValue
  let statusMessage ← optionalField Json.asStr (field "statusMessage")
  let createdAt ← (field "createdAt").bind Json.asStr
  let lastUpdatedAt ← (field "lastUpdatedAt").bind Json.asStr
  let ttlMs ← optionalField readU64 (field "ttlMs")
  let pollIntervalMs ← optionalField readU64 (field "pollIntervalMs")
  return ⟨⟨taskId⟩, status, statusMessage, createdAt, lastUpdatedAt, ttlMs, pollIntervalMs⟩

end Task

/-- Flat wire projection: base fields plus the optional payload fields. -/
structure DetailedTaskWire where
  task : Task
  inputRequests : Option Map
  result : Option Map
  error : Option Map
  deriving DecidableEq

namespace DetailedTaskWire

/-- The fields that a payload may have. -/
def payloadFields (w : DetailedTaskWire) : List (String × Option Json) :=
  [("inputRequests", w.inputRequests.map .object), ("result", w.result.map .object),
    ("error", w.error.map .object)]

def toValue (w : DetailedTaskWire) : Json := .object (compact (w.task.fields ++ w.payloadFields))

def ofFields (field : String → Option Json) : Option DetailedTaskWire := do
  let inputRequests ← optionalField Json.asObject (field "inputRequests")
  let result ← optionalField Json.asObject (field "result")
  let error ← optionalField Json.asObject (field "error")
  let task ← Task.ofFields field
  return ⟨task, inputRequests, result, error⟩

/-- A structure with another flattened into it is read from an object only. -/
def fromValue : Json → Option DetailedTaskWire
  | .object fields => ofFields (Map.get fields)
  | _ => none

def ofDetailed (t : DetailedTask) : DetailedTaskWire :=
  match t.payload with
  | .working | .cancelled => ⟨t.task, none, none, none⟩
  | .inputRequired inputRequests => ⟨t.task, some inputRequests, none, none⟩
  | .completed result => ⟨t.task, none, some result, none⟩
  | .failed error => ⟨t.task, none, none, some error⟩

end DetailedTaskWire

/-- Why a value is no task: it does not have its fields, or not what its status requires. -/
inductive DecodeError where
  | fields
  | custom (reason : String)
  deriving DecidableEq

namespace DetailedTask

def toValue (t : DetailedTask) : Json := (DetailedTaskWire.ofDetailed t).toValue

def ofWire (w : DetailedTaskWire) : Except DecodeError DetailedTask :=
  match w.task.status with
  | .working => .ok ⟨w.task, .working⟩
  | .cancelled => .ok ⟨w.task, .cancelled⟩
  | .inputRequired =>
    match w.inputRequests with
    | some inputRequests => .ok ⟨w.task, .inputRequired inputRequests⟩
    | none => .error (.custom "input_required task is missing \x60inputRequests\x60")
  | .completed =>
    match w.result with
    | some result => .ok ⟨w.task, .completed result⟩
    | none => .error (.custom "completed task is missing \x60result\x60")
  | .failed =>
    match w.error with
    | some error => .ok ⟨w.task, .failed error⟩
    | none => .error (.custom "failed task is missing \x60error\x60")

def fromValue (v : Json) : Except DecodeError DetailedTask :=
  match DetailedTaskWire.fromValue v with
  | none => .error .fields
  | some w => ofWire w

end DetailedTask

/-- Whether these members have what the payload carries. -/
def TaskPayload.IsCarried (fields : Map) : TaskPayload → Prop
  | .working | .cancelled => True
  | .inputRequired inputRequests => fields.get "inputRequests" = some (.object inputRequests)
  | .completed result => fields.get "result" = some (.object result)
  | .failed error => fields.get "error" = some (.object error)

section RoundTrip

variable {t : DetailedTask} {w : DetailedTaskWire} {fields : Map}

/-- No payload field has the name of a base field. -/
theorem names_nodup (w : DetailedTaskWire) :
    ((w.task.fields ++ w.payloadFields).map Prod.fst).Nodup := by
  show ["taskId", "status", "statusMessage", "createdAt", "lastUpdatedAt", "ttlMs",
    "pollIntervalMs", "inputRequests", "result", "error"].Nodup
  decide

theorem ofFields_fields (t : Task) {field : String → Option Json}
    (h : ∀ e ∈ t.fields, field e.1 = e.2) : Task.ofFields field = some t := by
  obtain ⟨⟨id⟩, status, statusMessage, createdAt, lastUpdatedAt, ttlMs, pollIntervalMs⟩ := t
  simp only [Task.fields, List.forall_mem_cons] at h
  obtain ⟨hid, hstatus, hmessage, hcreated, hupdated, httl, hpoll, -⟩ := h
  have hmessage' : optionalField Json.asStr (statusMessage.map .string) = some statusMessage :=
    optionalField_map _ fun _ => ⟨rfl, fun h => nomatch h⟩
  have httl' : optionalField readU64 (some ((ttlMs.map u64).getD .null)) = some ttlMs := by
    cases ttlMs <;> rfl
  have hpoll' : optionalField readU64 (pollIntervalMs.map u64) = some pollIntervalMs :=
    optionalField_map _ fun _ => ⟨rfl, fun h => nomatch h⟩
  unfold Task.ofFields
  rw [hid, hstatus, hmessage, hcreated, hupdated, httl, hpoll, hmessage', httl', hpoll']
  simp [TaskStatus.fromValue_asStr, Json.asStr]

theorem fromValue_toValue (w : DetailedTaskWire) :
    DetailedTaskWire.fromValue w.toValue = some w := by
  obtain ⟨task, inputRequests, result, error⟩ := w
  have hget := get_field (names_nodup ⟨task, inputRequests, result, error⟩)
  have htask := ofFields_fields task fun e he => hget e (List.mem_append_left _ he)
  have hpayload (e) (he : e ∈ DetailedTaskWire.payloadFields ⟨task, inputRequests, result, error⟩) :=
    hget e (List.mem_append_right _ he)
  have hobject (m : Option Map) : optionalField Json.asObject (m.map .object) = some m :=
    optionalField_map _ fun _ => ⟨rfl, fun h => nomatch h⟩
  show DetailedTaskWire.ofFields _ = _
  unfold DetailedTaskWire.ofFields
  rw [htask, hpayload ("inputRequests", _) List.mem_cons_self,
    hpayload ("result", _) (List.mem_cons_of_mem _ List.mem_cons_self),
    hpayload ("error", _) (List.mem_cons_of_mem _ (List.mem_cons_of_mem _ List.mem_cons_self)),
    hobject, hobject, hobject]
  rfl

/-- What was read of each field. -/
theorem fromValue_eq_some {v : Json} (h : DetailedTaskWire.fromValue v = some w) :
    ∃ fields : Map, v = .object fields ∧
      (fields.get "status").bind TaskStatus.fromValue = some w.task.status ∧
      optionalField Json.asObject (fields.get "inputRequests") = some w.inputRequests ∧
      optionalField Json.asObject (fields.get "result") = some w.result ∧
      optionalField Json.asObject (fields.get "error") = some w.error := by
  cases v with
  | object fields =>
    refine ⟨fields, rfl, ?_⟩
    simp only [DetailedTaskWire.fromValue, DetailedTaskWire.ofFields, Option.bind_eq_bind,
      Option.bind_eq_some_iff, Option.pure_def, Option.some.injEq] at h
    obtain ⟨inputRequests, hinput, result, hresult, error, herror, task, htask, rfl⟩ := h
    refine ⟨?_, hinput, hresult, herror⟩
    simp only [Task.ofFields, Option.bind_eq_bind, Option.pure_def] at htask
    obtain ⟨_, _, htask⟩ := Option.bind_eq_some_iff.mp htask
    obtain ⟨status, hstatus, htask⟩ := Option.bind_eq_some_iff.mp htask
    simp only [Option.bind_eq_some_iff, Option.some.injEq] at htask
    obtain ⟨_, _, _, _, _, _, _, _, _, _, rfl⟩ := htask
    exact hstatus
  | _ => cases h

/-- The payload is what the status requires, and is there. -/
theorem ofWire_eq_ok {fields : Map}
    (hinput : optionalField Json.asObject (fields.get "inputRequests") = some w.inputRequests)
    (hresult : optionalField Json.asObject (fields.get "result") = some w.result)
    (herror : optionalField Json.asObject (fields.get "error") = some w.error)
    (h : DetailedTask.ofWire w = .ok t) :
    t.task = w.task ∧ t.Agrees ∧ t.payload.IsCarried fields := by
  have hcarried {key : String} {m : Map}
      (hread : optionalField Json.asObject (fields.get key) = some (some m)) :
      fields.get key = some (.object m) := by
    obtain ⟨x, hx, hobject⟩ := optionalField_eq_some hread
    rw [hx, Json.asObject_eq_some hobject]
  unfold DetailedTask.ofWire at h
  cases hstatus : w.task.status with
  | working =>
    rw [hstatus] at h
    obtain rfl := Except.ok.inj h
    exact ⟨rfl, hstatus, trivial⟩
  | cancelled =>
    rw [hstatus] at h
    obtain rfl := Except.ok.inj h
    exact ⟨rfl, hstatus, trivial⟩
  | inputRequired =>
    rw [hstatus] at h
    cases hm : w.inputRequests with
    | none =>
      rw [hm] at h
      cases h
    | some m =>
      rw [hm] at h hinput
      obtain rfl := Except.ok.inj h
      exact ⟨rfl, hstatus, hcarried hinput⟩
  | completed =>
    rw [hstatus] at h
    cases hm : w.result with
    | none =>
      rw [hm] at h
      cases h
    | some m =>
      rw [hm] at h hresult
      obtain rfl := Except.ok.inj h
      exact ⟨rfl, hstatus, hcarried hresult⟩
  | failed =>
    rw [hstatus] at h
    cases hm : w.error with
    | none =>
      rw [hm] at h
      cases h
    | some m =>
      rw [hm] at h herror
      obtain rfl := Except.ok.inj h
      exact ⟨rfl, hstatus, hcarried herror⟩

theorem ofWire_ofDetailed (h : t.Agrees) :
    DetailedTask.ofWire (DetailedTaskWire.ofDetailed t) = .ok t := by
  obtain ⟨task, payload⟩ := t
  have hstatus : task.status = payload.status := h
  cases payload <;> simp only [TaskPayload.status] at hstatus <;>
    simp only [DetailedTask.ofWire, DetailedTaskWire.ofDetailed, hstatus]

/-- A task whose status agrees with its payload is read back as it is; every value that is read as a
task has the status of its payload and the field that the status requires; and no payload field has
the name of a base field. -/
theorem detailed_task_wire :
    (∀ t : DetailedTask, t.Agrees → DetailedTask.fromValue t.toValue = .ok t) ∧
      (∀ v t, DetailedTask.fromValue v = .ok t →
        t.Agrees ∧ ∃ fields : Map, v = .object fields ∧
          (fields.get "status").bind TaskStatus.fromValue = some t.payload.status ∧
          t.payload.IsCarried fields) ∧
      ∀ w : DetailedTaskWire, List.Disjoint (w.task.fields.map Prod.fst)
        (w.payloadFields.map Prod.fst) := by
  refine ⟨fun t ht => ?_, fun v t h => ?_, fun w => ?_⟩
  · unfold DetailedTask.fromValue DetailedTask.toValue
    rw [fromValue_toValue]
    exact ofWire_ofDetailed ht
  · unfold DetailedTask.fromValue at h
    cases hw : DetailedTaskWire.fromValue v with
    | none =>
      rw [hw] at h
      cases h
    | some w =>
      rw [hw] at h
      obtain ⟨fields, hv, hstatus, hinput, hresult, herror⟩ := fromValue_eq_some hw
      obtain ⟨htask, hagrees, hcarried⟩ := ofWire_eq_ok hinput hresult herror h
      have hpayload : t.payload.status = w.task.status := by
        rw [← htask]
        exact hagrees.symm
      exact ⟨hagrees, fields, hv, by rw [hpayload, hstatus], hcarried⟩
  · have hnames := names_nodup w
    rw [List.map_append] at hnames
    exact List.disjoint_of_nodup_append hnames

theorem detailed_task_wire_failed :
    DetailedTask.fromValue (DetailedTask.toValue ⟨⟨⟨"t1"⟩, .failed, none, "2026-07-28T00:00:00.000Z",
        "2026-07-28T00:00:01.000Z", none, some 1000⟩, .failed [("message", .string "no")]⟩) =
      .ok ⟨⟨⟨"t1"⟩, .failed, none, "2026-07-28T00:00:00.000Z", "2026-07-28T00:00:01.000Z", none,
        some 1000⟩, .failed [("message", .string "no")]⟩ :=
  detailed_task_wire.1 _ rfl

end RoundTrip

end Tronc.Tasks
