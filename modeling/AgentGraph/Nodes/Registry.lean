import AgentGraph.Domain.Json
import Mathlib.Logic.Function.Basic

/-! # Node records, protocol messages and the sessions in memory

A record is a row of the `nodes` table, read into memory and written back column by
column. A session is an object that the connection table, a socket and the probes may
all refer to, so sessions and futures live in a heap and are known by reference.
-/
set_option autoImplicit false
namespace AgentGraph.Nodes

abbrev NodeId := String
abbrev TaskId := String
abbrev SessionRef := Nat
abbrev FutureRef := Nat
abbrev Instant := ℤ

inductive NodeRole
  | core | worker
deriving DecidableEq, Repr

inductive NodeStatus
  | registered | online | offline | disabled
deriving DecidableEq, Repr

structure NodeRecord where
  id : NodeId
  name : String
  role : NodeRole
  status : NodeStatus
  enabled : Bool
  enrollmentHash : String
  capabilities : JsonObject
  lastSeenAt : Option Instant

structure WorkerHello where
  nodeId : NodeId
  nodeName : String
  capabilities : JsonObject

/-- A text that `client_message_adapter` accepts. -/
inductive ClientMessage
  | hello (hello : WorkerHello)
  | heartbeat
  | capabilities (capabilities : JsonObject)
  | result (taskId : TaskId) (result : JsonObject)
  | error (taskId : TaskId) (code message : String)
  | cancel (taskId : TaskId)

/-- Times out after a number of milliseconds. -/
inductive ServerMessage
  | registered (nodeId : NodeId) (status : NodeStatus)
  | taskRequest (taskId : TaskId) (timeout : ℤ)
  | taskCancel (taskId : TaskId)
deriving DecidableEq

/-- The exceptions of the service by class, and those that pass through it. -/
inductive NodeError
  | denied | failed (message : String) | notFound | disabled | unavailable (message : String) | control
  | timeout | disconnected (message : String) | duplicate | validation | integrity | cancelled
deriving DecidableEq

inductive NodeEvent
  | registered (n : NodeId) (status : NodeStatus)
  | connected (n : NodeId) (status : NodeStatus)
  | disabled (n : NodeId)
  | offline (n : NodeId)
  | taskRequested (n : NodeId) (taskId : TaskId)
  | taskCompleted (n : NodeId) (taskId : TaskId)
  | taskFailed (n : NodeId) (taskId : TaskId) (code : String)
  | taskTimedOut (n : NodeId) (taskId : TaskId)
deriving DecidableEq

inductive Future
  | pending
  | result (result : JsonObject)
  | exception (error : NodeError)
  | cancelled

def Future.done : Future → Bool
  | .pending => false
  | _ => true

structure Session where
  queue : List ServerMessage
  pending : List (TaskId × FutureRef)

structure Settings where
  enrollmentSecret : Option String
  /-- `enrollment_proof`: the HMAC of the node id under the secret. -/
  enrollmentProof : String → NodeId → String
  maxConnections : Nat
  maxTasks : Nat
  maxMessages : Nat
  heartbeatTimeout : ℤ
  taskTimeout : ℤ

/-- `verify_enrollment`. -/
def Settings.verifyEnrollment (settings : Settings) (n : NodeId) (proof : Option String) : Bool :=
  match settings.enrollmentSecret, proof with
  | some secret, some proof => secret != "" && proof != "" && settings.enrollmentProof secret n == proof
  | _, _ => false

/-- `value or default`, where zero is false. -/
def orDefault (value : Option ℤ) (default : ℤ) : ℤ :=
  match value with
  | some value => if value = 0 then default else value
  | none => default

/-- The validation of a `TaskRequest`. -/
def taskRequest (taskId : TaskId) (timeout : ℤ) : Option ServerMessage :=
  if 8 ≤ taskId.length ∧ taskId.length ≤ 100 ∧ taskId.toList.all (fun c => c.isAlphanum || c == '_' || c == '-') ∧
      0 < timeout ∧ timeout ≤ 60000 then some (.taskRequest taskId timeout)
  else none

/-! ## Columns written back -/

/-- An attribute that is set to the value it was read with is not written. The other
columns are written only under the database lock, so they are simply assigned. -/
def written {α : Type} [DecidableEq α] (read set current : α) : α := if set = read then current else set

/-- The row that `_enroll` inserts. -/
def newRecord (settings : Settings) (hello : WorkerHello) (now : Instant) : NodeRecord :=
  ⟨hello.nodeId,hello.nodeName,.worker,.online,true,
    settings.enrollmentProof (settings.enrollmentSecret.getD "") hello.nodeId,hello.capabilities,some now⟩

/-- The update of `_enroll` to a row that was read as `read`. -/
def NodeRecord.enroll (hello : WorkerHello) (now : Instant) (read current : NodeRecord) : NodeRecord :=
  { current with
    name := hello.nodeName
    capabilities := hello.capabilities
    lastSeenAt := some now
    status := written read.status .online current.status }

def NodeRecord.heartbeat (capabilities : Option JsonObject) (now : Instant) (read current : NodeRecord) : NodeRecord :=
  { current with
    status := written read.status .online current.status
    lastSeenAt := some now
    capabilities := capabilities.getD current.capabilities }

def NodeRecord.setEnabled (enabled : Bool) (read current : NodeRecord) : NodeRecord :=
  { current with
    enabled := written read.enabled enabled current.enabled
    status := written read.status (if enabled then .registered else .disabled) current.status }

def NodeRecord.setStatus (status : NodeStatus) (read current : NodeRecord) : NodeRecord :=
  { current with status := written read.status status current.status }

/-- The rows that `mark_stale_offline` finds stale. -/
def NodeRecord.stale (cutoff : Instant) (record : NodeRecord) : Bool :=
  record.role == .worker && record.enabled && record.lastSeenAt.any fun seen => decide (seen < cutoff)

/-- A table of rows with its primary key. -/
abbrev Table := List NodeRecord

namespace Table

def get (table : Table) (n : NodeId) : Option NodeRecord := table.find? fun record => record.id == n

def update (table : Table) (n : NodeId) (f : NodeRecord → NodeRecord) : Table :=
  table.map fun record => if record.id = n then f record else record

/-- `INSERT`, unless the key is taken. -/
def insert (table : Table) (record : NodeRecord) : Option Table :=
  if (table.get record.id).isSome then none else some (table ++ [record])

end Table

end AgentGraph.Nodes
