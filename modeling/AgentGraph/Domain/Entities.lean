import AgentGraph.Domain.TeamGraph

/-! # Agents, runs, checkpoints and the errors of the manager

Identifiers are UUIDs and only their equality matters; instants are integers.
-/
set_option autoImplicit false
namespace AgentGraph

abbrev RunId := Nat
abbrev CheckpointId := Nat
abbrev Instant := Int

inductive AgentStatus
  | idle | running | error
deriving DecidableEq, Repr

inductive RunStatus
  | queued | running | succeeded | failed | cancelled
deriving DecidableEq, Repr

namespace RunStatus

/-- `ACTIVE_RUN_STATUSES`. -/
def active : RunStatus → Bool
  | queued | running => true
  | succeeded | failed | cancelled => false

/-- `TERMINAL_RUN_STATUSES`. -/
def terminal : RunStatus → Bool
  | succeeded | failed | cancelled => true
  | queued | running => false

def value : RunStatus → String
  | queued => "queued"
  | running => "running"
  | succeeded => "succeeded"
  | failed => "failed"
  | cancelled => "cancelled"

@[simp] theorem active_eq_false {status : RunStatus} : status.active = false ↔ status.terminal = true := by
  cases status <;> simp [active,terminal]

@[simp] theorem terminal_eq_false {status : RunStatus} : status.terminal = false ↔ status.active = true := by
  cases status <;> simp [active,terminal]

end RunStatus

inductive CheckpointReason
  | created | running | succeeded | failed | cancelled
deriving DecidableEq, Repr

namespace CheckpointReason

def value : CheckpointReason → String
  | created => "created"
  | running => "running"
  | succeeded => "succeeded"
  | failed => "failed"
  | cancelled => "cancelled"

def terminal : CheckpointReason → Bool
  | succeeded | failed | cancelled => true
  | created | running => false

end CheckpointReason

/-- The part of an agent row that runs depend on. -/
structure AgentRecord where
  status : AgentStatus
  modelRef : String
  graphDefinition : JsonObject

structure RunRecord where
  agentId : AgentId
  status : RunStatus
  inputText : String
  outputText : Option String
  error : Option String
  startedAt : Option Instant
  finishedAt : Option Instant
  providerId : Option String
  modelId : Option String
  finishReason : Option String
  inputTokens : Option Int
  outputTokens : Option Int
  totalTokens : Option Int
  latencyMs : Option Int
  executionSpec : Option Json

structure CheckpointRecord where
  id : CheckpointId
  runId : RunId
  sequence : Nat
  formatVersion : Nat
  reason : CheckpointReason
  state : JsonObject
  checksum : String

structure DelegationRecord where
  parentRunId : RunId
  childRunId : RunId
  nodeId : String
  depth : Nat
deriving DecidableEq, Repr

structure ModelResponse where
  content : String
  providerId : String
  modelId : String
  finishReason : Option String
  inputTokens : Option Int
  outputTokens : Option Int
  totalTokens : Option Int
  latencyMs : Option Int
deriving DecidableEq, Repr

structure DelegationContext where
  parentRunId : Option RunId
  rootRunId : Option RunId
  depth : Nat
  ancestry : List AgentId
deriving DecidableEq, Repr

/-- The complete, project-owned input accepted by a runtime workflow. -/
structure AgentExecutionRequest where
  agentId : AgentId
  runId : RunId
  inputText : String
  modelRef : String
  graphDefinition : JsonObject
  delegationContext : Option DelegationContext

/-- The exceptions that cross the manager, by the type the handlers match on. -/
inductive Exc
  | cancelled
  | agentNotFound
  | runNotFound
  | lifecycleConflict (message : String)
  | orchestration (code message : String)
  | modelRouter (code message : String)
  | other (typeName : String)
deriving DecidableEq, Repr

/-- The error text `_execute_run` stores for a failed run. -/
def Exc.runError : Exc → String
  | .orchestration code message => code ++ ": " ++ message
  | .modelRouter code message => code ++ ": " ++ message
  | .agentNotFound => "Run execution failed: AgentNotFoundError"
  | .runNotFound => "Run execution failed: RunNotFoundError"
  | .lifecycleConflict _ => "Run execution failed: LifecycleConflictError"
  | .other typeName => "Run execution failed: " ++ typeName
  | .cancelled => "Run execution failed: CancelledError"

def TeamGraphError.orchestration (error : TeamGraphError) : Exc := .orchestration error.code error.message

inductive RuntimeEventType
  | runCreated | runStarted | runCompleted | runFailed | runCancelled | checkpointCreated
deriving DecidableEq, Repr

structure RuntimeEvent where
  type : RuntimeEventType
  runId : RunId
  agentId : Option AgentId
  providerId : Option String
  severity : String
  payload : JsonObject

/-- `RUN_COMPLETED`, `RUN_FAILED` or `RUN_CANCELLED`. -/
def RuntimeEvent.terminal (event : RuntimeEvent) : Bool :=
  match event.type with
  | .runCompleted | .runFailed | .runCancelled => true
  | .runCreated | .runStarted | .checkpointCreated => false

end AgentGraph
