import AgentGraph.Domain.Entities
import Mathlib.Logic.Function.Basic

/-! # The durable store and the transactions of the manager

Every definition here is one committed database session of `AgentManager` or
`RecoveryService`, as a function of the rows it starts from. A fresh UUID is the
next number never used before. Updates touch only the columns the code assigns.
-/
set_option autoImplicit false
namespace AgentGraph

/-- Settings, and the library functions whose result the code only passes on. -/
structure Config where
  parseUuid : String → Option AgentId
  idText : Nat → String
  sha256 : String → String
  checkpointChecksum : JsonObject → String
  maxWorkers : Nat
  maxParallel : Nat
  maxDepth : Nat
  maxContextChars : Nat
  runtimeDelay : Bool
  recovery : Bool
  events : Bool

structure Store where
  agents : AgentId → Option AgentRecord
  runs : RunId → Option RunRecord
  checkpoints : List CheckpointRecord
  delegations : List DelegationRecord
  nextId : Nat

namespace Store

def updateAgent (store : Store) (a : AgentId) (f : AgentRecord → AgentRecord) : Store :=
  { store with agents := Function.update store.agents a ((store.agents a).map f) }

def updateRun (store : Store) (r : RunId) (f : RunRecord → RunRecord) : Store :=
  { store with runs := Function.update store.runs r ((store.runs r).map f) }

/-- `RunRepository.has_active_for_agent`. -/
def hasActiveForAgent (store : Store) (a : AgentId) : Bool :=
  (List.range store.nextId).any fun r =>
    match store.runs r with
    | some run => run.agentId == a && run.status.active
    | none => false

/-- `RunDelegationRepository.list_for_parents` for one parent. -/
def childrenOf (store : Store) (r : RunId) : List RunId :=
  (store.delegations.filter fun d => d.parentRunId == r).map DelegationRecord.childRunId

def checkpointsOf (store : Store) (r : RunId) : List CheckpointRecord :=
  store.checkpoints.filter fun c => c.runId == r

end Store

/-- `CHECKPOINT_FORMAT_VERSION`. -/
def checkpointFormatVersion : Nat := 1

/-- `RecoveryRepository.create_checkpoint`: the next sequence number of the run. -/
def createCheckpoint (cfg : Config) (store : Store) (r : RunId) (reason : CheckpointReason)
    (state : JsonObject) : Store :=
  let previous := (store.checkpointsOf r).foldl (fun m c => max m c.sequence) 0
  let checkpoint : CheckpointRecord :=
    { id := store.nextId, runId := r, sequence := previous + 1, formatVersion := checkpointFormatVersion,
      reason := reason, state := state, checksum := cfg.checkpointChecksum state }
  { store with checkpoints := store.checkpoints ++ [checkpoint], nextId := store.nextId + 1 }

/-- `RecoveryService._create_checkpoint` with the two fields every caller passes. -/
def checkpointState (cfg : Config) (r : RunId) (spec : Json) (status : RunStatus) : JsonObject :=
  [("format_version",.int checkpointFormatVersion),("run_id",.str (cfg.idText r)),
    ("execution_spec",spec),("run_status",.str status.value)]

/-- The specification `create_initial_checkpoint` records. -/
def executionSpec (cfg : Config) (agent : AgentRecord) (inputText : String) : Json :=
  .obj [("runtime",agent.graphDefinition.getD "runtime" (.str "model-v1")),
    ("model_ref",.str agent.modelRef),
    ("graph_definition",.obj agent.graphDefinition),
    ("input_sha256",.str (cfg.sha256 inputText))]

/-- `create_lifecycle_checkpoint`, when recovery is configured. -/
def createLifecycleCheckpoint (cfg : Config) (store : Store) (r : RunId) (reason : CheckpointReason) : Store :=
  match cfg.recovery, store.runs r with
  | true, some run =>
    createCheckpoint cfg store r reason
      (checkpointState cfg r (run.executionSpec.getD (.obj [])) run.status)
  | _, _ => store

/-- The reference check of one node in `_validate_team_graph`. -/
def checkReference (store : Store) (owner : Option AgentId) (node : TeamNode) : Except Exc Unit :=
  if owner = some node.agentId then
    .error (.orchestration "INVALID_TEAM_GRAPH" "A team cannot delegate to itself")
  else if (store.agents node.agentId).isNone then
    .error (.orchestration "MISSING_AGENT_REFERENCE" "Team graph references an unknown agent")
  else .ok ()

/-- `_validate_team_graph` on the committed agents. -/
def validateTeamGraph (cfg : Config) (store : Store) (graph : JsonObject) (owner : Option AgentId) :
    Except Exc Unit :=
  if (graph.getD "runtime" (.str "model-v1")).equalsStr "team-v1" then
    match parseTeamGraph cfg.parseUuid cfg.maxWorkers graph with
    | .error error => .error error.orchestration
    | .ok team => team.nodes.forM (checkReference store owner)
  else .ok ()

theorem forM_eq_error {α ε : Type} {xs : List α} {f : α → Except ε Unit} {e : ε}
    (h : xs.forM f = .error e) : ∃ x ∈ xs, f x = .error e := by
  induction xs with
  | nil => cases h
  | cons x rest ih =>
    cases hx : f x with
    | error e' =>
      simp only [List.forM, hx] at h
      cases h
      exact ⟨x,by simp,hx⟩
    | ok _ =>
      simp only [List.forM, hx] at h
      obtain ⟨y,hy,he⟩ := ih h
      exact ⟨y,by simp [hy],he⟩

theorem checkReference_error {store : Store} {owner : Option AgentId} {node : TeamNode} {e : Exc}
    (h : checkReference store owner node = .error e) : ∃ code message, e = .orchestration code message := by
  unfold checkReference at h
  split at h
  · cases h
    exact ⟨_,_,rfl⟩
  split at h
  · cases h
    exact ⟨_,_,rfl⟩
  · cases h

/-- `_validate_team_graph` raises orchestration errors only. -/
theorem validateTeamGraph_error {cfg : Config} {store : Store} {graph : JsonObject} {owner : Option AgentId} {e : Exc}
    (h : validateTeamGraph cfg store graph owner = .error e) : ∃ code message, e = .orchestration code message := by
  unfold validateTeamGraph at h
  split at h
  · split at h
    · cases h
      exact ⟨_,_,rfl⟩
    · obtain ⟨node,_,he⟩ := forM_eq_error h
      exact checkReference_error he
  · cases h

/-- The delegation link of a child run: parent run, node and depth. -/
structure DelegationLink where
  parentRunId : RunId
  nodeId : String
  depth : Nat

def queuedRun (a : AgentId) (inputText : String) : RunRecord :=
  { agentId := a, status := .queued, inputText := inputText, outputText := none, error := none,
    startedAt := none, finishedAt := none, providerId := none, modelId := none, finishReason := none,
    inputTokens := none, outputTokens := none, totalTokens := none, latencyMs := none,
    executionSpec := none }

/-- `RunRepository.create`, the agent status and `create_initial_checkpoint`. -/
def insertRun (cfg : Config) (store : Store) (a : AgentId) (agent : AgentRecord) (inputText : String) : Store :=
  let r := store.nextId
  let spec := executionSpec cfg agent inputText
  let run := queuedRun a inputText
  let created : Store :=
    { store.updateAgent a (fun agent => { agent with status := .running }) with
      runs := Function.update store.runs r
        (some (if cfg.recovery then { run with executionSpec := some spec } else run)),
      nextId := r + 1 }
  if cfg.recovery then
    createCheckpoint cfg created r .created (checkpointState cfg r spec .queued)
  else created

/-- The parent row exists and has no child for the node yet. -/
def linkAllowed (store : Store) (link : DelegationLink) : Bool :=
  (store.runs link.parentRunId).isSome &&
    !store.delegations.any fun d => d.parentRunId == link.parentRunId && d.nodeId == link.nodeId

def addDelegation (store : Store) (r : RunId) : Option DelegationLink → Store
  | none => store
  | some link =>
    { store with delegations := store.delegations ++ [⟨link.parentRunId,r,link.nodeId,link.depth⟩] }

/-- The transaction of `_start_run`, from `BEGIN IMMEDIATE` to `commit`; an error
rolls it back. -/
def startTransaction (cfg : Config) (store : Store) (a : AgentId) (inputText : String)
    (link : Option DelegationLink) : Except Exc (Store × RunId) :=
  match store.agents a with
  | none => .error .agentNotFound
  | some agent =>
    match validateTeamGraph cfg store agent.graphDefinition (some a) with
    | .error error => .error error
    | .ok () =>
      if store.hasActiveForAgent a then
        .error (.lifecycleConflict "This agent already has an active run")
      else if link.all (linkAllowed store) then
        .ok (addDelegation (insertRun cfg store a agent inputText) store.nextId link,store.nextId)
      else .error (.other "IntegrityError")

/-- The write of `_mark_running`. -/
def markRunningTransaction (cfg : Config) (store : Store) (r : RunId) (now : Instant) : Store :=
  createLifecycleCheckpoint cfg
    (store.updateRun r fun run => { run with status := .running, startedAt := some now }) r .running

/-- The three ways a run ends. -/
inductive Terminal
  | succeeded (response : ModelResponse)
  | cancelled
  | failed (error : String)
deriving DecidableEq

namespace Terminal

def status : Terminal → RunStatus
  | succeeded _ => .succeeded
  | cancelled => .cancelled
  | failed _ => .failed

def reason : Terminal → CheckpointReason
  | succeeded _ => .succeeded
  | cancelled => .cancelled
  | failed _ => .failed

def agentStatus : Terminal → AgentStatus
  | succeeded _ => .idle
  | cancelled => .idle
  | failed _ => .error

/-- The columns each `_finish_*` assigns. -/
def assign (now : Instant) : Terminal → RunRecord → RunRecord
  | succeeded response, run =>
    { run with
      status := .succeeded, outputText := some response.content,
      providerId := some response.providerId, modelId := some response.modelId,
      finishReason := response.finishReason, inputTokens := response.inputTokens,
      outputTokens := response.outputTokens, totalTokens := response.totalTokens,
      latencyMs := response.latencyMs, finishedAt := some now }
  | cancelled, run => { run with status := .cancelled, finishedAt := some now }
  | failed error, run => { run with status := .failed, error := some error, finishedAt := some now }

/-- The event each `_finish_*` publishes after its commit. -/
def event (r : RunId) (agentId : AgentId) : Terminal → RuntimeEvent
  | succeeded response =>
    ⟨.runCompleted,r,some agentId,some response.providerId,"info",
      [("status",.str RunStatus.succeeded.value),("model_id",.str response.modelId)]⟩
  | cancelled => ⟨.runCancelled,r,some agentId,none,"info",[("status",.str RunStatus.cancelled.value)]⟩
  | failed error =>
    ⟨.runFailed,r,some agentId,none,"error",[("status",.str RunStatus.failed.value),("error",.str error)]⟩

@[simp] theorem status_terminal (outcome : Terminal) : outcome.status.terminal = true := by
  cases outcome <;> rfl

@[simp] theorem reason_terminal (outcome : Terminal) : outcome.reason.terminal = true := by
  cases outcome <;> rfl

@[simp] theorem assign_status (now : Instant) (outcome : Terminal) (run : RunRecord) :
    (outcome.assign now run).status = outcome.status := by
  cases outcome <;> rfl

@[simp] theorem assign_agentId (now : Instant) (outcome : Terminal) (run : RunRecord) :
    (outcome.assign now run).agentId = run.agentId := by
  cases outcome <;> rfl

@[simp] theorem assign_executionSpec (now : Instant) (outcome : Terminal) (run : RunRecord) :
    (outcome.assign now run).executionSpec = run.executionSpec := by
  cases outcome <;> rfl

@[simp] theorem event_terminal (outcome : Terminal) (r : RunId) (a : AgentId) :
    (outcome.event r a).terminal = true := by
  cases outcome <;> rfl

@[simp] theorem event_runId (outcome : Terminal) (r : RunId) (a : AgentId) :
    (outcome.event r a).runId = r := by
  cases outcome <;> rfl

end Terminal

/-- The write shared by `_finish_succeeded`, `_finish_cancelled` and `_finish_failed`. -/
def finishTransaction (cfg : Config) (store : Store) (r : RunId) (outcome : Terminal) (now : Instant) : Store :=
  match store.runs r with
  | none => store
  | some run =>
    createLifecycleCheckpoint cfg
      ((store.updateRun r (outcome.assign now)).updateAgent run.agentId
        fun agent => { agent with status := outcome.agentStatus }) r outcome.reason

/-- The write of `update_agent_graph`. -/
def updateGraphTransaction (store : Store) (a : AgentId) (graph : JsonObject) : Store :=
  store.updateAgent a fun agent => { agent with graphDefinition := graph }

end AgentGraph
