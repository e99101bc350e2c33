import AgentGraph.Persistence.Transactions
import Mathlib.Data.List.MinMax

/-! # The action ledger and the recovery decisions

The tables of `RecoveryService` beside the store of the manager, its assessment of
an interrupted run, and the session of `recover_stale_runs`: one transaction that
loops over every stale run and is rolled back when a statement raises.
-/
set_option autoImplicit false
namespace AgentGraph.Recovery

inductive ActionLedgerStatus
  | intentRecorded | started | confirmed | failed | uncertain
deriving DecidableEq, Repr

/-- The statuses `_recovery_outcome` counts as uncertain. -/
def ActionLedgerStatus.unresolved : ActionLedgerStatus → Bool
  | .intentRecorded | .started | .uncertain => true
  | .confirmed | .failed => false

inductive RecoveryOutcome
  | stoppedNoReplay | blockedUncertainAction | blockedCorruptCheckpoint | blockedNoCheckpoint
deriving DecidableEq, Repr

abbrev EntryId := Nat
abbrev InvocationId := Nat

/-- `RunActionLedgerEntryRecord`. -/
structure ActionRecord where
  id : EntryId
  runId : RunId
  toolInvocationId : Option InvocationId
  actionType : String
  status : ActionLedgerStatus
  startedAt : Option Instant
  finishedAt : Option Instant
deriving DecidableEq

/-- `RunRecoveryDecisionRecord`. -/
structure DecisionRecord where
  id : Nat
  runId : RunId
  checkpointId : Option CheckpointId
  outcome : RecoveryOutcome
  details : JsonObject

/-- The tables the manager and the recovery service share. -/
structure Database where
  store : Store
  actions : List ActionRecord
  decisions : List DecisionRecord

namespace Database

/-- `RecoveryRepository.list_actions`. -/
def actionsOf (db : Database) (r : RunId) : List ActionRecord :=
  db.actions.filter fun entry => entry.runId == r

def decisionsOf (db : Database) (r : RunId) : List DecisionRecord :=
  db.decisions.filter fun decision => decision.runId == r

/-- `RunRepository.list_stale`, whose order the query leaves open. -/
def IsStale (db : Database) (r : RunId) : Prop :=
  ∃ run, db.store.runs r = some run ∧ run.status.active = true

end Database

/-- `RecoveryRepository.latest_checkpoint`. -/
def latestCheckpoint (store : Store) (r : RunId) : Option CheckpointRecord :=
  (store.checkpointsOf r).argmax CheckpointRecord.sequence

/-- `state.get("run_status") in {status.value for status in RunStatus}`. -/
def isRunStatus : Json → Bool
  | .str text => [RunStatus.queued,.running,.succeeded,.failed,.cancelled].any fun status => status.value == text
  | _ => false

/-- `_checkpoint_is_valid`. -/
def checkpointIsValid (cfg : Config) (r : RunId) (checkpoint : CheckpointRecord) : Bool :=
  let state := checkpoint.state
  if checkpoint.formatVersion != checkpointFormatVersion ||
      !(state.get "format_version").equalsInt checkpointFormatVersion then false
  else if !(state.get "run_id").equalsStr (cfg.idText r) || (state.get "execution_spec").dict?.isNone then false
  else if !isRunStatus (state.get "run_status") then false
  else checkpoint.checksum == cfg.checkpointChecksum state

/-- `_recovery_outcome`. -/
def recoveryOutcome (cfg : Config) (r : RunId) (checkpoint : Option CheckpointRecord)
    (actions : List ActionRecord) : RecoveryOutcome × JsonObject :=
  match checkpoint with
  | none =>
    (.blockedNoCheckpoint,[("reason",.str "No durable checkpoint exists for this interrupted run.")])
  | some checkpoint =>
    if !checkpointIsValid cfg r checkpoint then
      (.blockedCorruptCheckpoint,[("reason",.str "The latest checkpoint failed integrity validation.")])
    else
      let uncertain := (actions.filter fun entry => entry.status.unresolved).map ActionRecord.actionType
      if !uncertain.isEmpty then
        (.blockedUncertainAction,
          [("reason",.str "An external action may have occurred before the interruption."),
            ("uncertain_actions",.arr (uncertain.map .str))])
      else
        (.stoppedNoReplay,
          [("reason",.str "No uncertain action was recorded; automatic replay remains disabled.")])

/-- `_assess_stale_run`. -/
def assessStaleRun (cfg : Config) (db : Database) (r : RunId) :
    Option CheckpointRecord × RecoveryOutcome × JsonObject :=
  let checkpoint := latestCheckpoint db.store r
  (checkpoint,recoveryOutcome cfg r checkpoint (db.actionsOf r))

/-- The session of `record_action_intent`; the foreign key needs the run row. -/
def recordActionIntent (db : Database) (r : RunId) (toolInvocationId : Option InvocationId)
    (actionType : String) : Option (Database × EntryId) :=
  if (db.store.runs r).isSome then
    let entry : ActionRecord :=
      { id := db.store.nextId, runId := r, toolInvocationId := toolInvocationId, actionType := actionType,
        status := .intentRecorded, startedAt := none, finishedAt := none }
    some ({ db with
      store := { db.store with nextId := db.store.nextId + 1 },
      actions := db.actions ++ [entry] },entry.id)
  else none

/-- The columns `update_action` assigns. -/
def ActionRecord.assign (status : ActionLedgerStatus) (now : Instant) (entry : ActionRecord) : ActionRecord :=
  match status with
  | .started => { entry with status := .started, startedAt := some now }
  | .confirmed | .failed | .uncertain => { entry with status := status, finishedAt := some now }
  | .intentRecorded => { entry with status := .intentRecorded }

/-- The session of `update_action`. -/
def updateAction (db : Database) (entryId : EntryId) (status : ActionLedgerStatus) (now : Instant) : Database :=
  { db with
    actions := db.actions.map fun entry => if entry.id = entryId then entry.assign status now else entry }

/-- `RecoveryRepository.create_decision`. -/
def createDecision (db : Database) (r : RunId) (checkpointId : Option CheckpointId) (outcome : RecoveryOutcome)
    (details : JsonObject) : Database :=
  { db with
    store := { db.store with nextId := db.store.nextId + 1 },
    decisions := db.decisions ++ [⟨db.store.nextId,r,checkpointId,outcome,details⟩] }

/-- The error text of every interrupted run. -/
def interruptedError : String := "Run interrupted by application restart"

/-- The columns `recover_stale_runs` assigns to a stale run. -/
def interruptRun (now : Instant) (run : RunRecord) : RunRecord :=
  { run with status := .failed, error := some interruptedError, finishedAt := some now }

/-- The rows of one stale run and its agent. -/
def interruptRows (store : Store) (r : RunId) (run : RunRecord) (now : Instant) : Store :=
  (store.updateRun r (interruptRun now)).updateAgent run.agentId fun agent => { agent with status := .error }

/-- The publications of `recover_stale_runs`. -/
inductive RecoveryEvent
  | checkpointCreated (r : RunId) (checkpointId : CheckpointId) (sequence : Nat) (reason : CheckpointReason)
  | recoveryAssessed (r : RunId) (outcome : RecoveryOutcome) (automaticResume automaticRollback : Bool)
    (severity : String)
deriving DecidableEq

/-- One entry of the list `recovered`. -/
structure Recovered where
  runId : RunId
  outcome : RecoveryOutcome
  terminalCheckpoint : Option CheckpointRecord

/-- One turn of the loop of `recover_stale_runs`. -/
def recoverRun (cfg : Config) (now : Instant) (db : Database) (r : RunId) (run : RunRecord) :
    Database × Recovered :=
  let assessment := assessStaleRun cfg db r
  let decided := createDecision db r (assessment.1.map CheckpointRecord.id) assessment.2.1 assessment.2.2
  let store := createCheckpoint cfg (interruptRows decided.store r run now) r .failed
    (checkpointState cfg r (run.executionSpec.getD (.obj [])) .failed)
  ({ decided with store := store },⟨r,assessment.2.1,store.checkpoints.getLast?⟩)

/-- A statement of the session that raises: how many turns were made before, and what it raises. -/
abbrev Fault := Option (Nat × Exc)

/-- The loop of `recover_stale_runs` over the rows of `list_stale`, up to its commit. -/
def recoverLoop (cfg : Config) (clock : RunId → Instant) :
    Fault → List RunId → Database → Except Exc (Database × List Recovered)
  | some (0,error), _, _ => .error error
  | some (_ + 1,error), [], _ => .error error
  | none, [], db => .ok (db,[])
  | fault, r :: rest, db =>
    match db.store.runs r with
    | none => recoverLoop cfg clock fault rest db
    | some run => do
      let turn := recoverRun cfg (clock r) db r run
      let result ← recoverLoop cfg clock (fault.map fun f => (f.1 - 1,f.2)) rest turn.1
      pure (result.1,turn.2 :: result.2)

/-- What is published for one entry of `recovered`. -/
def Recovered.publish (entry : Recovered) : List RecoveryEvent :=
  (entry.terminalCheckpoint.map fun checkpoint =>
    RecoveryEvent.checkpointCreated entry.runId checkpoint.id checkpoint.sequence checkpoint.reason).toList ++
    [.recoveryAssessed entry.runId entry.outcome false false "warning"]

/-- `RecoveryService.recover_stale_runs`: its result, the committed database and
what it publishes. -/
def recoverStaleRuns (cfg : Config) (clock : RunId → Instant) (fault : Fault) (stale : List RunId)
    (db : Database) : Except Exc Unit × Database × List RecoveryEvent :=
  match recoverLoop cfg clock fault stale db with
  | .error error => (.error error,db,[])
  | .ok (committed,recovered) =>
    (.ok (),committed,if cfg.events then recovered.flatMap Recovered.publish else [])

/-- `AgentManager.recover_stale_runs` without a recovery service. -/
def failStaleRuns (now : Instant) (stale : List RunId) (db : Database) : Database :=
  stale.foldl (fun db r =>
    match db.store.runs r with
    | none => db
    | some run => { db with store := interruptRows db.store r run now }) db

section Rows
variable {cfg : Config} {db : Database} {r : RunId} {run : RunRecord} {now : Instant}

@[simp] theorem createDecision_runs {checkpointId : Option CheckpointId} {outcome : RecoveryOutcome}
    {details : JsonObject} : (createDecision db r checkpointId outcome details).store.runs = db.store.runs := rfl
@[simp] theorem createDecision_agents {checkpointId : Option CheckpointId} {outcome : RecoveryOutcome}
    {details : JsonObject} : (createDecision db r checkpointId outcome details).store.agents = db.store.agents := rfl
@[simp] theorem updateAction_store {entryId : EntryId} {status : ActionLedgerStatus} :
    (updateAction db entryId status now).store = db.store := rfl
@[simp] theorem updateAction_decisions {entryId : EntryId} {status : ActionLedgerStatus} :
    (updateAction db entryId status now).decisions = db.decisions := rfl

@[simp] theorem interruptRun_status : (interruptRun now run).status = .failed := rfl
@[simp] theorem interruptRun_agentId : (interruptRun now run).agentId = run.agentId := rfl
@[simp] theorem interruptRun_executionSpec : (interruptRun now run).executionSpec = run.executionSpec := rfl

theorem interruptRows_runs {store : Store} (hrow : store.runs r = some run) :
    (interruptRows store r run now).runs = Function.update store.runs r (some (interruptRun now run)) := by
  simp [interruptRows, Store.updateAgent, Store.updateRun, hrow]

theorem interruptRows_agents {store : Store} : (interruptRows store r run now).agents =
    Function.update store.agents run.agentId
      ((store.agents run.agentId).map fun agent => { agent with status := .error }) := by
  simp [interruptRows, Store.updateAgent]

theorem recoverRun_runs (hrow : db.store.runs r = some run) : (recoverRun cfg now db r run).1.store.runs =
    Function.update db.store.runs r (some (interruptRun now run)) := by
  simp only [recoverRun, createCheckpoint_runs]
  exact interruptRows_runs hrow

theorem recoverRun_agents : (recoverRun cfg now db r run).1.store.agents =
    Function.update db.store.agents run.agentId
      ((db.store.agents run.agentId).map fun agent => { agent with status := .error }) := by
  simp only [recoverRun, createCheckpoint_agents, interruptRows_agents]
  rfl

@[simp] theorem recoverRun_actions : (recoverRun cfg now db r run).1.actions = db.actions := rfl
@[simp] theorem recoverRun_delegations :
    (recoverRun cfg now db r run).1.store.delegations = db.store.delegations := rfl
@[simp] theorem recoverRun_nextId : (recoverRun cfg now db r run).1.store.nextId = db.store.nextId + 2 := rfl

/-- What every turn of the loop keeps, the whole loop keeps. The rows still to come
are not written before their turn. -/
theorem recoverLoop_induct {clock : RunId → Instant} {P : Database → Prop}
    (turn : ∀ db r run, P db → db.store.runs r = some run → run.status.active = true →
      P (recoverRun cfg (clock r) db r run).1)
    {stale : List RunId} {result : Database × List Recovered} (hnodup : stale.Nodup)
    (hactive : ∀ r ∈ stale, ∃ run, db.store.runs r = some run ∧ run.status.active = true) (hP : P db)
    (h : recoverLoop cfg clock none stale db = .ok result) : P result.1 := by
  induction stale generalizing db result with
  | nil =>
    obtain rfl : (db,[]) = result := Except.ok.inj h
    exact hP
  | cons r rest ih =>
    obtain ⟨run,hrow,hrun⟩ := hactive r (by simp)
    obtain ⟨hr,hnodup⟩ := List.nodup_cons.mp hnodup
    simp only [recoverLoop, hrow, Option.map_none, except_bind_eq_ok] at h
    obtain ⟨inner,hinner,hresult⟩ := h
    obtain rfl := Except.ok.inj hresult
    have hrest : ∀ q ∈ rest, ∃ other, (recoverRun cfg (clock r) db r run).1.store.runs q = some other ∧
        other.status.active = true := by
      intro q hq
      have hne : q ≠ r := by
        rintro rfl
        exact hr hq
      obtain ⟨other,hother,hact⟩ := hactive q (by simp [hq])
      exact ⟨other,by rw [recoverRun_runs hrow, Function.update_of_ne hne, hother],hact⟩
    have hkept : P inner.1 := ih hnodup hrest (turn db r run hP hrow hrun) hinner
    exact hkept

/-- The loop without a fault always reaches its commit. -/
theorem recoverLoop_ok (cfg : Config) (clock : RunId → Instant) (stale : List RunId) (db : Database) :
    ∃ result, recoverLoop cfg clock none stale db = .ok result := by
  induction stale generalizing db with
  | nil => exact ⟨_,rfl⟩
  | cons r rest ih =>
    match hrow : db.store.runs r with
    | none =>
      obtain ⟨result,hresult⟩ := ih db
      exact ⟨result,by simp only [recoverLoop, hrow, hresult]⟩
    | some run =>
      obtain ⟨result,hresult⟩ := ih (recoverRun cfg (clock r) db r run).1
      exact ⟨_,by simp only [recoverLoop, hrow, Option.map_none, hresult]; rfl⟩

/-- The same for the manager's own loop. -/
theorem failStaleRuns_induct {P : Database → Prop}
    (turn : ∀ db r run, P db → db.store.runs r = some run → run.status.active = true →
      P { db with store := interruptRows db.store r run now })
    {stale : List RunId} (hnodup : stale.Nodup)
    (hactive : ∀ r ∈ stale, ∃ run, db.store.runs r = some run ∧ run.status.active = true) (hP : P db) :
    P (failStaleRuns now stale db) := by
  induction stale generalizing db with
  | nil => exact hP
  | cons r rest ih =>
    obtain ⟨run,hrow,hrun⟩ := hactive r (by simp)
    obtain ⟨hr,hnodup⟩ := List.nodup_cons.mp hnodup
    simp only [failStaleRuns, List.foldl_cons, hrow]
    refine ih hnodup ?_ (turn db r run hP hrow hrun)
    intro q hq
    have hne : q ≠ r := by
      rintro rfl
      exact hr hq
    obtain ⟨other,hother,hact⟩ := hactive q (by simp [hq])
    exact ⟨other,by rw [interruptRows_runs hrow, Function.update_of_ne hne, hother],hact⟩

end Rows

end AgentGraph.Recovery
