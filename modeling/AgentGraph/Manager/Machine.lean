import AgentGraph.Manager.State
import AgentGraph.Foundation.Transition

/-! # The step function of the manager

A step resumes one task at its await, runs it to the next await and performs what
the await did: a read of committed rows, a committed transaction, a lock, a wait.
A task with a pending cancellation receives `CancelledError` at its await instead,
and then only the handlers of the code run.
-/
set_option autoImplicit false
namespace AgentGraph.Manager
open Transition

/-- What the outside decides at a step: whether a wait times out, what a model
call returns or raises, which failed task `_run_ready` finds first. -/
inductive Choice
  | resume
  | timeout
  | respond (response : ModelResponse)
  | fail (e : Exc)
  | pick (k : Nat)
  | absorb
deriving DecidableEq

def childTimeout : Exc := .orchestration "CHILD_TIMEOUT" "Child execution timed out"
def childStartFailed : Exc := .orchestration "CHILD_START_FAILED" "Child execution handle unavailable"
def workerFailed (code : String) (node : TeamNode) : Exc :=
  .orchestration code ("Worker " ++ node.label ++ " did not succeed")

namespace Sys

/-! ## How calls return to their awaiters -/

/-- `_run_node` ends inside `async with semaphore`. -/
def endNode (s : Sys) (n : NodeCall) (result : Result) : Effect :=
  { next := .done result, permits := some (n.parent,s.permits n.parent + 1) }

/-- `_start_run` raises. -/
def failStart (s : Sys) (a : StartCall) (e : Exc) : Effect :=
  match a.child with
  | none => .done (.raised e)
  | some n => s.endNode n (.raised e)

/-- `_start_run` returns; in `run_child` the registry lookup follows without an await. -/
def startReturn (s : Sys) (r : RunId) : Option NodeCall → Effect
  | none => .done .returned
  | some n =>
    if s.registry.contains r then .goto (.childWait n r)
    else s.endNode n (.raised childStartFailed)

/-- An exception other than a conflict leaves `stop_run` and `_stop_descendants`. -/
def abort (s : Sys) (root : Root) (e : Exc) : Effect :=
  match root with
  | .call => .done (.raised e)
  | .child n _ _ => s.endNode n (.raised e)

def finishSucceeded (r : RunId) (response : ModelResponse) (k : FinishCont) : Effect :=
  .goto (.finishLock r (.succeeded response) k)

def finishCancelled (r : RunId) (k : FinishCont) : Effect := .goto (.finishLock r .cancelled k)

def finishFailed (r : RunId) (error : String) (k : FinishCont) : Effect :=
  .goto (.finishLock r (.failed error) k)

/-- `_stop_descendants` returns. In `stop_run` the registry lookup and the
cancellation follow without an await. -/
def descReturn (s : Sys) : DescCont → Effect
  | .stop r k =>
    if s.registry.contains r then { next := .waiting (.stopWait r k), cancel := s.cancelTargets (.run r) }
    else finishFailed r "Live execution handle unavailable" (.stopFailed k)
  | .child n c e => .goto (.stopRead c (.child n e))
  | .loop c rest k => .goto (.stopRead c (.loop rest k))

/-- The loop of `_stop_descendants` over the children still to visit. -/
def descLoop (s : Sys) (children : List RunId) (k : DescCont) : Effect :=
  match children with
  | [] => s.descReturn k
  | c :: rest => .goto (.descRead c rest k)

/-- `stop_run` returns normally. -/
def stopReturn (s : Sys) : StopCont → Effect
  | .call => .done .returned
  | .child n e => s.endNode n (.raised e)
  | .loop rest k => s.descLoop rest k

/-- `stop_run` raises `LifecycleConflictError`, which its internal callers swallow. -/
def stopConflict (s : Sys) (message : String) : StopCont → Effect
  | .call => .done (.raised (.lifecycleConflict message))
  | .child n e => s.endNode n (.raised e)
  | .loop rest k => s.descLoop rest k

/-- The next iteration of the loops of `shutdown`. -/
def shutdownLoop : List (RunId × Terminal) → Effect
  | [] => .done .returned
  | (r,outcome) :: rest => .goto (.finishLock r outcome (.shutdown rest))

/-- The `finally` clause of `_execute_run`. -/
def endRun (r : RunId) (result : Result) : Effect :=
  { next := .done result, forget := some r, contexts := some (r,none) }

/-- A `_finish_*` returns. -/
def finishReturn (s : Sys) (r : RunId) : FinishCont → Effect
  | .exec none => endRun r .returned
  | .exec (some e) => endRun r (.raised e)
  | .stopFailed k => s.stopConflict "This run has no live execution handle" k
  | .stopCancelled k => .goto (.stopReadBack r k)
  | .shutdown rest => shutdownLoop rest

/-- A `_finish_*` is cancelled. -/
def finishAbort (s : Sys) (r : RunId) : FinishCont → Effect
  | .exec _ => endRun r (.raised .cancelled)
  | .stopFailed k => s.abort (k.root r) .cancelled
  | .stopCancelled k => s.abort (k.root r) .cancelled
  | .shutdown _ => .done (.raised .cancelled)

/-! ## The body of `_execute_run` -/

/-- The exception clauses of `_execute_run`. -/
def execRaise (r : RunId) (e : Exc) : Effect :=
  match e with
  | .cancelled => finishCancelled r (.exec (some .cancelled))
  | e => finishFailed r e.runError (.exec none)

/-- `_run_ready` creates a task for each ready node. -/
def runReady (s : Sys) (r : RunId) (T : TeamState) : Effect :=
  let tasks := T.ready.zipIdx s.nextNode
  { next := .waiting (.readyWait r T tasks)
    spawn := tasks.map fun t => (.node t.2,.nodeBegin T t.1)
    nextNode := some (s.nextNode + T.ready.length) }

/-- The loop of `_run_graph`, then the rest of `invoke` up to the synthesis call. -/
def runGraph (cfg : Config) (s : Sys) (r : RunId) (T : TeamState) : Effect :=
  if T.pending.isEmpty then
    match T.synthesisInput cfg.maxContextChars with
    | some content => .goto (.synthesize r T content)
    | none => execRaise r (.other "KeyError")
  else if T.ready.isEmpty then
    execRaise r (.orchestration "INVALID_TEAM_GRAPH" "Team graph has no schedulable worker")
  else s.runReady r T

/-- `TeamGraphRuntime.invoke` up to its first await. -/
def invokeTeam (cfg : Config) (s : Sys) (r : RunId) (request : AgentExecutionRequest) : Effect :=
  match parseTeamGraph cfg.parseUuid cfg.maxWorkers request.graphDefinition with
  | .error error => execRaise r error.orchestration
  | .ok graph =>
    if cfg.maxDepth ≤ request.context.depth then
      execRaise r (.orchestration "MAX_DEPTH_EXCEEDED" "Maximum delegation depth reached")
    else
      { s.runGraph cfg r (TeamState.start request request.context graph) with permits := some (r,cfg.maxParallel) }

/-- `WorkflowRuntime.invoke`; the model and Lexi workflows are one external call. -/
def invokeRuntime (cfg : Config) (s : Sys) (r : RunId) (request : AgentExecutionRequest) : Effect :=
  let runtime := request.graphDefinition.getD "runtime" (.str "model-v1")
  if runtime.equalsStr "model-v1" || runtime.equalsStr "lexi-v1" then .goto (.invoke r request)
  else if runtime.equalsStr "team-v1" then s.invokeTeam cfg r request
  else execRaise r (.modelRouter "configuration_error" "Unsupported workflow runtime")

/-- The request `_execute_run` builds from the run and the agent row it has just read. -/
def executionRequest (s : Sys) (r : RunId) (run : RunRecord) (agent : AgentRecord) : AgentExecutionRequest :=
  { agentId := run.agentId, runId := r, inputText := run.inputText, modelRef := agent.modelRef,
    graphDefinition := agent.graphDefinition, delegationContext := s.contexts r }

/-! ## Checkpoint and lifecycle events -/

/-- The checkpoint the transaction that produced `store` has just created. -/
def newCheckpoint (cfg : Config) (store : Store) : Option CheckpointRecord :=
  if cfg.recovery then store.checkpoints.getLast? else none

/-- `publish_checkpoint`. -/
def checkpointEvent (cfg : Config) (r : RunId) (checkpoint : Option CheckpointRecord) : List RuntimeEvent :=
  checkpoint.toList.map fun c =>
    ⟨.checkpointCreated,r,none,none,"info",[("checkpoint_id",.str (cfg.idText c.id)),
      ("sequence",.int c.sequence),("reason",.str c.reason.value)]⟩

def createdEvent (r : RunId) (a : AgentId) : RuntimeEvent :=
  ⟨.runCreated,r,some a,none,"info",[("status",.str RunStatus.queued.value)]⟩

def startedEvent (r : RunId) (a : AgentId) : RuntimeEvent :=
  ⟨.runStarted,r,some a,none,"info",[("status",.str RunStatus.running.value)]⟩

/-! ## The tasks of one round -/

def taskResults (s : Sys) (tasks : List (TeamNode × Nat)) : List (TeamNode × String) :=
  tasks.filterMap fun t =>
    match s.result? (.node t.2) with
    | some (.output text) => some (t.1,text)
    | _ => none

def allDone (s : Sys) (tasks : List (TeamNode × Nat)) : Bool := tasks.all fun t => s.isDone (.node t.2)

/-- Some task ended with an exception that is no cancellation, which is what ends
`asyncio.wait(..., FIRST_EXCEPTION)` early. -/
def anyException (s : Sys) (tasks : List (TeamNode × Nat)) : Bool :=
  tasks.any fun t =>
    match s.result? (.node t.2) with
    | some (.raised e) => e != .cancelled
    | _ => false

/-- Some task was cancelled or ended with an exception. -/
def anyFailure (s : Sys) (tasks : List (TeamNode × Nat)) : Bool :=
  tasks.any fun t =>
    match s.result? (.node t.2) with
    | some (.raised _) => true
    | _ => false

/-- The tasks of a round that are still running. -/
def liveNodes (s : Sys) (tasks : List (TeamNode × Nat)) : List TaskId :=
  (tasks.map fun t => TaskId.node t.2).filter fun i => !s.isDone i

/-! ## Receiving a cancellation -/

/-- `CancelledError` is raised at the await `p`. -/
def deliver (s : Sys) (p : Point) (ch : Choice) : Option Effect :=
  match p with
  | .startLock a => some (s.failStart a .cancelled)
  | .startWrite a | .startRefresh a _ _ | .startClose a _ _ | .startPublish a _ _ =>
    some { s.failStart a .cancelled with agentLock := some (a.agentId,none) }
  | .nodeBegin _ _ | .nodeAcquire _ => some (.done (.raised .cancelled))
  | .childWait n c => some (.goto (.descList (.child n c .cancelled)))
  | .childRead n _ => some (s.endNode n (.raised .cancelled))
  | .runBegin _ => some (.done (.raised .cancelled))
  | .markRead r | .markWrite r _ | .markPublish r _ _ | .delay r _ | .readAgent r _ | .validate r _ _
  | .synthesize r _ _ => some (execRaise r .cancelled)
  | .invoke r _ =>
    -- a workflow may swallow the cancellation and go on
    if ch = .absorb then some (.goto p) else some (execRaise r .cancelled)
  | .readyWait r _ tasks => some { next := .waiting (.readyCleanup r tasks), cancel := s.liveNodes tasks }
  -- a gather that was asked to cancel ends only when all its tasks have
  | .readyGather r tasks _ => if s.allDone tasks then some (.goto (.readyCleanup r tasks)) else none
  | .readyCleanup r tasks => if s.allDone tasks then some (execRaise r .cancelled) else none
  | .finishLock r _ k => some (s.finishAbort r k)
  | .finishRead r _ k | .finishWrite r _ k | .finishPublish r _ _ k =>
    some { s.finishAbort r k with terminalLock := some (r,none) }
  | .stopRead r k | .stopWait r k | .stopReadBack r k => some (s.abort (k.root r) .cancelled)
  | .descList k | .descRead _ _ k => some (s.abort k.root .cancelled)
  | .shutdownBegin | .shutdownWait _ | .updateLock _ _ => some (.done (.raised .cancelled))
  | .updateRead a _ | .updateWrite a _ =>
    some { next := .done (.raised .cancelled), agentLock := some (a,none) }

/-! ## Resuming a task -/

/-- `_start_run`. -/
def resumeStart (cfg : Config) (s : Sys) (i : TaskId) (p : Point) (ch : Choice) : Option Effect :=
  match p, ch with
  | .startLock a, .resume =>
    if (s.agentLock a.agentId).isNone then
      some { next := .waiting (.startWrite a), agentLock := some (a.agentId,some i) }
    else none
  | .startWrite a, .resume =>
    match startTransaction cfg s.store a.agentId a.inputText a.link with
    | .error e => some { s.failStart a e with agentLock := some (a.agentId,none) }
    | .ok (store,r) =>
      some { next := .waiting (.startRefresh a r (newCheckpoint cfg store)), commit := some store }
  | .startRefresh a r checkpoint, .resume => some (.goto (.startClose a r checkpoint))
  | .startClose a r checkpoint, .resume =>
    -- create_task and register follow the closed session without an await
    some
      { next := .waiting (.startPublish a r checkpoint)
        spawn := [(.run r,.runBegin r)]
        register := some r
        contexts := a.child.map fun n => (r,some n.context) }
  | .startPublish a r checkpoint, .resume =>
    some
      { s.startReturn r a.child with
        publish := createdEvent r a.agentId :: checkpointEvent cfg r checkpoint
        agentLock := some (a.agentId,none) }
  | .startWrite a, .fail e
  | .startRefresh a _ _, .fail e
  | .startClose a _ _, .fail e
  | .startPublish a _ _, .fail e => some { s.failStart a e with agentLock := some (a.agentId,none) }
  | _, _ => none

/-- `_run_node` and `run_child`. -/
def resumeNode (cfg : Config) (s : Sys) (p : Point) (ch : Choice) : Option Effect :=
  match p, ch with
  | .nodeBegin T node, .resume =>
    match T.nodeInput cfg.maxContextChars node with
    | none => some (.done (.raised (.other "KeyError")))
    | some text => some (.goto (.nodeAcquire ⟨T.execution.runId,node,text,T.childContext⟩))
  | .nodeAcquire n, .resume =>
    if s.permits n.parent = 0 then none
    else if cfg.maxDepth < n.context.depth then
      some (.done (.raised (.orchestration "MAX_DEPTH_EXCEEDED" "Maximum delegation depth exceeded")))
    else if n.context.ancestry.contains n.node.agentId then
      some (.done (.raised (.orchestration "DELEGATION_CYCLE" "Team delegation references an ancestor")))
    else some { next := .waiting (.startLock n.startCall), permits := some (n.parent,s.permits n.parent - 1) }
  | .childWait n c, .resume =>
    match s.result? (.run c) with
    | none => none
    | some (.raised .cancelled) => some (.goto (.descList (.child n c .cancelled)))
    | some (.raised e) => some (s.endNode n (.raised e))
    | some _ => some (.goto (.childRead n c))
  | .childWait n c, .timeout =>
    if s.isDone (.run c) then none
    else some (.goto (.descList (.child n c childTimeout)))
  | .childRead n c, .resume =>
    match s.store.runs c with
    | none => some (s.endNode n (.raised .runNotFound))
    | some child =>
      match child.status, child.outputText with
      | .succeeded, some text => some (s.endNode n (.output text))
      | status, _ =>
        let code := if status = .cancelled then "CHILD_CANCELLED" else "CHILD_FAILED"
        some (s.endNode n (.raised (workerFailed code n.node)))
  | _, _ => none

/-- `_execute_run` and `_mark_running`. -/
def resumeRun (cfg : Config) (s : Sys) (p : Point) (ch : Choice) (now : Instant) : Option Effect :=
  match p, ch with
  | .runBegin r, .resume => some (.goto (.markRead r))
  | .markRead r, .resume =>
    match s.store.runs r with
    | none => some (execRaise r .runNotFound)
    | some run =>
      if run.status.active then some (.goto (.markWrite r run))
      else some (execRaise r (.lifecycleConflict "Run is no longer active"))
  | .markWrite r run, .resume =>
    let store := markRunningTransaction cfg s.store r now
    some { next := .waiting (.markPublish r run (newCheckpoint cfg store)), commit := some store }
  | .markPublish r run checkpoint, .resume =>
    some
      { next := .waiting (if cfg.runtimeDelay then .delay r run else .readAgent r run)
        publish := checkpointEvent cfg r checkpoint ++ [startedEvent r run.agentId] }
  | .delay r run, .resume => some (.goto (.readAgent r run))
  | .readAgent r run, .resume =>
    match s.store.agents run.agentId with
    | none => some (execRaise r .agentNotFound)
    | some agent => some (.goto (.validate r run agent))
  | .validate r run agent, .resume =>
    match validateTeamGraph cfg s.store agent.graphDefinition (some run.agentId) with
    | .error e => some (execRaise r e)
    | .ok () => some (s.invokeRuntime cfg r (s.executionRequest r run agent))
  | .invoke r _, .respond response => some (finishSucceeded r response (.exec none))
  | .invoke r _, .fail e => if e = .cancelled then none else some (execRaise r e)
  | .synthesize r _ _, .respond response => some (finishSucceeded r response (.exec none))
  | .synthesize r _ _, .fail e =>
    if e = .cancelled then none
    else some (execRaise r (.orchestration "SYNTHESIS_FAILED" "Team synthesis failed"))
  | _, _ => none

/-- `_run_ready`. -/
def resumeReady (cfg : Config) (s : Sys) (p : Point) (ch : Choice) : Option Effect :=
  match p, ch with
  | .readyWait r T tasks, .resume =>
    if s.allDone tasks && !s.anyFailure tasks then some (s.runGraph cfg r (T.recordResults (s.taskResults tasks)))
    else none
  | .readyWait r _ tasks, .pick k =>
    if (s.anyException tasks || s.allDone tasks) && tasks.any (fun t => t.2 == k) then
      match s.result? (.node k) with
      | some (.raised e) => some { next := .waiting (.readyGather r tasks e), cancel := s.liveNodes tasks }
      | _ => none
    else none
  | .readyGather r tasks e, .resume =>
    if s.allDone tasks then
      match e with
      | .cancelled => some (.goto (.readyCleanup r tasks))
      | .orchestration code message => some (execRaise r (.orchestration code message))
      | _ => some (execRaise r (.orchestration "CHILD_FAILED" "A required worker failed"))
    else none
  | .readyCleanup r tasks, .resume => if s.allDone tasks then some (execRaise r .cancelled) else none
  | _, _ => none

/-- `_finish_succeeded`, `_finish_cancelled` and `_finish_failed`. -/
def resumeFinish (cfg : Config) (s : Sys) (i : TaskId) (p : Point) (ch : Choice) (now : Instant) : Option Effect :=
  match p, ch with
  | .finishLock r outcome k, .resume =>
    if (s.terminalLock r).isNone then
      some { next := .waiting (.finishRead r outcome k), terminalLock := some (r,some i) }
    else none
  | .finishRead r outcome k, .resume =>
    match s.store.runs r with
    | none => some { s.finishReturn r k with terminalLock := some (r,none) }
    | some run =>
      if run.status.terminal then some { s.finishReturn r k with terminalLock := some (r,none) }
      else some (.goto (.finishWrite r outcome k))
  | .finishWrite r outcome k, .resume =>
    let store := finishTransaction cfg s.store r outcome now
    some { next := .waiting (.finishPublish r outcome (newCheckpoint cfg store) k), commit := some store }
  | .finishPublish r outcome checkpoint k, .resume =>
    let agentId := ((s.store.runs r).map RunRecord.agentId).getD 0
    some
      { s.finishReturn r k with
        publish := checkpointEvent cfg r checkpoint ++ [outcome.event r agentId]
        terminalLock := some (r,none) }
  | _, _ => none

/-- `stop_run` and `_stop_descendants`. -/
def resumeStop (s : Sys) (p : Point) (ch : Choice) : Option Effect :=
  match p, ch with
  | .stopRead r k, .resume =>
    match s.store.runs r with
    | none => some (s.abort (k.root r) .runNotFound)
    | some run =>
      if run.status.terminal then some (s.stopConflict "This run is already terminal" k)
      else some (.goto (.descList (.stop r k)))
  | .stopWait r k, .resume =>
    if s.isDone (.run r) then some (finishCancelled r (.stopCancelled k)) else none
  | .stopWait r k, .timeout =>
    if s.isDone (.run r) then none else some (s.stopConflict "Run cancellation timed out" k)
  | .stopReadBack r k, .resume =>
    match s.store.runs r with
    | none => some (s.abort (k.root r) .runNotFound)
    | some _ => some (s.stopReturn k)
  | .descList k, .resume => some (s.descLoop (s.store.childrenOf k.target) k)
  | .descRead c rest k, .resume =>
    match s.store.runs c with
    | none => some (s.abort k.root .runNotFound)
    | some run =>
      if run.status.terminal then some (s.descLoop rest k)
      else some (.goto (.descList (.loop c rest k)))
  | _, _ => none

/-- `shutdown` and `update_agent_graph`. -/
def resumeOther (cfg : Config) (s : Sys) (i : TaskId) (p : Point) (ch : Choice) : Option Effect :=
  match p, ch with
  | .shutdownBegin, .resume =>
    some
      { next := .waiting (.shutdownWait s.registry)
        cancel := s.registry.flatMap fun r => s.cancelTargets (.run r) }
  | .shutdownWait runs, .resume =>
    if runs.all fun r => s.isDone (.run r) then
      some (shutdownLoop (runs.map fun r => (r,Terminal.cancelled)))
    else none
  | .shutdownWait runs, .timeout =>
    if runs.all fun r => s.isDone (.run r) then none
    else
      let completed := runs.filter fun r => s.isDone (.run r)
      let timedOut := runs.filter fun r => !s.isDone (.run r)
      some (shutdownLoop (completed.map (fun r => (r,Terminal.cancelled)) ++
        timedOut.map fun r => (r,Terminal.failed "Run cancellation timed out during shutdown")))
  | .updateLock a graph, .resume =>
    if (s.agentLock a).isNone then
      some { next := .waiting (.updateRead a graph), agentLock := some (a,some i) }
    else none
  | .updateRead a graph, .resume =>
    match s.store.agents a with
    | none => some { next := .done (.raised .agentNotFound), agentLock := some (a,none) }
    | some _ =>
      match validateTeamGraph cfg s.store graph (some a) with
      | .error e => some { next := .done (.raised e), agentLock := some (a,none) }
      | .ok () => some (.goto (.updateWrite a graph))
  | .updateWrite a graph, .resume =>
    some
      { next := .done .returned
        commit := some (updateGraphTransaction s.store a graph)
        agentLock := some (a,none) }
  | _, _ => none

def resume (cfg : Config) (s : Sys) (i : TaskId) (p : Point) (ch : Choice) (now : Instant) : Option Effect :=
  match p with
  | .startLock _ | .startWrite _ | .startRefresh _ _ _ | .startClose _ _ _ | .startPublish _ _ _ =>
    s.resumeStart cfg i p ch
  | .nodeBegin _ _ | .nodeAcquire _ | .childWait _ _ | .childRead _ _ => s.resumeNode cfg p ch
  | .runBegin _ | .markRead _ | .markWrite _ _ | .markPublish _ _ _ | .delay _ _ | .readAgent _ _
  | .validate _ _ _ | .invoke _ _ | .synthesize _ _ _ => s.resumeRun cfg p ch now
  | .readyWait _ _ _ | .readyGather _ _ _ | .readyCleanup _ _ => s.resumeReady cfg p ch
  | .finishLock _ _ _ | .finishRead _ _ _ | .finishWrite _ _ _ | .finishPublish _ _ _ _ =>
    s.resumeFinish cfg i p ch now
  | .stopRead _ _ | .stopWait _ _ | .stopReadBack _ _ | .descList _ | .descRead _ _ _ => s.resumeStop p ch
  | .shutdownBegin | .shutdownWait _ | .updateLock _ _ | .updateRead _ _ | .updateWrite _ _ =>
    s.resumeOther cfg i p ch

end Sys

/-- A request arrives, the task of a request is cancelled, or a task is resumed. -/
inductive Label
  | call (c : Call)
  | cancel (k : Nat)
  | run (i : TaskId) (ch : Choice) (now : Instant)

/-- The first await of a request. -/
def Call.begin : Call → Point
  | .startRun a inputText => .startLock ⟨a,inputText,none⟩
  | .stopRun r => .stopRead r .call
  | .updateAgentGraph a graph => .updateLock a graph
  | .shutdown => .shutdownBegin

/-- A request arrives and gets its task. -/
def Sys.accept (s : Sys) (c : Call) : Sys :=
  { s.spawn (.call s.calls.length) c.begin with calls := s.calls ++ [c] }

def step (cfg : Config) (l : Label) (s : Sys) : Option Sys :=
  match l with
  | .call c => some (s.accept c)
  | .cancel k => some (s.requestCancels (s.cancelTargets (.call k)))
  | .run i ch now =>
    match s.tasks i with
    | some ⟨.waiting p,true,_⟩ =>
      let s := s.receiveCancel i
      (s.deliver p ch).map (s.apply cfg i)
    | some ⟨.waiting p,false,_⟩ => (s.resume cfg i p ch now).map (s.apply cfg i)
    | _ => none

/-- A manager that has served no request yet, over any committed agents. -/
def initial (agents : AgentId → Option AgentRecord) : Sys :=
  { store := ⟨agents,fun _ => none,[],[],0⟩, events := [], registry := [], contexts := fun _ => none,
    terminalLock := fun _ => none, agentLock := fun _ => none, permits := fun _ => 0,
    tasks := fun _ => none, calls := [], nextNode := 0 }

/-- Task `i` is resumed `n` times. -/
def resumes (i : TaskId) (n : Nat) : List Label := List.replicate n (.run i .resume 0)

/-- A deployment with recovery and events, for concrete runs. -/
def sampleConfig : Config :=
  { parseUuid := fun text => if text.isEmpty then none else some text.length, idText := toString,
    sha256 := id, checkpointChecksum := fun _ => "", maxWorkers := 8, maxParallel := 2, maxDepth := 1,
    maxContextChars := 24000, runtimeDelay := false, recovery := true, events := true }

def modelGraph : JsonObject := [("runtime",.str "model-v1")]

/-- One agent with a model workflow. -/
def soloAgents (a : AgentId) : Option AgentRecord := if a = 0 then some ⟨.idle,"model-a",modelGraph⟩ else none

def sampleResponse : ModelResponse := ⟨"done","provider","model-a",none,none,none,none,none⟩

/-- States reached by runs all of whose steps meet a condition. -/
abbrev Run (cfg : Config) (ok : Label → Sys → Prop) : Sys → Sys → Prop := Reaches (step cfg) ok

end AgentGraph.Manager
