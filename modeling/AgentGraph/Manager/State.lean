import AgentGraph.Persistence.Store
import AgentGraph.Runtime.TeamState

/-! # Tasks of one `AgentManager` process

An asyncio task is either suspended at an await of the manager's code or done.
`Point` lists the awaits; where a call is in progress the point also says who
awaits it. A `Sys` holds the durable store and the process-local state: the
registry, the locks, the semaphores and all tasks.
-/
set_option autoImplicit false
namespace AgentGraph.Manager

/-- The task of a run is the one named `agent-run-<id>`; a node task is created by
`_run_ready`; a call task serves one request to the manager. -/
inductive TaskId
  | run (r : RunId)
  | node (k : Nat)
  | call (k : Nat)
deriving DecidableEq, Repr

/-- The requests a manager serves. -/
inductive Call
  | startRun (agentId : AgentId) (inputText : String)
  | stopRun (r : RunId)
  | updateAgentGraph (agentId : AgentId) (graph : JsonObject)
  | shutdown

/-- One `run_child` call as `_run_node` makes it. -/
structure NodeCall where
  parent : RunId
  node : TeamNode
  inputText : String
  context : DelegationContext

/-- The arguments of `_start_run`; `child` tells `run_child` from `start_run`. -/
structure StartCall where
  agentId : AgentId
  inputText : String
  child : Option NodeCall

namespace NodeCall

def startCall (n : NodeCall) : StartCall := ⟨n.node.agentId,n.inputText,some n⟩

end NodeCall

namespace StartCall

def link (a : StartCall) : Option DelegationLink :=
  a.child.map fun n => ⟨n.parent,n.node.id,n.context.depth⟩

end StartCall

mutual
/-- Who awaits `stop_run`; a handler of `run_child` re-raises `e` afterwards. -/
inductive StopCont
  | call
  | child (n : NodeCall) (e : Exc)
  | loop (rest : List RunId) (k : DescCont)
/-- Who awaits `_stop_descendants`, and of which run. -/
inductive DescCont
  | stop (r : RunId) (k : StopCont)
  | child (n : NodeCall) (c : RunId) (e : Exc)
  | loop (c : RunId) (rest : List RunId) (k : DescCont)
end

/-- Where a stop in progress started: a request, or a handler of `run_child`. -/
inductive Root
  | call
  | child (n : NodeCall) (c : RunId) (e : Exc)

mutual
def StopCont.root (r : RunId) : StopCont → Root
  | .call => .call
  | .child n e => .child n r e
  | .loop _ k => k.root
def DescCont.root : DescCont → Root
  | .stop r k => k.root r
  | .child n c e => .child n c e
  | .loop _ _ k => k.root
end

/-- The argument of `_stop_descendants`. -/
def DescCont.target : DescCont → RunId
  | .stop r _ => r
  | .child _ c _ => c
  | .loop c _ _ => c

/-- Who awaits a `_finish_*`. -/
inductive FinishCont
  | exec (reraise : Option Exc)
  | stopFailed (k : StopCont)
  | stopCancelled (k : StopCont)
  | shutdown (rest : List (RunId × Terminal))

/-- The awaits at which a task can be suspended. -/
inductive Point
  -- `_start_run`
  | startLock (a : StartCall)
  | startWrite (a : StartCall)
  | startRefresh (a : StartCall) (r : RunId) (checkpoint : Option CheckpointRecord)
  | startClose (a : StartCall) (r : RunId) (checkpoint : Option CheckpointRecord)
  | startPublish (a : StartCall) (r : RunId) (checkpoint : Option CheckpointRecord)
  -- `_run_node` and `run_child`
  | nodeBegin (T : TeamState) (node : TeamNode)
  | nodeAcquire (n : NodeCall)
  | childWait (n : NodeCall) (c : RunId)
  | childRead (n : NodeCall) (c : RunId)
  -- `_execute_run` and `_mark_running`
  | runBegin (r : RunId)
  | markRead (r : RunId)
  | markWrite (r : RunId) (run : RunRecord)
  | markPublish (r : RunId) (run : RunRecord) (checkpoint : Option CheckpointRecord)
  | delay (r : RunId) (run : RunRecord)
  | readAgent (r : RunId) (run : RunRecord)
  | validate (r : RunId) (run : RunRecord) (agent : AgentRecord)
  | invoke (r : RunId) (request : AgentExecutionRequest)
  -- `TeamGraphRuntime`
  | readyWait (r : RunId) (T : TeamState) (tasks : List (TeamNode × Nat))
  | readyGather (r : RunId) (tasks : List (TeamNode × Nat)) (e : Exc)
  | readyCleanup (r : RunId) (tasks : List (TeamNode × Nat))
  | synthesize (r : RunId) (T : TeamState) (content : String)
  -- `_finish_succeeded`, `_finish_cancelled`, `_finish_failed`
  | finishLock (r : RunId) (outcome : Terminal) (k : FinishCont)
  | finishRead (r : RunId) (outcome : Terminal) (k : FinishCont)
  | finishWrite (r : RunId) (outcome : Terminal) (k : FinishCont)
  | finishPublish (r : RunId) (outcome : Terminal) (checkpoint : Option CheckpointRecord) (k : FinishCont)
  -- `stop_run` and `_stop_descendants`
  | stopRead (r : RunId) (k : StopCont)
  | stopWait (r : RunId) (k : StopCont)
  | stopReadBack (r : RunId) (k : StopCont)
  | descList (k : DescCont)
  | descRead (c : RunId) (rest : List RunId) (k : DescCont)
  -- `shutdown` and `update_agent_graph`
  | shutdownBegin
  | shutdownWait (runs : List RunId)
  | updateLock (agentId : AgentId) (graph : JsonObject)
  | updateRead (agentId : AgentId) (graph : JsonObject)
  | updateWrite (agentId : AgentId) (graph : JsonObject)

inductive Result
  | returned
  | output (text : String)
  | raised (e : Exc)
deriving DecidableEq

inductive Ctl
  | waiting (p : Point)
  | done (result : Result)

/-- `mustCancel` is a cancellation that the task has not received yet;
`cancelRequested` remembers that one was ever requested. -/
structure Task where
  ctl : Ctl
  mustCancel : Bool
  cancelRequested : Bool

def Task.new (p : Point) : Task := ⟨.waiting p,false,false⟩

/-- `task.cancel()`; a task that has ended ignores it. -/
def Task.requestCancel (t : Task) : Task :=
  match t.ctl with
  | .waiting _ => { t with mustCancel := true, cancelRequested := true }
  | .done _ => t

structure Sys where
  store : Store
  events : List RuntimeEvent
  registry : List RunId
  contexts : RunId → Option DelegationContext
  terminalLock : RunId → Option TaskId
  agentLock : AgentId → Option TaskId
  permits : RunId → Nat
  tasks : TaskId → Option Task
  calls : List Call
  nextNode : Nat

namespace Sys

/-- The await a task is suspended at. -/
def point? (s : Sys) (i : TaskId) : Option Point :=
  match s.tasks i with
  | some ⟨.waiting p,_,_⟩ => some p
  | _ => none

def result? (s : Sys) (i : TaskId) : Option Result :=
  match s.tasks i with
  | some ⟨.done result,_,_⟩ => some result
  | _ => none

/-- `task.done()`. -/
def isDone (s : Sys) (i : TaskId) : Bool := (s.result? i).isSome

def mustCancel (s : Sys) (i : TaskId) : Bool := (s.tasks i).any Task.mustCancel

def cancelRequested (s : Sys) (i : TaskId) : Bool := (s.tasks i).any Task.cancelRequested

def status? (s : Sys) (r : RunId) : Option RunStatus := (s.store.runs r).map RunRecord.status

/-- The task has received its cancellation. -/
def receiveCancel (s : Sys) (i : TaskId) : Sys :=
  { s with tasks := Function.update s.tasks i ((s.tasks i).map fun t => { t with mustCancel := false }) }

/-- The tasks to which a gather forwards a cancellation of its awaiter. -/
def gathered (s : Sys) (i : TaskId) : List TaskId :=
  match s.point? i with
  | some (.readyGather _ tasks _) => tasks.map fun t => .node t.2
  | some (.readyCleanup _ tasks) => tasks.map fun t => .node t.2
  | _ => []

/-- The tasks that `task.cancel()` reaches. -/
def cancelTargets (s : Sys) (i : TaskId) : List TaskId := i :: s.gathered i

def requestCancels (s : Sys) (targets : List TaskId) : Sys :=
  { s with tasks := fun j => if j ∈ targets then (s.tasks j).map Task.requestCancel else s.tasks j }

def spawn (s : Sys) (i : TaskId) (p : Point) : Sys :=
  { s with tasks := Function.update s.tasks i (some (.new p)) }

end Sys

/-- What a task does between two awaits. A pair assigns the value to the key. -/
structure Effect where
  next : Ctl
  commit : Option Store := none
  publish : List RuntimeEvent := []
  cancel : List TaskId := []
  spawn : List (TaskId × Point) := []
  nextNode : Option Nat := none
  register : Option RunId := none
  forget : Option RunId := none
  contexts : Option (RunId × Option DelegationContext) := none
  agentLock : Option (AgentId × Option TaskId) := none
  terminalLock : Option (RunId × Option TaskId) := none
  permits : Option (RunId × Nat) := none

namespace Effect

/-- Only suspend at the next await. -/
def goto (p : Point) : Effect := { next := .waiting p }

/-- Only end. -/
def done (result : Result) : Effect := { next := .done result }

end Effect

/-- `table[key] = value`. -/
def assign {K V : Type} [DecidableEq K] (table : K → V) : Option (K × V) → K → V
  | none => table
  | some (key,value) => Function.update table key value

/-- `RunRegistry.register` and `RunRegistry.remove`. -/
def updateRegistry (registry : List RunId) (register forget : Option RunId) : List RunId :=
  match register, forget with
  | some r, _ => if registry.contains r then registry else registry ++ [r]
  | none, some r => registry.filter fun q => !q == r
  | none, none => registry

namespace Sys

/-- Task `i` performs an effect. -/
def apply (cfg : Config) (s : Sys) (i : TaskId) (eff : Effect) : Sys :=
  { store := eff.commit.getD s.store
    events := if cfg.events then s.events ++ eff.publish else s.events
    registry := updateRegistry s.registry eff.register eff.forget
    contexts := assign s.contexts eff.contexts
    terminalLock := assign s.terminalLock eff.terminalLock
    agentLock := assign s.agentLock eff.agentLock
    permits := assign s.permits eff.permits
    tasks := fun j =>
      match eff.spawn.lookup j with
      | some p => some (.new p)
      | none =>
        let task := if j ∈ eff.cancel then (s.tasks j).map Task.requestCancel else s.tasks j
        if j = i then task.map fun t => { t with ctl := eff.next } else task
    calls := s.calls
    nextNode := eff.nextNode.getD s.nextNode }

end Sys

end AgentGraph.Manager
