import AgentGraph.Manager.Machine

/-! # Control flow of the manager

`Next` lists, for every await, where a resumed task can go, under which condition
and with which committed store; `Delivered` does the same for a task that receives
a cancellation. Every later argument about the manager is a case analysis on them.
-/
set_option autoImplicit false
namespace AgentGraph.Manager
open Sys

/-- The body of `_stop_descendants` after a child has been dealt with. -/
inductive DescNext (s : Sys) : List RunId → DescCont → Point → Prop
  | visit (c : RunId) (rest : List RunId) (k : DescCont) : DescNext s (c :: rest) k (.descRead c rest k)
  | live (r : RunId) (k : StopCont) (h : r ∈ s.registry) :
      DescNext s [] (.stop r k) (.stopWait r k)
  | lost (r : RunId) (k : StopCont) (h : r ∉ s.registry) :
      DescNext s [] (.stop r k) (.finishLock r (.failed "Live execution handle unavailable") (.stopFailed k))
  | child (n : NodeCall) (c : RunId) (e : Exc) : DescNext s [] (.child n c e) (.stopRead c (.child n e))
  | loop (c : RunId) (rest : List RunId) (k : DescCont) :
      DescNext s [] (.loop c rest k) (.stopRead c (.loop rest k))

/-- `stop_run` has ended with `result` and its awaiter goes on. -/
inductive StopNext (s : Sys) (result : Result) : StopCont → Ctl → Prop
  | call : StopNext s result .call (.done result)
  | child (n : NodeCall) (e : Exc) : StopNext s result (.child n e) (.done (.raised e))
  | loop (rest : List RunId) (k : DescCont) (q : Point) (h : DescNext s rest k q) :
      StopNext s result (.loop rest k) (.waiting q)

inductive ShutdownNext : List (RunId × Terminal) → Ctl → Prop
  | returned : ShutdownNext [] (.done .returned)
  | next (r : RunId) (outcome : Terminal) (rest : List (RunId × Terminal)) :
      ShutdownNext ((r,outcome) :: rest) (.waiting (.finishLock r outcome (.shutdown rest)))

/-- A `_finish_*` of run `r` has returned and its awaiter goes on. -/
inductive FinishNext (s : Sys) (r : RunId) : FinishCont → Ctl → Prop
  | returned : FinishNext s r (.exec none) (.done .returned)
  | reraised (e : Exc) : FinishNext s r (.exec (some e)) (.done (.raised e))
  | stopFailed (k : StopCont) (c : Ctl)
      (h : StopNext s (.raised (.lifecycleConflict "This run has no live execution handle")) k c) :
      FinishNext s r (.stopFailed k) c
  | stopCancelled (k : StopCont) : FinishNext s r (.stopCancelled k) (.waiting (.stopReadBack r k))
  | shutdown (rest : List (RunId × Terminal)) (c : Ctl) (h : ShutdownNext rest c) :
      FinishNext s r (.shutdown rest) c

/-- The loop of `_run_graph`. -/
inductive GraphNext (cfg : Config) (s : Sys) (r : RunId) (T : TeamState) : Point → Prop
  | synthesize (content : String) (hp : T.pending = []) (h : T.synthesisInput cfg.maxContextChars = some content) :
      GraphNext cfg s r T (.synthesize r T content)
  | keyError (hp : T.pending = []) (h : T.synthesisInput cfg.maxContextChars = none) :
      GraphNext cfg s r T (.finishLock r (.failed (Exc.other "KeyError").runError) (.exec none))
  | stuck (hp : T.pending ≠ []) (hr : T.ready = []) :
      GraphNext cfg s r T (.finishLock r (.failed
        (Exc.orchestration "INVALID_TEAM_GRAPH" "Team graph has no schedulable worker").runError) (.exec none))
  | round (hp : T.pending ≠ []) (hr : T.ready ≠ []) :
      GraphNext cfg s r T (.readyWait r T (T.ready.zipIdx s.nextNode))

/-- `_invoke_runtime`. -/
inductive InvokeNext (cfg : Config) (s : Sys) (r : RunId) (request : AgentExecutionRequest) : Point → Prop
  | call : InvokeNext cfg s r request (.invoke r request)
  | refused (e : Exc) (he : e ≠ .cancelled) :
      InvokeNext cfg s r request (.finishLock r (.failed e.runError) (.exec none))
  | team (graph : TeamGraph) (q : Point)
      (hv : (request.graphDefinition.getD "runtime" (.str "model-v1")).equalsStr "team-v1" = true)
      (hg : parseTeamGraph cfg.parseUuid cfg.maxWorkers request.graphDefinition = .ok graph)
      (hd : request.context.depth < cfg.maxDepth)
      (h : GraphNext cfg s r (TeamState.start request request.context graph) q) :
      InvokeNext cfg s r request q

/-- What `_run_ready` raises for a failed task that was not cancelled. -/
def roundError : Exc → Exc
  | .orchestration code message => .orchestration code message
  | _ => .orchestration "CHILD_FAILED" "A required worker failed"

/-- The call of `_start_run` that is past its first await. -/
def Point.started? : Point → Option StartCall
  | .startWrite a | .startRefresh a _ _ | .startClose a _ _ | .startPublish a _ _ => some a
  | _ => none

/-- A `_finish_*`, `stop_run`, `_stop_descendants` or `shutdown` has done its part and
its awaiter goes on. -/
inductive Continued (s : Sys) : Point → Ctl → Prop
  | finishSkip (r : RunId) (outcome : Terminal) (k : FinishCont) (c : Ctl)
      (h : ∀ run, s.store.runs r = some run → run.status.terminal = true) (hc : FinishNext s r k c) :
      Continued s (.finishRead r outcome k) c
  | finishPublish (r : RunId) (outcome : Terminal) (cp : Option CheckpointRecord) (k : FinishCont) (c : Ctl)
      (hc : FinishNext s r k c) : Continued s (.finishPublish r outcome cp k) c
  | stopTerminal (r : RunId) (k : StopCont) (run : RunRecord) (c : Ctl) (h : s.store.runs r = some run)
      (hs : run.status.terminal = true)
      (hc : StopNext s (.raised (.lifecycleConflict "This run is already terminal")) k c) :
      Continued s (.stopRead r k) c
  | stopTimeout (r : RunId) (k : StopCont) (c : Ctl) (h : s.isDone (.run r) = false)
      (hc : StopNext s (.raised (.lifecycleConflict "Run cancellation timed out")) k c) :
      Continued s (.stopWait r k) c
  | stopReadBack (r : RunId) (k : StopCont) (run : RunRecord) (c : Ctl) (h : s.store.runs r = some run)
      (hc : StopNext s .returned k c) : Continued s (.stopReadBack r k) c
  | descList (k : DescCont) (q : Point) (hq : DescNext s (s.store.childrenOf k.target) k q) :
      Continued s (.descList k) (.waiting q)
  | descSkip (c : RunId) (rest : List RunId) (k : DescCont) (run : RunRecord) (q : Point)
      (h : s.store.runs c = some run) (hs : run.status.terminal = true) (hq : DescNext s rest k q) :
      Continued s (.descRead c rest k) (.waiting q)
  | shutdownWait (runs : List RunId) (outcomes : List (RunId × Terminal)) (c : Ctl)
      (h : ∀ o ∈ outcomes, o.1 ∈ runs) (hc : ShutdownNext outcomes c) :
      Continued s (.shutdownWait runs) c

/-- Where a resumed task can go from an await, and the store it leaves. -/
inductive Next (cfg : Config) (s : Sys) : Point → Ctl → Store → Prop
  | continued (p : Point) (c : Ctl) (h : Continued s p c) : Next cfg s p c s.store
  -- `_start_run`
  | startLock (a : StartCall) (h : s.agentLock a.agentId = none) :
      Next cfg s (.startLock a) (.waiting (.startWrite a)) s.store
  | startCommit (a : StartCall) (store : Store) (r : RunId)
      (h : startTransaction cfg s.store a.agentId a.inputText a.link = .ok (store,r)) :
      Next cfg s (.startWrite a) (.waiting (.startRefresh a r (newCheckpoint cfg store))) store
  | startRefused (a : StartCall) (e : Exc)
      (h : startTransaction cfg s.store a.agentId a.inputText a.link = .error e) :
      Next cfg s (.startWrite a) (.done (.raised e)) s.store
  | startRaised (p : Point) (a : StartCall) (e : Exc) (h : p.started? = some a) :
      Next cfg s p (.done (.raised e)) s.store
  | startRefresh (a : StartCall) (r : RunId) (cp : Option CheckpointRecord) :
      Next cfg s (.startRefresh a r cp) (.waiting (.startClose a r cp)) s.store
  | startClose (a : StartCall) (r : RunId) (cp : Option CheckpointRecord) :
      Next cfg s (.startClose a r cp) (.waiting (.startPublish a r cp)) s.store
  | startReturned (a : StartCall) (r : RunId) (cp : Option CheckpointRecord) (h : a.child = none) :
      Next cfg s (.startPublish a r cp) (.done .returned) s.store
  | childStarted (a : StartCall) (r : RunId) (cp : Option CheckpointRecord) (n : NodeCall)
      (h : a.child = some n) (hr : r ∈ s.registry) :
      Next cfg s (.startPublish a r cp) (.waiting (.childWait n r)) s.store
  | childLost (a : StartCall) (r : RunId) (cp : Option CheckpointRecord) (n : NodeCall)
      (h : a.child = some n) (hr : r ∉ s.registry) :
      Next cfg s (.startPublish a r cp) (.done (.raised childStartFailed)) s.store
  -- `_run_node` and `run_child`
  | nodeKeyError (T : TeamState) (node : TeamNode) (h : T.nodeInput cfg.maxContextChars node = none) :
      Next cfg s (.nodeBegin T node) (.done (.raised (.other "KeyError"))) s.store
  | nodeBegin (T : TeamState) (node : TeamNode) (text : String)
      (h : T.nodeInput cfg.maxContextChars node = some text) :
      Next cfg s (.nodeBegin T node) (.waiting (.nodeAcquire ⟨T.execution.runId,node,text,T.childContext⟩)) s.store
  | nodeRefused (n : NodeCall) (e : Exc) (he : e ≠ .cancelled) :
      Next cfg s (.nodeAcquire n) (.done (.raised e)) s.store
  | nodeAcquire (n : NodeCall) (hp : s.permits n.parent ≠ 0) (hd : n.context.depth ≤ cfg.maxDepth)
      (ha : n.node.agentId ∉ n.context.ancestry) :
      Next cfg s (.nodeAcquire n) (.waiting (.startLock n.startCall)) s.store
  | childCancelled (n : NodeCall) (c : RunId) (h : s.result? (.run c) = some (.raised .cancelled)) :
      Next cfg s (.childWait n c) (.waiting (.descList (.child n c .cancelled))) s.store
  | childRaised (n : NodeCall) (c : RunId) (e : Exc) (h : s.result? (.run c) = some (.raised e))
      (he : e ≠ .cancelled) : Next cfg s (.childWait n c) (.done (.raised e)) s.store
  | childDone (n : NodeCall) (c : RunId) (result : Result) (h : s.result? (.run c) = some result)
      (hr : ∀ e, result ≠ .raised e) : Next cfg s (.childWait n c) (.waiting (.childRead n c)) s.store
  | childTimeout (n : NodeCall) (c : RunId) (h : s.isDone (.run c) = false) :
      Next cfg s (.childWait n c) (.waiting (.descList (.child n c childTimeout))) s.store
  | childMissing (n : NodeCall) (c : RunId) (h : s.store.runs c = none) :
      Next cfg s (.childRead n c) (.done (.raised .runNotFound)) s.store
  | childSucceeded (n : NodeCall) (c : RunId) (run : RunRecord) (text : String) (h : s.store.runs c = some run)
      (hs : run.status = .succeeded) (ht : run.outputText = some text) :
      Next cfg s (.childRead n c) (.done (.output text)) s.store
  | childUnsuccessful (n : NodeCall) (c : RunId) (run : RunRecord) (h : s.store.runs c = some run)
      (hs : ¬ (run.status = .succeeded ∧ run.outputText.isSome)) :
      Next cfg s (.childRead n c) (.done (.raised (workerFailed
        (if run.status = .cancelled then "CHILD_CANCELLED" else "CHILD_FAILED") n.node))) s.store
  -- `_execute_run` and `_mark_running`
  | runBegin (r : RunId) : Next cfg s (.runBegin r) (.waiting (.markRead r)) s.store
  | markMissing (r : RunId) (h : s.store.runs r = none) :
      Next cfg s (.markRead r) (.waiting (.finishLock r (.failed Exc.runNotFound.runError) (.exec none))) s.store
  | markRefused (r : RunId) (run : RunRecord) (h : s.store.runs r = some run) (hs : run.status.terminal = true) :
      Next cfg s (.markRead r) (.waiting (.finishLock r
        (.failed (Exc.lifecycleConflict "Run is no longer active").runError) (.exec none))) s.store
  | markRead (r : RunId) (run : RunRecord) (h : s.store.runs r = some run) (hs : run.status.active = true) :
      Next cfg s (.markRead r) (.waiting (.markWrite r run)) s.store
  | markWrite (r : RunId) (run : RunRecord) (now : Instant) :
      Next cfg s (.markWrite r run)
        (.waiting (.markPublish r run (newCheckpoint cfg (markRunningTransaction cfg s.store r now))))
        (markRunningTransaction cfg s.store r now)
  | markDelay (r : RunId) (run : RunRecord) (cp : Option CheckpointRecord) :
      Next cfg s (.markPublish r run cp) (.waiting (.delay r run)) s.store
  | markPublish (r : RunId) (run : RunRecord) (cp : Option CheckpointRecord) :
      Next cfg s (.markPublish r run cp) (.waiting (.readAgent r run)) s.store
  | delay (r : RunId) (run : RunRecord) : Next cfg s (.delay r run) (.waiting (.readAgent r run)) s.store
  | agentMissing (r : RunId) (run : RunRecord) (h : s.store.agents run.agentId = none) :
      Next cfg s (.readAgent r run)
        (.waiting (.finishLock r (.failed Exc.agentNotFound.runError) (.exec none))) s.store
  | readAgent (r : RunId) (run : RunRecord) (agent : AgentRecord) (h : s.store.agents run.agentId = some agent) :
      Next cfg s (.readAgent r run) (.waiting (.validate r run agent)) s.store
  | invalid (r : RunId) (run : RunRecord) (agent : AgentRecord) (e : Exc) (he : e ≠ .cancelled)
      (h : validateTeamGraph cfg s.store agent.graphDefinition (some run.agentId) = .error e) :
      Next cfg s (.validate r run agent) (.waiting (.finishLock r (.failed e.runError) (.exec none))) s.store
  | invoked (r : RunId) (run : RunRecord) (agent : AgentRecord) (q : Point)
      (h : validateTeamGraph cfg s.store agent.graphDefinition (some run.agentId) = .ok ())
      (hq : InvokeNext cfg s r (s.executionRequest r run agent) q) :
      Next cfg s (.validate r run agent) (.waiting q) s.store
  | responded (r : RunId) (request : AgentExecutionRequest) (response : ModelResponse) :
      Next cfg s (.invoke r request) (.waiting (.finishLock r (.succeeded response) (.exec none))) s.store
  | runFailed (r : RunId) (request : AgentExecutionRequest) (e : Exc) (he : e ≠ .cancelled) :
      Next cfg s (.invoke r request) (.waiting (.finishLock r (.failed e.runError) (.exec none))) s.store
  | synthesized (r : RunId) (T : TeamState) (content : String) (response : ModelResponse) :
      Next cfg s (.synthesize r T content) (.waiting (.finishLock r (.succeeded response) (.exec none))) s.store
  | synthesisFailed (r : RunId) (T : TeamState) (content : String) :
      Next cfg s (.synthesize r T content) (.waiting (.finishLock r
        (.failed (Exc.orchestration "SYNTHESIS_FAILED" "Team synthesis failed").runError) (.exec none))) s.store
  -- `_run_ready`
  | roundDone (r : RunId) (T : TeamState) (tasks : List (TeamNode × Nat)) (q : Point)
      (hd : s.allDone tasks = true) (hf : s.anyFailure tasks = false)
      (hq : GraphNext cfg s r (T.recordResults (s.taskResults tasks)) q) :
      Next cfg s (.readyWait r T tasks) (.waiting q) s.store
  | roundFailed (r : RunId) (T : TeamState) (tasks : List (TeamNode × Nat)) (t : TeamNode × Nat) (e : Exc)
      (ht : t ∈ tasks) (he : s.result? (.node t.2) = some (.raised e))
      (hw : s.anyException tasks = true ∨ s.allDone tasks = true) :
      Next cfg s (.readyWait r T tasks) (.waiting (.readyGather r tasks e)) s.store
  | gatherCancelled (r : RunId) (tasks : List (TeamNode × Nat)) (hd : s.allDone tasks = true) :
      Next cfg s (.readyGather r tasks .cancelled) (.waiting (.readyCleanup r tasks)) s.store
  | gatherFailed (r : RunId) (tasks : List (TeamNode × Nat)) (e : Exc) (hd : s.allDone tasks = true)
      (he : e ≠ .cancelled) :
      Next cfg s (.readyGather r tasks e)
        (.waiting (.finishLock r (.failed (roundError e).runError) (.exec none))) s.store
  | cleanup (r : RunId) (tasks : List (TeamNode × Nat)) (hd : s.allDone tasks = true) :
      Next cfg s (.readyCleanup r tasks)
        (.waiting (.finishLock r .cancelled (.exec (some .cancelled)))) s.store
  -- `_finish_*`
  | finishLock (r : RunId) (outcome : Terminal) (k : FinishCont) (h : s.terminalLock r = none) :
      Next cfg s (.finishLock r outcome k) (.waiting (.finishRead r outcome k)) s.store
  | finishRead (r : RunId) (outcome : Terminal) (k : FinishCont) (run : RunRecord)
      (h : s.store.runs r = some run) (hs : run.status.active = true) :
      Next cfg s (.finishRead r outcome k) (.waiting (.finishWrite r outcome k)) s.store
  | finishWrite (r : RunId) (outcome : Terminal) (k : FinishCont) (now : Instant) :
      Next cfg s (.finishWrite r outcome k)
        (.waiting (.finishPublish r outcome (newCheckpoint cfg (finishTransaction cfg s.store r outcome now)) k))
        (finishTransaction cfg s.store r outcome now)
  -- `stop_run` and `_stop_descendants`
  | stopMissing (r : RunId) (k : StopCont) (h : s.store.runs r = none) :
      Next cfg s (.stopRead r k) (.done (.raised .runNotFound)) s.store
  | stopRead (r : RunId) (k : StopCont) (run : RunRecord) (h : s.store.runs r = some run)
      (hs : run.status.active = true) :
      Next cfg s (.stopRead r k) (.waiting (.descList (.stop r k))) s.store
  | stopWait (r : RunId) (k : StopCont) (h : s.isDone (.run r) = true) :
      Next cfg s (.stopWait r k) (.waiting (.finishLock r .cancelled (.stopCancelled k))) s.store
  | backMissing (r : RunId) (k : StopCont) (h : s.store.runs r = none) :
      Next cfg s (.stopReadBack r k) (.done (.raised .runNotFound)) s.store
  | descMissing (c : RunId) (rest : List RunId) (k : DescCont) (h : s.store.runs c = none) :
      Next cfg s (.descRead c rest k) (.done (.raised .runNotFound)) s.store
  | descRead (c : RunId) (rest : List RunId) (k : DescCont) (run : RunRecord)
      (h : s.store.runs c = some run) (hs : run.status.active = true) :
      Next cfg s (.descRead c rest k) (.waiting (.descList (.loop c rest k))) s.store
  -- `shutdown` and `update_agent_graph`
  | shutdownBegin : Next cfg s .shutdownBegin (.waiting (.shutdownWait s.registry)) s.store
  | updateLock (a : AgentId) (graph : JsonObject) (h : s.agentLock a = none) :
      Next cfg s (.updateLock a graph) (.waiting (.updateRead a graph)) s.store
  | updateRefused (a : AgentId) (graph : JsonObject) (e : Exc) :
      Next cfg s (.updateRead a graph) (.done (.raised e)) s.store
  | updateRead (a : AgentId) (graph : JsonObject)
      (h : validateTeamGraph cfg s.store graph (some a) = .ok ()) :
      Next cfg s (.updateRead a graph) (.waiting (.updateWrite a graph)) s.store
  | updateWrite (a : AgentId) (graph : JsonObject) :
      Next cfg s (.updateWrite a graph) (.done .returned) (updateGraphTransaction s.store a graph)

/-- The run whose `_execute_run` is inside its `try` block. -/
def Point.body? : Point → Option RunId
  | .markRead r | .markWrite r _ | .markPublish r _ _ | .delay r _ | .readAgent r _ | .validate r _ _
  | .invoke r _ | .readyWait r _ _ | .readyGather r _ _ | .readyCleanup r _ | .synthesize r _ _ => some r
  | _ => none

/-- The tasks `_run_ready` has created. -/
def Point.round? : Point → Option (List (TeamNode × Nat))
  | .readyWait _ _ tasks | .readyGather _ tasks _ | .readyCleanup _ tasks => some tasks
  | _ => none

/-- Where a task that receives a cancellation goes. -/
inductive Delivered (s : Sys) : Point → Ctl → Prop
  | unwound (p : Point) (hn : ∀ n c, p ≠ .childWait n c) (hb : p.body? = none) :
      Delivered s p (.done (.raised .cancelled))
  | handler (n : NodeCall) (c : RunId) :
      Delivered s (.childWait n c) (.waiting (.descList (.child n c .cancelled)))
  | raised (p : Point) (r : RunId) (hb : p.body? = some r) (hr : p.round? = none) :
      Delivered s p (.waiting (.finishLock r .cancelled (.exec (some .cancelled))))
  | absorbed (r : RunId) (request : AgentExecutionRequest) :
      Delivered s (.invoke r request) (.waiting (.invoke r request))
  | readyWait (r : RunId) (T : TeamState) (tasks : List (TeamNode × Nat)) :
      Delivered s (.readyWait r T tasks) (.waiting (.readyCleanup r tasks))
  | readyGather (r : RunId) (tasks : List (TeamNode × Nat)) (e : Exc) (hd : s.allDone tasks = true) :
      Delivered s (.readyGather r tasks e) (.waiting (.readyCleanup r tasks))
  | readyCleanup (r : RunId) (tasks : List (TeamNode × Nat)) (hd : s.allDone tasks = true) :
      Delivered s (.readyCleanup r tasks) (.waiting (.finishLock r .cancelled (.exec (some .cancelled))))

/-- The awaits at which a continuation can end up. -/
def Point.continues : Point → Bool
  | .finishLock _ _ _ | .stopRead _ _ | .stopWait _ _ | .stopReadBack _ _ | .descRead _ _ _ => true
  | _ => false

variable {s : Sys} {q : Point}

theorem DescNext.continues {children : List RunId} {k : DescCont} (h : DescNext s children k q) :
    q.continues = true := by
  cases h <;> rfl

theorem StopNext.continues {result : Result} {k : StopCont} (h : StopNext s result k (.waiting q)) :
    q.continues = true := by
  cases h with
  | loop rest k q h => exact h.continues

theorem FinishNext.continues {r : RunId} {k : FinishCont} (h : FinishNext s r k (.waiting q)) :
    q.continues = true := by
  cases h with
  | stopFailed k c h => exact h.continues
  | stopCancelled k => rfl
  | shutdown rest c h => cases h; rfl

theorem Continued.continues {p : Point} (h : Continued s p (.waiting q)) : q.continues = true := by
  cases h
  case finishSkip hc => exact hc.continues
  case finishPublish hc => exact hc.continues
  case stopTerminal hc => exact hc.continues
  case stopTimeout hc => exact hc.continues
  case stopReadBack hc => exact hc.continues
  case descList hq => exact hq.continues
  case descSkip hq => exact hq.continues
  case shutdownWait hc => cases hc; rfl

/-- The awaits at which a runtime that has just been invoked, or has finished a
round, can end up. -/
def Point.runs : Point → Bool
  | .invoke _ _ | .synthesize _ _ _ | .readyWait _ _ _ | .finishLock _ _ _ => true
  | _ => false

theorem GraphNext.runs {cfg : Config} {r : RunId} {T : TeamState} (h : GraphNext cfg s r T q) : q.runs = true := by
  cases h <;> rfl

theorem InvokeNext.runs {cfg : Config} {r : RunId} {request : AgentExecutionRequest}
    (h : InvokeNext cfg s r request q) : q.runs = true := by
  cases h with
  | call => rfl
  | refused e he => rfl
  | team graph q hv hg hd h => exact h.runs

/-! ## The continuations -/

namespace Sys

@[simp] theorem endNode_next (s : Sys) (n : NodeCall) (result : Result) : (s.endNode n result).next = .done result := rfl

@[simp] theorem failStart_next (s : Sys) (a : StartCall) (e : Exc) : (s.failStart a e).next = .done (.raised e) := by
  unfold failStart
  cases a.child <;> rfl

@[simp] theorem abort_next (s : Sys) (root : Root) (e : Exc) : (s.abort root e).next = .done (.raised e) := by
  cases root <;> rfl

@[simp] theorem finishAbort_next (s : Sys) (r : RunId) (k : FinishCont) :
    (s.finishAbort r k).next = .done (.raised .cancelled) := by
  cases k <;> simp [finishAbort,endRun,Effect.done]

theorem descLoop_next (s : Sys) (children : List RunId) (k : DescCont) :
    ∃ q, (s.descLoop children k).next = .waiting q ∧ DescNext s children k q := by
  cases children with
  | cons c rest => exact ⟨_,rfl,.visit c rest k⟩
  | nil =>
    cases k with
    | child n c e => exact ⟨_,rfl,.child n c e⟩
    | loop c rest k => exact ⟨_,rfl,.loop c rest k⟩
    | stop r k =>
      by_cases h : r ∈ s.registry
      · exact ⟨.stopWait r k,by simp [descLoop,descReturn,h],.live r k h⟩
      · exact ⟨_,by simp [descLoop,descReturn,h,finishFailed,Effect.goto],.lost r k h⟩

theorem stopConflict_next (s : Sys) (message : String) (k : StopCont) :
    StopNext s (.raised (.lifecycleConflict message)) k (s.stopConflict message k).next := by
  cases k with
  | call => exact .call
  | child n e => exact .child n e
  | loop rest k =>
    obtain ⟨q,hq,h⟩ := s.descLoop_next rest k
    simpa [stopConflict,hq] using StopNext.loop rest k q h

theorem stopReturn_next (s : Sys) (k : StopCont) : StopNext s .returned k (s.stopReturn k).next := by
  cases k with
  | call => exact .call
  | child n e => exact .child n e
  | loop rest k =>
    obtain ⟨q,hq,h⟩ := s.descLoop_next rest k
    simpa [stopReturn,hq] using StopNext.loop rest k q h

theorem shutdownLoop_next (outcomes : List (RunId × Terminal)) :
    ShutdownNext outcomes (shutdownLoop outcomes).next := by
  cases outcomes with
  | nil => exact .returned
  | cons o rest => exact .next o.1 o.2 rest

theorem finishReturn_next (s : Sys) (r : RunId) (k : FinishCont) : FinishNext s r k (s.finishReturn r k).next := by
  cases k with
  | exec e =>
    cases e with
    | none => exact .returned
    | some e => exact .reraised e
  | stopFailed k => exact .stopFailed k _ (s.stopConflict_next _ k)
  | stopCancelled k => exact .stopCancelled k
  | shutdown rest => exact .shutdown rest _ (shutdownLoop_next rest)

theorem execRaise_next (r : RunId) {e : Exc} (he : e ≠ .cancelled) :
    (execRaise r e).next = .waiting (.finishLock r (.failed e.runError) (.exec none)) := by
  cases e <;> first | rfl | exact absurd rfl he

theorem runGraph_next (cfg : Config) (s : Sys) (r : RunId) (T : TeamState) :
    ∃ q, (s.runGraph cfg r T).next = .waiting q ∧ GraphNext cfg s r T q := by
  unfold runGraph
  by_cases hp : T.pending = []
  · simp only [hp, List.isEmpty_nil, if_true]
    cases h : T.synthesisInput cfg.maxContextChars with
    | some content => exact ⟨_,rfl,.synthesize content hp h⟩
    | none => exact ⟨_,rfl,.keyError hp h⟩
  · by_cases hr : T.ready = []
    · exact ⟨_,by simp only [List.isEmpty_iff, hp, hr, if_true, if_false]; rfl,.stuck hp hr⟩
    · exact ⟨_,by simp only [List.isEmpty_iff, hp, hr, if_false]; rfl,.round hp hr⟩

theorem invokeRuntime_next (cfg : Config) (s : Sys) (r : RunId) (request : AgentExecutionRequest) :
    ∃ q, (s.invokeRuntime cfg r request).next = .waiting q ∧ InvokeNext cfg s r request q := by
  unfold invokeRuntime
  dsimp only
  split
  · exact ⟨_,rfl,.call⟩
  split
  next hv =>
    unfold invokeTeam
    split
    next error hg => exact ⟨_,execRaise_next r (by simp [TeamGraphError.orchestration]),.refused _ (by simp [TeamGraphError.orchestration])⟩
    next graph hg =>
      dsimp only
      split
      · exact ⟨_,execRaise_next r (by simp),.refused _ (by simp)⟩
      next hd =>
        obtain ⟨q,hq,h⟩ := s.runGraph_next cfg r (TeamState.start request request.context graph)
        exact ⟨q,hq,.team graph q hv hg (by simpa [AgentExecutionRequest.context] using hd) h⟩
  · exact ⟨_,execRaise_next r (by simp),.refused _ (by simp)⟩

end Sys

/-! ## Effects of the continuations -/

/-- The node tasks that a task on its way to `c` has created. -/
def roundSpawn : Ctl → List (TaskId × Point)
  | .waiting (.readyWait _ T tasks) => tasks.map fun t => (.node t.2,.nodeBegin T t.1)
  | _ => []

/-- The tasks that a task on its way to `c` has cancelled. -/
def cancelled (s : Sys) : Ctl → List TaskId
  | .waiting (.stopWait r _) => s.cancelTargets (.run r)
  | .waiting (.readyGather _ tasks _) | .waiting (.readyCleanup _ tasks) => s.liveNodes tasks
  | .waiting (.shutdownWait runs) => runs.flatMap fun r => s.cancelTargets (.run r)
  | _ => []

/-- Only the `finally` clause of `_execute_run` forgets a run. -/
def FinishCont.forgets (r : RunId) : FinishCont → Option RunId
  | .exec _ => some r
  | _ => none

/-- No commit, event, registration or lock; the rest is told by the next await and
by the run forgotten. -/
structure Effect.Regular (s : Sys) (forget : Option RunId) (eff : Effect) : Prop where
  commit : eff.commit = none
  publish : eff.publish = []
  spawn : eff.spawn = roundSpawn eff.next
  nextNode : eff.nextNode.getD s.nextNode = s.nextNode + (roundSpawn eff.next).length
  register : eff.register = none
  contexts : eff.contexts = forget.map fun r => (r,none)
  forget : eff.forget = forget
  cancel : eff.cancel = cancelled s eff.next
  terminalLock : eff.terminalLock = none

theorem allDone_liveNodes {s : Sys} {tasks : List (TeamNode × Nat)} (h : s.allDone tasks = true) :
    s.liveNodes tasks = [] := by
  unfold liveNodes
  simp only [List.filter_eq_nil_iff, List.mem_map]
  rintro i ⟨t,ht,rfl⟩
  simpa using List.all_eq_true.mp h t ht

namespace Sys

variable (s : Sys)

theorem goto_regular (p : Point) (hs : roundSpawn (.waiting p) = []) (hc : cancelled s (.waiting p) = []) :
    (Effect.goto p).Regular s none := by
  refine ⟨rfl,rfl,hs.symm,?_,rfl,rfl,rfl,hc.symm,rfl⟩
  simp [Effect.goto,hs]

theorem done_regular (result : Result) : (Effect.done result).Regular s none :=
  ⟨rfl,rfl,rfl,rfl,rfl,rfl,rfl,rfl,rfl⟩

theorem endNode_regular (n : NodeCall) (result : Result) : (s.endNode n result).Regular s none :=
  ⟨rfl,rfl,rfl,rfl,rfl,rfl,rfl,rfl,rfl⟩

theorem endRun_regular (r : RunId) (result : Result) : (endRun r result).Regular s (some r) :=
  ⟨rfl,rfl,rfl,rfl,rfl,rfl,rfl,rfl,rfl⟩

theorem failStart_regular (a : StartCall) (e : Exc) : (s.failStart a e).Regular s none := by
  unfold failStart
  cases a.child with
  | none => exact s.done_regular _
  | some n => exact s.endNode_regular n _

theorem startReturn_regular (r : RunId) (child : Option NodeCall) : (s.startReturn r child).Regular s none := by
  cases child with
  | none => exact s.done_regular _
  | some n =>
    by_cases h : r ∈ s.registry
    · simpa [startReturn,h] using s.goto_regular (.childWait n r) rfl rfl
    · simpa [startReturn,h] using s.endNode_regular n (.raised childStartFailed)

theorem abort_regular (root : Root) (e : Exc) : (s.abort root e).Regular s none := by
  cases root with
  | call => exact s.done_regular _
  | child n c e => exact s.endNode_regular n _

theorem descLoop_regular (children : List RunId) (k : DescCont) : (s.descLoop children k).Regular s none := by
  cases children with
  | cons c rest => exact s.goto_regular _ rfl rfl
  | nil =>
    cases k with
    | child n c e => exact s.goto_regular _ rfl rfl
    | loop c rest k => exact s.goto_regular _ rfl rfl
    | stop r k =>
      unfold descLoop descReturn
      dsimp only
      split
      · exact ⟨rfl,rfl,rfl,rfl,rfl,rfl,rfl,rfl,rfl⟩
      · exact s.goto_regular _ rfl rfl

theorem stopConflict_regular (message : String) (k : StopCont) : (s.stopConflict message k).Regular s none := by
  cases k with
  | call => exact s.done_regular _
  | child n e => exact s.endNode_regular n _
  | loop rest k => exact s.descLoop_regular rest k

theorem stopReturn_regular (k : StopCont) : (s.stopReturn k).Regular s none := by
  cases k with
  | call => exact s.done_regular _
  | child n e => exact s.endNode_regular n _
  | loop rest k => exact s.descLoop_regular rest k

theorem shutdownLoop_regular (outcomes : List (RunId × Terminal)) : (shutdownLoop outcomes).Regular s none := by
  cases outcomes with
  | nil => exact s.done_regular _
  | cons o rest => exact s.goto_regular _ rfl rfl

theorem finishReturn_regular (r : RunId) (k : FinishCont) :
    (s.finishReturn r k).Regular s (k.forgets r) := by
  cases k with
  | exec e => cases e <;> exact s.endRun_regular r _
  | stopFailed k => exact s.stopConflict_regular _ k
  | stopCancelled k => exact s.goto_regular _ rfl rfl
  | shutdown rest => exact s.shutdownLoop_regular rest

theorem finishAbort_regular (r : RunId) (k : FinishCont) :
    (s.finishAbort r k).Regular s (k.forgets r) := by
  cases k with
  | exec e => exact s.endRun_regular r _
  | stopFailed k => exact s.abort_regular _ _
  | stopCancelled k => exact s.abort_regular _ _
  | shutdown rest => exact s.done_regular _

theorem execRaise_regular (r : RunId) (e : Exc) : (execRaise r e).Regular s none := by
  cases e <;> exact s.goto_regular _ rfl rfl

theorem runGraph_regular (cfg : Config) (r : RunId) (T : TeamState) : (s.runGraph cfg r T).Regular s none := by
  unfold runGraph
  split
  · split
    · exact s.goto_regular _ rfl rfl
    · exact s.execRaise_regular r _
  split
  · exact s.execRaise_regular r _
  · exact ⟨rfl,rfl,rfl,by simp [runReady,roundSpawn],rfl,rfl,rfl,rfl,rfl⟩

theorem invokeRuntime_regular (cfg : Config) (r : RunId) (request : AgentExecutionRequest) :
    (s.invokeRuntime cfg r request).Regular s none := by
  unfold invokeRuntime invokeTeam
  dsimp only
  split
  · exact s.goto_regular _ rfl rfl
  split
  · split
    · exact s.execRaise_regular r _
    split
    · exact s.execRaise_regular r _
    · have h := s.runGraph_regular cfg r
      exact ⟨(h _).commit,(h _).publish,(h _).spawn,(h _).nextNode,(h _).register,(h _).contexts,(h _).forget,
        (h _).cancel,(h _).terminalLock⟩
  · exact s.execRaise_regular r _

end Sys

end AgentGraph.Manager
