import AgentGraph.Runtime.TeamRounds
import AgentGraph.Foundation.Transition
import Mathlib.Algebra.Order.Ring.Nat

/-! # The static scheduler of a team

`_run_graph` with its tasks, for children that all succeed in any order. A round has
one task for each ready node; a task computes its input, takes the semaphore and
calls `run_child`. The round ends when all its tasks have.
-/
set_option autoImplicit false
namespace AgentGraph
open Transition

/-- The arguments of one call of `run_child`. -/
structure ChildCall where
  parentRunId : RunId
  nodeId : String
  agentId : AgentId
  inputText : String
  context : DelegationContext
deriving DecidableEq

/-- The call `_run_node` prepares; `none` is a `KeyError`. -/
def TeamState.childCall (maximum : Nat) (T : TeamState) (node : TeamNode) : Option ChildCall :=
  (T.nodeInput maximum node).map fun text => ⟨T.execution.runId,node.id,node.agentId,text,T.childContext⟩

/-- How far the task of a node has come. -/
inductive Worker
  | created
  | queued (call : ChildCall)
  | calling (call : ChildCall)
  | done (output : String)

namespace Worker

def isCalling : Worker → Bool
  | calling _ => true
  | _ => false

/-- `run_child` has been called. -/
def called : Worker → Bool
  | calling _ | done _ => true
  | created | queued _ => false

def output? : Worker → Option String
  | done output => some output
  | _ => none

def call? : Worker → Option ChildCall
  | queued call | calling call => some call
  | _ => none

/-- The steps a task still has to take, the end of its round included. -/
def remaining : Worker → Nat
  | created => 4
  | queued _ => 3
  | calling _ => 2
  | done _ => 1

end Worker

inductive Progress
  | round (workers : List (TeamNode × Worker))
  | returned
  | raised (e : Exc)

structure Scheduler where
  team : TeamState
  progress : Progress
  permits : Nat
  calls : List ChildCall

inductive SchedulerLabel
  | begin (k : Nat)
  | acquire (k : Nat)
  | succeed (k : Nat) (output : String)
  | collect

namespace Scheduler

/-- The head of the loop of `_run_graph`. -/
def nextRound (T : TeamState) : Progress :=
  if T.pending.isEmpty then .returned
  else if T.ready.isEmpty then .raised (.orchestration "INVALID_TEAM_GRAPH" "Team graph has no schedulable worker")
  else .round (T.ready.map fun node => (node,.created))

/-- `[task.result() for task in tasks]`, each with its node. -/
def results (workers : List (TeamNode × Worker)) : List (TeamNode × String) :=
  workers.filterMap fun w => w.2.output?.map fun output => (w.1,output)

def start (maxParallel : Nat) (execution : AgentExecutionRequest) (context : DelegationContext)
    (graph : TeamGraph) : Scheduler :=
  let T := TeamState.start execution context graph
  ⟨T,nextRound T,maxParallel,[]⟩

def step (maximum : Nat) (l : SchedulerLabel) (s : Scheduler) : Option Scheduler :=
  match s.progress with
  | .returned | .raised _ => none
  | .round workers =>
    match l with
    | .begin k =>
      match workers[k]? with
      | some (node,.created) =>
        match s.team.childCall maximum node with
        | some call => some { s with progress := .round (workers.set k (node,.queued call)) }
        | none => some { s with progress := .raised (.orchestration "CHILD_FAILED" "A required worker failed") }
      | _ => none
    | .acquire k =>
      match workers[k]? with
      | some (node,.queued call) =>
        if s.permits = 0 then none
        else
          some
            { s with
              progress := .round (workers.set k (node,.calling call))
              permits := s.permits - 1
              calls := s.calls ++ [call] }
      | _ => none
    | .succeed k output =>
      match workers[k]? with
      | some (node,.calling _) =>
        some { s with progress := .round (workers.set k (node,.done output)), permits := s.permits + 1 }
      | _ => none
    | .collect =>
      if workers.all fun w => w.2.output?.isSome then
        let T := s.team.recordResults (results workers)
        some { s with team := T, progress := nextRound T }
      else none

/-- What the child of a task returns with a step, by its node. -/
def reply? (l : SchedulerLabel) (s : Scheduler) : Option (String × String) :=
  match l with
  | .succeed k output =>
    match s.progress with
    | .round workers =>
      match workers[k]? with
      | some (_,.calling call) => some (call.nodeId,output)
      | _ => none
    | _ => none
  | .begin _ | .acquire _ | .collect => none

/-- What the children return in an execution. -/
def replies (maximum : Nat) : List SchedulerLabel → Scheduler → List (String × String)
  | [], _ => []
  | l :: ls, s => (reply? l s).toList ++ (step maximum l s).elim [] (replies maximum ls)

/-- The calls of `run_child` in progress. -/
def inProgress (s : Scheduler) : Nat :=
  match s.progress with
  | .round workers => workers.countP fun w => w.2.isCalling
  | _ => 0

variable {maxParallel maximum : Nat} {s t : Scheduler} {l : SchedulerLabel} {ws : List (TeamNode × Worker)}

/-! ## One step -/

/-- What a step does to the workers of its round. -/
inductive Step (maximum : Nat) (l : SchedulerLabel) (s : Scheduler) : Scheduler → Prop
  | begin (hr : reply? l s = none) (before after : List (TeamNode × Worker)) (node : TeamNode) (call : ChildCall)
      (hs : s.progress = .round (before ++ (node,.created) :: after))
      (hc : s.team.childCall maximum node = some call) :
      Step maximum l s { s with progress := .round (before ++ (node,.queued call) :: after) }
  | keyError (hr : reply? l s = none) (before after : List (TeamNode × Worker)) (node : TeamNode)
      (hs : s.progress = .round (before ++ (node,.created) :: after))
      (hc : s.team.childCall maximum node = none) :
      Step maximum l s { s with progress := .raised (.orchestration "CHILD_FAILED" "A required worker failed") }
  | acquire (hr : reply? l s = none) (before after : List (TeamNode × Worker)) (node : TeamNode) (call : ChildCall)
      (hs : s.progress = .round (before ++ (node,.queued call) :: after)) (hp : s.permits ≠ 0) :
      Step maximum l s ⟨s.team,.round (before ++ (node,.calling call) :: after),s.permits - 1,s.calls ++ [call]⟩
  | succeed (before after : List (TeamNode × Worker)) (node : TeamNode) (call : ChildCall) (output : String)
      (hr : reply? l s = some (call.nodeId,output))
      (hs : s.progress = .round (before ++ (node,.calling call) :: after)) :
      Step maximum l s ⟨s.team,.round (before ++ (node,.done output) :: after),s.permits + 1,s.calls⟩
  | collect (hr : reply? l s = none) (workers : List (TeamNode × Worker)) (hs : s.progress = .round workers)
      (hd : ∀ w ∈ workers, w.2.output?.isSome = true) :
      Step maximum l s ⟨s.team.recordResults (results workers),nextRound (s.team.recordResults (results workers)),
        s.permits,s.calls⟩

theorem exists_split {α : Type} {xs : List α} {k : Nat} {x : α} (h : xs[k]? = some x) :
    ∃ before after, xs = before ++ x :: after ∧ ∀ y, xs.set k y = before ++ y :: after := by
  obtain ⟨hk,hx⟩ := List.getElem?_eq_some_iff.mp h
  refine ⟨xs.take k,xs.drop (k + 1),?_,fun y => List.set_eq_take_append_cons_drop.trans (if_pos hk)⟩
  rw [← hx, List.cons_getElem_drop_succ, List.take_append_drop]

theorem step_cases (h : step maximum l s = some t) : Step maximum l s t := by
  unfold step at h
  split at h
  · cases h
  · cases h
  next workers hs =>
    split at h
    next k =>
      split at h
      next node hk =>
        obtain ⟨before,after,rfl,hset⟩ := exists_split hk
        split at h
        next call hc => cases h; rw [hset]; exact .begin rfl before after node call hs hc
        next hc => cases h; exact .keyError rfl before after node hs hc
      next => cases h
    next k =>
      split at h
      next node call hk =>
        obtain ⟨before,after,rfl,hset⟩ := exists_split hk
        split at h
        · cases h
        next hp => cases h; rw [hset]; exact .acquire rfl before after node call hs hp
      next => cases h
    next k output =>
      split at h
      next node call hk =>
        obtain ⟨before,after,rfl,hset⟩ := exists_split hk
        cases h
        rw [hset]
        exact .succeed before after node call output (by simp [reply?,hs,hk]) hs
      next => cases h
    next =>
      split at h
      next hd => cases h; exact .collect rfl workers hs (by simpa using hd)
      next => cases h

/-- The tasks of the round in progress. -/
def workers (s : Scheduler) : List (TeamNode × Worker) :=
  match s.progress with
  | .round workers => workers
  | _ => []

/-! ## The invariant -/

structure Scheduling (maxParallel maximum : Nat) (s : Scheduler) : Prop where
  consistent : s.team.Consistent
  notRaised : ∀ e, s.progress ≠ .raised e
  returned : s.progress = .returned → s.team.pending = []
  busy : ∀ ws, s.progress = .round ws → ws ≠ []
  nodes : s.workers.map Prod.fst = s.team.ready
  prepared : ∀ w ∈ s.workers, ∀ call, w.2.call? = some call → s.team.childCall maximum w.1 = some call
  permits : s.permits + s.workers.countP (fun w => w.2.isCalling) = maxParallel
  nodup : (s.calls.map ChildCall.nodeId).Nodup
  calls : ∀ call ∈ s.calls, ∃ node ∈ s.team.graph.nodes, s.team.childCall maximum node = some call
  once : ∀ node ∈ s.team.graph.nodes, node.id ∈ s.calls.map ChildCall.nodeId ↔
    node ∉ s.team.pending ∨ ∃ w, (node,w) ∈ s.workers ∧ w.called = true

theorem workers_eq (h : s.progress = .round ws) : s.workers = ws := by
  unfold Scheduler.workers
  rw [h]

theorem childCall_nodeId {T : TeamState} {node : TeamNode} {call : ChildCall}
    (h : T.childCall maximum node = some call) : call.nodeId = node.id := by
  obtain ⟨text,_,rfl⟩ := Option.map_eq_some_iff.mp h
  rfl

/-- A prepared call does not change when results are recorded. -/
theorem childCall_recordResults {T : TeamState} {results : List (TeamNode × String)} {node : TeamNode}
    {call : ChildCall} (hc : T.Consistent) (hr : T.Results results) (h : T.childCall maximum node = some call) :
    (T.recordResults results).childCall maximum node = some call := by
  obtain ⟨text,htext,rfl⟩ := Option.map_eq_some_iff.mp h
  obtain ⟨outputs,hout,rfl⟩ := Option.map_eq_some_iff.mp htext
  have hsame : (T.recordResults results).predecessorOutputs node = some outputs := by
    rw [← hout]
    refine mapM_congr fun item hitem => ?_
    have hsome := isSome_mapM_iff.mp (Option.isSome_of_eq_some hout) item hitem
    rw [Option.isSome_map] at hsome
    obtain ⟨output,ho⟩ := Option.isSome_iff_exists.mp hsome
    rw [ho, hr.keeps hc ho]
  unfold TeamState.childCall TeamState.nodeInput
  rw [hsame]
  rfl

theorem results_nodes (h : ∀ w ∈ ws, w.2.output?.isSome = true) :
    (results ws).map Prod.fst = ws.map Prod.fst := by
  induction ws with
  | nil => rfl
  | cons w rest ih =>
    obtain ⟨output,ho⟩ := Option.isSome_iff_exists.mp (h w (by simp))
    have := ih fun v hv => h v (by simp [hv])
    simpa [results,ho] using this

theorem nextRound_workers (T : TeamState) (hc : T.Consistent) :
    (nextRound T = .returned ∧ T.pending = []) ∨
      (nextRound T = .round (T.ready.map fun node => (node,.created)) ∧ T.ready ≠ []) := by
  unfold nextRound
  by_cases hp : T.pending = []
  · exact .inl ⟨by simp [hp],hp⟩
  · have hr := hc.ready_ne_nil hp
    exact .inr ⟨by simp [hp,hr],hr⟩

/-- A new round starts with fresh tasks for the ready nodes. -/
theorem scheduling_nextRound {T : TeamState} {permits : Nat} {calls : List ChildCall} (hc : T.Consistent)
    (hp : permits = maxParallel) (hn : (calls.map ChildCall.nodeId).Nodup)
    (hcalls : ∀ call ∈ calls, ∃ node ∈ T.graph.nodes, T.childCall maximum node = some call)
    (honce : ∀ node ∈ T.graph.nodes, node.id ∈ calls.map ChildCall.nodeId ↔ node ∉ T.pending) :
    Scheduling maxParallel maximum ⟨T,nextRound T,permits,calls⟩ := by
  rcases nextRound_workers T hc with ⟨he,hnil⟩ | ⟨he,hr⟩
  · have hw : (⟨T,nextRound T,permits,calls⟩ : Scheduler).workers = [] := by simp [Scheduler.workers,he]
    refine ⟨hc,by simp [he],fun _ => hnil,by simp [he],?_,by simp [hw],by simpa [hw] using hp,hn,hcalls,fun node hnode => ?_⟩
    · rw [hw]
      exact (List.eq_nil_of_sublist_nil (hnil ▸ TeamState.ready_sublist)).symm
    · simpa [hw] using honce node hnode
  · have hw : (⟨T,nextRound T,permits,calls⟩ : Scheduler).workers = T.ready.map fun node => (node,.created) := by
      simp [Scheduler.workers,he]
    refine ⟨hc,by simp [he],by simp [he],by simp [he,hr],?_,?_,?_,hn,hcalls,fun node hnode => ?_⟩
    · rw [hw, List.map_map]
      exact List.map_id _
    · intro w hmem call hcall
      rw [hw] at hmem
      obtain ⟨node,_,rfl⟩ := List.mem_map.mp hmem
      cases hcall
    · rw [hw, List.countP_map, List.countP_eq_zero.mpr (by simp [Worker.isCalling])]
      exact hp
    · rw [hw]
      refine (honce node hnode).trans (or_iff_left ?_).symm
      rintro ⟨w,hmem,hcalled⟩
      obtain ⟨_,_,he⟩ := List.mem_map.mp hmem
      cases he
      cases hcalled

/-- The other tasks of a round belong to other nodes. -/
theorem other_nodes {before after : List (TeamNode × Worker)} {node : TeamNode} {x : Worker} {T : TeamState}
    (hc : T.Consistent) (h : (before ++ (node,x) :: after).map Prod.fst = T.ready) {w : Worker}
    (hw : (node,w) ∈ before ++ (node,x) :: after) : w = x := by
  have hn : ((before ++ (node,x) :: after).map Prod.fst).Nodup := h ▸ hc.ready_ids.of_map _
  have hx : (node,x) ∈ before ++ (node,x) :: after := List.mem_append_right _ (List.mem_cons_self ..)
  exact congrArg Prod.snd (List.inj_on_of_nodup_map hn hw hx rfl)

theorem exists_called {before after : List (TeamNode × Worker)} {node n : TeamNode} {x : Worker} :
    (∃ w, (n,w) ∈ before ++ (node,x) :: after ∧ w.called = true) ↔
      (∃ w, (n,w) ∈ before ++ after ∧ w.called = true) ∨ (n = node ∧ x.called = true) := by
  constructor
  · rintro ⟨w,hw,hc⟩
    rcases List.mem_append.mp hw with hw | hw
    · exact .inl ⟨w,List.mem_append_left _ hw,hc⟩
    · rcases List.mem_cons.mp hw with he | hw
      · cases he; exact .inr ⟨rfl,hc⟩
      · exact .inl ⟨w,List.mem_append_right _ hw,hc⟩
  · rintro (⟨w,hw,hc⟩ | ⟨rfl,hc⟩)
    · refine ⟨w,?_,hc⟩
      rcases List.mem_append.mp hw with hw | hw
      · exact List.mem_append_left _ hw
      · exact List.mem_append_right _ (List.mem_cons_of_mem _ hw)
    · exact ⟨x,by simp,hc⟩

/-- A task of the round moves on, without a call. -/
theorem Scheduling.replace {before after : List (TeamNode × Worker)} {node : TeamNode} {x y : Worker} {permits : Nat}
    (hi : Scheduling maxParallel maximum s) (hs : s.workers = before ++ (node,x) :: after)
    (hy : ∀ call, y.call? = some call → s.team.childCall maximum node = some call) (hxy : x.called = y.called)
    (hp : permits + (if y.isCalling then 1 else 0) = s.permits + if x.isCalling then 1 else 0) :
    Scheduling maxParallel maximum ⟨s.team,.round (before ++ (node,y) :: after),permits,s.calls⟩ := by
  have hnodes := hi.nodes
  rw [hs] at hnodes
  refine ⟨hi.consistent,by simp,by simp,by simp,?_,?_,?_,hi.nodup,hi.calls,fun n hn => ?_⟩
  · rw [← hnodes]
    simp [Scheduler.workers]
  · intro w hw call hcall
    rcases List.mem_append.mp hw with hw | hw
    · exact hi.prepared w (by simp [hs,hw]) call hcall
    · rcases List.mem_cons.mp hw with rfl | hw
      · exact hy call hcall
      · exact hi.prepared w (by simp [hs,hw]) call hcall
  · have hcount := hi.permits
    rw [hs, List.countP_append, List.countP_cons] at hcount
    dsimp only at hcount
    simp only [Scheduler.workers, List.countP_append, List.countP_cons]
    omega
  · rw [hi.once n hn, hs, exists_called]
    simp only [Scheduler.workers, exists_called, hxy]

theorem Scheduling.acquire {before after : List (TeamNode × Worker)} {node : TeamNode} {call : ChildCall}
    (hi : Scheduling maxParallel maximum s) (hs : s.workers = before ++ (node,.queued call) :: after)
    (hp : s.permits ≠ 0) :
    Scheduling maxParallel maximum
      ⟨s.team,.round (before ++ (node,.calling call) :: after),s.permits - 1,s.calls ++ [call]⟩ := by
  have hnodes := hi.nodes
  have hcall : s.team.childCall maximum node = some call := hi.prepared (node,.queued call) (by simp [hs]) call rfl
  have hid := childCall_nodeId hcall
  have hready : node ∈ s.team.ready := by
    rw [← hnodes, hs]
    simp
  have hpending := (TeamState.mem_ready.mp hready).1
  have hnode := hi.consistent.pending.subset hpending
  rw [hs] at hnodes
  have hnew : node.id ∉ s.calls.map ChildCall.nodeId := by
    rw [hi.once node hnode]
    rintro (hn | ⟨w,hw,hcalled⟩)
    · exact hn hpending
    · rw [hs] at hw
      cases other_nodes hi.consistent hnodes hw
      cases hcalled
  refine ⟨hi.consistent,by simp,by simp,by simp,?_,?_,?_,?_,?_,fun n hn => ?_⟩
  · rw [← hnodes]
    simp [Scheduler.workers]
  · intro w hw c hc
    rcases List.mem_append.mp hw with hw | hw
    · exact hi.prepared w (by simp [hs,hw]) c hc
    · rcases List.mem_cons.mp hw with rfl | hw
      · cases hc; exact hcall
      · exact hi.prepared w (by simp [hs,hw]) c hc
  · have hcount := hi.permits
    rw [hs, List.countP_append, List.countP_cons_of_neg (by simp [Worker.isCalling])] at hcount
    simp only [Scheduler.workers, List.countP_append]
    rw [List.countP_cons_of_pos (by simp [Worker.isCalling])]
    omega
  · rw [List.map_append, List.nodup_append]
    refine ⟨hi.nodup,by simp,fun a ha b hb he => ?_⟩
    obtain rfl : b = call.nodeId := by simpa using hb
    exact hnew (hid ▸ he ▸ ha)
  · intro c hc
    rcases List.mem_append.mp hc with hc | hc
    · exact hi.calls c hc
    · obtain rfl := List.mem_singleton.mp hc
      exact ⟨node,hnode,hcall⟩
  · rw [List.map_append, List.mem_append, hi.once n hn, hs, exists_called]
    simp only [Scheduler.workers, exists_called, List.map_cons, List.map_nil, List.mem_singleton, hid]
    simp only [Worker.called, Bool.false_eq_true, and_false, or_false, and_true]
    rw [or_assoc]
    refine or_congr_right (or_congr_right ⟨fun he => ?_,fun he => by rw [he]⟩)
    exact hi.consistent.node_eq hn hnode he

theorem Scheduling.collect (hi : Scheduling maxParallel maximum s) (hs : s.workers = ws)
    (hd : ∀ w ∈ ws, w.2.output?.isSome = true) :
    Scheduling maxParallel maximum ⟨s.team.recordResults (results ws),nextRound (s.team.recordResults (results ws)),
      s.permits,s.calls⟩ := by
  have hc := hi.consistent
  have hnodes := hi.nodes
  have honce := hi.once
  have hcount := hi.permits
  rw [hs] at hnodes honce hcount
  have hr : s.team.Results (results ws) := (results_nodes hd).trans hnodes
  have hdone : ∀ w ∈ ws, w.2.called = true ∧ w.2.isCalling = false := by
    intro w hw
    have := hd w hw
    cases h : w.2 <;> simp [h,Worker.output?,Worker.called,Worker.isCalling] at this ⊢
  refine scheduling_nextRound (hr.consistent hc) ?_ hi.nodup ?_ fun node hn => ?_
  · rw [List.countP_eq_zero.mpr (fun w hw => by simp [(hdone w hw).2])] at hcount
    exact hcount
  · intro call hcall
    obtain ⟨node,hn,he⟩ := hi.calls call hcall
    exact ⟨node,hn,childCall_recordResults hc hr he⟩
  · rw [honce node hn, TeamState.mem_recordResults_pending hc hr, not_and_not_right]
    constructor
    · rintro (hnp | ⟨w,hw,_⟩) hp
      · exact absurd hp hnp
      · rw [← hnodes]
        exact List.mem_map_of_mem hw
    · intro himp
      by_cases hp : node ∈ s.team.pending
      · have hmem := himp hp
        rw [← hnodes] at hmem
        obtain ⟨⟨_,w⟩,hw,rfl⟩ := List.mem_map.mp hmem
        exact .inr ⟨w,hw,(hdone _ hw).1⟩
      · exact .inl hp

/-- The input of every task of a round can be computed. -/
theorem Scheduling.childCall_isSome {node : TeamNode} {w : Worker} (hi : Scheduling maxParallel maximum s)
    (hw : (node,w) ∈ s.workers) : (s.team.childCall maximum node).isSome = true := by
  have hready : node ∈ s.team.ready := by
    rw [← hi.nodes]
    exact List.mem_map_of_mem hw
  have hsome := TeamState.predecessorOutputs_isSome (TeamState.mem_ready.mp hready).2
  simpa [TeamState.childCall,TeamState.nodeInput] using hsome

theorem step_scheduling (hi : Scheduling maxParallel maximum s) (h : step maximum l s = some t) :
    Scheduling maxParallel maximum t := by
  cases step_cases h with
  | begin hr before after node call hs hc =>
    exact hi.replace (workers_eq hs) (fun c hcall => by cases hcall; exact hc) rfl rfl
  | keyError hr before after node hs hc =>
    have hmem : (node,Worker.created) ∈ s.workers := by simp [workers_eq hs]
    have hsome := hi.childCall_isSome hmem
    rw [hc] at hsome
    cases hsome
  | acquire hr before after node call hs hp => exact hi.acquire (workers_eq hs) hp
  | succeed before after node call output hr hs =>
    exact hi.replace (workers_eq hs) (fun c hcall => by cases hcall) rfl rfl
  | collect hr ws hs hd => exact hi.collect (workers_eq hs) hd

theorem start_scheduling {execution : AgentExecutionRequest} {context : DelegationContext} {graph : TeamGraph}
    (h : graph.Valid) : Scheduling maxParallel maximum (start maxParallel execution context graph) :=
  scheduling_nextRound (TeamState.start_consistent h) rfl List.nodup_nil (by simp)
    fun node hn => by simpa [TeamState.start] using hn

/-! ## Termination and progress -/

/-- The steps left: four for each node that is not in the round, and those of the
tasks of the round. -/
def measure (s : Scheduler) : Nat :=
  match s.progress with
  | .round ws => 4 * (s.team.pending.length - ws.length) + (ws.map fun w => w.2.remaining).sum
  | _ => 0

theorem nextRound_measure {T : TeamState} {permits : Nat} {calls : List ChildCall} :
    measure ⟨T,nextRound T,permits,calls⟩ ≤ 4 * T.pending.length := by
  have hle : T.ready.length ≤ T.pending.length := TeamState.ready_sublist.length_le
  unfold measure nextRound
  by_cases hp : T.pending = []
  · simp [hp]
  by_cases hr : T.ready = []
  · simp [hp,hr]
  · simp only [List.isEmpty_iff, hp, hr, if_false, List.length_map, List.map_map]
    have hsum : (T.ready.map ((fun w : TeamNode × Worker => w.2.remaining) ∘ fun node => (node,.created))).sum =
        4 * T.ready.length := by
      simp [Function.comp_def,Worker.remaining,Nat.mul_comm]
    rw [hsum]
    omega

theorem sum_remaining (h : ∀ w ∈ ws, w.2.output?.isSome = true) :
    (ws.map fun w => w.2.remaining).sum = ws.length := by
  induction ws with
  | nil => rfl
  | cons w rest ih =>
    have hw := h w (by simp)
    rw [List.map_cons, List.sum_cons, ih fun v hv => h v (by simp [hv]), List.length_cons]
    cases hx : w.2 <;> simp [hx,Worker.output?,Worker.remaining] at hw ⊢
    omega

theorem step_measure (hi : Scheduling maxParallel maximum s) (h : step maximum l s = some t) :
    measure t < measure s := by
  cases step_cases h with
  | begin hr before after node call hs hc => simp [measure,hs,Worker.remaining]
  | acquire hr before after node call hs hp => simp [measure,hs,Worker.remaining]
  | succeed before after node call output hr hs => simp [measure,hs,Worker.remaining]
  | keyError hr before after node hs hc =>
    have hmem : (node,Worker.created) ∈ s.workers := by simp [workers_eq hs]
    have hsome := hi.childCall_isSome hmem
    rw [hc] at hsome
    cases hsome
  | collect hr ws hs hd =>
    have hnodes := hi.nodes
    rw [workers_eq hs] at hnodes
    have hlen := TeamState.Results.pending_length hi.consistent ((results_nodes hd).trans hnodes)
    have hready : s.team.ready.length = ws.length := by rw [← hnodes, List.length_map]
    have hpos := List.length_pos_iff.mpr (hi.busy ws hs)
    refine Nat.lt_of_le_of_lt nextRound_measure ?_
    simp only [measure, hs, sum_remaining hd]
    omega

/-- As long as the loop has not returned, some task can go on or the round can end. -/
theorem exists_step (hi : Scheduling maxParallel maximum s) (hp : 0 < maxParallel) (hs : s.progress ≠ .returned) :
    ∃ l, (step maximum l s).isSome = true := by
  cases hprog : s.progress with
  | returned => exact absurd hprog hs
  | raised e => exact absurd hprog (hi.notRaised e)
  | round ws =>
    have hw := workers_eq hprog
    have hat : ∀ x ∈ ws, ∃ k, ws[k]? = some x := fun x hx => List.mem_iff_getElem?.mp hx
    by_cases hd : ∀ w ∈ ws, w.2.output?.isSome = true
    · exact ⟨.collect,by simpa [step,hprog] using hd⟩
    push Not at hd
    obtain ⟨⟨node,w⟩,hmem,hnd⟩ := hd
    obtain ⟨k,hk⟩ := hat _ hmem
    cases w with
    | created =>
      obtain ⟨call,hc⟩ := Option.isSome_iff_exists.mp (hi.childCall_isSome (hw ▸ hmem))
      exact ⟨.begin k,by simp [step,hprog,hk,hc]⟩
    | calling call => exact ⟨.succeed k "",by simp [step,hprog,hk]⟩
    | done output => simp [Worker.output?] at hnd
    | queued call =>
      by_cases hzero : s.permits = 0
      · have hcount := hi.permits
        rw [hzero, hw, Nat.zero_add] at hcount
        obtain ⟨⟨other,v⟩,hv,hcalling⟩ := List.countP_pos_iff.mp (hcount ▸ hp)
        obtain ⟨k,hk⟩ := hat _ hv
        cases v <;> cases hcalling
        exact ⟨.succeed k "",by simp [step,hprog,hk]⟩
      · exact ⟨.acquire k,by simp [step,hprog,hk,hzero]⟩

/-! ## The loop -/

/-- A call of `run_child` for a node whose predecessors all have a recorded output,
with exactly these outputs in its input. -/
def FromRecorded (maximum : Nat) (T : TeamState) (call : ChildCall) : Prop :=
  ∃ node ∈ T.graph.nodes, ∃ results, T.predecessorOutputs node = some results ∧
    call = ⟨T.execution.runId,node.id,node.agentId,
      workerInput T.execution.inputText node.instructions results maximum,T.childContext⟩

/-- A finished loop has called `run_child` once for each node, every node has an
output and the synthesis finds those it needs. -/
structure Finished (s : Scheduler) : Prop where
  calls : (s.calls.map ChildCall.nodeId).Perm (s.team.graph.nodes.map TeamNode.id)
  outputs : ∀ node ∈ s.team.graph.nodes, (s.team.outputs.lookup node.id).isSome = true
  synthesis : ∀ maximum, (s.team.synthesisInput maximum).isSome = true

theorem Scheduling.fromRecorded (hi : Scheduling maxParallel maximum s) {call : ChildCall} (hc : call ∈ s.calls) :
    FromRecorded maximum s.team call := by
  obtain ⟨node,hn,hcall⟩ := hi.calls call hc
  obtain ⟨text,htext,rfl⟩ := Option.map_eq_some_iff.mp hcall
  obtain ⟨results,hres,rfl⟩ := Option.map_eq_some_iff.mp htext
  exact ⟨node,hn,results,hres,rfl⟩

theorem Scheduling.inProgress_le (hi : Scheduling maxParallel maximum s) : s.inProgress ≤ maxParallel := by
  have h := hi.permits
  unfold inProgress
  cases hs : s.progress with
  | round ws => rw [workers_eq hs] at h; dsimp only; omega
  | returned => exact Nat.zero_le _
  | raised e => exact Nat.zero_le _

theorem Scheduling.finished (hi : Scheduling maxParallel maximum s) (hs : s.progress = .returned) : Finished s := by
  have hc := hi.consistent
  have hp := hi.returned hs
  refine ⟨(List.perm_ext_iff_of_nodup hi.nodup hc.valid.idsNodup).mpr fun key => ⟨fun hk => ?_,fun hk => ?_⟩,
    fun node hn => (hc.outputs node hn).mpr (by simp [hp]),hc.synthesisInput_isSome hp⟩
  · obtain ⟨call,hcall,rfl⟩ := List.mem_map.mp hk
    obtain ⟨node,hn,he⟩ := hi.calls call hcall
    rw [childCall_nodeId he]
    exact List.mem_map_of_mem hn
  · obtain ⟨node,hn,rfl⟩ := List.mem_map.mp hk
    exact (hi.once node hn).mpr (.inl (by simp [hp]))

/-! ## What the children return -/

/-- The outputs are what the children have returned, for the nodes of the round in their tasks. -/
structure Replied (told : List (String × String)) (s : Scheduler) : Prop where
  recorded : ∀ id output, s.team.outputs.lookup id = some output → (id,output) ∈ told
  done : ∀ node output, (node,.done output) ∈ s.workers → (node.id,output) ∈ told
  known : ∀ id output, (id,output) ∈ told →
    s.team.outputs.lookup id = some output ∨ ∃ node, (node,.done output) ∈ s.workers ∧ node.id = id

theorem mem_results {node : TeamNode} {output : String} : (node,output) ∈ results ws ↔ (node,.done output) ∈ ws := by
  rw [results, List.mem_filterMap]
  constructor
  · rintro ⟨⟨node',w⟩,hmem,he⟩
    obtain ⟨output',hdone,heq⟩ := Option.map_eq_some_iff.mp he
    cases heq
    cases w with
    | done => cases hdone; exact hmem
    | created | queued | calling => cases hdone
  · intro hmem
    exact ⟨(node,.done output),hmem,rfl⟩

theorem nextRound_done {T : TeamState} {permits : Nat} {calls : List ChildCall} {node : TeamNode} {output : String} :
    (node,.done output) ∉ Scheduler.workers ⟨T,nextRound T,permits,calls⟩ := by
  unfold Scheduler.workers nextRound
  split
  next ws hround =>
    split at hround
    · cases hround
    · split at hround
      · cases hround
      · cases hround
        simp
  · simp

/-- A task moves on, and may be done. -/
theorem Replied.replace {before after : List (TeamNode × Worker)} {node : TeamNode} {x : Worker} {permits : Nat}
    {calls : List ChildCall} {told : List (String × String)} (hi : Replied told s) (hs : s.workers = before ++ (node,x) :: after)
    (hx : x.output? = none) (y : Worker) :
    Replied (told ++ (y.output?.map fun output => (node.id,output)).toList)
      ⟨s.team,.round (before ++ (node,y) :: after),permits,calls⟩ := by
  have hother : ∀ n output, (n,Worker.done output) ∈ before ++ after ↔ (n,.done output) ∈ s.workers := by
    intro n output
    rw [hs]
    simp only [List.mem_append, List.mem_cons]
    constructor
    · rintro (h | h)
      · exact .inl h
      · exact .inr (.inr h)
    · rintro (h | h | h)
      · exact .inl h
      · cases h
        cases hx
      · exact .inr h
  have hmem : ∀ n output, (n,Worker.done output) ∈ before ++ (node,y) :: after ↔
      (n,.done output) ∈ s.workers ∨ n = node ∧ y = .done output := by
    intro n output
    rw [← hother]
    simp only [List.mem_append, List.mem_cons, Prod.mk.injEq]
    tauto
  constructor
  · intro id output h
    exact List.mem_append_left _ (hi.recorded id output h)
  · intro n output h
    rcases (hmem n output).mp h with hold | ⟨rfl,rfl⟩
    · exact List.mem_append_left _ (hi.done n output hold)
    · exact List.mem_append_right _ (by simp [Worker.output?])
  · intro id output h
    rcases List.mem_append.mp h with hold | hnew
    · refine (hi.known id output hold).imp_right ?_
      rintro ⟨n,hn,rfl⟩
      exact ⟨n,(hmem n output).mpr (.inl hn),rfl⟩
    · obtain ⟨own,hown,he⟩ := Option.map_eq_some_iff.mp (Option.mem_toList.mp hnew)
      cases he
      have hy : y = .done output := by
        cases y with
        | done => cases hown; rfl
        | created | queued | calling => cases hown
      exact .inr ⟨node,(hmem node output).mpr (.inr ⟨rfl,hy⟩),rfl⟩

theorem Replied.collect {told : List (String × String)} (hi : Replied told s) (hsched : Scheduling maxParallel maximum s)
    (hs : s.workers = ws) (hd : ∀ w ∈ ws, w.2.output?.isSome = true) :
    Replied told ⟨s.team.recordResults (results ws),nextRound (s.team.recordResults (results ws)),s.permits,s.calls⟩ := by
  have hc := hsched.consistent
  have hr : s.team.Results (results ws) := (results_nodes hd).trans (hs ▸ hsched.nodes)
  constructor
  · intro id output h
    rw [TeamState.recordResults_outputs, Option.or_eq_some_iff] at h
    rcases h with hnew | ⟨-,hold⟩
    · obtain ⟨node,hmem,rfl⟩ := (hr.lookup hc).mp hnew
      exact hi.done node output (hs ▸ mem_results.mp hmem)
    · exact hi.recorded id output hold
  · intro node output h
    exact absurd h nextRound_done
  · intro id output h
    refine .inl ?_
    rcases hi.known id output h with hold | ⟨node,hmem,rfl⟩
    · exact hr.keeps hc hold
    · rw [TeamState.recordResults_outputs, (hr.lookup hc).mpr ⟨node,mem_results.mpr (hs ▸ hmem),rfl⟩]
      rfl

theorem step_replied {told : List (String × String)} (hi : Replied told s) (hsched : Scheduling maxParallel maximum s)
    (h : step maximum l s = some t) : Replied (told ++ (reply? l s).toList) t := by
  cases step_cases h with
  | begin hr before after node call hs hc =>
    rw [hr]
    exact hi.replace (workers_eq hs) rfl (.queued call)
  | keyError hr before after node hs hc =>
    have hworker : (node,.created) ∈ s.workers := by simp [workers_eq hs]
    have hsome := hsched.childCall_isSome hworker
    rw [hc] at hsome
    cases hsome
  | acquire hr before after node call hs hp =>
    rw [hr]
    exact hi.replace (workers_eq hs) rfl (.calling call)
  | succeed before after node call output hr hs =>
    have hcall : s.team.childCall maximum node = some call := hsched.prepared (node,.calling call) (by simp [workers_eq hs]) call rfl
    rw [hr, childCall_nodeId hcall]
    exact hi.replace (workers_eq hs) rfl (.done output)
  | collect hr ws hs hd =>
    rw [hr, Option.toList_none, List.append_nil]
    exact hi.collect hsched (workers_eq hs) hd

theorem replies_snoc {ls : List SchedulerLabel} (h : exec (step maximum) ls s = some t) :
    replies maximum (ls ++ [l]) s = replies maximum ls s ++ (reply? l t).toList := by
  induction ls generalizing s with
  | nil =>
    cases h
    cases hstep : step maximum l t <;> simp [replies,hstep]
  | cons first ls ih =>
    obtain ⟨u,hu,hrest⟩ := Option.bind_eq_some_iff.mp h
    simp only [List.cons_append, replies, hu, Option.elim_some, ih hrest, List.append_assoc]

theorem replies_replied {ls : List SchedulerLabel} {s₀ : Scheduler} (h₀ : Scheduling maxParallel maximum s₀)
    (hstart : Replied [] s₀) (h : exec (step maximum) ls s₀ = some s) :
    Scheduling maxParallel maximum s ∧ Replied (replies maximum ls s₀) s := by
  refine exec_induction (P := fun ls t => Scheduling maxParallel maximum t ∧ Replied (replies maximum ls s₀) t) ⟨h₀,hstart⟩
    (fun ls l t u hls ih hstep => ?_) h
  rw [replies_snoc hls]
  exact ⟨step_scheduling ih.1 hstep,step_replied ih.2 ih.1 hstep⟩

theorem start_replied {execution : AgentExecutionRequest} {context : DelegationContext} {graph : TeamGraph} :
    Replied [] (start maxParallel execution context graph) where
  recorded _ _ h := by cases h
  done _ _ h := absurd h nextRound_done
  known _ _ h := by cases h

/-- The team that is executed never changes. -/
theorem step_team (h : step maximum l s = some t) :
    t.team.graph = s.team.graph ∧ t.team.execution = s.team.execution ∧ t.team.context = s.team.context := by
  cases step_cases h <;> exact ⟨rfl,rfl,rfl⟩

def rawNode (nodeId agentText : String) : Json :=
  .obj [("id",.str nodeId),("type",.str "agent-ref"),("label",.str nodeId),("agent_id",.str agentText)]

def rawEdge (edgeId source target : String) : Json :=
  .obj [("id",.str edgeId),("source",.str source),("target",.str target)]

/-- A diamond as it is stored. -/
def diamond : JsonObject :=
  [("version",.int 2),("runtime",.str "team-v1"),
    ("nodes",.arr [rawNode "a" "x",rawNode "b" "xx",rawNode "c" "xxx",rawNode "d" "xxxx"]),
    ("edges",.arr [rawEdge "1" "a" "b",rawEdge "2" "a" "c",rawEdge "3" "b" "d",rawEdge "4" "c" "d"])]

def diamondGraph : TeamGraph :=
  ⟨[⟨"a","a",1,none⟩,⟨"b","b",2,none⟩,⟨"c","c",3,none⟩,⟨"d","d",4,none⟩],
    [⟨"1","a","b"⟩,⟨"2","a","c"⟩,⟨"3","b","d"⟩,⟨"4","c","d"⟩]⟩

theorem diamond_accepted : parseTeamGraph (fun text => some text.length) 4 diamond = .ok diamondGraph := by
  rfl

def diamondRequest : AgentExecutionRequest := ⟨0,0,"hello","model-a",diamond,none⟩

/-- The two nodes in the middle succeed in reverse order. -/
def diamondLabels : List SchedulerLabel :=
  [.begin 0,.acquire 0,.succeed 0 "A",.collect,.begin 0,.begin 1,.acquire 1,.acquire 0,.succeed 1 "C",.succeed 0 "B",
    .collect,.begin 0,.acquire 0,.succeed 0 "D",.collect]

def diamondEnd : Scheduler :=
  after (step 24000) diamondLabels (start 2 diamondRequest diamondRequest.context diamondGraph) (by decide)

end Scheduler

end AgentGraph
