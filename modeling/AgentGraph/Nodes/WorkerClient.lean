import AgentGraph.Foundation.Entries
import AgentGraph.Foundation.Window
import AgentGraph.Nodes.Messages

/-! # `WorkerClient._execute`

A worker answers a request from its `OrderedDict` of completed tasks, or computes a result
and remembers it in place of the oldest one. Each request comes with the resources that the
worker would measure while it answers.
-/
set_option autoImplicit false
namespace AgentGraph.Nodes
open Document

/-- The `result` of a `TaskResult`, whatever the resources are written as. -/
def probeReport (lax : Lax) (n : NodeId) (resources : Protocol.ResourceSnapshot) : JsonObject :=
  [("node_id",.str n),("protocol_version",.int 1),("resources",(Protocol.resourceCodec lax).dump resources)]

namespace Protocol

theorem Identifier.bounds (text : Identifier) : 8 ≤ text.val.length ∧ text.val.length ≤ 100 := by
  have h := text.property
  simp only [isIdentifier, Bool.and_eq_true, decide_eq_true_eq] at h
  exact h.1

def Identifier.bounded (text : Identifier) : BoundedText 8 100 := ⟨text.val,text.bounds⟩

/-- The only value of its literal. -/
def TaskRequest.operation (_ : TaskRequest) : String := "system.probe"

end Protocol

open Protocol

structure WorkerClient where
  nodeId : Identifier
  maxTasks : Nat
  completed : List (TaskId × TaskResult)

/-- A request with the resources of its moment. -/
abbrev Work := TaskRequest × ResourceSnapshot

namespace WorkerClient
variable (lax : Lax)

/-- A worker that has just started. -/
def fresh (nodeId : Identifier) (maxTasks : Nat) : WorkerClient := ⟨nodeId,maxTasks,[]⟩

/-- The `TaskResult` of a request that is not answered from memory. -/
def compute (client : WorkerClient) (work : Work) : TaskResult :=
  ⟨work.1.taskId.bounded,probeReport lax client.nodeId.val work.2⟩

/-- `self._completed[task_id] = result`, `move_to_end` and the loop of `popitem(last=False)`. -/
def remember (client : WorkerClient) (id : TaskId) (result : TaskResult) : WorkerClient :=
  { client with
    completed := (client.completed.filter (fun entry => entry.1 != id) ++ [(id,result)]).rtake client.maxTasks }

def unsupported (request : TaskRequest) : TaskError :=
  ⟨request.taskId.bounded,⟨"UNSUPPORTED_OPERATION",by decide⟩,⟨"Operation is not permitted",by decide⟩⟩

/-- `_execute`. -/
def execute (client : WorkerClient) (work : Work) : (TaskResult ⊕ TaskError) × WorkerClient :=
  match client.completed.lookup work.1.taskId.val with
  | some result => (.inl result,client)
  | none =>
    if work.1.operation ≠ "system.probe" then (.inr (unsupported work.1),client)
    else (.inl (client.compute lax work),client.remember work.1.taskId.val (client.compute lax work))

/-- What the request makes the worker compute. -/
def computes (client : WorkerClient) (work : Work) : List (TaskId × TaskResult) :=
  if (client.completed.lookup work.1.taskId.val).isSome then [] else [(work.1.taskId.val,client.compute lax work)]

/-! ## One request after another -/

def serve (client : WorkerClient) : List Work → WorkerClient
  | [] => client
  | work :: rest => (client.execute lax work).2.serve rest

/-- All that was computed, oldest first. -/
def log (client : WorkerClient) : List Work → List (TaskId × TaskResult)
  | [] => []
  | work :: rest => client.computes lax work ++ (client.execute lax work).2.log rest

variable {client : WorkerClient} {work : Work} {id : TaskId} {result : TaskResult}

theorem execute_hit (h : client.completed.lookup work.1.taskId.val = some result) :
    client.execute lax work = (.inl result,client) ∧ client.computes lax work = [] := by
  simp [execute, computes, h]

theorem execute_miss (h : client.completed.lookup work.1.taskId.val = none) :
    client.execute lax work = (.inl (client.compute lax work),client.remember work.1.taskId.val (client.compute lax work)) ∧
      client.computes lax work = [(work.1.taskId.val,client.compute lax work)] := by
  simp [execute, computes, h, TaskRequest.operation]

theorem log_append (works works' : List Work) :
    client.log lax (works ++ works') = client.log lax works ++ (client.serve lax works).log lax works' := by
  induction works generalizing client with
  | nil => rfl
  | cons work rest ih => simp only [List.cons_append, log, serve, ih, List.append_assoc]

/-- The latest entry of the log for a task. -/
def latest (log : List (TaskId × TaskResult)) (id : TaskId) : Option TaskResult := log.reverse.lookup id

/-- What the worker remembers of what it has computed. -/
structure Remembers (client : WorkerClient) (log : List (TaskId × TaskResult)) : Prop where
  completed : client.completed = log.rtake client.maxTasks
  distinct : (client.completed.map Prod.fst).Nodup
  spaced : Window.Spaced client.maxTasks (log.map Prod.fst)

theorem map_rtake {α β : Type} (f : α → β) (xs : List α) (c : Nat) : (xs.rtake c).map f = (xs.map f).rtake c := by
  simp [List.rtake, List.map_drop]

/-- A remembered task is the latest of its id. -/
theorem latest_of_lookup {log : List (TaskId × TaskResult)} (h : client.Remembers log)
    (hfound : client.completed.lookup id = some result) : latest log id = some result := by
  have hsplit : log = log.take (log.length - client.maxTasks) ++ client.completed := by
    rw [h.completed, List.rtake, List.take_append_drop]
  have hreverse : client.completed.reverse.lookup id = some result := by
    rw [Entries.lookup_eq_some_iff (by simpa using List.nodup_reverse.mpr h.distinct), List.mem_reverse,
      ← Entries.lookup_eq_some_iff h.distinct]
    exact hfound
  rw [latest, hsplit, List.reverse_append, List.lookup_append, hreverse, Option.some_or]

theorem remembers_fresh (nodeId : Identifier) (maxTasks : Nat) : (fresh nodeId maxTasks).Remembers [] where
  completed := by simp [fresh, List.rtake]
  distinct := List.nodup_nil
  spaced := Window.spaced_nil maxTasks

/-- One request keeps the memory in step with the log. -/
theorem Remembers.execute {log : List (TaskId × TaskResult)} (h : client.Remembers log) (work : Work) :
    (client.execute lax work).2.Remembers (log ++ client.computes lax work) ∧
      (client.execute lax work).2.maxTasks = client.maxTasks ∧ (client.execute lax work).2.nodeId = client.nodeId := by
  cases hfound : client.completed.lookup work.1.taskId.val with
  | some result =>
    obtain ⟨hexecute,hcomputes⟩ := execute_hit lax hfound
    rw [hexecute, hcomputes, List.append_nil]
    exact ⟨h,rfl,rfl⟩
  | none =>
    obtain ⟨hexecute,hcomputes⟩ := execute_miss lax hfound
    have hnot : work.1.taskId.val ∉ client.completed.map Prod.fst := by
      intro hmem
      obtain ⟨entry,hentry,heq⟩ := List.mem_map.mp hmem
      have hne := List.lookup_eq_none_iff.mp hfound entry hentry
      simp [heq] at hne
    have hfilter : client.completed.filter (fun entry => entry.1 != work.1.taskId.val) = client.completed := by
      rw [List.filter_eq_self]
      intro entry hentry
      have hne : entry.1 ≠ work.1.taskId.val := fun heq => hnot (heq ▸ List.mem_map_of_mem hentry)
      simpa using hne
    have hcompleted : (client.remember work.1.taskId.val (client.compute lax work)).completed =
        (log ++ [(work.1.taskId.val,client.compute lax work)]).rtake client.maxTasks := by
      simp only [remember, hfilter]
      rw [h.completed, Window.rtake_push]
    have hsuffix : ((client.remember work.1.taskId.val (client.compute lax work)).completed.map Prod.fst).Nodup := by
      simp only [remember, hfilter, map_rtake, List.map_append, List.map_cons, List.map_nil]
      apply List.Nodup.sublist (List.drop_sublist _ _)
      rw [List.nodup_append']
      refine ⟨h.distinct,List.nodup_singleton _,fun id hid hlast => ?_⟩
      cases List.mem_singleton.mp hlast
      exact hnot hid
    rw [hexecute, hcomputes]
    refine ⟨⟨hcompleted,hsuffix,?_⟩,rfl,rfl⟩
    rw [List.map_append]
    apply h.spaced.push
    rw [← map_rtake, ← h.completed]
    exact hnot

theorem Remembers.serve {log : List (TaskId × TaskResult)} (h : client.Remembers log) (works : List Work) :
    (client.serve lax works).Remembers (log ++ client.log lax works) ∧
      (client.serve lax works).maxTasks = client.maxTasks ∧ (client.serve lax works).nodeId = client.nodeId := by
  induction works generalizing client log with
  | nil =>
    rw [WorkerClient.log, List.append_nil]
    exact ⟨h,rfl,rfl⟩
  | cons work rest ih =>
    obtain ⟨hstep,hmax,hnode⟩ := h.execute lax work
    obtain ⟨hrest,hmax',hnode'⟩ := ih hstep
    rw [WorkerClient.log, ← List.append_assoc]
    exact ⟨hrest,hmax'.trans hmax,hnode'.trans hnode⟩

/-- The answer is the latest result for the task, which was computed now or is remembered. -/
theorem Remembers.answer {log : List (TaskId × TaskResult)} (h : client.Remembers log) (work : Work) :
    ∃ result, (client.execute lax work).1 = .inl result ∧
      latest (log ++ client.computes lax work) work.1.taskId.val = some result := by
  cases hfound : client.completed.lookup work.1.taskId.val with
  | some result =>
    obtain ⟨hexecute,hcomputes⟩ := execute_hit lax hfound
    refine ⟨result,by rw [hexecute],?_⟩
    rw [hcomputes, List.append_nil]
    exact latest_of_lookup h hfound
  | none =>
    obtain ⟨hexecute,hcomputes⟩ := execute_miss lax hfound
    refine ⟨client.compute lax work,by rw [hexecute],?_⟩
    rw [hcomputes]
    simp [latest]

/-- Whatever requests a worker gets, it never answers with an error, a task is computed again
only after `worker_max_tasks` others, and every answer is the latest result for its task. -/
theorem answers_latest (nodeId : Identifier) (maxTasks : Nat) (works : List Work) (work : Work) :
    ∃ result, (((fresh nodeId maxTasks).serve lax works).execute lax work).1 = .inl result ∧
      latest ((fresh nodeId maxTasks).log lax (works ++ [work])) work.1.taskId.val = some result ∧
      Window.Spaced maxTasks (((fresh nodeId maxTasks).log lax (works ++ [work])).map Prod.fst) ∧
      ((fresh nodeId maxTasks).serve lax (works ++ [work])).completed.length ≤ maxTasks := by
  obtain ⟨hbefore,-,-⟩ := (remembers_fresh nodeId maxTasks).serve lax works
  obtain ⟨hafter,hmax,-⟩ := (remembers_fresh nodeId maxTasks).serve lax (works ++ [work])
  obtain ⟨result,hanswer,hlatest⟩ := hbefore.answer lax work
  refine ⟨result,hanswer,?_,?_,?_⟩
  · rw [log_append]
    simpa [log] using hlatest
  · have hspaced := hafter.spaced
    rw [hmax] at hspaced
    simpa [fresh] using hspaced
  · rw [hafter.completed, hmax]
    simp [List.rtake, fresh]
    omega

end WorkerClient

end AgentGraph.Nodes
