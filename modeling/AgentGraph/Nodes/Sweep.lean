import AgentGraph.Nodes.Probes
import Mathlib.Data.List.Nodup

/-! # The stale sweep, one call after another

`mark_stale_offline` writes the rows it finds stale and then disconnects each of them,
which writes and publishes again. Here nothing else runs during a call, so a call is a
function of the service; the steps of its task compute it.
-/
set_option autoImplicit false
namespace AgentGraph.Nodes
open Transition

namespace NodeService

/-- `_set_status_if_enabled(node_id, NodeStatus.OFFLINE)`. -/
def offlineIfEnabled (s : NodeService) (n : NodeId) : NodeService :=
  match s.records.get n with
  | none => s
  | some record => if !record.enabled then s else (s.update n (record.setStatus .offline)).note (.offline n)

/-- `disconnect`. -/
def disconnectNode (s : NodeService) (n : NodeId) : NodeService :=
  (s.popConnection n (.disconnected "Worker disconnected")).offlineIfEnabled n

/-- One turn of the loop over the stale rows. -/
def sweepNode (s : NodeService) (n : NodeId) : NodeService := (s.disconnectNode n).note (.offline n)

def staleRows (settings : Settings) (s : NodeService) (now : Instant) : List NodeRecord :=
  s.records.filter (NodeRecord.stale (now - settings.heartbeatTimeout))

def staleIds (settings : Settings) (s : NodeService) (now : Instant) : List NodeId :=
  (s.staleRows settings now).map NodeRecord.id

/-- `mark_stale_offline`, which is all that `list` and `get` do to the service. -/
def sweep (settings : Settings) (s : NodeService) (now : Instant) : NodeService :=
  (s.staleIds settings now).foldl sweepNode (s.markOffline (s.staleRows settings now))

/-- Calls one after another. -/
def sweeps (settings : Settings) (s : NodeService) (nows : List Instant) : NodeService := nows.foldl (sweep settings) s

/-- The node's status goes from another value to OFFLINE. -/
def wentOffline (s t : NodeService) (n : NodeId) : Bool :=
  (s.records.get n).any (fun record => record.status != .offline) &&
    (t.records.get n).any fun record => record.status == .offline

/-- One NODE_OFFLINE for each node that goes offline between the two states, and none otherwise. -/
def Reports (s t : NodeService) : Prop :=
  ∀ n, t.events.count (.offline n) = s.events.count (.offline n) + if wentOffline s t n then 1 else 0

/-- No record, session or pending probe has changed. -/
structure SameRows (s t : NodeService) : Prop where
  records : t.records = s.records
  connections : t.connections = s.connections
  sessions : t.sessions = s.sessions
  futures : t.futures = s.futures

/-! ## A call on the service as it runs -/

section Tasks
variable {settings : Settings} {s : NodeService}

/-- The same service with other tasks. -/
def withTasks (s : NodeService) (tasks : TaskRef → Option Task) (count : Nat) : NodeService :=
  { s with tasks := tasks, taskCount := count }

variable {tasks : TaskRef → Option Task} {count : Nat}

theorem withTasks_popConnection (n : NodeId) (e : NodeError) :
    (s.withTasks tasks count).popConnection n e = (s.popConnection n e).withTasks tasks count := by
  simp only [popConnection, withTasks]
  split <;> rfl

theorem withTasks_offlineIfEnabled (n : NodeId) :
    (s.withTasks tasks count).offlineIfEnabled n = (s.offlineIfEnabled n).withTasks tasks count := by
  simp only [offlineIfEnabled, withTasks]
  split
  · rfl
  · split <;> rfl

theorem withTasks_sweepNode (n : NodeId) :
    (s.withTasks tasks count).sweepNode n = (s.sweepNode n).withTasks tasks count := by
  simp only [sweepNode, disconnectNode, withTasks_popConnection, withTasks_offlineIfEnabled]
  rfl

theorem withTasks_sweep (now : Instant) :
    (s.withTasks tasks count).sweep settings now = (s.sweep settings now).withTasks tasks count := by
  have hfold (ids : List NodeId) (u : NodeService) :
      ids.foldl sweepNode (u.withTasks tasks count) = (ids.foldl sweepNode u).withTasks tasks count := by
    induction ids generalizing u with
    | nil => rfl
    | cons n ids ih => rw [List.foldl_cons,withTasks_sweepNode,ih,List.foldl_cons]
  exact hfold _ (s.markOffline (s.staleRows settings now))

/-- Only the task runs. -/
def OnlyRuns (i : TaskRef) (l : Label) (_ : NodeService) : Prop := ∃ now fresh, l = .run i now fresh

theorem spawn_goto (pc pc' : Pc) : (s.spawn pc).goto s.taskCount pc' = s.spawn pc' := by
  simp [spawn,goto,updateTask]

/-- The last task runs to its next await. -/
theorem spawn_runs {pc : Pc} {t : NodeService} (h : (s.spawn pc).resume settings s.taskCount 0 "" pc = some t) :
    Reaches (step settings) (OnlyRuns s.taskCount) (s.spawn pc) t := by
  refine .single ⟨.run s.taskCount 0 "",⟨0,"",rfl⟩,?_⟩
  have hpc : (s.spawn pc).pc? s.taskCount = some pc := by simp [pc?,spawn]
  simp only [step, hpc, h]

theorem popConnection_lock (n : NodeId) (e : NodeError) :
    (s.popConnection n e).databaseLock = s.databaseLock ∧ (s.popConnection n e).taskCount = s.taskCount :=
  ⟨(popConnection_frame s n e).2.2.1,(popConnection_frame s n e).2.1⟩

theorem offlineIfEnabled_lock (n : NodeId) :
    (s.offlineIfEnabled n).databaseLock = s.databaseLock ∧ (s.offlineIfEnabled n).taskCount = s.taskCount := by
  unfold offlineIfEnabled
  split
  · exact ⟨rfl,rfl⟩
  · split <;> exact ⟨rfl,rfl⟩

theorem sweepNode_lock (n : NodeId) :
    (s.sweepNode n).databaseLock = s.databaseLock ∧ (s.sweepNode n).taskCount = s.taskCount := by
  obtain ⟨hlock,hcount⟩ := offlineIfEnabled_lock (s := s.popConnection n (.disconnected "Worker disconnected")) n
  obtain ⟨hlock',hcount'⟩ := popConnection_lock (s := s) n (.disconnected "Worker disconnected")
  exact ⟨hlock.trans hlock',hcount.trans hcount'⟩

theorem sweep_lock (settings : Settings) (s : NodeService) (now : Instant) :
    (s.sweep settings now).databaseLock = s.databaseLock ∧ (s.sweep settings now).taskCount = s.taskCount := by
  have hfold (ids : List NodeId) (u : NodeService) : (ids.foldl sweepNode u).databaseLock = u.databaseLock ∧
      (ids.foldl sweepNode u).taskCount = u.taskCount := by
    induction ids generalizing u with
    | nil => exact ⟨rfl,rfl⟩
    | cons n ids ih => exact ⟨(ih _).1.trans (sweepNode_lock n).1,(ih _).2.trans (sweepNode_lock n).2⟩
  exact hfold _ (s.markOffline (s.staleRows settings now))

/-- From the lock on, `disconnect` within a sweep. -/
theorem spawn_offline (settings : Settings) (hfree : s.databaseLock = none) (n : NodeId) (rest : List NodeId) (k : AfterSweep) :
    Reaches (step settings) (OnlyRuns s.taskCount) (s.spawn (.offlineLock n (.sweep rest k)))
      (((s.offlineIfEnabled n).note (.offline n)).spawn (nextStale rest k)) := by
  -- the lock is held by the task and given back
  let held : NodeService := { s with databaseLock := some s.taskCount }
  have hgo (u : NodeService) (pc pc' : Pc) (hu : u.taskCount = s.taskCount) :
      (u.spawn pc).goto s.taskCount pc' = u.spawn pc' := by
    rw [← hu]
    exact spawn_goto pc pc'
  have hback (u : NodeService) (pc : Pc) (hu : u.databaseLock = some s.taskCount) (hcount : u.taskCount = s.taskCount) :
      ((u.spawn pc).release s.taskCount).disconnected s.taskCount n (.sweep rest k) =
        ({ u.note (.offline n) with databaseLock := none }).spawn (nextStale rest k) := by
    have hrel : (u.spawn pc).release s.taskCount = ({ u with databaseLock := none }).spawn pc := by
      simp [release,spawn,hu]
    rw [hrel]
    exact hgo ({ u.note (.offline n) with databaseLock := none }) pc _ hcount
  have hlock : Reaches (step settings) (OnlyRuns s.taskCount) (s.spawn (.offlineLock n (.sweep rest k)))
      (held.spawn (.offlineRead n (.sweep rest k))) := by
    refine spawn_runs ?_
    have hfree' : (s.spawn (.offlineLock n (.sweep rest k))).databaseLock = none := hfree
    simp only [resume, acquire, hfree']
    exact congrArg some (hgo held _ _ rfl)
  have hnone : { s.note (.offline n) with databaseLock := none } = s.note (.offline n) := by
    rw [← hfree]
    rfl
  cases hget : s.records.get n with
  | none =>
    have hsame : s.offlineIfEnabled n = s := by simp only [offlineIfEnabled, hget]
    rw [hsame,← hnone]
    refine hlock.trans (spawn_runs (s := held) ?_)
    have hget' : (held.spawn (.offlineRead n (.sweep rest k))).records.get n = none := hget
    simp only [resume, hget']
    exact congrArg some (hback held _ rfl rfl)
  | some record =>
    have hget' : (held.spawn (.offlineRead n (.sweep rest k))).records.get n = some record := hget
    cases henabled : record.enabled with
    | false =>
      have hsame : s.offlineIfEnabled n = s := by simp [offlineIfEnabled,hget,henabled]
      rw [hsame,← hnone]
      refine hlock.trans (spawn_runs (s := held) ?_)
      simp only [resume, hget', henabled, Bool.not_false, if_true]
      exact congrArg some (hback held _ rfl rfl)
    | true =>
      let written := held.update n (record.setStatus .offline)
      have hread : Reaches (step settings) (OnlyRuns s.taskCount) (held.spawn (.offlineRead n (.sweep rest k)))
          (held.spawn (.offlineCommit n record (.sweep rest k))) := by
        refine spawn_runs (s := held) ?_
        simp only [resume, hget', henabled, Bool.not_true, Bool.false_eq_true, if_false]
        exact congrArg some (hgo held _ _ rfl)
      have hcommit : Reaches (step settings) (OnlyRuns s.taskCount)
          (held.spawn (.offlineCommit n record (.sweep rest k))) (written.spawn (.offlinePublish n (.sweep rest k))) :=
        spawn_runs (s := held) (congrArg some (hgo written _ _ rfl))
      have hpublish : Reaches (step settings) (OnlyRuns s.taskCount)
          (written.spawn (.offlinePublish n (.sweep rest k)))
          ({ (written.note (.offline n)).note (.offline n) with databaseLock := none }.spawn (nextStale rest k)) :=
        spawn_runs (s := written) (congrArg some (hback (written.note (.offline n)) _ rfl rfl))
      have hend : { (written.note (.offline n)).note (.offline n) with databaseLock := none } =
          (s.offlineIfEnabled n).note (.offline n) := by
        simp only [offlineIfEnabled, hget, henabled, Bool.not_true, Bool.false_eq_true, if_false]
        rw [← hfree]
        rfl
      rw [← hend]
      exact ((hlock.trans hread).trans hcommit).trans hpublish

/-- The task that disconnects a stale node makes the turn of the loop. -/
theorem spawn_sweepNode (hfree : s.databaseLock = none) (n : NodeId) (rest : List NodeId) (k : AfterSweep) :
    Reaches (step settings) (OnlyRuns s.taskCount) (s.spawn (.disconnect n (.sweep rest k)))
      ((s.sweepNode n).spawn (nextStale rest k)) := by
  let popped := s.popConnection n (.disconnected "Worker disconnected")
  obtain ⟨hlock,hcount⟩ := popConnection_lock (s := s) n (.disconnected "Worker disconnected")
  have hpop : Reaches (step settings) (OnlyRuns s.taskCount) (s.spawn (.disconnect n (.sweep rest k)))
      (popped.spawn (.offlineLock n (.sweep rest k))) := by
    refine spawn_runs (congrArg some ?_)
    have hcomm : (s.spawn (.disconnect n (.sweep rest k))).popConnection n (.disconnected "Worker disconnected") =
        popped.spawn (.disconnect n (.sweep rest k)) := by
      have htasks := (popConnection_frame s n (.disconnected "Worker disconnected")).1
      unfold spawn
      rw [hcount,htasks]
      exact withTasks_popConnection n _
    rw [hcomm,← hcount]
    exact spawn_goto _ _
  have hoffline := spawn_offline settings (hlock.trans hfree) n rest k
  rw [hcount] at hoffline
  exact hpop.trans hoffline

/-- The whole loop over the stale nodes. -/
theorem spawn_loop (settings : Settings) (hfree : s.databaseLock = none) (ids : List NodeId) (k : AfterSweep) :
    Reaches (step settings) (OnlyRuns s.taskCount) (s.spawn (nextStale ids k)) ((ids.foldl sweepNode s).spawn (.swept k)) := by
  induction ids generalizing s with
  | nil => exact .refl
  | cons n ids ih =>
    obtain ⟨hlock,hcount⟩ := sweepNode_lock (s := s) n
    have hrest := ih (hlock.trans hfree)
    rw [hcount] at hrest
    exact (spawn_sweepNode hfree n ids k).trans hrest

/-- A call of `mark_stale_offline`, `list` or `get` that runs alone returns, and leaves the
service as the sweep has it. -/
theorem call_sweep (settings : Settings) (hfree : s.databaseLock = none) {k : AfterSweep} (hk : k.probeOf = none) (now : Instant) :
    ∃ outcome t, step settings (.sweep k now) s = some t ∧
      Reaches (step settings) (OnlyRuns s.taskCount) t ((s.sweep settings now).spawn (.done outcome)) := by
  have hcount := (sweep_lock settings s now).2
  have hread : Reaches (step settings) (OnlyRuns s.taskCount)
      (s.spawn (.sweepRead (now - settings.heartbeatTimeout) k)) (s.spawn (.sweepCommit (s.staleRows settings now) k)) :=
    spawn_runs (congrArg some (spawn_goto _ _))
  have hcommit : Reaches (step settings) (OnlyRuns s.taskCount) (s.spawn (.sweepCommit (s.staleRows settings now) k))
      ((s.markOffline (s.staleRows settings now)).spawn (nextStale (s.staleIds settings now) k)) :=
    spawn_runs (congrArg some (spawn_goto (s := s.markOffline (s.staleRows settings now)) _ _))
  have hloop := spawn_loop settings (s := s.markOffline (s.staleRows settings now)) hfree
    (s.staleIds settings now) k
  have hafter : ∃ outcome, Reaches (step settings) (OnlyRuns s.taskCount) ((s.sweep settings now).spawn (.swept k))
      ((s.sweep settings now).spawn (.done outcome)) := by
    have hdone (outcome : Outcome) (h : ((s.sweep settings now).spawn (.swept k)).afterSweep
        (s.sweep settings now).taskCount "" k =
          ((s.sweep settings now).spawn (.swept k)).goto (s.sweep settings now).taskCount (.done outcome)) :
        ∃ outcome, Reaches (step settings) (OnlyRuns s.taskCount) ((s.sweep settings now).spawn (.swept k))
          ((s.sweep settings now).spawn (.done outcome)) := by
      refine ⟨outcome,?_⟩
      rw [← hcount]
      exact spawn_runs (congrArg some (h.trans (spawn_goto _ _)))
    cases k with
    | liveness => exact hdone _ rfl
    | list => exact hdone _ rfl
    | get n =>
      cases hget : ((s.sweep settings now).spawn (.swept (.get n))).records.get n with
      | none => exact hdone (.raised .notFound) (by simp only [afterSweep, hget])
      | some record => exact hdone (.info record) (by simp only [afterSweep, hget])
    | probe n timeout id => cases hk
  obtain ⟨outcome,hafter⟩ := hafter
  exact ⟨outcome,_,rfl,((hread.trans hcommit).trans hloop).trans hafter⟩

/-- Calls of `mark_stale_offline`, `list` and `get`, one after another, are sweeps. -/
theorem calls_sweeps (hfree : s.databaseLock = none) (calls : List (AfterSweep × Instant))
    (hk : ∀ call ∈ calls, call.1.probeOf = none) :
    ∃ tasks count, Reaches (step settings) anyStep s ((s.sweeps settings (calls.map Prod.snd)).withTasks tasks count) := by
  induction calls generalizing s with
  | nil => exact ⟨s.tasks,s.taskCount,.refl⟩
  | cons call calls ih =>
    obtain ⟨k,now⟩ := call
    obtain ⟨outcome,t,hstart,hrun⟩ := call_sweep settings hfree (hk _ List.mem_cons_self) now
    let u := (s.sweep settings now).spawn (.done outcome)
    have hu : u.databaseLock = none := (sweep_lock settings s now).1.trans hfree
    obtain ⟨tasks,count,hrest⟩ := ih (s := u) hu fun c hc => hk c (List.mem_cons_of_mem _ hc)
    have hsweeps (nows : List Instant) (v : NodeService) (tasks : TaskRef → Option Task) (count : Nat) :
        (v.withTasks tasks count).sweeps settings nows = (v.sweeps settings nows).withTasks tasks count := by
      induction nows generalizing v with
      | nil => rfl
      | cons now nows ih => simp only [sweeps, List.foldl_cons, withTasks_sweep] at ih ⊢; exact ih _
    refine ⟨tasks,count,?_⟩
    have hcall : Reaches (step settings) anyStep s u :=
      .head ⟨_,trivial,hstart⟩ (hrun.mono fun _ _ _ => trivial)
    have hend : (u.sweeps settings (calls.map Prod.snd)).withTasks tasks count =
        (s.sweeps settings (((k,now) :: calls).map Prod.snd)).withTasks tasks count := by
      have hu' := hsweeps (calls.map Prod.snd) (s.sweep settings now) u.tasks u.taskCount
      rw [show u = (s.sweep settings now).withTasks u.tasks u.taskCount from rfl,hu']
      rfl
    rw [← hend]
    exact hcall.trans hrest

end Tasks

/-! ## What a sweep writes -/

section Rows
variable {settings : Settings} {s : NodeService} {n m : NodeId}

/-- The node has no session and its row is OFFLINE. -/
structure Settled (s : NodeService) (n : NodeId) : Prop where
  offline : ∀ record ∈ s.records, record.id = n → record.status = .offline
  alone : s.connections.lookup n = none

theorem written_offline (read : NodeStatus) : written read .offline .offline = .offline := by
  unfold written
  split <;> rfl

theorem setStatus_offline {record : NodeRecord} (h : record.status = .offline) (read : NodeRecord) :
    read.setStatus .offline record = record := by
  simp only [NodeRecord.setStatus, h, written_offline]
  rw [← h]

theorem update_records_ids (read : NodeRecord) (n : NodeId) :
    (s.records.update n (read.setStatus .offline)).map NodeRecord.id = s.records.map NodeRecord.id := by
  simp only [Table.update, List.map_map]
  refine List.map_congr_left fun record _ => ?_
  simp only [Function.comp_apply]
  split <;> rfl

/-- Rows that are OFFLINE stay so. -/
theorem offline_update (h : ∀ record ∈ s.records, record.id = n → record.status = .offline) (read : NodeRecord) :
    ∀ record ∈ s.records.update m (read.setStatus .offline), record.id = n → record.status = .offline := by
  intro record hmem hid
  obtain ⟨row,hrow,rfl⟩ := List.mem_map.mp hmem
  by_cases hm : row.id = m
  · rw [if_pos hm] at hid ⊢
    rw [setStatus_offline (h row hrow hid) read]
    exact h row hrow hid
  · rw [if_neg hm] at hid ⊢
    exact h row hrow hid

theorem update_settled (h : ∀ record ∈ s.records, record.id = n → record.status = .offline) (read : NodeRecord) :
    s.records.update n (read.setStatus .offline) = s.records := by
  refine (List.map_congr_left fun record hmem => ?_).trans (List.map_id _)
  split
  next hid => exact setStatus_offline (h record hmem hid) read
  · rfl

theorem offlineIfEnabled_frame (s : NodeService) (n : NodeId) : (s.offlineIfEnabled n).connections = s.connections ∧
    (s.offlineIfEnabled n).sessions = s.sessions ∧ (s.offlineIfEnabled n).futures = s.futures ∧
      ((s.offlineIfEnabled n).records = s.records ∨
        ∃ read : NodeRecord, (s.offlineIfEnabled n).records = s.records.update n (read.setStatus .offline)) := by
  unfold offlineIfEnabled
  split
  · exact ⟨rfl,rfl,rfl,.inl rfl⟩
  next record _ =>
    split
    · exact ⟨rfl,rfl,rfl,.inl rfl⟩
    · exact ⟨rfl,rfl,rfl,.inr ⟨record,rfl⟩⟩

theorem sweepNode_connections (s : NodeService) (n m : NodeId) :
    (s.sweepNode n).connections.lookup m = if m = n then none else s.connections.lookup m := by
  have hframe := (offlineIfEnabled_frame (s.popConnection n (.disconnected "Worker disconnected")) n).1
  exact (congrArg (List.lookup m) hframe).trans (popConnection_lookup s n m _)

theorem sweepNode_records (s : NodeService) (n : NodeId) : (s.sweepNode n).records = s.records ∨
    ∃ read : NodeRecord, (s.sweepNode n).records = s.records.update n (read.setStatus .offline) := by
  have hpop := (popConnection_frame s n (.disconnected "Worker disconnected")).2.2.2.1
  have hframe := (offlineIfEnabled_frame (s.popConnection n (.disconnected "Worker disconnected")) n).2.2.2
  rwa [hpop] at hframe

theorem sweepNode_offline (h : ∀ record ∈ s.records, record.id = n → record.status = .offline) :
    ∀ record ∈ (s.sweepNode m).records, record.id = n → record.status = .offline := by
  obtain hsame | ⟨read,hwrote⟩ := sweepNode_records s m
  · rwa [hsame]
  · rw [hwrote]
    exact offline_update h read

theorem Settled.sweepNode (h : Settled s n) : Settled (s.sweepNode m) n := by
  refine ⟨sweepNode_offline h.offline,?_⟩
  rw [sweepNode_connections]
  split
  · rfl
  · exact h.alone

theorem Settled.of_sweepNode (h : ∀ record ∈ s.records, record.id = n → record.status = .offline) :
    Settled (s.sweepNode n) n :=
  ⟨sweepNode_offline h,by rw [sweepNode_connections,if_pos rfl]⟩

/-- The loop settles the nodes whose rows are OFFLINE before it. -/
theorem foldl_settled {ids : List NodeId} (h : ∀ n ∈ ids, ∀ record ∈ s.records, record.id = n → record.status = .offline) :
    ∀ n ∈ ids, Settled (ids.foldl NodeService.sweepNode s) n := by
  have hkeep (ids : List NodeId) (u : NodeService) (n : NodeId) (hu : Settled u n) :
      Settled (ids.foldl NodeService.sweepNode u) n := by
    induction ids generalizing u with
    | nil => exact hu
    | cons m ids ih => exact ih _ hu.sweepNode
  induction ids generalizing s with
  | nil => simp
  | cons m ids ih =>
    intro n hn
    obtain rfl | hn := List.mem_cons.mp hn
    · exact hkeep ids _ n (.of_sweepNode (h n List.mem_cons_self))
    · exact ih (fun k hk => sweepNode_offline (h k (List.mem_cons_of_mem _ hk))) n hn

theorem SameRows.trans {t u : NodeService} (h : SameRows s t) (h' : SameRows t u) : SameRows s u :=
  ⟨h'.records.trans h.records,h'.connections.trans h.connections,h'.sessions.trans h.sessions,h'.futures.trans h.futures⟩

theorem Settled.sameRows (h : Settled s n) : SameRows s (s.sweepNode n) := by
  have hpop : s.popConnection n (.disconnected "Worker disconnected") = s := by simp only [popConnection, h.alone]
  obtain ⟨hconnections,hsessions,hfutures,-⟩ := offlineIfEnabled_frame s n
  have hrecords : (s.sweepNode n).records = s.records := by
    obtain hsame | ⟨read,hwrote⟩ := sweepNode_records s n
    · exact hsame
    · exact hwrote.trans (update_settled h.offline read)
  unfold NodeService.sweepNode disconnectNode at *
  rw [hpop] at *
  exact ⟨hrecords,hconnections,hsessions,hfutures⟩

theorem foldl_sameRows {ids : List NodeId} (h : ∀ n ∈ ids, Settled s n) : SameRows s (ids.foldl NodeService.sweepNode s) := by
  induction ids generalizing s with
  | nil => exact ⟨rfl,rfl,rfl,rfl⟩
  | cons m ids ih =>
    exact (h m List.mem_cons_self).sameRows.trans (ih fun n hn => (h n (List.mem_cons_of_mem _ hn)).sweepNode)

end Rows

/-! ## Rows found stale -/

section Stale
variable {settings : Settings} {s : NodeService} {n : NodeId} {now : Instant}

/-- The update of a stale row, one row of the table after another. -/
theorem markOffline_records (stale : List NodeRecord) : (s.markOffline stale).records =
    s.records.map fun row => stale.foldl (fun current read =>
      if current.id = read.id then read.setStatus .offline current else current) row := by
  simp only [markOffline]
  generalize s.records = table
  induction stale generalizing table with
  | nil => simp
  | cons read stale ih =>
    rw [List.foldl_cons,ih]
    simp only [Table.update, List.map_map, Function.comp_def, List.foldl_cons]

/-- A row that is among the stale ones ends OFFLINE, for a row of its key is that row. -/
theorem foldl_setStatus {row : NodeRecord} (stale : List NodeRecord) (hkey : ∀ read ∈ stale, read.id = row.id → read = row)
    {current : NodeRecord} (hid : current.id = row.id)
    (hstatus : current.status = .offline ∨ current.status = row.status ∧ row ∈ stale) :
    (stale.foldl (fun current read => if current.id = read.id then read.setStatus .offline current else current)
      current).status = .offline := by
  induction stale generalizing current with
  | nil => simpa using hstatus
  | cons read stale ih =>
    have hrest : ∀ read ∈ stale, read.id = row.id → read = row := fun r hr => hkey r (List.mem_cons_of_mem _ hr)
    rw [List.foldl_cons]
    by_cases hread : current.id = read.id
    · have hrow := hkey read List.mem_cons_self (hread.symm.trans hid)
      rw [if_pos hread]
      refine ih hrest hid (.inl ?_)
      obtain hoff | ⟨hsame,-⟩ := hstatus
      · rw [setStatus_offline hoff read]
        exact hoff
      · simp only [NodeRecord.setStatus, written, hrow, hsame]
        split
        next heq => exact heq.symm
        · rfl
    · rw [if_neg hread]
      refine ih hrest hid (hstatus.imp_right fun hmarked => ⟨hmarked.1,?_⟩)
      obtain rfl | hmem := List.mem_cons.mp hmarked.2
      · exact absurd hid hread
      · exact hmem

theorem foldl_setStatus_id (stale : List NodeRecord) (current : NodeRecord) :
    (stale.foldl (fun current read => if current.id = read.id then read.setStatus .offline current else current)
      current).id = current.id := by
  induction stale generalizing current with
  | nil => rfl
  | cons read stale ih =>
    rw [List.foldl_cons,ih]
    split <;> rfl

theorem eq_of_key (hkeys : (s.records.map NodeRecord.id).Nodup) {row row' : NodeRecord} (hrow : row ∈ s.records)
    (hrow' : row' ∈ s.records) (h : row.id = row'.id) : row = row' :=
  List.inj_on_of_nodup_map hkeys hrow hrow' h

theorem markOffline_offline (hkeys : (s.records.map NodeRecord.id).Nodup) (hn : n ∈ s.staleIds settings now) :
    ∀ record ∈ (s.markOffline (s.staleRows settings now)).records, record.id = n → record.status = .offline := by
  intro record hrecord hid
  rw [markOffline_records] at hrecord
  obtain ⟨row,hrow,rfl⟩ := List.mem_map.mp hrecord
  rw [foldl_setStatus_id] at hid
  obtain ⟨stale,hstale,hn⟩ := List.mem_map.mp hn
  have hsame : stale = row := eq_of_key hkeys ((List.mem_filter.mp hstale).1) hrow (hn.trans hid.symm)
  subst hsame
  exact foldl_setStatus _ (fun read hread h => eq_of_key hkeys ((List.mem_filter.mp hread).1) hrow h) rfl (.inr ⟨rfl,hstale⟩)

/-- A sweep settles the nodes that it finds stale. -/
theorem sweep_settled (settings : Settings) (now : Instant) (hkeys : (s.records.map NodeRecord.id).Nodup) :
    ∀ n ∈ s.staleIds settings now, Settled (s.sweep settings now) n :=
  foldl_settled fun _ hn => markOffline_offline hkeys hn

/-- A sweep that finds settled nodes only changes no row, session or future. -/
theorem sweep_sameRows (h : ∀ n ∈ s.staleIds settings now, Settled s n) : SameRows s (s.sweep settings now) := by
  have hmark : (s.markOffline (s.staleRows settings now)).records = s.records := by
    have hfold (stale : List NodeRecord) (hstale : ∀ read ∈ stale, Settled s read.id) :
        stale.foldl (fun table read => table.update read.id (read.setStatus .offline)) s.records = s.records := by
      induction stale with
      | nil => rfl
      | cons read stale ih =>
        rw [List.foldl_cons,update_settled (hstale read List.mem_cons_self).offline read]
        exact ih fun r hr => hstale r (List.mem_cons_of_mem _ hr)
    exact hfold _ fun read hread => h read.id (List.mem_map.mpr ⟨read,hread,rfl⟩)
  have hmarked : s.markOffline (s.staleRows settings now) = s := by
    unfold markOffline at hmark ⊢
    rw [show List.foldl _ s.records (s.staleRows settings now) = s.records from hmark]
  have hsame := foldl_sameRows h
  unfold NodeService.sweep
  rwa [hmarked]

theorem sweep_ids : (s.sweep settings now).records.map NodeRecord.id = s.records.map NodeRecord.id := by
  have hfold (ids : List NodeId) (u : NodeService) :
      (ids.foldl NodeService.sweepNode u).records.map NodeRecord.id = u.records.map NodeRecord.id := by
    induction ids generalizing u with
    | nil => rfl
    | cons n ids ih =>
      rw [List.foldl_cons,ih]
      obtain hsame | ⟨read,hwrote⟩ := sweepNode_records u n
      · rw [hsame]
      · rw [hwrote,update_records_ids]
  refine (hfold _ _).trans ?_
  rw [markOffline_records,List.map_map]
  exact List.map_congr_left fun row _ => foldl_setStatus_id _ row

theorem sweeps_ids (nows : List Instant) : (s.sweeps settings nows).records.map NodeRecord.id = s.records.map NodeRecord.id := by
  induction nows generalizing s with
  | nil => rfl
  | cons now nows ih => exact (ih (s := s.sweep settings now)).trans sweep_ids

end Stale

/-! ## What a sweep publishes -/

section Events
variable {settings : Settings} {s : NodeService} {n m : NodeId} {now : Instant}

/-- The row of the node is that of an enabled one. -/
def Enabled (s : NodeService) (n : NodeId) : Prop := ∃ record, s.records.get n = some record ∧ record.enabled = true

theorem Enabled.update (h : Enabled s n) (read : NodeRecord) : Enabled (s.update m (read.setStatus .offline)) n := by
  obtain ⟨record,hget,henabled⟩ := h
  refine ⟨if n = m then read.setStatus .offline record else record,?_,?_⟩
  · refine (@Table.get_update s.records m n (read.setStatus .offline) fun _ => rfl).trans ?_
    rw [hget]
    rfl
  · split <;> exact henabled

theorem Enabled.of_records {t : NodeService} (h : Enabled s n) (hsame : t.records = s.records) : Enabled t n := by
  unfold Enabled
  rwa [hsame]

theorem Enabled.sweepNode (h : Enabled s n) : Enabled (s.sweepNode m) n := by
  obtain hsame | ⟨read,hwrote⟩ := sweepNode_records s m
  · exact h.of_records hsame
  · exact (h.update read).of_records hwrote

theorem popConnection_events (e : NodeError) : (s.popConnection n e).events = s.events := by
  unfold popConnection
  split <;> rfl

/-- A node that is disconnected is reported whatever its status was, and then reported again. -/
theorem events_sweepNode (h : Enabled s n) : (s.sweepNode n).events = s.events ++ [.offline n,.offline n] := by
  obtain ⟨record,hget,henabled⟩ :=
    h.of_records (popConnection_frame s n (.disconnected "Worker disconnected")).2.2.2.1
  simp only [NodeService.sweepNode, disconnectNode, offlineIfEnabled, hget, henabled, Bool.not_true, Bool.false_eq_true, if_false,
    note, NodeService.update, popConnection_events, List.append_assoc, List.cons_append, List.nil_append]

theorem events_foldl {ids : List NodeId} (h : ∀ n ∈ ids, Enabled s n) :
    (ids.foldl NodeService.sweepNode s).events = s.events ++ ids.flatMap fun n => [.offline n,.offline n] := by
  induction ids generalizing s with
  | nil => simp
  | cons n ids ih =>
    rw [List.foldl_cons,ih fun m hm => (h m (List.mem_cons_of_mem _ hm)).sweepNode,events_sweepNode (h n List.mem_cons_self)]
    simp

theorem get_of_mem (hkeys : (s.records.map NodeRecord.id).Nodup) {record : NodeRecord} (h : record ∈ s.records) :
    s.records.get record.id = some record := by
  obtain ⟨found,hfound⟩ := Option.isSome_iff_exists.mp (List.find?_isSome (p := fun row => row.id == record.id).mpr
    ⟨record,h,beq_self_eq_true record.id⟩)
  have hid : found.id = record.id := by simpa using List.find?_some hfound
  rw [← eq_of_key hkeys (List.mem_of_find?_eq_some hfound) h hid]
  rw [hid]
  exact hfound

/-- Two events for each row that a sweep finds stale. -/
theorem events_sweep (hkeys : (s.records.map NodeRecord.id).Nodup) : (s.sweep settings now).events =
    s.events ++ (s.staleIds settings now).flatMap fun n => [.offline n,.offline n] := by
  have hmark (stale : List NodeRecord) (table : Table) (n : NodeId)
      (h : ∃ record, table.get n = some record ∧ record.enabled = true) :
      ∃ record, Table.get (stale.foldl (fun table read => Table.update table read.id (read.setStatus .offline)) table) n =
        some record ∧ record.enabled = true := by
    induction stale generalizing table with
    | nil => exact h
    | cons read stale ih => exact ih _ (Enabled.update (s := initial table) h read)
  refine events_foldl fun n hn => ?_
  obtain ⟨record,hrecord,rfl⟩ := List.mem_map.mp hn
  obtain ⟨hmem,hstale⟩ := List.mem_filter.mp hrecord
  refine hmark _ _ _ ⟨record,get_of_mem hkeys hmem,?_⟩
  simp only [NodeRecord.stale, Bool.and_eq_true] at hstale
  exact hstale.1.2

end Events

/-! ## Sequences of calls -/

/-- A call that finds no node stale besides those of the call before changes nothing and
publishes nothing, and each call reports the nodes that it takes offline, each once. -/
structure Truthful (settings : Settings) (s : NodeService) (nows : List Instant) : Prop where
  idempotent : ∀ earlier now now' later, nows = earlier ++ now :: now' :: later →
    (∀ n ∈ (s.sweeps settings (earlier ++ [now])).staleIds settings now', n ∈ (s.sweeps settings earlier).staleIds settings now) →
    s.sweeps settings (earlier ++ [now,now']) = s.sweeps settings (earlier ++ [now])
  reports : ∀ earlier now later, nows = earlier ++ now :: later →
    Reports (s.sweeps settings earlier) (s.sweeps settings (earlier ++ [now]))

section Sequences
variable {settings : Settings} {s : NodeService} {nows : List Instant} {now : Instant}

theorem sweeps_append (earlier later : List Instant) :
    s.sweeps settings (earlier ++ later) = (s.sweeps settings earlier).sweeps settings later := List.foldl_append

theorem sweep_of_none (h : s.staleRows settings now = []) : s.sweep settings now = s := by
  simp only [NodeService.sweep, staleIds, h]
  rfl

theorem sweeps_of_none (h : ∀ now ∈ nows, s.staleRows settings now = []) : s.sweeps settings nows = s := by
  induction nows with
  | nil => rfl
  | cons now nows ih =>
    rw [sweeps,List.foldl_cons,sweep_of_none (h now List.mem_cons_self)]
    exact ih fun now hnow => h now (List.mem_cons_of_mem _ hnow)

theorem reports_refl (s : NodeService) : Reports s s := by
  intro n
  have hwent : wentOffline s s n = false := by
    cases hget : s.records.get n with
    | none => simp [wentOffline,hget]
    | some record => cases hstatus : record.status <;> simp [wentOffline,hget,hstatus]
  simp [hwent]

/-- A sweep that finds a stale row reports too much. -/
theorem Reports.none_stale (hkeys : (s.records.map NodeRecord.id).Nodup) (h : Reports s (s.sweep settings now)) :
    s.staleRows settings now = [] := by
  cases hrows : s.staleRows settings now with
  | nil => rfl
  | cons record rows =>
    have hcount := h record.id
    have hids : s.staleIds settings now = record.id :: rows.map NodeRecord.id := by rw [staleIds,hrows]; rfl
    rw [events_sweep hkeys,hids,List.count_append,List.flatMap_cons,List.count_append] at hcount
    have htwo : [NodeEvent.offline record.id,.offline record.id].count (.offline record.id) = 2 := by simp
    rw [htwo] at hcount
    split at hcount <;> omega

/-- A second sweep changes no row, session or pending probe. Nothing is published twice,
and no sweep is reported without a node going offline, exactly if no call finds an enabled
worker whose last heartbeat is older than the timeout. -/
theorem sweeps_truthful_iff (settings : Settings) {s : NodeService} (hkeys : (s.records.map NodeRecord.id).Nodup)
    (nows : List Instant) :
    (∀ earlier now now' later, nows = earlier ++ now :: now' :: later →
      (∀ n ∈ (s.sweeps settings (earlier ++ [now])).staleIds settings now',
        n ∈ (s.sweeps settings earlier).staleIds settings now) →
      SameRows (s.sweeps settings (earlier ++ [now])) (s.sweeps settings (earlier ++ [now,now']))) ∧
    (Truthful settings s nows ↔ ∀ now ∈ nows, s.staleRows settings now = []) := by
  have hkeys' (earlier : List Instant) : ((s.sweeps settings earlier).records.map NodeRecord.id).Nodup := by
    rw [sweeps_ids]
    exact hkeys
  refine ⟨fun earlier now now' later _ hsub => ?_,fun h => ?_,fun h => ?_⟩
  · have hsettled := sweep_settled settings now (hkeys' earlier)
    have hsplit : earlier ++ [now,now'] = (earlier ++ [now]) ++ [now'] := by simp
    rw [hsplit,sweeps_append _ [now']]
    refine sweep_sameRows fun n hn => ?_
    rw [sweeps_append]
    exact hsettled n (hsub n hn)
  · -- up to the first call that finds a stale row, the service is as it was
    have hreports := h.reports
    clear h
    induction nows with
    | nil => simp
    | cons now nows ih =>
      have hnow : s.staleRows settings now = [] := (hreports [] now nows rfl).none_stale hkeys
      have hsame : s.sweep settings now = s := sweep_of_none hnow
      refine List.forall_mem_cons.mpr ⟨hnow,ih fun earlier now' later hsplit => ?_⟩
      have hrest := hreports (now :: earlier) now' later (by rw [hsplit]; rfl)
      simp only [sweeps, List.cons_append, List.foldl_cons, hsame] at hrest
      exact hrest
  · have hearly (earlier later : List Instant) (hsplit : nows = earlier ++ later) : s.sweeps settings earlier = s :=
      sweeps_of_none fun now hnow => h now (by rw [hsplit]; exact List.mem_append_left _ hnow)
    refine ⟨fun earlier now now' later hsplit _ => ?_,fun earlier now later hsplit => ?_⟩
    · rw [hearly (earlier ++ [now,now']) later (by simp [hsplit]),hearly (earlier ++ [now]) (now' :: later) (by simp [hsplit])]
    · rw [hearly earlier (now :: later) hsplit,hearly (earlier ++ [now]) later (by simp [hsplit])]
      exact reports_refl s

/-- A worker that is online and has been silent since the start. -/
def silentWorker : NodeRecord := ⟨"node_0001","",.worker,.online,true,"",[],some 0⟩

/-- At its last heartbeat plus the timeout the worker is not stale yet. -/
theorem sweeps_truthful_fresh : Truthful sampleSettings (initial [silentWorker]) [0,30000] :=
  (sweeps_truthful_iff sampleSettings (s := initial [silentWorker]) (by decide) [0,30000]).2.mpr (by
    intro now hnow
    obtain rfl | rfl : now = 0 ∨ now = 30000 := by simpa using hnow
    · rfl
    · rfl)

/-- The worker goes offline once; two events say so, and each further call adds two more. -/
theorem sweeps_untruthful : ¬ Truthful sampleSettings (initial [silentWorker]) [30001,30002] ∧
    ((initial [silentWorker]).sweeps sampleSettings [30001]).events.count (.offline "node_0001") = 2 ∧
    ((initial [silentWorker]).sweeps sampleSettings [30001,30002]).events.count (.offline "node_0001") = 4 := by
  refine ⟨fun h => ?_,by decide,by decide⟩
  have hreports := h.reports [] 30001 [30002] rfl "node_0001"
  revert hreports
  decide

end Sequences

end NodeService

end AgentGraph.Nodes
