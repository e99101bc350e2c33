import AgentGraph.Nodes.Resumption

/-! # What a step of the node service can do

Most steps move a program counter and change nothing that other tasks rely on. The
others take a session out of the connection table, put one in, or write rows.
-/
set_option autoImplicit false
namespace AgentGraph.Nodes
open Transition

/-- The socket has returned from `connect` and has not reached its `finally`, provided
that it has connected. -/
def Pc.live : Pc → Bool
  | .register _ _ | .serving _ | .heartbeatLock _ _ _ | .heartbeatRead _ _ _ | .heartbeatCommit _ _ _ _ => true
  | _ => false

/-- A socket that has not connected yet. -/
def Pc.early : Pc → Bool
  | .hello _ | .enrollLock _ _ | .enrollRead _ _ _ | .enrollCommit _ _ _ | .enrollRefresh _ _ | .connect _ _ => true
  | _ => false

/-- The task holds the database lock. -/
def Pc.holding : Pc → Bool
  | .enrollRead _ _ _ | .enrollCommit _ _ _ | .enrollRefresh _ _ | .heartbeatRead _ _ _ | .heartbeatCommit _ _ _ _
  | .offlineRead _ _ | .offlineCommit _ _ _ | .offlinePublish _ _ | .setEnabledRead _ _ | .setEnabledCommit _ _ _
  | .setEnabledRefresh _ _ => true
  | _ => false

/-- The row that a `set_enabled` has read and is about to write. -/
def Pc.enabling : Pc → Option (NodeId × NodeRecord)
  | .setEnabledCommit n _ read => some (n,read)
  | _ => none

namespace Table

variable {table : Table} {n m : NodeId} {f : NodeRecord → NodeRecord}

theorem get_update (hf : ∀ record, (f record).id = record.id) :
    (table.update n f).get m = (table.get m).map fun record => if m = n then f record else record := by
  unfold Table.get Table.update
  induction table with
  | nil => rfl
  | cons row rest ih =>
    have hid : (if row.id = n then f row else row).id = row.id := by split <;> simp [hf]
    simp only [List.map_cons, List.find?_cons, hid]
    by_cases hm : row.id = m
    · simp [hm]
    · simp [beq_eq_false_iff_ne.mpr hm,ih]

theorem get_insert {table' : Table} {record : NodeRecord} (h : table.insert record = some table') :
    table.get record.id = none ∧ table'.get m = (table.get m).or (if m = record.id then some record else none) := by
  unfold Table.insert at h
  split at h
  · cases h
  next hnone =>
    cases h
    refine ⟨by simpa using hnone,?_⟩
    unfold Table.get
    rw [List.find?_append]
    congr 1
    by_cases hm : record.id = m
    · simp [hm]
    · simp [hm,Ne.symm hm]

end Table

/-- Places from which a session is taken out or a row may become ONLINE. -/
def Pc.hazard : Pc → Bool
  | .disconnect _ _ | .enrollCommit _ _ _ | .heartbeatCommit _ _ _ _ => true
  | _ => false

/-- The update of a commit. -/
def Pc.write : Pc → Option (NodeId × (NodeRecord → NodeRecord))
  | .enrollCommit h now (some read) => some (h.nodeId,read.enroll h now)
  | .heartbeatCommit n capabilities now read => some (n,read.heartbeat capabilities now)
  | .offlineCommit n read _ => some (n,read.setStatus .offline)
  | .setEnabledCommit n enabled read => some (n,read.setEnabled enabled)
  | _ => none

namespace NodeService

/-- Task `i` moves from `pc` to `pc'`: what it has sent may grow, it holds the database
lock where it must, and the lock of another task is not touched. -/
structure Advance (s t : NodeService) (i : TaskRef) (pc pc' : Pc) : Prop where
  tasks : ∃ f, (∀ task : Task, (f task).pc = pc' ∧ (f task).connected = task.connected) ∧
    t.tasks = Function.update s.tasks i ((s.tasks i).map f)
  taskCount : t.taskCount = s.taskCount
  own : pc'.holding = true → (pc.holding = true → s.databaseLock = some i) → t.databaseLock = some i
  others : ∀ j, j ≠ i → s.databaseLock = some j → t.databaseLock = some j
  early : pc'.early = true → pc.early = true

/-- A step of task `i` from `pc` that leaves the rows and the connection table alone: a
socket does not come alive, and a row that `set_enabled` is about to write has just been read. -/
inductive Quiet (s t : NodeService) (i : TaskRef) (pc : Pc) : Prop
  | mk (pc' : Pc) (advance : s.Advance t i pc pc') (records : t.records = s.records)
      (connections : t.connections = s.connections) (sessionCount : t.sessionCount = s.sessionCount)
      (live : pc'.live = true → pc.live = true)
      (reading : ∀ n read, pc'.enabling = some (n,read) → s.records.get n = some read)

/-- What one step of task `i` from `pc` does to the rows and to the connection table. -/
inductive Effect (settings : Settings) (s t : NodeService) (i : TaskRef) (pc : Pc) : Prop
  | quiet (safe : pc.hazard = false) (h : s.Quiet t i pc)
  | refused (hello : WorkerHello) (now : Instant) (at' : pc = .enrollCommit hello now none)
      (taken : s.records.insert (newRecord settings hello now) = none) (h : s.Quiet t i pc)
  | popped (n : NodeId) (k : AfterDisconnect) (at' : pc = .disconnect n k)
      (advance : s.Advance t i pc (.offlineLock n k)) (records : t.records = s.records)
      (connections : t.connections = (s.popConnection n (.disconnected "Worker disconnected")).connections)
      (sessionCount : t.sessionCount = s.sessionCount)
  | connected (n : NodeId) (status : NodeStatus) (at' : pc = .connect n status)
      (tasks : t.tasks = Function.update s.tasks i ((s.tasks i).map fun task =>
        { task with pc := .register n status, connected := some (n,s.sessionCount) }))
      (taskCount : t.taskCount = s.taskCount) (lock : t.databaseLock = s.databaseLock) (records : t.records = s.records)
      (connections : t.connections =
        (s.popConnection n (.disconnected "Worker session was replaced")).connections ++ [(n,s.sessionCount)])
      (sessionCount : t.sessionCount = s.sessionCount + 1)
  | wrote (n : NodeId) (f : NodeRecord → NodeRecord) (at' : pc.write = some (n,f)) (pc' : Pc)
      (advance : s.Advance t i pc pc') (records : t.records = s.records.update n f)
      (connections : t.connections = s.connections) (sessionCount : t.sessionCount = s.sessionCount)
      (live : pc'.live = pc.live) (idle : pc'.enabling = none)
  | inserted (hello : WorkerHello) (now : Instant) (at' : pc = .enrollCommit hello now none)
      (advance : s.Advance t i pc (.enrollRefresh hello.nodeId true))
      (records : s.records.insert (newRecord settings hello now) = some t.records)
      (connections : t.connections = s.connections) (sessionCount : t.sessionCount = s.sessionCount)
  | swept (safe : pc.hazard = false) (stale : List NodeRecord) (pc' : Pc) (advance : s.Advance t i pc pc')
      (records : t.records = (s.markOffline stale).records) (connections : t.connections = s.connections)
      (sessionCount : t.sessionCount = s.sessionCount) (live : pc'.live = false) (idle : pc'.enabling = none)

section Moves
variable {settings : Settings} {s t u : NodeService} {i : TaskRef} {pc pc' : Pc}

theorem Advance.goto (htasks : u.tasks = s.tasks) (hcount : u.taskCount = s.taskCount)
    (hown : pc'.holding = true → (pc.holding = true → s.databaseLock = some i) → u.databaseLock = some i)
    (hothers : ∀ j, j ≠ i → s.databaseLock = some j → u.databaseLock = some j)
    (hearly : pc'.early = true → pc.early = true) : s.Advance (u.goto i pc') i pc pc' :=
  ⟨⟨fun task => { task with pc := pc' },fun _ => ⟨rfl,rfl⟩,by rw [← htasks]; rfl⟩,hcount,hown,hothers,hearly⟩

/-- The task goes on, and holds the lock only if it held it before. -/
theorem Advance.keep (htasks : u.tasks = s.tasks) (hcount : u.taskCount = s.taskCount)
    (hlock : u.databaseLock = s.databaseLock) (hhold : pc'.holding = true → pc.holding = true)
    (hearly : pc'.early = true → pc.early = true) : s.Advance (u.goto i pc') i pc pc' := by
  refine .goto htasks hcount (fun h hs => ?_) (fun j _ hj => ?_) hearly
  · rw [hlock]
    exact hs (hhold h)
  · rw [hlock]
    exact hj

/-- The task gives the lock back. -/
theorem Advance.release (htasks : u.tasks = s.tasks) (hcount : u.taskCount = s.taskCount)
    (hlock : u.databaseLock = (s.release i).databaseLock) (hhold : pc'.holding = false)
    (hearly : pc'.early = true → pc.early = true) : s.Advance (u.goto i pc') i pc pc' := by
  refine .goto htasks hcount (fun h => ?_) (fun j hj hs => ?_) hearly
  · rw [hhold] at h
    cases h
  · have hne : s.databaseLock ≠ some i := fun h => hj (Option.some.inj (hs.symm.trans h))
    rw [hlock]
    exact (if_neg hne).trans hs

theorem Quiet.goto (hadv : s.Advance (u.goto i pc') i pc pc') (hr : u.records = s.records)
    (hc : u.connections = s.connections) (hn : u.sessionCount = s.sessionCount)
    (hlive : pc'.live = true → pc.live = true)
    (hread : ∀ n read, pc'.enabling = some (n,read) → s.records.get n = some read) :
    s.Quiet (u.goto i pc') i pc := ⟨pc',hadv,hr,hc,hn,hlive,hread⟩

/-- The task moves to a place where it is not live, holds no lock and enables nothing. -/
theorem Quiet.idle (htasks : u.tasks = s.tasks) (hcount : u.taskCount = s.taskCount)
    (hlock : u.databaseLock = s.databaseLock ∨ u.databaseLock = (s.release i).databaseLock)
    (hr : u.records = s.records) (hc : u.connections = s.connections) (hn : u.sessionCount = s.sessionCount)
    (hhold : pc'.holding = false) (hearly : pc'.early = false) (hlive : pc'.live = false)
    (hread : pc'.enabling = none) : s.Quiet (u.goto i pc') i pc := by
  have hearly' : pc'.early = true → pc.early = true := by simp [hearly]
  have hadv : s.Advance (u.goto i pc') i pc pc' := by
    obtain hlock | hlock := hlock
    · exact .keep htasks hcount hlock (by simp [hhold]) hearly'
    · exact .release htasks hcount hlock hhold hearly'
  exact .goto hadv hr hc hn (by simp [hlive]) (by simp [hread])

theorem leave_quiet (htasks : u.tasks = s.tasks) (hcount : u.taskCount = s.taskCount)
    (hlock : u.databaseLock = s.databaseLock) (hr : u.records = s.records) (hc : u.connections = s.connections)
    (hn : u.sessionCount = s.sessionCount) (from' : Pc) (e : NodeError) :
    s.Quiet (u.leave i from' e) i pc := by
  have hrel : (u.release i).databaseLock = (s.release i).databaseLock := by
    simp only [NodeService.release, hlock]
  unfold leave
  split <;> exact .idle htasks hcount (.inr hrel) hr hc hn rfl rfl rfl rfl

theorem locked_quiet {now : Instant} (locks : Locks settings now pc pc') (free : s.databaseLock = none) :
    s.Quiet ({ s with databaseLock := some i }.goto i pc') i pc := by
  have hothers : ∀ j, j ≠ i → s.databaseLock = some j → some i = some j := by
    intro j _ hj
    rw [free] at hj
    cases hj
  cases locks with
  | enroll => exact .goto (.goto rfl rfl (fun _ _ => rfl) hothers fun _ => rfl) rfl rfl rfl (by simp [Pc.live]) (by simp [Pc.enabling])
  | heartbeat =>
    exact .goto (.goto rfl rfl (fun _ _ => rfl) hothers (by simp [Pc.early])) rfl rfl rfl (fun _ => rfl) (by simp [Pc.enabling])
  | offline | setEnabled =>
    exact .goto (.goto rfl rfl (fun _ _ => rfl) hothers (by simp [Pc.early])) rfl rfl rfl (by simp [Pc.live]) (by simp [Pc.enabling])

/-- Only `set_enabled` finds a row that it is about to enable. -/
theorem went_quiet {fresh : TaskId} (finds : s.Finds fresh pc pc') : s.Quiet (s.goto i pc') i pc := by
  cases finds with
  | unknown | known =>
    exact .goto (.keep rfl rfl rfl (fun _ => rfl) fun _ => rfl) rfl rfl rfl (by simp [Pc.live]) (by simp [Pc.enabling])
  | beating =>
    exact .goto (.keep rfl rfl rfl (fun _ => rfl) (by simp [Pc.early])) rfl rfl rfl (fun _ => rfl) (by simp [Pc.enabling])
  | online =>
    exact .goto (.keep rfl rfl rfl (fun _ => rfl) (by simp [Pc.early])) rfl rfl rfl (by simp [Pc.live]) (by simp [Pc.enabling])
  | worker n enabled record found =>
    refine .goto (.keep rfl rfl rfl (fun _ => rfl) (by simp [Pc.early])) rfl rfl rfl (by simp [Pc.live]) ?_
    intro m read hm
    cases hm
    exact found
  | stale | crowded | probed => exact .idle rfl rfl (.inl rfl) rfl rfl rfl rfl rfl rfl rfl

theorem nextStale_idle (rest : List NodeId) (k : AfterSweep) : (nextStale rest k).holding = false ∧
    (nextStale rest k).early = false ∧ (nextStale rest k).live = false ∧ (nextStale rest k).enabling = none := by
  cases rest <;> exact ⟨rfl,rfl,rfl,rfl⟩

/-- A pop touches the connection table and the popped session. -/
theorem popConnection_frame (s : NodeService) (n : NodeId) (e : NodeError) :
    (s.popConnection n e).tasks = s.tasks ∧ (s.popConnection n e).taskCount = s.taskCount ∧
      (s.popConnection n e).databaseLock = s.databaseLock ∧ (s.popConnection n e).records = s.records ∧
      (s.popConnection n e).sessionCount = s.sessionCount := by
  unfold popConnection
  split <;> exact ⟨rfl,rfl,rfl,rfl,rfl⟩

theorem disconnected_quiet (htasks : u.tasks = s.tasks) (hcount : u.taskCount = s.taskCount)
    (hlock : u.databaseLock = s.databaseLock ∨ u.databaseLock = (s.release i).databaseLock)
    (hr : u.records = s.records) (hc : u.connections = s.connections) (hn : u.sessionCount = s.sessionCount)
    (n : NodeId) (k : AfterDisconnect) : s.Quiet (u.disconnected i n k) i pc := by
  cases k with
  | socket => exact .idle htasks hcount hlock hr hc hn rfl rfl rfl rfl
  | sweep rest k =>
    obtain ⟨hhold,hearly,hlive,hread⟩ := nextStale_idle rest k
    exact .idle (u := u.note (.offline n)) htasks hcount hlock hr hc hn hhold hearly hlive hread
  | disabled record => exact .idle (u := u.note (.disabled n)) htasks hcount hlock hr hc hn rfl rfl rfl rfl

theorem dispatch_quiet (n : NodeId) (timeout : Option ℤ) (taskId : TaskId) :
    s.Quiet (s.dispatch settings i n timeout taskId) i pc := by
  unfold dispatch
  split
  · exact .idle rfl rfl (.inl rfl) rfl rfl rfl rfl rfl rfl rfl
  · split
    · exact .idle rfl rfl (.inl rfl) rfl rfl rfl rfl rfl rfl rfl
    · split
      · exact .idle rfl rfl (.inl rfl) rfl rfl rfl rfl rfl rfl rfl
      · dsimp only
        split
        · exact .idle rfl rfl (.inl rfl) rfl rfl rfl rfl rfl rfl rfl
        · split <;> exact .idle rfl rfl (.inl rfl) rfl rfl rfl rfl rfl rfl rfl

theorem cancelProbe_quiet (n : NodeId) (r : SessionRef) (taskId : TaskId) :
    s.Quiet (s.cancelProbe settings i n r taskId) i pc := by
  unfold cancelProbe
  dsimp only
  split <;> exact .idle rfl rfl (.inl rfl) rfl rfl rfl rfl rfl rfl rfl

theorem resume_effect {now : Instant} {fresh : TaskId} (h : s.resume settings i now fresh pc = some t) :
    s.Effect settings t i pc := by
  cases resume_cases h with
  | locked locks free => exact .quiet (by cases locks <;> rfl) (locked_quiet locks free)
  | went finds => exact .quiet (by cases finds <;> rfl) (went_quiet finds)
  | left e fails =>
    have hsafe : pc.hazard = false := by cases pc <;> first | rfl | cases fails
    exact .quiet hsafe (leave_quiet rfl rfl rfl rfl rfl rfl _ _)
  | denied | reported | failed => exact .quiet rfl (.idle rfl rfl (.inl rfl) rfl rfl rfl rfl rfl rfl rfl)
  | refused hello at' taken => exact .refused hello at' rfl taken (leave_quiet rfl rfl rfl rfl rfl rfl _ _)
  | inserted hello at' records new => exact .inserted hello at' rfl (.keep rfl rfl rfl (fun _ => rfl) fun _ => rfl) new rfl rfl
  | enrolled => exact .wrote _ _ rfl _ (.keep rfl rfl rfl (fun _ => rfl) fun _ => rfl) rfl rfl rfl rfl rfl
  | announced =>
    exact .quiet rfl (.goto (.release rfl rfl rfl rfl fun _ => rfl) rfl rfl rfl (by simp [Pc.live]) (by simp [Pc.enabling]))
  | connected n status =>
    obtain ⟨htasks,hcount,hlock,hr,hn⟩ := popConnection_frame s n (.disconnected "Worker session was replaced")
    refine .connected n status rfl ?_ hcount hlock hr ?_ ?_
    · simp only [updateTask, addConnection, htasks]
    · simp only [updateTask, addConnection, hn]
    · simp only [updateTask, addConnection, hn]
  | registered n status =>
    refine .quiet rfl ⟨.serving n,⟨⟨fun task => ⟨.serving n,task.connected,task.sent ++ [.registered n status]⟩,
      fun task => ⟨rfl,rfl⟩,rfl⟩,rfl,?_,fun _ _ hj => hj,?_⟩,rfl,rfl,rfl,fun _ => rfl,?_⟩
    · simp [Pc.holding]
    · simp [Pc.early]
    · simp [Pc.enabling]
  | beaten => exact .wrote _ _ rfl _ (.release rfl rfl rfl rfl (by simp [Pc.early])) rfl rfl rfl rfl rfl
  | popped n k =>
    obtain ⟨htasks,hcount,hlock,hr,hn⟩ := popConnection_frame s n (.disconnected "Worker disconnected")
    exact .popped n k rfl (.keep htasks hcount hlock (by simp [Pc.holding]) (by simp [Pc.early])) hr rfl hn
  | gone n k => exact .quiet rfl (disconnected_quiet (s := s) (u := s.release i) rfl rfl (.inr rfl) rfl rfl rfl n k)
  | published n k =>
    exact .quiet rfl (disconnected_quiet (s := s) (u := (s.note (.offline n)).release i) rfl rfl (.inr rfl) rfl rfl rfl n k)
  | wentOffline | switched => exact .wrote _ _ rfl _ (.keep rfl rfl rfl (fun _ => rfl) (by simp [Pc.early])) rfl rfl rfl rfl rfl
  | swept stale k =>
    obtain ⟨hhold,hearly,hlive,hread⟩ := nextStale_idle (stale.map NodeRecord.id) k
    exact .swept rfl stale _ (.keep rfl rfl rfl (by simp [hhold]) (by simp [hearly])) rfl rfl rfl hlive hread
  | enabled | disabled => exact .quiet rfl (.idle (u := s.release i) rfl rfl (.inr rfl) rfl rfl rfl rfl rfl rfl rfl)
  | dispatched n timeout taskId => exact .quiet rfl (dispatch_quiet n timeout taskId)
  | answered n r f taskId result => exact .quiet rfl (.idle (u := s.note _) rfl rfl (.inl rfl) rfl rfl rfl rfl rfl rfl rfl)
  | cancelled n r taskId => exact .quiet rfl (cancelProbe_quiet n r taskId)

theorem handle_quiet {n : NodeId} (hpc : s.pc? i = some (.serving n)) (now : Instant) (message : ClientMessage) :
    s.Quiet (s.handle i n now message) i (.serving n) := by
  -- a message that moves nothing leaves the socket where it is
  have hstay : ∀ u : NodeService, u.tasks = s.tasks → u.taskCount = s.taskCount → u.databaseLock = s.databaseLock →
      u.records = s.records → u.connections = s.connections → u.sessionCount = s.sessionCount →
      s.Quiet u i (.serving n) := by
    intro u htasks hcount hlock hr hc hn
    obtain ⟨task,htask,hserving⟩ := Option.map_eq_some_iff.mp hpc
    refine ⟨.serving n,⟨⟨fun task => { task with pc := .serving n },fun _ => ⟨rfl,rfl⟩,?_⟩,hcount,?_,?_,?_⟩,hr,hc,hn,id,?_⟩
    · have hsame : { task with pc := Pc.serving n } = task := by rw [← hserving]
      rw [htasks,htask,Option.map_some,hsame,← htask,Function.update_eq_self]
    · simp [Pc.holding]
    · exact fun j _ hj => hlock.trans hj
    · simp [Pc.early]
    · simp [Pc.enabling]
  have hreceive : ∀ taskId outcome event, s.Quiet (s.receiveResult n taskId outcome event) i (.serving n) := by
    intro taskId outcome event
    unfold receiveResult
    split
    · exact hstay _ rfl rfl rfl rfl rfl rfl
    · split
      · exact hstay _ rfl rfl rfl rfl rfl rfl
      · dsimp only
        split
        · exact hstay _ rfl rfl rfl rfl rfl rfl
        · split <;> exact hstay _ rfl rfl rfl rfl rfl rfl
  cases message with
  | heartbeat | capabilities =>
    exact .goto (.keep rfl rfl rfl (by simp [Pc.holding]) (by simp [Pc.early])) rfl rfl rfl (fun _ => rfl)
      (by simp [Pc.enabling])
  | result taskId result => exact hreceive taskId (.result result) none
  | error taskId code message =>
    exact hreceive taskId (.exception (.failed message)) (some (.taskFailed n taskId code))
  | hello | cancel => exact hstay _ rfl rfl rfl rfl rfl rfl

end Moves

/-- A step starts a task, resumes one, or is another step of one. -/
inductive Next (settings : Settings) (l : Label) (s t : NodeService) : Prop
  | spawned (pc : Pc) (label : ∀ j now fresh, l ≠ .run j now fresh) (state : t = s.spawn pc) (holding : pc.holding = false) (live : pc.live = false)
      (enabling : pc.enabling = none)
  | ran (i : TaskRef) (now : Instant) (fresh : TaskId) (pc : Pc) (label : l = .run i now fresh)
      (found : s.pc? i = some pc) (effect : s.Effect settings t i pc)
  | other (i : TaskRef) (pc : Pc) (label : ∀ j now fresh, l ≠ .run j now fresh) (found : s.pc? i = some pc)
      (quiet : s.Quiet t i pc)

theorem step_next {settings : Settings} {l : Label} {s t : NodeService} (h : step settings l s = some t) :
    s.Next settings l t := by
  cases l with
  | openSocket proof =>
    cases h
    exact .spawned _ (by simp) rfl rfl rfl rfl
  | sweep k now =>
    cases h
    exact .spawned _ (by simp) rfl rfl rfl rfl
  | setEnabled n enabled =>
    cases h
    exact .spawned _ (by simp) rfl rfl rfl rfl
  | receive i message now =>
    simp only [step] at h
    split at h
    next hpc =>
      cases h
      exact .other i _ (by simp) hpc (.goto (.keep rfl rfl rfl (by simp [Pc.holding]) fun _ => rfl) rfl rfl rfl
        (by simp [Pc.live]) (by simp [Pc.enabling]))
    next hpc =>
      cases h
      exact .other i _ (by simp) hpc (.idle rfl rfl (.inl rfl) rfl rfl rfl rfl rfl rfl rfl)
    next hpc =>
      cases h
      exact .other i _ (by simp) hpc (.idle rfl rfl (.inl rfl) rfl rfl rfl rfl rfl rfl rfl)
    next hpc =>
      cases h
      exact .other i _ (by simp) hpc (handle_quiet hpc now _)
    next hpc =>
      cases h
      exact .other i _ (by simp) hpc (leave_quiet rfl rfl rfl rfl rfl rfl _ _)
    · cases h
  | deliver i =>
    simp only [step] at h
    split at h
    next n m r sent htask =>
      have hpc : s.pc? i = some (.serving n) := by rw [pc?,htask]; rfl
      split at h
      · cases h
      next message rest hq =>
        cases h
        have hmove : ∀ sent' : List ServerMessage, s.Quiet { s with
            sessions := Function.update s.sessions r { s.sessions r with queue := rest }
            tasks := Function.update s.tasks i (some ⟨.serving n,some (m,r),sent'⟩) } i (.serving n) := by
          intro sent'
          refine ⟨.serving n,⟨⟨fun task => ⟨.serving n,task.connected,sent'⟩,fun _ => ⟨rfl,rfl⟩,?_⟩,rfl,?_,
            fun _ _ hj => hj,?_⟩,rfl,rfl,rfl,id,?_⟩
          · simp [htask]
          · simp [Pc.holding]
          · simp [Pc.early]
          · simp [Pc.enabling]
        refine .other i _ (by simp) hpc ?_
        simp only [updateTask, updateSession, htask, Option.map_some]
        cases message <;> exact hmove _
    · cases h
  | run i now fresh =>
    simp only [step] at h
    split at h
    next pc hpc => exact .ran i now fresh pc rfl hpc (resume_effect h)
    · cases h
  | timeout i =>
    simp only [step] at h
    split at h
    next hpc =>
      cases h
      exact .other i _ (by simp) hpc (.idle rfl rfl (.inl rfl) rfl rfl rfl rfl rfl rfl rfl)
    · cases h
  | fail i =>
    simp only [step] at h
    split at h
    · cases h
    · cases h
    next n r f taskId hpc =>
      cases h
      exact .other i _ (by simp) hpc
        (leave_quiet (s := s) (u := s.settle f .cancelled) rfl rfl rfl rfl rfl rfl _ _)
    next pc _ _ hpc =>
      cases h
      exact .other i _ (by simp) hpc (leave_quiet rfl rfl rfl rfl rfl rfl _ _)

end NodeService

end AgentGraph.Nodes
