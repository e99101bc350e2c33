import AgentGraph.Foundation.Transition
import AgentGraph.Nodes.Registry

/-! # `NodeService` and the worker sockets, between two awaits

A task is a worker socket, a sweep with what follows it (`list`, `get`, `probe` or
nothing), or a call of `set_enabled`. Its `Pc` is the await it is suspended in, and a
step runs it to the next one. The bodies under `_lock` never suspend. The database lock
is held across awaits; `mark_stale_offline` does not take it. A session of the database
reads a row in one step and writes the changed columns in a later one.
-/
set_option autoImplicit false
namespace AgentGraph.Nodes
open Transition

abbrev TaskRef := Nat

/-- What follows a sweep. -/
inductive AfterSweep
  | liveness
  | list
  | get (n : NodeId)
  | probe (n : NodeId) (timeout : Option ℤ) (taskId : Option TaskId)

/-- What follows a `disconnect`. -/
inductive AfterDisconnect
  | socket
  | sweep (rest : List NodeId) (k : AfterSweep)
  | disabled (record : NodeRecord)

inductive Outcome
  | closed
  | records (records : List NodeRecord)
  | info (record : NodeRecord)
  | probed (taskId : TaskId) (result : JsonObject)
  | raised (e : NodeError)

inductive Pc
  -- `_serve_worker_socket` up to the loop
  | hello (proof : Option String)
  | enrollLock (hello : WorkerHello) (proof : Option String)
  | enrollRead (hello : WorkerHello) (proof : Option String) (now : Instant)
  | enrollCommit (hello : WorkerHello) (now : Instant) (existing : Option NodeRecord)
  | enrollRefresh (n : NodeId) (created : Bool)
  | connect (n : NodeId) (status : NodeStatus)
  | register (n : NodeId) (status : NodeStatus)
  | serving (n : NodeId)
  -- `heartbeat`
  | heartbeatLock (n : NodeId) (capabilities : Option JsonObject) (now : Instant)
  | heartbeatRead (n : NodeId) (capabilities : Option JsonObject) (now : Instant)
  | heartbeatCommit (n : NodeId) (capabilities : Option JsonObject) (now : Instant) (read : NodeRecord)
  -- `disconnect` and `_set_status_if_enabled`
  | disconnect (n : NodeId) (k : AfterDisconnect)
  | offlineLock (n : NodeId) (k : AfterDisconnect)
  | offlineRead (n : NodeId) (k : AfterDisconnect)
  | offlineCommit (n : NodeId) (read : NodeRecord) (k : AfterDisconnect)
  | offlinePublish (n : NodeId) (k : AfterDisconnect)
  -- `mark_stale_offline`, and the read of `list`, `get` or `probe`
  | sweepRead (cutoff : Instant) (k : AfterSweep)
  | sweepCommit (stale : List NodeRecord) (k : AfterSweep)
  | swept (k : AfterSweep)
  -- `set_enabled`
  | setEnabledLock (n : NodeId) (enabled : Bool)
  | setEnabledRead (n : NodeId) (enabled : Bool)
  | setEnabledCommit (n : NodeId) (enabled : Bool) (read : NodeRecord)
  | setEnabledRefresh (n : NodeId) (enabled : Bool)
  -- `probe`
  | dispatch (n : NodeId) (timeout : Option ℤ) (taskId : TaskId)
  | wait (n : NodeId) (session : SessionRef) (future : FutureRef) (taskId : TaskId)
  | timedOut (n : NodeId) (session : SessionRef) (taskId : TaskId)
  | done (outcome : Outcome)

/-- A task; of a socket also the node and the session of its `connect`, and what it has sent. -/
structure Task where
  pc : Pc
  connected : Option (NodeId × SessionRef)
  sent : List ServerMessage

structure NodeService where
  records : Table
  connections : List (NodeId × SessionRef)
  sessions : SessionRef → Session
  sessionCount : Nat
  futures : FutureRef → Future
  futureCount : Nat
  recentTasks : List TaskId
  databaseLock : Option TaskRef
  tasks : TaskRef → Option Task
  taskCount : Nat
  events : List NodeEvent

inductive Label
  | openSocket (proof : Option String)
  /-- A text arrives; `none` is one that does not validate. -/
  | receive (i : TaskRef) (message : Option ClientMessage) (now : Instant)
  | deliver (i : TaskRef)
  | sweep (k : AfterSweep) (now : Instant)
  | setEnabled (n : NodeId) (enabled : Bool)
  /-- The task resumes; `fresh` is the identifier that it may generate. -/
  | run (i : TaskRef) (now : Instant) (fresh : TaskId)
  /-- The timer of `wait_for` fires. -/
  | timeout (i : TaskRef)
  /-- The await raises: a cancellation, a disconnect or a failed statement. -/
  | fail (i : TaskRef)

/-- The node whose socket the task is, once it has enrolled, until its `finally`. -/
def Pc.socketOf : Pc → Option NodeId
  | .connect n _ | .register n _ | .serving n | .heartbeatLock n _ _ | .heartbeatRead n _ _
  | .heartbeatCommit n _ _ _ => some n
  | _ => none

namespace NodeService

/-- A service that has just started. -/
def initial (records : Table) : NodeService :=
  ⟨records,[],fun _ => ⟨[],[]⟩,0,fun _ => .pending,0,[],none,fun _ => none,0,[]⟩

def pc? (s : NodeService) (i : TaskRef) : Option Pc := (s.tasks i).map Task.pc

def spawn (s : NodeService) (pc : Pc) : NodeService :=
  { s with
    tasks := Function.update s.tasks s.taskCount (some ⟨pc,none,[]⟩)
    taskCount := s.taskCount + 1 }

def updateTask (s : NodeService) (i : TaskRef) (f : Task → Task) : NodeService :=
  { s with tasks := Function.update s.tasks i ((s.tasks i).map f) }

def goto (s : NodeService) (i : TaskRef) (pc : Pc) : NodeService := s.updateTask i fun task => { task with pc := pc }

def note (s : NodeService) (event : NodeEvent) : NodeService := { s with events := s.events ++ [event] }

/-- The database lock is released when its holder leaves the block. -/
def release (s : NodeService) (i : TaskRef) : NodeService :=
  { s with databaseLock := if s.databaseLock = some i then none else s.databaseLock }

/-- The socket leaves its loop: the `finally` of a socket that has a node disconnects it. -/
def leave (s : NodeService) (i : TaskRef) (pc : Pc) (e : NodeError) : NodeService :=
  match pc.socketOf with
  | some n => (s.release i).goto i (.disconnect n .socket)
  | none => (s.release i).goto i (.done (.raised e))

/-- The task takes the database lock if it is free. -/
def acquire (s : NodeService) (i : TaskRef) (pc : Pc) : Option NodeService :=
  match s.databaseLock with
  | none => some ({ s with databaseLock := some i }.goto i pc)
  | some _ => none

def update (s : NodeService) (n : NodeId) (f : NodeRecord → NodeRecord) : NodeService :=
  { s with records := s.records.update n f }

def updateSession (s : NodeService) (r : SessionRef) (f : Session → Session) : NodeService :=
  { s with sessions := Function.update s.sessions r (f (s.sessions r)) }

/-- `set_result`, `set_exception` or `cancel` on a future that is not done. -/
def settle (s : NodeService) (f : FutureRef) (outcome : Future) : NodeService :=
  { s with futures := if (s.futures f).done then s.futures else Function.update s.futures f outcome }

/-- `_fail_pending`. -/
def failPending (s : NodeService) (r : SessionRef) (e : NodeError) : NodeService :=
  { s with
    futures := (s.sessions r).pending.foldl (fun futures entry =>
      if (futures entry.2).done then futures else Function.update futures entry.2 (.exception e)) s.futures
    sessions := Function.update s.sessions r { s.sessions r with pending := [] } }

/-- `pending.pop(task_id, None)`. -/
def forget (s : NodeService) (r : SessionRef) (taskId : TaskId) : NodeService :=
  s.updateSession r fun session => { session with pending := session.pending.filter fun entry => entry.1 != taskId }

/-- A new future is entered under the task id, in place of one that is there already. -/
def register (s : NodeService) (r : SessionRef) (taskId : TaskId) : NodeService :=
  { s.forget r taskId with
    futures := Function.update s.futures s.futureCount .pending
    futureCount := s.futureCount + 1 }.updateSession r fun session =>
      { session with pending := session.pending ++ [(taskId,s.futureCount)] }

def enqueue (s : NodeService) (r : SessionRef) (message : ServerMessage) : NodeService :=
  s.updateSession r fun session => { session with queue := session.queue ++ [message] }

/-- `_connections.pop(node_id, None)` and `_fail_pending` of what it returns. -/
def popConnection (s : NodeService) (n : NodeId) (e : NodeError) : NodeService :=
  match s.connections.lookup n with
  | none => s
  | some r => { s with connections := s.connections.filter fun entry => entry.1 != n }.failPending r e

/-- A new session becomes the current one of its node. -/
def addConnection (s : NodeService) (n : NodeId) : NodeService :=
  { s with
    connections := s.connections ++ [(n,s.sessionCount)]
    sessions := Function.update s.sessions s.sessionCount ⟨[],[]⟩
    sessionCount := s.sessionCount + 1 }

/-- `connect`, and the socket goes on to announce its registration. -/
def connect (s : NodeService) (settings : Settings) (i : TaskRef) (n : NodeId) (status : NodeStatus) : NodeService :=
  if (s.connections.lookup n).isNone && decide (settings.maxConnections ≤ s.connections.length) then
    s.goto i (.disconnect n .socket)
  else
    ((s.popConnection n (.disconnected "Worker session was replaced")).addConnection n).updateTask i
      fun task => { task with pc := .register n status, connected := some (n,s.sessionCount) }

/-- `receive_result`: the future that waits under the task id in the current session. -/
def receiveResult (s : NodeService) (n : NodeId) (taskId : TaskId) (outcome : Future) (event : Option NodeEvent) :
    NodeService :=
  match s.connections.lookup n with
  | none => s
  | some r =>
    match (s.sessions r).pending.lookup taskId with
    | none => s
    | some f =>
      let popped := s.forget r taskId
      if (s.futures f).done then popped
      else
        match event with
        | none => popped.settle f outcome
        | some event => (popped.settle f outcome).note event

/-- `_handle` for a text that validates. -/
def handle (s : NodeService) (i : TaskRef) (n : NodeId) (now : Instant) : ClientMessage → NodeService
  | .heartbeat => s.goto i (.heartbeatLock n none now)
  | .capabilities capabilities => s.goto i (.heartbeatLock n (some capabilities) now)
  | .result taskId result => s.receiveResult n taskId (.result result) none
  | .error taskId code message =>
    s.receiveResult n taskId (.exception (.failed message)) (some (.taskFailed n taskId code))
  | .hello _ | .cancel _ => s

/-- After a sweep: the loop over the stale nodes, or what the sweep was for. -/
def nextStale (rest : List NodeId) (k : AfterSweep) : Pc :=
  match rest with
  | [] => .swept k
  | m :: ms => .disconnect m (.sweep ms k)

/-- `disconnect` of a node returns. -/
def disconnected (s : NodeService) (i : TaskRef) (n : NodeId) : AfterDisconnect → NodeService
  | .socket => s.goto i (.done .closed)
  | .sweep rest k => (s.note (.offline n)).goto i (nextStale rest k)
  | .disabled record => (s.note (.disabled n)).goto i (.done (.info record))

/-- The session part of `probe`. -/
def dispatch (s : NodeService) (settings : Settings) (i : TaskRef) (n : NodeId) (timeout : Option ℤ) (taskId : TaskId) :
    NodeService :=
  if s.recentTasks.contains taskId then s.goto i (.done (.raised .duplicate))
  else
    match s.connections.lookup n with
    | none => s.goto i (.done (.raised (.unavailable "Worker is unavailable")))
    | some r =>
      if settings.maxTasks ≤ (s.sessions r).pending.length then
        s.goto i (.done (.raised (.unavailable "Worker task limit reached")))
      else
        let registered := s.register r taskId
        match taskRequest taskId (orDefault timeout settings.taskTimeout) with
        -- the future stays registered
        | none => registered.goto i (.done (.raised .validation))
        | some request =>
          if settings.maxMessages ≤ (s.sessions r).queue.length then
            (registered.forget r taskId).goto i (.done (.raised (.unavailable "Worker command queue is full")))
          else
            let recent := s.recentTasks ++ [taskId]
            ({ registered.enqueue r request with
              recentTasks := recent.drop (recent.length - settings.maxTasks * settings.maxConnections) }.note
                (.taskRequested n taskId)).goto i (.wait n r s.futureCount taskId)

/-- The handler of the timeout in `probe`. -/
def cancelProbe (s : NodeService) (settings : Settings) (i : TaskRef) (n : NodeId) (r : SessionRef) (taskId : TaskId) :
    NodeService :=
  let popped := s.forget r taskId
  let cancelled :=
    if (s.sessions r).queue.length < settings.maxMessages then popped.enqueue r (.taskCancel taskId) else popped
  (cancelled.note (.taskTimedOut n taskId)).goto i (.done (.raised .timeout))

/-- What a sweep was for, on the rows read after it. -/
def afterSweep (s : NodeService) (i : TaskRef) (fresh : TaskId) : AfterSweep → NodeService
  | .liveness => s.goto i (.done .closed)
  | .list => s.goto i (.done (.records s.records))
  | .get n =>
    match s.records.get n with
    | none => s.goto i (.done (.raised .notFound))
    | some record => s.goto i (.done (.info record))
  | .probe n timeout taskId =>
    match s.records.get n with
    | none => s.goto i (.done (.raised .notFound))
    | some record =>
      if !record.enabled || record.status == .disabled then s.goto i (.done (.raised .disabled))
      else if record.status != .online then s.goto i (.done (.raised (.unavailable "Worker is offline")))
      -- an empty identifier is false
      else s.goto i (.dispatch n timeout (if taskId.getD "" = "" then fresh else taskId.getD fresh))

/-- The rows of a stale sweep are written, each in its changed column. -/
def markOffline (s : NodeService) (stale : List NodeRecord) : NodeService :=
  { s with records := stale.foldl (fun table read => table.update read.id (read.setStatus .offline)) s.records }

/-- The task runs from its await to the next one. -/
def resume (s : NodeService) (settings : Settings) (i : TaskRef) (now : Instant) (fresh : TaskId) (pc : Pc) :
    Option NodeService :=
  match pc with
  | .enrollLock hello proof =>
    if settings.verifyEnrollment hello.nodeId proof then s.acquire i (.enrollRead hello proof now)
    -- the lock is taken and given back
    else if s.databaseLock.isNone then some (s.goto i (.done (.raised .denied)))
    else none
  | .enrollRead hello proof now =>
    match s.records.get hello.nodeId with
    | none => some (s.goto i (.enrollCommit hello now none))
    | some record =>
      if !record.enabled then some (s.leave i pc .disabled)
      else if record.enrollmentHash != proof.getD "" then some (s.leave i pc .denied)
      else some (s.goto i (.enrollCommit hello now (some record)))
  | .enrollCommit hello now none =>
    match s.records.insert (newRecord settings hello now) with
    | none => some (s.leave i pc .integrity)
    | some records => some ({ s with records := records }.goto i (.enrollRefresh hello.nodeId true))
  | .enrollCommit hello now (some read) =>
    some ((s.update hello.nodeId (read.enroll hello now)).goto i (.enrollRefresh hello.nodeId false))
  | .enrollRefresh n created =>
    match s.records.get n with
    | none => some (s.leave i pc .integrity)
    | some record =>
      some (((s.note (if created then .registered n record.status else .connected n record.status)).release i).goto i
        (.connect n record.status))
  | .connect n status => some (s.connect settings i n status)
  | .register n status =>
    some (s.updateTask i fun task => { task with pc := .serving n, sent := task.sent ++ [.registered n status] })
  | .heartbeatLock n capabilities now => s.acquire i (.heartbeatRead n capabilities now)
  | .heartbeatRead n capabilities now =>
    match s.records.get n with
    | none => some (s.leave i pc .notFound)
    | some record =>
      if !record.enabled then some (s.leave i pc .disabled)
      else some (s.goto i (.heartbeatCommit n capabilities now record))
  | .heartbeatCommit n capabilities now read =>
    some (((s.update n (read.heartbeat capabilities now)).release i).goto i (.serving n))
  | .disconnect n k => some ((s.popConnection n (.disconnected "Worker disconnected")).goto i (.offlineLock n k))
  | .offlineLock n k => s.acquire i (.offlineRead n k)
  | .offlineRead n k =>
    match s.records.get n with
    | none => some ((s.release i).disconnected i n k)
    | some record =>
      if !record.enabled then some ((s.release i).disconnected i n k)
      else some (s.goto i (.offlineCommit n record k))
  | .offlineCommit n read k => some ((s.update n (read.setStatus .offline)).goto i (.offlinePublish n k))
  | .offlinePublish n k => some (((s.note (.offline n)).release i).disconnected i n k)
  | .sweepRead cutoff k => some (s.goto i (.sweepCommit (s.records.filter (NodeRecord.stale cutoff)) k))
  | .sweepCommit stale k => some ((s.markOffline stale).goto i (nextStale (stale.map NodeRecord.id) k))
  | .swept k => some (s.afterSweep i fresh k)
  | .setEnabledLock n enabled => s.acquire i (.setEnabledRead n enabled)
  | .setEnabledRead n enabled =>
    match s.records.get n with
    | none => some (s.leave i pc .notFound)
    | some record =>
      if record.role ≠ .worker then some (s.leave i pc .control)
      else some (s.goto i (.setEnabledCommit n enabled record))
  | .setEnabledCommit n enabled read =>
    some ((s.update n (read.setEnabled enabled)).goto i (.setEnabledRefresh n enabled))
  | .setEnabledRefresh n enabled =>
    match s.records.get n with
    | none => some (s.leave i pc .integrity)
    | some record =>
      some ((s.release i).goto i (if enabled then .done (.info record) else .disconnect n (.disabled record)))
  | .dispatch n timeout taskId => some (s.dispatch settings i n timeout taskId)
  | .wait n _ f taskId =>
    match s.futures f with
    | .result result => some ((s.note (.taskCompleted n taskId)).goto i (.done (.probed taskId result)))
    | .exception e => some (s.goto i (.done (.raised e)))
    | .pending | .cancelled => none
  | .timedOut n r taskId => some (s.cancelProbe settings i n r taskId)
  | .hello _ | .serving _ | .done _ => none

def step (settings : Settings) (l : Label) (s : NodeService) : Option NodeService :=
  match l with
  | .openSocket proof => some (s.spawn (.hello proof))
  | .receive i message now =>
    match s.pc? i, message with
    | some (.hello proof), some (.hello hello) => some (s.goto i (.enrollLock hello proof))
    | some (.hello _), some _ => some (s.goto i (.done .closed))
    | some (.hello _), none => some (s.goto i (.done (.raised .validation)))
    | some (.serving n), some message => some (s.handle i n now message)
    | some (.serving n), none => some (s.leave i (.serving n) .validation)
    | _, _ => none
  | .deliver i =>
    match s.tasks i with
    | some ⟨.serving _,some (_,r),_⟩ =>
      match (s.sessions r).queue with
      | [] => none
      | message :: rest =>
        some ((s.updateSession r fun session => { session with queue := rest }).updateTask i fun task =>
          -- a `TaskCancel` is taken from the queue and not sent
          match message with
          | .taskCancel _ => task
          | message => { task with sent := task.sent ++ [message] })
    | _ => none
  | .sweep k now => some (s.spawn (.sweepRead (now - settings.heartbeatTimeout) k))
  | .setEnabled n enabled => some (s.spawn (.setEnabledLock n enabled))
  | .run i now fresh =>
    match s.pc? i with
    | some pc => s.resume settings i now fresh pc
    | none => none
  | .timeout i =>
    match s.pc? i with
    -- also when the future is done and the task has not resumed yet
    | some (.wait n r f taskId) => some ((s.settle f .cancelled).goto i (.timedOut n r taskId))
    | _ => none
  | .fail i =>
    match s.pc? i with
    | none | some (.done _) => none
    | some (.wait n r f taskId) => some ((s.settle f .cancelled).leave i (.wait n r f taskId) .cancelled)
    | some pc => some (s.leave i pc .cancelled)

end NodeService

end AgentGraph.Nodes
