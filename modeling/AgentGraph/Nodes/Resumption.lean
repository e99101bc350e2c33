import AgentGraph.Nodes.Service

/-! # How a task goes on

`resume` inverted: each await with what it has found, and the state it leaves behind. The
proofs about single steps go through these cases and never unfold the program again.
-/
set_option autoImplicit false
namespace AgentGraph.Nodes

/-- The awaits that an error takes a task out of, other than a commit. -/
def Pc.fails : Pc → Bool
  | .enrollRead _ _ _ | .enrollRefresh _ _ | .heartbeatRead _ _ _ | .setEnabledRead _ _ | .setEnabledRefresh _ _ => true
  | _ => false

def Pc.answer : Pc → Option (TaskId × JsonObject)
  | .done (.probed taskId result) => some (taskId,result)
  | _ => none

/-- An error that a worker has reported. -/
def NodeError.reported : NodeError → Bool
  | .failed _ => true
  | _ => false

def Pc.reported : Pc → Bool
  | .done (.raised e) => e.reported
  | _ => false

namespace NodeService

/-- The task has waited for the database lock. -/
inductive Locks (settings : Settings) (now : Instant) : Pc → Pc → Prop
  | enroll (hello : WorkerHello) (proof : Option String) (verified : settings.verifyEnrollment hello.nodeId proof = true) :
    Locks settings now (.enrollLock hello proof) (.enrollRead hello proof now)
  | heartbeat (n : NodeId) (capabilities : Option JsonObject) (at' : Instant) :
    Locks settings now (.heartbeatLock n capabilities at') (.heartbeatRead n capabilities at')
  | offline (n : NodeId) (k : AfterDisconnect) : Locks settings now (.offlineLock n k) (.offlineRead n k)
  | setEnabled (n : NodeId) (enabled : Bool) : Locks settings now (.setEnabledLock n enabled) (.setEnabledRead n enabled)

/-- The task has found what it goes on with, and has changed nothing. -/
inductive Finds (s : NodeService) (fresh : TaskId) : Pc → Pc → Prop
  | unknown (hello : WorkerHello) (proof : Option String) (now : Instant) (found : s.records.get hello.nodeId = none) :
    Finds s fresh (.enrollRead hello proof now) (.enrollCommit hello now none)
  | known (hello : WorkerHello) (proof : Option String) (now : Instant) (record : NodeRecord)
      (found : s.records.get hello.nodeId = some record) (enabled : record.enabled = true)
      (proved : record.enrollmentHash = proof.getD "") :
    Finds s fresh (.enrollRead hello proof now) (.enrollCommit hello now (some record))
  | beating (n : NodeId) (capabilities : Option JsonObject) (now : Instant) (record : NodeRecord)
      (found : s.records.get n = some record) (enabled : record.enabled = true) :
    Finds s fresh (.heartbeatRead n capabilities now) (.heartbeatCommit n capabilities now record)
  | online (n : NodeId) (k : AfterDisconnect) (record : NodeRecord) (found : s.records.get n = some record)
      (enabled : record.enabled = true) : Finds s fresh (.offlineRead n k) (.offlineCommit n record k)
  | worker (n : NodeId) (enabled : Bool) (record : NodeRecord) (found : s.records.get n = some record)
      (role : record.role = .worker) : Finds s fresh (.setEnabledRead n enabled) (.setEnabledCommit n enabled record)
  | stale (cutoff : Instant) (k : AfterSweep) :
    Finds s fresh (.sweepRead cutoff k) (.sweepCommit (s.records.filter (NodeRecord.stale cutoff)) k)
  | crowded (n : NodeId) (status : NodeStatus) : Finds s fresh (.connect n status) (.disconnect n .socket)
  | probed (n : NodeId) (timeout : Option ℤ) (taskId : Option TaskId) :
    Finds s fresh (.swept (.probe n timeout taskId))
      (.dispatch n timeout (if taskId.getD "" = "" then fresh else taskId.getD fresh))

/-- How task `i` goes on from its await. -/
inductive Resumed (settings : Settings) (s : NodeService) (i : TaskRef) (now : Instant) (fresh : TaskId) : Pc → NodeService → Prop
  | locked {pc pc' : Pc} (locks : Locks settings now pc pc') (free : s.databaseLock = none) :
    Resumed settings s i now fresh pc ({ s with databaseLock := some i }.goto i pc')
  | went {pc pc' : Pc} (finds : s.Finds fresh pc pc') : Resumed settings s i now fresh pc (s.goto i pc')
  | left {pc : Pc} (e : NodeError) (fails : pc.fails = true) (own : e.reported = false) : Resumed settings s i now fresh pc (s.leave i pc e)
  | denied (hello : WorkerHello) (proof : Option String) :
    Resumed settings s i now fresh (.enrollLock hello proof) (s.goto i (.done (.raised .denied)))
  -- an enrolment
  | refused (hello : WorkerHello) (at' : Instant) (taken : s.records.insert (newRecord settings hello at') = none) :
    Resumed settings s i now fresh (.enrollCommit hello at' none) (s.leave i (.enrollCommit hello at' none) .integrity)
  | inserted (hello : WorkerHello) (at' : Instant) (records : Table)
      (new : s.records.insert (newRecord settings hello at') = some records) :
    Resumed settings s i now fresh (.enrollCommit hello at' none)
      ({ s with records := records }.goto i (.enrollRefresh hello.nodeId true))
  | enrolled (hello : WorkerHello) (at' : Instant) (read : NodeRecord) :
    Resumed settings s i now fresh (.enrollCommit hello at' (some read))
      ((s.update hello.nodeId (read.enroll hello at')).goto i (.enrollRefresh hello.nodeId false))
  | announced (n : NodeId) (created : Bool) (record : NodeRecord) (found : s.records.get n = some record) :
    Resumed settings s i now fresh (.enrollRefresh n created)
      (((s.note (if created then .registered n record.status else .connected n record.status)).release i).goto i
        (.connect n record.status))
  | connected (n : NodeId) (status : NodeStatus) :
    Resumed settings s i now fresh (.connect n status)
      (((s.popConnection n (.disconnected "Worker session was replaced")).addConnection n).updateTask i
        fun task => { task with pc := .register n status, connected := some (n,s.sessionCount) })
  | registered (n : NodeId) (status : NodeStatus) :
    Resumed settings s i now fresh (.register n status)
      (s.updateTask i fun task => { task with pc := .serving n, sent := task.sent ++ [.registered n status] })
  | beaten (n : NodeId) (capabilities : Option JsonObject) (at' : Instant) (read : NodeRecord) :
    Resumed settings s i now fresh (.heartbeatCommit n capabilities at' read)
      (((s.update n (read.heartbeat capabilities at')).release i).goto i (.serving n))
  -- a disconnection
  | popped (n : NodeId) (k : AfterDisconnect) :
    Resumed settings s i now fresh (.disconnect n k)
      ((s.popConnection n (.disconnected "Worker disconnected")).goto i (.offlineLock n k))
  | gone (n : NodeId) (k : AfterDisconnect) :
    Resumed settings s i now fresh (.offlineRead n k) ((s.release i).disconnected i n k)
  | wentOffline (n : NodeId) (read : NodeRecord) (k : AfterDisconnect) :
    Resumed settings s i now fresh (.offlineCommit n read k)
      ((s.update n (read.setStatus .offline)).goto i (.offlinePublish n k))
  | published (n : NodeId) (k : AfterDisconnect) :
    Resumed settings s i now fresh (.offlinePublish n k) (((s.note (.offline n)).release i).disconnected i n k)
  -- a sweep
  | swept (stale : List NodeRecord) (k : AfterSweep) :
    Resumed settings s i now fresh (.sweepCommit stale k) ((s.markOffline stale).goto i (nextStale (stale.map NodeRecord.id) k))
  | reported (k : AfterSweep) (outcome : Outcome) (unanswered : (Pc.done outcome).answer = none)
      (own : (Pc.done outcome).reported = false) :
    Resumed settings s i now fresh (.swept k) (s.goto i (.done outcome))
  -- `set_enabled`
  | switched (n : NodeId) (enabled : Bool) (read : NodeRecord) :
    Resumed settings s i now fresh (.setEnabledCommit n enabled read)
      ((s.update n (read.setEnabled enabled)).goto i (.setEnabledRefresh n enabled))
  | enabled (n : NodeId) (record : NodeRecord) :
    Resumed settings s i now fresh (.setEnabledRefresh n true) ((s.release i).goto i (.done (.info record)))
  | disabled (n : NodeId) (record : NodeRecord) :
    Resumed settings s i now fresh (.setEnabledRefresh n false) ((s.release i).goto i (.disconnect n (.disabled record)))
  -- a probe
  | dispatched (n : NodeId) (timeout : Option ℤ) (taskId : TaskId) :
    Resumed settings s i now fresh (.dispatch n timeout taskId) (s.dispatch settings i n timeout taskId)
  | answered (n : NodeId) (r : SessionRef) (f : FutureRef) (taskId : TaskId) (result : JsonObject)
      (future : s.futures f = .result result) :
    Resumed settings s i now fresh (.wait n r f taskId)
      ((s.note (.taskCompleted n taskId)).goto i (.done (.probed taskId result)))
  | failed (n : NodeId) (r : SessionRef) (f : FutureRef) (taskId : TaskId) (e : NodeError)
      (future : s.futures f = .exception e) : Resumed settings s i now fresh (.wait n r f taskId) (s.goto i (.done (.raised e)))
  | cancelled (n : NodeId) (r : SessionRef) (taskId : TaskId) :
    Resumed settings s i now fresh (.timedOut n r taskId) (s.cancelProbe settings i n r taskId)

variable {settings : Settings} {s t : NodeService} {i : TaskRef} {pc pc' : Pc} {now : Instant} {fresh : TaskId}

theorem acquire_locked (locks : Locks settings now pc pc') (h : s.acquire i pc' = some t) :
    s.Resumed settings i now fresh pc t := by
  unfold acquire at h
  split at h
  next free =>
    cases h
    exact .locked locks free
  · cases h

theorem afterSweep_resumed (k : AfterSweep) : s.Resumed settings i now fresh (.swept k) (s.afterSweep i fresh k) := by
  cases k with
  | liveness | list => exact .reported _ _ rfl rfl
  | get n =>
    simp only [afterSweep]
    split <;> exact .reported _ _ rfl rfl
  | probe n timeout taskId =>
    simp only [afterSweep]
    split
    · exact .reported _ _ rfl rfl
    · split
      · exact .reported _ _ rfl rfl
      · split
        · exact .reported _ _ rfl rfl
        · exact .went (.probed n timeout taskId)

theorem resume_cases (h : s.resume settings i now fresh pc = some t) : s.Resumed settings i now fresh pc t := by
  cases pc with
  | enrollLock hello proof =>
    simp only [resume] at h
    split at h
    next verified => exact acquire_locked (.enroll hello proof verified) h
    · split at h <;> cases h
      exact .denied hello proof
  | enrollRead hello proof now =>
    simp only [resume] at h
    split at h
    next found =>
      cases h
      exact .went (.unknown hello proof now found)
    next record found =>
      split at h
      · cases h
        exact .left _ rfl rfl
      next enabled =>
        split at h
        · cases h
          exact .left _ rfl rfl
        next proved =>
          cases h
          exact .went (.known hello proof now record found (by simpa using enabled) (by simpa using proved))
  | enrollCommit hello now existing =>
    cases existing with
    | none =>
      simp only [resume] at h
      split at h
      next taken =>
        cases h
        exact .refused hello now taken
      next records new =>
        cases h
        exact .inserted hello now records new
    | some read =>
      cases h
      exact .enrolled hello now read
  | enrollRefresh n created =>
    simp only [resume] at h
    split at h
    · cases h
      exact .left _ rfl rfl
    next record found =>
      cases h
      exact .announced n created record found
  | connect n status =>
    cases h
    unfold connect
    split
    · exact .went (.crowded n status)
    · exact .connected n status
  | register n status =>
    cases h
    exact .registered n status
  | heartbeatLock n capabilities now => exact acquire_locked (.heartbeat n capabilities now) h
  | heartbeatRead n capabilities now =>
    simp only [resume] at h
    split at h
    · cases h
      exact .left _ rfl rfl
    next record found =>
      split at h
      · cases h
        exact .left _ rfl rfl
      next enabled =>
        cases h
        exact .went (.beating n capabilities now record found (by simpa using enabled))
  | heartbeatCommit n capabilities now read =>
    cases h
    exact .beaten n capabilities now read
  | disconnect n k =>
    cases h
    exact .popped n k
  | offlineLock n k => exact acquire_locked (.offline n k) h
  | offlineRead n k =>
    simp only [resume] at h
    split at h
    · cases h
      exact .gone n k
    next record found =>
      split at h
      · cases h
        exact .gone n k
      next enabled =>
        cases h
        exact .went (.online n k record found (by simpa using enabled))
  | offlineCommit n read k =>
    cases h
    exact .wentOffline n read k
  | offlinePublish n k =>
    cases h
    exact .published n k
  | sweepRead cutoff k =>
    cases h
    exact .went (.stale cutoff k)
  | sweepCommit stale k =>
    cases h
    exact .swept stale k
  | swept k =>
    cases h
    exact afterSweep_resumed k
  | setEnabledLock n enabled => exact acquire_locked (.setEnabled n enabled) h
  | setEnabledRead n enabled =>
    simp only [resume] at h
    split at h
    · cases h
      exact .left _ rfl rfl
    next record found =>
      split at h
      · cases h
        exact .left _ rfl rfl
      next role =>
        cases h
        exact .went (.worker n enabled record found (not_not.mp role))
  | setEnabledCommit n enabled read =>
    cases h
    exact .switched n enabled read
  | setEnabledRefresh n enabled =>
    simp only [resume] at h
    split at h
    · cases h
      exact .left _ rfl rfl
    next record _ =>
      cases h
      cases enabled with
      | true => exact .enabled n record
      | false => exact .disabled n record
  | dispatch n timeout taskId =>
    cases h
    exact .dispatched n timeout taskId
  | wait n r f taskId =>
    simp only [resume] at h
    split at h
    next result future =>
      cases h
      exact .answered n r f taskId result future
    next e future =>
      cases h
      exact .failed n r f taskId e future
    · cases h
    · cases h
  | timedOut n r taskId =>
    cases h
    exact .cancelled n r taskId
  | hello | serving | done => cases h

end NodeService

end AgentGraph.Nodes
