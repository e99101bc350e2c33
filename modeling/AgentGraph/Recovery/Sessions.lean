import AgentGraph.Recovery.Ledger
import AgentGraph.Foundation.Transition

/-! # The server as a sequence of committed sessions

Each session block of the manager and of the recovery service is one step. A run's
task marks its run at most once and may report success only after that; a stop, a
shutdown, a run without a handle and the task's own handlers may end any run at any
moment. A restart takes the tasks and leaves the database.
-/
set_option autoImplicit false
namespace AgentGraph.Recovery
open Transition

/-- The session of `create_agent`. -/
def createAgentTransaction (cfg : Config) (store : Store) (modelRef : String) (graph : JsonObject) :
    Except Exc (Store × AgentId) :=
  match validateTeamGraph cfg store graph none with
  | .error error => .error error
  | .ok () =>
    let a := store.nextId
    let created : Store :=
      { store with
        agents := Function.update store.agents a (some ⟨.idle,modelRef,graph⟩),
        nextId := a + 1 }
    match validateTeamGraph cfg created graph (some a) with
    | .error error => .error error
    | .ok () => .ok (created,a)

/-- A team graph of another agent that refers to the agent. -/
def teamReferences (cfg : Config) (store : Store) (a : AgentId) : Bool :=
  (List.range store.nextId).any fun candidate =>
    match store.agents candidate with
    | some agent =>
      candidate != a &&
        match parseTeamGraph cfg.parseUuid cfg.maxWorkers agent.graphDefinition with
        | .ok team => team.nodes.any fun node => node.agentId == a
        | .error _ => false
    | none => false

/-- The runs that go with an agent row. -/
def ownedBy (store : Store) (a : AgentId) (r : RunId) : Bool :=
  match store.runs r with
  | some run => run.agentId == a
  | none => false

/-- The delete of an agent row with its cascades. -/
def deleteAgentRow (db : Database) (a : AgentId) : Database :=
  let gone := ownedBy db.store a
  let checkpoints := db.store.checkpoints.filter fun c => !gone c.runId
  { store :=
      { db.store with
        agents := Function.update db.store.agents a none,
        runs := fun r => if gone r then none else db.store.runs r,
        checkpoints := checkpoints,
        delegations := db.store.delegations.filter fun d => !(gone d.parentRunId || gone d.childRunId) },
    actions := db.actions.filter fun entry => !gone entry.runId,
    decisions := (db.decisions.filter fun decision => !gone decision.runId).map fun decision =>
      { decision with
        checkpointId := decision.checkpointId.filter fun c => checkpoints.any fun cp => cp.id == c } }

/-- The session of `delete_agent`. -/
def deleteAgentTransaction (cfg : Config) (db : Database) (a : AgentId) : Except Exc Database :=
  match db.store.agents a with
  | none => .error .agentNotFound
  | some _ =>
    if db.store.hasActiveForAgent a then
      .error (.lifecycleConflict "An active run prevents deleting this agent")
    else if teamReferences cfg db.store a then
      .error (.lifecycleConflict "A team graph references this agent")
    else .ok (deleteAgentRow db a)

/-- The session of `update_agent_graph`. -/
def updateAgentGraph (cfg : Config) (store : Store) (a : AgentId) (graph : JsonObject) : Except Exc Store :=
  match store.agents a with
  | none => .error .agentNotFound
  | some _ =>
    match validateTeamGraph cfg store graph (some a) with
    | .error error => .error error
    | .ok () => .ok (updateGraphTransaction store a graph)

/-- How far the task of a run has come. -/
inductive TaskPhase
  | created | marked
deriving DecidableEq, Repr

structure Sys where
  db : Database
  tasks : RunId → Option TaskPhase

/-- An empty database and no task. -/
def Sys.initial : Sys := ⟨⟨⟨fun _ => none,fun _ => none,[],[],0⟩,[],[]⟩,fun _ => none⟩

/-- The session blocks, and the end of the process. A run of `start_run` has no link
and one of `run_child` has its parent; `spawned` says that `create_task` was reached.
`finish` is the block of the three `_finish_*`, which the run's task, `stop_run`, a
child's caller and `shutdown` enter. -/
inductive Label
  | createAgent (modelRef : String) (graph : JsonObject)
  | updateAgentGraph (a : AgentId) (graph : JsonObject)
  | deleteAgent (a : AgentId)
  | startRun (a : AgentId) (inputText : String) (link : Option DelegationLink) (spawned : Bool)
  | markRunning (r : RunId) (now : Instant)
  | finish (r : RunId) (outcome : Terminal) (now : Instant)
  | recordActionIntent (r : RunId) (toolInvocationId : Option InvocationId) (actionType : String)
  | updateAction (entry : EntryId) (status : ActionLedgerStatus) (now : Instant)
  | recover (clock : RunId → Instant) (fault : Fault) (stale : List RunId)
  | failStale (now : Instant) (stale : List RunId)
  | restart

def toOption {ε α : Type} : Except ε α → Option α
  | .ok a => some a
  | .error _ => none

/-- The status check of `_mark_running` and of the three `_finish_*`. -/
def activeRow (store : Store) (r : RunId) : Bool :=
  match store.runs r with
  | some run => run.status.active
  | none => false

/-- Only the task of a run that it has marked reports its success. -/
def mayFinish (s : Sys) (r : RunId) : Terminal → Bool
  | .succeeded _ => s.tasks r == some .marked
  | .cancelled | .failed _ => true

/-- `list_stale` returns every stale row once. -/
def listsStale (db : Database) (stale : List RunId) : Bool :=
  decide stale.Nodup && (stale.all fun r => activeRow db.store r) &&
    (List.range db.store.nextId).all fun r => !activeRow db.store r || stale.contains r

/-- One committed session. A session that raises leaves the state, so only
`recover_stale_runs` is shown with its faults. -/
def step (cfg : Config) : Label → Sys → Option Sys
  | .createAgent modelRef graph, s =>
    (toOption (createAgentTransaction cfg s.db.store modelRef graph)).map fun created =>
      { s with db := { s.db with store := created.1 } }
  | .updateAgentGraph a graph, s =>
    (toOption (updateAgentGraph cfg s.db.store a graph)).map fun store =>
      { s with db := { s.db with store := store } }
  | .deleteAgent a, s =>
    (toOption (deleteAgentTransaction cfg s.db a)).map fun db => { s with db := db }
  | .startRun a inputText link spawned, s =>
    (toOption (startTransaction cfg s.db.store a inputText link)).map fun started =>
      { db := { s.db with store := started.1 },
        tasks := if spawned then Function.update s.tasks started.2 (some .created) else s.tasks }
  | .markRunning r now, s =>
    if s.tasks r = some .created ∧ activeRow s.db.store r = true then
      some { db := { s.db with store := markRunningTransaction cfg s.db.store r now },
             tasks := Function.update s.tasks r (some .marked) }
    else none
  | .finish r outcome now, s =>
    if activeRow s.db.store r = true ∧ mayFinish s r outcome = true then
      some { s with db := { s.db with store := finishTransaction cfg s.db.store r outcome now } }
    else none
  | .recordActionIntent r toolInvocationId actionType, s =>
    (recordActionIntent s.db r toolInvocationId actionType).map fun recorded => { s with db := recorded.1 }
  | .updateAction entry status now, s => some { s with db := updateAction s.db entry status now }
  | .recover clock fault stale, s =>
    if cfg.recovery = true ∧ listsStale s.db stale = true then
      some { s with db := (recoverStaleRuns cfg clock fault stale s.db).2.1 }
    else none
  | .failStale now stale, s =>
    if cfg.recovery = false ∧ listsStale s.db stale = true then
      some { s with db := failStaleRuns now stale s.db }
    else none
  | .restart, s => some { s with tasks := fun _ => none }

/-- The states reachable from the empty database. -/
abbrev Reachable (cfg : Config) (s : Sys) : Prop := Reaches (step cfg) anyStep Sys.initial s

theorem toOption_eq_some {ε α : Type} {x : Except ε α} {a : α} : toOption x = some a ↔ x = .ok a := by
  cases x <;> simp [toOption]

theorem activeRow_iff {store : Store} {r : RunId} :
    activeRow store r = true ↔ ∃ run, store.runs r = some run ∧ run.status.active = true := by
  unfold activeRow
  cases store.runs r <;> simp

/-- What a committed session was and what it wrote. -/
inductive Session (cfg : Config) (s : Sys) : Sys → Prop
  | agentCreated (modelRef : String) (graph : JsonObject) :
      Session cfg s { s with
        db := { s.db with
          store := { s.db.store with
            agents := Function.update s.db.store.agents s.db.store.nextId (some ⟨.idle,modelRef,graph⟩),
            nextId := s.db.store.nextId + 1 } } }
  | graphUpdated (a : AgentId) (graph : JsonObject) :
      Session cfg s { s with db := { s.db with store := updateGraphTransaction s.db.store a graph } }
  | agentDeleted (a : AgentId) (idle : s.db.store.hasActiveForAgent a = false) :
      Session cfg s { s with db := deleteAgentRow s.db a }
  | runStarted (a : AgentId) (inputText : String) (link : Option DelegationLink) (spawned : Bool)
      (store : Store) (r : RunId) (agent : AgentRecord) (started : Started cfg s.db.store store a inputText link r agent) :
      Session cfg s
        { db := { s.db with store := store },
          tasks := if spawned then Function.update s.tasks r (some .created) else s.tasks }
  | runMarked (r : RunId) (run : RunRecord) (now : Instant) (task : s.tasks r = some .created)
      (row : s.db.store.runs r = some run) (active : run.status.active = true) :
      Session cfg s
        { db := { s.db with store := markRunningTransaction cfg s.db.store r now },
          tasks := Function.update s.tasks r (some .marked) }
  | runFinished (r : RunId) (run : RunRecord) (outcome : Terminal) (now : Instant)
      (row : s.db.store.runs r = some run) (active : run.status.active = true)
      (may : mayFinish s r outcome = true) :
      Session cfg s { s with db := { s.db with store := finishTransaction cfg s.db.store r outcome now } }
  | actionRecorded (entry : ActionRecord) (row : (s.db.store.runs entry.runId).isSome)
      (fresh : entry.id = s.db.store.nextId) (intent : entry.status = .intentRecorded) :
      Session cfg s { s with
        db := { s.db with
          store := { s.db.store with nextId := s.db.store.nextId + 1 },
          actions := s.db.actions ++ [entry] } }
  | actionUpdated (entry : EntryId) (status : ActionLedgerStatus) (now : Instant) :
      Session cfg s { s with db := updateAction s.db entry status now }
  | recovered (clock : RunId → Instant) (stale : List RunId) (result : Database × List Recovered)
      (recovery : cfg.recovery = true) (lists : listsStale s.db stale = true)
      (ok : recoverLoop cfg clock none stale s.db = .ok result) :
      Session cfg s { s with db := result.1 }
  | raised : Session cfg s s
  | failedStale (now : Instant) (stale : List RunId) (recovery : cfg.recovery = false)
      (lists : listsStale s.db stale = true) :
      Session cfg s { s with db := failStaleRuns now stale s.db }
  | restarted : Session cfg s { s with tasks := fun _ => none }

/-- A raised statement fails the whole loop. -/
theorem recoverLoop_fault {cfg : Config} {clock : RunId → Instant} {n : Nat} {error : Exc}
    {stale : List RunId} {db : Database} : recoverLoop cfg clock (some (n,error)) stale db = .error error := by
  induction stale generalizing n db with
  | nil => cases n <;> rfl
  | cons r rest ih =>
    match n with
    | 0 => rfl
    | n + 1 =>
      simp only [recoverLoop]
      split
      · exact ih
      · simp [ih, bind, Except.bind]

theorem step_session {cfg : Config} {l : Label} {s t : Sys} (h : step cfg l s = some t) : Session cfg s t := by
  match l with
  | .createAgent modelRef graph =>
    obtain ⟨created,hc,rfl⟩ := Option.map_eq_some_iff.mp h
    have hc := toOption_eq_some.mp hc
    unfold createAgentTransaction at hc
    split at hc
    · cases hc
    dsimp only at hc
    split at hc
    · cases hc
    obtain rfl := Except.ok.inj hc
    exact .agentCreated modelRef graph
  | .updateAgentGraph a graph =>
    obtain ⟨store,hu,rfl⟩ := Option.map_eq_some_iff.mp h
    have hu := toOption_eq_some.mp hu
    unfold updateAgentGraph at hu
    split at hu
    · cases hu
    split at hu
    · cases hu
    obtain rfl := Except.ok.inj hu
    exact .graphUpdated a graph
  | .deleteAgent a =>
    obtain ⟨db,hd,rfl⟩ := Option.map_eq_some_iff.mp h
    have hd := toOption_eq_some.mp hd
    unfold deleteAgentTransaction at hd
    split at hd
    · cases hd
    split at hd
    · cases hd
    next hidle =>
      split at hd
      · cases hd
      obtain rfl := Except.ok.inj hd
      exact .agentDeleted a (by simpa using hidle)
  | .startRun a inputText link spawned =>
    obtain ⟨⟨store,r⟩,hs,rfl⟩ := Option.map_eq_some_iff.mp h
    obtain ⟨agent,hstarted⟩ := startTransaction_started (toOption_eq_some.mp hs)
    exact .runStarted a inputText link spawned store r agent hstarted
  | .markRunning r now =>
    simp only [step, Option.ite_none_right_eq_some, Option.some.injEq] at h
    obtain ⟨⟨htask,hactive⟩,rfl⟩ := h
    obtain ⟨run,hrow,hactive⟩ := activeRow_iff.mp hactive
    exact .runMarked r run now htask hrow hactive
  | .finish r outcome now =>
    simp only [step, Option.ite_none_right_eq_some, Option.some.injEq] at h
    obtain ⟨⟨hactive,hmay⟩,rfl⟩ := h
    obtain ⟨run,hrow,hactive⟩ := activeRow_iff.mp hactive
    exact .runFinished r run outcome now hrow hactive hmay
  | .recordActionIntent r toolInvocationId actionType =>
    obtain ⟨recorded,hr,rfl⟩ := Option.map_eq_some_iff.mp h
    simp only [recordActionIntent, Option.ite_none_right_eq_some, Option.some.injEq] at hr
    obtain ⟨hrow,rfl⟩ := hr
    exact .actionRecorded _ hrow rfl rfl
  | .updateAction entry status now =>
    obtain rfl := Option.some.inj h
    exact .actionUpdated entry status now
  | .recover clock fault stale =>
    simp only [step, Option.ite_none_right_eq_some, Option.some.injEq] at h
    obtain ⟨⟨hrecovery,hlists⟩,rfl⟩ := h
    match fault with
    | some (n,error) =>
      simp only [recoverStaleRuns, recoverLoop_fault]
      exact .raised
    | none =>
      match hloop : recoverLoop cfg clock none stale s.db with
      | .error error =>
        simp only [recoverStaleRuns, hloop]
        exact .raised
      | .ok result =>
        simp only [recoverStaleRuns, hloop]
        exact .recovered clock stale result hrecovery hlists hloop
  | .failStale now stale =>
    simp only [step, Option.ite_none_right_eq_some, Option.some.injEq] at h
    obtain ⟨⟨hrecovery,hlists⟩,rfl⟩ := h
    exact .failedStale now stale hrecovery hlists
  | .restart =>
    obtain rfl := Option.some.inj h
    exact .restarted

/-! ## A sample server -/

/-- A configuration with recovery and events, one character of text standing for a digest. -/
def sampleConfig : Config :=
  { parseUuid := fun _ => none, idText := fun n => Nat.repr n, sha256 := fun _ => "s",
    checkpointChecksum := fun _ => "c", maxWorkers := 4, maxParallel := 2, maxDepth := 3,
    maxContextChars := 100, runtimeDelay := false, recovery := true, events := true }

/-- Two agents: the run of the first succeeds, the run of the second is interrupted
by a restart and recovered. -/
def sampleLabels : List Label :=
  [.createAgent "auto" [],.createAgent "auto" [],.startRun 0 "hello" none true,.markRunning 2 5,
    .finish 2 (.succeeded ⟨"hi","local","small",none,none,none,none,none⟩) 6,
    .startRun 1 "again" none true,.restart]

/-- The server after the restart, before recovery. -/
def interrupted : Sys := after (step sampleConfig) sampleLabels Sys.initial (by decide)

theorem interrupted_reachable : Reachable sampleConfig interrupted :=
  after_reaches _ _ (execOk_anyStep _ _)

end AgentGraph.Recovery
