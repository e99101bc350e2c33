import AgentGraph.Persistence.Store

/-! # What the transactions of the manager write

One lemma for each table a transaction touches. A row of the run table is created
once, under a fresh identifier, and never deleted; the specification of a run and
its link to a parent never change.
-/
set_option autoImplicit false
namespace AgentGraph

variable {cfg : Config} {store store' : Store} {a : AgentId} {r q : RunId} {now : Instant}

namespace Store

@[simp] theorem updateAgent_runs (f : AgentRecord → AgentRecord) : (store.updateAgent a f).runs = store.runs := rfl
@[simp] theorem updateAgent_checkpoints (f : AgentRecord → AgentRecord) :
    (store.updateAgent a f).checkpoints = store.checkpoints := rfl
@[simp] theorem updateAgent_delegations (f : AgentRecord → AgentRecord) :
    (store.updateAgent a f).delegations = store.delegations := rfl
@[simp] theorem updateAgent_nextId (f : AgentRecord → AgentRecord) :
    (store.updateAgent a f).nextId = store.nextId := rfl
@[simp] theorem updateRun_agents (f : RunRecord → RunRecord) : (store.updateRun r f).agents = store.agents := rfl
@[simp] theorem updateRun_checkpoints (f : RunRecord → RunRecord) :
    (store.updateRun r f).checkpoints = store.checkpoints := rfl
@[simp] theorem updateRun_delegations (f : RunRecord → RunRecord) :
    (store.updateRun r f).delegations = store.delegations := rfl
@[simp] theorem updateRun_nextId (f : RunRecord → RunRecord) : (store.updateRun r f).nextId = store.nextId := rfl

theorem updateRun_runs (f : RunRecord → RunRecord) :
    (store.updateRun r f).runs q = if q = r then (store.runs r).map f else store.runs q := by
  by_cases h : q = r
  · subst h; simp [updateRun]
  · simp [updateRun,h]

end Store

/-! ## Checkpoints -/

@[simp] theorem createCheckpoint_runs (reason : CheckpointReason) (state : JsonObject) :
    (createCheckpoint cfg store r reason state).runs = store.runs := rfl
@[simp] theorem createCheckpoint_agents (reason : CheckpointReason) (state : JsonObject) :
    (createCheckpoint cfg store r reason state).agents = store.agents := rfl
@[simp] theorem createCheckpoint_delegations (reason : CheckpointReason) (state : JsonObject) :
    (createCheckpoint cfg store r reason state).delegations = store.delegations := rfl
@[simp] theorem createCheckpoint_nextId (reason : CheckpointReason) (state : JsonObject) :
    (createCheckpoint cfg store r reason state).nextId = store.nextId + 1 := rfl

@[simp] theorem createLifecycleCheckpoint_runs (reason : CheckpointReason) :
    (createLifecycleCheckpoint cfg store r reason).runs = store.runs := by
  unfold createLifecycleCheckpoint
  split <;> rfl

@[simp] theorem createLifecycleCheckpoint_agents (reason : CheckpointReason) :
    (createLifecycleCheckpoint cfg store r reason).agents = store.agents := by
  unfold createLifecycleCheckpoint
  split <;> rfl

@[simp] theorem createLifecycleCheckpoint_delegations (reason : CheckpointReason) :
    (createLifecycleCheckpoint cfg store r reason).delegations = store.delegations := by
  unfold createLifecycleCheckpoint
  split <;> rfl

theorem createLifecycleCheckpoint_nextId (cfg : Config) (store : Store) (r : RunId) (reason : CheckpointReason) :
    store.nextId ≤ (createLifecycleCheckpoint cfg store r reason).nextId := by
  unfold createLifecycleCheckpoint
  split <;> simp

/-- A lifecycle transaction adds at most one checkpoint, of its own run and reason. -/
theorem createLifecycleCheckpoint_checkpoints (cfg : Config) (store : Store) (r : RunId) (reason : CheckpointReason) :
    ∃ new, (createLifecycleCheckpoint cfg store r reason).checkpoints = store.checkpoints ++ new ∧
      (∀ cp ∈ new, cp.runId = r ∧ cp.reason = reason) ∧
      new.length = if cfg.recovery && (store.runs r).isSome then 1 else 0 := by
  unfold createLifecycleCheckpoint
  split
  next run hr hs => exact ⟨_,rfl,by simp,by simp [hr,hs]⟩
  next hn =>
    refine ⟨[],by simp,by simp,?_⟩
    cases hr : cfg.recovery <;> cases hs : store.runs r <;> simp
    exact hn _ hr hs

/-! ## The transactions -/

theorem markRunningTransaction_runs :
    (markRunningTransaction cfg store r now).runs q =
      if q = r then (store.runs r).map fun run => { run with status := .running, startedAt := some now }
      else store.runs q := by
  simp [markRunningTransaction,Store.updateRun_runs]

@[simp] theorem markRunningTransaction_agents : (markRunningTransaction cfg store r now).agents = store.agents := by
  simp [markRunningTransaction]

@[simp] theorem markRunningTransaction_delegations :
    (markRunningTransaction cfg store r now).delegations = store.delegations := by
  simp [markRunningTransaction]

theorem markRunningTransaction_nextId : store.nextId ≤ (markRunningTransaction cfg store r now).nextId :=
  createLifecycleCheckpoint_nextId cfg (store.updateRun r _) r _

theorem finishTransaction_runs {outcome : Terminal} :
    (finishTransaction cfg store r outcome now).runs q =
      if q = r then (store.runs r).map (outcome.assign now) else store.runs q := by
  unfold finishTransaction
  cases h : store.runs r with
  | none =>
    by_cases hq : q = r
    · simp [hq,h]
    · simp [hq]
  | some run => simp [Store.updateRun_runs,h]

@[simp] theorem finishTransaction_delegations {outcome : Terminal} :
    (finishTransaction cfg store r outcome now).delegations = store.delegations := by
  unfold finishTransaction
  cases store.runs r <;> simp

theorem finishTransaction_nextId {outcome : Terminal} :
    store.nextId ≤ (finishTransaction cfg store r outcome now).nextId := by
  unfold finishTransaction
  cases store.runs r with
  | none => exact le_rfl
  | some run => exact createLifecycleCheckpoint_nextId cfg ((store.updateRun r _).updateAgent _ _) r _

@[simp] theorem updateGraphTransaction_runs {graph : JsonObject} :
    (updateGraphTransaction store a graph).runs = store.runs := rfl
@[simp] theorem updateGraphTransaction_checkpoints {graph : JsonObject} :
    (updateGraphTransaction store a graph).checkpoints = store.checkpoints := rfl
@[simp] theorem updateGraphTransaction_delegations {graph : JsonObject} :
    (updateGraphTransaction store a graph).delegations = store.delegations := rfl
@[simp] theorem updateGraphTransaction_nextId {graph : JsonObject} :
    (updateGraphTransaction store a graph).nextId = store.nextId := rfl

/-- The row `_start_run` inserts. -/
def newRun (cfg : Config) (a : AgentId) (agent : AgentRecord) (inputText : String) : RunRecord :=
  let run := queuedRun a inputText
  if cfg.recovery then { run with executionSpec := some (executionSpec cfg agent inputText) } else run

@[simp] theorem newRun_status {agent : AgentRecord} {inputText : String} :
    (newRun cfg a agent inputText).status = .queued := by
  unfold newRun
  split <;> rfl

@[simp] theorem newRun_agentId {agent : AgentRecord} {inputText : String} :
    (newRun cfg a agent inputText).agentId = a := by
  unfold newRun
  split <;> rfl

@[simp] theorem newRun_inputText {agent : AgentRecord} {inputText : String} :
    (newRun cfg a agent inputText).inputText = inputText := by
  unfold newRun
  split <;> rfl

/-- What a committed `_start_run` transaction checked and wrote. -/
structure Started (cfg : Config) (store store' : Store) (a : AgentId) (inputText : String)
    (link : Option DelegationLink) (r : RunId) (agent : AgentRecord) : Prop where
  agentRow : store.agents a = some agent
  valid : validateTeamGraph cfg store agent.graphDefinition (some a) = .ok ()
  idle : store.hasActiveForAgent a = false
  allowed : ∀ l, link = some l → linkAllowed store l = true
  fresh : store.nextId = r
  runs : store'.runs = Function.update store.runs r (some (newRun cfg a agent inputText))
  agents : store'.agents = Function.update store.agents a (some { agent with status := .running })
  delegations : store'.delegations = store.delegations ++
    (link.map fun l => (⟨l.parentRunId,r,l.nodeId,l.depth⟩ : DelegationRecord)).toList
  checkpoints : store'.checkpoints = store.checkpoints ++
    if cfg.recovery then [⟨r + 1,r,((store.checkpointsOf r).foldl (fun m c => max m c.sequence) 0) + 1,
      checkpointFormatVersion,.created,checkpointState cfg r (executionSpec cfg agent inputText) .queued,
      cfg.checkpointChecksum (checkpointState cfg r (executionSpec cfg agent inputText) .queued)⟩] else []
  nextId : store.nextId < store'.nextId

theorem insertRun_nextId {agent : AgentRecord} {inputText : String} :
    store.nextId < (insertRun cfg store a agent inputText).nextId := by
  unfold insertRun
  dsimp only
  split
  · exact Nat.lt_succ_of_lt (Nat.lt_succ_self _)
  · exact Nat.lt_succ_self _

theorem startTransaction_started {inputText : String} {link : Option DelegationLink}
    (h : startTransaction cfg store a inputText link = .ok (store',r)) :
    ∃ agent, Started cfg store store' a inputText link r agent := by
  unfold startTransaction at h
  split at h
  · cases h
  next agent ha =>
    split at h
    · cases h
    next hv =>
      split at h
      · cases h
      next hi =>
        split at h
        next hl =>
          cases h
          refine ⟨agent,ha,hv,by simpa using hi,fun l he => by simpa [he] using hl,rfl,?_,?_,?_,?_,?_⟩
          case refine_5 => cases link <;> exact insertRun_nextId
          all_goals
            cases hr : cfg.recovery <;> cases link <;>
              simp [addDelegation,insertRun,newRun,hr,Store.updateAgent,ha,createCheckpoint,Store.checkpointsOf]
        next => cases h

/-! ## Terminal checkpoints -/

/-- Checkpoints of a run with a terminal reason. -/
def Store.terminalCheckpoints (store : Store) (r : RunId) : List CheckpointRecord :=
  (store.checkpointsOf r).filter fun cp => cp.reason.terminal

theorem Store.terminalCheckpoints_append {new : List CheckpointRecord}
    (h : store'.checkpoints = store.checkpoints ++ new) (r : RunId) :
    store'.terminalCheckpoints r = store.terminalCheckpoints r ++
      new.filter fun cp => cp.runId == r && cp.reason.terminal := by
  simp [Store.terminalCheckpoints,Store.checkpointsOf,h,List.filter_filter,Bool.and_comm]

/-- Checkpoints of other runs or with another reason do not count. -/
theorem Store.terminalCheckpoints_same {new : List CheckpointRecord}
    (h : store'.checkpoints = store.checkpoints ++ new)
    (hn : ∀ cp ∈ new, cp.runId ≠ r ∨ cp.reason.terminal = false) :
    store'.terminalCheckpoints r = store.terminalCheckpoints r := by
  have hnil : (new.filter fun cp => cp.runId == r && cp.reason.terminal) = [] := by
    rw [List.filter_eq_nil_iff]
    intro cp hcp
    rcases hn cp hcp with h | h <;> simp [h]
  rw [Store.terminalCheckpoints_append h, hnil, List.append_nil]

/-! ## Soundness of the tables -/

/-- Rows refer to existing runs, and identifiers from `nextId` on are unused. -/
structure Store.Sound (store : Store) : Prop where
  runs : ∀ r, store.nextId ≤ r → store.runs r = none
  checkpoints : ∀ cp ∈ store.checkpoints, (store.runs cp.runId).isSome
  delegations : ∀ d ∈ store.delegations,
    (store.runs d.parentRunId).isSome ∧ (store.runs d.childRunId).isSome ∧ (d.parentRunId : Nat) < d.childRunId
  parent : ∀ d ∈ store.delegations, ∀ d' ∈ store.delegations, d.childRunId = d'.childRunId → d = d'

/-- Rows are never deleted, and what a run executes never changes. -/
structure Store.Grows (store store' : Store) : Prop where
  runs : ∀ r run, store.runs r = some run → ∃ run', store'.runs r = some run' ∧
    run'.agentId = run.agentId ∧ run'.inputText = run.inputText ∧ run'.executionSpec = run.executionSpec
  delegations : ∀ d ∈ store.delegations, d ∈ store'.delegations
  checkpoints : ∀ cp ∈ store.checkpoints, cp ∈ store'.checkpoints

/-- One committed transaction, or none. -/
inductive Commit (cfg : Config) (store : Store) : Store → Prop
  | none : Commit cfg store store
  | start (a : AgentId) (inputText : String) (link : Option DelegationLink) (store' : Store) (r : RunId)
      (h : startTransaction cfg store a inputText link = .ok (store',r)) : Commit cfg store store'
  | mark (r : RunId) (now : Instant) : Commit cfg store (markRunningTransaction cfg store r now)
  | finish (r : RunId) (outcome : Terminal) (now : Instant) :
      Commit cfg store (finishTransaction cfg store r outcome now)
  | update (a : AgentId) (graph : JsonObject) : Commit cfg store (updateGraphTransaction store a graph)

theorem Store.Sound.lt {r : Nat} (h : store.Sound) (hr : (store.runs r).isSome) : (r : Nat) < store.nextId := by
  by_contra hn
  rw [h.runs r (Nat.le_of_not_lt hn)] at hr
  cases hr

theorem Store.Grows.isSome (h : store.Grows store') (hr : (store.runs r).isSome) : (store'.runs r).isSome := by
  obtain ⟨run,hr⟩ := Option.isSome_iff_exists.mp hr
  obtain ⟨run',hr',_⟩ := h.runs r run hr
  simp [hr']

theorem Terminal.assign_inputText (outcome : Terminal) (run : RunRecord) :
    (outcome.assign now run).inputText = run.inputText := by
  cases outcome <;> rfl

theorem markRunningTransaction_checkpoints (cfg : Config) (store : Store) (r : RunId) (now : Instant) :
    ∃ new, (markRunningTransaction cfg store r now).checkpoints = store.checkpoints ++ new ∧
      (∀ cp ∈ new, cp.runId = r ∧ cp.reason = .running) ∧
      new.length = if cfg.recovery && (store.runs r).isSome then 1 else 0 := by
  obtain ⟨new,hn,hr,hl⟩ := createLifecycleCheckpoint_checkpoints cfg
    (store.updateRun r fun run => { run with status := .running, startedAt := some now }) r .running
  exact ⟨new,hn,hr,by simpa [Store.updateRun_runs] using hl⟩

theorem finishTransaction_checkpoints (cfg : Config) (store : Store) (r : RunId) (outcome : Terminal) (now : Instant) :
    ∃ new, (finishTransaction cfg store r outcome now).checkpoints = store.checkpoints ++ new ∧
      (∀ cp ∈ new, cp.runId = r ∧ cp.reason = outcome.reason) ∧
      new.length = if cfg.recovery && (store.runs r).isSome then 1 else 0 := by
  unfold finishTransaction
  cases h : store.runs r with
  | none => exact ⟨[],by simp,by simp,by simp⟩
  | some run =>
    obtain ⟨new,hn,hr,hl⟩ := createLifecycleCheckpoint_checkpoints cfg
      ((store.updateRun r (outcome.assign now)).updateAgent run.agentId
        fun agent => { agent with status := outcome.agentStatus }) r outcome.reason
    exact ⟨new,hn,hr,by simpa [Store.updateRun_runs,h] using hl⟩

theorem Started.grows {inputText : String} {link : Option DelegationLink} {agent : AgentRecord} (hs : store.Sound)
    (h : Started cfg store store' a inputText link r agent) : store.Grows store' := by
  refine ⟨fun q run hq => ⟨run,?_,rfl,rfl,rfl⟩,fun d hd => ?_,fun cp hc => ?_⟩
  · have hne : q ≠ r := by
      rintro rfl
      have hlt := hs.lt (r := q) (by simp [hq])
      have hf := h.fresh
      omega
    rw [h.runs, Function.update_of_ne hne, hq]
  · rw [h.delegations]
    exact List.mem_append_left _ hd
  · rw [h.checkpoints]
    exact List.mem_append_left _ hc

theorem Commit.grows (hs : store.Sound) (h : Commit cfg store store') : store.Grows store' := by
  cases h with
  | none => exact ⟨fun r run hr => ⟨run,hr,rfl,rfl,rfl⟩,fun _ h => h,fun _ h => h⟩
  | update a graph => exact ⟨fun r run hr => ⟨run,hr,rfl,rfl,rfl⟩,fun _ h => h,fun _ h => h⟩
  | start a inputText link _ r h =>
    obtain ⟨agent,h⟩ := startTransaction_started h
    exact h.grows hs
  | mark r now =>
    obtain ⟨new,hn,_⟩ := markRunningTransaction_checkpoints cfg store r now
    refine ⟨fun q run hq => ?_,fun d hd => by simpa using hd,fun cp hc => by simp [hn,hc]⟩
    rw [markRunningTransaction_runs]
    by_cases hr : q = r
    · subst hr
      exact ⟨{ run with status := .running, startedAt := some now },by simp [hq],rfl,rfl,rfl⟩
    · exact ⟨run,by simp [hr,hq],rfl,rfl,rfl⟩
  | finish r outcome now =>
    obtain ⟨new,hn,_⟩ := finishTransaction_checkpoints cfg store r outcome now
    refine ⟨fun q run hq => ?_,fun d hd => by simpa using hd,fun cp hc => by simp [hn,hc]⟩
    rw [finishTransaction_runs]
    by_cases hr : q = r
    · subst hr
      exact ⟨outcome.assign now run,by simp [hq],by simp,outcome.assign_inputText run,by simp⟩
    · exact ⟨run,by simp [hr,hq],rfl,rfl,rfl⟩

theorem Commit.nextId (h : Commit cfg store store') : store.nextId ≤ store'.nextId := by
  cases h with
  | none => exact le_rfl
  | update a graph => exact le_rfl
  | mark r now => exact markRunningTransaction_nextId
  | finish r outcome now => exact finishTransaction_nextId
  | start a inputText link _ r h =>
    obtain ⟨agent,h⟩ := startTransaction_started h
    exact h.nextId.le

/-- A transaction that only assigns columns of run rows and adds checkpoints of an
existing run. -/
theorem Store.Sound.lifecycle {new : List CheckpointRecord} (hs : store.Sound) (hg : store.Grows store')
    (hid : store.nextId ≤ store'.nextId) (hruns : ∀ q, store.runs q = none → store'.runs q = none)
    (hd : store'.delegations = store.delegations) (hn : store'.checkpoints = store.checkpoints ++ new)
    (hnew : ∀ cp ∈ new, (store.runs cp.runId).isSome) : store'.Sound := by
  refine ⟨fun q hq => hruns q (hs.runs q (hid.trans hq)),fun cp hc => ?_,fun d hmem => ?_,hd ▸ hs.parent⟩
  · rw [hn] at hc
    rcases List.mem_append.mp hc with hc | hc
    · exact hg.isSome (hs.checkpoints cp hc)
    · exact hg.isSome (hnew cp hc)
  · rw [hd] at hmem
    obtain ⟨hparent,hchild,hlt⟩ := hs.delegations d hmem
    exact ⟨hg.isSome hparent,hg.isSome hchild,hlt⟩

/-- The checkpoints of a lifecycle transaction are those of an existing run. -/
theorem isSome_of_added {new : List CheckpointRecord} {reason : CheckpointReason} {b : Bool}
    (hr : ∀ cp ∈ new, cp.runId = r ∧ cp.reason = reason)
    (hl : new.length = if b && (store.runs r).isSome then 1 else 0) : ∀ cp ∈ new, (store.runs cp.runId).isSome := by
  intro cp hc
  rw [(hr cp hc).1]
  by_contra hn
  have hzero : new.length = 0 := by simpa [hn] using hl
  simp [List.length_eq_zero_iff.mp hzero] at hc

theorem Started.sound {inputText : String} {link : Option DelegationLink} {agent : AgentRecord} (hs : store.Sound)
    (h : Started cfg store store' a inputText link r agent) : store'.Sound := by
  have hg := h.grows hs
  have hf := h.fresh
  have hlt := h.nextId
  have hnew : (store'.runs r).isSome := by simp [h.runs]
  have hold : ∀ d ∈ store.delegations, d.childRunId ≠ r := by
    rintro d hd rfl
    have := hs.lt (hs.delegations d hd).2.1
    omega
  have hlink : ∀ d ∈ (link.map fun l => (⟨l.parentRunId,r,l.nodeId,l.depth⟩ : DelegationRecord)).toList,
      d.childRunId = r := by
    cases link <;> simp
  refine ⟨fun q hq => ?_,fun cp hc => ?_,fun d hd => ?_,fun d hd d' hd' he => ?_⟩
  · rw [h.runs, Function.update_of_ne (by rintro rfl; omega), hs.runs q (by omega)]
  · rw [h.checkpoints] at hc
    rcases List.mem_append.mp hc with hc | hc
    · exact hg.isSome (hs.checkpoints cp hc)
    · split at hc
      · obtain rfl := List.mem_singleton.mp hc
        exact hnew
      · simp at hc
  · rw [h.delegations] at hd
    rcases List.mem_append.mp hd with hd | hd
    · obtain ⟨h1,h2,h3⟩ := hs.delegations d hd
      exact ⟨hg.isSome h1,hg.isSome h2,h3⟩
    · cases link with
      | none => simp at hd
      | some l =>
        obtain rfl : d = _ := by simpa using hd
        have hp : (store.runs l.parentRunId).isSome := by
          have := h.allowed l rfl
          simp only [linkAllowed, Bool.and_eq_true] at this
          exact this.1
        exact ⟨hg.isSome hp,hnew,hf ▸ hs.lt hp⟩
  · rw [h.delegations] at hd hd'
    rcases List.mem_append.mp hd with hd | hd <;> rcases List.mem_append.mp hd' with hd' | hd'
    · exact hs.parent d hd d' hd' he
    · exact absurd (he.trans (hlink d' hd')) (hold d hd)
    · exact absurd (he.symm.trans (hlink d hd)) (hold d' hd')
    · cases link with
      | none => simp at hd
      | some l =>
        obtain rfl : d = _ := by simpa using hd
        obtain rfl : d' = _ := by simpa using hd'
        rfl

theorem Commit.sound (hs : store.Sound) (h : Commit cfg store store') : store'.Sound := by
  have hg := h.grows hs
  have hid := h.nextId
  cases h with
  | none => exact hs
  | update a graph => exact ⟨hs.runs,hs.checkpoints,hs.delegations,hs.parent⟩
  | mark r now =>
    obtain ⟨new,hn,hr,hl⟩ := markRunningTransaction_checkpoints cfg store r now
    refine hs.lifecycle hg hid (fun q hq => ?_) (by simp) hn (isSome_of_added hr hl)
    rw [markRunningTransaction_runs]
    by_cases h : q = r
    · subst h
      simp [hq]
    · simp [h,hq]
  | finish r outcome now =>
    obtain ⟨new,hn,hr,hl⟩ := finishTransaction_checkpoints cfg store r outcome now
    refine hs.lifecycle hg hid (fun q hq => ?_) (by simp) hn (isSome_of_added hr hl)
    rw [finishTransaction_runs]
    by_cases h : q = r
    · subst h
      simp [hq]
    · simp [h,hq]
  | start a inputText link _ r h =>
    obtain ⟨agent,h⟩ := startTransaction_started h
    exact h.sound hs

end AgentGraph
