import AgentGraph.Manager.Handles

/-! # What a run executes and what its first checkpoint records

The specification of a run is recorded in the transaction that starts it. Its task
reads the agent row again later, without the lock that updates of the graph take.
The two agree as long as no update with another graph commits in between.
-/
set_option autoImplicit false
namespace AgentGraph.Manager
open Sys Transition

variable {cfg : Config} {s t : Sys} {l : Label} {i j : TaskId} {p q : Point} {c : Ctl} {store : Store} {r : RunId}

/-- The task of the run has not read the agent row yet. -/
def Point.beforeRead : Point → Bool
  | .runBegin _ | .markRead _ | .markWrite _ _ | .markPublish _ _ _ | .delay _ _ | .readAgent _ _ => true
  | _ => false

/-- The committed run `r` is still to read its agent row: `_start_run` is about to
create its task, or the task is on its way to `get_agent`. -/
def Sys.ReadPending (s : Sys) (r : RunId) : Prop :=
  (∃ i p, s.point? i = some p ∧ s.mustCancel i = false ∧ p.starting? = some r) ∨
    ∃ p, s.point? (.run r) = some p ∧ s.mustCancel (.run r) = false ∧ p.beforeRead = true

/-- An update of the graph of an agent commits another graph while a run of the
agent is still to read it. -/
def RewritesPending (l : Label) (s : Sys) : Prop :=
  ∃ i ch now a graph agent r run, l = .run i ch now ∧ s.point? i = some (.updateWrite a graph) ∧
    s.mustCancel i = false ∧ s.store.agents a = some agent ∧ agent.graphDefinition ≠ graph ∧
    s.store.runs r = some run ∧ run.agentId = a ∧ s.ReadPending r

def specSafe (l : Label) (s : Sys) : Prop := ¬ RewritesPending l s

/-- Two agent rows that differ at most in their status. -/
def SameSpec (a b : AgentRecord) : Prop := a.modelRef = b.modelRef ∧ a.graphDefinition = b.graphDefinition

/-- The run was started from the model and graph of `agent`. -/
structure Recorded (cfg : Config) (store : Store) (r : RunId) (agent : AgentRecord) : Prop where
  run : ∃ run, store.runs r = some run ∧ run.executionSpec = some (executionSpec cfg agent run.inputText)
  created : ∃ cp ∈ store.checkpointsOf r, cp.reason = .created
  checkpoint : ∀ run, store.runs r = some run → ∀ cp ∈ store.checkpointsOf r, cp.reason = .created →
    cp.state.get "execution_spec" = executionSpec cfg agent run.inputText

theorem SameSpec.executionSpec {a b : AgentRecord} (h : SameSpec a b) (inputText : String) :
    executionSpec cfg a inputText = executionSpec cfg b inputText := by
  unfold AgentGraph.executionSpec
  rw [h.1, h.2]

/-- What a run was started from is never recorded anew. -/
theorem Recorded.commit {store' : Store} {agent : AgentRecord} (hs : store.Sound) (h : Commit cfg store store')
    (hr : Recorded cfg store r agent) : Recorded cfg store' r agent := by
  have hg := h.grows hs
  obtain ⟨run,hrun,hspec⟩ := hr.run
  obtain ⟨run',hrun',_,hin,hspec'⟩ := hg.runs r run hrun
  obtain ⟨cp,hcp,hreason⟩ := hr.created
  refine ⟨⟨run',hrun',by rw [hspec', hspec, hin]⟩,⟨cp,?_,hreason⟩,fun row hrow cp hcp hreason => ?_⟩
  · obtain ⟨hcp,he⟩ := List.mem_filter.mp hcp
    exact List.mem_filter.mpr ⟨hg.checkpoints cp hcp,he⟩
  · rw [hrun'] at hrow
    cases hrow
    rw [hin]
    refine hr.checkpoint run hrun cp ?_ hreason
    obtain ⟨hcp,he⟩ := List.mem_filter.mp hcp
    refine List.mem_filter.mpr ⟨?_,he⟩
    cases h with
    | none => exact hcp
    | update a graph => exact hcp
    | mark q now =>
      obtain ⟨new,hn,hnew,_⟩ := markRunningTransaction_checkpoints cfg store q now
      rcases List.mem_append.mp (hn ▸ hcp) with hcp | hcp
      · exact hcp
      · rw [(hnew cp hcp).2] at hreason; cases hreason
    | finish q outcome now =>
      obtain ⟨new,hn,hnew,_⟩ := finishTransaction_checkpoints cfg store q outcome now
      rcases List.mem_append.mp (hn ▸ hcp) with hcp | hcp
      · exact hcp
      · rw [(hnew cp hcp).2] at hreason
        cases outcome <;> cases hreason
    | start a inputText link _ q hq =>
      obtain ⟨agent',hq⟩ := startTransaction_started hq
      rcases List.mem_append.mp (hq.checkpoints ▸ hcp) with hcp | hcp
      · exact hcp
      · split at hcp
        · have hlt := hs.lt (r := r) (by simp [hrun])
          have hid : cp.runId = q := by rw [List.mem_singleton.mp hcp]
          have hrq : r = q := by rw [← hid]; exact (by simpa using he : cp.runId = r).symm
          subst hrq
          exact absurd hq.fresh (Nat.ne_of_gt hlt)
        · cases hcp

theorem checkpointState_executionSpec (r : RunId) (spec : Json) (status : RunStatus) :
    (checkpointState cfg r spec status).get "execution_spec" = spec := rfl

/-- A committed start records the row it has read. -/
theorem Recorded.of_started {store' : Store} {a : AgentId} {inputText : String} {link : Option DelegationLink}
    {agent : AgentRecord} (hs : store.Sound) (hrec : cfg.recovery = true)
    (h : Started cfg store store' a inputText link r agent) : Recorded cfg store' r agent := by
  have hrow : store'.runs r = some (newRun cfg a agent inputText) := by simp [h.runs]
  have hold : ∀ cp ∈ store.checkpoints, cp.runId ≠ r := by
    rintro cp hcp rfl
    have := hs.lt (hs.checkpoints cp hcp)
    exact absurd h.fresh (Nat.ne_of_gt this)
  have hcps := h.checkpoints
  rw [hrec, if_pos rfl] at hcps
  refine ⟨⟨_,hrow,by simp [newRun,hrec,queuedRun]⟩,?_,fun run hr cp hcp _ => ?_⟩
  · simp [Store.checkpointsOf,hcps]
  · rw [hrow] at hr
    cases hr
    obtain ⟨hcp,he⟩ := List.mem_filter.mp hcp
    rw [hcps] at hcp
    rcases List.mem_append.mp hcp with hcp | hcp
    · exact absurd (by simpa using he) (hold cp hcp)
    · rw [List.mem_singleton.mp hcp]
      rw [newRun_inputText]
      exact checkpointState_executionSpec r _ .queued

theorem Recorded.same {a b : AgentRecord} (h : Recorded cfg store r a) (he : SameSpec a b) : Recorded cfg store r b := by
  obtain ⟨run,hr,hspec⟩ := h.run
  refine ⟨⟨run,hr,by rw [hspec, he.executionSpec]⟩,h.created,fun run hr cp hcp hc => ?_⟩
  rw [h.checkpoint run hr cp hcp hc, he.executionSpec]

/-! ## Agent rows -/

/-- A transaction other than an update with another graph keeps the model and graph
of every agent. -/
theorem CommitAt.sameSpec {store' : Store} {a : AgentId} {agent : AgentRecord} (h : CommitAt cfg s p store')
    (ha : s.store.agents a = some agent) (hu : ∀ graph, p = .updateWrite a graph → agent.graphDefinition = graph) :
    ∃ agent', store'.agents a = some agent' ∧ SameSpec agent agent' := by
  cases h with
  | start k _ r h =>
    obtain ⟨row,h⟩ := startTransaction_started h
    by_cases he : a = k.agentId
    · subst he
      rw [h.agentRow] at ha
      cases ha
      exact ⟨{ agent with status := .running },by rw [h.agents, Function.update_self],rfl,rfl⟩
    · exact ⟨agent,by rw [h.agents, Function.update_of_ne he, ha],rfl,rfl⟩
  | mark r run now => exact ⟨agent,by simpa using ha,rfl,rfl⟩
  | finish r outcome k now =>
    unfold finishTransaction
    cases hr : s.store.runs r with
    | none => exact ⟨agent,ha,rfl,rfl⟩
    | some run =>
      dsimp only
      rw [createLifecycleCheckpoint_agents]
      by_cases he : a = run.agentId
      · subst he
        exact ⟨{ agent with status := outcome.agentStatus },by simp [Store.updateAgent,ha],rfl,rfl⟩
      · exact ⟨agent,by simp [Store.updateAgent,he,ha],rfl,rfl⟩
  | update b graph =>
    by_cases he : a = b
    · subst he
      exact ⟨{ agent with graphDefinition := graph },by simp [updateGraphTransaction,Store.updateAgent,ha],rfl,
        hu graph rfl⟩
    · exact ⟨agent,by simp [updateGraphTransaction,Store.updateAgent,he,ha],rfl,rfl⟩

/-! ## The way of a run from its commit to its agent row -/

/-- The run row that `_mark_running` returned to `_execute_run`. -/
def Point.carried? : Point → Option RunRecord
  | .markWrite _ run | .markPublish _ run _ | .delay _ run | .readAgent _ run | .validate _ run _ => some run
  | _ => none

theorem Point.beforeRead_apart (h : q.beforeRead = true) : q.continues = false ∧ q.runs = false := by
  cases q <;> first | exact ⟨rfl,rfl⟩ | cases h

theorem Point.carried_apart {run : RunRecord} (h : q.carried? = some run) : q.continues = false ∧ q.runs = false := by
  cases q <;> first | exact ⟨rfl,rfl⟩ | cases h

theorem Moved.notCancelled {r : RunId} (h : Moved cfg s i p (.waiting q) store) (hq : q.starting? = some r) :
    s.mustCancel i = false := by
  cases h with
  | delivered hm hd hs => cases hd <;> cases hq
  | resumed hm hn => exact hm

/-- A task on its way to the agent row was on its way before. -/
theorem Moved.beforeRead (h : Moved cfg s i p (.waiting q) store) (hq : q.beforeRead = true) :
    s.mustCancel i = false ∧ p.beforeRead = true := by
  cases h with
  | delivered hm hd hs => cases hd <;> cases hq
  | resumed hm hn =>
    refine ⟨hm,?_⟩
    cases hn
    case continued h => exact Bool.noConfusion ((Point.beforeRead_apart hq).1.symm.trans h.continues)
    case invoked h => exact Bool.noConfusion ((Point.beforeRead_apart hq).2.symm.trans h.runs)
    case roundDone h => exact Bool.noConfusion ((Point.beforeRead_apart hq).2.symm.trans h.runs)
    all_goals first | rfl | cases hq

/-- The carried row is read by `_mark_running` and passed on. -/
theorem Moved.carried {run : RunRecord} (h : Moved cfg s i p (.waiting q) store) (hq : q.carried? = some run) :
    p.carried? = some run ∨ ∃ r, q = .markWrite r run ∧ s.store.runs r = some run := by
  cases h with
  | delivered hm hd hs => cases hd <;> cases hq
  | resumed hm hn =>
    cases hn
    case continued h => exact Bool.noConfusion ((Point.carried_apart hq).1.symm.trans h.continues)
    case invoked h => exact Bool.noConfusion ((Point.carried_apart hq).2.symm.trans h.runs)
    case roundDone h => exact Bool.noConfusion ((Point.carried_apart hq).2.symm.trans h.runs)
    case markRead r row h hs => cases hq; exact .inr ⟨r,rfl,h⟩
    all_goals first | cases hq; exact .inl rfl | cases hq

theorem Moved.validate {run : RunRecord} {agent : AgentRecord}
    (h : Moved cfg s i p (.waiting (.validate r run agent)) store) :
    s.mustCancel i = false ∧ p = .readAgent r run ∧ s.store.agents run.agentId = some agent := by
  cases h with
  | delivered hm hd hs => cases hd
  | resumed hm hn =>
    cases hn
    case continued h => exact Bool.noConfusion h.continues
    case invoked hq => exact Bool.noConfusion hq.runs
    case roundDone hq => exact Bool.noConfusion hq.runs
    case readAgent h => exact ⟨hm,rfl,h⟩

/-! ## The invariant -/

/-- The row that `_mark_running` returned has the stored agent and input. -/
def Sys.CarriesRow (s : Sys) : Prop :=
  ∀ r p run, s.point? (.run r) = some p → p.carried? = some run →
    ∃ row, s.store.runs r = some row ∧ row.agentId = run.agentId ∧ row.inputText = run.inputText

/-- A run that is still to read its agent row will find what it was started from. -/
structure SpecKept (cfg : Config) (s : Sys) : Prop where
  wellFormed : WellFormed s
  carried : ∀ r p run, s.point? (.run r) = some p → p.carried? = some run →
    ∃ row, s.store.runs r = some row ∧ row.agentId = run.agentId ∧ row.inputText = run.inputText
  pending : ∀ r, s.ReadPending r → ∃ run agent, s.store.runs r = some run ∧
    s.store.agents run.agentId = some agent ∧ Recorded cfg s.store r agent
  reading : ∀ r run agent, s.point? (.run r) = some (.validate r run agent) → Recorded cfg s.store r agent

namespace RunStep

theorem keepsMustCancel (hw : WellFormed s) (h : RunStep cfg s t i p c) (hj : j ≠ i) (hp : s.point? j = some q)
    (hm : t.mustCancel j = false) : s.mustCancel j = false := by
  by_contra hs
  have := (h.mustCancel j (h.not_spawned hw (WellFormed.exists_of_point hp))).mpr (.inr ⟨hj,by simpa using hs⟩)
  rw [hm] at this
  cases this

/-- A run is still to read its agent row because it was before, or because it has
just been committed. -/
theorem readPending (hw : WellFormed s) (h : RunStep cfg s t i p c) (hr : t.ReadPending r) :
    s.ReadPending r ∨ ∃ a, p = .startWrite a ∧
      startTransaction cfg s.store a.agentId a.inputText a.link = .ok (t.store,r) := by
  rcases hr with ⟨j,q,hq,hm,hst⟩ | ⟨q,hq,hm,hb⟩
  · rcases h.back hw (point?_eq_some.mp hq) with ⟨rfl,rfl⟩ | ⟨hj,hs⟩ | ⟨_,q',hq',hl⟩
    · rcases h.moved.starting hst with ⟨hp,_⟩ | ⟨a,rfl,ha⟩
      · exact .inl (.inl ⟨j,p,h.point,h.moved.notCancelled hst,hp⟩)
      · exact .inr ⟨a,rfl,ha⟩
    · have hp := point?_eq_some.mpr hs
      exact .inl (.inl ⟨j,q,hp,h.keepsMustCancel hw hj hp hm,hst⟩)
    · cases hq'
      rcases lookup_spawned hl with ⟨_,_,_,_,_,_,_,rfl⟩ | ⟨_,_,_,_,_,_,_,rfl⟩ <;> cases hst
  · rcases h.back hw (point?_eq_some.mp hq) with ⟨rfl,rfl⟩ | ⟨hj,hs⟩ | ⟨_,q',hq',hl⟩
    · obtain ⟨hm,hb⟩ := h.moved.beforeRead hb
      exact .inl (.inr ⟨p,h.point,hm,hb⟩)
    · have hp := point?_eq_some.mpr hs
      exact .inl (.inr ⟨q,hp,h.keepsMustCancel hw hj hp hm,hb⟩)
    · cases hq'
      rcases lookup_spawned hl with ⟨a,_,cp,q',rfl,rfl,he,rfl⟩ | ⟨_,_,_,_,_,_,he,_⟩ <;> cases he
      refine .inl (.inl ⟨i,_,h.point,?_,rfl⟩)
      cases h.moved with
      | delivered hm hd hs => cases hd with | raised _ _ hb => cases hb
      | resumed hm hn => exact hm

theorem carriesRow (hw : WellFormed s) (hcar : s.CarriesRow) (h : RunStep cfg s t i p c) : t.CarriesRow := by
  intro r q run hq hc
  have hold : ∀ row, s.store.runs r = some row → row.agentId = run.agentId ∧ row.inputText = run.inputText →
      ∃ row, t.store.runs r = some row ∧ row.agentId = run.agentId ∧ row.inputText = run.inputText := by
    rintro row hrow ⟨ha,hi⟩
    obtain ⟨row',hrow',ha',hi',_⟩ := (h.moved.commit.grows hw.sound).runs r row hrow
    exact ⟨row',hrow',ha'.trans ha,hi'.trans hi⟩
  have hkeep : ∀ p, s.point? (.run r) = some p → p.carried? = some run →
      ∃ row, t.store.runs r = some row ∧ row.agentId = run.agentId ∧ row.inputText = run.inputText := by
    intro p hp hc
    obtain ⟨row,hrow,he⟩ := hcar r p run hp hc
    exact hold row hrow he
  rcases h.back hw (point?_eq_some.mp hq) with ⟨rfl,rfl⟩ | ⟨_,hs⟩ | ⟨_,q',hq',hl⟩
  · rcases h.moved.carried hc with hp | ⟨r',rfl,hrow⟩
    · exact hkeep p h.point hp
    · have ho : TaskId.owner (.run r) = .run r' :=
        (hw.owner _ _ h.point).symm.trans h.moved.owner.symm
      cases ho
      exact hold run hrow ⟨rfl,rfl⟩
  · exact hkeep q (point?_eq_some.mpr hs) hc
  · cases hq'
    rcases lookup_spawned hl with ⟨_,_,_,_,_,_,_,rfl⟩ | ⟨_,_,_,_,_,_,_,rfl⟩ <;> cases hc

/-- The row of the agent of a run that is still to read it keeps model and graph. -/
theorem sameSpec {run : RunRecord} {agent : AgentRecord} (h : RunStep cfg s t i p c) {ch : Choice} {now : Instant}
    (hok : specSafe (.run i ch now) s) (hp : s.ReadPending r) (hr : s.store.runs r = some run)
    (ha : s.store.agents run.agentId = some agent) :
    ∃ agent', t.store.agents run.agentId = some agent' ∧ SameSpec agent agent' := by
  rcases h.moved.commitAt with hs | ⟨hm,hc⟩
  · exact ⟨agent,by rw [hs, ha],rfl,rfl⟩
  · refine hc.sameSpec ha fun graph he => ?_
    by_contra hne
    exact hok ⟨i,ch,now,run.agentId,graph,agent,r,run,rfl,he ▸ h.point,hm,ha,hne,hr,rfl,hp⟩

theorem pending (hk : SpecKept cfg s) (hrec : cfg.recovery = true) (h : RunStep cfg s t i p c) {ch : Choice}
    {now : Instant} (hok : specSafe (.run i ch now) s) (hp : t.ReadPending r) :
    ∃ run agent, t.store.runs r = some run ∧ t.store.agents run.agentId = some agent ∧
      Recorded cfg t.store r agent := by
  have hw := hk.wellFormed
  rcases h.readPending hw hp with hp | ⟨a,rfl,ha⟩
  · obtain ⟨run,agent,hr,ha,hrecd⟩ := hk.pending r hp
    obtain ⟨agent',ha',hsame⟩ := h.sameSpec hok hp hr ha
    obtain ⟨run',hr',hid,_⟩ := (h.moved.commit.grows hw.sound).runs r run hr
    exact ⟨run',agent',hr',by rw [hid, ha'],(hrecd.commit hw.sound h.moved.commit).same hsame⟩
  · obtain ⟨agent,ha⟩ := startTransaction_started ha
    refine ⟨newRun cfg a.agentId agent a.inputText,{ agent with status := .running },by simp [ha.runs],?_,?_⟩
    · simp [ha.agents]
    · exact (Recorded.of_started hw.sound hrec ha).same ⟨rfl,rfl⟩

theorem reading (hk : SpecKept cfg s) (h : RunStep cfg s t i p c) {run : RunRecord} {agent : AgentRecord}
    (hq : t.point? (.run r) = some (.validate r run agent)) : Recorded cfg t.store r agent := by
  have hw := hk.wellFormed
  rcases h.back hw (point?_eq_some.mp hq) with ⟨rfl,rfl⟩ | ⟨_,hs⟩ | ⟨_,q',hq',hl⟩
  · obtain ⟨hm,rfl,ha⟩ := h.moved.validate
    obtain ⟨row,agent',hr,ha',hrecd⟩ := hk.pending r (.inr ⟨_,h.point,hm,rfl⟩)
    obtain ⟨row',hr',hid,_⟩ := hk.carried r _ run h.point rfl
    rw [hr] at hr'
    cases hr'
    rw [hid, ha] at ha'
    cases ha'
    exact hrecd.commit hw.sound h.moved.commit
  · exact (hk.reading r run agent (point?_eq_some.mpr hs)).commit hw.sound h.moved.commit
  · cases hq'
    rcases lookup_spawned hl with ⟨_,_,_,_,_,_,_,he⟩ | ⟨_,_,_,_,_,_,_,he⟩ <;> cases he

end RunStep

theorem ReadPending.congr (hp : s.point? = t.point?) (hm : ∀ j, t.mustCancel j = false → s.mustCancel j = false)
    (h : t.ReadPending r) : s.ReadPending r := by
  rcases h with ⟨i,p,hi,hc,hs⟩ | ⟨p,hi,hc,hs⟩
  · exact .inl ⟨i,p,hp ▸ hi,hm i hc,hs⟩
  · exact .inr ⟨p,hp ▸ hi,hm _ hc,hs⟩

theorem CarriesRow.accept (hcar : s.CarriesRow) (k : Call) : (s.accept k).CarriesRow := by
  intro r p run hp hc
  rcases accept_point? hp with ⟨he,_⟩ | hp
  · cases he
  · exact hcar r p run hp hc

theorem SpecKept.cancel (hk : SpecKept cfg s) (targets : List TaskId) : SpecKept cfg (s.requestCancels targets) := by
  have hp := point?_congr (requestCancels_ctl? s targets)
  constructor
  · exact hk.wellFormed.cancel targets
  · rw [hp]; exact hk.carried
  · refine fun r hr => hk.pending r (ReadPending.congr hp.symm (fun j hj => ?_) hr)
    by_contra hn
    rw [requestCancels_mustCancel.mpr (.inr (by simpa using hn))] at hj
    cases hj
  · rw [hp]; exact hk.reading

theorem SpecKept.accept (hk : SpecKept cfg s) (k : Call) : SpecKept cfg (s.accept k) where
  wellFormed := hk.wellFormed.accept k
  carried := CarriesRow.accept hk.carried k
  pending := by
    intro r hr
    refine hk.pending r ?_
    rcases hr with ⟨j,p,hp,hm,hs⟩ | ⟨p,hp,hm,hb⟩
    · rcases accept_point? hp with ⟨_,rfl⟩ | hp
      · rw [k.begin_fields.2.1] at hs
        cases hs
      · refine .inl ⟨j,p,hp,?_,hs⟩
        rwa [(accept_other (fun he => ?_)).2.2] at hm
        exact WellFormed.exists_of_point hp (he ▸ hk.wellFormed.call _ le_rfl)
    · rcases accept_point? hp with ⟨he,_⟩ | hp
      · cases he
      · exact .inr ⟨p,hp,by rwa [(accept_other (by simp)).2.2] at hm,hb⟩
  reading := by
    intro r run agent hp
    rcases accept_point? hp with ⟨he,_⟩ | hp
    · cases he
    · exact hk.reading r run agent hp

theorem step_specKept (hrec : cfg.recovery = true) (hk : SpecKept cfg s) (hok : specSafe l s)
    (h : step cfg l s = some t) : SpecKept cfg t := by
  cases step_cases h with
  | run i ch now p c t h =>
    exact ⟨h.wellFormed hk.wellFormed,h.carriesRow hk.wellFormed hk.carried,fun _ hp => h.pending hk hrec hok hp,
      fun _ _ _ hq => h.reading hk hq⟩
  | cancel k => exact hk.cancel _
  | call k => exact hk.accept k

theorem initial_specKept (agents : AgentId → Option AgentRecord) : SpecKept cfg (initial agents) where
  wellFormed := initial_wellFormed agents
  carried := by simp [initial,point?]
  pending := by
    rintro r (⟨i,p,hp,_⟩ | ⟨p,hp,_⟩) <;> simp [initial,point?] at hp
  reading := by simp [initial,point?]

/-! ## What the runtime is given -/

/-- The next step of the task of `r` calls `WorkflowRuntime.invoke` with `request`. -/
def Sys.invokes (cfg : Config) (s : Sys) (r : RunId) (request : AgentExecutionRequest) : Prop :=
  ∃ run agent, s.point? (.run r) = some (.validate r run agent) ∧ s.mustCancel (.run r) = false ∧
    validateTeamGraph cfg s.store agent.graphDefinition (some run.agentId) = .ok () ∧
    request = s.executionRequest r run agent

/-- The graph and the model of a request are those of an execution specification. -/
def FromSpec (spec : Json) (request : AgentExecutionRequest) : Prop :=
  ∃ fields : JsonObject, spec = .obj fields ∧ fields.get "graph_definition" = .obj request.graphDefinition ∧
    fields.get "model_ref" = .str request.modelRef

/-- The request agrees with the specification in the run row and in its CREATED
checkpoint, which exists. -/
structure ExecutesSpec (store : Store) (r : RunId) (request : AgentExecutionRequest) : Prop where
  run : ∃ run spec, store.runs r = some run ∧ run.executionSpec = some spec ∧ FromSpec spec request
  created : ∃ cp ∈ store.checkpointsOf r, cp.reason = .created
  checkpoint : ∀ cp ∈ store.checkpointsOf r, cp.reason = .created →
    FromSpec (cp.state.get "execution_spec") request

theorem executionSpec_fromSpec {agent : AgentRecord} (inputText : String) {request : AgentExecutionRequest}
    (hg : request.graphDefinition = agent.graphDefinition) (hm : request.modelRef = agent.modelRef) :
    FromSpec (executionSpec cfg agent inputText) request := by
  rw [FromSpec, hg, hm]
  exact ⟨_,rfl,rfl,rfl⟩

/-- As long as no update commits another graph while a run of the agent is still to
read its agent row, every run executes the graph and model its first checkpoint
records. -/
theorem invoked_request_fromSpec {agents : AgentId → Option AgentRecord} (hrec : cfg.recovery = true)
    (hs : Run cfg specSafe (initial agents) s) {request : AgentExecutionRequest} (hi : s.invokes cfg r request) :
    ExecutesSpec s.store r request := by
  have hk : SpecKept cfg s :=
    Reaches.invariant (I := SpecKept cfg) (fun _ _ _ hk hok he => step_specKept hrec hk hok he) hs
      (initial_specKept agents)
  obtain ⟨run,agent,hp,_,_,rfl⟩ := hi
  obtain ⟨⟨row,hrow,hspec⟩,hcreated,hcp⟩ := hk.reading r run agent hp
  refine ⟨⟨row,_,hrow,hspec,executionSpec_fromSpec row.inputText rfl rfl⟩,hcreated,fun cp hc hreason => ?_⟩
  rw [hcp row hrow cp hc hreason]
  exact executionSpec_fromSpec row.inputText rfl rfl

/-- No update of a graph commits at this step. -/
def commitsNoUpdate (l : Label) (s : Sys) : Bool :=
  match l with
  | .run i _ _ =>
    match s.point? i with
    | some (.updateWrite _ _) => false
    | _ => true
  | _ => true

theorem specSafe_of_commitsNoUpdate (h : commitsNoUpdate l s = true) : specSafe l s := by
  rintro ⟨i,ch,now,a,graph,_,_,_,rfl,hp,_⟩
  simp [commitsNoUpdate,hp] at h

/-- A run about to call its runtime. -/
def readyToInvoke : Sys :=
  after (step sampleConfig) ([.call (.startRun 0 "hello")] ++ resumes (.call 0) 4 ++ resumes (.run 0) 5)
    (initial soloAgents) (by decide)

theorem readyToInvoke_run : Run sampleConfig specSafe (initial soloAgents) readyToInvoke :=
  Reaches.mono (fun _ _ h => specSafe_of_commitsNoUpdate h)
    (after_reaches (fun l s => commitsNoUpdate l s = true) _ (by decide))

def helloRequest : AgentExecutionRequest := ⟨0,0,"hello","model-a",modelGraph,none⟩

theorem readyToInvoke_invokes : readyToInvoke.invokes sampleConfig 0 helloRequest :=
  ⟨_,_,rfl,by decide,rfl,rfl⟩

theorem invoked_request_fromSpec_hello : ExecutesSpec readyToInvoke.store 0 helloRequest :=
  invoked_request_fromSpec rfl readyToInvoke_run readyToInvoke_invokes

def lexiGraph : JsonObject := [("runtime",.str "lexi-v1")]

/-- The graph of the agent is updated between the commit of the run and the read of
its task. -/
def updatedLabels : List Label :=
  [.call (.startRun 0 "hello")] ++ resumes (.call 0) 5 ++ [.call (.updateAgentGraph 0 lexiGraph)] ++
    resumes (.call 1) 3 ++ resumes (.run 0) 5

def updated : Sys := after (step sampleConfig) updatedLabels (initial soloAgents) (by decide)

def lexiRequest : AgentExecutionRequest := ⟨0,0,"hello","model-a",lexiGraph,none⟩

/-- The run executes the new graph, its checkpoint records the old one. -/
theorem update_overtakes_started_run :
    ∃ s, Run sampleConfig anyStep (initial soloAgents) s ∧ s.invokes sampleConfig 0 lexiRequest ∧
      ¬ ExecutesSpec s.store 0 lexiRequest := by
  refine ⟨updated,after_reaches anyStep _ (execOk_anyStep _ _),⟨_,_,rfl,by decide,rfl,rfl⟩,fun h => ?_⟩
  obtain ⟨run,spec,hrow,hspec,fields,rfl,hgraph,_⟩ := h.run
  have hold : (updated.store.runs 0).bind RunRecord.executionSpec =
      some (executionSpec sampleConfig ⟨.idle,"model-a",modelGraph⟩ "hello") := rfl
  rw [hrow, Option.bind_some, hspec] at hold
  cases hold
  have hg : Json.obj modelGraph = Json.obj lexiGraph := hgraph
  simp [modelGraph,lexiGraph] at hg

end AgentGraph.Manager
