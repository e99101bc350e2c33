import AgentGraph.Manager.Completion

/-! # Terminal statuses are absorbing, except under `_mark_running`

All writers of a terminal status hold the terminal lock of the run and check the
status under it. `_mark_running` does neither, so the only step that can lose a
terminal status is one where `stop_run` fails a run without a live handle while the
task of that run stands between its status check and its write.
-/
set_option autoImplicit false
namespace AgentGraph.Manager
open Sys Transition

variable {cfg : Config} {s t : Sys} {l : Label} {i j : TaskId} {p q : Point} {c : Ctl} {store : Store} {r : RunId}

/-- The step commits the failure of a run without a live handle while the task of
the run is about to write RUNNING. -/
def losesMark (l : Label) (s : Sys) : Bool :=
  match l with
  | .run i _ _ =>
    match s.point? i with
    | some (.finishWrite r _ (.stopFailed _)) =>
      match s.point? (.run r) with
      | some (.markWrite _ _) => !s.mustCancel i
      | _ => false
    | _ => false
  | _ => false

def markSafe (l : Label) (s : Sys) : Prop := losesMark l s = false

instance : ∀ l s, Decidable (markSafe l s) := fun l s => inferInstanceAs (Decidable (losesMark l s = false))

namespace Sys

/-- `RUN_COMPLETED`, `RUN_FAILED` and `RUN_CANCELLED` events of a run. -/
def terminalEvents (s : Sys) (r : RunId) : List RuntimeEvent :=
  (s.events.filter RuntimeEvent.terminal).filter fun e => e.runId == r

end Sys

structure Lifecycle (cfg : Config) (s : Sys) : Prop where
  wellFormed : WellFormed s
  handles : Handles s
  marking : ∀ i r run, s.point? i = some (.markWrite r run) → s.mustCancel i = true ∨ s.Active r
  writing : ∀ i r outcome k, s.point? i = some (.finishWrite r outcome k) → s.Active r
  publishing : ∀ i r outcome cp k, s.point? i = some (.finishPublish r outcome cp k) →
    s.Ended r ∧ s.terminalEvents r = []
  events : ∀ r, (s.terminalEvents r).length ≤ 1 ∧ (s.terminalEvents r ≠ [] → s.Ended r)
  checkpoints : ∀ r run, s.store.runs r = some run →
    (s.store.terminalCheckpoints r).length = if cfg.recovery && run.status.terminal then 1 else 0

/-! ## How one step changes a row -/

/-- The row of `r` and its terminal checkpoints across a step from `p`. -/
inductive RowStep (cfg : Config) (s t : Sys) (i : TaskId) (p : Point) (r : RunId) : Prop
  | same (h : t.store.runs r = s.store.runs r)
      (hc : t.store.terminalCheckpoints r = s.store.terminalCheckpoints r)
  | started (run : RunRecord) (hs : s.store.runs r = none) (h : t.store.runs r = some run)
      (hq : run.status = .queued) (hc : t.store.terminalCheckpoints r = [])
  | marked (run : RunRecord) (now : Instant) (hs : s.store.runs r = some run) (ha : run.status.active = true)
      (h : t.store.runs r = some { run with status := .running, startedAt := some now })
      (hc : t.store.terminalCheckpoints r = s.store.terminalCheckpoints r)
  | finished (run : RunRecord) (outcome : Terminal) (k : FinishCont) (now : Instant)
      (hm : s.mustCancel i = false) (hp : p = .finishWrite r outcome k) (hs : s.store.runs r = some run) (ha : run.status.active = true)
      (h : t.store.runs r = some (outcome.assign now run))
      (hc : (t.store.terminalCheckpoints r).length =
        (s.store.terminalCheckpoints r).length + if cfg.recovery then 1 else 0)

theorem RunStep.row (hl : Lifecycle cfg s) (h : RunStep cfg s t i p c) (r : RunId) : RowStep cfg s t i p r := by
  rcases h.moved.commitAt with hs | ⟨hm,hc⟩
  · exact .same (by rw [hs]) (by rw [hs])
  have hp := h.point
  generalize hst : t.store = store at hc
  cases hc with
  | update a graph => exact .same (by rw [hst]; rfl) (by rw [hst]; rfl)
  | start a _ q ha =>
    obtain ⟨agent,ha⟩ := startTransaction_started ha
    have hnone : s.store.runs q = none := hl.wellFormed.sound.runs q ha.fresh.le
    by_cases hr : r = q
    · subst hr
      refine .started (newRun cfg a.agentId agent a.inputText) hnone (by rw [hst, ha.runs]; simp) (by simp) ?_
      rw [hst, Store.terminalCheckpoints_same ha.checkpoints]
      · rw [Store.terminalCheckpoints, Store.checkpointsOf, List.filter_filter, List.filter_eq_nil_iff]
        intro cp hcp
        have := hl.wellFormed.sound.checkpoints cp hcp
        by_cases he : cp.runId = r
        · simp [he,hnone] at this
        · simp [he]
      · intro cp hcp
        split at hcp
        · exact .inr (by rw [List.mem_singleton.mp hcp]; rfl)
        · cases hcp
    · refine .same (by rw [hst, ha.runs, Function.update_of_ne hr]) ?_
      rw [hst]
      refine Store.terminalCheckpoints_same ha.checkpoints fun cp hcp => ?_
      split at hcp
      · exact .inr (by rw [List.mem_singleton.mp hcp]; rfl)
      · cases hcp
  | mark q run now =>
    obtain ⟨new,hn,hnew,_⟩ := markRunningTransaction_checkpoints cfg s.store q now
    have hc : t.store.terminalCheckpoints r = s.store.terminalCheckpoints r := by
      rw [hst]
      exact Store.terminalCheckpoints_same hn fun cp hcp => .inr (by rw [(hnew cp hcp).2]; rfl)
    by_cases hr : r = q
    · subst hr
      rcases hl.marking i r run hp with hm' | ⟨row,hrow,hact⟩
      · rw [hm] at hm'; cases hm'
      · exact .marked row now hrow hact (by rw [hst, markRunningTransaction_runs]; simp [hrow]) hc
    · exact .same (by rw [hst, markRunningTransaction_runs]; simp [hr]) hc
  | finish q outcome k now =>
    obtain ⟨new,hn,hnew,hlen⟩ := finishTransaction_checkpoints cfg s.store q outcome now
    by_cases hr : r = q
    · subst hr
      obtain ⟨row,hrow,hact⟩ := hl.writing i r outcome k hp
      refine .finished row outcome k now hm rfl hrow hact (by rw [hst, finishTransaction_runs]; simp [hrow]) ?_
      rw [hst, Store.terminalCheckpoints_append hn, List.length_append, List.filter_eq_self.mpr, hlen]
      · simp [hrow]
      · intro cp hcp
        simp [hnew cp hcp]
    · refine .same (by rw [hst, finishTransaction_runs]; simp [hr]) ?_
      rw [hst]
      exact Store.terminalCheckpoints_same hn fun cp hcp => .inl (by rw [(hnew cp hcp).1]; exact Ne.symm hr)

theorem RowStep.ended (h : RowStep cfg s t i p r) {run : RunRecord} (hr : s.store.runs r = some run)
    (ht : run.status.terminal = true) : t.store.runs r = some run := by
  cases h with
  | same h hc => rw [h, hr]
  | started row hs h hq hc => rw [hs] at hr; cases hr
  | marked row now hs ha h hc => exact (not_active_and_ended ⟨row,hs,ha⟩ ⟨run,hr,ht⟩).elim
  | finished row outcome k now hm hp hs ha h hc => exact (not_active_and_ended ⟨row,hs,ha⟩ ⟨run,hr,ht⟩).elim

/-- A run stays active until a `_finish_*` commits. -/
theorem RowStep.active (h : RowStep cfg s t i p r) (ha : s.Active r) :
    t.Active r ∨ ∃ outcome k, p = .finishWrite r outcome k ∧ s.mustCancel i = false := by
  obtain ⟨run,hr,ha⟩ := ha
  cases h with
  | same h hc => exact .inl ⟨run,h.trans hr,ha⟩
  | started row hs h hq hc => rw [hs] at hr; cases hr
  | marked row now hs ha h hc => exact .inl ⟨_,h,rfl⟩
  | finished row outcome k now hm hp hs ha h hc => exact .inr ⟨outcome,k,hp,hm⟩

/-! ## Preservation -/

namespace RunStep

/-- Nobody but `stop_run` without a live handle ends a run whose task is about to
write RUNNING, unless that task is to be cancelled. -/
theorem mark_overtaken (hl : Lifecycle cfg s) (h : RunStep cfg s t i p c) {ch : Choice} {now : Instant}
    (hok : markSafe (.run i ch now) s) {run : RunRecord} (hq : s.point? j = some (.markWrite r run)) (hj : j ≠ i)
    {outcome : Terminal} {k : FinishCont} (hp : p = .finishWrite r outcome k) (hm : s.mustCancel i = false) :
    s.mustCancel j = true := by
  subst hp
  have hjr : j = .run r := TaskId.eq_run (hl.wellFormed.owner j _ hq).symm
  subst hjr
  have hdone : s.isDone (.run r) = true → False := fun hd => by
    obtain ⟨result,hr⟩ := isDone_iff.mp hd
    rw [point?_eq_some.mp hq] at hr
    cases hr
  cases k with
  | exec e => exact absurd (TaskId.eq_run (hl.wellFormed.owner i _ h.point).symm).symm hj
  | stopFailed k =>
    have hlose : losesMark (.run i ch now) s = true := by simp [losesMark,h.point,hq,hm]
    rw [markSafe, hlose] at hok
    cases hok
  | stopCancelled k => exact (hdone (hl.handles.stopped i _ r h.point rfl)).elim
  | shutdown rest =>
    rcases hl.handles.shut i _ h.point r (List.mem_cons_self ..) with hd | hcr
    · exact (hdone hd).elim
    · exact hl.handles.unmarked _ _ hq rfl hcr

theorem marking (hl : Lifecycle cfg s) (h : RunStep cfg s t i p c) {ch : Choice} {now : Instant}
    (hok : markSafe (.run i ch now) s) {run : RunRecord} (hq : t.point? j = some (.markWrite r run)) :
    t.mustCancel j = true ∨ t.Active r := by
  have hw := hl.wellFormed
  rcases h.back hw (point?_eq_some.mp hq) with ⟨rfl,rfl⟩ | ⟨hj,hs⟩ | ⟨_,q',hq',hk⟩
  · obtain ⟨_,hst,row,hr,ha⟩ := h.moved.markWrite
    exact .inr ⟨row,by rw [hst, hr],ha⟩
  · have hp := point?_eq_some.mpr hs
    have hkeep : s.mustCancel j = true → t.mustCancel j = true := fun hm =>
      (h.mustCancel j (h.not_spawned hw (WellFormed.exists_of_point hp))).mpr (.inr ⟨hj,hm⟩)
    rcases hl.marking j r run hp with hm | ha
    · exact .inl (hkeep hm)
    rcases (h.row hl r).active ha with ha | ⟨outcome,k,hfin,hm⟩
    · exact .inr ha
    · exact .inl (hkeep (h.mark_overtaken hl hok hp hj hfin hm))
  · cases hq'
    rcases lookup_spawned hk with ⟨_,_,_,_,_,_,_,he⟩ | ⟨_,_,_,_,_,_,_,he⟩ <;> cases he

theorem writing (hl : Lifecycle cfg s) (h : RunStep cfg s t i p c) {outcome : Terminal} {k : FinishCont}
    (hq : t.point? j = some (.finishWrite r outcome k)) : t.Active r := by
  have hw := hl.wellFormed
  rcases h.back hw (point?_eq_some.mp hq) with ⟨rfl,rfl⟩ | ⟨hj,hs⟩ | ⟨_,q',hq',hk⟩
  · obtain ⟨_,hst,row,hr,ha⟩ := h.moved.finishWrite
    exact ⟨row,by rw [hst, hr],ha⟩
  · have hp := point?_eq_some.mpr hs
    rcases (h.row hl r).active (hl.writing j r outcome k hp) with ha | ⟨outcome,k,rfl,_⟩
    · exact ha
    · exact absurd (hw.lock_unique hp h.point rfl rfl) hj
  · cases hq'
    rcases lookup_spawned hk with ⟨_,_,_,_,_,_,_,he⟩ | ⟨_,_,_,_,_,_,_,he⟩ <;> cases he

/-- Terminal events are published at the end of a `_finish_*` only. -/
theorem terminalEvents (h : RunStep cfg s t i p c) (r : RunId) :
    t.terminalEvents r = s.terminalEvents r ∨
      ∃ outcome cp k, p = .finishPublish r outcome cp k ∧
        (t.terminalEvents r).length = (s.terminalEvents r).length + 1 := by
  unfold Sys.terminalEvents
  rw [h.events]
  split
  next hv =>
    cases p
    case finishPublish q outcome cp k =>
      by_cases hq : q = r
      · subst hq
        exact .inr ⟨outcome,cp,k,rfl,by simp [finalEvents]⟩
      · exact .inl (by simp [finalEvents,hq])
    all_goals exact .inl (by simp [finalEvents])
  next => exact .inl (by simp)

theorem ended (hl : Lifecycle cfg s) (h : RunStep cfg s t i p c) (he : s.Ended r) : t.Ended r := by
  obtain ⟨run,hr,ht⟩ := he
  exact ⟨run,(h.row hl r).ended hr ht,ht⟩

theorem publishing (hl : Lifecycle cfg s) (h : RunStep cfg s t i p c) {outcome : Terminal}
    {cp : Option CheckpointRecord} {k : FinishCont} (hq : t.point? j = some (.finishPublish r outcome cp k)) :
    t.Ended r ∧ t.terminalEvents r = [] := by
  have hw := hl.wellFormed
  rcases h.back hw (point?_eq_some.mp hq) with ⟨rfl,rfl⟩ | ⟨hj,hs⟩ | ⟨_,q',hq',hk⟩
  · obtain ⟨rfl,now,hst⟩ := h.moved.finishPublish
    have ha := hl.writing _ r outcome k h.point
    obtain ⟨row,hr,_⟩ := ha
    refine ⟨⟨outcome.assign now row,by rw [hst, finishTransaction_runs]; simp [hr],by simp⟩,?_⟩
    rcases h.terminalEvents r with he | ⟨_,_,_,he,_⟩
    · rw [he]
      by_contra hne
      exact not_active_and_ended (hl.writing _ r outcome k h.point) ((hl.events r).2 hne)
    · cases he
  · have hp := point?_eq_some.mpr hs
    obtain ⟨hend,hev⟩ := hl.publishing j r outcome cp k hp
    refine ⟨h.ended hl hend,?_⟩
    rcases h.terminalEvents r with he | ⟨_,_,_,rfl,_⟩
    · rw [he, hev]
    · exact absurd (hw.lock_unique hp h.point rfl rfl) hj
  · cases hq'
    rcases lookup_spawned hk with ⟨_,_,_,_,_,_,_,he⟩ | ⟨_,_,_,_,_,_,_,he⟩ <;> cases he

theorem eventsOnce (hl : Lifecycle cfg s) (h : RunStep cfg s t i p c) (r : RunId) :
    (t.terminalEvents r).length ≤ 1 ∧ (t.terminalEvents r ≠ [] → t.Ended r) := by
  rcases h.terminalEvents r with he | ⟨outcome,cp,k,rfl,hlen⟩
  · rw [he]
    exact ⟨(hl.events r).1,fun hne => h.ended hl ((hl.events r).2 hne)⟩
  · obtain ⟨hend,hev⟩ := hl.publishing i r outcome cp k h.point
    rw [hev] at hlen
    exact ⟨by simp [hlen],fun _ => h.ended hl hend⟩

theorem checkpoints (hl : Lifecycle cfg s) (h : RunStep cfg s t i p c) (r : RunId) (run : RunRecord)
    (hr : t.store.runs r = some run) :
    (t.store.terminalCheckpoints r).length = if cfg.recovery && run.status.terminal then 1 else 0 := by
  cases h.row hl r with
  | same hs hc => rw [hc]; exact hl.checkpoints r run (hs ▸ hr)
  | started row hs hrow hq hc =>
    rw [hrow] at hr
    cases hr
    simp [hc,hq,RunStatus.terminal]
  | marked row now hs ha hrow hc =>
    rw [hrow] at hr
    cases hr
    rw [hc, hl.checkpoints r row hs, RunStatus.terminal_eq_false.mpr ha]
    simp [RunStatus.terminal]
  | finished row outcome k now hm hp hs ha hrow hc =>
    rw [hrow] at hr
    cases hr
    rw [hc, hl.checkpoints r row hs, RunStatus.terminal_eq_false.mpr ha]
    simp

theorem lifecycle (hl : Lifecycle cfg s) (h : RunStep cfg s t i p c) {ch : Choice} {now : Instant}
    (hok : markSafe (.run i ch now) s) : Lifecycle cfg t where
  wellFormed := h.wellFormed hl.wellFormed
  handles := h.handles hl.wellFormed hl.handles
  marking := fun _ _ _ hq => h.marking hl hok hq
  writing := fun _ _ _ _ hq => h.writing hl hq
  publishing := fun _ _ _ _ _ hq => h.publishing hl hq
  events := h.eventsOnce hl
  checkpoints := h.checkpoints hl

end RunStep

theorem Lifecycle.cancel (hl : Lifecycle cfg s) (targets : List TaskId) :
    Lifecycle cfg (s.requestCancels targets) := by
  have hp := point?_congr (requestCancels_ctl? s targets)
  constructor
  · exact hl.wellFormed.cancel targets
  · exact hl.handles.cancel targets
  · rw [hp]
    exact fun i r run h => (hl.marking i r run h).imp (fun hm => requestCancels_mustCancel.mpr (.inr hm)) id
  · rw [hp]; exact hl.writing
  · rw [hp]; exact hl.publishing
  · exact hl.events
  · exact hl.checkpoints

theorem Lifecycle.accept (hl : Lifecycle cfg s) (k : Call) : Lifecycle cfg (s.accept k) where
  wellFormed := hl.wellFormed.accept k
  handles := hl.handles.accept k
  marking := by
    intro j r run hp
    by_cases hj : j = .call s.calls.length
    · rcases accept_point? hp with ⟨_,hb⟩ | hp
      · cases k <;> cases hb
      · subst hj
        cases hl.wellFormed.owner _ _ hp
    · rcases accept_point? hp with ⟨hj',_⟩ | hp
      · exact absurd hj' hj
      · rw [(accept_other hj).2.2]
        exact hl.marking j r run hp
  writing := by
    intro j r outcome kf hp
    rcases accept_point? hp with ⟨_,hb⟩ | hp
    · cases k <;> cases hb
    · exact hl.writing j r outcome kf hp
  publishing := by
    intro j r outcome cp kf hp
    rcases accept_point? hp with ⟨_,hb⟩ | hp
    · cases k <;> cases hb
    · exact hl.publishing j r outcome cp kf hp
  events := hl.events
  checkpoints := hl.checkpoints

theorem step_lifecycle (hl : Lifecycle cfg s) (hok : markSafe l s) (h : step cfg l s = some t) : Lifecycle cfg t := by
  cases step_cases h with
  | run i ch now p c t h => exact h.lifecycle hl hok
  | cancel k => exact hl.cancel _
  | call k => exact hl.accept k

theorem initial_lifecycle (agents : AgentId → Option AgentRecord) : Lifecycle cfg (initial agents) where
  wellFormed := initial_wellFormed agents
  handles := initial_handles agents
  marking := by simp [initial,point?]
  writing := by simp [initial,point?]
  publishing := by simp [initial,point?]
  events := by simp [initial,Sys.terminalEvents]
  checkpoints := by simp [initial]

theorem Run.lifecycle {agents : AgentId → Option AgentRecord} (h : Run cfg markSafe (initial agents) s) :
    Lifecycle cfg s :=
  Reaches.invariant (I := Lifecycle cfg) (fun _ _ _ hl hok he => step_lifecycle hl hok he) h (initial_lifecycle agents)

theorem step_ended {run : RunRecord} (hl : Lifecycle cfg s) (h : step cfg l s = some t)
    (hr : s.store.runs r = some run) (ht : run.status.terminal = true) : t.store.runs r = some run := by
  cases step_cases h with
  | run i ch now p c t h => exact (h.row hl r).ended hr ht
  | cancel k => exact hr
  | call k => exact hr

/-- A committed terminal status is final: in a run that never loses a mark, the row
of an ended run never changes again, it has exactly one terminal checkpoint, and no
run ever has two terminal events. -/
theorem terminal_status_absorbing {agents : AgentId → Option AgentRecord}
    (hs : Run cfg markSafe (initial agents) s) (ht : Run cfg markSafe s t) (r : RunId) :
    (t.terminalEvents r).length ≤ 1 ∧
    ∀ run, s.store.runs r = some run → run.status.terminal = true →
      t.store.runs r = some run ∧ (cfg.recovery = true → (t.store.terminalCheckpoints r).length = 1) := by
  have hlt : Lifecycle cfg t := Run.lifecycle (hs.trans ht)
  refine ⟨(hlt.events r).1,fun run hr hend => ?_⟩
  have hstay : t.store.runs r = some run :=
    (Reaches.invariant (I := fun u => Lifecycle cfg u ∧ u.store.runs r = some run)
      (fun _ _ _ ⟨hl,hr⟩ hok he => ⟨step_lifecycle hl hok he,step_ended hl he hr hend⟩) ht ⟨hs.lifecycle,hr⟩).2
  refine ⟨hstay,fun hrec => ?_⟩
  rw [hlt.checkpoints r run hstay, hrec, hend]
  rfl

/-- A run that is started and executed to its end. -/
def completedLabels : List Label :=
  [.call (.startRun 0 "hello")] ++ resumes (.call 0) 5 ++ resumes (.run 0) 6 ++
    [.run (.run 0) (.respond sampleResponse) 0] ++ resumes (.run 0) 4

def completed : Sys := after (step sampleConfig) completedLabels (initial soloAgents) (by decide)

theorem completed_run : Run sampleConfig markSafe (initial soloAgents) completed :=
  after_reaches markSafe _ (by decide)

/-- Stopping it afterwards. -/
def stoppedLate : Sys :=
  after (step sampleConfig) (.call (.stopRun 0) :: resumes (.call 1) 1) completed (by decide)

theorem stoppedLate_run : Run sampleConfig markSafe completed stoppedLate := after_reaches markSafe _ (by decide)

theorem terminal_status_absorbing_completed :
    completed.status? 0 = some .succeeded ∧ stoppedLate.store.runs 0 = completed.store.runs 0 ∧
      (stoppedLate.terminalEvents 0).length ≤ 1 ∧ (stoppedLate.store.terminalCheckpoints 0).length = 1 := by
  have h := terminal_status_absorbing completed_run stoppedLate_run 0
  have hr : completed.store.runs 0 = some ((completed.store.runs 0).get (by decide)) := (Option.some_get _).symm
  obtain ⟨hsame,hcount⟩ := h.2 _ hr (by decide)
  exact ⟨by decide,hsame.trans hr.symm,h.1,hcount rfl⟩

/-- `stop_run` arrives between the commit of the run and the registration of its
task, and commits the failure between the two halves of `_mark_running`. -/
def failedLabels : List Label :=
  [.call (.startRun 0 "hello")] ++ resumes (.call 0) 3 ++ [.call (.stopRun 0)] ++ resumes (.call 1) 2 ++
    resumes (.call 0) 1 ++ resumes (.run 0) 2 ++ resumes (.call 1) 3

def failedEarly : Sys := after (step sampleConfig) failedLabels (initial soloAgents) (by decide)

def overwrittenLabels : List Label :=
  resumes (.run 0) 4 ++ [.run (.run 0) (.respond sampleResponse) 0] ++ resumes (.call 1) 1 ++ resumes (.run 0) 4

def overwritten : Sys := after (step sampleConfig) overwrittenLabels failedEarly (by decide)

/-- A failed run becomes RUNNING again, then SUCCEEDED with two terminal checkpoints
and two terminal events. -/
theorem mark_overwrites_terminal_status :
    ∃ s t, Run sampleConfig anyStep (initial soloAgents) s ∧ Run sampleConfig anyStep s t ∧
      s.status? 0 = some .failed ∧ t.status? 0 = some .succeeded ∧
      (t.store.terminalCheckpoints 0).length = 2 ∧ (t.terminalEvents 0).length = 2 :=
  ⟨failedEarly,overwritten,after_reaches anyStep _ (execOk_anyStep _ _),after_reaches anyStep _ (execOk_anyStep _ _),
    by decide,by decide,by decide,by decide⟩

end AgentGraph.Manager
