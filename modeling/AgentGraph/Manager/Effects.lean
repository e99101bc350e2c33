import AgentGraph.Manager.Steps

/-! # Effects of one step of the manager

What a step does besides moving its own task and committing: the tasks it creates
and cancels, the registry, the terminal lock and the terminal events.
-/
set_option autoImplicit false
namespace AgentGraph.Manager
open Sys

variable {cfg : Config} {s t : Sys} {i j : TaskId} {p q : Point} {c : Ctl} {ch : Choice} {now : Instant} {eff : Effect}

/-- The run whose task `_start_run` has created. -/
def launched : Point → Ctl → Option RunId
  | .startClose _ r _, .waiting _ => some r
  | _, _ => none

/-- The run whose task has reached its `finally` clause. -/
def forgotten : Point → Ctl → Option RunId
  | .finishLock r _ k, .done _ | .finishRead r _ k, .done _ | .finishWrite r _ k, .done _
  | .finishPublish r _ _ k, .done _ => k.forgets r
  | _, _ => none

/-- The terminal lock is taken at the first await of a `_finish_*` and given back
when its body is left. -/
def lockChange (i : TaskId) : Point → Ctl → Option (RunId × Option TaskId)
  | .finishLock r _ _, .waiting _ => some (r,some i)
  | .finishRead _ _ _, .waiting (.finishWrite _ _ _) => none
  | .finishRead r _ _, _ => some (r,none)
  | .finishWrite r _ _, .done _ => some (r,none)
  | .finishPublish r _ _ _, _ => some (r,none)
  | _, _ => none

/-- A child is given its context when its task is created, and loses it when that ends. -/
def contextChange (p : Point) (c : Ctl) : Option (RunId × Option DelegationContext) :=
  match p, c with
  | .startClose a r _, .waiting _ => a.child.map fun n => (r,some n.context)
  | _, _ => (forgotten p c).map fun r => (r,none)

theorem contextChange_forgotten (h : launched p c = none) :
    contextChange p c = (forgotten p c).map fun r => (r,none) := by
  cases p <;> cases c <;> first | rfl | cases h

/-- The terminal event a resumed task publishes. -/
def finalEvents (s : Sys) : Point → List RuntimeEvent
  | .finishPublish r outcome _ _ => [outcome.event r (((s.store.runs r).map RunRecord.agentId).getD 0)]
  | _ => []

/-- The effects of a step of task `i` from `p`, its commit apart. -/
structure Effects (s : Sys) (i : TaskId) (p : Point) (final : List RuntimeEvent) (eff : Effect) : Prop where
  publish : eff.publish.filter RuntimeEvent.terminal = final
  spawn : eff.spawn = (launched p eff.next).toList.map (fun r => (TaskId.run r,Point.runBegin r)) ++
    roundSpawn eff.next
  nextNode : eff.nextNode.getD s.nextNode = s.nextNode + (roundSpawn eff.next).length
  register : eff.register = launched p eff.next
  forget : eff.forget = forgotten p eff.next
  cancel : eff.cancel = cancelled s eff.next
  terminalLock : eff.terminalLock = lockChange i p eff.next
  contexts : eff.contexts = contextChange p eff.next

/-- A continuation, with the agent lock its caller gives back. -/
theorem Effect.Regular.effects {f : Option RunId} {agentLock : Option (AgentId × Option TaskId)}
    (h : eff.Regular s f) (hl : launched p eff.next = none) (hf : forgotten p eff.next = f)
    (hk : lockChange i p eff.next = none) : Effects s i p [] { eff with agentLock := agentLock } :=
  ⟨by simp [h.publish],by simp [hl,h.spawn],h.nextNode,by simp [hl,h.register],by simp [hf,h.forget],h.cancel,
    by simp [hk,h.terminalLock],by simp [contextChange_forgotten hl,hf,h.contexts]⟩

/-- A continuation whose caller leaves the body of a `_finish_*`. -/
theorem Effect.Regular.unlocked {f : Option RunId} {publish final : List RuntimeEvent} {r : RunId}
    (h : eff.Regular s f) (hl : launched p eff.next = none) (hf : forgotten p eff.next = f)
    (hk : lockChange i p eff.next = some (r,none)) (hp : publish.filter RuntimeEvent.terminal = final) :
    Effects s i p final { eff with publish := publish, terminalLock := some (r,none) } :=
  ⟨hp,by simp [hl,h.spawn],h.nextNode,by simp [hl,h.register],by simp [hf,h.forget],h.cancel,by simp [hk],
    by simp [contextChange_forgotten hl,hf,h.contexts]⟩

@[simp] theorem checkpointEvent_terminal (r : RunId) (cp : Option CheckpointRecord) :
    (checkpointEvent cfg r cp).filter RuntimeEvent.terminal = [] := by
  cases cp <;> rfl

theorem failStart_effects {a : StartCall} {e : Exc} (hp : p.started? = some a) :
    Effects s i p [] { s.failStart a e with agentLock := some (a.agentId,none) } := by
  refine (s.failStart_regular a e).effects ?_ ?_ ?_ <;> (rw [failStart_next]; cases p <;> first | rfl | cases hp)

theorem execRaise_effects {r : RunId} {e : Exc} (hp : p.body? = some r) : Effects s i p [] (execRaise r e) := by
  refine (s.execRaise_regular r e).effects ?_ ?_ ?_ <;> (cases p <;> first | rfl | cases hp)

theorem resumeStart_effects (h : s.resumeStart cfg i p ch = some eff) : Effects s i p (finalEvents s p) eff := by
  unfold resumeStart at h
  split at h
  next a => split at h <;> cases h; exact ⟨rfl,rfl,rfl,rfl,rfl,rfl,rfl,rfl⟩
  next a =>
    split at h <;> cases h
    · exact failStart_effects rfl
    · exact ⟨rfl,rfl,rfl,rfl,rfl,rfl,rfl,rfl⟩
  next a r cp => cases h; exact ⟨rfl,rfl,rfl,rfl,rfl,rfl,rfl,rfl⟩
  next a r cp => cases h; exact ⟨rfl,rfl,rfl,rfl,rfl,rfl,rfl,rfl⟩
  next a r cp =>
    cases h
    have hr := s.startReturn_regular r a.child
    exact ⟨by simp [createdEvent,RuntimeEvent.terminal,finalEvents],hr.spawn,hr.nextNode,hr.register,hr.forget,
      hr.cancel,hr.terminalLock,hr.contexts⟩
  next => cases h; exact failStart_effects rfl
  next => cases h; exact failStart_effects rfl
  next => cases h; exact failStart_effects rfl
  next => cases h; exact failStart_effects rfl
  next => cases h

theorem resumeNode_effects (h : s.resumeNode cfg p ch = some eff) : Effects s i p (finalEvents s p) eff := by
  unfold resumeNode at h
  split at h
  next T node => split at h <;> cases h <;> exact ⟨rfl,rfl,rfl,rfl,rfl,rfl,rfl,rfl⟩
  next n =>
    split at h
    · cases h
    split at h
    · cases h; exact ⟨rfl,rfl,rfl,rfl,rfl,rfl,rfl,rfl⟩
    split at h <;> cases h <;> exact ⟨rfl,rfl,rfl,rfl,rfl,rfl,rfl,rfl⟩
  next n c => split at h <;> cases h <;> exact ⟨rfl,rfl,rfl,rfl,rfl,rfl,rfl,rfl⟩
  next n c => split at h <;> cases h; exact ⟨rfl,rfl,rfl,rfl,rfl,rfl,rfl,rfl⟩
  next n c =>
    split at h
    · cases h; exact ⟨rfl,rfl,rfl,rfl,rfl,rfl,rfl,rfl⟩
    · split at h <;> cases h <;> exact ⟨rfl,rfl,rfl,rfl,rfl,rfl,rfl,rfl⟩
  next => cases h

theorem resumeRun_effects (h : s.resumeRun cfg p ch now = some eff) : Effects s i p (finalEvents s p) eff := by
  unfold resumeRun at h
  split at h
  next r => cases h; exact ⟨rfl,rfl,rfl,rfl,rfl,rfl,rfl,rfl⟩
  next r =>
    split at h
    · cases h; exact ⟨rfl,rfl,rfl,rfl,rfl,rfl,rfl,rfl⟩
    · split at h <;> cases h <;> exact ⟨rfl,rfl,rfl,rfl,rfl,rfl,rfl,rfl⟩
  next r run => cases h; exact ⟨rfl,rfl,rfl,rfl,rfl,rfl,rfl,rfl⟩
  next r run cp =>
    cases h
    have hp : (checkpointEvent cfg r cp ++ [startedEvent r run.agentId]).filter RuntimeEvent.terminal = [] := by
      simp [startedEvent,RuntimeEvent.terminal]
    cases hd : cfg.runtimeDelay <;> exact ⟨hp,rfl,rfl,rfl,rfl,rfl,rfl,rfl⟩
  next r run => cases h; exact ⟨rfl,rfl,rfl,rfl,rfl,rfl,rfl,rfl⟩
  next r run => split at h <;> cases h <;> exact ⟨rfl,rfl,rfl,rfl,rfl,rfl,rfl,rfl⟩
  next r run agent =>
    split at h <;> cases h
    · exact execRaise_effects rfl
    · exact (s.invokeRuntime_regular cfg r _).effects rfl rfl rfl
  next r request response => cases h; exact ⟨rfl,rfl,rfl,rfl,rfl,rfl,rfl,rfl⟩
  next r request e => split at h <;> cases h; exact execRaise_effects rfl
  next r T content response => cases h; exact ⟨rfl,rfl,rfl,rfl,rfl,rfl,rfl,rfl⟩
  next r T content e => split at h <;> cases h; exact execRaise_effects rfl
  next => cases h

theorem resumeReady_effects (h : s.resumeReady cfg p ch = some eff) : Effects s i p (finalEvents s p) eff := by
  unfold resumeReady at h
  split at h
  next r T tasks => split at h <;> cases h; exact (s.runGraph_regular cfg r _).effects rfl rfl rfl
  next r T tasks k =>
    split at h
    · split at h <;> cases h; exact ⟨rfl,rfl,rfl,rfl,rfl,rfl,rfl,rfl⟩
    · cases h
  next r tasks e =>
    split at h
    next hd =>
      split at h <;> cases h
      · exact ⟨rfl,rfl,rfl,rfl,rfl,(allDone_liveNodes hd).symm,rfl,rfl⟩
      · exact execRaise_effects rfl
      · exact execRaise_effects rfl
    next => cases h
  next r tasks => split at h <;> cases h; exact execRaise_effects rfl
  next => cases h

/-- Forgetting a run depends on the awaiter of the `_finish_*` only. -/
theorem FinishNext.forgotten {r : RunId} {k : FinishCont} {c : Ctl} (h : FinishNext s r k c)
    (hp : ∀ result, forgotten p (.done result) = k.forgets r) (hw : ∀ q, forgotten p (.waiting q) = none) :
    forgotten p c = k.forgets r := by
  cases h with
  | returned => exact hp _
  | reraised e => exact hp _
  | stopFailed k c h => cases c with
    | waiting q => exact hw q
    | done result => exact hp result
  | stopCancelled k => exact hw _
  | shutdown rest c h => cases c with
    | waiting q => exact hw q
    | done result => exact hp result

/-- Nobody who awaits a `_finish_*` goes on inside the body of one. -/
theorem FinishNext.leaves {r : RunId} {k : FinishCont} {c : Ctl} (h : FinishNext s r k c) (outcome : Terminal) :
    lockChange i (.finishRead r outcome k) c = some (r,none) := by
  cases h with
  | returned => rfl
  | reraised e => rfl
  | stopCancelled k => rfl
  | shutdown rest c h => cases h <;> rfl
  | stopFailed k c h =>
    cases h with
    | call => rfl
    | child n e => rfl
    | loop rest k q h => cases h <;> rfl

theorem resumeFinish_effects (h : s.resumeFinish cfg i p ch now = some eff) :
    Effects s i p (finalEvents s p) eff := by
  unfold resumeFinish at h
  split at h
  next r outcome k => split at h <;> cases h; exact ⟨rfl,rfl,rfl,rfl,rfl,rfl,rfl,rfl⟩
  next r outcome k =>
    have hn := s.finishReturn_next r k
    have hq := s.finishReturn_regular r k
    have hr : Effects s i (.finishRead r outcome k) [] { s.finishReturn r k with terminalLock := some (r,none) } :=
      hq.unlocked rfl (hn.forgotten (fun _ => rfl) (fun _ => rfl)) (hn.leaves outcome) (by rw [hq.publish]; rfl)
    split at h
    · cases h; exact hr
    · split at h <;> cases h
      · exact hr
      · exact ⟨rfl,rfl,rfl,rfl,rfl,rfl,rfl,rfl⟩
  next r outcome k => cases h; exact ⟨rfl,rfl,rfl,rfl,rfl,rfl,rfl,rfl⟩
  next r outcome cp k =>
    cases h
    have hn := s.finishReturn_next r k
    exact (s.finishReturn_regular r k).unlocked rfl (hn.forgotten (fun _ => rfl) (fun _ => rfl)) rfl
      (by simp [finalEvents])
  next => cases h

theorem resumeStop_effects (h : s.resumeStop p ch = some eff) :
    Effects s i p (finalEvents s p) eff := by
  unfold resumeStop at h
  split at h
  next r k =>
    split at h
    · cases h; exact (s.abort_regular _ _).effects rfl rfl rfl
    · split at h <;> cases h
      · exact (s.stopConflict_regular _ k).effects rfl rfl rfl
      · exact ⟨rfl,rfl,rfl,rfl,rfl,rfl,rfl,rfl⟩
  next r k => split at h <;> cases h; exact ⟨rfl,rfl,rfl,rfl,rfl,rfl,rfl,rfl⟩
  next r k => split at h <;> cases h; exact (s.stopConflict_regular _ k).effects rfl rfl rfl
  next r k =>
    split at h <;> cases h
    · exact (s.abort_regular _ _).effects rfl rfl rfl
    · exact (s.stopReturn_regular k).effects rfl rfl rfl
  next k => cases h; exact (s.descLoop_regular _ k).effects rfl rfl rfl
  next c rest k =>
    split at h
    · cases h; exact (s.abort_regular _ _).effects rfl rfl rfl
    · split at h <;> cases h
      · exact (s.descLoop_regular _ k).effects rfl rfl rfl
      · exact ⟨rfl,rfl,rfl,rfl,rfl,rfl,rfl,rfl⟩
  next => cases h

theorem resumeOther_effects (h : s.resumeOther cfg i p ch = some eff) :
    Effects s i p (finalEvents s p) eff := by
  unfold resumeOther at h
  split at h
  · cases h; exact ⟨rfl,rfl,rfl,rfl,rfl,rfl,rfl,rfl⟩
  next runs => split at h <;> cases h; exact (s.shutdownLoop_regular _).effects rfl rfl rfl
  next runs => split at h <;> cases h; exact (s.shutdownLoop_regular _).effects rfl rfl rfl
  next a graph => split at h <;> cases h; exact ⟨rfl,rfl,rfl,rfl,rfl,rfl,rfl,rfl⟩
  next a graph =>
    split at h
    · cases h; exact ⟨rfl,rfl,rfl,rfl,rfl,rfl,rfl,rfl⟩
    · split at h <;> cases h <;> exact ⟨rfl,rfl,rfl,rfl,rfl,rfl,rfl,rfl⟩
  next a graph => cases h; exact ⟨rfl,rfl,rfl,rfl,rfl,rfl,rfl,rfl⟩
  next => cases h

theorem resume_effects (h : s.resume cfg i p ch now = some eff) :
    Effects s i p (finalEvents s p) eff := by
  unfold resume at h
  split at h
  iterate 5 exact resumeStart_effects h
  iterate 4 exact resumeNode_effects h
  iterate 9 exact resumeRun_effects h
  iterate 3 exact resumeReady_effects h
  iterate 4 exact resumeFinish_effects h
  iterate 5 exact resumeStop_effects h
  iterate 5 exact resumeOther_effects h

theorem deliver_effects (h : s.deliver p ch = some eff) : Effects s i p [] eff := by
  cases p
  case invoke r request =>
    simp only [deliver] at h
    split at h <;> cases h
    · exact ⟨rfl,rfl,rfl,rfl,rfl,rfl,rfl,rfl⟩
    · exact execRaise_effects rfl
  case readyWait r T tasks => cases h; exact ⟨rfl,rfl,rfl,rfl,rfl,rfl,rfl,rfl⟩
  case readyGather r tasks e =>
    simp only [deliver] at h
    split at h <;> cases h
    next hd => exact ⟨rfl,rfl,rfl,rfl,rfl,(allDone_liveNodes hd).symm,rfl,rfl⟩
  case readyCleanup r tasks =>
    simp only [deliver] at h
    split at h <;> cases h
    exact execRaise_effects rfl
  case markRead r | markWrite r _ | markPublish r _ _ | delay r _ | readAgent r _ | validate r _ _
      | synthesize r _ _ => cases h; exact execRaise_effects rfl
  case startLock a => cases h; exact (s.failStart_regular a _).effects rfl rfl (by rw [failStart_next]; rfl)
  case startWrite a | startRefresh a _ _ | startClose a _ _ | startPublish a _ _ =>
    cases h
    exact failStart_effects rfl
  case finishLock r _ k =>
    cases h
    exact (s.finishAbort_regular r k).effects rfl (by rw [finishAbort_next]; rfl) (by rw [finishAbort_next]; rfl)
  case finishRead r _ k | finishWrite r _ k | finishPublish r _ _ k =>
    cases h
    have hr := s.finishAbort_regular r k
    exact hr.unlocked rfl (by rw [finishAbort_next]; rfl) (by rw [finishAbort_next]; rfl) (by rw [hr.publish]; rfl)
  case stopRead r k | stopWait r k | stopReadBack r k => cases h; exact (s.abort_regular _ _).effects rfl rfl rfl
  case descList k | descRead _ _ k => cases h; exact (s.abort_regular _ _).effects rfl rfl rfl
  all_goals
    cases h
    exact ⟨rfl,rfl,rfl,rfl,rfl,rfl,rfl,rfl⟩

/-- A delivered cancellation commits nothing. -/
theorem deliver_commit (h : s.deliver p ch = some eff) : eff.commit = none := by
  cases p
  case invoke r request =>
    simp only [deliver] at h
    split at h <;> cases h
    · rfl
    · exact (s.execRaise_regular r _).commit
  case readyGather r tasks e => simp only [deliver] at h; split at h <;> cases h; rfl
  case readyCleanup r tasks =>
    simp only [deliver] at h
    split at h <;> cases h
    exact (s.execRaise_regular r _).commit
  case startLock a | startWrite a | startRefresh a _ _ | startClose a _ _ | startPublish a _ _ =>
    cases h
    exact (s.failStart_regular a .cancelled).commit
  case finishLock r _ k | finishRead r _ k | finishWrite r _ k | finishPublish r _ _ k =>
    cases h
    exact (s.finishAbort_regular r k).commit
  case stopRead r k | stopWait r k | stopReadBack r k => cases h; exact (s.abort_regular (k.root r) .cancelled).commit
  case descList k | descRead _ _ k => cases h; exact (s.abort_regular k.root .cancelled).commit
  all_goals
    cases h
    rfl

end AgentGraph.Manager
