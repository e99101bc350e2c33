import AgentGraph.Manager.WellFormed

/-! # What is known about the task of a run

`stop_run` writes CANCELLED for a run only after it has seen its task end, and
`shutdown` only after it has cancelled it. Until the task of a run writes RUNNING,
a cancellation that was requested has not been received.
-/
set_option autoImplicit false
namespace AgentGraph.Manager
open Sys

variable {cfg : Config} {s t : Sys} {l : Label} {i j : TaskId} {p q : Point} {c : Ctl} {store : Store} {r : RunId}

/-- The run whose task `stop_run` has seen end. -/
def FinishCont.stopped? (r : RunId) : FinishCont → Option RunId
  | .stopCancelled _ => some r
  | _ => none

def Point.stopped? : Point → Option RunId
  | .finishLock r _ k | .finishRead r _ k | .finishWrite r _ k | .finishPublish r _ _ k => k.stopped? r
  | .stopReadBack r _ => some r
  | _ => none

/-- The runs `shutdown` has cancelled and still has to write for. -/
def FinishCont.shutRuns (r : RunId) : FinishCont → List RunId
  | .shutdown rest => r :: rest.map Prod.fst
  | _ => []

def Point.shutRuns : Point → List RunId
  | .shutdownWait runs => runs
  | .finishLock r _ k | .finishRead r _ k | .finishWrite r _ k | .finishPublish r _ _ k => k.shutRuns r
  | _ => []

/-- The task of the run has not written RUNNING yet. -/
def Point.unmarked : Point → Bool
  | .runBegin _ | .markRead _ | .markWrite _ _ => true
  | _ => false

structure Handles (s : Sys) : Prop where
  registered : ∀ r ∈ s.registry, s.tasks (.run r) ≠ none
  stopped : ∀ i p r, s.point? i = some p → p.stopped? = some r → s.isDone (.run r) = true
  shut : ∀ i p, s.point? i = some p → ∀ r ∈ p.shutRuns,
    s.isDone (.run r) = true ∨ s.cancelRequested (.run r) = true
  unmarked : ∀ i p, s.point? i = some p → p.unmarked = true → s.cancelRequested i = true → s.mustCancel i = true

theorem DescNext.handles {children : List RunId} {k : DescCont} (h : DescNext s children k q) :
    q.stopped? = none ∧ q.shutRuns = [] := by
  cases h <;> exact ⟨rfl,rfl⟩

theorem StopNext.handles {result : Result} {k : StopCont} (h : StopNext s result k (.waiting q)) :
    q.stopped? = none ∧ q.shutRuns = [] := by
  cases h with
  | loop rest k q h => exact h.handles

theorem FinishNext.handles {k : FinishCont} (h : FinishNext s r k (.waiting q)) :
    (q.stopped? = none ∨ q.stopped? = k.stopped? r) ∧ ∀ x ∈ q.shutRuns, x ∈ k.shutRuns r := by
  cases h with
  | stopFailed k c h => exact ⟨.inl h.handles.1,by simp [h.handles.2]⟩
  | stopCancelled k => exact ⟨.inr rfl,by simp [Point.shutRuns]⟩
  | shutdown rest c h =>
    cases h with
    | next r' outcome rest =>
      exact ⟨.inl rfl,fun x hx => List.mem_cons_of_mem _ (by simpa [Point.shutRuns,FinishCont.shutRuns] using hx)⟩

theorem GraphNext.handles {T : TeamState} (h : GraphNext cfg s r T q) : q.stopped? = none ∧ q.shutRuns = [] := by
  cases h <;> exact ⟨rfl,rfl⟩

theorem InvokeNext.handles {request : AgentExecutionRequest} (h : InvokeNext cfg s r request q) :
    q.stopped? = none ∧ q.shutRuns = [] := by
  cases h with
  | call => exact ⟨rfl,rfl⟩
  | refused e he => exact ⟨rfl,rfl⟩
  | team graph q hv hg hd h => exact h.handles

theorem Continued.handles (h : Continued s p (.waiting q)) :
    (q.stopped? = none ∨ q.stopped? = p.stopped?) ∧ ∀ x ∈ q.shutRuns, x ∈ p.shutRuns := by
  cases h
  case finishSkip hc => exact hc.handles
  case finishPublish hc => exact hc.handles
  case stopTerminal hc => exact ⟨.inl hc.handles.1,by simp [hc.handles.2]⟩
  case stopTimeout hc => exact ⟨.inl hc.handles.1,by simp [hc.handles.2]⟩
  case stopReadBack hc => exact ⟨.inl hc.handles.1,by simp [hc.handles.2]⟩
  case descList hq => exact ⟨.inl hq.handles.1,by simp [hq.handles.2]⟩
  case descSkip hq => exact ⟨.inl hq.handles.1,by simp [hq.handles.2]⟩
  case shutdownWait runs outcomes h hc =>
    cases hc with
    | next r outcome rest =>
      refine ⟨.inl rfl,fun x hx => ?_⟩
      obtain ⟨o,ho,rfl⟩ : ∃ o ∈ (r,outcome) :: rest, o.1 = x := by
        simpa [Point.shutRuns,FinishCont.shutRuns,eq_comm] using hx
      exact h o ho

theorem Moved.stopped (h : Moved cfg s i p (.waiting q) store) (hq : q.stopped? = some r) :
    p.stopped? = some r ∨ s.isDone (.run r) = true := by
  cases h with
  | delivered hm hd hs =>
    cases hd
    all_goals cases hq
  | resumed hm hn =>
    cases hn
    case continued h =>
      rcases h.handles.1 with h | h
      · rw [h] at hq; cases hq
      · exact .inl (h ▸ hq)
    case invoked hq' => rw [hq'.handles.1] at hq; cases hq
    case roundDone hq' => rw [hq'.handles.1] at hq; cases hq
    case finishLock => exact .inl hq
    case finishRead => exact .inl hq
    case finishWrite => exact .inl hq
    case stopWait h => cases hq; exact .inr h
    all_goals cases hq

theorem Moved.shut (h : Moved cfg s i p (.waiting q) store) (hr : r ∈ q.shutRuns) :
    r ∈ p.shutRuns ∨ (q = .shutdownWait s.registry ∧ r ∈ s.registry) := by
  cases h with
  | delivered hm hd hs =>
    cases hd
    all_goals cases hr
  | resumed hm hn =>
    cases hn
    case continued h => exact .inl (h.handles.2 r hr)
    case invoked hq' => rw [hq'.handles.2] at hr; cases hr
    case roundDone hq' => rw [hq'.handles.2] at hr; cases hr
    case finishLock => exact .inl hr
    case finishRead => exact .inl hr
    case finishWrite => exact .inl hr
    case shutdownBegin => exact .inr ⟨rfl,hr⟩
    all_goals cases hr

/-- Before it writes RUNNING, the task of a run moves only when it is not cancelled. -/
theorem Moved.unmarked (h : Moved cfg s i p (.waiting q) store) (hq : q.unmarked = true) :
    s.mustCancel i = false ∧ p.unmarked = true ∧ cancelled s (.waiting q) = [] := by
  cases h with
  | delivered hm hd hs =>
    cases hd
    all_goals cases hq
  | resumed hm hn =>
    cases hn
    case continued h =>
      have := h.continues
      cases q <;> first | exact Bool.noConfusion hq | exact Bool.noConfusion this
    case invoked hq' =>
      have := hq'.runs
      cases q <;> first | exact Bool.noConfusion hq | exact Bool.noConfusion this
    case roundDone hq' =>
      have := hq'.runs
      cases q <;> first | exact Bool.noConfusion hq | exact Bool.noConfusion this
    case runBegin => exact ⟨hm,rfl,rfl⟩
    case markRead => exact ⟨hm,rfl,rfl⟩
    all_goals cases hq

theorem launched_lookup (h : launched p c = some r) : (spawned p c).lookup (.run r) = some (.runBegin r) := by
  simp [spawned,h]

theorem mem_updateRegistry {registry : List RunId} {register forget : Option RunId}
    (h : r ∈ updateRegistry registry register forget) : register = some r ∨ r ∈ registry := by
  unfold updateRegistry at h
  split at h
  next r' _ =>
    split at h
    · exact .inr h
    · rcases List.mem_append.mp h with h | h
      · exact .inr h
      · exact .inl (by rw [List.mem_singleton.mp h])
  next => exact .inr (List.mem_filter.mp h).1
  next => exact .inr h

theorem cancelRequested_new (h : s.tasks j = some (.new q)) : s.cancelRequested j = false := by
  simp [Sys.cancelRequested,h,Task.new]

theorem RunStep.handles (hw : WellFormed s) (hi : Handles s) (h : RunStep cfg s t i p c) : Handles t where
  registered := by
    intro r hr
    rw [h.registry] at hr
    rcases mem_updateRegistry hr with hl | hr
    · rw [h.fresh _ _ (launched_lookup hl)]
      simp
    · exact h.tasks_mono hw (hi.registered r hr)
  stopped := by
    intro j q r hq hr
    rcases h.back hw (point?_eq_some.mp hq) with ⟨rfl,rfl⟩ | ⟨_,hs⟩ | ⟨_,q',hq',hl⟩
    · rcases h.moved.stopped hr with hp | hd
      · exact h.isDone hw (hi.stopped _ _ _ h.point hp)
      · exact h.isDone hw hd
    · exact h.isDone hw (hi.stopped j q r (point?_eq_some.mpr hs) hr)
    · cases hq'
      rcases lookup_spawned hl with ⟨_,_,_,_,_,_,_,rfl⟩ | ⟨_,_,_,_,_,_,_,rfl⟩ <;> cases hr
  shut := by
    have hmono : ∀ {r}, s.isDone (.run r) = true ∨ s.cancelRequested (.run r) = true →
        t.isDone (.run r) = true ∨ t.cancelRequested (.run r) = true :=
      Or.imp (h.isDone hw) (h.keepsCancelRequested hw)
    intro j q hq r hr
    rcases h.back hw (point?_eq_some.mp hq) with ⟨rfl,rfl⟩ | ⟨_,hs⟩ | ⟨_,q',hq',hl⟩
    · rcases h.moved.shut hr with hp | ⟨rfl,hreg⟩
      · exact hmono (hi.shut _ _ h.point r hp)
      · have hex := hi.registered r hreg
        by_cases hd : s.isDone (.run r) = true
        · exact .inl (h.isDone hw hd)
        · refine .inr ((h.cancelRequested _ (h.not_spawned hw hex)).mpr (.inl ⟨?_,?_⟩))
          · exact List.mem_flatMap.mpr ⟨r,hreg,by simp [cancelTargets]⟩
          · exact isSome_point?_of_not_done hex hd
    · exact hmono (hi.shut j q (point?_eq_some.mpr hs) r hr)
    · cases hq'
      rcases lookup_spawned hl with ⟨_,_,_,_,_,_,_,rfl⟩ | ⟨_,_,_,_,_,_,_,rfl⟩ <;> cases hr
  unmarked := by
    intro j q hq hu hcr
    rcases h.back hw (point?_eq_some.mp hq) with ⟨rfl,rfl⟩ | ⟨hj,hs⟩ | ⟨_,q',hq',hl⟩
    · obtain ⟨hm,hp,hc⟩ := h.moved.unmarked hu
      rcases (h.cancelRequested _ (h.not_spawned hw (WellFormed.exists_of_point h.point))).mp hcr with ⟨hn,_⟩ | hcr
      · rw [hc] at hn
        cases hn
      · rw [hi.unmarked _ _ h.point hp hcr] at hm
        cases hm
    · have hp : s.point? j = some q := point?_eq_some.mpr hs
      have hl := h.not_spawned hw (WellFormed.exists_of_point hp)
      refine (h.mustCancel j hl).mpr ?_
      rcases (h.cancelRequested j hl).mp hcr with hn | hcr
      · exact .inl hn
      · exact .inr ⟨hj,hi.unmarked j q hp hu hcr⟩
    · rw [cancelRequested_new (h.fresh _ _ hl)] at hcr
      cases hcr

theorem isDone_congr (h : s.ctl? = t.ctl?) : s.isDone = t.isDone := by
  unfold Sys.isDone
  rw [result?_congr h]

theorem Handles.cancel (hi : Handles s) (targets : List TaskId) : Handles (s.requestCancels targets) := by
  have hc := requestCancels_ctl? s targets
  have hp := point?_congr hc
  have hd := isDone_congr hc
  constructor
  · intro r hr
    refine fun hn => hi.registered r hr ?_
    rw [← ctl?_eq_none, ← hc]
    exact ctl?_eq_none.mpr hn
  · rw [hp, hd]; exact hi.stopped
  · rw [hp, hd]
    intro i p hip r hr
    exact (hi.shut i p hip r hr).imp id fun h => requestCancels_cancelRequested.mpr (.inr h)
  · rw [hp]
    intro i p hip hu hcr
    refine requestCancels_mustCancel.mpr ?_
    exact (requestCancels_cancelRequested.mp hcr).imp id fun h => hi.unmarked i p hip hu h

/-- The arrival of a request leaves every other task as it is. -/
theorem accept_other {k : Call} (h : j ≠ .call s.calls.length) :
    (s.accept k).isDone j = s.isDone j ∧ (s.accept k).cancelRequested j = s.cancelRequested j ∧
      (s.accept k).mustCancel j = s.mustCancel j := by
  have ht : (s.accept k).tasks j = s.tasks j := by rw [accept_tasks, if_neg h]
  unfold Sys.isDone Sys.result? Sys.cancelRequested Sys.mustCancel
  rw [ht]
  exact ⟨rfl,rfl,rfl⟩

theorem Call.begin_handles (k : Call) : k.begin.stopped? = none ∧ k.begin.shutRuns = [] ∧ k.begin.unmarked = false := by
  cases k <;> exact ⟨rfl,rfl,rfl⟩

theorem Handles.accept (hi : Handles s) (k : Call) : Handles (s.accept k) where
  registered := fun r hr => by rw [accept_tasks]; simpa using hi.registered r hr
  stopped := by
    intro j p r hp hr
    rcases accept_point? hp with ⟨rfl,rfl⟩ | hp
    · rw [k.begin_handles.1] at hr; cases hr
    · rw [(accept_other (by simp)).1]
      exact hi.stopped j p r hp hr
  shut := by
    intro j p hp r hr
    rcases accept_point? hp with ⟨rfl,rfl⟩ | hp
    · rw [k.begin_handles.2.1] at hr; cases hr
    · rw [(accept_other (by simp)).1, (accept_other (by simp)).2.1]
      exact hi.shut j p hp r hr
  unmarked := by
    intro j p hp hu hcr
    by_cases hj : j = .call s.calls.length
    · subst hj
      simp [Sys.cancelRequested,accept_tasks,Task.new] at hcr
    · rcases accept_point? hp with ⟨hj',_⟩ | hp
      · exact absurd hj' hj
      · rw [(accept_other hj).2.1] at hcr
        rw [(accept_other hj).2.2]
        exact hi.unmarked j p hp hu hcr

theorem initial_handles (agents : AgentId → Option AgentRecord) : Handles (initial agents) where
  registered := by simp [initial]
  stopped := by simp [initial,point?]
  shut := by simp [initial,point?]
  unmarked := by simp [initial,point?]

end AgentGraph.Manager
