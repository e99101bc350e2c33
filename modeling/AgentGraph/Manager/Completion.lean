import AgentGraph.Manager.Handles

/-! # How the task of a run ends

A task that is not cancelled ends only after its row has a terminal status, and its
result is then a return or the cancellation it re-raises. A terminal status can be
lost at the write of `_mark_running` only.
-/
set_option autoImplicit false
namespace AgentGraph.Manager
open Sys Transition

variable {cfg : Config} {s t : Sys} {l : Label} {i j : TaskId} {p q : Point} {c : Ctl} {store : Store} {r : RunId}

namespace Sys

def Active (s : Sys) (r : RunId) : Prop := ∃ run, s.store.runs r = some run ∧ run.status.active = true

def Ended (s : Sys) (r : RunId) : Prop := ∃ run, s.store.runs r = some run ∧ run.status.terminal = true

end Sys

theorem not_active_and_ended (ha : s.Active r) (he : s.Ended r) : False := by
  obtain ⟨run,hr,ha⟩ := ha
  obtain ⟨run',hr',he⟩ := he
  rw [hr] at hr'
  cases hr'
  rw [RunStatus.terminal_eq_false.mpr ha] at he
  cases he

/-- Only the write of `_mark_running` can undo a terminal status. -/
theorem RunStep.keepsEnded (hw : WellFormed s) (h : RunStep cfg s t i p c) (hm : ∀ run, p ≠ .markWrite r run)
    (he : s.Ended r) : t.Ended r := by
  obtain ⟨run,hr,ht⟩ := he
  rcases h.moved.commitAt with hs | ⟨_,hc⟩
  · exact ⟨run,by rw [hs, hr],ht⟩
  generalize hst : t.store = store at hc
  cases hc with
  | update a graph => exact ⟨run,by rw [hst]; exact hr,ht⟩
  | start a _ q ha =>
    obtain ⟨agent,ha⟩ := startTransaction_started ha
    refine ⟨run,?_,ht⟩
    rw [hst, ha.runs, Function.update_of_ne, hr]
    rintro rfl
    rw [hw.sound.runs r ha.fresh.le] at hr
    cases hr
  | mark q run' now =>
    have hq : r ≠ q := fun he => hm run' (he ▸ rfl)
    exact ⟨run,by rw [hst, markRunningTransaction_runs, if_neg hq, hr],ht⟩
  | finish q outcome k now =>
    by_cases hq : r = q
    · subst hq
      exact ⟨outcome.assign now run,by rw [hst, finishTransaction_runs]; simp [hr],by simp⟩
    · exact ⟨run,by rw [hst, finishTransaction_runs, if_neg hq, hr],ht⟩

/-! ## The awaits of a run's own task -/

theorem StartCall.owner_ne (a : StartCall) : a.owner ≠ .run r := by
  unfold StartCall.owner
  split <;> simp

theorem Root.owner_ne (root : Root) : root.owner ≠ .run r := by
  cases root <;> simp [Root.owner]

theorem Point.started_owner {a : StartCall} (h : p.started? = some a) : p.owner = a.owner := by
  cases p <;> cases h <;> rfl

/-- The task of `r` awaits only its own `_finish_*`. -/
theorem FinishCont.owner_eq {q : RunId} {k : FinishCont} (h : k.owner q = .run r) : q = r ∧ ∃ e, k = .exec e := by
  cases k with
  | exec e => cases h; exact ⟨rfl,e,rfl⟩
  | stopFailed k => exact absurd h (Root.owner_ne _)
  | stopCancelled k => exact absurd h (Root.owner_ne _)
  | shutdown rest => cases h

/-- What `_execute_run` does when its `_finish_*` has returned. -/
def reraise : Option Exc → Result
  | none => .returned
  | some e => .raised e

theorem FinishNext.exec {q : RunId} {e : Option Exc} (h : FinishNext s q (.exec e) c) : c = .done (reraise e) := by
  cases h <;> rfl

/-- The task of a run ends by a cancellation, or because its `_finish_*` has
returned. -/
theorem Moved.runDone {result : Result} (h : Moved cfg s i p (.done result) store) (ho : p.owner = .run r) :
    store = s.store ∧ ((result = .raised .cancelled ∧ s.mustCancel i = true) ∨
      ∃ outcome e, result = reraise e ∧
        ((p = .finishRead r outcome (.exec e) ∧ ∀ run, s.store.runs r = some run → run.status.terminal = true) ∨
          ∃ cp, p = .finishPublish r outcome cp (.exec e))) := by
  cases h with
  | delivered hm hd hs => cases hd; exact ⟨hs,.inl ⟨rfl,hm⟩⟩
  | resumed hm hn =>
    cases hn
    case startRefused a e h => exact absurd ho a.owner_ne
    case startRaised a e h => exact absurd ((Point.started_owner h).symm.trans ho) a.owner_ne
    case startReturned a _ cp h => exact absurd ho a.owner_ne
    case childLost a _ cp n h hr => exact absurd ho a.owner_ne
    case stopMissing h => exact absurd ho (Root.owner_ne _)
    case backMissing h => exact absurd ho (Root.owner_ne _)
    case descMissing h => exact absurd ho (Root.owner_ne _)
    case continued h =>
      refine ⟨rfl,.inr ?_⟩
      cases h
      case finishSkip outcome k hs hc =>
        obtain ⟨rfl,e,rfl⟩ := FinishCont.owner_eq ho
        cases hc.exec
        exact ⟨outcome,e,rfl,.inl ⟨rfl,hs⟩⟩
      case finishPublish outcome cp k hc =>
        obtain ⟨rfl,e,rfl⟩ := FinishCont.owner_eq ho
        cases hc.exec
        exact ⟨outcome,e,rfl,.inr ⟨cp,rfl⟩⟩
      case stopTerminal => exact absurd ho (Root.owner_ne _)
      case stopTimeout => exact absurd ho (Root.owner_ne _)
      case stopReadBack => exact absurd ho (Root.owner_ne _)
      case shutdownWait => cases ho
    all_goals cases ho

/-- The exception `_execute_run` re-raises after its `_finish_*`. -/
def FinishCont.reraises : FinishCont → Option Exc
  | .exec e => e
  | _ => none

def Point.reraises : Point → Option Exc
  | .finishLock _ _ k | .finishRead _ _ k | .finishWrite _ _ k | .finishPublish _ _ _ k => k.reraises
  | _ => none

theorem DescNext.reraises {children : List RunId} {k : DescCont} (h : DescNext s children k q) :
    q.reraises = none := by
  cases h <;> rfl

theorem StopNext.reraises {result : Result} {k : StopCont} (h : StopNext s result k (.waiting q)) :
    q.reraises = none := by
  cases h with
  | loop rest k q h => exact h.reraises

theorem FinishNext.reraises {k : FinishCont} (h : FinishNext s r k (.waiting q)) : q.reraises = none := by
  cases h with
  | stopFailed k c h => exact h.reraises
  | stopCancelled k => rfl
  | shutdown rest c h => cases h; rfl

theorem GraphNext.reraises {T : TeamState} (h : GraphNext cfg s r T q) : q.reraises = none := by
  cases h <;> rfl

theorem InvokeNext.reraises {request : AgentExecutionRequest} (h : InvokeNext cfg s r request q) :
    q.reraises = none := by
  cases h with
  | call => rfl
  | refused e he => rfl
  | team graph q hv hg hd h => exact h.reraises

theorem Continued.reraises (h : Continued s p (.waiting q)) : q.reraises = none := by
  cases h
  case finishSkip hc => exact hc.reraises
  case finishPublish hc => exact hc.reraises
  case stopTerminal hc => exact hc.reraises
  case stopTimeout hc => exact hc.reraises
  case stopReadBack hc => exact hc.reraises
  case descList hq => exact hq.reraises
  case descSkip hq => exact hq.reraises
  case shutdownWait hc => cases hc; rfl

theorem Moved.reraises {e : Exc} (h : Moved cfg s i p (.waiting q) store) (hq : q.reraises = some e) :
    e = .cancelled ∨ p.reraises = some e := by
  cases h with
  | delivered hm hd hs =>
    cases hd
    case raised => cases hq; exact .inl rfl
    case readyCleanup => cases hq; exact .inl rfl
    all_goals cases hq
  | resumed hm hn =>
    cases hn
    case continued h => rw [h.reraises] at hq; cases hq
    case invoked h => rw [h.reraises] at hq; cases hq
    case roundDone h => rw [h.reraises] at hq; cases hq
    case cleanup => cases hq; exact .inl rfl
    case finishLock => exact .inr hq
    case finishRead => exact .inr hq
    case finishWrite => exact .inr hq
    all_goals cases hq

/-! ## The invariant -/

structure Completed (s : Sys) : Prop where
  wellFormed : WellFormed s
  requested : ∀ i, s.mustCancel i = true → s.cancelRequested i = true
  reraises : ∀ i p e, s.point? i = some p → p.reraises = some e → e = .cancelled
  published : ∀ r q outcome cp k, s.point? (.run r) = some (.finishPublish q outcome cp k) → s.Ended q
  result : ∀ r result, s.result? (.run r) = some result →
    (result = .returned ∨ result = .raised .cancelled) ∧
      (s.Ended r ∨ (result = .raised .cancelled ∧ s.cancelRequested (.run r) = true))

namespace RunStep

theorem keepsRequested (hi : Completed s) (h : RunStep cfg s t i p c) (hm : t.mustCancel j = true) :
    t.cancelRequested j = true := by
  cases hl : (spawned p c).lookup j with
  | some q =>
    rw [mustCancel_iff] at hm
    obtain ⟨x,hx,hm⟩ := hm
    rw [h.fresh j q hl] at hx
    cases hx
    cases hm
  | none =>
    rcases (h.mustCancel j hl).mp hm with hc | ⟨_,hm⟩
    · exact (h.cancelRequested j hl).mpr (.inl hc)
    · exact (h.cancelRequested j hl).mpr (.inr (hi.requested j hm))

theorem published (hi : Completed s) (h : RunStep cfg s t i p c) {q : RunId} {outcome : Terminal}
    {cp : Option CheckpointRecord} {k : FinishCont} (hq : t.point? (.run r) = some (.finishPublish q outcome cp k)) :
    t.Ended q := by
  have hw := hi.wellFormed
  rcases h.back hw (point?_eq_some.mp hq) with ⟨rfl,rfl⟩ | ⟨hj,hs⟩ | ⟨_,q',hq',hl⟩
  · obtain ⟨rfl,now,hst⟩ := h.moved.finishPublish
    obtain ⟨rfl,_⟩ := FinishCont.owner_eq (r := r) (hw.owner _ _ h.point)
    obtain ⟨row,hrow⟩ := Option.isSome_iff_exists.mp (hw.run q (WellFormed.exists_of_point h.point))
    exact ⟨outcome.assign now row,by rw [hst, finishTransaction_runs]; simp [hrow],by simp⟩
  · have hp := point?_eq_some.mpr hs
    obtain ⟨rfl,_⟩ := FinishCont.owner_eq (r := r) (hw.owner _ _ hp)
    refine h.keepsEnded hw (fun run he => hj ?_) (hi.published _ _ _ _ _ hp)
    exact (TaskId.eq_run (he ▸ hw.owner i p h.point).symm).symm
  · cases hq'
    rcases lookup_spawned hl with ⟨_,_,_,_,_,_,_,he⟩ | ⟨_,_,_,_,_,_,_,he⟩ <;> cases he

theorem result (hi : Completed s) (h : RunStep cfg s t i p c) {result : Result}
    (hr : t.result? (.run r) = some result) :
    (result = .returned ∨ result = .raised .cancelled) ∧
      (t.Ended r ∨ (result = .raised .cancelled ∧ t.cancelRequested (.run r) = true)) := by
  have hw := hi.wellFormed
  rcases h.back hw (result?_eq_some.mp hr) with ⟨rfl,rfl⟩ | ⟨hj,hs⟩ | ⟨_,q',hq',_⟩
  · have hl := h.not_spawned hw (WellFormed.exists_of_point h.point)
    obtain ⟨hst,⟨rfl,hm⟩ | ⟨outcome,e,rfl,hp⟩⟩ := h.moved.runDone (hw.owner _ _ h.point)
    · exact ⟨.inr rfl,.inr ⟨rfl,(h.cancelRequested _ hl).mpr (.inr (hi.requested _ hm))⟩⟩
    obtain ⟨row,hrow⟩ := Option.isSome_iff_exists.mp (hw.run r (WellFormed.exists_of_point h.point))
    refine ⟨?_,.inl ?_⟩
    · have hre : p.reraises = e := by rcases hp with ⟨rfl,_⟩ | ⟨cp,rfl⟩ <;> rfl
      cases e with
      | none => exact .inl rfl
      | some e => exact .inr (by rw [hi.reraises _ p e h.point hre]; rfl)
    · rcases hp with ⟨rfl,ht⟩ | ⟨cp,rfl⟩
      · exact ⟨row,by rw [hst, hrow],ht row hrow⟩
      · exact h.keepsEnded hw (fun run he => by cases he) (hi.published _ _ _ _ _ h.point)
  · have hs' := result?_eq_some.mpr hs
    obtain ⟨hres,hend⟩ := hi.result r result hs'
    refine ⟨hres,hend.imp (fun he => h.keepsEnded hw (fun run hp => hj ?_) he) fun ⟨he,hc⟩ => ⟨he,?_⟩⟩
    · exact (TaskId.eq_run (hp ▸ hw.owner i p h.point).symm).symm
    · exact h.keepsCancelRequested hw hc
  · cases hq'

theorem completed (hi : Completed s) (h : RunStep cfg s t i p c) : Completed t where
  wellFormed := h.wellFormed hi.wellFormed
  requested := fun _ hm => h.keepsRequested hi hm
  reraises := by
    intro j q e hq he
    rcases h.back hi.wellFormed (point?_eq_some.mp hq) with ⟨rfl,rfl⟩ | ⟨_,hs⟩ | ⟨_,q',hq',hl⟩
    · exact (h.moved.reraises he).elim id fun hp => hi.reraises _ p e h.point hp
    · exact hi.reraises j q e (point?_eq_some.mpr hs) he
    · cases hq'
      rcases lookup_spawned hl with ⟨_,_,_,_,_,_,_,rfl⟩ | ⟨_,_,_,_,_,_,_,rfl⟩ <;> cases he
  published := fun _ _ _ _ _ hq => h.published hi hq
  result := fun _ _ hr => h.result hi hr

end RunStep

theorem requestCancel_flags (h : ∀ i, s.mustCancel i = true → s.cancelRequested i = true) (targets : List TaskId) :
    (s.requestCancels targets).mustCancel i = true → (s.requestCancels targets).cancelRequested i = true := fun hm =>
  requestCancels_cancelRequested.mpr ((requestCancels_mustCancel.mp hm).imp id (h i))

theorem Completed.cancel (hi : Completed s) (targets : List TaskId) : Completed (s.requestCancels targets) := by
  have hc := requestCancels_ctl? s targets
  constructor
  · exact hi.wellFormed.cancel targets
  · exact fun i => requestCancel_flags hi.requested targets
  · rw [point?_congr hc]; exact hi.reraises
  · rw [point?_congr hc]; exact hi.published
  · rw [result?_congr hc]
    intro r result hr
    obtain ⟨hres,hend⟩ := hi.result r result hr
    exact ⟨hres,hend.imp id fun ⟨he,hcr⟩ => ⟨he,requestCancels_cancelRequested.mpr (.inr hcr)⟩⟩

theorem Completed.accept (hi : Completed s) (k : Call) : Completed (s.accept k) where
  wellFormed := hi.wellFormed.accept k
  requested := by
    intro j hm
    by_cases hj : j = .call s.calls.length
    · rw [mustCancel_iff, accept_tasks, if_pos hj] at hm
      obtain ⟨x,hx,hm⟩ := hm
      cases hx
      cases hm
    · rw [(accept_other hj).2.2] at hm
      rw [(accept_other hj).2.1]
      exact hi.requested j hm
  reraises := by
    intro j p e hp he
    rcases accept_point? hp with ⟨_,rfl⟩ | hp
    · cases k <;> cases he
    · exact hi.reraises j p e hp he
  published := by
    intro r q outcome cp kf hp
    rcases accept_point? hp with ⟨he,_⟩ | hp
    · cases he
    · exact hi.published r q outcome cp kf hp
  result := by
    intro r result hr
    rw [result?_eq_some, accept_ctl?, if_neg (by simp)] at hr
    rw [(accept_other (by simp)).2.1]
    exact hi.result r result (result?_eq_some.mpr hr)

theorem step_completed (hi : Completed s) (h : step cfg l s = some t) : Completed t := by
  cases step_cases h with
  | run i ch now p c t h => exact h.completed hi
  | cancel k => exact hi.cancel _
  | call k => exact hi.accept k

theorem initial_completed (agents : AgentId → Option AgentRecord) : Completed (initial agents) where
  wellFormed := initial_wellFormed agents
  requested := by simp [initial,Sys.mustCancel]
  reraises := by simp [initial,point?]
  published := by simp [initial,point?]
  result := by simp [initial,result?]

theorem Run.completed {ok : Label → Sys → Prop} {agents : AgentId → Option AgentRecord}
    (h : Run cfg ok (initial agents) s) : Completed s :=
  Reaches.invariant (I := Completed) (fun _ _ _ hi _ he => step_completed hi he) h (initial_completed agents)

end AgentGraph.Manager
