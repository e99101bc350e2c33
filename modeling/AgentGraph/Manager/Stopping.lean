import AgentGraph.Manager.StartRun
import AgentGraph.Persistence.Delegations

/-! # Stopping a run and its descendants

However deep `_stop_descendants` has descended, the stop in progress knows where it
started. The handler of `run_child` and `stop_run` return normally only when the task
of their run has ended and its status is terminal.
-/
set_option autoImplicit false
namespace AgentGraph.Manager
open Sys Transition Store

variable {cfg : Config} {s t : Sys} {l : Label} {i j : TaskId} {p q : Point} {c : Ctl} {store : Store} {r : RunId}

mutual
/-- The run whose stop was asked for. -/
def StopCont.base (r : RunId) : StopCont → RunId
  | .call => r
  | .child _ _ => r
  | .loop _ k => k.base
def DescCont.base : DescCont → RunId
  | .stop r k => k.base r
  | .child _ c _ => c
  | .loop _ _ k => k.base
end

mutual
/-- The runs a stop of `r` still reads, except the one a request names. -/
def StopCont.visits (r : RunId) : StopCont → List RunId
  | .call => []
  | .child _ _ => [r]
  | .loop rest k => r :: (rest ++ k.visits)
def DescCont.visits : DescCont → List RunId
  | .stop r k => r :: k.visits r
  | .child _ c _ => [c]
  | .loop c rest k => c :: (rest ++ k.visits)
end

def FinishCont.stop? (r : RunId) : FinishCont → Option (Root × RunId)
  | .stopFailed k | .stopCancelled k => some (k.root r,k.base r)
  | .exec _ | .shutdown _ => none

/-- The stop in progress: where it started and for which run. -/
def Point.stop? : Point → Option (Root × RunId)
  | .finishLock r _ k | .finishRead r _ k | .finishWrite r _ k | .finishPublish r _ _ k => k.stop? r
  | .stopRead r k | .stopWait r k | .stopReadBack r k => some (k.root r,k.base r)
  | .descList k | .descRead _ _ k => some (k.root,k.base)
  | _ => none

def Root.child? : Root → Option (NodeCall × RunId)
  | .call => none
  | .child n c _ => some (n,c)

/-- The child whose task `run_child` has got from the registry. -/
def Point.joined? : Point → Option (NodeCall × RunId)
  | .childWait n c | .childRead n c => some (n,c)
  | p => p.stop?.bind fun x => x.1.child?

/-- The child that `run_child` has committed. -/
def Point.child? : Point → Option (NodeCall × RunId)
  | .startRefresh a c _ | .startClose a c _ | .startPublish a c _ => a.child.map fun n => (n,c)
  | p => p.joined?

def FinishCont.visits (r : RunId) : FinishCont → List RunId
  | .stopFailed k | .stopCancelled k => r :: k.visits r
  | .exec _ | .shutdown _ => []

/-- The runs a task has committed or found in the store and may read again. -/
def Point.visits : Point → List RunId
  | .startRefresh _ r _ | .startClose _ r _ | .startPublish _ r _ | .childWait _ r | .childRead _ r => [r]
  | .finishLock r _ k | .finishRead r _ k | .finishWrite r _ k | .finishPublish r _ _ k => k.visits r
  | .stopRead r k => k.visits r
  | .stopWait r k | .stopReadBack r k => r :: k.visits r
  | .descList k => k.visits
  | .descRead c rest k => c :: (rest ++ k.visits)
  | _ => []

/-- The handler of `run_child` fails a run without a live handle. -/
def FinishCont.parted? (r : RunId) : FinishCont → Option RunId
  | .stopFailed (.child _ _) => some r
  | _ => none

/-- The child whose task `run_child` has seen end, or has not found any more. -/
def Point.parted? : Point → Option RunId
  | .childRead _ c => some c
  | .finishLock r _ k | .finishRead r _ k | .finishWrite r _ k | .finishPublish r _ _ k => k.parted? r
  | _ => none

/-- The run that has a terminal status besides. -/
def Point.settled? : Point → Option RunId
  | .childRead _ c => some c
  | .finishPublish r _ _ (.stopFailed (.child _ _)) | .finishPublish r _ _ (.stopCancelled _) => some r
  | .stopReadBack r _ => some r
  | _ => none

/-! ## The stop in progress along one step -/

theorem DescNext.stop {children : List RunId} {k : DescCont} (h : DescNext s children k q) :
    q.stop? = some (k.root,k.base) := by
  cases h <;> rfl

theorem StopNext.stop {result : Result} {k : StopCont} (h : StopNext s result k (.waiting q)) :
    q.stop? = some (k.root r,k.base r) := by
  cases h with
  | loop rest k q h => exact h.stop

theorem FinishNext.stop {k : FinishCont} (h : FinishNext s r k (.waiting q)) : q.stop? = k.stop? r := by
  cases h with
  | stopFailed k c h => exact h.stop
  | stopCancelled k => rfl
  | shutdown rest c h => cases h; rfl

theorem Continued.stop (h : Continued s p (.waiting q)) : q.stop? = p.stop? := by
  cases h
  case finishSkip hc => exact hc.stop
  case finishPublish hc => exact hc.stop
  case stopTerminal hc => exact hc.stop
  case stopTimeout hc => exact hc.stop
  case stopReadBack hc => exact hc.stop
  case descList hq => exact hq.stop
  case descSkip hq => exact hq.stop
  case shutdownWait hc => cases hc; rfl

theorem GraphNext.stop {T : TeamState} (h : GraphNext cfg s r T q) : q.stop? = none ∧ q.joined? = none := by
  cases h <;> exact ⟨rfl,rfl⟩

theorem InvokeNext.stop {request : AgentExecutionRequest} (h : InvokeNext cfg s r request q) :
    q.stop? = none ∧ q.joined? = none := by
  cases h with
  | call => exact ⟨rfl,rfl⟩
  | refused e he => exact ⟨rfl,rfl⟩
  | team graph q hv hg hd h => exact h.stop

/-- A stop goes on for the same run. -/
theorem Moved.stop {x : Root × RunId} (h : Moved cfg s i p (.waiting q) store) (hp : p.stop? = some x) :
    q.stop? = some x := by
  cases h with
  | delivered hm hd hs =>
    cases hd
    case raised hb hr => cases p <;> cases hb <;> cases hp
    all_goals cases hp
  | resumed hm hn =>
    cases hn
    case continued h => exact h.stop.trans hp
    case finishLock => exact hp
    case finishRead => exact hp
    case finishWrite => exact hp
    case stopRead => exact hp
    case stopWait => exact hp
    case descRead => exact hp
    all_goals cases hp

theorem Continued.joined (h : Continued s p (.waiting q)) : q.joined? = p.joined? := by
  have hq : q.joined? = q.stop?.bind fun x => x.1.child? := by
    have := h.continues
    cases q <;> first | rfl | cases this
  have hp : p.joined? = p.stop?.bind fun x => x.1.child? := by cases h <;> rfl
  rw [hq, hp, h.stop]

/-- A child is joined after its start has been published. -/
theorem Moved.joined {x : NodeCall × RunId} (h : Moved cfg s i p (.waiting q) store) (hq : q.joined? = some x) :
    p.joined? = some x ∨ ∃ a cp, p = .startPublish a x.2 cp := by
  cases h with
  | delivered hm hd hs =>
    cases hd
    case handler n c => exact .inl hq
    all_goals cases hq
  | resumed hm hn =>
    cases hn
    case continued h => exact .inl (h.joined.symm.trans hq)
    case invoked hq' => rw [hq'.stop.2] at hq; cases hq
    case roundDone hq' => rw [hq'.stop.2] at hq; cases hq
    case childStarted a r cp n h hr => cases hq; exact .inr ⟨a,cp,rfl⟩
    all_goals exact .inl hq

/-- What `run_child` has committed, it keeps awaiting until it ends. -/
theorem Moved.child {x : NodeCall × RunId} (h : Moved cfg s i p (.waiting q) store) (hp : p.child? = some x) :
    q.child? = some x := by
  cases h with
  | delivered hm hd hs =>
    cases hd
    case handler n c => exact hp
    case raised hb hr => cases p <;> cases hb <;> cases hp
    all_goals cases hp
  | resumed hm hn =>
    cases hn
    case continued h =>
      have hq : q.child? = q.joined? := by
        have := h.continues
        cases q <;> first | rfl | cases this
      have hp' : p.child? = p.joined? := by cases h <;> rfl
      rw [hq, h.joined, ← hp', hp]
    case childStarted a r cp n h hr =>
      have he : some (n,r) = some x := by simpa [Point.child?,h] using hp
      exact he
    all_goals first | exact hp | cases hp

/-! ## The runs a stop visits -/

theorem DescNext.visits {children : List RunId} {k : DescCont} (h : DescNext s children k q) :
    ∀ x ∈ q.visits, x ∈ children ∨ x ∈ k.visits := by
  intro x hx
  cases h with
  | visit c rest k =>
    rcases List.mem_cons.mp hx with rfl | hx
    · exact .inl List.mem_cons_self
    · exact (List.mem_append.mp hx).imp (List.mem_cons_of_mem c) id
  | live r k h => exact .inr hx
  | lost r k h => exact .inr hx
  | child n c e => exact .inr hx
  | loop c rest k => exact .inr hx

theorem StopNext.visits {result : Result} {k : StopCont} (h : StopNext s result k (.waiting q)) :
    ∀ x ∈ q.visits, x ∈ k.visits r := by
  cases h with
  | loop rest k q h => exact fun x hx => List.mem_cons_of_mem r (List.mem_append.mpr (h.visits x hx))

theorem FinishNext.visits {k : FinishCont} (h : FinishNext s r k (.waiting q)) :
    ∀ x ∈ q.visits, x ∈ k.visits r := by
  intro x hx
  cases h with
  | stopFailed k c h => exact List.mem_cons_of_mem r (h.visits x hx)
  | stopCancelled k => exact hx
  | shutdown rest c h => cases h; cases hx

theorem Continued.visits (hs : s.store.Sound) (h : Continued s p (.waiting q)) :
    ∀ x ∈ q.visits, x ∈ p.visits ∨ (s.store.runs x).isSome := by
  intro x hx
  cases h
  case finishSkip hc => exact .inl (hc.visits x hx)
  case finishPublish hc => exact .inl (hc.visits x hx)
  case stopTerminal hc => exact .inl (hc.visits x hx)
  case stopTimeout hc => exact .inl (List.mem_cons_of_mem _ (hc.visits x hx))
  case stopReadBack hc => exact .inl (List.mem_cons_of_mem _ (hc.visits x hx))
  case descList k hq =>
    rcases hq.visits x hx with hc | hk
    · obtain ⟨d,hd,-,rfl⟩ := mem_childrenOf.mp hc
      exact .inr (hs.delegations d hd).2.1
    · exact .inl hk
  case descSkip c rest k run h hs' hq => exact .inl (List.mem_cons_of_mem c (List.mem_append.mpr (hq.visits x hx)))
  case shutdownWait hc => cases hc; cases hx

theorem Moved.visits (hs : s.store.Sound) (h : Moved cfg s i p (.waiting q) store) :
    ∀ x ∈ q.visits, x ∈ p.visits ∨ (store.runs x).isSome := by
  have hgrows : ∀ x, (s.store.runs x).isSome → (store.runs x).isSome := fun x => (h.commit.grows hs).isSome
  intro x hx
  cases h with
  | delivered hm hd hs =>
    cases hd
    case handler n c => exact .inl hx
    all_goals cases hx
  | resumed hm hn =>
    cases hn
    case continued h => exact h.visits hs x hx
    case invoked hq =>
      have hv : q.visits = [] := by
        cases hq with
        | team graph q hv hg hd h => cases h <;> rfl
        | call => rfl
        | refused e he => rfl
      rw [hv] at hx
      cases hx
    case roundDone hq =>
      have hv : q.visits = [] := by cases hq <;> rfl
      rw [hv] at hx
      cases hx
    case startCommit a r h =>
      obtain ⟨agent,h⟩ := startTransaction_started h
      obtain rfl := List.mem_singleton.mp hx
      exact .inr h.isSome
    case stopRead r k run h hact =>
      rcases List.mem_cons.mp hx with rfl | hx
      · exact .inr (by simp [h])
      · exact .inl hx
    all_goals exact .inl hx

/-! ## How a stop sees its run end -/

theorem DescNext.unregistered {children : List RunId} {k : DescCont} {k' : StopCont} {outcome : Terminal}
    (h : DescNext s children k (.finishLock r outcome (.stopFailed k'))) : r ∉ s.registry := by
  cases h with
  | lost r k h => exact h

theorem StopNext.unregistered {result : Result} {k k' : StopCont} {outcome : Terminal}
    (h : StopNext s result k (.waiting (.finishLock r outcome (.stopFailed k')))) : r ∉ s.registry := by
  cases h with
  | loop rest k q h => exact h.unregistered

theorem FinishNext.unregistered {r' : RunId} {k : FinishCont} {k' : StopCont} {outcome : Terminal}
    (h : FinishNext s r' k (.waiting (.finishLock r outcome (.stopFailed k')))) : r ∉ s.registry := by
  cases h with
  | stopFailed k c h => exact h.unregistered
  | shutdown rest c h => cases h

/-- A stop fails a run only when it has not found its task. -/
theorem Continued.unregistered {k : StopCont} {outcome : Terminal}
    (h : Continued s p (.waiting (.finishLock r outcome (.stopFailed k)))) : r ∉ s.registry := by
  cases h
  case finishSkip hc => exact hc.unregistered
  case finishPublish hc => exact hc.unregistered
  case stopTerminal hc => exact hc.unregistered
  case stopTimeout hc => exact hc.unregistered
  case stopReadBack hc => exact hc.unregistered
  case descList hq => exact hq.unregistered
  case descSkip hq => exact hq.unregistered
  case shutdownWait hc => cases hc

theorem Moved.parted (h : Moved cfg s i p (.waiting q) store) (hq : q.parted? = some r) :
    p.parted? = some r ∨ s.isDone (.run r) = true ∨ (r ∉ s.registry ∧ ∃ n, p.joined? = some (n,r)) := by
  cases h with
  | delivered hm hd hs => cases hd <;> cases hq
  | resumed hm hn =>
    cases hn
    case continued h =>
      have hc := h.continues
      cases q
      case finishLock r' outcome k =>
        cases k
        case stopFailed k =>
          cases k <;> cases hq
          case child n e => exact .inr (.inr ⟨h.unregistered,n,h.joined.symm⟩)
        all_goals cases hq
      all_goals first | exact Bool.noConfusion hc | cases hq
    case invoked hq' =>
      cases hq' with
      | call => cases hq
      | refused e he => cases hq
      | team graph q hv hg hd h => cases h <;> cases hq
    case roundDone hq' => cases hq' <;> cases hq
    case childDone n c result h hr =>
      cases hq
      exact .inr (.inl (Sys.isDone_iff.mpr ⟨result,result?_eq_some.mp h⟩))
    all_goals exact .inl hq

theorem FinishNext.stopReadBack {r' : RunId} {k : FinishCont} {k' : StopCont}
    (h : FinishNext s r' k (.waiting (.stopReadBack r k'))) : r' = r ∧ k = .stopCancelled k' := by
  cases h with
  | stopCancelled k => exact ⟨rfl,rfl⟩
  | stopFailed k c h =>
    cases h with
    | loop rest k q h => cases h
  | shutdown rest c h => cases h

theorem Moved.stopReadBack {k : StopCont} (h : Moved cfg s i p (.waiting (.stopReadBack r k)) store) :
    store = s.store ∧ ((∃ outcome cp, p = .finishPublish r outcome cp (.stopCancelled k)) ∨
      ∀ run, s.store.runs r = some run → run.status.terminal = true) := by
  cases h with
  | delivered hm hd hs => cases hd
  | resumed hm hn =>
    cases hn
    case continued h =>
      refine ⟨rfl,?_⟩
      cases h
      case finishSkip hs hc => obtain ⟨rfl,rfl⟩ := hc.stopReadBack; exact .inr hs
      case finishPublish outcome cp k hc => obtain ⟨rfl,rfl⟩ := hc.stopReadBack; exact .inl ⟨outcome,cp,rfl⟩
      case stopTerminal hc => cases hc with | loop rest k q h => cases h
      case stopTimeout hc => cases hc with | loop rest k q h => cases h
      case stopReadBack hc => cases hc with | loop rest k q h => cases h
      case descList k hq =>
        generalize s.store.childrenOf k.target = children at hq
        cases hq
      case descSkip hq => cases hq
      case shutdownWait hc => cases hc
    case invoked hq => exact Bool.noConfusion hq.runs
    case roundDone hq => exact Bool.noConfusion hq.runs

theorem Moved.childRead {n : NodeCall} {c : RunId} (h : Moved cfg s i p (.waiting (.childRead n c)) store) :
    store = s.store ∧ ∃ result, s.result? (.run c) = some result ∧ ∀ e, result ≠ .raised e := by
  cases h with
  | delivered hm hd hs => cases hd
  | resumed hm hn =>
    cases hn
    case continued h => exact Bool.noConfusion h.continues
    case invoked hq => exact Bool.noConfusion hq.runs
    case roundDone hq => exact Bool.noConfusion hq.runs
    case childDone result hr h => exact ⟨rfl,result,h,hr⟩

/-- A stop returns normally from its last read. -/
theorem Moved.stopReturned {x : Root × RunId} (h : Moved cfg s i p (.done .returned) store) (hp : p.stop? = some x) :
    p.stopped? = some x.2 := by
  cases h with
  | delivered hm hd hs => cases hd
  | resumed hm hn =>
    cases hn
    case continued h =>
      cases h
      case finishSkip hs hc =>
        cases hc with
        | returned => cases hp
        | stopFailed k c h => cases h
        | shutdown rest c h => cases hp
      case finishPublish hc =>
        cases hc with
        | returned => cases hp
        | stopFailed k c h => cases h
        | shutdown rest c h => cases hp
      case stopTerminal hc => cases hc
      case stopTimeout hc => cases hc
      case stopReadBack hc => cases hc; cases hp; rfl
      case shutdownWait hc => cases hp
    case startReturned => cases hp
    case updateWrite => cases hp

/-! ## The invariants -/

/-- What a task knows about the runs that it awaits or stops. -/
structure Joined (s : Sys) : Prop where
  completed : Completed s
  registered : Registered s
  handles : Handles s
  joined : ∀ i p x, s.point? i = some p → p.joined? = some x → s.tasks (.run x.2) ≠ none
  visited : ∀ i p, s.point? i = some p → ∀ r ∈ p.visits, (s.store.runs r).isSome
  parted : ∀ i p r, s.point? i = some p → p.parted? = some r → s.isDone (.run r) = true
  settled : ∀ i p r, s.point? i = some p → p.settled? = some r → s.Ended r

/-- A request to stop a run knows that run until it ends, and has returned normally
only if the task of the run has ended. -/
structure StopCalls (s : Sys) : Prop where
  asked : ∀ j r p, s.calls[j]? = some (.stopRun r) → s.point? (.call j) = some p → p.stop? = some (.call,r)
  returned : ∀ j r, s.calls[j]? = some (.stopRun r) → s.result? (.call j) = some .returned →
    s.isDone (.run r) = true

theorem Point.settled_cases (h : p.settled? = some r) : (∃ n, p = .childRead n r) ∨ (∃ k, p = .stopReadBack r k) ∨
    ∃ outcome cp k, p = .finishPublish r outcome cp k ∧ (k.stopped? r = some r ∨ k.parted? r = some r) := by
  cases p
  case childRead n c => cases h; exact .inl ⟨n,rfl⟩
  case stopReadBack r k => cases h; exact .inr (.inl ⟨k,rfl⟩)
  case finishPublish r outcome cp k =>
    cases k
    case stopFailed k =>
      cases k <;> cases h
      exact .inr (.inr ⟨_,_,_,rfl,.inr rfl⟩)
    case stopCancelled k => cases h; exact .inr (.inr ⟨_,_,_,rfl,.inl rfl⟩)
    all_goals cases h
  all_goals cases h

theorem tasks_of_done (h : s.isDone j = true) : s.tasks j ≠ none := by
  obtain ⟨result,hr⟩ := Sys.isDone_iff.mp h
  intro hn
  rw [ctl?_eq_none.mpr hn] at hr
  cases hr

theorem not_waiting_of_done (h : s.isDone j = true) : s.point? j = none := by
  obtain ⟨result,hr⟩ := Sys.isDone_iff.mp h
  cases hp : s.point? j with
  | none => rfl
  | some p =>
    rw [point?_eq_some, hr] at hp
    cases hp

/-- A task that is not registered has ended. -/
theorem Joined.done (hi : Joined s) (ht : s.tasks (.run r) ≠ none) (hr : r ∉ s.registry) : s.isDone (.run r) = true := by
  by_contra hd
  obtain ⟨p,hp⟩ := Option.isSome_iff_exists.mp (isSome_point?_of_not_done ht hd)
  exact hr (hi.registered.live r p hp)

/-- The task of a run whose end was seen has ended. -/
theorem Joined.settledDone (hi : Joined s) (hp : s.point? i = some p) (hr : p.settled? = some r) :
    s.isDone (.run r) = true := by
  rcases Point.settled_cases hr with ⟨n,rfl⟩ | ⟨k,rfl⟩ | ⟨outcome,cp,k,rfl,hk | hk⟩
  · exact hi.parted i _ r hp rfl
  · exact hi.handles.stopped i _ r hp rfl
  · exact hi.handles.stopped i _ r hp hk
  · exact hi.parted i _ r hp hk

namespace RunStep

theorem joinedTask (hi : Joined s) (h : RunStep cfg s t i p c) {x : NodeCall × RunId} (hq : t.point? j = some q)
    (hx : q.joined? = some x) : t.tasks (.run x.2) ≠ none := by
  have hw := hi.completed.wellFormed
  rcases h.back hw (point?_eq_some.mp hq) with ⟨rfl,rfl⟩ | ⟨_,hs⟩ | ⟨_,q',hq',hl⟩
  · refine h.tasks_mono hw ?_
    rcases h.moved.joined hx with hp | ⟨a,cp,rfl⟩
    · exact hi.joined _ p x h.point hp
    · exact hi.registered.published _ a x.2 cp h.point
  · exact h.tasks_mono hw (hi.joined j q x (point?_eq_some.mpr hs) hx)
  · cases hq'
    rcases lookup_spawned hl with ⟨_,_,_,_,_,_,_,rfl⟩ | ⟨_,_,_,_,_,_,_,rfl⟩ <;> cases hx

theorem visited (hi : Joined s) (h : RunStep cfg s t i p c) (hq : t.point? j = some q) (hr : r ∈ q.visits) :
    (t.store.runs r).isSome := by
  have hw := hi.completed.wellFormed
  have hg : s.store.Grows t.store := h.moved.commit.grows hw.sound
  rcases h.back hw (point?_eq_some.mp hq) with ⟨rfl,rfl⟩ | ⟨_,hs⟩ | ⟨_,q',hq',hl⟩
  · rcases h.moved.visits hw.sound r hr with hp | hnew
    · exact hg.isSome (hi.visited _ p h.point r hp)
    · exact hnew
  · exact hg.isSome (hi.visited j q (point?_eq_some.mpr hs) r hr)
  · cases hq'
    rcases lookup_spawned hl with ⟨_,_,_,_,_,_,_,rfl⟩ | ⟨_,_,_,_,_,_,_,rfl⟩ <;> cases hr

theorem parted (hi : Joined s) (h : RunStep cfg s t i p c) (hq : t.point? j = some q) (hr : q.parted? = some r) :
    t.isDone (.run r) = true := by
  have hw := hi.completed.wellFormed
  rcases h.back hw (point?_eq_some.mp hq) with ⟨rfl,rfl⟩ | ⟨_,hs⟩ | ⟨_,q',hq',hl⟩
  · refine h.isDone hw ?_
    rcases h.moved.parted hr with hp | hd | ⟨hreg,n,hj⟩
    · exact hi.parted _ p r h.point hp
    · exact hd
    · exact hi.done (hi.joined _ p (n,r) h.point hj) hreg
  · exact h.isDone hw (hi.parted j q r (point?_eq_some.mpr hs) hr)
  · cases hq'
    rcases lookup_spawned hl with ⟨_,_,_,_,_,_,_,rfl⟩ | ⟨_,_,_,_,_,_,_,rfl⟩ <;> cases hr

/-- Once its task has ended, the status of an ended run is final. -/
theorem keepsSettled (hw : WellFormed s) (h : RunStep cfg s t i p c) (hd : s.isDone (.run r) = true)
    (he : s.Ended r) : t.Ended r := by
  refine h.keepsEnded hw (fun run hp => ?_) he
  subst hp
  have hi : i = .run r := TaskId.eq_run (hw.owner i _ h.point).symm
  have hn := not_waiting_of_done hd
  rw [← hi, h.point] at hn
  cases hn

theorem settled (hi : Joined s) (h : RunStep cfg s t i p c) (hq : t.point? j = some q) (hr : q.settled? = some r) :
    t.Ended r := by
  have hw := hi.completed.wellFormed
  have hsame : t.store = s.store → s.Ended r → t.Ended r := fun hst he => by
    unfold Sys.Ended
    rw [hst]
    exact he
  rcases h.back hw (point?_eq_some.mp hq) with ⟨rfl,rfl⟩ | ⟨_,hs⟩ | ⟨_,q',hq',hl⟩
  · rcases Point.settled_cases hr with ⟨n,rfl⟩ | ⟨k,rfl⟩ | ⟨outcome,cp,k,rfl,hk⟩
    · obtain ⟨hst,result,hres,hne⟩ := h.moved.childRead
      obtain ⟨-,he | ⟨he,-⟩⟩ := hi.completed.result r result hres
      · exact hsame hst he
      · exact absurd he (hne _)
    · obtain ⟨hst,⟨outcome,cp,rfl⟩ | hall⟩ := h.moved.stopReadBack
      · exact hsame hst (hi.settled _ _ r h.point rfl)
      · have hdone : t.isDone (.run r) = true := (h.handles hw hi.handles).stopped _ _ r hq rfl
        obtain ⟨run,hrun⟩ := Option.isSome_iff_exists.mp ((h.wellFormed hw).run r (tasks_of_done hdone))
        exact ⟨run,hrun,hall run (hst ▸ hrun)⟩
    · obtain ⟨rfl,now,hst⟩ := h.moved.finishPublish
      have hdone : s.isDone (.run r) = true :=
        hk.elim (hi.handles.stopped _ _ r h.point) (hi.parted _ _ r h.point)
      obtain ⟨run,hrun⟩ := Option.isSome_iff_exists.mp (hw.run r (tasks_of_done hdone))
      exact ⟨outcome.assign now run,by rw [hst, finishTransaction_runs]; simp [hrun],by simp⟩
  · have hp := point?_eq_some.mpr hs
    exact h.keepsSettled hw (hi.settledDone hp hr) (hi.settled j q r hp hr)
  · cases hq'
    rcases lookup_spawned hl with ⟨_,_,_,_,_,_,_,rfl⟩ | ⟨_,_,_,_,_,_,_,rfl⟩ <;> cases hr

theorem stopCalls (hi : Joined s) (hc : StopCalls s) (h : RunStep cfg s t i p c) : StopCalls t where
  asked := by
    intro j r q hj hq
    have hw := hi.completed.wellFormed
    rw [h.calls] at hj
    rcases h.back hw (point?_eq_some.mp hq) with ⟨rfl,rfl⟩ | ⟨_,hs⟩ | ⟨_,q',hq',hl⟩
    · exact h.moved.stop (hc.asked j r p hj h.point)
    · exact hc.asked j r q hj (point?_eq_some.mpr hs)
    · rcases lookup_spawned hl with ⟨_,_,_,_,_,_,he,_⟩ | ⟨_,_,_,_,_,_,he,_⟩ <;> cases he
  returned := by
    intro j r hj hres
    have hw := hi.completed.wellFormed
    rw [h.calls] at hj
    refine h.isDone hw ?_
    rcases h.back hw (result?_eq_some.mp hres) with ⟨rfl,rfl⟩ | ⟨_,hs⟩ | ⟨_,q',hq',_⟩
    · exact hi.handles.stopped _ p r h.point (h.moved.stopReturned (hc.asked j r p hj h.point))
    · exact hc.returned j r hj (result?_eq_some.mpr hs)
    · cases hq'

end RunStep

theorem Joined.cancel (hi : Joined s) (targets : List TaskId) : Joined (s.requestCancels targets) := by
  have hc := requestCancels_ctl? s targets
  have hp := point?_congr hc
  have hd := isDone_congr hc
  have hn : ∀ j, (s.requestCancels targets).tasks j = none ↔ s.tasks j = none := fun j => by
    rw [← ctl?_eq_none, ← ctl?_eq_none, hc]
  refine ⟨hi.completed.cancel targets,⟨hi.completed.wellFormed.cancel targets,?_,?_⟩,hi.handles.cancel targets,?_,?_,
    ?_,?_⟩
  all_goals rw [hp]
  · exact hi.registered.live
  · exact fun i a r cp h hnone => hi.registered.published i a r cp h ((hn _).mp hnone)
  · exact fun i p x h hx hnone => hi.joined i p x h hx ((hn _).mp hnone)
  · exact hi.visited
  · rw [hd]; exact hi.parted
  · exact hi.settled

theorem Call.begin_stop (k : Call) : k.begin.joined? = none ∧ k.begin.visits = [] ∧ k.begin.parted? = none ∧
    k.begin.settled? = none ∧ k.begin.child? = none := by
  cases k <;> exact ⟨rfl,rfl,rfl,rfl,rfl⟩

theorem step_joined (hi : Joined s) (h : step cfg l s = some t) : Joined t := by
  have hr := step_registered hi.registered h
  have hcomp := step_completed hi.completed h
  cases step_cases h with
  | run i ch now p c t h =>
    exact ⟨hcomp,hr,h.handles hi.completed.wellFormed hi.handles,fun _ _ _ hq hx => h.joinedTask hi hq hx,
      fun _ _ hq _ hv => h.visited hi hq hv,fun _ _ _ hq hx => h.parted hi hq hx,fun _ _ _ hq hx => h.settled hi hq hx⟩
  | cancel k => exact hi.cancel _
  | call k =>
    obtain ⟨hj,hv,hpt,hst,-⟩ := k.begin_stop
    refine ⟨hcomp,hr,hi.handles.accept k,fun i p x hp hx => ?_,fun i p hp r hr => ?_,fun i p r hp hr => ?_,
      fun i p r hp hr => ?_⟩
    all_goals rcases accept_point? hp with ⟨-,rfl⟩ | hp
    · rw [hj] at hx; cases hx
    · rw [accept_tasks, if_neg (by simp)]
      exact hi.joined i p x hp hx
    · rw [hv] at hr; cases hr
    · exact hi.visited i p hp r hr
    · rw [hpt] at hr; cases hr
    · rw [(accept_other (by simp)).1]
      exact hi.parted i p r hp hr
    · rw [hst] at hr; cases hr
    · exact hi.settled i p r hp hr

theorem initial_joined (agents : AgentId → Option AgentRecord) : Joined (initial agents) where
  completed := initial_completed agents
  registered := ⟨initial_wellFormed agents,by simp [initial,point?],by simp [initial,point?]⟩
  handles := initial_handles agents
  joined := by simp [initial,point?]
  visited := by simp [initial,point?]
  parted := by simp [initial,point?]
  settled := by simp [initial,point?]

theorem step_stopCalls (hi : Joined s) (hc : StopCalls s) (h : step cfg l s = some t) : StopCalls t := by
  cases step_cases h with
  | run i ch now p c t h => exact h.stopCalls hi hc
  | cancel k =>
    have hk := requestCancels_ctl? s (s.cancelTargets (.call k))
    constructor
    · rw [point?_congr hk]; exact hc.asked
    · rw [result?_congr hk, isDone_congr hk]; exact hc.returned
  | call k =>
    have hlen : ∀ j r, (s.accept k).calls[j]? = some (.stopRun r) →
        s.calls[j]? = some (.stopRun r) ∧ j ≠ s.calls.length ∨ j = s.calls.length ∧ k = .stopRun r := by
      intro j r hj
      rcases Nat.lt_trichotomy j s.calls.length with hlt | rfl | hgt
      · exact .inl ⟨by simpa [Sys.accept,List.getElem?_append_left hlt] using hj,hlt.ne⟩
      · exact .inr ⟨rfl,by simpa [Sys.accept] using hj⟩
      · have := (List.getElem?_eq_some_iff.mp hj).1
        simp [Sys.accept] at this
        omega
    constructor
    · intro j r p hj hp
      rcases hlen j r hj with ⟨hj,hne⟩ | ⟨rfl,rfl⟩
      · rcases accept_point? hp with ⟨he,-⟩ | hp
        · cases he; exact absurd rfl hne
        · exact hc.asked j r p hj hp
      · rw [point?_eq_some, accept_ctl?, if_pos rfl] at hp
        cases hp
        rfl
    · intro j r hj hres
      rw [(accept_other (by simp)).1]
      rcases hlen j r hj with ⟨hj,hne⟩ | ⟨rfl,rfl⟩
      · rw [result?_eq_some, accept_ctl?, if_neg (by simpa using hne)] at hres
        exact hc.returned j r hj (result?_eq_some.mpr hres)
      · rw [result?_eq_some, accept_ctl?, if_pos rfl] at hres
        cases hres

theorem initial_stopCalls (agents : AgentId → Option AgentRecord) : StopCalls (initial agents) :=
  ⟨by simp [initial],by simp [initial]⟩

end AgentGraph.Manager
