import AgentGraph.Manager.Tasks
import AgentGraph.Persistence.Transactions

/-! # Well-formed states of the manager

A task only ever stands at awaits of its own kind, identifiers of tasks are used
once, and the body of a `_finish_*` is entered under the terminal lock of its run.
-/
set_option autoImplicit false
namespace AgentGraph.Manager
open Sys Transition

/-- Who runs an await: a request, a node task or the task of a run. -/
inductive Owner
  | call
  | node
  | run (r : RunId)
deriving DecidableEq

def TaskId.owner : TaskId → Owner
  | .run r => .run r
  | .node _ => .node
  | .call _ => .call

def Root.owner : Root → Owner
  | .call => .call
  | .child _ _ _ => .node

def StartCall.owner (a : StartCall) : Owner := if a.child.isSome then .node else .call

def FinishCont.owner (r : RunId) : FinishCont → Owner
  | .exec _ => .run r
  | .stopFailed k | .stopCancelled k => (k.root r).owner
  | .shutdown _ => .call

def Point.owner : Point → Owner
  | .startLock a | .startWrite a | .startRefresh a _ _ | .startClose a _ _ | .startPublish a _ _ => a.owner
  | .nodeBegin _ _ | .nodeAcquire _ | .childWait _ _ | .childRead _ _ => .node
  | .runBegin r | .markRead r | .markWrite r _ | .markPublish r _ _ | .delay r _ | .readAgent r _
  | .validate r _ _ | .invoke r _ | .readyWait r _ _ | .readyGather r _ _ | .readyCleanup r _
  | .synthesize r _ _ => .run r
  | .finishLock r _ k | .finishRead r _ k | .finishWrite r _ k | .finishPublish r _ _ k => k.owner r
  | .stopRead r k | .stopWait r k | .stopReadBack r k => (k.root r).owner
  | .descList k | .descRead _ _ k => k.root.owner
  | .shutdownBegin | .shutdownWait _ | .updateLock _ _ | .updateRead _ _ | .updateWrite _ _ => .call

variable {cfg : Config} {s t : Sys} {l : Label} {i j : TaskId} {p q : Point} {c : Ctl} {store : Store}

theorem DescNext.owner {children : List RunId} {k : DescCont} (h : DescNext s children k q) :
    q.owner = k.root.owner := by
  cases h <;> rfl

theorem StopNext.owner {result : Result} {r : RunId} {k : StopCont} (h : StopNext s result k (.waiting q)) :
    q.owner = (k.root r).owner := by
  cases h with
  | loop rest k q h => exact h.owner

theorem FinishNext.owner {r : RunId} {k : FinishCont} (h : FinishNext s r k (.waiting q)) :
    q.owner = k.owner r := by
  cases h with
  | stopFailed k c h => exact h.owner
  | stopCancelled k => rfl
  | shutdown rest c h => cases h; rfl

theorem GraphNext.owner {r : RunId} {T : TeamState} (h : GraphNext cfg s r T q) : q.owner = .run r := by
  cases h <;> rfl

theorem InvokeNext.owner {r : RunId} {request : AgentExecutionRequest} (h : InvokeNext cfg s r request q) :
    q.owner = .run r := by
  cases h with
  | call => rfl
  | refused e he => rfl
  | team graph q hv hg hd h => exact h.owner

theorem Continued.owner (h : Continued s p (.waiting q)) : q.owner = p.owner := by
  cases h
  case finishSkip hc => exact hc.owner
  case finishPublish hc => exact hc.owner
  case stopTerminal hc => exact hc.owner
  case stopTimeout hc => exact hc.owner
  case stopReadBack hc => exact hc.owner
  case descList hq => exact hq.owner
  case descSkip hq => exact hq.owner
  case shutdownWait hc => cases hc; rfl

theorem Next.owner (h : Next cfg s p (.waiting q) store) : q.owner = p.owner := by
  cases h
  case childStarted a r cp n h hr => simp [Point.owner,StartCall.owner,h]
  case invoked hq => exact hq.owner
  case roundDone hq => exact hq.owner
  case continued h => exact h.owner
  all_goals rfl

theorem Delivered.owner (h : Delivered s p (.waiting q)) : q.owner = p.owner := by
  cases h
  case raised r hb hr => cases p <;> cases hb <;> rfl
  all_goals rfl

theorem Moved.owner (h : Moved cfg s i p (.waiting q) store) : q.owner = p.owner := by
  cases h with
  | resumed hm hn => exact hn.owner
  | delivered hm hd hs => exact hd.owner

/-- Every move is a commit of the durable store. -/
theorem Next.commit (h : Next cfg s p c store) : Commit cfg s.store store := by
  cases h
  case startCommit a r h => exact .start _ _ _ _ _ h
  case markWrite r run now => exact .mark r now
  case finishWrite r outcome k now => exact .finish r outcome now
  case updateWrite a graph => exact .update a graph
  all_goals exact .none

theorem Moved.commit (h : Moved cfg s i p c store) : Commit cfg s.store store := by
  cases h with
  | resumed hm hn => exact hn.commit
  | delivered hm hd hs => exact hs ▸ .none

/-- The run that `_start_run` has committed and not registered yet. -/
def Point.starting? : Point → Option RunId
  | .startRefresh _ r _ | .startClose _ r _ => some r
  | _ => none

/-- The run whose terminal lock is held. -/
def Point.holds? : Point → Option RunId
  | .finishRead r _ _ | .finishWrite r _ _ | .finishPublish r _ _ _ => some r
  | _ => none

structure WellFormed (s : Sys) : Prop where
  sound : s.store.Sound
  owner : ∀ i p, s.point? i = some p → p.owner = i.owner
  node : ∀ k, s.nextNode ≤ k → s.tasks (.node k) = none
  call : ∀ k, s.calls.length ≤ k → s.tasks (.call k) = none
  run : ∀ r, s.tasks (.run r) ≠ none → (s.store.runs r).isSome
  starting : ∀ i p r, s.point? i = some p → p.starting? = some r →
    s.tasks (.run r) = none ∧ (s.store.runs r).isSome
  startingUnique : ∀ i j p q r, s.point? i = some p → s.point? j = some q →
    p.starting? = some r → q.starting? = some r → i = j
  lock : ∀ i p r, s.point? i = some p → p.holds? = some r → s.terminalLock r = some i

/-! ## Fresh tasks -/

theorem GraphNext.readyWait {r r' : RunId} {T T' : TeamState} {tasks : List (TeamNode × Nat)}
    (h : GraphNext cfg s r T (.readyWait r' T' tasks)) : r' = r ∧ T' = T ∧ tasks = T.ready.zipIdx s.nextNode := by
  cases h
  exact ⟨rfl,rfl,rfl⟩

/-- The tasks of a round are numbered from `nextNode` on. -/
theorem Moved.readyWait {r : RunId} {T : TeamState} {tasks : List (TeamNode × Nat)}
    (h : Moved cfg s i p (.waiting (.readyWait r T tasks)) store) : tasks = T.ready.zipIdx s.nextNode := by
  cases h with
  | delivered hm hd hs => cases hd
  | resumed hm hn =>
    cases hn
    case continued h => exact Bool.noConfusion h.continues
    case invoked hq =>
      cases hq with
      | team graph q hv hg hd h => exact h.readyWait.2.1 ▸ h.readyWait.2.2
    case roundDone hq => exact hq.readyWait.2.1 ▸ hq.readyWait.2.2

theorem launched_eq_some {r : RunId} (h : launched p c = some r) :
    ∃ a cp q', p = .startClose a r cp ∧ c = .waiting q' := by
  cases p <;> cases c <;> cases h
  exact ⟨_,_,_,rfl,rfl⟩

theorem mem_roundSpawn (h : (j,q) ∈ roundSpawn c) :
    ∃ r T tasks x, c = .waiting (.readyWait r T tasks) ∧ x ∈ tasks ∧ j = .node x.2 ∧ q = .nodeBegin T x.1 := by
  rcases c with p | _
  · cases p
    case readyWait r T tasks =>
      obtain ⟨x,hx,he⟩ := List.mem_map.mp h
      cases he
      exact ⟨r,T,tasks,x,rfl,hx,rfl,rfl⟩
    all_goals cases h
  · cases h

/-- The two ways a task is created by a task that goes from `p` to `c`. -/
theorem lookup_spawned (h : (spawned p c).lookup j = some q) :
    (∃ a r cp q', p = .startClose a r cp ∧ c = .waiting q' ∧ j = .run r ∧ q = .runBegin r) ∨
    ∃ r T tasks x, c = .waiting (.readyWait r T tasks) ∧ x ∈ tasks ∧ j = .node x.2 ∧ q = .nodeBegin T x.1 := by
  have hm : (j,q) ∈ spawned p c := by
    obtain ⟨l₁,l₂,he,_⟩ := List.lookup_eq_some_iff.mp h
    simp [he]
  rcases List.mem_append.mp hm with hm | hm
  · obtain ⟨r,hr,he⟩ := List.mem_map.mp hm
    cases he
    obtain ⟨a,cp,q',rfl,rfl⟩ := launched_eq_some (Option.mem_toList.mp hr)
    exact .inl ⟨a,r,cp,q',rfl,rfl,rfl,rfl⟩
  · exact .inr (mem_roundSpawn hm)

theorem RunStep.spawned_fresh (hw : WellFormed s) (h : RunStep cfg s t i p c)
    (hj : (spawned p c).lookup j = some q) : s.tasks j = none := by
  rcases lookup_spawned hj with ⟨a,r,cp,q',rfl,rfl,rfl,rfl⟩ | ⟨r,T,tasks,x,rfl,hx,rfl,rfl⟩
  · exact (hw.starting i _ r h.point rfl).1
  · refine hw.node _ ?_
    rw [h.moved.readyWait] at hx
    exact (List.mem_zipIdx hx).1

/-- The moved task is where it went. -/
theorem RunStep.mover (hw : WellFormed s) (h : RunStep cfg s t i p c) : t.ctl? i = some c := by
  rw [h.ctl i]
  cases hl : (spawned p c).lookup i with
  | none => simp
  | some q =>
    have hn := h.spawned_fresh hw hl
    have hp := point?_eq_some.mp h.point
    rw [ctl?, hn] at hp
    cases hp

/-- Tasks that do not move stay. -/
theorem RunStep.stays (hw : WellFormed s) (h : RunStep cfg s t i p c) (hj : j ≠ i) (hs : s.tasks j ≠ none) :
    t.ctl? j = s.ctl? j := by
  rw [h.ctl j]
  cases hl : (spawned p c).lookup j with
  | none => simp [hj]
  | some q => exact absurd (h.spawned_fresh hw hl) hs

/-- How a task came to be where it is after a step of task `i`. -/
theorem RunStep.back {c' : Ctl} (hw : WellFormed s) (h : RunStep cfg s t i p c) (hj : t.ctl? j = some c') :
    (j = i ∧ c' = c) ∨ (j ≠ i ∧ s.ctl? j = some c') ∨
      (s.tasks j = none ∧ ∃ q, c' = .waiting q ∧ (spawned p c).lookup j = some q) := by
  by_cases hi : j = i
  · subst hi
    rw [h.mover hw] at hj
    cases hj
    exact .inl ⟨rfl,rfl⟩
  · cases hl : (spawned p c).lookup j with
    | none =>
      rw [h.ctl j, hl] at hj
      exact .inr (.inl ⟨hi,by simpa [hi] using hj⟩)
    | some q =>
      rw [h.ctl j, hl] at hj
      cases hj
      exact .inr (.inr ⟨h.spawned_fresh hw hl,q,rfl,rfl⟩)

/-! ## Arrivals -/

theorem Moved.startRefresh {a : StartCall} {r : RunId} {cp : Option CheckpointRecord}
    (h : Moved cfg s i p (.waiting (.startRefresh a r cp)) store) :
    p = .startWrite a ∧ startTransaction cfg s.store a.agentId a.inputText a.link = .ok (store,r) := by
  cases h with
  | delivered hm hd hs => cases hd
  | resumed hm hn =>
    cases hn
    case continued h => exact Bool.noConfusion h.continues
    case invoked hq => exact Bool.noConfusion hq.runs
    case roundDone hq => exact Bool.noConfusion hq.runs
    case startCommit h => exact ⟨rfl,h⟩

theorem Moved.startClose {a : StartCall} {r : RunId} {cp : Option CheckpointRecord}
    (h : Moved cfg s i p (.waiting (.startClose a r cp)) store) :
    p = .startRefresh a r cp ∧ store = s.store := by
  cases h with
  | delivered hm hd hs => cases hd
  | resumed hm hn =>
    cases hn
    case continued h => exact Bool.noConfusion h.continues
    case invoked hq => exact Bool.noConfusion hq.runs
    case roundDone hq => exact Bool.noConfusion hq.runs
    case startRefresh => exact ⟨rfl,rfl⟩

theorem Moved.finishRead {r : RunId} {outcome : Terminal} {k : FinishCont}
    (h : Moved cfg s i p (.waiting (.finishRead r outcome k)) store) :
    p = .finishLock r outcome k ∧ s.terminalLock r = none ∧ store = s.store := by
  cases h with
  | delivered hm hd hs => cases hd
  | resumed hm hn =>
    cases hn
    case continued h => exact Bool.noConfusion h.continues
    case invoked hq => exact Bool.noConfusion hq.runs
    case roundDone hq => exact Bool.noConfusion hq.runs
    case finishLock h => exact ⟨rfl,h,rfl⟩

theorem Moved.markWrite {r : RunId} {run : RunRecord} (h : Moved cfg s i p (.waiting (.markWrite r run)) store) :
    p = .markRead r ∧ store = s.store ∧ ∃ run, s.store.runs r = some run ∧ run.status.active = true := by
  cases h with
  | delivered hm hd hs => cases hd
  | resumed hm hn =>
    cases hn
    case continued h => exact Bool.noConfusion h.continues
    case invoked hq => exact Bool.noConfusion hq.runs
    case roundDone hq => exact Bool.noConfusion hq.runs
    case markRead hs h => exact ⟨rfl,rfl,run,h,hs⟩

theorem Moved.finishWrite {r : RunId} {outcome : Terminal} {k : FinishCont}
    (h : Moved cfg s i p (.waiting (.finishWrite r outcome k)) store) :
    p = .finishRead r outcome k ∧ store = s.store ∧
      ∃ run, s.store.runs r = some run ∧ run.status.active = true := by
  cases h with
  | delivered hm hd hs => cases hd
  | resumed hm hn =>
    cases hn
    case continued h => exact Bool.noConfusion h.continues
    case invoked hq => exact Bool.noConfusion hq.runs
    case roundDone hq => exact Bool.noConfusion hq.runs
    case finishRead run hs h => exact ⟨rfl,rfl,run,h,hs⟩

theorem Moved.finishPublish {r : RunId} {outcome : Terminal} {cp : Option CheckpointRecord} {k : FinishCont}
    (h : Moved cfg s i p (.waiting (.finishPublish r outcome cp k)) store) :
    p = .finishWrite r outcome k ∧ ∃ now, store = finishTransaction cfg s.store r outcome now := by
  cases h with
  | delivered hm hd hs => cases hd
  | resumed hm hn =>
    cases hn
    case continued h => exact Bool.noConfusion h.continues
    case invoked hq => exact Bool.noConfusion hq.runs
    case roundDone hq => exact Bool.noConfusion hq.runs
    case finishWrite now => exact ⟨rfl,now,rfl⟩

/-- A committed run that is not registered yet has just been committed, or was
already waiting to be registered. -/
theorem Moved.starting {r : RunId} (h : Moved cfg s i p (.waiting q) store) (hq : q.starting? = some r) :
    p.starting? = some r ∧ launched p (.waiting q) = none ∧ store = s.store ∨
      ∃ a, p = .startWrite a ∧ startTransaction cfg s.store a.agentId a.inputText a.link = .ok (store,r) := by
  cases q <;> cases hq
  case startRefresh => exact .inr ⟨_,h.startRefresh⟩
  case startClose =>
    obtain ⟨rfl,hs⟩ := h.startClose
    exact .inl ⟨rfl,rfl,hs⟩

/-- The body of a `_finish_*` is entered with the lock. -/
theorem Moved.holds {r : RunId} (h : Moved cfg s i p (.waiting q) store) (hq : q.holds? = some r) :
    (lockChange i p (.waiting q) = some (r,some i) ∧ s.terminalLock r = none) ∨
      (p.holds? = some r ∧ lockChange i p (.waiting q) = none) := by
  cases q <;> cases hq
  case finishRead =>
    obtain ⟨rfl,hl,_⟩ := h.finishRead
    exact .inl ⟨rfl,hl⟩
  case finishWrite =>
    obtain ⟨rfl,_⟩ := h.finishWrite
    exact .inr ⟨rfl,rfl⟩
  case finishPublish =>
    obtain ⟨rfl,_⟩ := h.finishPublish
    exact .inr ⟨rfl,rfl⟩

theorem lockChange_cases {r : RunId} {holder : Option TaskId} (h : lockChange i p c = some (r,holder)) :
    (holder = none ∧ p.holds? = some r) ∨
      (holder = some i ∧ ∃ outcome k q, p = .finishLock r outcome k ∧ c = .waiting q) := by
  cases p
  case finishLock r outcome k =>
    cases c <;> cases h
    exact .inr ⟨rfl,_,_,_,rfl,rfl⟩
  case finishRead r outcome k =>
    rcases c with q | _
    · cases q <;> cases h <;> exact .inl ⟨rfl,rfl⟩
    · cases h; exact .inl ⟨rfl,rfl⟩
  case finishWrite r outcome k => cases c <;> cases h; exact .inl ⟨rfl,rfl⟩
  case finishPublish r outcome cp k => cases h; exact .inl ⟨rfl,rfl⟩
  all_goals cases h

/-- The lock is only taken when it is free. -/
theorem Moved.lockFree {r : RunId} {outcome : Terminal} {k : FinishCont}
    (h : Moved cfg s i (.finishLock r outcome k) (.waiting q) store) : s.terminalLock r = none := by
  cases h with
  | delivered hm hd hs => cases hd; contradiction
  | resumed hm hn =>
    cases hn
    case continued h => cases h
    case finishLock h => exact h

/-! ## Preservation -/

theorem WellFormed.fresh_run (hw : WellFormed s) {r : RunId} (hr : s.store.nextId ≤ r) : s.tasks (.run r) = none := by
  by_contra hn
  have := hw.run r hn
  rw [hw.sound.runs r hr] at this
  cases this

theorem WellFormed.exists_of_point (hp : s.point? i = some p) : s.tasks i ≠ none := by
  intro hn
  have := point?_eq_some.mp hp
  rw [ctl?, hn] at this
  cases this

namespace RunStep

/-- A task that does not exist and is not created does not exist afterwards. -/
theorem tasks_none (h : RunStep cfg s t i p c) (hj : s.tasks j = none) (hl : (spawned p c).lookup j = none) :
    t.tasks j = none := by
  have hi : j ≠ i := by
    rintro rfl
    exact WellFormed.exists_of_point h.point hj
  rw [← ctl?_eq_none, h.ctl j, hl]
  simpa [hi] using ctl?_eq_none.mpr hj

theorem run_none {r : RunId} (h : RunStep cfg s t i p c) (hr : s.tasks (.run r) = none)
    (hl : launched p c ≠ some r) : t.tasks (.run r) = none := by
  refine h.tasks_none hr ?_
  cases hs : (spawned p c).lookup (.run r) with
  | none => rfl
  | some q =>
    rcases lookup_spawned hs with ⟨a,r',cp,q',rfl,rfl,he,_⟩ | ⟨_,_,_,_,_,_,he,_⟩
    · cases he
      exact absurd rfl hl
    · cases he

theorem starting {r : RunId} (hw : WellFormed s) (h : RunStep cfg s t i p c) (hq : t.point? j = some q)
    (hr : q.starting? = some r) : t.tasks (.run r) = none ∧ (t.store.runs r).isSome := by
  have hg : s.store.Grows t.store := h.moved.commit.grows hw.sound
  rcases h.back hw (point?_eq_some.mp hq) with ⟨rfl,rfl⟩ | ⟨hj,hs⟩ | ⟨_,q',hq',hl⟩
  · rcases h.moved.starting hr with ⟨hp,hl,hst⟩ | ⟨a,rfl,ha⟩
    · obtain ⟨hn,hs⟩ := hw.starting j p r h.point hp
      exact ⟨h.run_none hn (by simp [hl]),hg.isSome hs⟩
    · obtain ⟨agent,ha⟩ := startTransaction_started ha
      exact ⟨h.run_none (hw.fresh_run ha.fresh.le) (by simp [launched]),by simp [ha.runs]⟩
  · obtain ⟨hn,hst⟩ := hw.starting j q r (point?_eq_some.mpr hs) hr
    refine ⟨h.run_none hn (fun hl => hj ?_),hg.isSome hst⟩
    obtain ⟨a,cp,q',rfl,rfl⟩ := launched_eq_some hl
    exact hw.startingUnique j i q _ r (point?_eq_some.mpr hs) h.point hr rfl
  · cases hq'
    rcases lookup_spawned hl with ⟨_,_,_,_,_,_,_,rfl⟩ | ⟨_,_,_,_,_,_,_,rfl⟩ <;> cases hr

theorem startingUnique {j' : TaskId} {q' : Point} {r : RunId} (hw : WellFormed s) (h : RunStep cfg s t i p c)
    (hq : t.point? j = some q) (hq' : t.point? j' = some q') (hr : q.starting? = some r)
    (hr' : q'.starting? = some r) : j = j' := by
  have hmove : ∀ {k q}, t.point? k = some q → q.starting? = some r →
      (k = i ∧ (p.starting? = some r ∨ s.store.nextId = r)) ∨ ∃ q, s.point? k = some q ∧ q.starting? = some r := by
    intro k q hk hqr
    rcases h.back hw (point?_eq_some.mp hk) with ⟨rfl,rfl⟩ | ⟨_,hs⟩ | ⟨_,q',hq',hl⟩
    · rcases h.moved.starting hqr with ⟨hp,_⟩ | ⟨a,_,ha⟩
      · exact .inl ⟨rfl,.inl hp⟩
      · obtain ⟨agent,ha⟩ := startTransaction_started ha
        exact .inl ⟨rfl,.inr ha.fresh⟩
    · exact .inr ⟨q,point?_eq_some.mpr hs,hqr⟩
    · cases hq'
      rcases lookup_spawned hl with ⟨_,_,_,_,_,_,_,rfl⟩ | ⟨_,_,_,_,_,_,_,rfl⟩ <;> cases hqr
  have hold : ∀ {k q}, s.point? k = some q → q.starting? = some r → s.store.nextId ≠ r := by
    intro k q hk hqr he
    have := (hw.starting k q r hk hqr).2
    rw [hw.sound.runs r he.le] at this
    cases this
  rcases hmove hq hr with ⟨rfl,hp⟩ | ⟨x,hx,hxr⟩ <;> rcases hmove hq' hr' with ⟨rfl,hp'⟩ | ⟨y,hy,hyr⟩
  · rfl
  · rcases hp with hp | hp
    · exact hw.startingUnique _ _ _ _ r h.point hy hp hyr
    · exact absurd hp (hold hy hyr)
  · rcases hp' with hp' | hp'
    · exact hw.startingUnique _ _ _ _ r hx h.point hxr hp'
    · exact absurd hp' (hold hx hxr)
  · exact hw.startingUnique _ _ _ _ r hx hy hxr hyr

theorem lock {r : RunId} (hw : WellFormed s) (h : RunStep cfg s t i p c) (hq : t.point? j = some q)
    (hr : q.holds? = some r) : t.terminalLock r = some j := by
  rw [h.terminalLock]
  rcases h.back hw (point?_eq_some.mp hq) with ⟨rfl,rfl⟩ | ⟨hj,hs⟩ | ⟨_,q',hq',hl⟩
  · rcases h.moved.holds hr with ⟨hl,_⟩ | ⟨hp,hl⟩
    · simp [hl,assign]
    · simpa [hl,assign] using hw.lock _ _ r h.point hp
  · have hlock := hw.lock j q r (point?_eq_some.mpr hs) hr
    cases hl : lockChange i p c with
    | none => simpa [assign] using hlock
    | some change =>
      obtain ⟨r',holder⟩ := change
      have hne : r ≠ r' := by
        rintro rfl
        rcases lockChange_cases hl with ⟨_,hp⟩ | ⟨_,outcome,k,q',rfl,rfl⟩
        · have := hw.lock i p r h.point hp
          rw [hlock] at this
          exact hj (by simpa using this)
        · have := h.moved.lockFree
          rw [hlock] at this
          cases this
      simpa [assign,hne] using hlock
  · cases hq'
    rcases lookup_spawned hl with ⟨_,_,_,_,_,_,_,rfl⟩ | ⟨_,_,_,_,_,_,_,rfl⟩ <;> cases hr

/-- Where a task is after the step, it existed before or has just been created. -/
theorem tasks_ne_none (hw : WellFormed s) (h : RunStep cfg s t i p c) (hj : t.tasks j ≠ none) :
    s.tasks j ≠ none ∨ ∃ q, (spawned p c).lookup j = some q := by
  obtain ⟨x,hx⟩ := Option.ne_none_iff_exists'.mp hj
  have hj' : t.ctl? j = some x.ctl := by simp [ctl?,hx]
  rcases h.back hw hj' with ⟨rfl,_⟩ | ⟨_,hs⟩ | ⟨_,q,_,hl⟩
  · exact .inl (WellFormed.exists_of_point h.point)
  · refine .inl fun hn => ?_
    rw [ctl?, hn] at hs
    cases hs
  · exact .inr ⟨q,hl⟩

theorem wellFormed (hw : WellFormed s) (h : RunStep cfg s t i p c) : WellFormed t where
  sound := h.moved.commit.sound hw.sound
  owner := by
    intro j q hq
    rcases h.back hw (point?_eq_some.mp hq) with ⟨rfl,rfl⟩ | ⟨_,hs⟩ | ⟨_,q',hq',hl⟩
    · exact h.moved.owner.trans (hw.owner _ _ h.point)
    · exact hw.owner j q (point?_eq_some.mpr hs)
    · cases hq'
      rcases lookup_spawned hl with ⟨_,_,_,_,_,_,rfl,rfl⟩ | ⟨_,_,_,_,_,_,rfl,rfl⟩ <;> rfl
  node := by
    intro k hk
    by_contra hn
    rw [h.nextNode] at hk
    rcases h.tasks_ne_none hw hn with hs | ⟨q,hl⟩
    · exact hs (hw.node k (by omega))
    · rcases lookup_spawned hl with ⟨_,_,_,_,_,_,he,_⟩ | ⟨r,T,tasks,x,rfl,hx,he,_⟩ <;> cases he
      simp only [roundSpawn, List.length_map] at hk
      rw [h.moved.readyWait] at hx hk
      have := (List.mem_zipIdx hx).2.1
      simp only [List.length_zipIdx] at hk
      omega
  call := by
    intro k hk
    by_contra hn
    rw [h.calls] at hk
    rcases h.tasks_ne_none hw hn with hs | ⟨q,hl⟩
    · exact hs (hw.call k hk)
    · rcases lookup_spawned hl with ⟨_,_,_,_,_,_,he,_⟩ | ⟨_,_,_,_,_,_,he,_⟩ <;> cases he
  run := by
    intro r hr
    have hg : s.store.Grows t.store := h.moved.commit.grows hw.sound
    rcases h.tasks_ne_none hw hr with hs | ⟨q,hl⟩
    · exact hg.isSome (hw.run r hs)
    · rcases lookup_spawned hl with ⟨a,_,cp,_,rfl,_,he,_⟩ | ⟨_,_,_,_,_,_,he,_⟩ <;> cases he
      exact hg.isSome (hw.starting i _ _ h.point rfl).2
  starting := fun _ _ _ hq hr => h.starting hw hq hr
  startingUnique := fun _ _ _ _ _ hq hq' hr hr' => h.startingUnique hw hq hq' hr hr'
  lock := fun _ _ _ hq hr => h.lock hw hq hr

end RunStep

theorem WellFormed.cancel (hw : WellFormed s) (targets : List TaskId) : WellFormed (s.requestCancels targets) := by
  have hc := requestCancels_ctl? s targets
  have hp := point?_congr hc
  have hn : ∀ j, s.tasks j = none ↔ (s.requestCancels targets).tasks j = none := fun j => by
    rw [← ctl?_eq_none, ← ctl?_eq_none, hc]
  constructor
  · exact hw.sound
  · rw [hp]; exact hw.owner
  · exact fun k hk => (hn _).mp (hw.node k hk)
  · exact fun k hk => (hn _).mp (hw.call k hk)
  · exact fun r hr => hw.run r fun h => hr ((hn _).mp h)
  · rw [hp]; exact fun i p r hi hr => ⟨(hn _).mp (hw.starting i p r hi hr).1,(hw.starting i p r hi hr).2⟩
  · rw [hp]; exact hw.startingUnique
  · rw [hp]; exact hw.lock

theorem accept_tasks (s : Sys) (k : Call) (j : TaskId) :
    (s.accept k).tasks j = if j = .call s.calls.length then some (.new k.begin) else s.tasks j := by
  by_cases h : j = .call s.calls.length
  · subst h; simp [Sys.accept,Sys.spawn]
  · simp [Sys.accept,Sys.spawn,h]

theorem accept_ctl? (s : Sys) (k : Call) (j : TaskId) :
    (s.accept k).ctl? j = if j = .call s.calls.length then some (.waiting k.begin) else s.ctl? j := by
  unfold ctl?
  rw [accept_tasks]
  split <;> rfl

theorem accept_point? {k : Call} (h : (s.accept k).point? j = some p) :
    (j = .call s.calls.length ∧ p = k.begin) ∨ s.point? j = some p := by
  rw [point?_eq_some, accept_ctl?] at h
  split at h
  next hj => cases h; exact .inl ⟨hj,rfl⟩
  next => exact .inr (point?_eq_some.mpr h)

/-- A request starts outside every lock and transaction. -/
theorem Call.begin_fields (k : Call) :
    k.begin.owner = .call ∧ k.begin.starting? = none ∧ k.begin.holds? = none := by
  cases k <;> exact ⟨rfl,rfl,rfl⟩

theorem WellFormed.accept (hw : WellFormed s) (k : Call) : WellFormed (s.accept k) where
  sound := hw.sound
  owner := by
    intro j p hp
    rcases accept_point? hp with ⟨rfl,rfl⟩ | hp
    · exact k.begin_fields.1
    · exact hw.owner j p hp
  node := fun n hn => by rw [accept_tasks]; simpa using hw.node n hn
  call := by
    intro n hn
    have hlt : s.calls.length + 1 ≤ n := by simpa [Sys.accept] using hn
    rw [accept_tasks]
    simpa [Nat.ne_of_gt hlt] using hw.call n (by omega)
  run := fun r hr => by rw [accept_tasks] at hr; exact hw.run r (by simpa using hr)
  starting := by
    intro j p r hp hr
    rcases accept_point? hp with ⟨rfl,rfl⟩ | hp
    · rw [k.begin_fields.2.1] at hr
      cases hr
    · rw [accept_tasks]
      exact ⟨by simpa using (hw.starting j p r hp hr).1,(hw.starting j p r hp hr).2⟩
  startingUnique := by
    intro j j' p q r hp hq hr hr'
    rcases accept_point? hp with ⟨_,rfl⟩ | hp
    · rw [k.begin_fields.2.1] at hr
      cases hr
    · rcases accept_point? hq with ⟨_,rfl⟩ | hq
      · rw [k.begin_fields.2.1] at hr'
        cases hr'
      · exact hw.startingUnique j j' p q r hp hq hr hr'
  lock := by
    intro j p r hp hr
    rcases accept_point? hp with ⟨rfl,rfl⟩ | hp
    · rw [k.begin_fields.2.2] at hr
      cases hr
    · exact hw.lock j p r hp hr

theorem step_wellFormed (hw : WellFormed s) (h : step cfg l s = some t) : WellFormed t := by
  cases step_cases h with
  | run i ch now p c t h => exact h.wellFormed hw
  | cancel k => exact hw.cancel _
  | call k => exact hw.accept k

theorem initial_wellFormed (agents : AgentId → Option AgentRecord) : WellFormed (initial agents) where
  sound := ⟨fun _ _ => rfl,by simp [initial],by simp [initial],by simp [initial]⟩
  owner := by simp [initial,point?]
  node := fun _ _ => rfl
  call := fun _ _ => rfl
  run := fun r hr => absurd rfl hr
  starting := by simp [initial,point?]
  startingUnique := by simp [initial,point?]
  lock := by simp [initial,point?]

theorem Run.wellFormed {ok : Label → Sys → Prop} {agents : AgentId → Option AgentRecord}
    (h : Run cfg ok (initial agents) s) : WellFormed s :=
  Reaches.invariant (I := WellFormed) (fun _ _ _ hw _ he => step_wellFormed hw he) h (initial_wellFormed agents)

theorem TaskId.eq_run {r : RunId} (h : i.owner = .run r) : i = .run r := by
  cases i <;> cases h
  rfl

/-- Two tasks cannot both be inside the body of a `_finish_*` of one run. -/
theorem WellFormed.lock_unique {r : RunId} (hw : WellFormed s) (hp : s.point? i = some p) (hq : s.point? j = some q)
    (hpr : p.holds? = some r) (hqr : q.holds? = some r) : i = j := by
  have h1 := hw.lock i p r hp hpr
  rw [hw.lock j q r hq hqr] at h1
  cases h1
  rfl

/-- Only the end of its own task removes a run from the registry. -/
theorem forgotten_own {r : RunId} (hw : WellFormed s) (h : RunStep cfg s t i p c) (hf : forgotten p c = some r) :
    i = .run r ∧ ∃ result, c = .done result := by
  have hk : ∀ q k, p.owner = FinishCont.owner q k → k.forgets q = some r → i = .run r := by
    intro q k ho hk
    cases k <;> cases hk
    exact TaskId.eq_run ((hw.owner i p h.point).symm.trans ho)
  rcases c with q | result
  · cases p <;> cases hf
  · refine ⟨?_,result,rfl⟩
    cases p
    case finishLock q outcome k => exact hk q k rfl hf
    case finishRead q outcome k => exact hk q k rfl hf
    case finishWrite q outcome k => exact hk q k rfl hf
    case finishPublish q outcome cp k => exact hk q k rfl hf
    all_goals cases hf

/-! ## Monotone facts -/

theorem RunStep.isDone (hw : WellFormed s) (h : RunStep cfg s t i p c) (hj : s.isDone j = true) : t.isDone j = true := by
  obtain ⟨result,hr⟩ := isDone_iff.mp hj
  have hi : j ≠ i := by
    rintro rfl
    rw [point?_eq_some.mp h.point] at hr
    cases hr
  have hs : s.tasks j ≠ none := fun hn => by
    rw [ctl?, hn] at hr
    cases hr
  exact isDone_iff.mpr ⟨result,(h.stays hw hi hs).trans hr⟩

theorem RunStep.not_spawned (hw : WellFormed s) (h : RunStep cfg s t i p c) (hj : s.tasks j ≠ none) :
    (spawned p c).lookup j = none := by
  cases hl : (spawned p c).lookup j with
  | none => rfl
  | some q => exact absurd (h.spawned_fresh hw hl) hj

theorem RunStep.keepsCancelRequested (hw : WellFormed s) (h : RunStep cfg s t i p c)
    (hj : s.cancelRequested j = true) : t.cancelRequested j = true := by
  obtain ⟨x,hx,_⟩ := cancelRequested_iff.mp hj
  exact (h.cancelRequested j (h.not_spawned hw (by simp [hx]))).mpr (.inr hj)

theorem RunStep.tasks_mono (hw : WellFormed s) (h : RunStep cfg s t i p c) (hj : s.tasks j ≠ none) : t.tasks j ≠ none := by
  intro hn
  have hc : t.ctl? j = none := ctl?_eq_none.mpr hn
  by_cases hi : j = i
  · subst hi
    rw [h.mover hw] at hc
    cases hc
  · rw [h.stays hw hi hj] at hc
    exact hj (ctl?_eq_none.mp hc)

/-! ## Commits with their awaits -/

/-- The four awaits that commit. -/
inductive CommitAt (cfg : Config) (s : Sys) : Point → Store → Prop
  | start (a : StartCall) (store : Store) (r : RunId)
      (h : startTransaction cfg s.store a.agentId a.inputText a.link = .ok (store,r)) :
      CommitAt cfg s (.startWrite a) store
  | mark (r : RunId) (run : RunRecord) (now : Instant) :
      CommitAt cfg s (.markWrite r run) (markRunningTransaction cfg s.store r now)
  | finish (r : RunId) (outcome : Terminal) (k : FinishCont) (now : Instant) :
      CommitAt cfg s (.finishWrite r outcome k) (finishTransaction cfg s.store r outcome now)
  | update (a : AgentId) (graph : JsonObject) :
      CommitAt cfg s (.updateWrite a graph) (updateGraphTransaction s.store a graph)

/-- A cancelled task does not commit. -/
theorem Moved.commitAt (h : Moved cfg s i p c store) :
    store = s.store ∨ (s.mustCancel i = false ∧ CommitAt cfg s p store) := by
  cases h with
  | delivered hm hd hs => exact .inl hs
  | resumed hm hn =>
    cases hn
    case startCommit a r h => exact .inr ⟨hm,.start a _ r h⟩
    case markWrite r run now => exact .inr ⟨hm,.mark r run now⟩
    case finishWrite r outcome k now => exact .inr ⟨hm,.finish r outcome k now⟩
    case updateWrite a graph => exact .inr ⟨hm,.update a graph⟩
    all_goals exact .inl rfl

end AgentGraph.Manager
