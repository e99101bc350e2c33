import AgentGraph.Manager.Descendants
import AgentGraph.Manager.NodeTasks

/-! # No descendant outlives its ancestor, unless it is abandoned

A run that is delegated is awaited by the node task that has started it, and every
node task by the task of the parent. The chain breaks only where a node task leaves a
child that is still live: it is interrupted between the commit of the child and the
wait for it, or in the handler that stops the child, or `stop_run` gives up there.
-/
set_option autoImplicit false
namespace AgentGraph.Manager
open Sys Transition Descent Store

variable {cfg : Config} {s t : Sys} {l : Label} {i j : TaskId} {p q : Point} {c : Ctl} {store : Store} {r : RunId}
variable {x : NodeCall × RunId} {ch : Choice} {now : Instant}

def Choice.raises : Choice → Bool
  | .fail _ => true
  | _ => false

/-- The task of a run is before or inside the `try` block of `_execute_run`. -/
def Point.executing : Point → Bool
  | .runBegin _ => true
  | p => p.body?.isSome

namespace Sys

/-- The run is QUEUED or RUNNING, or its task still executes it. -/
def live (s : Sys) (r : RunId) : Bool :=
  (s.status? r).any RunStatus.active || (s.point? (.run r)).any Point.executing

/-- At these awaits and choices a node task leaves its child without having seen it
end. Only a wait that is cancelled is followed by the handler of `run_child`. -/
def leaves (s : Sys) (i : TaskId) (ch : Choice) : Point → Bool
  | .childWait _ _ => false
  | .startRefresh _ _ _ | .startClose _ _ _ => s.mustCancel i || ch.raises
  | .startPublish _ c _ => s.mustCancel i || ch.raises || !s.registry.contains c
  | .stopRead c (.child _ _) => s.mustCancel i || (s.status? c).any RunStatus.terminal
  | .stopWait _ (.child _ _) => s.mustCancel i || ch == .timeout
  | _ => s.mustCancel i

/-- A run below `r` is QUEUED or RUNNING. -/
def Outlived (s : Sys) (r : RunId) : Prop := ∃ k c, Below s.store.childrenOf r (k + 1) c ∧ s.Active c

end Sys

/-- The step makes a node task leave a child that is live. -/
def abandons (l : Label) (s : Sys) : Bool :=
  match l with
  | .run i ch _ => (s.point? i).any fun p => p.child?.any fun x => s.live x.2 && s.leaves i ch p
  | _ => false

def awaitsChildren (l : Label) (s : Sys) : Prop := abandons l s = false

instance : ∀ l s, Decidable (awaitsChildren l s) := fun l s => inferInstanceAs (Decidable (abandons l s = false))

/-- A delegated run that is live is awaited by a node task of its parent. -/
structure Guarded (s : Sys) : Prop where
  parents : ∀ i p c, s.point? i = some p → p.starting? = some c → ∀ q, c ∈ s.store.childrenOf q →
    ∃ n, p.child? = some (n,c) ∧ n.parent = q
  guarded : ∀ q c, c ∈ s.store.childrenOf q → s.live c = true →
    ∃ k p n, s.point? (.node k) = some p ∧ p.child? = some (n,c) ∧ n.parent = q

/-! ## Live runs -/

theorem live_iff : s.live r = true ↔ s.Active r ∨ ∃ p, s.point? (.run r) = some p ∧ p.executing = true := by
  simp [live,status?,Sys.Active,Option.any_eq_true]

theorem not_live (hd : s.isDone (.run r) = true) (he : s.Ended r) : s.live r ≠ true := by
  intro hl
  rcases live_iff.mp hl with ha | ⟨p,hp,-⟩
  · exact not_active_and_ended ha he
  · rw [not_waiting_of_done hd] at hp
    cases hp

/-- A task that executes a run has executed it before. -/
theorem Moved.executing (h : Moved cfg s i p (.waiting q) store) (hq : q.executing = true) : p.executing = true := by
  cases h with
  | delivered hm hd hs =>
    cases hd
    case raised => cases hq
    case handler => cases hq
    all_goals rfl
  | resumed hm hn =>
    cases hn
    case continued h =>
      have hc := h.continues
      cases q <;> first | exact Bool.noConfusion hc | exact Bool.noConfusion hq
    all_goals first | rfl | exact Bool.noConfusion hq

/-- A run becomes live when it is committed or when its task is created. -/
theorem RunStep.live (hw : WellFormed s) (h : RunStep cfg s t i p c) (hr : (s.store.runs r).isSome)
    (hl : t.live r = true) : s.live r = true ∨ ∃ a cp q, p = .startClose a r cp ∧ c = .waiting q := by
  rcases live_iff.mp hl with ha | ⟨q,hq,hex⟩
  · refine .inl (by_contra fun hn => ?_)
    have hn' := mt live_iff.mpr hn
    obtain ⟨run,hrun⟩ := Option.isSome_iff_exists.mp hr
    have hend : s.Ended r := by
      refine ⟨run,hrun,?_⟩
      by_contra hact
      exact hn' (.inl ⟨run,hrun,RunStatus.terminal_eq_false.mp (by simpa using hact)⟩)
    refine not_active_and_ended ha (h.keepsEnded hw (fun run' hp => ?_) hend)
    subst hp
    have hi : i = .run r := TaskId.eq_run (hw.owner i _ h.point).symm
    exact hn' (.inr ⟨_,hi ▸ h.point,rfl⟩)
  · rcases h.back hw (point?_eq_some.mp hq) with ⟨rfl,rfl⟩ | ⟨_,hs⟩ | ⟨_,q',hq',hk⟩
    · exact .inl (live_iff.mpr (.inr ⟨p,h.point,h.moved.executing hex⟩))
    · exact .inl (live_iff.mpr (.inr ⟨q,point?_eq_some.mpr hs,hex⟩))
    · rcases lookup_spawned hk with ⟨a,r',cp,q',rfl,rfl,he,_⟩ | ⟨_,_,_,_,_,_,he,_⟩ <;> cases he
      exact .inr ⟨a,cp,q',rfl,rfl⟩

/-! ## How a node task leaves its child -/

theorem leaves_of_mustCancel (hm : s.mustCancel i = true) (hp : ∀ n c, p ≠ .childWait n c) :
    s.leaves i ch p = true := by
  unfold leaves
  split
  next n c => exact absurd rfl (hp n c)
  all_goals simp [hm]

/-- A start that has committed a child ends by an exception, or because the task of
the child has ended already. -/
theorem resumeStart_leaves {eff : Effect} {result : Result} (h : s.resumeStart cfg i p ch = some eff)
    (hd : eff.next = .done result) (hx : p.child? = some x) : s.leaves i ch p = true := by
  unfold resumeStart at h
  split at h
  next a => cases hx
  next a => cases hx
  next a r cp => cases h; cases hd
  next a r cp => cases h; cases hd
  next a r cp =>
    obtain ⟨n,hn,rfl⟩ := Option.map_eq_some_iff.mp hx
    cases h
    by_cases hr : r ∈ s.registry
    · simp [hn,startReturn,hr,Effect.goto] at hd
    · simp [leaves,hr]
  next a e => cases hx
  next a r cp e => simp [leaves,Choice.raises]
  next a r cp e => simp [leaves,Choice.raises]
  next a r cp e => simp [leaves,Choice.raises]
  next => cases h

theorem resumeStop_timeout {k : StopCont} {eff : Effect} (h : s.resumeStop (.stopWait r k) ch = some eff)
    (hd : s.isDone (.run r) = false) : ch = .timeout := by
  unfold resumeStop at h
  cases ch <;> first | rfl | cases h | simp [hd] at h

/-- A node task that ends leaves its child in one of the listed ways, or the child has
ended before. -/
theorem RunStep.leaves {result : Result} (hi : Joined s) (hstep : step cfg (.run i ch now) s = some t)
    (h : RunStep cfg s t i p (.done result)) (hx : p.child? = some x) (hl : s.live x.2 = true) :
    s.leaves i ch p = true := by
  have hw := hi.completed.wellFormed
  have hpoint := h.point
  have hseen : p.settled? = some x.2 → False := fun hr =>
    not_live (hi.settledDone hpoint hr) (hi.settled i p x.2 hpoint hr) hl
  have hrow : ∀ r ∈ p.visits, s.store.runs r ≠ none := fun r hr hn => by
    have := hi.visited i p hpoint r hr
    rw [hn] at this
    cases this
  cases h.moved with
  | delivered hm hd hs =>
    cases hd with
    | unwound _ hne hb => exact leaves_of_mustCancel hm hne
  | resumed hm hn =>
    obtain ⟨eff,he,hnext⟩ := step_resumed hw hstep h hm
    generalize t.store = store at hn
    cases hn
    case startRaised a e hs =>
      have hstart : s.resume cfg i p ch now = s.resumeStart cfg i p ch := by cases p <;> first | rfl | cases hs
      exact resumeStart_leaves (hstart ▸ he) hnext hx
    case startReturned a r cp hc => simp [Point.child?,hc] at hx
    case childLost a r cp n hc hr => exact resumeStart_leaves he hnext hx
    case childRaised n c e hres hne =>
      rcases (hi.completed.result c _ hres).1 with h | h
      · cases h
      · cases h; exact absurd rfl hne
    case childMissing n c hnone => exact absurd hnone (hrow c List.mem_cons_self)
    case childSucceeded n c run text h hs ht => cases hx; exact (hseen rfl).elim
    case childUnsuccessful n c run h hs => cases hx; exact (hseen rfl).elim
    case stopMissing r k hnone => exact absurd hnone (hrow r (root_mem_visits hx))
    case backMissing r k hnone => exact absurd hnone (hrow r List.mem_cons_self)
    case descMissing c rest k hnone => exact absurd hnone (hrow c List.mem_cons_self)
    case continued hc =>
      cases hc
      case finishSkip r outcome k hs hc =>
        cases hc with
        | returned => cases hx
        | reraised e => cases hx
        | shutdown rest c h => cases hx
        | stopFailed k c h =>
          cases h with
          | call => cases hx
          | child n e =>
            cases hx
            have hdone := hi.parted i _ r hpoint rfl
            obtain ⟨run,hrun⟩ := Option.isSome_iff_exists.mp (hw.run r (tasks_of_done hdone))
            exact absurd hl (not_live hdone ⟨run,hrun,hs run hrun⟩)
      case finishPublish r outcome cp k hc =>
        cases hc with
        | returned => cases hx
        | reraised e => cases hx
        | shutdown rest c h => cases hx
        | stopFailed k c h =>
          cases h with
          | call => cases hx
          | child n e => cases hx; exact (hseen rfl).elim
      case stopTerminal r k run hrun hs hc =>
        cases hc with
        | call => cases hx
        | child n e => simp [Sys.leaves,status?,hrun,hs]
      case stopTimeout r k hd hc =>
        cases hc with
        | call => cases hx
        | child n e =>
          obtain rfl := resumeStop_timeout he hd
          simp [Sys.leaves]
      case stopReadBack r k run hrun hc =>
        cases hc with
        | call => cases hx
        | child n e => cases hx; exact (hseen rfl).elim
      case shutdownWait => cases hx
    all_goals cases hx

theorem awaitsChildren_leaves (hok : awaitsChildren (.run i ch now) s) (hp : s.point? i = some p)
    (hx : p.child? = some x) (hl : s.live x.2 = true) : s.leaves i ch p = false := by
  unfold awaitsChildren at hok
  simpa [abandons,hp,hx,hl] using hok

/-! ## The child of a node task -/

/-- A new child is that of the task that has just committed it. -/
theorem Moved.newChild {child : RunId} (hs : s.store.Sound) (h : Moved cfg s i p c store)
    (hc : child ∈ store.childrenOf r) (hrow : ¬ (s.store.runs child).isSome) :
    ∃ a n cp, p = .startWrite a ∧ a.child = some n ∧ n.parent = r ∧ c = .waiting (.startRefresh a child cp) := by
  have hold : child ∉ s.store.childrenOf r := by
    intro hmem
    obtain ⟨d,hd,-,rfl⟩ := mem_childrenOf.mp hmem
    exact hrow (hs.delegations d hd).2.1
  cases h with
  | delivered hm hd hst => exact absurd (hst ▸ hc) hold
  | resumed hm hn =>
    cases hn
    case startCommit a q h =>
      obtain ⟨agent,h⟩ := startTransaction_started h
      rcases h.children.mp hc with hmem | ⟨link,hl,rfl,rfl⟩
      · exact absurd hmem hold
      · obtain ⟨n,hn,rfl⟩ := Option.map_eq_some_iff.mp hl
        exact ⟨a,n,_,rfl,hn,rfl,rfl⟩
    case markWrite q run now => exact absurd (by simpa [mem_childrenOf] using hc) hold
    case finishWrite q outcome k now => exact absurd (by simpa [mem_childrenOf] using hc) hold
    case updateWrite a graph => exact absurd hc hold
    all_goals exact absurd hc hold

theorem RunStep.parents (hw : WellFormed s) (hg : Guarded s) (h : RunStep cfg s t i p c) {child : RunId}
    (hq : t.point? j = some q) (hc : q.starting? = some child) (hr : child ∈ t.store.childrenOf r) :
    ∃ n, q.child? = some (n,child) ∧ n.parent = r := by
  have hold : (s.store.runs child).isSome → child ∈ s.store.childrenOf r := fun hrow =>
    (h.moved.commit.children hw.sound hr).resolve_right (not_not_intro hrow)
  rcases h.back hw (point?_eq_some.mp hq) with ⟨rfl,rfl⟩ | ⟨_,hs⟩ | ⟨_,q',hq',hl⟩
  · rcases h.moved.starting hc with ⟨hp,-,-⟩ | ⟨a,rfl,ha⟩
    · obtain ⟨n,hn,hpar⟩ := hg.parents _ p child h.point hp r (hold (hw.starting _ p child h.point hp).2)
      exact ⟨n,h.moved.child hn,hpar⟩
    · obtain ⟨agent,ha⟩ := startTransaction_started ha
      have hnew : ¬ (s.store.runs child).isSome := by simp [hw.sound.runs child ha.fresh.le]
      obtain ⟨a',n,cp,-,hn,hpar,he⟩ := h.moved.newChild hw.sound hr hnew
      cases he
      exact ⟨n,by simp [Point.child?,hn],hpar⟩
  · have hp := point?_eq_some.mpr hs
    exact hg.parents j q child hp hc r (hold (hw.starting j q child hp hc).2)
  · cases hq'
    rcases lookup_spawned hl with ⟨_,_,_,_,_,_,_,rfl⟩ | ⟨_,_,_,_,_,_,_,rfl⟩ <;> cases hc

theorem RunStep.guarded (hi : Joined s) (hg : Guarded s) (hstep : step cfg (.run i ch now) s = some t)
    (h : RunStep cfg s t i p c) (hok : awaitsChildren (.run i ch now) s) {child : RunId}
    (hc : child ∈ t.store.childrenOf r) (hl : t.live child = true) :
    ∃ k q n, t.point? (.node k) = some q ∧ q.child? = some (n,child) ∧ n.parent = r := by
  have hw := hi.completed.wellFormed
  have hnode : ∀ {p}, s.point? i = some p → p.owner = .node → ∃ k, i = .node k := by
    intro p hp ho
    have hi := (hw.owner i p hp).symm.trans ho
    cases i <;> cases hi
    exact ⟨_,rfl⟩
  by_cases hrow : (s.store.runs child).isSome
  · have hold := (h.moved.commit.children hw.sound hc).resolve_right (not_not_intro hrow)
    rcases h.live hw hrow hl with hlive | ⟨a,cp,q,rfl,rfl⟩
    · obtain ⟨k,p',n,hp',hx,hpar⟩ := hg.guarded r child hold hlive
      by_cases hk : i = .node k
      · subst hk
        obtain rfl : p = p' := Option.some.inj (h.point.symm.trans hp')
        cases c with
        | waiting q => exact ⟨k,q,n,point?_eq_some.mpr (h.mover hw),h.moved.child hx,hpar⟩
        | done result =>
          -- the only way to lose the awaiter of a live child
          have hleaves := h.leaves hi hstep hx hlive
          rw [awaitsChildren_leaves hok hp' hx hlive] at hleaves
          cases hleaves
      · have hstay := h.stays hw (Ne.symm hk) (WellFormed.exists_of_point hp')
        exact ⟨k,p',n,point?_eq_some.mpr (hstay.trans (point?_eq_some.mp hp')),hx,hpar⟩
    · obtain ⟨n,hn,hpar⟩ := hg.parents i _ child h.point rfl r hold
      have hx := h.moved.child hn
      obtain ⟨k,rfl⟩ := hnode h.point (by
        obtain ⟨n',hn',-⟩ := Option.map_eq_some_iff.mp hn
        simp [Point.owner,StartCall.owner,hn'])
      exact ⟨k,q,n,point?_eq_some.mpr (h.mover hw),hx,hpar⟩
  · obtain ⟨a,n,cp,rfl,hn,hpar,rfl⟩ := h.moved.newChild hw.sound hc hrow
    obtain ⟨k,rfl⟩ := hnode h.point (by simp [Point.owner,StartCall.owner,hn])
    exact ⟨k,_,n,point?_eq_some.mpr (h.mover hw),by simp [Point.child?,hn],hpar⟩

/-! ## The invariant -/

/-- Everything that is known about who awaits whom. -/
structure Awaited (s : Sys) : Prop where
  joined : Joined s
  calls : StopCalls s
  hosted : Hosted s
  guarded : Guarded s

theorem step_awaited (ha : Awaited s) (hok : awaitsChildren l s) (h : step cfg l s = some t) : Awaited t := by
  have hw := ha.joined.completed.wellFormed
  refine ⟨step_joined ha.joined h,step_stopCalls ha.joined ha.calls h,?_,?_⟩
  · exact step_hosted hw ha.hosted h
  · cases step_cases h with
    | run i ch now p c t hr =>
      exact ⟨fun _ _ _ hq hs r hmem => hr.parents hw ha.guarded hq hs hmem,
        fun r child hmem hl => hr.guarded ha.joined ha.guarded h hok hmem hl⟩
    | cancel k =>
      have hp := point?_congr (requestCancels_ctl? s (s.cancelTargets (.call k)))
      have hl : (s.requestCancels (s.cancelTargets (.call k))).live = s.live := by
        funext r
        unfold Sys.live
        rw [hp]
        rfl
      refine ⟨?_,?_⟩
      · rw [hp]; exact ha.guarded.parents
      · rw [hp, hl]; exact ha.guarded.guarded
    | call k =>
      have hl : (s.accept k).live = s.live := by
        funext r
        unfold Sys.live
        rw [accept_run]
        rfl
      refine ⟨fun i p child hp hs r hmem => ?_,fun r child hmem hlive => ?_⟩
      · rcases accept_point? hp with ⟨-,rfl⟩ | hp
        · rw [k.begin_fields.2.1] at hs; cases hs
        · exact ha.guarded.parents i p child hp hs r hmem
      · obtain ⟨n,p,x,hp,hx⟩ := ha.guarded.guarded r child hmem (hl ▸ hlive)
        exact ⟨n,p,x,by rw [accept_node]; exact hp,hx⟩

theorem initial_awaited (agents : AgentId → Option AgentRecord) : Awaited (initial agents) where
  joined := initial_joined agents
  calls := initial_stopCalls agents
  hosted := initial_hosted agents
  guarded := ⟨by simp [initial,point?],by simp [initial,mem_childrenOf]⟩

/-! ## Descendants -/

/-- The parent of a live run executes it and is live itself. -/
theorem Awaited.parent_live (ha : Awaited s) {q child : RunId} (hc : child ∈ s.store.childrenOf q)
    (hl : s.live child = true) : s.live q = true ∧ ∃ p, s.point? (.run q) = some p := by
  obtain ⟨k,p,n,hp,hx,rfl⟩ := ha.guarded.guarded q child hc hl
  obtain ⟨q,hq,p',tasks,hp',hround,-⟩ := ha.hosted.hosted k p hp
  obtain rfl : n.parent = q := Option.some.inj ((Point.parent_of_child hx).symm.trans hq)
  refine ⟨live_iff.mpr (.inr ⟨p',hp',?_⟩),p',hp'⟩
  cases p' <;> first | rfl | cases hround

/-- A run with a live descendant is still executed. -/
theorem Awaited.executed (ha : Awaited s) {k : ℕ} {child : RunId} (h : Below s.store.childrenOf r k child)
    (hl : s.live child = true) : k = 0 ∨ ∃ p, s.point? (.run r) = some p := by
  induction h with
  | self => exact .inl rfl
  | child k q child hb hc ih =>
    obtain ⟨hlq,hpoint⟩ := ha.parent_live hc hl
    refine .inr ?_
    rcases ih hlq with rfl | hr
    · cases hb with
      | self => exact hpoint
    · exact hr

theorem Awaited.not_outlived (ha : Awaited s) (hr : s.point? (.run r) = none) : ¬ s.Outlived r := by
  rintro ⟨k,child,hb,hact⟩
  rcases ha.executed hb (live_iff.mpr (.inl hact)) with h | ⟨p,hp⟩
  · cases h
  · rw [hr] at hp
    cases hp

/-- No descendant outlives its ancestor: as long as no node task leaves a live child,
a terminal run whose task is over has no active descendant, and neither has a run
after `stop_run` has returned normally for it. -/
theorem no_descendant_outlives {agents : AgentId → Option AgentRecord}
    (h : Run cfg awaitsChildren (initial agents) s) (r : RunId) :
    (s.Ended r → s.point? (.run r) = none → ¬ s.Outlived r) ∧
    ∀ j : ℕ, s.calls[j]? = some (.stopRun r) → s.result? (.call j) = some .returned → ¬ s.Outlived r := by
  have ha : Awaited s :=
    Reaches.invariant (I := Awaited) (fun _ _ _ ha hok he => step_awaited ha hok he) h (initial_awaited agents)
  refine ⟨fun _ hr => ha.not_outlived hr,fun j hj hres => ha.not_outlived ?_⟩
  exact not_waiting_of_done (ha.calls.returned j r hj hres)

/-- A team that waits for its worker, which waits for the model. -/
def waitingTeam : Sys :=
  after (step sampleConfig)
    ([.call (.startRun 4 "hello")] ++ resumes (.call 0) 5 ++ resumes (.run 0) 6 ++ resumes (.node 0) 7 ++
      resumes (.run 3) 6) (initial pairAgents) (by decide)

/-- The team is stopped there. -/
def stoppedTeam : Sys :=
  after (step sampleConfig)
    ([.call (.stopRun 0)] ++ resumes (.call 1) 6 ++ resumes (.run 3) 5 ++ resumes (.call 1) 4 ++ resumes (.node 0) 3 ++
      resumes (.run 0) 6 ++ resumes (.call 1) 4) waitingTeam (by decide)

theorem no_descendant_outlives_stopped :
    stoppedTeam.status? 0 = some .cancelled ∧ stoppedTeam.store.childrenOf 0 = [3] ∧
      stoppedTeam.result? (.call 1) = some .returned ∧ ¬ stoppedTeam.Outlived 0 := by
  have hwait : Run sampleConfig awaitsChildren (initial pairAgents) waitingTeam :=
    after_reaches awaitsChildren _ (by decide)
  have hstop : Run sampleConfig awaitsChildren waitingTeam stoppedTeam := after_reaches awaitsChildren _ (by decide)
  have hrun : Run sampleConfig awaitsChildren (initial pairAgents) stoppedTeam := hwait.trans hstop
  have hend : stoppedTeam.Ended 0 := ⟨(stoppedTeam.store.runs 0).get (by decide),(Option.some_get _).symm,by decide⟩
  have hnone : stoppedTeam.point? (.run 0) = none := Option.isNone_iff_eq_none.mp (by decide)
  exact ⟨by decide,by decide,by decide,(no_descendant_outlives hrun 0).1 hend hnone⟩

/-- `stop_run` lists the children before the worker is committed, and the node task is
cancelled before it has created the task of the worker. -/
def abandonedLabels : List Label :=
  [.call (.startRun 4 "hello")] ++ resumes (.call 0) 5 ++ resumes (.run 0) 6 ++ resumes (.node 0) 3 ++
    [.call (.stopRun 0)] ++ resumes (.call 1) 2 ++ resumes (.node 0) 1 ++ resumes (.run 0) 1 ++ resumes (.node 0) 1 ++
    resumes (.run 0) 5 ++ resumes (.call 1) 4

def abandoned : Sys := after (step sampleConfig) abandonedLabels (initial pairAgents) (by decide)

/-- No wait times out in the step. -/
def inTime (l : Label) (_ : Sys) : Prop := ∀ i now, l ≠ .run i .timeout now

/-- The team is CANCELLED, its task and all requests are over and `stop_run` has
returned normally, but its worker is still QUEUED. -/
theorem stopped_parent_leaves_queued_child :
    ∃ s, Run sampleConfig inTime (initial pairAgents) s ∧ s.Ended 0 ∧ s.point? (.run 0) = none ∧
      (∀ j < s.calls.length, s.isDone (.call j) = true) ∧ s.calls[1]? = some (.stopRun 0) ∧
      s.result? (.call 1) = some .returned ∧ s.status? 3 = some .queued ∧ s.Outlived 0 := by
  have hrun : Run sampleConfig inTime (initial pairAgents) abandoned := by
    refine after_reaches inTime _ (execOk_of_all (fun l hl s i now he => ?_) _)
    subst he
    simp [abandonedLabels,resumes] at hl
  have hrow : abandoned.store.runs 3 = some ((abandoned.store.runs 3).get (by decide)) := (Option.some_get _).symm
  have hchild : 3 ∈ abandoned.store.childrenOf 0 := by decide
  refine ⟨abandoned,hrun,⟨(abandoned.store.runs 0).get (by decide),(Option.some_get _).symm,by decide⟩,
    Option.isNone_iff_eq_none.mp (by decide),by decide,rfl,by decide,by decide,?_⟩
  exact ⟨0,3,.child 0 0 3 .self hchild,_,hrow,by decide⟩

end AgentGraph.Manager
