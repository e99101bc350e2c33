import AgentGraph.Domain.TeamGraphDag
import AgentGraph.Manager.ExecutionSpec
import AgentGraph.Persistence.Delegations

/-! # Delegation is bounded

The context a child is given names the agents of all runs above it, from the call of
`run_child` to the request of its runtime. The checks on depth and ancestry read this
context and never a graph, so they hold whatever the graphs say and become.
-/
set_option autoImplicit false
namespace AgentGraph.Manager
open Sys Transition Descent Store

variable {cfg : Config} {s t : Sys} {l : Label} {i j : TaskId} {p q : Point} {c : Ctl} {store : Store} {r : RunId}
variable {contexts : RunId → Option DelegationContext} {context : DelegationContext}

/-- A team execution knows its agent and its context. -/
structure TeamSound (store : Store) (T : TeamState) : Prop where
  agent : store.agent? T.execution.runId = some T.execution.agentId
  context : store.ContextOf T.execution.runId T.context

/-- A call of `run_child` that has passed the checks on depth and ancestry. -/
structure CallSound (cfg : Config) (store : Store) (a : StartCall) (n : NodeCall) : Prop where
  agentId : a.agentId = n.node.agentId
  context : store.ChildContextOf n.parent n.context
  depth : n.context.depth ≤ cfg.maxDepth
  ancestry : n.node.agentId ∉ n.context.ancestry

/-- The run whose runtime is still to be invoked. -/
def Point.beforeInvoke? : Point → Option RunId
  | .runBegin r | .markRead r | .markWrite r _ | .markPublish r _ _ | .delay r _ | .readAgent r _
  | .validate r _ _ => some r
  | _ => none

/-- What is known at an await about the context of its run or child. -/
def Point.Delegates (cfg : Config) (store : Store) (contexts : RunId → Option DelegationContext) : Point → Prop
  | .startLock a | .startWrite a => ∀ n, a.child = some n → CallSound cfg store a n
  | .startRefresh a r _ | .startClose a r _ =>
    (∀ n, a.child = some n → store.ContextOf r n.context) ∧ (a.child = none → IsRoot store.childrenOf r)
  | .nodeBegin T _ | .readyWait _ T _ => TeamSound store T
  | .nodeAcquire n => store.ChildContextOf n.parent n.context
  | .runBegin r | .markRead r | .markWrite r _ | .markPublish r _ _ | .delay r _ | .readAgent r _
  | .validate r _ _ => contexts r = none → IsRoot store.childrenOf r
  | _ => True

structure Delegated (cfg : Config) (s : Sys) : Prop where
  wellFormed : WellFormed s
  carries : s.CarriesRow
  bounded : s.store.Bounded cfg
  contexts : ∀ r context, s.contexts r = some context → s.store.ContextOf r context
  points : ∀ i p, s.point? i = some p → p.Delegates cfg s.store s.contexts

/-! ## Contexts along one step -/

theorem TeamSound.commit {T : TeamState} (hs : s.store.Sound) (hc : Commit cfg s.store store)
    (h : TeamSound s.store T) : TeamSound store T :=
  ⟨((hc.grows hs).agent? h.context.run).trans h.agent,hc.contextOf hs h.context⟩

/-- What is known at an await stays known while other tasks move. -/
theorem Point.Delegates.commit (hs : s.store.Sound) (hc : Commit cfg s.store store)
    (hstarting : ∀ r, p.starting? = some r → (s.store.runs r).isSome)
    (hbefore : ∀ r, p.beforeInvoke? = some r →
      (s.store.runs r).isSome ∧ (contexts r = none → s.contexts r = none))
    (h : p.Delegates cfg s.store s.contexts) : p.Delegates cfg store contexts := by
  cases p
  case startLock a | startWrite a =>
    intro n hn
    have hcall := h n hn
    exact ⟨hcall.agentId,hc.childContextOf hs hcall.context,hcall.depth,hcall.ancestry⟩
  case startRefresh a r _ | startClose a r _ =>
    exact ⟨fun n hn => hc.contextOf hs (h.1 n hn),fun hn => hc.isRoot hs (hstarting r rfl) (h.2 hn)⟩
  case nodeBegin T _ | readyWait T _ => exact TeamSound.commit hs hc h
  case nodeAcquire n => exact hc.childContextOf hs h
  case runBegin r | markRead r | markWrite r _ | markPublish r _ _ | delay r _ | readAgent r _ | validate r _ _ =>
    intro hnone
    obtain ⟨hrow,hctx⟩ := hbefore r rfl
    exact hc.isRoot hs hrow (h (hctx hnone))
  all_goals exact trivial

theorem Point.delegates_of_continues (h : q.continues = true) : q.Delegates cfg store contexts := by
  cases q <;> first | exact trivial | cases h

/-- A team round starts with the context of the team execution. -/
theorem GraphNext.delegates {T : TeamState} (h : GraphNext cfg s r T q) (hT : TeamSound store T) :
    q.Delegates cfg store contexts := by
  cases h with
  | round hp hr => exact hT
  | synthesize content hp h => exact trivial
  | keyError hp h => exact trivial
  | stuck hp hr => exact trivial

/-- The request `_execute_run` builds has the context of its run. -/
theorem Delegated.request (hd : Delegated cfg s) {run : RunRecord} {agent : AgentRecord}
    (hp : s.point? (.run r) = some (.validate r run agent)) (graph : TeamGraph) :
    TeamSound s.store
      (TeamState.start (s.executionRequest r run agent) (s.executionRequest r run agent).context graph) := by
  obtain ⟨row,hrow,hagent,-⟩ := hd.carries r _ run hp rfl
  refine ⟨by simp [TeamState.start,executionRequest,Store.agent?,hrow,hagent],?_⟩
  have hroot := hd.points _ _ hp
  have hcontext : (s.executionRequest r run agent).context = (s.contexts r).getD ⟨none,some r,0,[]⟩ := rfl
  simp only [TeamState.start, hcontext]
  cases hc : s.contexts r with
  | some context => exact hd.contexts r context hc
  | none => exact .root (by simp [executionRequest,hrow]) (hroot hc)

theorem Moved.delegates (hd : Delegated cfg s) (hp : s.point? i = some p)
    (h : Moved cfg s i p (.waiting q) store) :
    q.Delegates cfg store (assign s.contexts (contextChange p (.waiting q))) := by
  have hs := hd.wellFormed.sound
  have hpoint := hd.points i p hp
  cases h with
  | delivered hm hdel hst => cases hdel <;> exact trivial
  | resumed hm hn =>
    cases hn
    case continued h => exact Point.delegates_of_continues h.continues
    case startLock a h => exact hpoint
    case startCommit a r h =>
      obtain ⟨agent,hrun⟩ := startTransaction_started h
      constructor
      · intro n hn
        have hlink : a.link = some ⟨n.parent,n.node.id,n.context.depth⟩ := by simp [StartCall.link,hn]
        exact Started.contextOf hs (Started.commit h) (hlink ▸ hrun) (hpoint n hn).context
      · intro hn
        have hlink : a.link = none := by simp [StartCall.link,hn]
        exact Started.isRoot hs (hlink ▸ hrun)
    case startRefresh a r cp => exact hpoint
    case nodeBegin T node text h => exact hpoint.context.child hpoint.agent rfl rfl
    case nodeAcquire n hdepth hpermits hancestry =>
      rintro _ ⟨⟩
      exact ⟨rfl,hpoint,by assumption,by assumption⟩
    case runBegin r => exact hpoint
    case markRead r run hs' h => exact hpoint
    case markWrite r run now =>
      intro hnone
      have hrow := hd.wellFormed.run r fun hnot => by
        have hi := TaskId.eq_run (hd.wellFormed.owner i _ hp).symm
        exact WellFormed.exists_of_point hp (hi ▸ hnot)
      exact Commit.isRoot hs (.mark r now) hrow (hpoint hnone)
    case markDelay r run cp => exact hpoint
    case markPublish r run cp => exact hpoint
    case delay r run => exact hpoint
    case readAgent r run agent h => exact hpoint
    case invoked r run agent h hq =>
      obtain rfl := TaskId.eq_run (hd.wellFormed.owner i _ hp).symm
      cases hq with
      | call => exact trivial
      | refused e he => exact trivial
      | team graph _ hv hg hdepth hq => exact hq.delegates (hd.request hp graph)
    case roundDone r T tasks hall hf hq => exact hq.delegates ⟨hpoint.agent,hpoint.context⟩
    all_goals exact trivial

/-! ## The invariant -/

/-- A context is given to a child with its task and taken away at the end of that. -/
theorem contextChange_cases {change : Option DelegationContext} (h : contextChange p c = some (r,change)) :
    (change = none ∧ forgotten p c = some r) ∨
      ∃ a cp n q, p = .startClose a r cp ∧ c = .waiting q ∧ a.child = some n ∧ change = some n.context := by
  cases hl : launched p c with
  | some r' =>
    obtain ⟨a,cp,q,rfl,rfl⟩ := launched_eq_some hl
    obtain ⟨n,hn,he⟩ := Option.map_eq_some_iff.mp h
    cases he
    exact .inr ⟨a,cp,n,q,rfl,rfl,hn,rfl⟩
  | none =>
    rw [contextChange_forgotten hl] at h
    obtain ⟨r',hr,he⟩ := Option.map_eq_some_iff.mp h
    cases he
    exact .inl ⟨rfl,hr⟩

namespace RunStep

theorem contexts_some (h : RunStep cfg s t i p c) (hr : t.contexts r = some context) :
    s.contexts r = some context ∨
      ∃ a cp n q, p = .startClose a r cp ∧ c = .waiting q ∧ a.child = some n ∧ context = n.context := by
  rw [h.contexts] at hr
  cases hc : contextChange p c with
  | none => exact .inl (by simpa [hc,assign] using hr)
  | some entry =>
    obtain ⟨r',change⟩ := entry
    by_cases he : r = r'
    · subst he
      obtain rfl : change = some context := by simpa [hc,assign] using hr
      rcases contextChange_cases hc with ⟨hnone,-⟩ | ⟨a,cp,n,q,hp,hq,hn,hctx⟩
      · cases hnone
      · cases hctx
        exact .inr ⟨a,cp,n,q,hp,hq,hn,rfl⟩
    · exact .inl (by simpa [hc,assign,he] using hr)

/-- A run whose task goes on keeps its context. -/
theorem contexts_none (hw : WellFormed s) (h : RunStep cfg s t i p c) (hi : i ≠ .run r) (hr : t.contexts r = none) :
    s.contexts r = none := by
  rw [h.contexts] at hr
  cases hc : contextChange p c with
  | none => simpa [hc,assign] using hr
  | some entry =>
    obtain ⟨r',change⟩ := entry
    by_cases he : r = r'
    · subst he
      rcases contextChange_cases hc with ⟨-,hf⟩ | ⟨a,cp,n,q,-,-,-,rfl⟩
      · exact absurd (forgotten_own hw h hf).1 hi
      · simp [hc,assign] at hr
    · simpa [hc,assign,he] using hr

theorem delegates_spawned (hd : Delegated cfg s) (h : RunStep cfg s t i p c)
    (hl : (spawned p c).lookup j = some q) : q.Delegates cfg t.store t.contexts := by
  have hs := hd.wellFormed.sound
  rcases lookup_spawned hl with ⟨a,r,cp,q',rfl,rfl,rfl,rfl⟩ | ⟨r,T,tasks,x,rfl,hx,rfl,rfl⟩
  · intro hnone
    have hpoint := hd.points i _ h.point
    have hrow := (hd.wellFormed.starting i _ r h.point rfl).2
    have hchild : a.child = none := by
      rw [h.contexts] at hnone
      cases hn : a.child with
      | none => rfl
      | some n => simp [contextChange,hn,assign] at hnone
    exact h.moved.commit.isRoot hs hrow (hpoint.2 hchild)
  · have hteam := h.moved.delegates hd h.point
    exact hteam

theorem bounded (hd : Delegated cfg s) (hp : s.point? i = some p) (h : Moved cfg s i p c store) :
    store.Bounded cfg := by
  have hs := hd.wellFormed.sound
  rcases h.commitAt with rfl | ⟨hm,hc⟩
  · exact hd.bounded
  · cases hc with
    | start a _ r hrun =>
      obtain ⟨agent,hstarted⟩ := startTransaction_started hrun
      refine hd.bounded.started hs (Started.commit hrun) hstarted fun l hl => ?_
      obtain ⟨n,hn,rfl⟩ := Option.map_eq_some_iff.mp hl
      have hcall := hd.points i _ hp n hn
      exact ⟨n.context,hcall.context,rfl,hcall.depth,hcall.agentId ▸ hcall.ancestry⟩
    | mark r run now =>
      refine hd.bounded.same hs (.mark r now) (by simp) fun q hq => ?_
      rw [markRunningTransaction_runs] at hq
      split at hq
      next he => simpa [he] using hq
      next => exact hq
    | finish r outcome k now =>
      refine hd.bounded.same hs (.finish r outcome now) (by simp) fun q hq => ?_
      rw [finishTransaction_runs] at hq
      split at hq
      next he => simpa [he] using hq
      next => exact hq
    | update a graph => exact hd.bounded.same hs (.update a graph) rfl fun _ hq => hq

theorem delegated (hd : Delegated cfg s) (h : RunStep cfg s t i p c) : Delegated cfg t := by
  have hw := hd.wellFormed
  have hs := hw.sound
  have hcommit := h.moved.commit
  refine ⟨h.wellFormed hw,h.carriesRow hw hd.carries,bounded hd h.point h.moved,fun r context hr => ?_,
    fun j q hq => ?_⟩
  · rcases h.contexts_some hr with hold | ⟨a,cp,n,q,rfl,rfl,hn,rfl⟩
    · exact hcommit.contextOf hs (hd.contexts r context hold)
    · exact hcommit.contextOf hs ((hd.points i _ h.point).1 n hn)
  · rcases h.back hw (point?_eq_some.mp hq) with ⟨rfl,rfl⟩ | ⟨hj,hold⟩ | ⟨_,q',hq',hl⟩
    · rw [h.contexts]
      exact h.moved.delegates hd h.point
    · have hp := point?_eq_some.mpr hold
      refine (hd.points j q hp).commit hs hcommit (fun r hr => (hw.starting j q r hp hr).2) fun r hr => ?_
      have hown : j = .run r := by
        refine TaskId.eq_run ((hw.owner j q hp).symm.trans ?_)
        cases q <;> cases hr <;> rfl
      subst hown
      exact ⟨hw.run r (WellFormed.exists_of_point hp),h.contexts_none hw hj.symm⟩
    · cases hq'
      exact h.delegates_spawned hd hl

end RunStep

theorem step_delegated (hd : Delegated cfg s) (h : step cfg l s = some t) : Delegated cfg t := by
  cases step_cases h with
  | run i ch now p c t h => exact h.delegated hd
  | cancel k =>
    have hp := point?_congr (requestCancels_ctl? s (s.cancelTargets (.call k)))
    refine ⟨hd.wellFormed.cancel _,?_,hd.bounded,hd.contexts,?_⟩
    · unfold CarriesRow
      rw [hp]
      exact hd.carries
    · rw [hp]
      exact hd.points
  | call k =>
    refine ⟨hd.wellFormed.accept k,CarriesRow.accept hd.carries k,hd.bounded,hd.contexts,fun j p hp => ?_⟩
    rcases accept_point? hp with ⟨rfl,rfl⟩ | hp
    · cases k <;> first | exact trivial | (rintro n ⟨⟩)
    · exact hd.points j p hp

theorem initial_delegated (agents : AgentId → Option AgentRecord) : Delegated cfg (initial agents) where
  wellFormed := initial_wellFormed agents
  carries := by simp [CarriesRow,initial,point?]
  bounded := ⟨by simp [initial],by simp [initial],by simp [initial]⟩
  contexts := by simp [initial]
  points := by simp [initial,point?]

end AgentGraph.Manager
