import AgentGraph.Manager.Delegation

/-! # The descendants of a run

A run invokes its runtime once, with one graph, and delegates only nodes of that
graph. With the bound on the depth this bounds the number of its descendants in
every reachable state.
-/
set_option autoImplicit false
namespace AgentGraph.Manager
open Sys Transition Descent Store

variable {cfg : Config} {s t : Sys} {l : Label} {i j : TaskId} {p q : Point} {c : Ctl} {store : Store} {r : RunId}
variable {ids : RunId → List String}

/-- The nodes a task may still delegate, each with the run that would be the parent. -/
def Point.names : Point → List (RunId × String)
  | .nodeBegin T node => [(T.execution.runId,node.id)]
  | .readyWait _ T _ => T.pending.map fun node => (T.execution.runId,node.id)
  | .nodeAcquire n => [(n.parent,n.node.id)]
  | .startLock a | .startWrite a => a.child.toList.map fun n => (n.parent,n.node.id)
  | _ => []

/-- The task of the run has been created and is past the call of its runtime. -/
def Sys.Invoked (s : Sys) (r : RunId) : Prop :=
  ∃ c, s.ctl? (.run r) = some c ∧ ∀ p, c = .waiting p → p.beforeInvoke? = none

/-- Run `x.1` has been invoked with a graph that has the node `x.2`. -/
def Sys.Listed (s : Sys) (ids : RunId → List String) (x : RunId × String) : Prop :=
  s.Invoked x.1 ∧ x.2 ∈ ids x.1

/-- `ids` lists the nodes of the graph each run has been invoked with. -/
structure Named (cfg : Config) (ids : RunId → List String) (s : Sys) : Prop where
  length : ∀ r, (ids r).length ≤ cfg.maxWorkers
  rows : ∀ d ∈ s.store.delegations, s.Listed ids (d.parentRunId,d.nodeId)
  points : ∀ i p, s.point? i = some p → ∀ x ∈ p.names, s.Listed ids x

/-! ## One step -/

theorem Point.beforeInvoke_apart (h : q.beforeInvoke? = some r) : q.continues = false ∧ q.runs = false := by
  cases q <;> first | exact ⟨rfl,rfl⟩ | cases h

theorem Moved.beforeInvoke (h : Moved cfg s i p (.waiting q) store) (hq : q.beforeInvoke? = some r) :
    p.beforeInvoke? = some r := by
  cases h with
  | delivered hm hd hs => cases hd <;> cases hq
  | resumed hm hn =>
    cases hn
    case continued h => exact Bool.noConfusion ((Point.beforeInvoke_apart hq).1.symm.trans h.continues)
    case invoked h => exact Bool.noConfusion ((Point.beforeInvoke_apart hq).2.symm.trans h.runs)
    case roundDone h => exact Bool.noConfusion ((Point.beforeInvoke_apart hq).2.symm.trans h.runs)
    all_goals first | exact hq | cases hq

/-- A run is invoked once. -/
theorem RunStep.invoked (hw : WellFormed s) (h : RunStep cfg s t i p c) (hr : s.Invoked r) : t.Invoked r := by
  obtain ⟨c',hc',hbefore⟩ := hr
  by_cases hi : i = .run r
  · subst hi
    obtain rfl : c' = .waiting p := Option.some.inj (hc'.symm.trans (point?_eq_some.mp h.point))
    refine ⟨c,h.mover hw,?_⟩
    rintro q rfl
    cases hq : q.beforeInvoke? with
    | none => rfl
    | some r' =>
      have hp := h.moved.beforeInvoke hq
      rw [hbefore p rfl] at hp
      cases hp
  · have hs : s.tasks (.run r) ≠ none := fun hn => by
      rw [ctl?_eq_none.mpr hn] at hc'
      cases hc'
    exact ⟨c',(h.stays hw (Ne.symm hi) hs).trans hc',hbefore⟩

/-- The step in which run `r` invokes its team runtime and the first round begins. -/
structure Invocation (cfg : Config) (p : Point) (c : Ctl) (r : RunId) (T : TeamState)
    (tasks : List (TeamNode × Nat)) : Prop where
  point : p.beforeInvoke? = some r
  next : c = .waiting (.readyWait r T tasks)
  run : T.execution.runId = r
  length : T.pending.length ≤ cfg.maxWorkers

/-- A team execution delegates its pending nodes or is over. -/
theorem GraphNext.names {T : TeamState} (h : GraphNext cfg s r T q) :
    q.names = [] ∨ ∃ tasks, q = .readyWait r T tasks := by
  cases h with
  | round hp hr => exact .inr ⟨_,rfl⟩
  | synthesize content hp h => exact .inl rfl
  | keyError hp h => exact .inl rfl
  | stuck hp hr => exact .inl rfl

/-- The nodes still to delegate are passed on, or those of the graph just parsed. -/
theorem Moved.names (h : Moved cfg s i p (.waiting q) store) :
    (∀ x ∈ q.names, x ∈ p.names) ∨ ∃ r T tasks, Invocation cfg p (.waiting q) r T tasks := by
  have hnil : q.names = [] → ∀ x ∈ q.names, x ∈ p.names := by
    intro he x hx
    rw [he] at hx
    cases hx
  cases h with
  | delivered hm hd hs => cases hd <;> exact .inl (hnil rfl)
  | resumed hm hn =>
    cases hn
    case continued h =>
      refine .inl (hnil ?_)
      have hc := h.continues
      cases q <;> first | rfl | cases hc
    case startLock a h => exact .inl fun x hx => hx
    case nodeBegin T node text h => exact .inl fun x hx => hx
    case nodeAcquire n _ _ _ => exact .inl fun x hx => hx
    case invoked r run agent h hq =>
      cases hq with
      | call => exact .inl (hnil rfl)
      | refused e he => exact .inl (hnil rfl)
      | team graph _ hv hg hdepth hq =>
        rcases hq.names with hq | ⟨tasks,rfl⟩
        · exact .inl (hnil hq)
        · exact .inr ⟨r,_,tasks,rfl,rfl,rfl,(parseTeamGraph_valid hg).2⟩
    case roundDone r T tasks hall hf hq =>
      rcases hq.names with hq | ⟨tasks,rfl⟩
      · exact .inl (hnil hq)
      · refine .inl fun x hx => ?_
        obtain ⟨node,hnode,rfl⟩ := List.mem_map.mp hx
        exact List.mem_map.mpr ⟨node,(List.mem_filter.mp hnode).1,rfl⟩
    all_goals exact .inl (hnil rfl)

/-- A node task is created for a node that the round has still to delegate. -/
theorem RunStep.spawned_names (h : RunStep cfg s t i p c) (hl : (spawned p c).lookup j = some q) {x : RunId × String}
    (hx : x ∈ q.names) : ∃ q', c = .waiting q' ∧ x ∈ q'.names := by
  rcases lookup_spawned hl with ⟨a,r,cp,q',rfl,rfl,rfl,rfl⟩ | ⟨r,T,tasks,y,rfl,hy,rfl,rfl⟩
  · cases hx
  · refine ⟨_,rfl,?_⟩
    obtain rfl := List.mem_singleton.mp hx
    have hready : y.1 ∈ T.ready := by
      rw [h.moved.readyWait] at hy
      exact List.fst_mem_of_mem_zipIdx hy
    exact List.mem_map.mpr ⟨y.1,(List.mem_filter.mp hready).1,rfl⟩

/-- A new row is that of a node its task was to delegate. -/
theorem Moved.rows (h : Moved cfg s i p c store) {d : DelegationRecord} (hd : d ∈ store.delegations) :
    d ∈ s.store.delegations ∨ (d.parentRunId,d.nodeId) ∈ p.names := by
  rcases h.commitAt with rfl | ⟨hm,hc⟩
  · exact .inl hd
  · cases hc with
    | mark r run now => exact .inl (by simpa using hd)
    | finish r outcome k now => exact .inl (by simpa using hd)
    | update a graph => exact .inl hd
    | start a _ r hrun =>
      obtain ⟨agent,hstarted⟩ := startTransaction_started hrun
      rw [hstarted.delegations] at hd
      rcases List.mem_append.mp hd with hd | hd
      · exact .inl hd
      · cases hn : a.child with
        | none => simp [StartCall.link,hn] at hd
        | some n =>
          obtain rfl : d = _ := by simpa [StartCall.link,hn] using hd
          exact .inr (by simp [Point.names,hn])

/-- When a run is invoked, the nodes of its graph are listed; nothing was listed for it. -/
theorem RunStep.named (hw : WellFormed s) (hn : Named cfg ids s) (h : RunStep cfg s t i p c) :
    ∃ ids', Named cfg ids' t := by
  have hkeep : ∀ ids' : RunId → List String, (∀ r, (ids' r).length ≤ cfg.maxWorkers) →
      (∀ x, s.Listed ids x → t.Listed ids' x) →
      (∀ q, c = .waiting q → ∀ x ∈ q.names, t.Listed ids' x) → Named cfg ids' t := by
    intro ids' hlen hold hnew
    refine ⟨hlen,fun d hd => ?_,fun j q hq x hx => ?_⟩
    · rcases h.moved.rows hd with hd | hd
      · exact hold _ (hn.rows d hd)
      · exact hold _ (hn.points i p h.point _ hd)
    · rcases h.back hw (point?_eq_some.mp hq) with ⟨rfl,rfl⟩ | ⟨-,hs⟩ | ⟨-,q',hq',hl⟩
      · exact hnew q rfl x hx
      · exact hold x (hn.points j q (point?_eq_some.mpr hs) x hx)
      · cases hq'
        obtain ⟨q'',hc,hx⟩ := h.spawned_names hl hx
        exact hnew q'' hc x hx
  by_cases hinv : ∃ r T tasks, Invocation cfg p c r T tasks
  · obtain ⟨r,T,tasks,hinv⟩ := hinv
    have hi : i = .run r := by
      refine TaskId.eq_run ((hw.owner i p h.point).symm.trans ?_)
      have := hinv.point
      cases p <;> cases this <;> rfl
    have hnot : ¬ s.Invoked r := by
      rintro ⟨c',hc',hbefore⟩
      rw [← hi, point?_eq_some.mp h.point] at hc'
      have hnone := hbefore p (Option.some.inj hc').symm
      rw [hinv.point] at hnone
      cases hnone
    refine ⟨Function.update ids r (T.pending.map TeamNode.id),hkeep _ (fun q => ?_) (fun x hx => ?_) fun q hq x hx => ?_⟩
    · by_cases hq : q = r
      · subst hq
        simpa using hinv.length
      · simpa [hq] using hn.length q
    · have hne : x.1 ≠ r := fun he => hnot (he ▸ hx.1)
      exact ⟨h.invoked hw hx.1,by simpa [hne] using hx.2⟩
    · obtain rfl : q = .readyWait r T tasks := by simpa using hq.symm.trans hinv.next
      obtain ⟨node,hnode,rfl⟩ := List.mem_map.mp hx
      have hr : t.Invoked r := by
        refine ⟨c,hi ▸ h.mover hw,?_⟩
        rintro q' rfl
        cases hq
        rfl
      refine ⟨hinv.run ▸ hr,?_⟩
      rw [hinv.run, Function.update_self]
      exact List.mem_map_of_mem hnode
  · refine ⟨ids,hkeep ids hn.length (fun x hx => ⟨h.invoked hw hx.1,hx.2⟩) ?_⟩
    rintro q rfl x hx
    rcases h.moved.names with hold | hnew
    · have hx' := hn.points i p h.point x (hold x hx)
      exact ⟨h.invoked hw hx'.1,hx'.2⟩
    · exact absurd hnew hinv

theorem step_named (hw : WellFormed s) (hn : Named cfg ids s) (h : step cfg l s = some t) :
    ∃ ids', Named cfg ids' t := by
  cases step_cases h with
  | run i ch now p c t h => exact h.named hw hn
  | cancel k =>
    have hc := requestCancels_ctl? s (s.cancelTargets (.call k))
    have hlisted : ∀ x, s.Listed ids x → (s.requestCancels (s.cancelTargets (.call k))).Listed ids x := by
      rintro x ⟨hi,hx⟩
      refine ⟨?_,hx⟩
      unfold Sys.Invoked
      rw [hc]
      exact hi
    refine ⟨ids,hn.length,fun d hd => hlisted _ (hn.rows d hd),?_⟩
    rw [point?_congr hc]
    exact fun i p hp x hx => hlisted x (hn.points i p hp x hx)
  | call k =>
    have hlisted : ∀ x, s.Listed ids x → (s.accept k).Listed ids x := by
      rintro x ⟨⟨c,hc,hbefore⟩,hx⟩
      exact ⟨⟨c,by simpa [accept_ctl?] using hc,hbefore⟩,hx⟩
    refine ⟨ids,hn.length,fun d hd => hlisted _ (hn.rows d hd),fun j p hp x hx => ?_⟩
    rcases accept_point? hp with ⟨rfl,rfl⟩ | hp
    · cases k <;> cases hx
    · exact hlisted x (hn.points j p hp x hx)

/-! ## Bounded delegation -/

/-- What the delegation rows of a store say. A chain goes from parent to child. -/
structure BoundedDelegation (cfg : Config) (store : Store) : Prop where
  agents : ∀ chain : List RunId, (chain.IsChain fun p c => c ∈ store.childrenOf p) → (chain.map store.agent?).Nodup
  depth : ∀ d ∈ store.delegations, d.depth ≤ cfg.maxDepth
  rooted : ∀ d ∈ store.delegations,
    ∃ root, IsRoot store.childrenOf root ∧ Below store.childrenOf root d.depth d.childRunId
  distance : ∀ d ∈ store.delegations, ∀ root k, IsRoot store.childrenOf root →
    Below store.childrenOf root k d.childRunId → k = d.depth
  descendants : ∀ r, ∃ descendants : List RunId,
    descendants.length ≤ ∑ k ∈ Finset.range cfg.maxDepth, cfg.maxWorkers ^ (k + 1) ∧
    ∀ k c, Below store.childrenOf r (k + 1) c → c ∈ descendants

/-- Whatever the graphs say and however they are edited, in every reachable state no
agent delegates to itself along any chain, the recorded depth of a delegation is its
distance from the root and within the limit, and a run has boundedly many descendants. -/
theorem delegation_bounded {agents : AgentId → Option AgentRecord} (h : Run cfg anyStep (initial agents) s) :
    BoundedDelegation cfg s.store := by
  have hinv : Delegated cfg s ∧ ∃ ids, Named cfg ids s := by
    refine Reaches.invariant (I := fun s => Delegated cfg s ∧ ∃ ids, Named cfg ids s) ?_ h ?_
    · rintro l s t ⟨hd,ids,hn⟩ - he
      exact ⟨step_delegated hd he,step_named hd.wellFormed hn he⟩
    · exact ⟨initial_delegated agents,fun _ => [],by simp,by simp [initial],by simp [initial,point?]⟩
  obtain ⟨hd,ids,hn⟩ := hinv
  have hs := hd.wellFormed.sound
  have hb := hd.bounded
  have hchildren : ∀ p, (s.store.childrenOf p).length ≤ cfg.maxWorkers := by
    intro p
    have hids : ∀ d ∈ s.store.delegations, d.parentRunId = p → d.nodeId ∈ ids p := by
      rintro d hd rfl
      exact (hn.rows d hd).2
    exact (hb.length_childrenOf_le hids).trans (hn.length p)
  refine ⟨fun chain hchain => hb.chain hs hchain,fun d hmem => (hb.depths d hmem).1,fun d hmem => ?_,
    fun d hmem root k hroot hbelow => ?_,fun r => ?_⟩
  · obtain ⟨-,above,habove,hlen⟩ := hb.depths d hmem
    exact hlen ▸ habove.exists_root
  · obtain ⟨-,above,habove,hlen⟩ := hb.depths d hmem
    exact (hbelow.eq_above hs.singleParent hroot habove).trans hlen.symm
  · exact ⟨Descent.descendants s.store.childrenOf r cfg.maxDepth,length_descendants_le hchildren r cfg.maxDepth,
      fun k c hc => hc.mem_descendants (hb.level_lt hs hc)⟩

/-- A team of one worker; the texts "x" and "team" parse to agents 1 and 4. -/
def pairAgents (a : AgentId) : Option AgentRecord :=
  if a = 4 then
    some ⟨.idle,"model-a",[("version",.int 2),("runtime",.str "team-v1"),
      ("nodes",.arr [.obj [("id",.str "n"),("type",.str "agent-ref"),("label",.str "N"),("agent_id",.str "x")]]),
      ("edges",.arr [])]⟩
  else if a = 1 then some ⟨.idle,"model-a",modelGraph⟩
  else none

/-- The team has just committed the run of its worker. -/
def delegating : Sys :=
  after (step sampleConfig)
    ([.call (.startRun 4 "hello")] ++ resumes (.call 0) 5 ++ resumes (.run 0) 6 ++ resumes (.node 0) 4)
    (initial pairAgents) (by decide)

theorem delegation_bounded_delegating :
    delegating.store.delegations = [⟨0,3,"n",1⟩] ∧ BoundedDelegation sampleConfig delegating.store :=
  ⟨rfl,delegation_bounded (after_reaches anyStep _ (execOk_anyStep _ _))⟩

end AgentGraph.Manager
