import AgentGraph.Manager.Stopping

/-! # The node tasks of a round

The task of a run creates the node tasks of a round and leaves the round when all of
them have ended. Every node task that goes on belongs to one round, that of the run
which is the parent of its child.
-/
set_option autoImplicit false
namespace AgentGraph.Manager
open Sys Transition Store

variable {cfg : Config} {s t : Sys} {l : Label} {i j : TaskId} {p q : Point} {c : Ctl} {store : Store} {r : RunId}
variable {x : NodeCall × RunId} {ch : Choice} {now : Instant}

/-- The parent of the run that a node task is to start or awaits. -/
def Point.parent? : Point → Option RunId
  | .startLock a | .startWrite a => a.child.map NodeCall.parent
  | .nodeBegin T _ => some T.execution.runId
  | .nodeAcquire n => some n.parent
  | p => p.child?.map fun x => x.1.parent

/-- The task of run `q` is in the round that has created node task `k`. -/
def Sys.Hosts (s : Sys) (q : RunId) (k : Nat) : Prop :=
  ∃ p tasks, s.point? (.run q) = some p ∧ p.round? = some tasks ∧ k ∈ tasks.map Prod.snd

/-- A node task that goes on is awaited by the task of its parent. -/
structure Hosted (s : Sys) : Prop where
  rounds : ∀ i r T tasks, s.point? i = some (.readyWait r T tasks) → T.execution.runId = r
  hosted : ∀ k p, s.point? (.node k) = some p → ∃ q, p.parent? = some q ∧ s.Hosts q k

theorem step_resumed (hw : WellFormed s) (h : step cfg (.run i ch now) s = some t) (hr : RunStep cfg s t i p c)
    (hm : s.mustCancel i = false) : ∃ eff, s.resume cfg i p ch now = some eff ∧ eff.next = c := by
  simp only [step] at h
  split at h
  next p' _ hx =>
    rw [Sys.mustCancel, hx] at hm
    cases hm
  next p' _ hx =>
    have hp : s.point? i = some p' := by simp [point?,hx]
    obtain rfl : p' = p := Option.some.inj (hp.symm.trans hr.point)
    obtain ⟨eff,he,rfl⟩ := Option.map_eq_some_iff.mp h
    have hmove := (resume_runStep hp hm he).mover hw
    rw [hr.mover hw] at hmove
    exact ⟨eff,he,(Option.some.inj hmove).symm⟩
  next => cases h

/-- The stop of a child visits the child. -/
theorem root_mem_visits {k : StopCont} (h : (k.root r).child? = some x) : r ∈ k.visits r := by
  cases k with
  | call => cases h
  | child n e => exact List.mem_cons_self
  | loop rest k => exact List.mem_cons_self

/-- The node tasks of a round exist and belong to the run whose round it is. -/
def Sys.Assigned (s : Sys) : Prop :=
  ∀ q p tasks, s.point? (.run q) = some p → p.round? = some tasks → ∀ k ∈ tasks.map Prod.snd,
    s.tasks (.node k) ≠ none ∧ ∀ p', s.point? (.node k) = some p' → p'.parent? = some q

/-! ## The round of the parent -/

theorem Point.parent_of_child (h : p.child? = some x) : p.parent? = some x.1.parent := by
  have hp : p.parent? = p.child?.map fun x => x.1.parent := by cases p <;> first | rfl | cases h
  rw [hp, h]
  rfl

/-- A node task belongs to one parent. -/
theorem Moved.parent (h : Moved cfg s i p (.waiting q) store) (hp : p.parent? = some r) : q.parent? = some r := by
  cases hx : p.child? with
  | some x =>
    rw [Point.parent_of_child hx] at hp
    exact (Point.parent_of_child (h.child hx)).trans hp
  | none =>
    have hmap : p.parent? ≠ p.child?.map fun x => x.1.parent := by rw [hx, hp]; simp
    cases h with
    | delivered hm hd hs =>
      cases hd
      case raised hb hr => cases p <;> cases hb <;> exact absurd rfl hmap
      all_goals exact absurd rfl hmap
    | resumed hm hn =>
      cases hn
      case continued h => cases h <;> exact absurd rfl hmap
      case startLock a h => exact hp
      case startCommit a r' h =>
        obtain ⟨n,hn,rfl⟩ := Option.map_eq_some_iff.mp hp
        simp [Point.parent?,Point.child?,hn]
      case nodeBegin => exact hp
      case nodeAcquire => exact hp
      all_goals exact absurd rfl hmap

/-- A round is left when all its tasks have ended. -/
theorem Moved.round {tasks : List (TeamNode × Nat)} (h : Moved cfg s i p c store) (hp : p.round? = some tasks) :
    s.allDone tasks = true ∨ ∃ q, c = .waiting q ∧ q.round? = some tasks := by
  cases h with
  | delivered hm hd hs =>
    cases hd
    case unwound hn hb => cases p <;> cases hp <;> cases hb
    case raised hb hr => rw [hr] at hp; cases hp
    case readyWait => exact .inr ⟨_,rfl,hp⟩
    case readyGather => exact .inr ⟨_,rfl,hp⟩
    case readyCleanup hd => cases hp; exact .inl hd
    all_goals cases hp
  | resumed hm hn =>
    cases hn
    case continued h => cases h <;> cases hp
    case startRaised h => cases p <;> cases h <;> cases hp
    case roundDone hd hf hq => cases hp; exact .inl hd
    case roundFailed => exact .inr ⟨_,rfl,hp⟩
    case gatherCancelled => exact .inr ⟨_,rfl,hp⟩
    case gatherFailed hd he => cases hp; exact .inl hd
    case cleanup hd => cases hp; exact .inl hd
    all_goals cases hp

theorem Moved.roundRun {T : TeamState} {tasks : List (TeamNode × Nat)}
    (h : Moved cfg s i p (.waiting (.readyWait r T tasks)) store)
    (hp : ∀ T' tasks', p = .readyWait r T' tasks' → T'.execution.runId = r) : T.execution.runId = r := by
  cases h with
  | delivered hm hd hs => cases hd
  | resumed hm hn =>
    cases hn
    case continued h => exact Bool.noConfusion h.continues
    case invoked hq =>
      cases hq with
      | team graph q hv hg hd h =>
        obtain ⟨rfl,rfl,-⟩ := h.readyWait
        rfl
    case roundDone hd hf hq =>
      obtain ⟨rfl,rfl,-⟩ := hq.readyWait
      have hrun := hp _ _ rfl
      exact hrun

/-- The task of the parent stays in its round while a node task goes on. -/
theorem RunStep.hosts {k : Nat} (hw : WellFormed s) (h : RunStep cfg s t i p c) (hq : s.Hosts r k)
    (hk : (s.point? (.node k)).isSome) : t.Hosts r k := by
  obtain ⟨p',tasks,hp',hround,hmem⟩ := hq
  by_cases hi : i = .run r
  · subst hi
    obtain rfl : p = p' := Option.some.inj (h.point.symm.trans hp')
    rcases h.moved.round hround with hall | ⟨q,rfl,hround⟩
    · obtain ⟨x,hx,rfl⟩ := List.mem_map.mp hmem
      have hdone := List.all_eq_true.mp hall x hx
      rw [not_waiting_of_done hdone] at hk
      cases hk
    · exact ⟨q,tasks,point?_eq_some.mpr (h.mover hw),hround,hmem⟩
  · have hstay := h.stays hw (Ne.symm hi) (WellFormed.exists_of_point hp')
    exact ⟨p',tasks,point?_eq_some.mpr (hstay.trans (point?_eq_some.mp hp')),hround,hmem⟩

theorem RunStep.hosted (hw : WellFormed s) (hh : Hosted s) (h : RunStep cfg s t i p c) : Hosted t where
  rounds := by
    intro j r T tasks hq
    rcases h.back hw (point?_eq_some.mp hq) with ⟨rfl,rfl⟩ | ⟨_,hs⟩ | ⟨_,q',hq',hl⟩
    · exact h.moved.roundRun fun T' tasks' hp => hh.rounds _ r T' tasks' (hp ▸ h.point)
    · exact hh.rounds j r T tasks (point?_eq_some.mpr hs)
    · cases hq'
      rcases lookup_spawned hl with ⟨_,_,_,_,_,_,_,he⟩ | ⟨_,_,_,_,_,_,_,he⟩ <;> cases he
  hosted := by
    intro k q hq
    rcases h.back hw (point?_eq_some.mp hq) with ⟨rfl,rfl⟩ | ⟨_,hs⟩ | ⟨_,q',hq',hl⟩
    · obtain ⟨r,hr,hhost⟩ := hh.hosted k p h.point
      exact ⟨r,h.moved.parent hr,h.hosts hw hhost (by simp [h.point])⟩
    · have hp := point?_eq_some.mpr hs
      obtain ⟨r,hr,hhost⟩ := hh.hosted k q hp
      exact ⟨r,hr,h.hosts hw hhost (by simp [hp])⟩
    · cases hq'
      rcases lookup_spawned hl with ⟨_,_,_,_,_,_,he,_⟩ | ⟨r,T,tasks,x,rfl,hx,he,rfl⟩ <;> cases he
      have hi : i = .run r := TaskId.eq_run ((hw.owner i p h.point).symm.trans h.moved.owner.symm)
      have hround : T.execution.runId = r :=
        h.moved.roundRun fun T' tasks' hp => hh.rounds _ r T' tasks' (hp ▸ h.point)
      refine ⟨r,by rw [← hround]; rfl,_,tasks,point?_eq_some.mpr (hi ▸ h.mover hw),rfl,?_⟩
      exact List.mem_map_of_mem hx

/-- A request gets a task of its own. -/
theorem accept_run (s : Sys) (k : Call) (r : RunId) : (s.accept k).point? (.run r) = s.point? (.run r) := by
  unfold point?
  rw [accept_tasks, if_neg (by simp)]

theorem accept_node (s : Sys) (k : Call) (n : Nat) : (s.accept k).point? (.node n) = s.point? (.node n) := by
  unfold point?
  rw [accept_tasks, if_neg (by simp)]

theorem step_hosted (hw : WellFormed s) (hh : Hosted s) (h : step cfg l s = some t) : Hosted t := by
  cases step_cases h with
  | run i ch now p c t h => exact h.hosted hw hh
  | cancel k =>
    have hp := point?_congr (requestCancels_ctl? s (s.cancelTargets (.call k)))
    refine ⟨?_,?_⟩
    · rw [hp]; exact hh.rounds
    · unfold Sys.Hosts
      rw [hp]
      exact hh.hosted
  | call k =>
    refine ⟨fun i r T tasks hp => ?_,fun n p hp => ?_⟩
    · rcases accept_point? hp with ⟨-,hb⟩ | hp
      · cases k <;> cases hb
      · exact hh.rounds i r T tasks hp
    · rcases accept_point? hp with ⟨he,-⟩ | hp
      · cases he
      · obtain ⟨q,hq,p',tasks,hp',hround,hmem⟩ := hh.hosted n p hp
        exact ⟨q,hq,p',tasks,by rw [accept_run]; exact hp',hround,hmem⟩

theorem initial_hosted (agents : AgentId → Option AgentRecord) : Hosted (initial agents) :=
  ⟨by simp [initial,point?],by simp [initial,point?]⟩

/-! ## The tasks of one round -/

/-- A round that is not new has been in progress before. -/
theorem Moved.roundBack {tasks : List (TeamNode × Nat)} (h : Moved cfg s i p (.waiting q) store)
    (hq : q.round? = some tasks) : p.round? = some tasks ∨ ∃ r T, q = .readyWait r T tasks := by
  cases h with
  | delivered hm hd hs =>
    cases hd
    case readyWait => exact .inl hq
    case readyGather => exact .inl hq
    all_goals cases hq
  | resumed hm hn =>
    cases hn
    case continued h =>
      have hc := h.continues
      cases q <;> first | exact Bool.noConfusion hc | cases hq
    case invoked h =>
      have hr := h.runs
      cases q <;> first | exact Bool.noConfusion hr | cases hq
      exact .inr ⟨_,_,rfl⟩
    case roundDone h =>
      have hr := h.runs
      cases q <;> first | exact Bool.noConfusion hr | cases hq
      exact .inr ⟨_,_,rfl⟩
    case roundFailed => exact .inl hq
    case gatherCancelled => exact .inl hq
    all_goals cases hq

/-- The node tasks of a new round have just been created. -/
theorem RunStep.newRound {T : TeamState} {tasks : List (TeamNode × Nat)} {k : Nat}
    (h : RunStep cfg s t i p (.waiting (.readyWait r T tasks))) (hk : k ∈ tasks.map Prod.snd) :
    ∃ node, t.tasks (.node k) = some (.new (.nodeBegin T node)) := by
  obtain ⟨y,hy,rfl⟩ := List.mem_map.mp hk
  have hmem : (TaskId.node y.2,Point.nodeBegin T y.1) ∈ spawned p (.waiting (.readyWait r T tasks)) :=
    List.mem_append_right _ (List.mem_map.mpr ⟨y,hy,rfl⟩)
  cases hl : (spawned p (.waiting (.readyWait r T tasks))).lookup (.node y.2) with
  | none => exact absurd hmem (fun hm => by simpa using List.lookup_eq_none_iff.mp hl _ hm)
  | some q =>
    rcases lookup_spawned hl with ⟨_,_,_,_,_,_,he,_⟩ | ⟨_,_,_,z,he,-,-,rfl⟩
    · cases he
    · cases he
      exact ⟨z.1,h.fresh _ _ hl⟩

theorem point?_new (h : s.tasks j = some (.new q)) : s.point? j = some q := by simp [point?,h,Task.new]

theorem RunStep.assigned (hw : WellFormed s) (hh : Hosted s) (ha : s.Assigned) (h : RunStep cfg s t i p c) :
    t.Assigned := by
  intro r q tasks hq hround k hk
  have hold : ∀ p', s.point? (.run r) = some p' → p'.round? = some tasks →
      t.tasks (.node k) ≠ none ∧ ∀ q, t.point? (.node k) = some q → q.parent? = some r := by
    intro p' hp' hr'
    obtain ⟨hex,hpar⟩ := ha r p' tasks hp' hr' k hk
    refine ⟨h.tasks_mono hw hex,fun q hq => ?_⟩
    rcases h.back hw (point?_eq_some.mp hq) with ⟨rfl,rfl⟩ | ⟨_,hs⟩ | ⟨hn,_⟩
    · exact h.moved.parent (hpar p h.point)
    · exact hpar q (point?_eq_some.mpr hs)
    · exact absurd hn hex
  rcases h.back hw (point?_eq_some.mp hq) with ⟨rfl,rfl⟩ | ⟨_,hs⟩ | ⟨_,q',hq',hl⟩
  · rcases h.moved.roundBack hround with hp | ⟨r',T,rfl⟩
    · exact hold p h.point hp
    · obtain ⟨node,hnode⟩ := h.newRound hk
      refine ⟨by simp [hnode],fun q' hq' => ?_⟩
      rw [point?_new hnode] at hq'
      cases hq'
      have hrun := (h.hosted hw hh).rounds _ r' T tasks hq
      have ho : TaskId.owner (.run r) = .run r' := ((h.wellFormed hw).owner _ _ hq).symm
      cases ho
      exact congrArg some hrun
  · exact hold q (point?_eq_some.mpr hs) hround
  · cases hq'
    rcases lookup_spawned hl with ⟨_,_,_,_,_,_,_,rfl⟩ | ⟨_,_,_,_,_,_,_,rfl⟩ <;> cases hround

/-- A node task is cancelled by the run of its round, or through a gather of that. -/
theorem RunStep.cancelledNode {k : Nat} (hw : WellFormed s) (h : RunStep cfg s t i p c)
    (hk : .node k ∈ cancelled s c) : ∃ q p' tasks, s.point? (.run q) = some p' ∧ p'.round? = some tasks ∧
      k ∈ tasks.map Prod.snd ∧ (i = .run q ∨ ∀ r T tasks, p' ≠ .readyWait r T tasks) := by
  have hlive : ∀ tasks, .node k ∈ s.liveNodes tasks → k ∈ tasks.map Prod.snd := by
    intro tasks hmem
    obtain ⟨y,hy,he⟩ := List.mem_map.mp (List.mem_filter.mp hmem).1
    cases he
    exact List.mem_map_of_mem hy
  have hround : ∀ q tasks, c = .waiting q → q.round? = some tasks → .node k ∈ s.liveNodes tasks →
      (∀ r T, q ≠ .readyWait r T tasks) → ∃ q p' tasks, s.point? (.run q) = some p' ∧ p'.round? = some tasks ∧
        k ∈ tasks.map Prod.snd ∧ (i = .run q ∨ ∀ r T tasks, p' ≠ .readyWait r T tasks) := by
    rintro q tasks rfl hr hmem hne
    rcases h.moved.roundBack hr with hp | ⟨r,T,rfl⟩
    · have ho : ∃ r, i = .run r := by
        have := hw.owner i p h.point
        cases p <;> cases hp <;> exact ⟨_,TaskId.eq_run this.symm⟩
      obtain ⟨r,rfl⟩ := ho
      exact ⟨r,p,tasks,h.point,hp,hlive tasks hmem,.inl rfl⟩
    · exact absurd rfl (hne r T)
  have htarget : ∀ q, .node k ∈ s.cancelTargets (.run q) → ∃ q p' tasks, s.point? (.run q) = some p' ∧
      p'.round? = some tasks ∧ k ∈ tasks.map Prod.snd ∧ (i = .run q ∨ ∀ r T tasks, p' ≠ .readyWait r T tasks) := by
    intro q hmem
    rcases List.mem_cons.mp hmem with he | hmem
    · cases he
    unfold gathered at hmem
    split at hmem
    next r tasks e hp =>
      obtain ⟨y,hy,he⟩ := List.mem_map.mp hmem
      cases he
      exact ⟨q,_,tasks,hp,rfl,List.mem_map_of_mem hy,.inr (by simp)⟩
    next r tasks hp =>
      obtain ⟨y,hy,he⟩ := List.mem_map.mp hmem
      cases he
      exact ⟨q,_,tasks,hp,rfl,List.mem_map_of_mem hy,.inr (by simp)⟩
    next => cases hmem
  cases c with
  | done result => cases hk
  | waiting q =>
    cases q
    case stopWait r k => exact htarget r hk
    case shutdownWait runs =>
      obtain ⟨r,-,hmem⟩ := List.mem_flatMap.mp hk
      exact htarget r hmem
    case readyGather r tasks e => exact hround _ tasks rfl rfl hk (by simp)
    case readyCleanup r tasks => exact hround _ tasks rfl rfl hk (by simp)
    all_goals cases hk

theorem step_assigned (hw : WellFormed s) (hh : Hosted s) (ha : s.Assigned) (h : step cfg l s = some t) :
    t.Assigned := by
  cases step_cases h with
  | run i ch now p c t h => exact h.assigned hw hh ha
  | cancel k =>
    have hc := requestCancels_ctl? s (s.cancelTargets (.call k))
    have hn : ∀ j, (s.requestCancels (s.cancelTargets (.call k))).tasks j = none ↔ s.tasks j = none := fun j => by
      rw [← ctl?_eq_none, ← ctl?_eq_none, hc]
    unfold Sys.Assigned
    rw [point?_congr hc]
    intro q p tasks hp hround k' hk
    obtain ⟨hex,hpar⟩ := ha q p tasks hp hround k' hk
    exact ⟨fun hnone => hex ((hn _).mp hnone),hpar⟩
  | call k =>
    intro q p tasks hp hround k' hk
    rw [accept_run] at hp
    rw [accept_node, accept_tasks, if_neg (by simp)]
    exact ha q p tasks hp hround k' hk

theorem initial_assigned (agents : AgentId → Option AgentRecord) : (initial agents).Assigned := by
  simp [Sys.Assigned,initial,point?]

end AgentGraph.Manager
