import AgentGraph.Persistence.RunTree
import AgentGraph.Recovery.Consistency

/-! # Run trees of reachable databases

A delegated run is new when its row is committed, and a delete takes the delegations
with the runs at either end. What is left is again a forest, possibly of more trees.
-/
set_option autoImplicit false
namespace AgentGraph.Recovery
open Transition Descent

section Sessions
variable {cfg : Config} {store store' : Store}

/-- Rows are kept as they are or closed, and identifiers are used up. -/
theorem Linked.keep (hl : store.Linked) (hruns : ∀ r, (store'.runs r).isSome = (store.runs r).isSome)
    (hcheckpoints : ∀ cp ∈ store'.checkpoints, cp ∈ store.checkpoints ∨ (store.runs cp.runId).isSome)
    (hdelegations : store'.delegations = store.delegations) (hnext : store.nextId ≤ store'.nextId) : store'.Linked := by
  refine ⟨⟨fun r hr => ?_,fun cp hcp => ?_,fun d hd => ?_,?_⟩,?_⟩
  · have hnone := hruns r
    rw [hl.sound.runs r (hnext.trans hr)] at hnone
    simpa using hnone
  · rw [hruns]
    obtain hold | hsome := hcheckpoints cp hcp
    · exact hl.sound.checkpoints cp hold
    · exact hsome
  · rw [hruns,hruns]
    exact hl.sound.delegations d (hdelegations ▸ hd)
  · rw [hdelegations]
    exact hl.sound.parent
  · rw [hdelegations]
    exact hl.children

theorem Linked.start (hl : store.Linked) {a : AgentId} {inputText : String} {link : Option DelegationLink} {r : RunId}
    {agent : AgentRecord} (started : Started cfg store store' a inputText link r agent) : store'.Linked := by
  refine ⟨started.sound hl.sound,?_⟩
  rw [started.delegations,List.map_append]
  refine hl.children.append ?_ fun c hc hnew => ?_
  · cases link <;> simp
  · -- the child is the new run, and delegated runs exist already
    obtain ⟨d,hd,rfl⟩ := List.mem_map.mp hc
    have hlt := hl.sound.lt (hl.sound.delegations d hd).2.1
    have hfresh := started.fresh
    cases link with
    | none => simp at hnew
    | some l =>
      have hr : d.childRunId = r := by simpa using hnew
      rw [hr,hfresh] at hlt
      exact absurd hlt (Nat.lt_irrefl r)

theorem Linked.delete {db : Database} (hl : db.store.Linked) (a : AgentId) : (deleteAgentRow db a).store.Linked := by
  have hkept : ∀ r, ownedBy db.store a r = false → (deleteAgentRow db a).store.runs r = db.store.runs r := by
    intro r hr
    simp [deleteAgentRow,hr]
  have hsub : ∀ d ∈ (deleteAgentRow db a).store.delegations, d ∈ db.store.delegations ∧
      ownedBy db.store a d.parentRunId = false ∧ ownedBy db.store a d.childRunId = false := by
    intro d hd
    obtain ⟨hd,hgone⟩ := List.mem_filter.mp hd
    exact ⟨hd,by simpa using hgone⟩
  refine ⟨⟨fun r hr => ?_,fun cp hcp => ?_,fun d hd => ?_,fun d hd d' hd' => ?_⟩,?_⟩
  · have hnone : db.store.runs r = none := hl.sound.runs r hr
    simp [deleteAgentRow,hnone]
  · obtain ⟨hcp,hgone⟩ := List.mem_filter.mp hcp
    rw [hkept cp.runId (by simpa using hgone)]
    exact hl.sound.checkpoints cp hcp
  · obtain ⟨hd,hparent,hchild⟩ := hsub d hd
    rw [hkept _ hparent,hkept _ hchild]
    exact hl.sound.delegations d hd
  · exact hl.sound.parent d (hsub d hd).1 d' (hsub d' hd').1
  · exact hl.children.sublist (List.filter_sublist.map _)

/-- A turn of the recovery loop, and one of the manager's own. -/
theorem interruptRows_isSome {r : RunId} {run : RunRecord} {now : Instant} (hrow : store.runs r = some run) (q : RunId) :
    ((interruptRows store r run now).runs q).isSome = (store.runs q).isSome := by
  rw [interruptRows_runs hrow]
  by_cases hq : q = r
  · subst hq
    simp [hrow]
  · rw [Function.update_of_ne hq]

theorem Linked.interrupt (hl : store.Linked) {r : RunId} {run : RunRecord} (now : Instant)
    (hrow : store.runs r = some run) : (interruptRows store r run now).Linked :=
  Linked.keep hl (interruptRows_isSome hrow) (fun _ hcp => .inl hcp) rfl le_rfl

theorem Linked.recover {db : Database} (hl : db.store.Linked) {r : RunId} {run : RunRecord} (now : Instant)
    (hrow : db.store.runs r = some run) : (recoverRun cfg now db r run).1.store.Linked := by
  refine Linked.keep hl (fun q => ?_) (fun cp hcp => ?_) rfl (Nat.le_add_right _ 2)
  · rw [recoverRun_runs hrow,← interruptRows_runs hrow]
    exact interruptRows_isSome hrow q
  · obtain hold | hnew := List.mem_append.mp hcp
    · exact .inl hold
    · obtain rfl := List.mem_singleton.mp hnew
      exact .inr (by simp [hrow])

theorem Linked.commit (hl : store.Linked) (h : Commit cfg store store') (hd : store'.delegations = store.delegations) :
    store'.Linked := ⟨h.sound hl.sound,hd ▸ hl.children⟩

theorem Session.linked {s t : Sys} (hl : s.db.store.Linked) (h : Session cfg s t) : t.db.store.Linked := by
  cases h with
  | agentCreated modelRef graph =>
    exact Linked.keep hl (fun _ => rfl) (fun _ hcp => .inl hcp) rfl (Nat.le_succ _)
  | graphUpdated a graph =>
    have hcommit : Commit cfg s.db.store (updateGraphTransaction s.db.store a graph) := .update a graph
    exact Linked.commit hl hcommit rfl
  | agentDeleted a idle => exact Linked.delete hl a
  | runStarted a inputText link spawned store r agent started => exact Linked.start hl started
  | runMarked r run now task row active => exact Linked.commit hl (.mark r now) markRunningTransaction_delegations
  | runFinished r run outcome now row active may =>
    exact Linked.commit hl (.finish r outcome now) finishTransaction_delegations
  | actionRecorded entry row fresh intent =>
    exact Linked.keep hl (fun _ => rfl) (fun _ hcp => .inl hcp) rfl (Nat.le_succ _)
  | actionUpdated entry status now => exact hl
  | recovered clock stale result recovery lists ok =>
    obtain ⟨hnodup,hactive,-⟩ := listsStale_iff lists
    exact recoverLoop_induct (P := fun db => db.store.Linked) (fun db r run hdb hrow _ => Linked.recover hdb _ hrow)
      hnodup hactive hl ok
  | raised => exact hl
  | failedStale now stale recovery lists =>
    obtain ⟨hnodup,hactive,-⟩ := listsStale_iff lists
    exact failStaleRuns_induct (P := fun db => db.store.Linked) (fun db r run hdb hrow _ => Linked.interrupt hdb _ hrow)
      hnodup hactive hl
  | restarted => exact hl

theorem Reachable.linked {s : Sys} (h : Reachable cfg s) : s.db.store.Linked := by
  refine h.invariant (I := fun s => s.db.store.Linked) (fun _ _ _ hl _ he => (step_session he).linked hl) ?_
  refine ⟨⟨fun _ _ => rfl,fun cp hcp => ?_,fun d hd => ?_,fun d hd => ?_⟩,List.nodup_nil⟩
  · cases hcp
  · cases hd
  · cases hd

end Sessions

/-- In every reachable database the tree of an existing run is its component: it holds
the runs connected to it by delegations, each once and with its row, its edges are the
delegations between them, and every run of the component has the same tree. -/
theorem run_tree_is_component (cfg : Config) (s : Sys) (h : Reachable cfg s) (createdAt : RunId → Instant) (r : RunId)
    (hr : (s.db.store.runs r).isSome) (fuel : Nat) (hfuel : s.db.store.nextId < fuel) :
    ∃ tree, (∀ q, Connected s.db.store.childrenOf r q → s.db.store.getRunTree createdAt fuel q = .ok tree) ∧
      (tree.runs.map Prod.fst).Nodup ∧
      (∀ row, row ∈ tree.runs ↔ Connected s.db.store.childrenOf r row.1 ∧ s.db.store.runs row.1 = some row.2) ∧
      (∀ e, e ∈ tree.edges ↔
        ∃ d ∈ s.db.store.delegations, Connected s.db.store.childrenOf r d.childRunId ∧ e = d.edge) ∧
      tree.nodeId = none ∧ tree.depth = 0 ∧ ∀ d ∈ s.db.store.delegations, d.childRunId ≠ tree.runId :=
  Store.getRunTree_ok h.linked createdAt hr hfuel

/-- A run of the first agent delegates to the second. -/
def delegated : Sys :=
  after (step sampleConfig) [.createAgent "auto" [],.createAgent "auto" [],.startRun 0 "hello" none true,
    .startRun 1 "part" (some ⟨2,"first",1⟩) true] Sys.initial (by decide)

theorem run_tree_is_component_delegated :
    ∃ tree, delegated.db.store.getRunTree (fun _ => 0) 7 4 = .ok tree ∧
      delegated.db.store.getRunTree (fun _ => 0) 7 2 = .ok tree ∧ (2,some "first",1,4) ∈ tree.edges := by
  have hlink : (⟨2,4,"first",1⟩ : DelegationRecord) ∈ delegated.db.store.delegations := by decide
  have hchild : 4 ∈ delegated.db.store.childrenOf 2 := Store.mem_childrenOf.mpr ⟨_,hlink,rfl,rfl⟩
  obtain ⟨tree,hsame,-,-,hedges,-⟩ := run_tree_is_component sampleConfig delegated
    (after_reaches _ _ (execOk_anyStep _ _)) (fun _ => 0) 4 (by decide) 7 (by decide)
  exact ⟨tree,hsame 4 (.refl 4),hsame 2 (.symm _ _ (.rel 2 4 hchild)),(hedges _).mpr ⟨_,hlink,.refl 4,rfl⟩⟩

end AgentGraph.Recovery
