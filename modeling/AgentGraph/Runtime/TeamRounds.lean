import AgentGraph.Runtime.TeamState
import AgentGraph.Domain.TeamGraphDag
import AgentGraph.Foundation.Entries

/-! # Rounds of a team execution

Between two rounds a node is pending exactly when it has no output. Acyclicity then
gives a ready node in every round, and a round whose results are recorded takes
exactly its ready nodes from the pending ones.
-/
set_option autoImplicit false
namespace AgentGraph

theorem isSome_mapM_iff {α β : Type} {f : α → Option β} {xs : List α} :
    (xs.mapM f).isSome = true ↔ ∀ x ∈ xs, (f x).isSome = true := by
  induction xs with
  | nil => simp
  | cons x rest ih =>
    rw [List.mapM_cons, List.forall_mem_cons, ← ih]
    cases f x <;> cases rest.mapM f <;> simp

theorem mapM_congr {α β : Type} {f g : α → Option β} {xs : List α} (h : ∀ x ∈ xs, f x = g x) :
    xs.mapM f = xs.mapM g := by
  induction xs with
  | nil => rfl
  | cons x rest ih =>
    rw [List.mapM_cons, List.mapM_cons, h x (by simp), ih fun y hy => h y (by simp [hy])]

namespace TeamState

variable {T : TeamState} {node : TeamNode} {results : List (TeamNode × String)}

/-- Pending nodes are the nodes without output. -/
structure Consistent (T : TeamState) : Prop where
  valid : T.graph.Valid
  pending : T.pending.Sublist T.graph.nodes
  outputs : ∀ node ∈ T.graph.nodes, (T.outputs.lookup node.id).isSome = true ↔ node ∉ T.pending

theorem start_consistent {execution : AgentExecutionRequest} {context : DelegationContext} {graph : TeamGraph}
    (h : graph.Valid) : (start execution context graph).Consistent :=
  ⟨h,List.Sublist.refl _,fun node hn => by simpa [start] using hn⟩

/-- Nodes with one identifier are equal. -/
theorem Consistent.node_eq (h : T.Consistent) {a b : TeamNode} (ha : a ∈ T.graph.nodes) (hb : b ∈ T.graph.nodes)
    (he : a.id = b.id) : a = b :=
  List.inj_on_of_nodup_map h.valid.idsNodup ha hb he

theorem mem_ready : node ∈ T.ready ↔ node ∈ T.pending ∧ T.isReady node = true := List.mem_filter

theorem ready_sublist : T.ready.Sublist T.pending := List.filter_sublist

theorem Consistent.ready_ids (h : T.Consistent) : (T.ready.map TeamNode.id).Nodup :=
  (ready_sublist.trans h.pending |>.map TeamNode.id).nodup h.valid.idsNodup

/-- A pending node none of whose predecessors is pending exists. -/
theorem Consistent.ready_ne_nil (h : T.Consistent) (hp : T.pending ≠ []) : T.ready ≠ [] := by
  have hacc : ∀ v ∈ T.pending.map TeamNode.id, Acyclic.Terminates T.graph.Edge v := by
    intro v hv
    obtain ⟨node,hn,rfl⟩ := List.mem_map.mp hv
    exact h.valid.acyclic node (h.pending.subset hn)
  obtain ⟨v,hv,hsource⟩ := Acyclic.exists_source hacc (by simpa using hp)
  obtain ⟨node,hn,rfl⟩ := List.mem_map.mp hv
  refine List.ne_nil_of_mem (mem_ready.mpr ⟨hn,List.all_eq_true.mpr fun item hitem => ?_⟩)
  obtain ⟨edge,he,rfl,_⟩ := TeamGraph.mem_predecessors.mp hitem
  obtain ⟨source,hs,hid⟩ := List.mem_map.mp (h.valid.sources edge he)
  rw [← hid, h.outputs source hs]
  intro hpending
  refine hsource source.id (List.mem_map_of_mem hpending) ?_
  rw [hid]
  exact TeamGraph.mem_predecessors_iff_edge.mp hitem

/-- The input of a ready node can be computed. -/
theorem predecessorOutputs_isSome (h : T.isReady node = true) : (T.predecessorOutputs node).isSome = true := by
  refine isSome_mapM_iff.mpr fun item hitem => ?_
  rw [Option.isSome_map]
  exact List.all_eq_true.mp h item hitem

/-! ## Recording the results of a round -/

theorem lookup_isSome {xs : List (String × String)} {key : String} :
    (xs.lookup key).isSome = true ↔ key ∈ xs.map Prod.fst := by
  rw [List.lookup_isSome_iff, List.mem_map]
  exact exists_congr fun x => and_congr_right fun _ => beq_iff_eq.trans eq_comm

theorem recordResults_outputs (key : String) :
    (T.recordResults results).outputs.lookup key =
      ((results.map fun r => (r.1.id,r.2)).reverse.lookup key).or (T.outputs.lookup key) := List.lookup_append

/-- A result for each ready node, in their order. -/
def Results (T : TeamState) (results : List (TeamNode × String)) : Prop := results.map Prod.fst = T.ready

theorem Results.recorded (h : T.Results results) (key : String) :
    ((results.map fun r => (r.1.id,r.2)).reverse.lookup key).isSome = true ↔ key ∈ T.ready.map TeamNode.id := by
  rw [lookup_isSome, ← h]
  simp [List.map_reverse]

/-- A round has one result for a node. -/
theorem Results.lookup (hc : T.Consistent) (h : T.Results results) {key output : String} :
    (results.map fun r => (r.1.id,r.2)).reverse.lookup key = some output ↔ ∃ node, (node,output) ∈ results ∧ node.id = key := by
  have hkeys : (results.map fun r => (r.1.id,r.2)).map Prod.fst = T.ready.map TeamNode.id := by
    rw [← h, List.map_map, List.map_map]
    rfl
  have hnodup : ((results.map fun r => (r.1.id,r.2)).reverse.map Prod.fst).Nodup := by
    rw [List.map_reverse, List.nodup_reverse, hkeys]
    exact hc.ready_ids
  rw [Entries.lookup_eq_some_iff hnodup, List.mem_reverse, List.mem_map]
  constructor
  · rintro ⟨⟨node,_⟩,hmem,he⟩
    cases he
    exact ⟨node,hmem,rfl⟩
  · rintro ⟨node,hmem,rfl⟩
    exact ⟨(node,output),hmem,rfl⟩

/-- What has been recorded is never overwritten. -/
theorem Results.keeps (hc : T.Consistent) (h : T.Results results) {key output : String}
    (hk : T.outputs.lookup key = some output) : (T.recordResults results).outputs.lookup key = some output := by
  rw [recordResults_outputs]
  have hnone : (results.map fun r => (r.1.id,r.2)).reverse.lookup key = none := by
    rw [← Option.not_isSome_iff_eq_none, h.recorded]
    intro hmem
    obtain ⟨node,hn,rfl⟩ := List.mem_map.mp hmem
    have hp := (mem_ready.mp hn).1
    exact (hc.outputs node (hc.pending.subset hp)).mp (by simp [hk]) hp
  rw [hnone, Option.none_or, hk]

theorem mem_recordResults_pending (hc : T.Consistent) (h : T.Results results) :
    node ∈ (T.recordResults results).pending ↔ node ∈ T.pending ∧ node ∉ T.ready := by
  have hany : (results.any fun r => r.1.id == node.id) = true ↔ node.id ∈ T.ready.map TeamNode.id := by
    rw [← h, List.any_eq_true, List.map_map, List.mem_map]
    simp only [beq_iff_eq, Function.comp_apply]
  simp only [recordResults, List.mem_filter, Bool.not_eq_true', ← Bool.not_eq_true, hany]
  refine and_congr_right fun hp => not_congr ⟨fun hm => ?_,fun hm => List.mem_map_of_mem hm⟩
  obtain ⟨other,ho,he⟩ := List.mem_map.mp hm
  have hother := hc.pending.subset (mem_ready.mp ho).1
  exact hc.node_eq hother (hc.pending.subset hp) he ▸ ho

theorem Results.consistent (hc : T.Consistent) (h : T.Results results) : (T.recordResults results).Consistent where
  valid := hc.valid
  pending := List.filter_sublist.trans hc.pending
  outputs := by
    intro node hn
    rw [mem_recordResults_pending hc h, recordResults_outputs, Option.isSome_or, Bool.or_eq_true, h.recorded]
    rw [hc.outputs node hn, not_and_not_right]
    constructor
    · rintro (hm | hnp) hp
      · obtain ⟨other,ho,he⟩ := List.mem_map.mp hm
        exact hc.node_eq (hc.pending.subset (mem_ready.mp ho).1) hn he ▸ ho
      · exact absurd hp hnp
    · intro himp
      by_cases hp : node ∈ T.pending
      · exact .inl (List.mem_map_of_mem (himp hp))
      · exact .inr hp

/-- A round takes its ready nodes from the pending ones. -/
theorem Results.pending_length (hc : T.Consistent) (h : T.Results results) :
    (T.recordResults results).pending.length + T.ready.length = T.pending.length := by
  have hp : (T.recordResults results).pending = T.pending.filter fun node => !T.isReady node := by
    refine List.filter_congr fun node hn => ?_
    have hmem : node ∈ (T.recordResults results).pending ↔ _ := mem_recordResults_pending hc h
    rw [mem_ready, recordResults, List.mem_filter] at hmem
    rw [Bool.eq_iff_iff, Bool.not_eq_true' (T.isReady node), ← Bool.not_eq_true]
    simpa [hn] using hmem
  rw [hp, ready, Nat.add_comm]
  exact (List.length_eq_length_filter_add T.isReady).symm

/-- When nothing is pending the synthesis finds every terminal output. -/
theorem Consistent.synthesisInput_isSome (hc : T.Consistent) (hp : T.pending = []) (maximum : Nat) :
    (T.synthesisInput maximum).isSome = true := by
  unfold synthesisInput terminalOutputs
  rw [Option.isSome_map, isSome_mapM_iff]
  intro nodeId hid
  obtain ⟨node,hn,rfl⟩ := List.mem_map.mp hid
  rw [Option.isSome_map, hc.outputs node (List.mem_filter.mp hn).1, hp]
  exact List.not_mem_nil

end TeamState

end AgentGraph
