import AgentGraph.Domain.TeamGraph
import AgentGraph.Foundation.Acyclic

/-! # Accepted team graphs are finite acyclic graphs

The finished set of `_ensure_dag`, newest node first, is a reverse topological
order at every moment of the search. A graph that passes therefore has distinct
node identifiers, edges between existing nodes and no directed cycle.
-/
set_option autoImplicit false
namespace AgentGraph
open Acyclic

/-- What one call of `visit` adds to the finished set. -/
structure Visits (graph : TeamGraph) (before after : DagSearch) : Prop where
  visiting : after.visiting = before.visiting
  order : SinkOrder graph.successors after.visited
  keeps : ∀ v ∈ before.visited, v ∈ after.visited

theorem Visits.refl {graph : TeamGraph} {search : DagSearch}
    (h : SinkOrder graph.successors search.visited) : Visits graph search search :=
  ⟨rfl,h,fun _ hv => hv⟩

theorem Visits.trans {graph : TeamGraph} {a b c : DagSearch}
    (hab : Visits graph a b) (hbc : Visits graph b c) : Visits graph a c :=
  ⟨hbc.visiting.trans hab.visiting,hbc.order,fun v hv => hbc.keeps v (hab.keeps v hv)⟩

/-- A fold of searches finishes every entry of the list it runs over. -/
theorem foldlM_visits {graph : TeamGraph} {α : Type} (key : α → String)
    {f : DagSearch → α → Except TeamGraphError DagSearch}
    (hf : ∀ a before after, SinkOrder graph.successors before.visited → f before a = .ok after →
      Visits graph before after ∧ key a ∈ after.visited)
    {items : List α} {before after : DagSearch}
    (hb : SinkOrder graph.successors before.visited) (he : items.foldlM f before = .ok after) :
    Visits graph before after ∧ ∀ a ∈ items, key a ∈ after.visited := by
  induction items generalizing before with
  | nil =>
    obtain rfl : before = after := by simpa [pure, Except.pure] using he
    exact ⟨.refl hb,by simp⟩
  | cons a rest ih =>
    rw [List.foldlM_cons, except_bind_eq_ok] at he
    obtain ⟨middle,hm,he⟩ := he
    obtain ⟨hvm,ha⟩ := hf a before middle hb hm
    obtain ⟨hv,hrest⟩ := ih hvm.order he
    refine ⟨hvm.trans hv,?_⟩
    intro b hmem
    rcases List.mem_cons.mp hmem with rfl | hmem
    · exact hv.keeps _ ha
    · exact hrest b hmem

/-- A successful visit finishes its node after all the node's successors. -/
theorem visit_spec {graph : TeamGraph} {fuel : Nat} {nodeId : String} {before after : DagSearch}
    (hb : SinkOrder graph.successors before.visited)
    (he : visit graph fuel nodeId before = .ok after) :
    Visits graph before after ∧ nodeId ∈ after.visited := by
  induction fuel generalizing nodeId before after with
  | zero => simp [visit] at he
  | succ fuel ih =>
    simp only [visit] at he
    by_cases hvisiting : before.visiting.contains nodeId = true
    · simp only [hvisiting, ↓reduceIte, reduceCtorEq] at he
    by_cases hvisited : before.visited.contains nodeId = true
    · simp only [hvisiting, hvisited, Bool.false_eq_true, ↓reduceIte, Except.ok.injEq] at he
      subst he
      exact ⟨.refl hb,by simpa using hvisited⟩
    simp only [hvisiting, hvisited, Bool.false_eq_true, ↓reduceIte, except_bind_eq_ok] at he
    obtain ⟨inner,hinner,hafter⟩ := he
    have hstart : SinkOrder graph.successors
        (⟨nodeId :: before.visiting,before.visited⟩ : DagSearch).visited := hb
    obtain ⟨hv,hall⟩ := foldlM_visits (fun w => w) (fun _ _ _ hs hw => ih hs hw) hstart hinner
    have hvis : inner.visiting = nodeId :: before.visiting := hv.visiting
    obtain rfl : (⟨inner.visiting.erase nodeId,nodeId :: inner.visited⟩ : DagSearch) = after := by
      simpa [pure, Except.pure] using hafter
    refine ⟨⟨by simp [hvis],⟨fun w hw => hall w hw,hv.order⟩,?_⟩,by simp⟩
    intro v hmem
    exact List.mem_cons_of_mem _ (hv.keeps v hmem)

theorem ensureDag_terminates {graph : TeamGraph} (he : ensureDag graph = .ok ()) :
    ∀ node ∈ graph.nodes, Terminates graph.Edge node.id := by
  obtain ⟨final,hfinal,-⟩ := except_bind_eq_ok.mp he
  have hstart : SinkOrder graph.successors (⟨[],[]⟩ : DagSearch).visited := trivial
  obtain ⟨hv,hall⟩ := foldlM_visits TeamNode.id
    (fun _ _ _ hs hn => visit_spec hs hn) hstart hfinal
  intro node hnode
  exact hv.order.terminates _ (hall node hnode)

/-- The properties of a `TeamGraph` that its consumers rely on. -/
structure TeamGraph.Valid (graph : TeamGraph) : Prop where
  nonempty : graph.nodes ≠ []
  idsNodup : (graph.nodes.map TeamNode.id).Nodup
  sources : ∀ edge ∈ graph.edges, edge.source ∈ graph.nodes.map TeamNode.id
  targets : ∀ edge ∈ graph.edges, edge.target ∈ graph.nodes.map TeamNode.id
  acyclic : ∀ node ∈ graph.nodes, Terminates graph.Edge node.id

theorem parseTeamNode_id {parseUuid : String → Option AgentId} {nodeIds : List String} {raw : Json}
    {node : TeamNode} (he : parseTeamNode parseUuid nodeIds raw = .ok node) : node.id ∉ nodeIds := by
  simp only [parseTeamNode, except_bind_eq_ok, orRaise_eq_ok, check_eq_ok] at he
  obtain ⟨_,_,header,_,_,hnew,_,_,_,_,_,_,hnode⟩ := he
  obtain rfl := Except.ok.inj hnode
  simpa using hnew

theorem parseTeamNodes_ids {parseUuid : String → Option AgentId} {nodeIds : List String}
    {raws : List Json} {nodes : List TeamNode} (he : parseTeamNodes parseUuid nodeIds raws = .ok nodes) :
    nodes.length = raws.length ∧ (nodes.map TeamNode.id).Nodup ∧ ∀ node ∈ nodes, node.id ∉ nodeIds := by
  induction raws generalizing nodeIds nodes with
  | nil =>
    obtain rfl : [] = nodes := Except.ok.inj he
    simp
  | cons raw rest ih =>
    simp only [parseTeamNodes, except_bind_eq_ok] at he
    obtain ⟨node,hnode,tail,htail,hcons⟩ := he
    obtain rfl := Except.ok.inj hcons
    obtain ⟨hlen,hnodup,hfresh⟩ := ih htail
    have hid := parseTeamNode_id hnode
    refine ⟨by simp [hlen],?_,?_⟩
    · rw [List.map_cons, List.nodup_cons]
      refine ⟨fun hmem => ?_,hnodup⟩
      obtain ⟨other,hother,heq⟩ := List.mem_map.mp hmem
      exact hfresh other hother (by simp [heq])
    · intro other hother
      rcases List.mem_cons.mp hother with rfl | hother
      · exact hid
      · exact fun hmem => hfresh other hother (List.mem_cons_of_mem _ hmem)

theorem parseTeamEdges_endpoints {nodeIds edgeIds : List String} {raws : List Json}
    {edges : List TeamEdge} (he : parseTeamEdges nodeIds edgeIds raws = .ok edges) :
    ∀ edge ∈ edges, edge.source ∈ nodeIds ∧ edge.target ∈ nodeIds := by
  induction raws generalizing edgeIds edges with
  | nil =>
    obtain rfl : [] = edges := Except.ok.inj he
    simp
  | cons raw rest ih =>
    simp only [parseTeamEdges, parseTeamEdge, except_bind_eq_ok, orRaise_eq_ok, check_eq_ok] at he
    obtain ⟨edge,⟨_,_,parsed,_,_,_,_,hends,_,_,hedge⟩,tail,htail,hcons⟩ := he
    obtain rfl := Except.ok.inj hedge
    obtain rfl := Except.ok.inj hcons
    intro other hother
    rcases List.mem_cons.mp hother with rfl | hother
    · simpa using hends
    · exact ih htail other hother

/-- Every accepted graph is valid and within the worker limit. -/
theorem parseTeamGraph_valid {parseUuid : String → Option AgentId} {maxWorkers : Nat}
    {raw : JsonObject} {graph : TeamGraph} (he : parseTeamGraph parseUuid maxWorkers raw = .ok graph) :
    graph.Valid ∧ graph.nodes.length ≤ maxWorkers := by
  simp only [parseTeamGraph, except_bind_eq_ok, orRaise_eq_ok, check_eq_ok] at he
  obtain ⟨_,_,_,_,lists,_,_,hne,_,hmax,_,_,nodes,hnodes,edges,hedges,_,hdag,hgraph⟩ := he
  obtain rfl := Except.ok.inj hgraph
  obtain ⟨hlen,hnodup,-⟩ := parseTeamNodes_ids hnodes
  have hends := parseTeamEdges_endpoints hedges
  refine ⟨⟨?_,hnodup,fun e h => (hends e h).1,fun e h => (hends e h).2,ensureDag_terminates hdag⟩,?_⟩
  · rintro rfl
    have hzero : lists.1.length = 0 := hlen.symm
    simp [List.length_eq_zero_iff.mp hzero] at hne
  · have := of_decide_eq_true hmax
    simpa [hlen] using this

/-- The worker limit decides whether a graph is accepted, and nothing else. -/
theorem parseTeamGraph_unique {parseUuid : String → Option AgentId} {maxWorkers maxWorkers' : Nat} {raw : JsonObject}
    {graph graph' : TeamGraph} (h : parseTeamGraph parseUuid maxWorkers raw = .ok graph)
    (h' : parseTeamGraph parseUuid maxWorkers' raw = .ok graph') : graph = graph' := by
  simp only [parseTeamGraph, except_bind_eq_ok, orRaise_eq_ok, check_eq_ok] at h h'
  obtain ⟨_,_,_,_,lists,hlists,_,_,_,_,_,_,nodes,hnodes,edges,hedges,_,_,hgraph⟩ := h
  obtain ⟨_,_,_,_,lists',hlists',_,_,_,_,_,_,nodes',hnodes',edges',hedges',_,_,hgraph'⟩ := h'
  obtain rfl := Option.some.inj (hlists.symm.trans hlists')
  obtain rfl := Except.ok.inj (hnodes.symm.trans hnodes')
  obtain rfl := Except.ok.inj (hedges.symm.trans hedges')
  exact Except.ok.inj (hgraph.symm.trans hgraph')

end AgentGraph
