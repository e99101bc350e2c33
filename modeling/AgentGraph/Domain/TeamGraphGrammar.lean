import AgentGraph.Domain.TeamGraphDag
import Mathlib.Data.List.Nodup
import Mathlib.Data.List.Forall2

/-! # The team-v1 grammar

The grammar is stated over raw JSON without the parser's loops and its search.
`parse_team_graph` returns a graph exactly when the raw definition follows the
grammar and the graph lists its nodes and edges in input order. The search of
`_ensure_dag` never runs out of calls: its nesting is bounded by the number of edges.
-/
set_option autoImplicit false
namespace AgentGraph
open Acyclic

/-- Absent, null or a string of at most 4000 characters. -/
inductive InstructionsGrammar : Json → Option String → Prop
  | none : InstructionsGrammar .null none
  | some (text : String) (short : text.length ≤ 4000) : InstructionsGrammar (.str text) (some text)

/-- A raw node and the node it stands for. -/
structure NodeGrammar (parseUuid : String → Option AgentId) (fields : JsonObject) (node : TeamNode) :
    Prop where
  keys : ∀ field ∈ fields, field.1 ∈ nodeKeys
  type : fields.get "type" = .str "agent-ref"
  id : fields.get "id" = .str node.id
  idNonempty : node.id ≠ ""
  label : fields.get "label" = .str node.label
  agentId : ∃ text, fields.get "agent_id" = .str text ∧ parseUuid text = some node.agentId
  instructions : InstructionsGrammar (fields.get "instructions") node.instructions

/-- A raw edge and the edge it stands for. -/
structure EdgeGrammar (fields : JsonObject) (edge : TeamEdge) : Prop where
  keys : ∀ field ∈ fields, field.1 ∈ edgeKeys
  id : fields.get "id" = .str edge.id
  source : fields.get "source" = .str edge.source
  target : fields.get "target" = .str edge.target
  nonempty : edge.id ≠ "" ∧ edge.source ≠ "" ∧ edge.target ≠ ""

/-- A raw team definition and the graph it stands for. -/
structure TeamGrammar (parseUuid : String → Option AgentId) (maxWorkers : Nat) (raw : JsonObject)
    (graph : TeamGraph) : Prop where
  keys : ∀ field ∈ raw, field.1 ∈ graphKeys
  version : raw.get "version" = .int 2 ∨ raw.get "version" = .float (.finite 2)
  runtime : raw.get "runtime" = .str "team-v1"
  nodes : ∃ items, raw.get "nodes" = .arr items ∧ items ≠ [] ∧ items.length ≤ maxWorkers ∧
    List.Forall₂ (fun item node => ∃ fields, item = .obj fields ∧ NodeGrammar parseUuid fields node)
      items graph.nodes
  nodeIds : (graph.nodes.map TeamNode.id).Nodup
  edges : ∃ items, raw.get "edges" = .arr items ∧ items.length ≤ 200 ∧
    List.Forall₂ (fun item edge => ∃ fields, item = .obj fields ∧ EdgeGrammar fields edge)
      items graph.edges
  edgeIds : (graph.edges.map TeamEdge.id).Nodup
  endpoints : ∀ edge ∈ graph.edges, edge.source ∈ graph.nodes.map TeamNode.id ∧
    edge.target ∈ graph.nodes.map TeamNode.id ∧ edge.source ≠ edge.target
  acyclic : ∀ nodeId, ¬ Reachable graph.Edge nodeId nodeId

theorem dictOver?_eq_some {allowed : List String} {raw : Json} {fields : JsonObject} :
    dictOver? allowed raw = some fields ↔ raw = .obj fields ∧ ∀ field ∈ fields, field.1 ∈ allowed := by
  unfold dictOver?
  rw [Option.bind_eq_some_iff]
  constructor
  · rintro ⟨inner,hraw,hkeys⟩
    by_cases hall : inner.onlyKeys allowed = true
    · obtain rfl : inner = fields := by simpa [hall] using hkeys
      exact ⟨Json.dict?_eq_some.mp hraw,JsonObject.onlyKeys_iff.mp hall⟩
    · simp [hall] at hkeys
  · rintro ⟨hraw,hkeys⟩
    have hall := JsonObject.onlyKeys_iff.mpr hkeys
    exact ⟨fields,Json.dict?_eq_some.mpr hraw,by simp [hall]⟩

theorem instructions?_eq_some {value : Json} {instructions : Option String} :
    instructions? value = some instructions ↔ InstructionsGrammar value instructions := by
  constructor
  · intro h
    match value, h with
    | .null, h =>
      obtain rfl : none = instructions := by simpa [instructions?] using h
      exact .none
    | .str text, h =>
      obtain ⟨hshort,rfl⟩ : text.length ≤ 4000 ∧ some text = instructions := by
        simpa [instructions?] using h
      exact .some text hshort
  · rintro (_ | ⟨text,hshort⟩)
    · rfl
    · simp [instructions?, hshort]

theorem agentRef?_eq_some {fields : JsonObject} {header : String × String} :
    agentRef? fields = some header ↔ fields.get "type" = .str "agent-ref" ∧
      fields.get "id" = .str header.1 ∧ header.1 ≠ "" ∧ fields.get "label" = .str header.2 := by
  obtain ⟨nodeId,label⟩ := header
  by_cases htype : fields.get "type" = .str "agent-ref"
  · simp [agentRef?, htype, Option.bind_eq_some_iff, Json.equalsStr, and_assoc]
  · simp [agentRef?, htype]

theorem edgeStrings?_eq_some {fields : JsonObject} {edge : TeamEdge} :
    edgeStrings? fields = some edge ↔ fields.get "id" = .str edge.id ∧
      fields.get "source" = .str edge.source ∧ fields.get "target" = .str edge.target ∧
      edge.id ≠ "" ∧ edge.source ≠ "" ∧ edge.target ≠ "" := by
  obtain ⟨edgeId,source,target⟩ := edge
  simp only [edgeStrings?, Option.bind_eq_some_iff, Option.map_eq_some_iff, Json.nonemptyStr?_eq_some,
    TeamEdge.mk.injEq]
  constructor
  · rintro ⟨_,⟨hid,hid'⟩,_,⟨hs,hs'⟩,_,⟨ht,ht'⟩,rfl,rfl,rfl⟩
    exact ⟨hid,hs,ht,hid',hs',ht'⟩
  · rintro ⟨hid,hs,ht,hid',hs',ht'⟩
    exact ⟨edgeId,⟨hid,hid'⟩,source,⟨hs,hs'⟩,target,⟨ht,ht'⟩,rfl,rfl,rfl⟩

/-- One turn of the node loop accepts the node grammar and an identifier not yet taken. -/
theorem parseTeamNode_eq_ok {parseUuid : String → Option AgentId} {nodeIds : List String} {raw : Json}
    {node : TeamNode} : parseTeamNode parseUuid nodeIds raw = .ok node ↔
      (∃ fields, raw = .obj fields ∧ NodeGrammar parseUuid fields node) ∧ node.id ∉ nodeIds := by
  simp only [parseTeamNode, except_bind_eq_ok, orRaise_eq_ok, check_eq_ok, dictOver?_eq_some,
    agentRef?_eq_some, instructions?_eq_some, Json.str?_eq_some]
  constructor
  · rintro ⟨fields,⟨hraw,hkeys⟩,header,⟨htype,hid,hne,hlabel⟩,_,hnew,text,htext,instructions,
      hinstructions,agentId,huuid,hnode⟩
    obtain rfl := Except.ok.inj hnode
    exact ⟨⟨fields,hraw,hkeys,htype,hid,hne,hlabel,⟨text,htext,huuid⟩,hinstructions⟩,by simpa using hnew⟩
  · rintro ⟨⟨fields,hraw,h⟩,hnew⟩
    obtain ⟨text,htext,huuid⟩ := h.agentId
    exact ⟨fields,⟨hraw,h.keys⟩,(node.id,node.label),⟨h.type,h.id,h.idNonempty,h.label⟩,(),
      by simpa using hnew,text,htext,node.instructions,h.instructions,node.agentId,huuid,rfl⟩

theorem parseTeamEdge_eq_ok {nodeIds edgeIds : List String} {raw : Json} {edge : TeamEdge} :
    parseTeamEdge nodeIds edgeIds raw = .ok edge ↔
      (∃ fields, raw = .obj fields ∧ EdgeGrammar fields edge) ∧ edge.id ∉ edgeIds ∧
        edge.source ∈ nodeIds ∧ edge.target ∈ nodeIds ∧ edge.source ≠ edge.target := by
  simp only [parseTeamEdge, except_bind_eq_ok, orRaise_eq_ok, check_eq_ok, dictOver?_eq_some,
    edgeStrings?_eq_some]
  constructor
  · rintro ⟨fields,⟨hraw,hkeys⟩,parsed,⟨hid,hs,ht,hne⟩,_,hnew,_,hends,_,hself,hedge⟩
    obtain rfl := Except.ok.inj hedge
    have hmem : parsed.source ∈ nodeIds ∧ parsed.target ∈ nodeIds := by simpa using hends
    exact ⟨⟨fields,hraw,hkeys,hid,hs,ht,hne⟩,by simpa using hnew,hmem.1,hmem.2,by simpa using hself⟩
  · rintro ⟨⟨fields,hraw,h⟩,hnew,hs,ht,hself⟩
    exact ⟨fields,⟨hraw,h.keys⟩,edge,⟨h.id,h.source,h.target,h.nonempty⟩,(),by simpa using hnew,
      (),by simp [hs, ht],(),by simpa using hself,rfl⟩

/-- Distinct keys that avoid a list, seen from the first entry. -/
theorem nodup_keys_cons {α : Type} (key : α → String) {taken : List String} {a : α} {rest : List α} :
    (key a ∉ taken ∧ (rest.map key).Nodup ∧ ∀ b ∈ rest, key b ∉ key a :: taken) ↔
      ((a :: rest).map key).Nodup ∧ ∀ b ∈ a :: rest, key b ∉ taken := by
  simp only [List.map_cons, List.nodup_cons, List.mem_cons, not_or, forall_eq_or_imp, List.mem_map,
    not_exists, not_and]
  constructor
  · rintro ⟨ha,hnodup,hrest⟩
    exact ⟨⟨fun b hb => (hrest b hb).1,hnodup⟩,ha,fun b hb => (hrest b hb).2⟩
  · rintro ⟨⟨hnew,hnodup⟩,ha,hrest⟩
    exact ⟨ha,hnodup,fun b hb => ⟨hnew b hb,hrest b hb⟩⟩

theorem parseTeamNodes_eq_ok {parseUuid : String → Option AgentId} {nodeIds : List String}
    {raws : List Json} {nodes : List TeamNode} : parseTeamNodes parseUuid nodeIds raws = .ok nodes ↔
      List.Forall₂ (fun item node => ∃ fields, item = .obj fields ∧ NodeGrammar parseUuid fields node)
        raws nodes ∧ (nodes.map TeamNode.id).Nodup ∧ ∀ node ∈ nodes, node.id ∉ nodeIds := by
  induction raws generalizing nodeIds nodes with
  | nil =>
    simp only [parseTeamNodes, List.forall₂_nil_left_iff, Except.ok.injEq]
    constructor
    · rintro rfl
      simp
    · exact fun h => h.1.symm
  | cons raw rest ih =>
    simp only [parseTeamNodes, except_bind_eq_ok, parseTeamNode_eq_ok, ih, List.forall₂_cons_left_iff]
    constructor
    · rintro ⟨node,⟨hnode,hnew⟩,tail,⟨htail,hids⟩,hcons⟩
      obtain rfl := Except.ok.inj hcons
      exact ⟨⟨node,tail,hnode,htail,rfl⟩,(nodup_keys_cons TeamNode.id).mp ⟨hnew,hids⟩⟩
    · rintro ⟨⟨node,tail,hnode,htail,rfl⟩,hids⟩
      obtain ⟨hnew,hids⟩ := (nodup_keys_cons TeamNode.id).mpr hids
      exact ⟨node,⟨hnode,hnew⟩,tail,⟨htail,hids⟩,rfl⟩

theorem parseTeamEdges_eq_ok {nodeIds edgeIds : List String} {raws : List Json} {edges : List TeamEdge} :
    parseTeamEdges nodeIds edgeIds raws = .ok edges ↔
      List.Forall₂ (fun item edge => ∃ fields, item = .obj fields ∧ EdgeGrammar fields edge) raws edges ∧
      ((edges.map TeamEdge.id).Nodup ∧ ∀ edge ∈ edges, edge.id ∉ edgeIds) ∧
      ∀ edge ∈ edges, edge.source ∈ nodeIds ∧ edge.target ∈ nodeIds ∧ edge.source ≠ edge.target := by
  induction raws generalizing edgeIds edges with
  | nil =>
    simp only [parseTeamEdges, List.forall₂_nil_left_iff, Except.ok.injEq]
    constructor
    · rintro rfl
      simp
    · exact fun h => h.1.symm
  | cons raw rest ih =>
    simp only [parseTeamEdges, except_bind_eq_ok, parseTeamEdge_eq_ok, ih, List.forall₂_cons_left_iff]
    constructor
    · rintro ⟨edge,⟨hedge,hnew,hends⟩,tail,⟨htail,hids,hrest⟩,hcons⟩
      obtain rfl := Except.ok.inj hcons
      refine ⟨⟨edge,tail,hedge,htail,rfl⟩,(nodup_keys_cons TeamEdge.id).mp ⟨hnew,hids⟩,?_⟩
      intro other hother
      rcases List.mem_cons.mp hother with rfl | hother
      · exact hends
      · exact hrest other hother
    · rintro ⟨⟨edge,tail,hedge,htail,rfl⟩,hids,hends⟩
      obtain ⟨hnew,hids⟩ := (nodup_keys_cons TeamEdge.id).mpr hids
      exact ⟨edge,⟨hedge,hnew,hends edge (by simp)⟩,tail,
        ⟨htail,hids,fun other hother => hends other (List.mem_cons_of_mem _ hother)⟩,rfl⟩

/-- A fold of searches succeeds when every search of the list does. -/
theorem foldlM_succeeds {graph : TeamGraph} {α : Type} {P : α → DagSearch → Prop}
    {f : DagSearch → α → Except TeamGraphError DagSearch}
    (hf : ∀ a before, SinkOrder graph.successors before.visited → P a before →
      ∃ after, f before a = .ok after ∧ Visits graph before after)
    (hP : ∀ a before after, Visits graph before after → P a before → P a after)
    (items : List α) {before : DagSearch} (hb : SinkOrder graph.successors before.visited)
    (hall : ∀ a ∈ items, P a before) :
    ∃ after, items.foldlM f before = .ok after ∧ Visits graph before after := by
  induction items generalizing before with
  | nil => exact ⟨before,rfl,.refl hb⟩
  | cons a rest ih =>
    obtain ⟨middle,hm,hvm⟩ := hf a before hb (hall a (by simp))
    obtain ⟨after,ha,hva⟩ := ih hvm.order
      (fun b hmem => hP b before middle hvm (hall b (List.mem_cons_of_mem _ hmem)))
    refine ⟨after,?_,hvm.trans hva⟩
    rw [List.foldlM_cons, except_bind_eq_ok]
    exact ⟨middle,hm,ha⟩

/-- The state in which `visit` of `nodeId` is called during a search of an acyclic
graph: the nodes in progress lie on a path that leads to `nodeId`. -/
structure OnPath (graph : TeamGraph) (nodeId : String) (search : DagSearch) : Prop where
  nodup : search.visiting.Nodup
  known : ∀ v ∈ search.visiting, v ∈ graph.edges.map TeamEdge.source
  above : ∀ v ∈ search.visiting, Reachable graph.Edge v nodeId

theorem OnPath.of_visits {graph : TeamGraph} {nodeId : String} {before after : DagSearch}
    (hv : Visits graph before after) (h : OnPath graph nodeId before) : OnPath graph nodeId after :=
  ⟨hv.visiting ▸ h.nodup,hv.visiting ▸ h.known,hv.visiting ▸ h.above⟩

theorem TeamGraph.Edge.mem_sources {graph : TeamGraph} {a b : String} (h : graph.Edge a b) :
    a ∈ graph.edges.map TeamEdge.source := by
  obtain ⟨edge,hedge,rfl,-⟩ := TeamGraph.mem_successors.mp h
  exact List.mem_map_of_mem hedge

theorem OnPath.successor {graph : TeamGraph} {nodeId successor : String} {search : DagSearch}
    (hacyclic : ¬ Reachable graph.Edge nodeId nodeId) (h : OnPath graph nodeId search)
    (hedge : graph.Edge nodeId successor) :
    OnPath graph successor ⟨nodeId :: search.visiting,search.visited⟩ := by
  refine ⟨List.nodup_cons.mpr ⟨fun hmem => hacyclic (h.above _ hmem),h.nodup⟩,?_,?_⟩
  · intro v hv
    rcases List.mem_cons.mp hv with rfl | hv
    · exact hedge.mem_sources
    · exact h.known v hv
  · intro v hv
    rcases List.mem_cons.mp hv with rfl | hv
    · exact .single hedge
    · exact (h.above v hv).tail hedge

/-- In an acyclic graph a search with enough calls left succeeds. -/
theorem visit_succeeds {graph : TeamGraph} (hacyclic : ∀ nodeId, ¬ Reachable graph.Edge nodeId nodeId)
    {fuel : Nat} {nodeId : String} {before : DagSearch}
    (hb : SinkOrder graph.successors before.visited) (hpath : OnPath graph nodeId before)
    (hfuel : ∀ visiting : List String, visiting.Nodup →
      (∀ v ∈ visiting, v ∈ graph.edges.map TeamEdge.source) →
      visiting.length < fuel + before.visiting.length) :
    ∃ after, visit graph fuel nodeId before = .ok after ∧ Visits graph before after := by
  induction fuel generalizing nodeId before with
  | zero => simpa using hfuel before.visiting hpath.nodup hpath.known
  | succ fuel ih =>
    have hfresh : before.visiting.contains nodeId = false := by
      simpa using fun hmem => hacyclic nodeId (hpath.above nodeId hmem)
    by_cases hvisited : before.visited.contains nodeId = true
    · exact ⟨before,by simp only [visit, hfresh, hvisited, Bool.false_eq_true, ↓reduceIte],.refl hb⟩
    have hstart : SinkOrder graph.successors
        (⟨nodeId :: before.visiting,before.visited⟩ : DagSearch).visited := hb
    obtain ⟨inner,hinner,hv⟩ := foldlM_succeeds
      (P := fun successor search => graph.Edge nodeId successor ∧ OnPath graph successor search ∧
        search.visiting.length = before.visiting.length + 1)
      (fun successor search hs hp => ih hs hp.2.1 (fun visiting hn hk => by
        have := hfuel visiting hn hk
        omega))
      (fun _ _ _ hv hp => ⟨hp.1,hp.2.1.of_visits hv,by rw [hv.visiting]; exact hp.2.2⟩)
      (graph.successors nodeId) hstart
      (fun successor hmem => ⟨hmem,hpath.successor (hacyclic nodeId) hmem,rfl⟩)
    have hrun : visit graph (fuel + 1) nodeId before =
        .ok ⟨inner.visiting.erase nodeId,nodeId :: inner.visited⟩ := by
      simp only [visit, hfresh, hvisited, Bool.false_eq_true, ↓reduceIte, hinner]
      rfl
    exact ⟨_,hrun,(visit_spec hb hrun).1⟩

/-- Searches that agree from every state a fold passes through give equal folds. -/
theorem foldlM_congr_visits (graph : TeamGraph) (visiting : List String)
    (f g : DagSearch → String → Except TeamGraphError DagSearch)
    (hf : ∀ a before after, SinkOrder graph.successors before.visited → f before a = .ok after →
      Visits graph before after)
    (hfg : ∀ a before, SinkOrder graph.successors before.visited → before.visiting = visiting →
      f before a = g before a)
    (items : List String) {before : DagSearch} (hb : SinkOrder graph.successors before.visited)
    (hv : before.visiting = visiting) : items.foldlM f before = items.foldlM g before := by
  induction items generalizing before with
  | nil => rfl
  | cons a rest ih =>
    rw [List.foldlM_cons, List.foldlM_cons, ← hfg a before hb hv]
    match hrun : f before a with
    | .error _ => rfl
    | .ok after =>
      have hstep := hf a before after hb hrun
      exact ih hstep.order (hstep.visiting.trans hv)

/-- More calls than there are edge sources make no difference, cycle or not. -/
theorem visit_calls {graph : TeamGraph} {n m : Nat} {nodeId : String} {before : DagSearch}
    (hb : SinkOrder graph.successors before.visited) (hnodup : before.visiting.Nodup)
    (hknown : ∀ v ∈ before.visiting, v ∈ graph.edges.map TeamEdge.source)
    (hn : ∀ visiting : List String, visiting.Nodup →
      (∀ v ∈ visiting, v ∈ graph.edges.map TeamEdge.source) →
      visiting.length < n + before.visiting.length ∧ visiting.length < m + before.visiting.length) :
    visit graph n nodeId before = visit graph m nodeId before := by
  induction n generalizing m nodeId before with
  | zero => simpa using (hn before.visiting hnodup hknown).1
  | succ n ih =>
    obtain ⟨m,rfl⟩ : ∃ k, m = k + 1 := by
      have := (hn before.visiting hnodup hknown).2
      exact ⟨m - 1,by omega⟩
    by_cases hvisiting : before.visiting.contains nodeId = true
    · simp only [visit, hvisiting, ↓reduceIte]
    by_cases hvisited : before.visited.contains nodeId = true
    · simp only [visit, hvisiting, hvisited, Bool.false_eq_true, ↓reduceIte]
    by_cases hsource : nodeId ∈ graph.edges.map TeamEdge.source
    · have hinner : SinkOrder graph.successors
          (⟨nodeId :: before.visiting,before.visited⟩ : DagSearch).visited := hb
      have hfold := foldlM_congr_visits graph (nodeId :: before.visiting)
        (fun search successor => visit graph n successor search)
        (fun search successor => visit graph m successor search)
        (fun _ _ _ hs hrun => (visit_spec hs hrun).1)
        (fun successor search hs hv => by
          have hfresh : nodeId ∉ before.visiting := by simpa using hvisiting
          refine ih hs (hv ▸ List.nodup_cons.mpr ⟨hfresh,hnodup⟩) ?_ ?_
          · intro v hmem
            rcases List.mem_cons.mp (hv ▸ hmem) with rfl | hmem
            · exact hsource
            · exact hknown v hmem
          · intro visiting hvn hvk
            have := hn visiting hvn hvk
            simp only [hv, List.length_cons]
            omega)
        (graph.successors nodeId) hinner rfl
      simp only [visit, hvisiting, hvisited, Bool.false_eq_true, ↓reduceIte, hfold]
    · have hsinks : graph.successors nodeId = [] := by
        refine List.eq_nil_iff_forall_not_mem.mpr fun successor hmem => hsource ?_
        exact TeamGraph.Edge.mem_sources (show graph.Edge nodeId successor from hmem)
      simp only [visit, hvisiting, hvisited, hsinks, Bool.false_eq_true, ↓reduceIte, List.foldlM_nil]

theorem sources_length_le {graph : TeamGraph} {visiting : List String} (hnodup : visiting.Nodup)
    (hknown : ∀ v ∈ visiting, v ∈ graph.edges.map TeamEdge.source) :
    visiting.length ≤ graph.edges.length := by
  simpa using (hnodup.subperm hknown).length_le

theorem sources_length_le_nodes {graph : TeamGraph} {visiting : List String} (hnodup : visiting.Nodup)
    (hsources : ∀ edge ∈ graph.edges, edge.source ∈ graph.nodes.map TeamNode.id)
    (hknown : ∀ v ∈ visiting, v ∈ graph.edges.map TeamEdge.source) :
    visiting.length ≤ graph.nodes.length := by
  have hnodes : ∀ v ∈ visiting, v ∈ graph.nodes.map TeamNode.id := by
    intro v hv
    obtain ⟨edge,hedge,rfl⟩ := List.mem_map.mp (hknown v hv)
    exact hsources edge hedge
  simpa using (hnodup.subperm hnodes).length_le

/-- The calls of `visit` nest no deeper than the number of edges plus one: the
search of a parsed graph never meets the interpreter's recursion limit. -/
theorem visit_nesting {graph : TeamGraph}
    (hsources : ∀ edge ∈ graph.edges, edge.source ∈ graph.nodes.map TeamNode.id) {nodeId : String}
    {before : DagSearch} (hb : SinkOrder graph.successors before.visited) (hidle : before.visiting = []) :
    visit graph (graph.nodes.length + 1) nodeId before =
      visit graph (graph.edges.length + 1) nodeId before := by
  refine visit_calls hb (by simp [hidle]) (by simp [hidle]) ?_
  intro visiting hnodup hknown
  have hedges := sources_length_le hnodup hknown
  have hnodes := sources_length_le_nodes hnodup hsources hknown
  omega

/-- `_ensure_dag` accepts exactly the graphs without a directed cycle. -/
theorem ensureDag_eq_ok {graph : TeamGraph}
    (hsources : ∀ edge ∈ graph.edges, edge.source ∈ graph.nodes.map TeamNode.id) :
    ensureDag graph = .ok () ↔ ∀ nodeId, ¬ Reachable graph.Edge nodeId nodeId := by
  constructor
  · intro he nodeId hcycle
    obtain ⟨successor,hedge,-⟩ := Relation.TransGen.head'_iff.mp hcycle
    obtain ⟨edge,hmem,hsource⟩ := List.mem_map.mp (TeamGraph.Edge.mem_sources hedge)
    obtain ⟨node,hnode,hid⟩ := List.mem_map.mp (hsources edge hmem)
    have hterm := ensureDag_terminates he node hnode
    rw [hid, hsource] at hterm
    exact hterm.irrefl hcycle
  · intro hacyclic
    have hstart : SinkOrder graph.successors (⟨[],[]⟩ : DagSearch).visited := trivial
    obtain ⟨after,hrun,-⟩ := foldlM_succeeds (P := fun _ search => search.visiting = [])
      (f := fun search (node : TeamNode) => visit graph (graph.nodes.length + 1) node.id search)
      (fun node before hs hidle => by
        refine visit_succeeds hacyclic hs ⟨by simp [hidle],by simp [hidle],by simp [hidle]⟩ ?_
        intro visiting hnodup hknown
        have := sources_length_le_nodes hnodup hsources hknown
        omega)
      (fun _ _ _ hv hidle => hv.visiting.trans hidle) graph.nodes hstart (fun _ _ => rfl)
    exact except_bind_eq_ok.mpr ⟨after,hrun,rfl⟩

theorem isTeamV1_iff {raw : JsonObject} : isTeamV1 raw = true ↔
    (raw.get "version" = .int 2 ∨ raw.get "version" = .float (.finite 2)) ∧
      raw.get "runtime" = .str "team-v1" := by
  rw [isTeamV1, Bool.and_eq_true, Json.equalsStr_iff]
  refine and_congr_left fun _ => ?_
  match raw.get "version" with
  | .null | .str _ | .arr _ | .obj _ => simp [Json.equalsInt]
  | .bool b => cases b <;> simp [Json.equalsInt]
  | .int n => simp [Json.equalsInt]
  | .float .nan | .float (.infinity _) => simp [Json.equalsInt]
  | .float (.finite q) => simp [Json.equalsInt]

theorem rawLists?_eq_some {raw : JsonObject} {lists : List Json × List Json} :
    rawLists? raw = some lists ↔
      raw.get "nodes" = .arr lists.1 ∧ raw.get "edges" = .arr lists.2 := by
  obtain ⟨nodes,edges⟩ := lists
  simp [rawLists?, Option.bind_eq_some_iff]

/-- `parse_team_graph` returns a graph exactly when the raw definition follows the
grammar, and raises a `TeamGraphError` in every other case. -/
theorem parseTeamGraph_grammar (parseUuid : String → Option AgentId) (maxWorkers : Nat)
    (raw : JsonObject) :
    (∀ graph, parseTeamGraph parseUuid maxWorkers raw = .ok graph ↔
      TeamGrammar parseUuid maxWorkers raw graph) ∧
    ((¬ ∃ graph, TeamGrammar parseUuid maxWorkers raw graph) →
      ∃ error : TeamGraphError, parseTeamGraph parseUuid maxWorkers raw = .error error) := by
  have hiff : ∀ graph, parseTeamGraph parseUuid maxWorkers raw = .ok graph ↔
      TeamGrammar parseUuid maxWorkers raw graph := by
    intro graph
    simp only [parseTeamGraph, except_bind_eq_ok, orRaise_eq_ok, check_eq_ok, JsonObject.onlyKeys_iff,
      isTeamV1_iff, rawLists?_eq_some, parseTeamNodes_eq_ok, parseTeamEdges_eq_ok]
    constructor
    · rintro ⟨_,hkeys,_,⟨hversion,hruntime⟩,lists,⟨hnodes,hedges⟩,_,hne,_,hmax,_,hcount,nodes,
        ⟨hnodeList,hnodeIds,-⟩,edges,⟨hedgeList,⟨hedgeIds,-⟩,hends⟩,_,hdag,hgraph⟩
      obtain rfl := Except.ok.inj hgraph
      have hacyclic := (ensureDag_eq_ok (fun edge hedge => (hends edge hedge).1)).mp hdag
      exact ⟨hkeys,hversion,hruntime,⟨lists.1,hnodes,by simpa using hne,of_decide_eq_true hmax,hnodeList⟩,
        hnodeIds,⟨lists.2,hedges,of_decide_eq_true hcount,hedgeList⟩,hedgeIds,hends,hacyclic⟩
    · intro h
      obtain ⟨nodeItems,hnodes,hne,hmax,hnodeList⟩ := h.nodes
      obtain ⟨edgeItems,hedges,hcount,hedgeList⟩ := h.edges
      have hdag := (ensureDag_eq_ok (fun edge hedge => (h.endpoints edge hedge).1)).mpr h.acyclic
      exact ⟨(),h.keys,(),⟨h.version,h.runtime⟩,(nodeItems,edgeItems),⟨hnodes,hedges⟩,(),by simpa using hne,
        (),decide_eq_true hmax,(),decide_eq_true hcount,graph.nodes,⟨hnodeList,h.nodeIds,by simp⟩,graph.edges,
        ⟨hedgeList,⟨h.edgeIds,by simp⟩,h.endpoints⟩,(),hdag,rfl⟩
  refine ⟨hiff,fun hnone => ?_⟩
  cases hrun : parseTeamGraph parseUuid maxWorkers raw with
  | error error => exact ⟨error,rfl⟩
  | ok graph => exact absurd ⟨graph,(hiff graph).mp hrun⟩ hnone

end AgentGraph
