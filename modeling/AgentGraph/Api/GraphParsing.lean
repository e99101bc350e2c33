import AgentGraph.Api.GraphSchema
import AgentGraph.Domain.TeamGraphGrammar

/-! # Team graphs that the routes have stored

A graph that a route accepts has the shape that `parse_team_graph` asks for. What is left of
the parser on it are the checks of identifiers, of the worker limit and of the cycles.
-/
set_option autoImplicit false
namespace AgentGraph.Api
variable {lax : Lax} {maxWorkers : Nat}

/-! ## Stored objects -/

@[simp] theorem get_cons_self (key : String) (value : Json) (rest : JsonObject) :
    JsonObject.get ((key,value) :: rest) key = value := by
  simp [JsonObject.get]

theorem get_cons_ne {key other : String} (h : key ≠ other) (value : Json) (rest : JsonObject) :
    JsonObject.get ((other,value) :: rest) key = JsonObject.get rest key := by
  have hne : (key == other) = false := by simpa using h
  simp [JsonObject.get, List.lookup_cons, hne]

@[simp] theorem get_nil (key : String) : JsonObject.get [] key = .null := rfl

theorem dump_node (node : GraphNode) : (nodeFields lax).dump node =
    ("id",.str node.id.val) :: ("type",.str node.type.val) :: ("label",.str node.label.val) ::
      ("position",.arr [.float node.position.1,.float node.position.2]) ::
      ((node.agentId.map fun u => ("agent_id",Json.str (lax.uuidText u))).toList ++
        (node.instructions.map fun text => ("instructions",Json.str text.val)).toList) := rfl

theorem dump_edge (edge : GraphEdge) : edgeFields.dump edge =
    [("id",.str edge.id.val),("source",.str edge.source.val),("target",.str edge.target.val)] := rfl

theorem storedGraph_eq (graph : ValidGraph) : storedGraph lax graph =
    (graph.val.version.map fun n => ("version",Json.int n.val)).toList ++
      (graph.val.runtime.map fun runtime => ("runtime",Json.str runtime.value)).toList ++
      [("nodes",.arr (graph.val.nodes.val.map fun node => .obj ((nodeFields lax).dump node)))] ++
      [("edges",.arr (graph.val.edges.val.map fun edge => .obj (edgeFields.dump edge)))] := rfl

theorem get_agent_id (node : GraphNode) : JsonObject.get ((nodeFields lax).dump node) "agent_id" =
    (node.agentId.map fun u => Json.str (lax.uuidText u)).getD .null := by
  rw [dump_node]
  cases node.agentId <;> cases node.instructions <;> simp [get_cons_ne]

theorem get_instructions (node : GraphNode) : JsonObject.get ((nodeFields lax).dump node) "instructions" =
    (node.instructions.map fun text => Json.str text.val).getD .null := by
  rw [dump_node]
  cases node.agentId <;> cases node.instructions <;> simp [get_cons_ne]

theorem get_nodes (graph : ValidGraph) : (storedGraph lax graph).get "nodes" =
    .arr (graph.val.nodes.val.map fun node => .obj ((nodeFields lax).dump node)) := by
  rw [storedGraph_eq]
  cases graph.val.version <;> cases graph.val.runtime <;> simp [get_cons_ne]

theorem get_edges (graph : ValidGraph) : (storedGraph lax graph).get "edges" =
    .arr (graph.val.edges.val.map fun edge => .obj (edgeFields.dump edge)) := by
  rw [storedGraph_eq]
  cases graph.val.version <;> cases graph.val.runtime <;> simp [get_cons_ne]

theorem get_runtime (graph : ValidGraph) : (storedGraph lax graph).get "runtime" =
    (graph.val.runtime.map fun runtime => Json.str runtime.value).getD .null := by
  rw [storedGraph_eq]
  cases graph.val.version <;> cases graph.val.runtime <;> simp [get_cons_ne]

theorem get_version (graph : ValidGraph) : (storedGraph lax graph).get "version" =
    (graph.val.version.map fun n => Json.int n.val).getD .null := by
  rw [storedGraph_eq]
  cases graph.val.version <;> cases graph.val.runtime <;> simp [get_cons_ne]

/-- A stored object has the fields of its record only. -/
theorem dictOver?_dump {α : Type} {keys : List String} (f : Document.Fields Json keys α) (a : α) :
    dictOver? keys (.obj (f.dump a)) = some (f.dump a) := by
  rw [dictOver?_eq_some]
  exact ⟨rfl,fun field hfield => f.mem_keys hfield⟩

/-! ## The checks that are left -/

def teamNode (node : GraphNode) : Option TeamNode :=
  node.agentId.map fun agentId => ⟨node.id.val,node.label.val,agentId,node.instructions.map Subtype.val⟩

def teamEdge (edge : GraphEdge) : TeamEdge := ⟨edge.id.val,edge.source.val,edge.target.val⟩

/-- The first edge that breaks a rule decides the error. -/
def checkEdges (nodeIds : List String) : List String → List TeamEdge → Except TeamGraphError Unit
  | _, [] => .ok ()
  | edgeIds, edge :: rest => do
    check (invalidTeamGraph "Team edge IDs must be unique") (!edgeIds.contains edge.id)
    check (invalidTeamGraph "Team edge references a missing node")
      (nodeIds.contains edge.source && nodeIds.contains edge.target)
    check (invalidTeamGraph "Team graph cannot contain a self-cycle") (edge.source != edge.target)
    checkEdges nodeIds (edge.id :: edgeIds) rest

/-- A team graph as its workers and edges are given, or the first of its rules that is broken. -/
def checkTeam (maxWorkers : Nat) (graph : GraphDefinition) : Except TeamGraphError TeamGraph := do
  check (invalidTeamGraph "team-v1 requires graph version 2") (graph.runtime == some .teamV1)
  check (invalidTeamGraph "Team graph requires at least one worker") (!graph.nodes.val.isEmpty)
  check (workerLimitExceeded maxWorkers) (graph.nodes.val.length ≤ maxWorkers)
  let team : TeamGraph := ⟨graph.nodes.val.filterMap teamNode,graph.edges.val.map teamEdge⟩
  check (invalidTeamGraph "Team node IDs must be unique") (team.nodes.map TeamNode.id).Nodup
  checkEdges (team.nodes.map TeamNode.id) [] team.edges
  ensureDag team
  pure team

/-! ## The parser on stored graphs -/

theorem ne_empty {high : Nat} (text : BoundedText 1 high) : text.val ≠ "" := by
  intro h
  have hlen := text.property.1
  simp [h] at hlen

theorem agentRef?_dump (node : GraphNode) (h : node.type.val = "agent-ref") :
    agentRef? ((nodeFields lax).dump node) = some (node.id.val,node.label.val) := by
  rw [agentRef?_eq_some, dump_node]
  refine ⟨?_,?_,ne_empty node.id,?_⟩
  · simp [get_cons_ne, h]
  · simp
  · simp [get_cons_ne]

theorem instructions?_dump (node : GraphNode) :
    instructions? (JsonObject.get ((nodeFields lax).dump node) "instructions") = some (node.instructions.map Subtype.val) := by
  rw [get_instructions, instructions?_eq_some]
  cases h : node.instructions with
  | none => exact .none
  | some text => exact .some text.val text.property.2

theorem check_bind {α : Type} (error : TeamGraphError) (condition : Bool) (f : Unit → Except TeamGraphError α) :
    check error condition >>= f = if condition then f () else .error error := by
  cases condition <;> rfl

theorem orRaise_some_bind {α β : Type} (error : TeamGraphError) (a : α) (f : α → Except TeamGraphError β) :
    orRaise error (some a) >>= f = f a := rfl

theorem parseTeamNode_dump {node : GraphNode} {worker : TeamNode} (nodeIds : List String)
    (htype : node.type.val = "agent-ref") (hworker : teamNode node = some worker) :
    parseTeamNode lax.parseUuid nodeIds (.obj ((nodeFields lax).dump node)) =
      if worker.id ∈ nodeIds then .error (invalidTeamGraph "Team node IDs must be unique") else .ok worker := by
  obtain ⟨agentId,hagent,rfl⟩ := Option.map_eq_some_iff.mp hworker
  have hdict : dictOver? nodeKeys (.obj ((nodeFields lax).dump node)) = some ((nodeFields lax).dump node) :=
    dictOver?_dump (nodeFields lax) node
  have htext : (JsonObject.get ((nodeFields lax).dump node) "agent_id").str? = some (lax.uuidText agentId) := by
    rw [get_agent_id, hagent]
    rfl
  simp only [parseTeamNode, hdict, agentRef?_dump node htype, htext, instructions?_dump, lax.parseUuid_text,
    orRaise_some_bind, check_bind]
  by_cases hmem : node.id.val ∈ nodeIds <;> simp [hmem, pure, Except.pure]

/-- The identifiers are unique and none of them is taken. -/
theorem parseTeamNodes_dump {nodes : List GraphNode} {workers : List TeamNode} (nodeIds : List String)
    (htype : ∀ node ∈ nodes, node.type.val = "agent-ref") (hworkers : nodes.map teamNode = workers.map some) :
    parseTeamNodes lax.parseUuid nodeIds (nodes.map fun node => .obj ((nodeFields lax).dump node)) =
      if (workers.map TeamNode.id).Nodup ∧ ∀ worker ∈ workers, worker.id ∉ nodeIds then .ok workers
      else .error (invalidTeamGraph "Team node IDs must be unique") := by
  induction nodes generalizing nodeIds workers with
  | nil =>
    obtain rfl : workers = [] := by simpa using hworkers
    rfl
  | cons node nodes ih =>
    obtain _ | ⟨worker,workers⟩ := workers
    · cases hworkers
    obtain ⟨hworker,hrest⟩ := List.cons.inj hworkers
    have htail : ∀ node ∈ nodes, node.type.val = "agent-ref" := fun node hnode => htype node (List.mem_cons_of_mem _ hnode)
    have hcond := @nodup_keys_cons TeamNode TeamNode.id nodeIds worker workers
    rw [List.map_cons, parseTeamNodes, parseTeamNode_dump nodeIds (htype node List.mem_cons_self) hworker]
    by_cases hmem : worker.id ∈ nodeIds
    · rw [if_pos hmem, if_neg fun h => (hcond.mpr h).1 hmem]
      rfl
    · rw [if_neg hmem]
      change (parseTeamNodes lax.parseUuid (worker.id :: nodeIds) _ >>= fun rest => pure (worker :: rest)) = _
      rw [ih (worker.id :: nodeIds) htail hrest]
      by_cases hall : (workers.map TeamNode.id).Nodup ∧ ∀ w ∈ workers, w.id ∉ worker.id :: nodeIds
      · rw [if_pos hall, if_pos (hcond.mp ⟨hmem,hall⟩)]
        rfl
      · rw [if_neg hall, if_neg fun h => hall (hcond.mpr h).2]
        rfl

theorem parseTeamEdge_dump (nodeIds edgeIds : List String) (edge : GraphEdge) :
    parseTeamEdge nodeIds edgeIds (.obj (edgeFields.dump edge)) = (do
      check (invalidTeamGraph "Team edge IDs must be unique") (!edgeIds.contains edge.id.val)
      check (invalidTeamGraph "Team edge references a missing node")
        (nodeIds.contains edge.source.val && nodeIds.contains edge.target.val)
      check (invalidTeamGraph "Team graph cannot contain a self-cycle") (edge.source.val != edge.target.val)
      pure (teamEdge edge)) := by
  have hdict : dictOver? edgeKeys (.obj (edgeFields.dump edge)) = some (edgeFields.dump edge) :=
    dictOver?_dump edgeFields edge
  have hstrings : edgeStrings? (edgeFields.dump edge) = some (teamEdge edge) := by
    rw [edgeStrings?_eq_some, dump_edge]
    simp [get_cons_ne, teamEdge, ne_empty]
  simp only [parseTeamEdge, hdict, hstrings, orRaise_some_bind]
  rfl

theorem parseTeamEdges_dump (nodeIds edgeIds : List String) (edges : List GraphEdge) :
    parseTeamEdges nodeIds edgeIds (edges.map fun edge => .obj (edgeFields.dump edge)) =
      (checkEdges nodeIds edgeIds (edges.map teamEdge)).map fun _ => edges.map teamEdge := by
  induction edges generalizing edgeIds with
  | nil => rfl
  | cons edge edges ih =>
    rw [List.map_cons, parseTeamEdges, parseTeamEdge_dump, List.map_cons, checkEdges]
    simp only [check_bind]
    change _ = Except.map _ (if !edgeIds.contains edge.id.val then _ else _)
    split
    next =>
      change _ = Except.map _ (if nodeIds.contains edge.source.val && nodeIds.contains edge.target.val then _ else _)
      split
      next =>
        change _ = Except.map _ (if edge.source.val != edge.target.val then _ else _)
        split
        next =>
          change (parseTeamEdges nodeIds (edge.id.val :: edgeIds) _ >>= fun rest => pure (teamEdge edge :: rest)) = _
          rw [ih]
          change _ = Except.map _ (checkEdges nodeIds (edge.id.val :: edgeIds) (edges.map teamEdge))
          cases checkEdges nodeIds (edge.id.val :: edgeIds) (edges.map teamEdge) <;> rfl
        next => rfl
      next => rfl
    next => rfl

theorem team_shape {graph : GraphDefinition} (h : validateTeamShape graph = true) (hteam : graph.runtime = some .teamV1) :
    graph.versionNumber = some 2 ∧
      ∀ node ∈ graph.nodes.val, node.type.val = "agent-ref" ∧ node.agentId.isSome = true := by
  have hversion : graph.versionNumber = some 2 := by
    by_contra hne
    simp [validateTeamShape, hteam, hne] at h
  refine ⟨hversion,fun node hnode => ?_⟩
  by_contra hne
  have hany : (graph.nodes.val.any fun node => node.type.val != "agent-ref" || node.agentId.isNone) = true := by
    rw [List.any_eq_true]
    refine ⟨node,hnode,?_⟩
    by_contra hnot
    apply hne
    simpa [Option.isSome_iff_ne_none] using hnot
  simp only [validateTeamShape, hteam, hversion] at h
  simp [hany] at h

theorem isTeamV1_stored (graph : ValidGraph) :
    isTeamV1 (storedGraph lax graph) = (graph.val.runtime == some .teamV1) := by
  rw [isTeamV1, get_version, get_runtime]
  by_cases hteam : graph.val.runtime = some .teamV1
  · have hversion := (team_shape graph.property hteam).1
    cases hn : graph.val.version with
    | none => simp [GraphDefinition.versionNumber, hn] at hversion
    | some n =>
      have htwo : n.val = 2 := by simpa [GraphDefinition.versionNumber, hn] using hversion
      simp [hteam, htwo, Json.equalsInt, Json.equalsStr, GraphRuntime.value]
  · have hfalse : ((graph.val.runtime.map fun runtime => Json.str runtime.value).getD .null).equalsStr "team-v1" = false := by
      cases hr : graph.val.runtime with
      | none => rfl
      | some runtime =>
        cases runtime with
        | modelV1 => decide
        | lexiV1 => decide
        | teamV1 => exact absurd hr hteam
    rw [hfalse, Bool.and_false]
    exact (beq_eq_false_iff_ne.mpr hteam).symm

theorem map_teamNode {nodes : List GraphNode} (h : ∀ node ∈ nodes, node.agentId.isSome = true) :
    nodes.map teamNode = (nodes.filterMap teamNode).map some := by
  induction nodes with
  | nil => rfl
  | cons node nodes ih =>
    obtain ⟨u,hu⟩ := Option.isSome_iff_exists.mp (h node List.mem_cons_self)
    have hsome : teamNode node = some ⟨node.id.val,node.label.val,u,node.instructions.map Subtype.val⟩ := by
      rw [teamNode, hu, Option.map_some]
    rw [List.map_cons, List.filterMap_cons_some hsome, List.map_cons, hsome,
      ih fun node hnode => h node (List.mem_cons_of_mem _ hnode)]

/-- A graph that a request may have stored is rejected by the parser for its identifiers, its
size or its cycles only, and is otherwise parsed to the workers and edges it was given. -/
theorem parseTeamGraph_stored (lax : Lax) (maxWorkers : Nat) (graph : ValidGraph) :
    parseTeamGraph lax.parseUuid maxWorkers (storedGraph lax graph) = checkTeam maxWorkers graph.val := by
  have hkeys : (storedGraph lax graph).onlyKeys graphKeys = true :=
    JsonObject.onlyKeys_iff.mpr fun field hfield => (graphFields lax).mem_keys hfield
  have hlists : rawLists? (storedGraph lax graph) = some
      (graph.val.nodes.val.map fun node => .obj ((nodeFields lax).dump node),
        graph.val.edges.val.map fun edge => .obj (edgeFields.dump edge)) := by
    rw [rawLists?, get_nodes, get_edges]
    rfl
  have hedges : graph.val.edges.val.length ≤ 200 := graph.val.edges.property
  simp only [parseTeamGraph, checkTeam, hkeys, isTeamV1_stored, hlists, orRaise_some_bind, check_bind, if_true,
    List.isEmpty_map, List.length_map, hedges, decide_true]
  by_cases hteam : graph.val.runtime = some .teamV1
  · obtain ⟨-,hnodes⟩ := team_shape graph.property hteam
    have hworkers := map_teamNode fun node hnode => (hnodes node hnode).2
    rw [parseTeamNodes_dump [] (fun node hnode => (hnodes node hnode).1) hworkers]
    by_cases hnodup : ((graph.val.nodes.val.filterMap teamNode).map TeamNode.id).Nodup
    · simp [hnodup, bind, Except.bind, parseTeamEdges_dump]
      cases checkEdges (List.map TeamNode.id (List.filterMap teamNode graph.val.nodes.val)) [] (List.map teamEdge graph.val.edges.val) <;> rfl
    · simp [hnodup, bind, Except.bind]
  · have hne : (graph.val.runtime == some .teamV1) = false := beq_eq_false_iff_ne.mpr hteam
    simp [hne]

end AgentGraph.Api
