import AgentGraph.Domain.Json

/-! # Team graphs and their parser

`parse_team_graph` turns a stored graph definition into a `TeamGraph` or raises a
`TeamGraphError`. Its node and edge loops carry the identifiers seen so far, and
`_ensure_dag` is a depth-first search with a set of nodes in progress and a set of
finished ones. The UUID syntax is a parameter.
-/
set_option autoImplicit false
namespace AgentGraph

/-- Agents are named by UUIDs; only their equality matters. -/
abbrev AgentId := Nat

structure TeamGraphError where
  code : String
  message : String
deriving DecidableEq, Repr

structure TeamNode where
  id : String
  label : String
  agentId : AgentId
  instructions : Option String
deriving DecidableEq, Repr

structure TeamEdge where
  id : String
  source : String
  target : String
deriving DecidableEq, Repr

structure TeamGraph where
  nodes : List TeamNode
  edges : List TeamEdge
deriving DecidableEq, Repr

namespace TeamGraph

def predecessors (graph : TeamGraph) (nodeId : String) : List String :=
  (graph.edges.filter fun edge => edge.target == nodeId).map TeamEdge.source

def successors (graph : TeamGraph) (nodeId : String) : List String :=
  (graph.edges.filter fun edge => edge.source == nodeId).map TeamEdge.target

/-- The edge relation between node identifiers. -/
def Edge (graph : TeamGraph) (a b : String) : Prop := b ∈ graph.successors a

theorem mem_successors {graph : TeamGraph} {a b : String} :
    b ∈ graph.successors a ↔ ∃ edge ∈ graph.edges, edge.source = a ∧ edge.target = b := by
  simp [successors, and_assoc]

theorem mem_predecessors {graph : TeamGraph} {a b : String} :
    a ∈ graph.predecessors b ↔ ∃ edge ∈ graph.edges, edge.source = a ∧ edge.target = b := by
  simp only [predecessors, List.mem_map, List.mem_filter, beq_iff_eq]
  constructor
  · rintro ⟨edge,⟨he,ht⟩,hs⟩
    exact ⟨edge,he,hs,ht⟩
  · rintro ⟨edge,he,hs,ht⟩
    exact ⟨edge,⟨he,ht⟩,hs⟩

/-- Predecessors and successors read the same edges. -/
theorem mem_predecessors_iff_edge {graph : TeamGraph} {a b : String} :
    a ∈ graph.predecessors b ↔ graph.Edge a b := by
  rw [mem_predecessors, Edge, mem_successors]

end TeamGraph

def invalidTeamGraph (message : String) : TeamGraphError := ⟨"INVALID_TEAM_GRAPH",message⟩

def workerLimitExceeded (maxWorkers : Nat) : TeamGraphError :=
  ⟨"WORKER_LIMIT_EXCEEDED",s!"Team graph supports at most {maxWorkers} workers"⟩

/-- `if value is missing: raise error`. -/
def orRaise {α : Type} (error : TeamGraphError) : Option α → Except TeamGraphError α
  | some a => .ok a
  | none => .error error

/-- `if not condition: raise error`. -/
def check (error : TeamGraphError) (condition : Bool) : Except TeamGraphError Unit :=
  if condition then .ok () else .error error

@[simp] theorem orRaise_eq_ok {α : Type} {error : TeamGraphError} {o : Option α} {a : α} :
    orRaise error o = .ok a ↔ o = some a := by
  cases o <;> simp [orRaise]

@[simp] theorem check_eq_ok {error : TeamGraphError} {condition : Bool} {u : Unit} :
    check error condition = .ok u ↔ condition = true := by
  cases condition <;> simp [check]

@[simp] theorem except_bind_eq_ok {ε α β : Type} {x : Except ε α} {f : α → Except ε β} {b : β} :
    x >>= f = .ok b ↔ ∃ a, x = .ok a ∧ f a = .ok b := by
  cases x <;> simp [bind, Except.bind]

/-- A dict with no key outside `allowed`. -/
def dictOver? (allowed : List String) (raw : Json) : Option JsonObject :=
  raw.dict?.bind fun fields => if fields.onlyKeys allowed then some fields else none

/-- The identifier and label of an `agent-ref` node. -/
def agentRef? (fields : JsonObject) : Option (String × String) :=
  if (fields.get "type").equalsStr "agent-ref" then
    (fields.get "id").nonemptyStr?.bind fun nodeId =>
      (fields.get "label").str?.map fun label => (nodeId,label)
  else none

/-- Absent, null or a string of at most 4000 characters. -/
def instructions? : Json → Option (Option String)
  | .null => some none
  | .str text => if text.length ≤ 4000 then some (some text) else none
  | _ => none

def nodeKeys : List String := ["id","type","label","position","agent_id","instructions"]
def edgeKeys : List String := ["id","source","target"]
def graphKeys : List String := ["version","runtime","nodes","edges"]

/-- One turn of the node loop, with the node identifiers already taken. -/
def parseTeamNode (parseUuid : String → Option AgentId) (nodeIds : List String) (raw : Json) :
    Except TeamGraphError TeamNode := do
  let fields ← orRaise (invalidTeamGraph "Team node contains unsupported fields") (dictOver? nodeKeys raw)
  let header ← orRaise (invalidTeamGraph "Team nodes must be agent-ref nodes") (agentRef? fields)
  check (invalidTeamGraph "Team node IDs must be unique") (!nodeIds.contains header.1)
  let agentText ← orRaise (invalidTeamGraph "agent-ref requires an agent_id") (fields.get "agent_id").str?
  let instructions ← orRaise (invalidTeamGraph "Node instructions exceed the allowed size")
    (instructions? (fields.get "instructions"))
  let agentId ← orRaise (invalidTeamGraph "agent-ref agent_id must be a UUID") (parseUuid agentText)
  pure ⟨header.1,header.2,agentId,instructions⟩

def parseTeamNodes (parseUuid : String → Option AgentId) :
    List String → List Json → Except TeamGraphError (List TeamNode)
  | _, [] => .ok []
  | nodeIds, raw :: rest => do
    let node ← parseTeamNode parseUuid nodeIds raw
    let nodes ← parseTeamNodes parseUuid (node.id :: nodeIds) rest
    pure (node :: nodes)

/-- The three required strings of an edge. -/
def edgeStrings? (fields : JsonObject) : Option TeamEdge :=
  (fields.get "id").nonemptyStr?.bind fun edgeId =>
    (fields.get "source").nonemptyStr?.bind fun source =>
      (fields.get "target").nonemptyStr?.map fun target => ⟨edgeId,source,target⟩

/-- One turn of the edge loop, with the edge identifiers already taken. -/
def parseTeamEdge (nodeIds edgeIds : List String) (raw : Json) : Except TeamGraphError TeamEdge := do
  let fields ← orRaise (invalidTeamGraph "Team edge contains unsupported fields") (dictOver? edgeKeys raw)
  let edge ← orRaise (invalidTeamGraph "Team edges require ID, source, and target") (edgeStrings? fields)
  check (invalidTeamGraph "Team edge IDs must be unique") (!edgeIds.contains edge.id)
  check (invalidTeamGraph "Team edge references a missing node")
    (nodeIds.contains edge.source && nodeIds.contains edge.target)
  check (invalidTeamGraph "Team graph cannot contain a self-cycle") (edge.source != edge.target)
  pure edge

def parseTeamEdges (nodeIds : List String) :
    List String → List Json → Except TeamGraphError (List TeamEdge)
  | _, [] => .ok []
  | edgeIds, raw :: rest => do
    let edge ← parseTeamEdge nodeIds edgeIds raw
    let edges ← parseTeamEdges nodeIds (edge.id :: edgeIds) rest
    pure (edge :: edges)

/-- The two sets of `_ensure_dag`. -/
structure DagSearch where
  visiting : List String
  visited : List String

/-- `visit` of `_ensure_dag`. The fuel bounds the nesting of calls: every nested
call happens with one more node in `visiting`. -/
def visit (graph : TeamGraph) : Nat → String → DagSearch → Except TeamGraphError DagSearch
  | 0, _, _ => .error (invalidTeamGraph "Team graph must be a DAG")
  | fuel + 1, nodeId, search =>
    if search.visiting.contains nodeId then .error (invalidTeamGraph "Team graph must be a DAG")
    else if search.visited.contains nodeId then .ok search
    else do
      let search ← (graph.successors nodeId).foldlM (fun search successor => visit graph fuel successor search)
        ⟨nodeId :: search.visiting,search.visited⟩
      pure ⟨search.visiting.erase nodeId,nodeId :: search.visited⟩

def ensureDag (graph : TeamGraph) : Except TeamGraphError Unit := do
  let _ ← graph.nodes.foldlM (fun search node => visit graph (graph.nodes.length + 1) node.id search) ⟨[],[]⟩
  pure ()

/-- `version == 2 and runtime == "team-v1"`. -/
def isTeamV1 (graph : JsonObject) : Bool :=
  (graph.get "version").equalsInt 2 && (graph.get "runtime").equalsStr "team-v1"

/-- The raw node and edge lists. -/
def rawLists? (graph : JsonObject) : Option (List Json × List Json) :=
  (graph.get "nodes").list?.bind fun nodes => (graph.get "edges").list?.map fun edges => (nodes,edges)

def parseTeamGraph (parseUuid : String → Option AgentId) (maxWorkers : Nat) (graph : JsonObject) :
    Except TeamGraphError TeamGraph := do
  check (invalidTeamGraph "Team graph contains unsupported fields") (graph.onlyKeys graphKeys)
  check (invalidTeamGraph "team-v1 requires graph version 2") (isTeamV1 graph)
  let raw ← orRaise (invalidTeamGraph "Team graph nodes and edges must be lists") (rawLists? graph)
  check (invalidTeamGraph "Team graph requires at least one worker") (!raw.1.isEmpty)
  check (workerLimitExceeded maxWorkers) (raw.1.length ≤ maxWorkers)
  check (invalidTeamGraph "Team graph has too many edges") (raw.2.length ≤ 200)
  let nodes ← parseTeamNodes parseUuid [] raw.1
  let edges ← parseTeamEdges (nodes.map TeamNode.id) [] raw.2
  ensureDag ⟨nodes,edges⟩
  pure ⟨nodes,edges⟩

end AgentGraph
