import AgentGraph.Domain.Coercions

/-! # The graph definition of a request

`GraphDefinition` validates the body of a route that creates an agent or changes its graph.
The route stores `model_dump(mode="json", exclude_none=True)` of it, and returns the stored
document with the agent.
-/
set_option autoImplicit false
namespace AgentGraph.Api
open Document

inductive GraphRuntime
  | modelV1 | lexiV1 | teamV1
deriving DecidableEq, Repr

def GraphRuntime.value : GraphRuntime → String
  | .modelV1 => "model-v1"
  | .lexiV1 => "lexi-v1"
  | .teamV1 => "team-v1"

/-- `Literal["model-v1", "lexi-v1", "team-v1"]`. -/
def runtimeCodec : Codec Json GraphRuntime where
  dump runtime := .str runtime.value
  validate
    | .str "model-v1" => some .modelV1
    | .str "lexi-v1" => some .lexiV1
    | .str "team-v1" => some .teamV1
    | _ => none
  validate_dump runtime := by cases runtime <;> rfl

structure GraphNode where
  id : BoundedText 1 100
  type : BoundedText 1 50
  label : BoundedText 1 200
  position : JsonFloat × JsonFloat
  agentId : Option AgentId
  instructions : Option (BoundedText 0 4000)
deriving DecidableEq

structure GraphEdge where
  id : BoundedText 1 100
  source : BoundedText 1 100
  target : BoundedText 1 100
deriving DecidableEq

structure GraphDefinition where
  version : Option {n : ℤ // 1 ≤ n ∧ n ≤ 2}
  runtime : Option GraphRuntime
  nodes : {nodes : List GraphNode // nodes.length ≤ 100}
  edges : {edges : List GraphEdge // edges.length ≤ 200}
deriving DecidableEq

def GraphNode.keys : List String := ["id","type","label","position","agent_id","instructions"]
def GraphEdge.keys : List String := ["id","source","target"]
def GraphDefinition.keys : List String := ["version","runtime","nodes","edges"]

def nodeFields (lax : Lax) : Fields Json GraphNode.keys GraphNode :=
  (((((Fields.required "id" (textCodec 1 100)).pair (.defaulted "type" (textCodec 1 50) ⟨"agent",by decide⟩)).pair
    (.required "label" (textCodec 1 200))).pair (.required "position" ((floatCodec lax).pair jsonFormat (floatCodec lax)))).pair
    (.optional jsonFormat "agent_id" (uuidCodec lax) fun _ => rfl)).pair
    (.optional jsonFormat "instructions" (textCodec 0 4000) fun _ => rfl) |>.iso
    (fun p => ⟨p.1.1.1.1.1,p.1.1.1.1.2,p.1.1.1.2,p.1.1.2,p.1.2,p.2⟩)
    (fun node => (((((node.id,node.type),node.label),node.position),node.agentId),node.instructions)) fun _ => rfl

def edgeFields : Fields Json GraphEdge.keys GraphEdge :=
  ((Fields.required "id" (textCodec 1 100)).pair (.required "source" (textCodec 1 100))).pair
    (.required "target" (textCodec 1 100)) |>.iso
    (fun p => ⟨p.1.1,p.1.2,p.2⟩) (fun edge => ((edge.id,edge.source),edge.target)) fun _ => rfl

/-- A list field with a greatest length that is empty by default. -/
def listField {α : Type} (key : String) (high : Nat) (c : Codec Json α) :
    Fields Json [key] {items : List α // items.length ≤ high} :=
  .defaulted key ((c.list jsonFormat).refine fun items => items.length ≤ high) ⟨[],Nat.zero_le high⟩

def graphFields (lax : Lax) : Fields Json GraphDefinition.keys GraphDefinition :=
  (((Fields.optional jsonFormat "version" ((intCodec lax).refine fun n => 1 ≤ n ∧ n ≤ 2) fun _ => rfl).pair
    (.optional jsonFormat "runtime" runtimeCodec fun _ => rfl)).pair
    (listField "nodes" 100 ((nodeFields lax).record jsonFormat))).pair
    (listField "edges" 200 (edgeFields.record jsonFormat)) |>.iso
    (fun p => ⟨p.1.1.1,p.1.1.2,p.1.2,p.2⟩)
    (fun graph => (((graph.version,graph.runtime),graph.nodes),graph.edges)) fun _ => rfl

def GraphDefinition.versionNumber (graph : GraphDefinition) : Option ℤ := graph.version.map Subtype.val

/-- `validate_team_shape`. -/
def validateTeamShape (graph : GraphDefinition) : Bool :=
  if graph.runtime = some .teamV1 ∧ graph.versionNumber ≠ some 2 then false
  else if graph.versionNumber = some 2 ∧ graph.runtime ≠ some .teamV1 then false
  else if graph.runtime = some .teamV1 ∧
      (graph.nodes.val.any fun node => node.type.val != "agent-ref" || node.agentId.isNone) = true then false
  else true

abbrev ValidGraph := {graph : GraphDefinition // validateTeamShape graph = true}

def graphCodec (lax : Lax) : Codec Json ValidGraph :=
  ((graphFields lax).record jsonFormat).refine fun graph => validateTeamShape graph = true

/-- The dict that a route hands on to be stored. -/
def storedGraph (lax : Lax) (graph : ValidGraph) : JsonObject := (graphFields lax).dump graph.val

/-- What a request with this body stores, if it is accepted. -/
def storeGraph (lax : Lax) (body : Json) : Option Json :=
  ((graphCodec lax).validate body).map fun graph => .obj (storedGraph lax graph)

theorem graphCodec_dump (lax : Lax) (graph : ValidGraph) : (graphCodec lax).dump graph = .obj (storedGraph lax graph) :=
  rfl

/-- A graph that was read back from where it was stored is accepted, and stored as it was. -/
theorem storeGraph_stable (lax : Lax) (body stored : Json) (h : storeGraph lax body = some stored) :
    storeGraph lax stored = some stored := by
  obtain ⟨graph,-,rfl⟩ := Option.map_eq_some_iff.mp h
  rw [← graphCodec_dump, storeGraph, (graphCodec lax).validate_dump]
  rfl

/-- Fields out of order, an integer position and a default that is filled in. -/
def sampleBody : Json :=
  .obj [("nodes",.arr [.obj [("label",.str "A"),("id",.str "a"),("position",.arr [.int 0,.int 1])]]),("runtime",.str "model-v1")]

def sampleStored : Json :=
  .obj [("runtime",.str "model-v1"),
    ("nodes",.arr [.obj [("id",.str "a"),("type",.str "agent"),("label",.str "A"),
      ("position",.arr [.float (.finite 0),.float (.finite 1)])]]),
    ("edges",.arr [])]

theorem storeGraph_stable_sample : storeGraph plainLax sampleStored = some sampleStored :=
  storeGraph_stable plainLax sampleBody sampleStored rfl

end AgentGraph.Api
