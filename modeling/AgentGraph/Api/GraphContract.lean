import AgentGraph.Api.GraphParsing

/-! # The graph of an agent as the browser reads it

`graphSchema` of `contracts.ts` checks the stored graph of every agent that is fetched. It
counts the units of a text as JavaScript does, the validator of the server its characters.
-/
set_option autoImplicit false
namespace AgentGraph.Api
variable {lax : Lax}

/-- `text.length` in JavaScript. -/
def utf16Length (text : String) : Nat := (text.toList.map fun c => if c.toNat < 65536 then 1 else 2).sum

/-- `z.number()`, which rejects NaN. -/
def isNumber : Json → Bool
  | .int _ | .float (.finite _) | .float (.infinity _) => true
  | _ => false

/-- `z.string()`. -/
def isString (value : Json) : Bool := value.str?.isSome

/-- `z.string().max(high)`. -/
def isStringUpTo (high : Nat) (value : Json) : Bool := value.str?.any fun text => utf16Length text ≤ high

/-- `z.tuple([z.number(), z.number()])`. -/
def isPosition : Json → Bool
  | .arr [x,y] => isNumber x && isNumber y
  | _ => false

/-- `z.array(schema)`. -/
def isArrayOf (schema : Json → Bool) (value : Json) : Bool := value.list?.any fun items => items.all schema

/-- A key of `z.object`, where an `optional` one may be missing. -/
def isField (isOptional : Bool) (schema : Json → Bool) (key : String) (fields : JsonObject) : Bool :=
  match fields.lookup key with
  | none => isOptional
  | some value => schema value

def graphNodeSchema (value : Json) : Bool :=
  value.dict?.any fun fields =>
    isField false isString "id" fields && isField false isString "type" fields && isField false isString "label" fields &&
      isField false isPosition "position" fields && isField true isString "agent_id" fields &&
      isField true (isStringUpTo 4000) "instructions" fields

def graphEdgeSchema (value : Json) : Bool :=
  value.dict?.any fun fields =>
    isField false isString "id" fields && isField false isString "source" fields && isField false isString "target" fields

/-- `z.union([z.literal(1), z.literal(2)])`. -/
def isVersion : Json → Bool
  | .int n => n == 1 || n == 2
  | .float (.finite q) => q == 1 || q == 2
  | _ => false

/-- `z.enum(["model-v1", "lexi-v1", "team-v1"])`. -/
def isRuntime (value : Json) : Bool := value.str?.any fun text => ["model-v1","lexi-v1","team-v1"].contains text

def graphSchema (value : Json) : Bool :=
  value.dict?.any fun fields =>
    isField true isVersion "version" fields && isField true isRuntime "runtime" fields &&
      isField false (isArrayOf graphNodeSchema) "nodes" fields && isField false (isArrayOf graphEdgeSchema) "edges" fields

def JsonFloat.isFinite : JsonFloat → Bool
  | .finite _ => true
  | _ => false

/-- A response of the server can carry the graph, as JSON has finite numbers only. -/
def Transportable (graph : GraphDefinition) : Prop :=
  ∀ node ∈ graph.nodes.val, JsonFloat.isFinite node.position.1 = true ∧ JsonFloat.isFinite node.position.2 = true

instance (graph : GraphDefinition) : Decidable (Transportable graph) := by
  unfold Transportable
  infer_instance

theorem isNumber_float {x : JsonFloat} (h : JsonFloat.isFinite x = true) : isNumber (.float x) = true := by
  cases x with
  | finite q => rfl
  | nan => cases h
  | infinity negative => cases h

/-- The fields whose keys stand before and after others. -/
theorem isField_cons_self (isOptional : Bool) (schema : Json → Bool) (key : String) (value : Json) (rest : JsonObject) :
    isField isOptional schema key ((key,value) :: rest) = schema value := by
  simp [isField]

theorem isField_cons_ne (isOptional : Bool) (schema : Json → Bool) {key other : String} (h : key ≠ other) (value : Json)
    (rest : JsonObject) : isField isOptional schema key ((other,value) :: rest) = isField isOptional schema key rest := by
  have hne : (key == other) = false := by simpa using h
  simp [isField, List.lookup_cons, hne]

theorem isField_nil (isOptional : Bool) (schema : Json → Bool) (key : String) :
    isField isOptional schema key [] = isOptional := rfl

theorem graphNodeSchema_dump (node : GraphNode) (hx : JsonFloat.isFinite node.position.1 = true)
    (hy : JsonFloat.isFinite node.position.2 = true) : graphNodeSchema (.obj ((nodeFields lax).dump node)) = true ↔
      ∀ text ∈ node.instructions, utf16Length text.val ≤ 4000 := by
  rw [dump_node]
  cases node.agentId <;> cases node.instructions <;>
    simp [graphNodeSchema, isField_cons_self, isField_cons_ne, isField_nil, Json.dict?, Json.str?, isString, isStringUpTo,
      isPosition, isNumber_float hx, isNumber_float hy]

theorem graphEdgeSchema_dump (edge : GraphEdge) : graphEdgeSchema (.obj (edgeFields.dump edge)) = true := by
  rw [dump_edge]
  simp [graphEdgeSchema, isField_cons_self, isField_cons_ne, Json.dict?, Json.str?, isString]

theorem isVersion_int (n : {n : ℤ // 1 ≤ n ∧ n ≤ 2}) : isVersion (.int n.val) = true := by
  have hn : n.val = 1 ∨ n.val = 2 := by
    have h := n.property
    omega
  simpa [isVersion] using hn

theorem isRuntime_value (runtime : GraphRuntime) : isRuntime (.str runtime.value) = true := by
  cases runtime <;> decide

theorem isField_version (graph : ValidGraph) : isField true isVersion "version" (storedGraph lax graph) = true := by
  rw [storedGraph_eq]
  cases graph.val.version <;> cases graph.val.runtime <;>
    simp [isField_cons_self, isField_cons_ne, isField_nil, isVersion_int]

theorem isField_runtime (graph : ValidGraph) : isField true isRuntime "runtime" (storedGraph lax graph) = true := by
  rw [storedGraph_eq]
  cases graph.val.version <;> cases graph.val.runtime <;>
    simp [isField_cons_self, isField_cons_ne, isField_nil, isRuntime_value]

theorem isField_nodes (schema : Json → Bool) (graph : ValidGraph) : isField false schema "nodes" (storedGraph lax graph) =
    schema (.arr (graph.val.nodes.val.map fun node => .obj ((nodeFields lax).dump node))) := by
  rw [storedGraph_eq]
  cases graph.val.version <;> cases graph.val.runtime <;> simp [isField_cons_self, isField_cons_ne]

theorem isField_edges (schema : Json → Bool) (graph : ValidGraph) : isField false schema "edges" (storedGraph lax graph) =
    schema (.arr (graph.val.edges.val.map fun edge => .obj (edgeFields.dump edge))) := by
  rw [storedGraph_eq]
  cases graph.val.version <;> cases graph.val.runtime <;> simp [isField_cons_self, isField_cons_ne]

theorem isArrayOf_map {α : Type} (schema : Json → Bool) (f : α → Json) (items : List α) :
    isArrayOf schema (.arr (items.map f)) = true ↔ ∀ item ∈ items, schema (f item) = true := by
  simp [isArrayOf, Json.list?]

/-- The browser reads the graph of an agent exactly if no instructions of a worker are longer
than 4000 units of JavaScript, whatever the server has checked. -/
theorem graphSchema_stored_iff (lax : Lax) (graph : ValidGraph) (hfinite : Transportable graph.val) :
    graphSchema (.obj (storedGraph lax graph)) = true ↔
      ∀ node ∈ graph.val.nodes.val, ∀ text ∈ node.instructions, utf16Length text.val ≤ 4000 := by
  have hnodes : isField false (isArrayOf graphNodeSchema) "nodes" (storedGraph lax graph) = true ↔
      ∀ node ∈ graph.val.nodes.val, ∀ text ∈ node.instructions, utf16Length text.val ≤ 4000 := by
    rw [isField_nodes, isArrayOf_map]
    exact forall₂_congr fun node hnode => graphNodeSchema_dump node (hfinite node hnode).1 (hfinite node hnode).2
  have hedges : isField false (isArrayOf graphEdgeSchema) "edges" (storedGraph lax graph) = true := by
    rw [isField_edges, isArrayOf_map]
    exact fun edge _ => graphEdgeSchema_dump edge
  simp only [graphSchema, Json.dict?, Option.any_some, isField_version, isField_runtime, hedges, Bool.and_true, Bool.true_and, hnodes]

def sampleTeam : ValidGraph :=
  ⟨⟨some ⟨2,by decide⟩,some .teamV1,
    ⟨[⟨⟨"a",by decide⟩,⟨"agent-ref",by decide⟩,⟨"A",by decide⟩,(.finite 0,.finite 1),some 1,some ⟨"Look.",by decide⟩⟩],by decide⟩,
    ⟨[],by decide⟩⟩,by decide⟩

theorem graphSchema_stored_sample : graphSchema (.obj (storedGraph plainLax sampleTeam)) = true :=
  (graphSchema_stored_iff plainLax sampleTeam (by decide)).mpr (by decide)

end AgentGraph.Api
