import AgentGraph.Domain.Coercions
import AgentGraph.Nodes.Registry

/-! # Protocol messages as documents

What a worker sends is one of `ClientMessage`, told apart by its `type`; what the core sends
is one of `ServerMessage`, a union without a discriminator. A value of a message class has
passed the validation of its fields, and each adapter reads what the other side writes.
-/
set_option autoImplicit false
namespace AgentGraph.Nodes.Protocol
open Document

/-! ## Fields -/

/-- A number between two bounds; NaN is between none. -/
def within (low high : ℚ) : JsonFloat → Bool
  | .finite q => decide (low ≤ q) && decide (q ≤ high)
  | _ => false

abbrev CpuCount := {n : ℤ // 0 ≤ n ∧ n ≤ 1024}
abbrev LoadAverage := {x : JsonFloat // within 0 10000 x = true}
abbrev MemoryBytes := {n : ℤ // 0 ≤ n}

structure ResourceSnapshot where
  cpuCount : CpuCount
  loadAverage : Option LoadAverage
  memoryTotalBytes : Option MemoryBytes
  memoryAvailableBytes : Option MemoryBytes
deriving DecidableEq

structure WorkerCapabilities where
  platform : BoundedText 1 120
  architecture : BoundedText 1 120
  agentgraphVersion : BoundedText 1 40
  features : {features : List String // features.length ≤ 20}
  resources : ResourceSnapshot
deriving DecidableEq

/-- `^[A-Za-z0-9_-]+$` between two lengths. -/
def isIdentifier (low high : Nat) (text : String) : Bool :=
  decide (low ≤ text.length) && decide (text.length ≤ high) &&
    text.toList.all fun c => c.isAlphanum || c == '_' || c == '-'

abbrev Identifier := {text : String // isIdentifier 8 100 text = true}
abbrev TimeoutSeconds := {x : JsonFloat // within 0 60 x = true ∧ x ≠ .finite 0}

/-! ## Message classes -/

structure WorkerHello where
  nodeId : Identifier
  nodeName : BoundedText 1 200
  capabilities : WorkerCapabilities
deriving DecidableEq

structure TaskResult where
  taskId : BoundedText 8 100
  result : JsonObject

structure TaskError where
  taskId : BoundedText 8 100
  code : BoundedText 1 80
  message : BoundedText 1 300
deriving DecidableEq

/-- `operation` is `Literal["system.probe"]`. -/
structure TaskRequest where
  taskId : Identifier
  timeoutSeconds : TimeoutSeconds
deriving DecidableEq

structure WorkerRegistered where
  nodeId : String
  status : NodeStatus
deriving DecidableEq

inductive ClientType
  | hello | heartbeat | capabilities | result | error | cancel
deriving DecidableEq

def ClientType.value : ClientType → String
  | .hello => "worker.hello"
  | .heartbeat => "worker.heartbeat"
  | .capabilities => "worker.capabilities"
  | .result => "task.result"
  | .error => "task.error"
  | .cancel => "task.cancel"

def ClientType.ofValue : String → Option ClientType
  | "worker.hello" => some .hello
  | "worker.heartbeat" => some .heartbeat
  | "worker.capabilities" => some .capabilities
  | "task.result" => some .result
  | "task.error" => some .error
  | "task.cancel" => some .cancel
  | _ => none

@[simp] theorem ClientType.ofValue_value (type : ClientType) : ofValue type.value = some type := by
  cases type <;> rfl

/-- What a message of the type carries beside the type and the version. -/
abbrev ClientType.Fields : ClientType → Type
  | .hello => WorkerHello
  | .heartbeat => ResourceSnapshot
  | .capabilities => WorkerCapabilities
  | .result => TaskResult
  | .error => TaskError
  | .cancel => BoundedText 8 100

abbrev ClientMessage := Σ type : ClientType, type.Fields

abbrev ServerMessage := WorkerRegistered ⊕ TaskRequest ⊕ BoundedText 8 100

/-! ## Their documents -/

section Codecs
variable (lax : Lax)

/-- A literal with the only value it can have. -/
def literalCodec (text : String) : Codec Json Unit where
  dump _ := .str text
  validate value := if value.equalsStr text then some () else none
  validate_dump := by simp [Json.equalsStr]

/-- `Literal[1]`. -/
def versionCodec : Codec Json Unit where
  dump _ := .int 1
  validate
    | .int n => if n = 1 then some () else none
    | _ => none
  validate_dump := by simp

def statusCodec : Codec Json NodeStatus where
  dump
    | .registered => .str "registered"
    | .online => .str "online"
    | .offline => .str "offline"
    | .disabled => .str "disabled"
  validate
    | .str "registered" => some .registered
    | .str "online" => some .online
    | .str "offline" => some .offline
    | .str "disabled" => some .disabled
    | _ => none
  validate_dump status := by cases status <;> rfl

/-- `dict[str, object]`. -/
def dictCodec : Codec Json JsonObject where
  dump := .obj
  validate := Json.dict?
  validate_dump _ := rfl

def identifierCodec (low high : Nat) : Codec Json {text : String // isIdentifier low high text = true} :=
  strCodec.refine fun text => isIdentifier low high text = true

/-- A field that may be null, and is by default. -/
def nullableField {α : Type} (key : String) (c : Codec Json α) (h : ∀ a, jsonFormat.isNull (c.dump a) = false) :
    Fields Json [key] (Option α) :=
  .defaulted key (c.nullable jsonFormat h) none

def resourceFields : Fields Json ["cpu_count","load_average","memory_total_bytes","memory_available_bytes"]
    ResourceSnapshot :=
  (((Fields.required "cpu_count" ((intCodec lax).refine fun n => 0 ≤ n ∧ n ≤ 1024)).pair
    (nullableField "load_average" ((floatCodec lax).refine fun x => within 0 10000 x = true) fun _ => rfl)).pair
    (nullableField "memory_total_bytes" ((intCodec lax).refine fun n => 0 ≤ n) fun _ => rfl)).pair
    (nullableField "memory_available_bytes" ((intCodec lax).refine fun n => 0 ≤ n) fun _ => rfl) |>.iso
    (fun p => ⟨p.1.1.1,p.1.1.2,p.1.2,p.2⟩)
    (fun r => (((r.cpuCount,r.loadAverage),r.memoryTotalBytes),r.memoryAvailableBytes)) fun _ => rfl

def resourceCodec : Codec Json ResourceSnapshot := (resourceFields lax).record jsonFormat

/-- The default of `features`. -/
def defaultFeatures : {features : List String // features.length ≤ 20} := ⟨["system.probe"],by decide⟩

def capabilityFields : Fields Json ["platform","architecture","agentgraph_version","features","resources"]
    WorkerCapabilities :=
  ((((Fields.required "platform" (textCodec 1 120)).pair (.required "architecture" (textCodec 1 120))).pair
    (.required "agentgraph_version" (textCodec 1 40))).pair
    (.defaulted "features" ((strCodec.list jsonFormat).refine fun features => features.length ≤ 20) defaultFeatures)).pair
    (.required "resources" (resourceCodec lax)) |>.iso
    (fun p => ⟨p.1.1.1.1,p.1.1.1.2,p.1.1.2,p.1.2,p.2⟩)
    (fun c => ((((c.platform,c.architecture),c.agentgraphVersion),c.features),c.resources)) fun _ => rfl

def capabilityCodec : Codec Json WorkerCapabilities := (capabilityFields lax).record jsonFormat

/-- A `ProtocolMessage`: its `type` and version come first, and have defaults. -/
def messageFields {keys : List String} {α : Type} (type : String) (f : Fields Json keys α)
    (h : ∀ key ∈ ["type"] ++ ["protocol_version"], key ∉ keys := by decide) :
    Fields Json ("type" :: "protocol_version" :: keys) α :=
  ((Fields.defaulted "type" (literalCodec type) ()).pair
    (.defaulted "protocol_version" versionCodec ())).pair f h |>.iso Prod.snd (fun a => (((),()),a)) fun _ => rfl

def helloFields : Fields Json ["type","protocol_version","node_id","node_name","capabilities"] WorkerHello :=
  messageFields "worker.hello"
    (((Fields.required "node_id" (identifierCodec 8 100)).pair (.required "node_name" (textCodec 1 200))).pair
      (.required "capabilities" (capabilityCodec lax)) |>.iso
      (fun p => ⟨p.1.1,p.1.2,p.2⟩) (fun m => ((m.nodeId,m.nodeName),m.capabilities)) fun _ => rfl)

def resultFields : Fields Json ["type","protocol_version","task_id","result"] TaskResult :=
  messageFields "task.result"
    ((Fields.required "task_id" (textCodec 8 100)).pair (.defaulted "result" dictCodec []) |>.iso
      (fun p => ⟨p.1,p.2⟩) (fun m => (m.taskId,m.result)) fun _ => rfl)

def errorFields : Fields Json ["type","protocol_version","task_id","code","message"] TaskError :=
  messageFields "task.error"
    (((Fields.required "task_id" (textCodec 8 100)).pair (.required "code" (textCodec 1 80))).pair
      (.required "message" (textCodec 1 300)) |>.iso
      (fun p => ⟨p.1.1,p.1.2,p.2⟩) (fun m => ((m.taskId,m.code),m.message)) fun _ => rfl)

def cancelFields : Fields Json ["type","protocol_version","task_id"] (BoundedText 8 100) :=
  messageFields "task.cancel" (.required "task_id" (textCodec 8 100))

def requestFields : Fields Json ["type","protocol_version","task_id","operation","timeout_seconds"] TaskRequest :=
  messageFields "task.request"
    (((Fields.required "task_id" (identifierCodec 8 100)).pair
      (.defaulted "operation" (literalCodec "system.probe") ())).pair
      (.required "timeout_seconds" ((floatCodec lax).refine fun x => within 0 60 x = true ∧ x ≠ .finite 0)) |>.iso
      (fun p => ⟨p.1.1,p.2⟩) (fun m => ((m.taskId,()),m.timeoutSeconds)) fun _ => rfl)

def registeredFields : Fields Json ["type","protocol_version","node_id","status"] WorkerRegistered :=
  messageFields "worker.registered"
    ((Fields.required "node_id" strCodec).pair (.required "status" statusCodec) |>.iso
      (fun p => ⟨p.1,p.2⟩) (fun m => (m.nodeId,m.status)) fun _ => rfl)

def clientCodec : ∀ type : ClientType, Codec Json type.Fields
  | .hello => (helloFields lax).record jsonFormat
  | .heartbeat => (messageFields "worker.heartbeat" (.required "resources" (resourceCodec lax))).record jsonFormat
  | .capabilities => (messageFields "worker.capabilities" (.required "capabilities" (capabilityCodec lax))).record jsonFormat
  | .result => resultFields.record jsonFormat
  | .error => errorFields.record jsonFormat
  | .cancel => cancelFields.record jsonFormat

/-- The discriminator of `ClientMessage`, which must be there. -/
def clientType (value : Json) : Option ClientType :=
  ((value.dict?.bind fun fields => fields.lookup "type").bind Json.str?).bind ClientType.ofValue

theorem clientType_dump (type : ClientType) (m : type.Fields) : clientType ((clientCodec lax type).dump m) = some type := by
  cases type <;> rfl

def clientMessageAdapter : Codec Json ClientMessage := .tagged clientType (clientCodec lax) (clientType_dump lax)

/-! ### A document is of one member of `ServerMessage` only -/

theorem messageFields_requires {keys : List String} {α : Type} {f : Fields Json keys α} {key : String} (hf : f.Requires key)
    (type : String) (h : ∀ key ∈ ["type"] ++ ["protocol_version"], key ∉ keys) : (messageFields type f h).Requires key :=
  .iso (.right hf h) fun _ => rfl

theorem requestFields_requires : (requestFields lax).Requires "timeout_seconds" :=
  messageFields_requires (.iso (.right (Fields.requires_required "timeout_seconds" _) (by decide)) fun _ => rfl) _ (by decide)

theorem registeredFields_requires : registeredFields.Requires "status" :=
  messageFields_requires (.iso (.right (Fields.requires_required "status" _) (by decide)) fun _ => rfl) _ (by decide)

theorem request_disjoint_cancel : ((requestFields lax).record jsonFormat).Disjoint (cancelFields.record jsonFormat) :=
  Fields.disjoint_record jsonFormat (requestFields_requires lax) (by decide)

theorem registered_disjoint {keys : List String} {α : Type} (f : Fields Json keys α) (h : "status" ∉ keys) :
    (registeredFields.record jsonFormat).Disjoint (f.record jsonFormat) :=
  Fields.disjoint_record jsonFormat registeredFields_requires h

def serverMessageAdapter : Codec Json ServerMessage :=
  (registeredFields.record jsonFormat).union
    (((requestFields lax).record jsonFormat).union (cancelFields.record jsonFormat) (request_disjoint_cancel lax))
    (Codec.disjoint_union (registered_disjoint _ (by decide)) (registered_disjoint _ (by decide)) _)

end Codecs

end AgentGraph.Nodes.Protocol
