import AgentGraph.Domain.Entities
import AgentGraph.Foundation.Database

/-! # Agents and their graphs, statement by statement

`create_agent`, `update_agent_graph` and `delete_agent` as calls that share the database.
The last two hold the lock of their agent; the references of a team graph are read one
after the other, and the scan of `delete_agent` reads what parses under the limit of the
process.
-/
set_option autoImplicit false
namespace AgentGraph.Agents
open Database hiding Effect Ctl Label step Run

/-- What these calls read of an agent row. -/
structure AgentRow where
  id : AgentId
  graphDefinition : JsonObject

abbrev AgentDb := List AgentRow

/-- `orchestration_max_workers`. -/
structure MaxWorkers where
  value : ℕ
  positive : 0 < value
  bounded : value ≤ 20

/-- The process: its settings and the locks that are held. -/
structure AgentProcess where
  maxWorkers : MaxWorkers
  agentLocks : AgentId → Bool

/-- What a statement takes from `uuid4` and from the runs of the agent, and a restart from
the configuration. -/
structure AgentDraw where
  newId : AgentId
  hasActive : Bool
  maxWorkers : MaxWorkers

inductive AgentFailure
  | exc (e : Exc)
  | integrityError
  | staleData
  | invalidRequest
  /-- The await is cancelled, or the database gives up. -/
  | interrupted
deriving DecidableEq

inductive AgentReturn
  | agent (row : AgentRow)
  | none

abbrev AgentResult := Except AgentFailure AgentReturn

inductive AgentCall
  | createAgent (graphDefinition : JsonObject)
  | updateAgentGraph (agentId : AgentId) (graphDefinition : JsonObject)
  | deleteAgent (agentId : AgentId)

inductive AgentPc
  -- `create_agent`; a node whose record is read next, and the nodes after it
  | createCheck (node : TeamNode) (rest : List TeamNode)
  | createInsert
  | createRecheck (record : AgentRow) (node : TeamNode) (rest : List TeamNode)
  | createCommit (record : AgentRow)
  | createRefresh (record : AgentRow)
  -- `update_agent_graph`
  | updateLock
  | updateGet
  | updateCheck (node : TeamNode) (rest : List TeamNode)
  | updateFlush
  | updateCommit
  | updateRefresh
  -- `delete_agent`
  | deleteLock
  | deleteGet
  | deleteActive
  | deleteList
  | deleteFlush
  | deleteCommit
  | deleteClose

abbrev AgentEffect := Database.Effect AgentDb AgentProcess AgentPc AgentResult

namespace AgentDb

def get (db : AgentDb) (id : AgentId) : Option AgentRow := db.find? fun row => row.id == id

/-- `INSERT`; the identifier is the primary key. -/
def insert (db : AgentDb) (row : AgentRow) : Option AgentDb :=
  if db.any fun other => other.id == row.id then none else some (db ++ [row])

def updateGraph (db : AgentDb) (id : AgentId) (graphDefinition : JsonObject) : AgentDb :=
  db.map fun row => if row.id = id then { row with graphDefinition := graphDefinition } else row

def delete (db : AgentDb) (id : AgentId) : AgentDb := db.filter fun row => row.id != id

end AgentDb

namespace AgentProcess

def acquire (o : AgentProcess) (id : AgentId) : AgentProcess := { o with agentLocks := Function.update o.agentLocks id true }

def release (o : AgentProcess) (id : AgentId) : AgentProcess := { o with agentLocks := Function.update o.agentLocks id false }

end AgentProcess

namespace AgentEffect

def goto (pc : AgentPc) (o : AgentProcess) : AgentEffect := ⟨.at pc,.keep,o⟩

def write (db : AgentDb) (pc : AgentPc) (o : AgentProcess) : AgentEffect := ⟨.at pc,.write db,o⟩

def commit (pc : AgentPc) (o : AgentProcess) : AgentEffect := ⟨.at pc,.commit,o⟩

def raise (e : AgentFailure) (o : AgentProcess) : AgentEffect := ⟨.done (.error e),.keep,o⟩

/-- The statement has taken the lock of the database before the call raises. -/
def writeRaise (db : AgentDb) (e : AgentFailure) (o : AgentProcess) : AgentEffect := ⟨.done (.error e),.write db,o⟩

def ret (value : AgentReturn) (o : AgentProcess) : AgentEffect := ⟨.done (.ok value),.keep,o⟩

end AgentEffect

open AgentEffect

def isTeam (graph : JsonObject) : Bool := (graph.getD "runtime" (.str "model-v1")).equalsStr "team-v1"

/-- The nodes that `_validate_team_graph` goes through. -/
def teamNodes (parseUuid : String → Option AgentId) (maxWorkers : MaxWorkers) (graph : JsonObject) :
    Except AgentFailure (List TeamNode) :=
  if isTeam graph then
    match parseTeamGraph parseUuid maxWorkers.value graph with
    | .error error => .error (.exc error.orchestration)
    | .ok team => .ok team.nodes
  else .ok []

/-- The loop of `_validate_team_graph` up to the record it reads next. The record of the
node before, `held`, is still in the session and is not read again. -/
def nextNode (owner held : Option AgentId) : List TeamNode → Except AgentFailure (Option (TeamNode × List TeamNode))
  | [] => .ok none
  | node :: rest =>
    if owner = some node.agentId then
      .error (.exc (.orchestration "INVALID_TEAM_GRAPH" "A team cannot delegate to itself"))
    else if held = some node.agentId then nextNode owner held rest
    else .ok (some (node,rest))

/-- `_validate_team_graph` up to its first read. -/
def validateTeamGraph (parseUuid : String → Option AgentId) (o : AgentProcess) (graph : JsonObject) (owner : Option AgentId) :
    Except AgentFailure (Option (TeamNode × List TeamNode)) :=
  match teamNodes parseUuid o.maxWorkers graph with
  | .error e => .error e
  | .ok nodes => nextNode owner none nodes

/-- `_validate_team_graph` from the read of a record to the next one. -/
def resumeNode (db : AgentDb) (owner : Option AgentId) (node : TeamNode) (rest : List TeamNode) :
    Except AgentFailure (Option (TeamNode × List TeamNode)) :=
  match db.get node.agentId with
  | none => .error (.exc (.orchestration "MISSING_AGENT_REFERENCE" "Team graph references an unknown agent"))
  | some _ => nextNode owner (some node.agentId) rest

/-- `create_agent`, statement by statement. -/
def resumeCreate (parseUuid : String → Option AgentId) (o : AgentProcess) (db : AgentDb) (draw : AgentDraw)
    (graph : JsonObject) : AgentPc → Option AgentEffect
  | .createCheck node rest =>
    match resumeNode db none node rest with
    | .error e => some (raise e o)
    | .ok none => some (goto .createInsert o)
    | .ok (some (node,rest)) => some (goto (.createCheck node rest) o)
  | .createInsert =>
    let record : AgentRow := ⟨draw.newId,graph⟩
    match db.insert record with
    | none => some (writeRaise db .integrityError o)
    | some db =>
      match validateTeamGraph parseUuid o graph (some record.id) with
      | .error e => some (writeRaise db e o)
      | .ok none => some (write db (.createCommit record) o)
      | .ok (some (node,rest)) => some (write db (.createRecheck record node rest) o)
  | .createRecheck record node rest =>
    match resumeNode db (some record.id) node rest with
    | .error e => some (raise e o)
    | .ok none => some (goto (.createCommit record) o)
    | .ok (some (node,rest)) => some (goto (.createRecheck record node rest) o)
  | .createCommit record => some (commit (.createRefresh record) o)
  | .createRefresh record =>
    match db.get record.id with
    | none => some (raise .invalidRequest o)
    | some row => some (ret (.agent row) o)
  | _ => none

/-- `update_agent_graph`, statement by statement. -/
def resumeUpdate (parseUuid : String → Option AgentId) (o : AgentProcess) (db : AgentDb) (agentId : AgentId)
    (graph : JsonObject) : AgentPc → Option AgentEffect
  | .updateLock => if o.agentLocks agentId then none else some (goto .updateGet (o.acquire agentId))
  | .updateGet =>
    match db.get agentId with
    | none => some (raise (.exc .agentNotFound) (o.release agentId))
    | some _ =>
      match validateTeamGraph parseUuid o graph (some agentId) with
      | .error e => some (raise e (o.release agentId))
      | .ok none => some (goto .updateFlush o)
      | .ok (some (node,rest)) => some (goto (.updateCheck node rest) o)
  | .updateCheck node rest =>
    match resumeNode db (some agentId) node rest with
    | .error e => some (raise e (o.release agentId))
    | .ok none => some (goto .updateFlush o)
    | .ok (some (node,rest)) => some (goto (.updateCheck node rest) o)
  | .updateFlush =>
    match db.get agentId with
    | none => some (writeRaise db .staleData (o.release agentId))
    | some _ => some (write (db.updateGraph agentId graph) .updateCommit o)
  | .updateCommit => some (commit .updateRefresh o)
  | .updateRefresh =>
    match db.get agentId with
    | none => some (raise .invalidRequest (o.release agentId))
    | some row => some (ret (.agent row) (o.release agentId))
  | _ => none

/-- A graph of another agent that parses and names the agent. -/
def teamReferences (parseUuid : String → Option AgentId) (maxWorkers : MaxWorkers) (db : AgentDb) (agentId : AgentId) : Bool :=
  db.any fun candidate =>
    candidate.id != agentId &&
      match parseTeamGraph parseUuid maxWorkers.value candidate.graphDefinition with
      | .ok team => team.nodes.any fun node => node.agentId == agentId
      -- `except TeamGraphError: continue`
      | .error _ => false

/-- `delete_agent`, statement by statement. -/
def resumeDelete (parseUuid : String → Option AgentId) (o : AgentProcess) (db : AgentDb) (draw : AgentDraw)
    (agentId : AgentId) : AgentPc → Option AgentEffect
  | .deleteLock => if o.agentLocks agentId then none else some (goto .deleteGet (o.acquire agentId))
  | .deleteGet =>
    match db.get agentId with
    | none => some (raise (.exc .agentNotFound) (o.release agentId))
    | some _ => some (goto .deleteActive o)
  | .deleteActive =>
    if draw.hasActive then
      some (raise (.exc (.lifecycleConflict "An active run prevents deleting this agent")) (o.release agentId))
    else some (goto .deleteList o)
  | .deleteList =>
    if teamReferences parseUuid o.maxWorkers db agentId then
      some (raise (.exc (.lifecycleConflict "A team graph references this agent")) (o.release agentId))
    else some (goto .deleteFlush o)
  | .deleteFlush => some (write (db.delete agentId) .deleteCommit o)
  | .deleteCommit => some (commit .deleteClose o)
  | .deleteClose => some (ret .none (o.release agentId))
  | _ => none

def AgentCall.begin (parseUuid : String → Option AgentId) (o : AgentProcess) : AgentCall → Database.Ctl AgentPc AgentResult
  | .createAgent graph =>
    match validateTeamGraph parseUuid o graph none with
    | .error e => .done (.error e)
    | .ok none => .at .createInsert
    | .ok (some (node,rest)) => .at (.createCheck node rest)
  | .updateAgentGraph _ _ => .at .updateLock
  | .deleteAgent _ => .at .deleteLock

def AgentCall.resume (parseUuid : String → Option AgentId) (q : AgentCall) (o : AgentProcess) (db : AgentDb) (draw : AgentDraw)
    (pc : AgentPc) : Option AgentEffect :=
  match q with
  | .createAgent graph => resumeCreate parseUuid o db draw graph pc
  | .updateAgentGraph agentId graph => resumeUpdate parseUuid o db agentId graph pc
  | .deleteAgent agentId => resumeDelete parseUuid o db draw agentId pc

/-- The call waits for the lock of its agent. -/
def AgentPc.waits : AgentPc → Bool
  | .updateLock | .deleteLock => true
  | _ => false

/-- What the `async with` of the lock does when the await raises. -/
def AgentCall.leave (q : AgentCall) (o : AgentProcess) (pc : AgentPc) : AgentProcess :=
  match q with
  | .createAgent _ => o
  | .updateAgentGraph agentId _ | .deleteAgent agentId => if pc.waits then o else o.release agentId

/-- The agents, as calls on the database and the locks of the process. -/
def agents (parseUuid : String → Option AgentId) :
    Database.Program AgentDb AgentProcess AgentCall AgentDraw AgentPc AgentResult where
  begin := fun o q => q.begin parseUuid o
  resume := fun q o db draw pc => q.resume parseUuid o db draw pc
  abandon := fun q o pc => (q.leave o pc,.error .interrupted)
  restart := fun draw _ => ⟨draw.maxWorkers,fun _ => false⟩

end AgentGraph.Agents
