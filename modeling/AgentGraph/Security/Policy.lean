import AgentGraph.Security.Deadlines
import AgentGraph.Security.Service

/-! # Approvals, grants and lockdown, and the two authorization gates

`SecurityService` checks the permission of an operation in a transaction of its own,
which reads the lockdown state, and then runs the transaction that writes. The routes
of the runtime check theirs with `AuthorizationService`, without the database.
-/
set_option autoImplicit false
namespace AgentGraph.Security
open Transition

abbrev GrantId := Nat

inductive GrantStatus
  | active | consumed | revoked | expired
deriving DecidableEq, Repr

inductive LockdownState
  | normal | lockedDown
deriving DecidableEq, Repr

structure GrantRow (τ : Type) extends GrantRecord τ where
  id : GrantId
  status : GrantStatus
  revokedAt : Option τ

inductive AuditEvent
  | policyDenied (permission : Permission)
  | approvalCreated (approval : ApprovalId) (action : String)
  | approvalDecided (approval : ApprovalId) (decision : SecurityApprovalDecision) (result : String)
  | grantRevoked (grant : GrantId)
  | lockdownActivated
  | lockdownDeactivated
deriving DecidableEq

/-- The comparison `expires_at <= now`, and the deadline `now + timedelta(seconds)` as
the column gives it back. -/
structure Clock (τ : Type) where
  le? : τ → τ → Option Bool
  deadline : τ → ℤ → τ

/-- A store that keeps instants as they are. -/
def instantClock : Clock Instant := ⟨before?,fun now seconds => now + seconds⟩

structure PolicyDb (τ : Type) where
  approvals : ApprovalId → Option (ApprovalRecord τ)
  grants : List (GrantRow τ)
  state : Option LockdownState
  audit : List (UserId × AuditEvent)

structure ApprovalRequest where
  action : String
  target : Option String
  runId : Option String
  taskRef : Option String
  expiresInSeconds : ℤ

inductive PolicyOp
  | createApproval (request : ApprovalRequest)
  | decideApproval (approval : ApprovalId) (decision : SecurityApprovalDecision)
  | revokeGrant (grant : GrantId)
  | activateLockdown
  | deactivateLockdown

inductive PolicyReturn (τ : Type)
  | approval (record : ApprovalRecord τ) (grant : Option (GrantRow τ))
  | grant (row : GrantRow τ)
  | lockdown (state : LockdownState)

/-- The permission an operation requires, and whether it asks for a second factor. -/
def PolicyOp.permission : PolicyOp → Permission × Bool
  | .createApproval _ => (.execute,false)
  | .decideApproval _ _ | .revokeGrant _ => (.approve,false)
  | .activateLockdown | .deactivateLockdown => (.admin,true)

def lockdownActive : ServiceError := .securityAuthorization "Lockdown is active"

variable {τ : Type}

namespace PolicyDb

/-- `_state`: a missing row is created as normal. -/
def lockdown (db : PolicyDb τ) : LockdownState := db.state.getD .normal

def lockedDown (db : PolicyDb τ) : Bool := decide (db.lockdown = .lockedDown)

def note (db : PolicyDb τ) (p : SessionPrincipal) (event : AuditEvent) : PolicyDb τ :=
  { db with audit := db.audit ++ [(p.userId,event)] }

/-- `revoke_grant` of the repository, on every row that `select` picks. -/
def revoke (db : PolicyDb τ) (select : GrantRow τ → Bool) (now : τ) : PolicyDb τ :=
  { db with
    grants := db.grants.map fun row =>
      if select row then { row with status := .revoked, revokedAt := some now } else row }

def setApproval (db : PolicyDb τ) (a : ApprovalId) (record : Option (ApprovalRecord τ)) : PolicyDb τ :=
  { db with approvals := Function.update db.approvals a record }

def setLockdown (db : PolicyDb τ) (state : LockdownState) : PolicyDb τ := { db with state := some state }

def addGrant (db : PolicyDb τ) (row : GrantRow τ) : PolicyDb τ := { db with grants := db.grants ++ [row] }

/-- `require`, as a transaction; a denial under lockdown is audited. -/
def check (db : PolicyDb τ) (p : SessionPrincipal) (permission : Permission) (mfa : Bool) :
    Except ServiceError Unit × PolicyDb τ :=
  match require p permission mfa db.lockedDown with
  | .ok () => (.ok (),db)
  | .error e => (.error e,if e = lockdownActive then db.note p (.policyDenied permission) else db)

/-- `create_approval` after its check. -/
def createApproval (db : PolicyDb τ) (clock : Clock τ) (p : SessionPrincipal) (request : ApprovalRequest) (now : τ)
    (newId : Nat) : Except ServiceError (PolicyReturn τ) × PolicyDb τ :=
  if (db.approvals newId).isSome then (.error .integrityError,db)
  else
    let record : ApprovalRecord τ :=
      ⟨p.userId,request.action,request.target,request.runId,request.taskRef,"pending",
        clock.deadline now request.expiresInSeconds,none,none,none⟩
    (.ok (.approval record none),(db.setApproval newId (some record)).note p (.approvalCreated newId request.action))

/-- `decide_approval` after its check: an expired approval is closed and committed, and
any other error rolls the transaction back. -/
def decideApproval (db : PolicyDb τ) (clock : Clock τ) (p : SessionPrincipal) (approval : ApprovalId)
    (decision : SecurityApprovalDecision) (now : τ) (newId : Nat) :
    Except ServiceError (PolicyReturn τ) × PolicyDb τ :=
  match Security.decideApproval clock.le? approval (db.approvals approval) p.userId decision now with
  | (.error e,row) => (.error e,db.setApproval approval row)
  | (.ok (decided,issued),row) =>
    let event : AuditEvent := .approvalDecided approval decision decided.status
    match issued with
    | none => (.ok (.approval decided none),(db.setApproval approval row).note p event)
    | some issued =>
      if db.grants.any fun grant => grant.id == newId then (.error .integrityError,db)
      else
        let grant : GrantRow τ := { issued with id := newId, status := .active, revokedAt := none }
        (.ok (.approval decided (some grant)),((db.setApproval approval row).addGrant grant).note p event)

/-- `revoke_grant` after its check. -/
def revokeGrant (db : PolicyDb τ) (p : SessionPrincipal) (grant : GrantId) (now : τ) :
    Except ServiceError (PolicyReturn τ) × PolicyDb τ :=
  match db.grants.find? fun row => row.id == grant with
  | none => (.error .keyError,db)
  | some row =>
    if row.issuerUserId ≠ p.userId then (.error .keyError,db)
    else if row.status = .active then
      (.ok (.grant { row with status := .revoked, revokedAt := some now }),
        (db.revoke (fun row => row.id == grant) now).note p (.grantRevoked grant))
    else (.ok (.grant row),db)

/-- `activate_lockdown` after its check. -/
def activateLockdown (db : PolicyDb τ) (p : SessionPrincipal) (now : τ) :
    Except ServiceError (PolicyReturn τ) × PolicyDb τ :=
  match db.lockdown with
  | .normal =>
    (.ok (.lockdown .lockedDown),
      ((db.setLockdown .lockedDown).revoke (fun row => row.status == .active) now).note p .lockdownActivated)
  | .lockedDown => (.ok (.lockdown .lockedDown),db)

/-- `deactivate_lockdown` after its check. -/
def deactivateLockdown (db : PolicyDb τ) (p : SessionPrincipal) :
    Except ServiceError (PolicyReturn τ) × PolicyDb τ :=
  match db.lockdown with
  | .lockedDown => (.ok (.lockdown .normal),(db.setLockdown .normal).note p .lockdownDeactivated)
  | .normal => (.ok (.lockdown .normal),db)

/-- The transaction of an operation that has passed its check. -/
def transact (db : PolicyDb τ) (clock : Clock τ) (p : SessionPrincipal) (op : PolicyOp) (now : τ) (newId : Nat) :
    Except ServiceError (PolicyReturn τ) × PolicyDb τ :=
  match op with
  | .createApproval request => db.createApproval clock p request now newId
  | .decideApproval approval decision => db.decideApproval clock p approval decision now newId
  | .revokeGrant grant => db.revokeGrant p grant now
  | .activateLockdown => db.activateLockdown p now
  | .deactivateLockdown => db.deactivateLockdown p

end PolicyDb

/-! ## The gate of the runtime -/

/-- The principal that the middleware puts into the request. -/
structure Principal where
  identity : UserId
  permissions : List Permission

def requestPrincipal (p : SessionPrincipal) : Principal := ⟨p.userId,p.permissions⟩

inductive RuntimeError
  | authorization (message : String)
  | keyError
deriving DecidableEq

/-- `AuthorizationService.require`. -/
def Principal.require (p : Principal) (permission : Permission) : Except RuntimeError Unit :=
  if !p.permissions.contains permission && !p.permissions.contains .admin then
    .error (.authorization "Principal lacks required permission")
  else .ok ()

inductive RuntimeCommandType
  | createAgent | updateAgentGraph | startRun | pauseRun | resumeRun | stopRun | retryRun | submitApproval
  | rejectApproval | getStatus | getAgent | getRun | listRuns | getLogs | listProviders | listAgents | listProjects
  | getRunTree
deriving DecidableEq, Repr

/-- The table of `dispatch`; other commands have no entry. -/
def RuntimeCommandType.permission : RuntimeCommandType → Option Permission
  | createAgent | updateAgentGraph | startRun => some .execute
  | stopRun => some .control
  | getAgent | getRun | getRunTree | listRuns | listProviders | listAgents => some .read
  | pauseRun | resumeRun | retryRun | submitApproval | rejectApproval | getStatus | getLogs | listProjects => none

/-- The check at the top of `RemoteCommandService.dispatch`. -/
def RuntimeCommandType.authorize (command : RuntimeCommandType) (p : Principal) : Except RuntimeError Unit :=
  match command.permission with
  | none => .error .keyError
  | some permission => p.require permission

/-- The routes that check a permission with `AuthorizationService`. -/
inductive Route
  -- `api/remote.py`
  | system | listProjects | getProject | agents | createAgent | getAgent | updateAgentGraph | listAgentRuns | getRun
  | startRun | getRunTree | stopRun | providers | events | createApproval | approvals | approve | reject | eventSocket
  -- `api/nodes.py`, `api/recovery.py` and `api/tools.py`
  | listNodes | getNode | enableNode | disableNode | probeNode | getRecoveryReport | listToolInvocations
  -- `api/memory.py`
  | listMemory | createMemory | searchMemory | deleteMemory | runMemoryUsage
  -- `api/vision.py` and `api/lexi.py`
  | uploadAsset | listAssets | getAsset | deleteAsset | createAnalysis | listAnalyses | getAnalysis | listFolders
  | registerFolder | scanFolder | getLexi | bootstrapLexi
deriving DecidableEq, Repr

namespace Route

/-- The permission that `_principal` or `_authorize` checks. -/
def permission : Route → Permission
  | createAgent | updateAgentGraph | startRun | probeNode | createMemory | uploadAsset | createAnalysis
  | bootstrapLexi => .execute
  | stopRun | enableNode | disableNode | deleteMemory | deleteAsset | registerFolder | scanFolder => .control
  | createApproval | approve | reject => .approve
  | system | listProjects | getProject | agents | getAgent | listAgentRuns | getRun | getRunTree | providers | events
  | approvals | eventSocket | listNodes | getNode | getRecoveryReport | listToolInvocations | listMemory | searchMemory
  | runMemoryUsage | listAssets | getAsset | listAnalyses | getAnalysis | listFolders | getLexi => .read

/-- The command that the route dispatches. -/
def command : Route → Option RuntimeCommandType
  | agents => some .listAgents
  | createAgent => some .createAgent
  | getAgent => some .getAgent
  | updateAgentGraph => some .updateAgentGraph
  | listAgentRuns => some .listRuns
  | getRun => some .getRun
  | startRun => some .startRun
  | getRunTree => some .getRunTree
  | stopRun => some .stopRun
  | providers => some .listProviders
  | _ => none

/-- The checks a request passes before the route does its work. -/
def authorize (route : Route) (p : Principal) : Except RuntimeError Unit :=
  match p.require route.permission with
  | .error e => .error e
  | .ok () =>
    match route.command with
    | none => .ok ()
    | some command => command.authorize p

/-- A dispatched command asks for the permission its route has asked for. -/
theorem command_permission {route : Route} {command : RuntimeCommandType} (h : route.command = some command) :
    command.permission = some route.permission := by
  cases route <;> cases h <;> rfl

/-- The second check repeats the first. -/
theorem authorize_eq (route : Route) (p : Principal) : route.authorize p = p.require route.permission := by
  unfold authorize
  split
  next e he => exact he.symm
  next he =>
    split
    · exact he.symm
    next command hc => rw [RuntimeCommandType.authorize,command_permission hc]

end Route

/-! ## Histories -/

inductive Gate
  | runtime | security
deriving DecidableEq, Repr

/-- A command that a gate has let pass, and the committed lockdown state at that time. -/
structure Admission where
  gate : Gate
  permission : Permission
  lockdown : LockdownState
deriving DecidableEq, Repr

inductive PolicyStage (τ : Type)
  | checking
  | writing
  | done (result : Except ServiceError (PolicyReturn τ))

structure PolicyCall (τ : Type) where
  principal : SessionPrincipal
  op : PolicyOp
  stage : PolicyStage τ

structure Policy (τ : Type) where
  db : PolicyDb τ
  calls : Nat → Option (PolicyCall τ)
  count : Nat
  admitted : List Admission

inductive PolicyLabel (τ : Type)
  | call (p : SessionPrincipal) (op : PolicyOp)
  | check (i : Nat)
  | transact (i : Nat) (now : τ) (newId : Nat)
  /-- The operation is cancelled or a statement fails; its transaction is rolled back. -/
  | abort (i : Nat)
  | request (p : SessionPrincipal) (route : Route)

namespace Policy

def empty : Policy τ := ⟨⟨fun _ => none,[],none,[]⟩,fun _ => none,0,[]⟩

def setStage (s : Policy τ) (i : Nat) (call : PolicyCall τ) (stage : PolicyStage τ) : Policy τ :=
  { s with calls := Function.update s.calls i (some { call with stage := stage }) }

/-- A command of the given permission has passed a gate. -/
def letPass (s : Policy τ) (gate : Gate) (permission : Permission) : Policy τ :=
  { s with admitted := s.admitted ++ [⟨gate,permission,s.db.lockdown⟩] }

def step (clock : Clock τ) (l : PolicyLabel τ) (s : Policy τ) : Option (Policy τ) :=
  match l with
  | .call p op =>
    some { s with calls := Function.update s.calls s.count (some ⟨p,op,.checking⟩), count := s.count + 1 }
  | .check i =>
    match s.calls i with
    | some ⟨p,op,.checking⟩ =>
      match s.db.check p op.permission.1 op.permission.2 with
      | (.ok (),db) => some (({ s with db := db }.letPass .security op.permission.1).setStage i ⟨p,op,.checking⟩ .writing)
      | (.error e,db) => some ({ s with db := db }.setStage i ⟨p,op,.checking⟩ (.done (.error e)))
    | _ => none
  | .transact i now newId =>
    match s.calls i with
    | some ⟨p,op,.writing⟩ =>
      let (result,db) := s.db.transact clock p op now newId
      some ({ s with db := db }.setStage i ⟨p,op,.writing⟩ (.done result))
    | _ => none
  | .abort i =>
    match s.calls i with
    | some ⟨_,_,.done _⟩ | none => none
    | some call => some (s.setStage i call (.done (.error .operationalError)))
  | .request p route =>
    match route.authorize (requestPrincipal p) with
    | .ok () => some (s.letPass .runtime route.permission)
    | .error _ => some s

end Policy

end AgentGraph.Security
