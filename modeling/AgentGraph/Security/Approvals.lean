import AgentGraph.Foundation.Database
import AgentGraph.Security.Policy

/-! # Approvals, grants and lockdown, statement by statement

The operations of `Policy` without the assumption that a transaction is one step:
each row that an operation reads may be changed before its own update takes the lock.
-/
set_option autoImplicit false
namespace AgentGraph.Security

/-- What a statement takes from the clock and from `uuid4`. -/
structure Draw where
  now : Instant
  newId : Nat

structure ApprovalCall where
  principal : SessionPrincipal
  op : PolicyOp

inductive ApprovalPc
  -- `require`
  | policyState
  | policyCreate
  | policyClose
  | policyDenied
  | policyDeniedCommit
  -- `create_approval`
  | approvalInsert
  | approvalAudit (a : ApprovalId) (record : ApprovalRecord Instant)
  | approvalCommit (record : ApprovalRecord Instant)
  -- `decide_approval`
  | approvalRead
  | approvalExpire (now : Instant)
  | approvalExpireCommit
  | approvalUpdate (record : ApprovalRecord Instant) (now : Instant)
  | grantInsert (record : ApprovalRecord Instant)
  | decisionAudit (record : ApprovalRecord Instant) (grant : Option (GrantRow Instant))
  | decisionCommit (record : ApprovalRecord Instant) (grant : Option (GrantRow Instant))
  -- `revoke_grant`
  | grantRead
  | grantUpdate (row : GrantRow Instant) (now : Instant)
  | grantAudit (row : GrantRow Instant)
  | grantCommit (row : GrantRow Instant)
  -- `activate_lockdown` and `deactivate_lockdown`
  | stateRead
  | stateCreate
  | stateUpdate
  | grantsList
  | grantsRevoke (rest : List GrantId)
  | stateAudit
  | stateCommit

abbrev ApprovalResult := Except ServiceError (PolicyReturn Instant)

abbrev ApprovalEffect := Database.Effect (PolicyDb Instant) Unit ApprovalPc ApprovalResult

namespace ApprovalEffect

def goto (pc : ApprovalPc) : ApprovalEffect := ⟨.at pc,.keep,()⟩

def write (db : PolicyDb Instant) (pc : ApprovalPc) : ApprovalEffect := ⟨.at pc,.write db,()⟩

def raise (e : ServiceError) : ApprovalEffect := ⟨.done (.error e),.keep,()⟩

/-- The statement has taken the lock before the call raises. -/
def writeRaise (db : PolicyDb Instant) (e : ServiceError) : ApprovalEffect := ⟨.done (.error e),.write db,()⟩

def commit (result : ApprovalResult) : ApprovalEffect := ⟨.done result,.commit,()⟩

def return_ (value : PolicyReturn Instant) : ApprovalEffect := ⟨.done (.ok value),.keep,()⟩

end ApprovalEffect

open ApprovalEffect

/-- Where an operation starts that has passed its check. -/
def PolicyOp.start : PolicyOp → ApprovalPc
  | .createApproval _ => .approvalInsert
  | .decideApproval _ _ => .approvalRead
  | .revokeGrant _ => .grantRead
  | .activateLockdown | .deactivateLockdown => .stateRead

/-- `require`, up to its first statement. -/
def ApprovalCall.begin (q : ApprovalCall) : Database.Ctl ApprovalPc ApprovalResult :=
  match require q.principal q.op.permission.1 q.op.permission.2 false with
  | .error e => .done (.error e)
  | .ok () =>
    if [Permission.execute,.control,.approve].contains q.op.permission.1 then .at .policyState else .at q.op.start

/-- `SELECT` of the state row, and the `INSERT` of one that is missing. -/
def ApprovalCall.resumePolicy (q : ApprovalCall) (db : PolicyDb Instant) : ApprovalPc → Option ApprovalEffect
  | .policyState =>
    match db.state with
    | none => some (goto .policyCreate)
    | some .normal => some (goto q.op.start)
    | some .lockedDown => some (goto .policyDenied)
  | .policyCreate => some (if db.state.isSome then raise .integrityError else write (db.setLockdown .normal) .policyClose)
  -- the session is closed without a commit
  | .policyClose => some ⟨.at q.op.start,.rollback,()⟩
  | .policyDenied => some (write (db.note q.principal (.policyDenied q.op.permission.1)) .policyDeniedCommit)
  | .policyDeniedCommit => some (commit (.error lockdownActive))
  | _ => none

def ApprovalCall.resumeCreate (q : ApprovalCall) (db : PolicyDb Instant) (draw : Draw) (request : ApprovalRequest) :
    ApprovalPc → Option ApprovalEffect
  | .approvalInsert =>
    if (db.approvals draw.newId).isSome then some (raise .integrityError)
    else
      let record : ApprovalRecord Instant :=
        ⟨q.principal.userId,request.action,request.target,request.runId,request.taskRef,"pending",
          draw.now + request.expiresInSeconds,none,none,none⟩
      some (write (db.setApproval draw.newId (some record)) (.approvalAudit draw.newId record))
  | .approvalAudit a record =>
    some (write (db.note q.principal (.approvalCreated a request.action)) (.approvalCommit record))
  | .approvalCommit record => some (commit (.ok (.approval record none)))
  | _ => none

def SecurityApprovalDecision.status (decision : SecurityApprovalDecision) : String :=
  if decision = .reject then "rejected" else "approved"

/-- The row that `decide_approval` inserts. -/
def ApprovalRecord.grant (record : ApprovalRecord Instant) (issuer : UserId) (a : ApprovalId) : GrantRecord Instant :=
  ⟨issuer,record.requestedBy,record.action,record.target,record.runId,record.taskRef,record.expiresAt,a⟩

def ApprovalCall.resumeDecide (q : ApprovalCall) (db : PolicyDb Instant) (draw : Draw) (a : ApprovalId)
    (decision : SecurityApprovalDecision) : ApprovalPc → Option ApprovalEffect
  | .approvalRead =>
    match db.approvals a with
    | none => some (raise .keyError)
    | some record =>
      if record.expiresAt ≤ draw.now then some (goto (.approvalExpire draw.now))
      else some (goto (.approvalUpdate record draw.now))
  | .approvalExpire now =>
    some (write (db.setApproval a ((db.approvals a).map fun row => row.decide .reject q.principal.userId now "expired"))
      .approvalExpireCommit)
  | .approvalExpireCommit => some (commit (.error approvalExpired))
  | .approvalUpdate record now =>
    match db.approvals a with
    | some row =>
      if row.status = "pending" then
        let decided := db.setApproval a (some (row.decide decision q.principal.userId now decision.status))
        -- the identity map holds the row that was read, with the columns of the update
        let returned := record.decide decision q.principal.userId now decision.status
        if decision = .allowForTask then
          if record.taskRef = none then
            some (writeRaise decided (.securityConflict "Task-scoped approval requires a task"))
          else some (write decided (.grantInsert returned))
        else some (write decided (.decisionAudit returned none))
      else some (writeRaise db (.securityConflict "Approval is no longer pending"))
    | none => some (writeRaise db (.securityConflict "Approval is no longer pending"))
  | .grantInsert record =>
    if db.grants.any fun grant => grant.id == draw.newId then some (raise .integrityError)
    else
      let grant : GrantRow Instant :=
        { record.grant q.principal.userId a with id := draw.newId, status := .active, revokedAt := none }
      some (write (db.addGrant grant) (.decisionAudit record (some grant)))
  | .decisionAudit record grant =>
    some (write (db.note q.principal (.approvalDecided a decision decision.status)) (.decisionCommit record grant))
  | .decisionCommit record grant => some (commit (.ok (.approval record grant)))
  | _ => none

def ApprovalCall.resumeRevoke (q : ApprovalCall) (db : PolicyDb Instant) (draw : Draw) (grant : GrantId) :
    ApprovalPc → Option ApprovalEffect
  | .grantRead =>
    match db.grants.find? fun row => row.id == grant with
    | none => some (raise .keyError)
    | some row =>
      if row.issuerUserId ≠ q.principal.userId then some (raise .keyError)
      else if row.status = .active then some (goto (.grantUpdate row draw.now))
      else some (return_ (.grant row))
  | .grantUpdate row now =>
    some (write (db.revoke (fun row => row.id == grant) now)
      (.grantAudit { row with status := .revoked, revokedAt := some now }))
  | .grantAudit row => some (write (db.note q.principal (.grantRevoked grant)) (.grantCommit row))
  | .grantCommit row => some (commit (.ok (.grant row)))
  | _ => none

def nextRevoke : List GrantId → ApprovalPc
  | [] => .stateAudit
  | rest => .grantsRevoke rest

def ApprovalCall.resumeActivate (q : ApprovalCall) (db : PolicyDb Instant) (draw : Draw) :
    ApprovalPc → Option ApprovalEffect
  | .stateRead =>
    match db.state with
    | none => some (goto .stateCreate)
    | some .normal => some (goto .stateUpdate)
    | some .lockedDown => some (return_ (.lockdown .lockedDown))
  | .stateCreate => some (if db.state.isSome then raise .integrityError else write (db.setLockdown .normal) .stateUpdate)
  | .stateUpdate => some (write (db.setLockdown .lockedDown) .grantsList)
  | .grantsList => some (goto (nextRevoke ((db.grants.filter fun row => row.status == .active).map GrantRow.id)))
  | .grantsRevoke rest =>
    match rest with
    | [] => none
    | grant :: rest => some (write (db.revoke (fun row => row.id == grant) draw.now) (nextRevoke rest))
  | .stateAudit => some (write (db.note q.principal .lockdownActivated) .stateCommit)
  | .stateCommit => some (commit (.ok (.lockdown .lockedDown)))
  | _ => none

def ApprovalCall.resumeDeactivate (q : ApprovalCall) (db : PolicyDb Instant) : ApprovalPc → Option ApprovalEffect
  | .stateRead =>
    match db.state with
    | none => some (goto .stateCreate)
    | some .normal => some (return_ (.lockdown .normal))
    | some .lockedDown => some (goto .stateUpdate)
  -- a row that was missing is normal, and is not committed
  | .stateCreate =>
    some (if db.state.isSome then raise .integrityError else ⟨.done (.ok (.lockdown .normal)),.write (db.setLockdown .normal),()⟩)
  | .stateUpdate => some (write (db.setLockdown .normal) .stateAudit)
  | .stateAudit => some (write (db.note q.principal .lockdownDeactivated) .stateCommit)
  | .stateCommit => some (commit (.ok (.lockdown .normal)))
  | _ => none

/-- The operation after its check. -/
def ApprovalCall.resumeOp (q : ApprovalCall) (db : PolicyDb Instant) (draw : Draw) (pc : ApprovalPc) :
    Option ApprovalEffect :=
  match q.op with
  | .createApproval request => q.resumeCreate db draw request pc
  | .decideApproval a decision => q.resumeDecide db draw a decision pc
  | .revokeGrant grant => q.resumeRevoke db draw grant pc
  | .activateLockdown => q.resumeActivate db draw pc
  | .deactivateLockdown => q.resumeDeactivate db pc

def ApprovalCall.resume (q : ApprovalCall) (db : PolicyDb Instant) (draw : Draw) (pc : ApprovalPc) :
    Option ApprovalEffect :=
  match pc with
  | .policyState | .policyCreate | .policyClose | .policyDenied | .policyDeniedCommit => q.resumePolicy db pc
  | pc => q.resumeOp db draw pc

/-- `SecurityService` as calls on one database. -/
def approvals : Database.Program (PolicyDb Instant) Unit ApprovalCall Draw ApprovalPc ApprovalResult where
  begin := fun _ q => q.begin
  resume := fun q _ db draw pc => q.resume db draw pc
  abandon := fun _ _ _ => ((),.error .operationalError)
  restart := fun _ _ => ()

end AgentGraph.Security
