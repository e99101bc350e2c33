import AgentGraph.Security.Bootstrap
import AgentGraph.Security.Policy

/-! # The operations of the security services, one transaction each

`AuthService`, `SecurityService` and `VaultService` on the whole of the security tables. An
operation commits at most once; what it has written otherwise is rolled back. It may also be
interrupted, by a cancellation or a failed statement, before its commit or behind it.
-/
set_option autoImplicit false
namespace AgentGraph.Security.Operations

abbrev CredentialId := Nat

structure VaultRow where
  id : CredentialId
  name : String
  credentialType : String
  encryptedValue : String
  keyVersion : ℕ
  revokedAt : Option Instant
  createdByUserId : UserId
deriving DecidableEq

/-- The events that the services write, with their metadata. -/
inductive Event
  | policy (event : AuditEvent)
  | bootstrap (username : String)
  | passkeyRegistered
  | login
  | logout
  | totpEnrolled
  | totpDenied
  | deviceTrusted (d : DeviceId)
  | deviceRevoked (d : DeviceId)

def Event.result : Event → String
  | policy (.policyDenied _) | totpDenied => "denied"
  | policy (.approvalDecided _ _ result) => result
  | policy (.approvalCreated _ _) | policy (.grantRevoked _) | policy .lockdownActivated | policy .lockdownDeactivated
  | bootstrap _ | passkeyRegistered | login | logout | totpEnrolled | deviceTrusted _ | deviceRevoked _ => "success"

/-- `SecurityAuditRecord`. -/
structure AuditRow where
  actor : UserId
  session : Option SessionId
  device : Option DeviceId
  event : Event

structure SecurityDb where
  accounts : SetupDb
  factors : UserId → Option (FactorRecord Instant)
  approvals : ApprovalId → Option (ApprovalRecord Instant)
  grants : List (GrantRow Instant)
  state : Option LockdownState
  vault : List VaultRow
  audit : List AuditRow

structure Settings extends Security.Settings where
  /-- A stored deadline is compared with the clock, which raises if it was read back without its offset. -/
  le? : Instant → Instant → Option Bool
  challengeTtl : ℤ
  allowedOrigins : List (Option String)
  csrfToken : SessionId → String

inductive Failure
  | service (e : ServiceError)
  | vault (message : String)
  | interrupted
deriving DecidableEq

/-- What an operation returns; the rows of a listing are left out. -/
inductive Return
  | done
  | listed
  | challenge (c : ChallengeId)
  | tokens (token : String) (p : SessionPrincipal)
  | principal (p : SessionPrincipal)
  | totpSecret (secret : String)
  | device (device : DeviceRecord Instant)
  | policy (value : PolicyReturn Instant)
  | credential (row : VaultRow)

/-- What an operation commits, if it does, and how it ends. -/
structure OpEffect where
  commit : Option SecurityDb
  result : Except Failure Return

namespace OpEffect

def raise (e : ServiceError) : OpEffect := ⟨none,.error (.service e)⟩
def raiseVault (message : String) : OpEffect := ⟨none,.error (.vault message)⟩
def return_ (value : Return) : OpEffect := ⟨none,.ok value⟩
def commits (db : SecurityDb) (value : Return) : OpEffect := ⟨some db,.ok value⟩

/-- The operation commits and raises behind its commit. -/
def commitsRaise (db : SecurityDb) (e : ServiceError) : OpEffect := ⟨some db,.error (.service e)⟩

/-- A flush, which raises if a constraint fails, and what follows it. -/
def flush {α : Type} (rows : Option α) (next : α → OpEffect) : OpEffect := rows.elim (raise .integrityError) next

end OpEffect

open OpEffect

/-- What an operation takes from the clock, from `uuid4`, `secrets` and Fernet. -/
structure Chance where
  now : Instant
  newId : Nat
  secret : UrlSafeToken
  token : String
  nonce : Nat

namespace SecurityDb
variable (db : SecurityDb)

def lockedDown : Bool := decide (db.state.getD .normal = .lockedDown)

def note (p : SessionPrincipal) (event : Event) : SecurityDb :=
  { db with audit := db.audit ++ [⟨p.userId,some p.sessionId,some p.deviceId,event⟩] }

def user (u : UserId) : Option UserRow := db.accounts.users.find? fun row => row.id == u

def session (sid : SessionId) : Option (SessionRecord Instant) := db.accounts.sessions.find? fun record => record.id == sid

def updateSession (sid : SessionId) (f : SessionRecord Instant → SessionRecord Instant) : SecurityDb :=
  { db with accounts := { db.accounts with sessions := db.accounts.sessions.map fun record => if record.id = sid then f record else record } }

def updateDevice (d : DeviceId) (f : DeviceRecord Instant → DeviceRecord Instant) : SecurityDb :=
  { db with accounts := { db.accounts with devices := Function.update db.accounts.devices d ((db.accounts.devices d).map f) } }

/-- `revoke_sessions_for_device`. -/
def revokeSessionsForDevice (d : DeviceId) (now : Instant) : SecurityDb :=
  { db with
    accounts :=
      { db.accounts with
        sessions := db.accounts.sessions.map fun record =>
          if record.deviceId = d ∧ record.revokedAt = none then { record with revokedAt := some now } else record } }

def updatePasskey (credentialId : String) (signCount : Nat) : SecurityDb :=
  { db with
    accounts :=
      { db.accounts with
        passkeys := db.accounts.passkeys.map fun row =>
          if row.credentialId = credentialId then { row with signCount := signCount } else row } }

/-- `upsert_second_factor`. -/
def upsertFactor (u : UserId) (encrypted : String) : SecurityDb :=
  { db with factors := Function.update db.factors u (some ⟨encrypted,none⟩) }

def setApproval (a : ApprovalId) (record : ApprovalRecord Instant) : SecurityDb :=
  { db with approvals := Function.update db.approvals a (some record) }

def addGrant (row : GrantRow Instant) : SecurityDb := { db with grants := db.grants ++ [row] }

/-- `revoke_grant` of the repository, on every row that `select` picks. -/
def revokeGrants (select : GrantRow Instant → Bool) (now : Instant) : SecurityDb :=
  { db with
    grants := db.grants.map fun row =>
      if select row then { row with status := .revoked, revokedAt := some now } else row }

def updateVault (id : CredentialId) (f : VaultRow → VaultRow) : SecurityDb :=
  { db with vault := db.vault.map fun row => if row.id = id then f row else row }

/-- `INSERT` of a credential; the identifier and the name are unique and the owner exists. -/
def insertVault (row : VaultRow) : Option SecurityDb :=
  if (db.vault.any fun other => other.id == row.id || other.name == row.name) || (db.user row.createdByUserId).isNone then none
  else some { db with vault := db.vault ++ [row] }

end SecurityDb

section Operations
variable (settings : Settings) (chance : Chance) (db : SecurityDb)

/-! ## `AuthService` -/

/-- `bootstrap`, over the secret file. -/
def bootstrap (username bootstrapSecret deviceName : String) (file : SecretFile) : OpEffect :=
  match requireBootstrapSecret bootstrapSecret file chance.secret with
  | .error e => raise e
  | .ok () =>
    if db.accounts.users ≠ [] then raise bootstrapClosed
    else
      let user : UserRow := { username := username, role := .owner, disabledAt := none, id := chance.newId }
      flush (db.accounts.insertUser user) fun accounts =>
        flush (accounts.insertChallenge chance.newId
            ⟨.passkeyRegistration,some user.id,some deviceName,chance.now + settings.challengeTtl,none⟩) fun accounts =>
          commits { db with accounts := accounts, audit := db.audit ++ [⟨user.id,none,none,.bootstrap username⟩] }
            (.challenge chance.newId)

def beginPasskeyRegistration (p : SessionPrincipal) (deviceName : String) : OpEffect :=
  match db.user p.userId with
  | none => raise userUnavailable
  | some user =>
    if user.disabledAt.isSome then raise userUnavailable
    else
      flush (db.accounts.insertChallenge chance.newId
          ⟨.passkeyRegistration,some user.id,some deviceName,chance.now + settings.challengeTtl,none⟩) fun accounts =>
        commits { db with accounts := accounts } (.challenge chance.newId)

/-- `_create_session`. -/
def newSession (u : UserId) (d : DeviceId) : SessionRecord Instant :=
  ⟨chance.newId,u,d,settings.tokenHash chance.token,.passkey,chance.now + settings.sessionTtl,none,none⟩

def finishPasskeyRegistration (c : ChallengeId) (verification : Option (String × Nat)) : OpEffect :=
  match registrationChallenge settings.le? (db.accounts.challenges c) chance.now with
  | .error e => raise e
  | .ok challenge =>
    match verification with
    | none => raise (.authentication "Passkey registration verification failed")
    | some (credentialId,signCount) =>
      if !db.accounts.consumable c chance.now then raise (.authenticationConflict "Passkey challenge is no longer valid")
      else
        match challenge.userId.bind db.user with
        | none => raise userUnavailable
        | some user =>
          let d := chance.newId
          flush ((db.accounts.consumeChallenge c chance.now).insertDevice d ⟨user.id,challenge.displayName,.limited,none,none⟩) fun accounts =>
            flush (accounts.insertPasskey
                { userId := user.id, deviceId := d, signCount := signCount, revokedAt := none, credentialId := credentialId }) fun accounts =>
              flush (accounts.insertSession (newSession settings chance user.id d)) fun accounts =>
                let p := principalOf user.id user.toUserRecord chance.newId d .limited .passkey
                commits (({ db with accounts := accounts } : SecurityDb).note p .passkeyRegistered) (.tokens chance.token p)

def beginPasskeyAuthentication (username : String) : OpEffect :=
  match db.accounts.users.find? fun row => row.username == username with
  | none => raise loginFailed
  | some user =>
    if user.disabledAt.isSome then raise loginFailed
    else if (db.accounts.passkeysOf user.id).all fun row => row.revokedAt.isSome then raise loginFailed
    else
      flush (db.accounts.insertChallenge chance.newId
          ⟨.passkeyAuthentication,some user.id,none,chance.now + settings.challengeTtl,none⟩) fun accounts =>
        commits { db with accounts := accounts } (.challenge chance.newId)

/-- `finish_passkey_authentication`, over the decoded `rawId`, if it is one, and the new sign count. -/
def finishPasskeyAuthentication (c : ChallengeId) (rawId : Option String) (verification : Option Nat) : OpEffect :=
  match authenticationChallenge settings.le? (db.accounts.challenges c) chance.now with
  | .error e => raise e
  | .ok challenge =>
    match rawId.bind fun credentialId => db.accounts.passkeys.find? fun row => row.credentialId == credentialId with
    | none => raise loginFailed
    | some passkey =>
      if passkey.revokedAt.isSome || some passkey.userId != challenge.userId then raise loginFailed
      else
        match verification with
        | none => raise loginFailed
        | some signCount =>
          if !db.accounts.consumable c chance.now then raise (.authenticationConflict "Passkey challenge is no longer valid")
          else
            match db.user passkey.userId, db.accounts.devices passkey.deviceId with
            | some user, some device =>
              if user.disabledAt.isSome || device.revokedAt.isSome then raise loginFailed
              else
                let consumed : SecurityDb := { db with accounts := db.accounts.consumeChallenge c chance.now }
                let touched := (consumed.updatePasskey passkey.credentialId signCount).updateDevice passkey.deviceId fun device =>
                  { device with lastAuthenticatedAt := some chance.now }
                flush (touched.accounts.insertSession (newSession settings chance user.id passkey.deviceId)) fun accounts =>
                  let p := principalOf user.id user.toUserRecord chance.newId passkey.deviceId device.trust .passkey
                  commits (({ touched with accounts := accounts } : SecurityDb).note p .login) (.tokens chance.token p)
            | _, _ => raise loginFailed

def principalFromSessionToken (token : String) : OpEffect :=
  if token = "" then raise (.authentication "Authentication is required")
  else
    match checkSession settings.le? (db.accounts.sessions.find? fun record => record.tokenHash == settings.tokenHash token) chance.now with
    | .error e => raise e
    | .ok record =>
      match db.user record.userId, db.accounts.devices record.deviceId with
      | some user, some device =>
        if user.disabledAt.isSome || device.revokedAt.isSome then raise invalidSession
        else return_ (.principal (principalOf user.id user.toUserRecord record.id record.deviceId device.trust (sessionStrength record)))
      | _, _ => raise invalidSession

def logout (p : SessionPrincipal) : OpEffect :=
  match db.session p.sessionId with
  | none => return_ .done
  | some record =>
    if record.revokedAt.isSome then return_ .done
    else
      commits ((db.updateSession p.sessionId fun record => { record with revokedAt := some chance.now }).note p .logout) .done

def beginTotpEnrollment : OpEffect := return_ (.totpSecret chance.secret.text)

def confirmTotpEnrollment (p : SessionPrincipal) (secret code : String) : OpEffect :=
  if settings.totpVerify secret code chance.now then
    commits ((db.upsertFactor p.userId (settings.encrypt secret chance.nonce)).note p .totpEnrolled) .done
  else raise (.authentication "Invalid verification code")

def verifyTotp (p : SessionPrincipal) (code : String) : OpEffect :=
  match db.factors p.userId with
  | none => raise (.authentication "Second factor is not enabled")
  | some factor =>
    if factor.revokedAt.isSome then raise (.authentication "Second factor is not enabled")
    else
      match settings.decrypt factor.encryptedSecret with
      | none => raise (.authentication "Second factor is unavailable")
      | some secret =>
        if settings.totpVerify secret code chance.now then
          match db.session p.sessionId with
          | none => raise (.authentication "Session is invalid")
          | some record =>
            if record.revokedAt.isSome then raise (.authentication "Session is invalid")
            else
              let stepped := db.updateSession p.sessionId fun record => { record with stepUpAt := some chance.now }
              match db.user p.userId with
              | none => commitsRaise stepped userUnavailable
              | some user =>
                commits stepped
                  (.principal (principalOf user.id user.toUserRecord record.id record.deviceId p.deviceTrust .passkeyTotp))
        else commitsRaise (db.note p .totpDenied) (.authentication "Invalid verification code")

def requireCsrf (p : SessionPrincipal) (csrfToken origin : Option String) : OpEffect :=
  if origin ∉ settings.allowedOrigins then raise (.authentication "Request origin is not allowed")
  else if csrfToken ≠ some (settings.csrfToken p.sessionId) then raise (.authentication "CSRF validation failed")
  else return_ .done

/-! ## `SecurityService` -/

/-- `require`, with what follows it. -/
def require (p : SessionPrincipal) (permission : Permission) (mfa : Bool) (next : OpEffect) : OpEffect :=
  match Security.require p permission mfa db.lockedDown with
  | .ok () => next
  | .error e =>
    if e = lockdownActive then commitsRaise (db.note p (.policy (.policyDenied permission))) e else raise e

/-- `_owned_device`, with what follows it. -/
def ownedDevice (p : SessionPrincipal) (d : DeviceId) (next : DeviceRecord Instant → OpEffect) : OpEffect :=
  match db.accounts.devices d with
  | none => raise .keyError
  | some device => if device.userId ≠ p.userId then raise .keyError else next device

def renameDevice (p : SessionPrincipal) (d : DeviceId) (displayName : String) : OpEffect :=
  ownedDevice db p d fun device =>
    commits (db.updateDevice d fun device => { device with displayName := displayName })
      (.device { device with displayName := displayName })

def trustDevice (p : SessionPrincipal) (d : DeviceId) : OpEffect :=
  require db p .admin false <|
    ownedDevice db p d fun device =>
      if device.revokedAt.isSome then raise (.securityConflict "A revoked device cannot be trusted")
      else
        commits ((db.updateDevice d fun device => { device with trust := .trusted }).note { p with deviceId := d } (.deviceTrusted d))
          (.device { device with trust := .trusted })

def revokeDevice (p : SessionPrincipal) (d : DeviceId) : OpEffect :=
  require db p .admin false <|
    ownedDevice db p d fun device =>
      if device.revokedAt.isSome then return_ (.device device)
      else
        let revoked := (db.updateDevice d fun device => { device with revokedAt := some chance.now }).revokeSessionsForDevice d chance.now
        commits (revoked.note { p with deviceId := d } (.deviceRevoked d)) (.device { device with revokedAt := some chance.now })

def createApproval (p : SessionPrincipal) (request : ApprovalRequest) : OpEffect :=
  require db p .execute false <|
    if (db.approvals chance.newId).isSome then raise .integrityError
    else
      let record : ApprovalRecord Instant :=
        ⟨p.userId,request.action,request.target,request.runId,request.taskRef,"pending",chance.now + request.expiresInSeconds,none,none,none⟩
      commits ((db.setApproval chance.newId record).note p (.policy (.approvalCreated chance.newId request.action)))
        (.policy (.approval record none))

def decideApproval (p : SessionPrincipal) (a : ApprovalId) (decision : SecurityApprovalDecision) : OpEffect :=
  require db p .approve false <|
    match db.approvals a with
    | none => raise .keyError
    | some record =>
      match settings.le? record.expiresAt chance.now with
      | none => raise .typeError
      | some true => commitsRaise (db.setApproval a (record.decide .reject p.userId chance.now "expired")) approvalExpired
      | some false =>
        if record.status ≠ "pending" then raise (.securityConflict "Approval is no longer pending")
        else
          let status := if decision = .reject then "rejected" else "approved"
          let decided := record.decide decision p.userId chance.now status
          let event : Event := .policy (.approvalDecided a decision status)
          if decision = .allowForTask then
            if record.taskRef.isNone then raise (.securityConflict "Task-scoped approval requires a task")
            else if db.grants.any fun row => row.id == chance.newId then raise .integrityError
            else
              let grant : GrantRow Instant :=
                { issuerUserId := p.userId, subject := record.requestedBy, action := record.action, target := record.target,
                  runId := record.runId, taskRef := record.taskRef, expiresAt := record.expiresAt, sourceApprovalId := a,
                  id := chance.newId, status := .active, revokedAt := none }
              commits (((db.setApproval a decided).addGrant grant).note p event) (.policy (.approval decided (some grant)))
          else commits ((db.setApproval a decided).note p event) (.policy (.approval decided none))

def revokeGrant (p : SessionPrincipal) (g : GrantId) : OpEffect :=
  require db p .approve false <|
    match db.grants.find? fun row => row.id == g with
    | none => raise .keyError
    | some row =>
      if row.issuerUserId ≠ p.userId then raise .keyError
      else if row.status = .active then
        commits ((db.revokeGrants (fun row => row.id == g) chance.now).note p (.policy (.grantRevoked g)))
          (.policy (.grant { row with status := .revoked, revokedAt := some chance.now }))
      else return_ (.policy (.grant row))

def activateLockdown (p : SessionPrincipal) : OpEffect :=
  require db p .admin true <|
    if db.lockedDown then return_ (.policy (.lockdown .lockedDown))
    else
      let locked := ({ db with state := some .lockedDown } : SecurityDb).revokeGrants (fun row => row.status == .active) chance.now
      commits (locked.note p (.policy .lockdownActivated)) (.policy (.lockdown .lockedDown))

def deactivateLockdown (p : SessionPrincipal) : OpEffect :=
  require db p .admin true <|
    if db.lockedDown then
      commits (({ db with state := some .normal } : SecurityDb).note p (.policy .lockdownDeactivated)) (.policy (.lockdown .normal))
    else return_ (.policy (.lockdown .normal))

/-- `lockdown_state`; a row that `_state` creates is rolled back. -/
def lockdownState (p : SessionPrincipal) : OpEffect :=
  require db p .read false (return_ (.policy (.lockdown (db.state.getD .normal))))

def listDevices : OpEffect := return_ .listed
def listApprovals (p : SessionPrincipal) : OpEffect := require db p .read false (return_ .listed)
def listGrants (p : SessionPrincipal) : OpEffect := require db p .read false (return_ .listed)
def listAudit (p : SessionPrincipal) : OpEffect := require db p .admin false (return_ .listed)

def requireVaultManagement (p : SessionPrincipal) : OpEffect :=
  require db p .admin false (if db.lockedDown then raise lockdownActive else return_ .done)

/-! ## `VaultService` -/

namespace Vault

def create (ownerUserId : UserId) (name credentialType secret : String) : OpEffect :=
  if secret = "" then raiseVault "Credential value is required"
  else
    let row : VaultRow := ⟨chance.newId,name,credentialType,settings.encrypt secret chance.nonce,1,none,ownerUserId⟩
    flush (db.insertVault row) fun db => commits db (.credential row)

def listMetadata : OpEffect := return_ .listed

/-- The credential that `replace` and `revoke` work on. -/
def found (id : CredentialId) (next : VaultRow → OpEffect) : OpEffect :=
  match db.vault.find? fun row => row.id == id with
  | none => raiseVault "Credential was not found"
  | some row => if row.revokedAt.isSome then raiseVault "Credential was not found" else next row

def replace (id : CredentialId) (secret : String) : OpEffect :=
  if secret = "" then raiseVault "Credential value is required"
  else
    found db id fun row =>
      let written (row : VaultRow) : VaultRow := { row with encryptedValue := settings.encrypt secret chance.nonce, keyVersion := 1 }
      commits (db.updateVault id written) (.credential (written row))

def revoke (id : CredentialId) : OpEffect :=
  found db id fun row =>
    let written (row : VaultRow) : VaultRow := { row with revokedAt := some chance.now }
    commits (db.updateVault id written) (.credential (written row))

end Vault

end Operations

/-! ## One operation after another -/

inductive Operation
  | bootstrap (username bootstrapSecret deviceName : String) (file : SecretFile)
  | beginPasskeyRegistration (p : SessionPrincipal) (deviceName : String)
  | finishPasskeyRegistration (c : ChallengeId) (verification : Option (String × Nat))
  | beginPasskeyAuthentication (username : String)
  | finishPasskeyAuthentication (c : ChallengeId) (rawId : Option String) (verification : Option Nat)
  | principalFromSessionToken (token : String)
  | logout (p : SessionPrincipal)
  | beginTotpEnrollment
  | confirmTotpEnrollment (p : SessionPrincipal) (secret code : String)
  | verifyTotp (p : SessionPrincipal) (code : String)
  | requireCsrf (p : SessionPrincipal) (csrfToken origin : Option String)
  | require (p : SessionPrincipal) (permission : Permission) (mfa : Bool)
  | listDevices
  | renameDevice (p : SessionPrincipal) (d : DeviceId) (displayName : String)
  | trustDevice (p : SessionPrincipal) (d : DeviceId)
  | revokeDevice (p : SessionPrincipal) (d : DeviceId)
  | createApproval (p : SessionPrincipal) (request : ApprovalRequest)
  | listApprovals (p : SessionPrincipal)
  | decideApproval (p : SessionPrincipal) (a : ApprovalId) (decision : SecurityApprovalDecision)
  | listGrants (p : SessionPrincipal)
  | revokeGrant (p : SessionPrincipal) (g : GrantId)
  | lockdownState (p : SessionPrincipal)
  | activateLockdown (p : SessionPrincipal)
  | deactivateLockdown (p : SessionPrincipal)
  | listAudit (p : SessionPrincipal)
  | requireVaultManagement (p : SessionPrincipal)
  | createCredential (ownerUserId : UserId) (name credentialType secret : String)
  | listMetadata
  | replaceCredential (id : CredentialId) (secret : String)
  | revokeCredential (id : CredentialId)

def Operation.effect (settings : Settings) (chance : Chance) (db : SecurityDb) : Operation → OpEffect
  | bootstrap username bootstrapSecret deviceName file =>
    Operations.bootstrap settings chance db username bootstrapSecret deviceName file
  | beginPasskeyRegistration p deviceName => Operations.beginPasskeyRegistration settings chance db p deviceName
  | finishPasskeyRegistration c verification => Operations.finishPasskeyRegistration settings chance db c verification
  | beginPasskeyAuthentication username => Operations.beginPasskeyAuthentication settings chance db username
  | finishPasskeyAuthentication c rawId verification =>
    Operations.finishPasskeyAuthentication settings chance db c rawId verification
  | principalFromSessionToken token => Operations.principalFromSessionToken settings chance db token
  | logout p => Operations.logout chance db p
  | beginTotpEnrollment => Operations.beginTotpEnrollment chance
  | confirmTotpEnrollment p secret code => Operations.confirmTotpEnrollment settings chance db p secret code
  | verifyTotp p code => Operations.verifyTotp settings chance db p code
  | requireCsrf p csrfToken origin => Operations.requireCsrf settings p csrfToken origin
  | require p permission mfa => Operations.require db p permission mfa (return_ .done)
  | listDevices => Operations.listDevices
  | renameDevice p d displayName => Operations.renameDevice db p d displayName
  | trustDevice p d => Operations.trustDevice db p d
  | revokeDevice p d => Operations.revokeDevice chance db p d
  | createApproval p request => Operations.createApproval chance db p request
  | listApprovals p => Operations.listApprovals db p
  | decideApproval p a decision => Operations.decideApproval settings chance db p a decision
  | listGrants p => Operations.listGrants db p
  | revokeGrant p g => Operations.revokeGrant chance db p g
  | lockdownState p => Operations.lockdownState db p
  | activateLockdown p => Operations.activateLockdown chance db p
  | deactivateLockdown p => Operations.deactivateLockdown db p
  | listAudit p => Operations.listAudit db p
  | requireVaultManagement p => Operations.requireVaultManagement db p
  | createCredential ownerUserId name credentialType secret =>
    Vault.create settings chance db ownerUserId name credentialType secret
  | listMetadata => Vault.listMetadata
  | replaceCredential id secret => Vault.replace settings chance db id secret
  | revokeCredential id => Vault.revoke chance db id

/-- Where an operation is cancelled, or fails at a statement. -/
inductive Interruption
  | before
  | behind
deriving DecidableEq

def OpEffect.interrupt (effect : OpEffect) : Option Interruption → OpEffect
  | none => effect
  | some .before => ⟨none,.error .interrupted⟩
  | some .behind => ⟨effect.commit,.error .interrupted⟩

structure Label where
  operation : Operation
  chance : Chance
  interruption : Option Interruption

def Label.effect (settings : Settings) (l : Label) (db : SecurityDb) : OpEffect :=
  (l.operation.effect settings l.chance db).interrupt l.interruption

def step (settings : Settings) (l : Label) (db : SecurityDb) : Option SecurityDb :=
  some ((l.effect settings db).commit.getD db)

end AgentGraph.Security.Operations
