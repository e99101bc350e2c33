import AgentGraph.Security.Operations

/-! # The routes of the server and the sessions they ask for

The middleware looks the session of a request up and checks the token of every request that is
not safe. The routes of `api/auth.py` and `api/security.py` do both again before they call their
service; the other ones ask for a permission of the principal that the middleware has found.
-/
set_option autoImplicit false
namespace AgentGraph.Api.Gateway
open Security hiding Settings Label step require
open Security.Operations

inductive Method
  | get | post | patch | put | delete
deriving DecidableEq

/-- How the WebAuthn library ends on a payload; the service expects only one of its exceptions. -/
inductive Verification (α : Type)
  | verified (value : α)
  | refused
  | raised

def Verification.toOption {α : Type} : Verification α → Option α
  | verified value => some value
  | refused | raised => none

/-- A request of a route, with what the services read of its payload. -/
inductive Endpoint
  -- `api/auth.py`
  | bootstrap (username bootstrapSecret deviceName : String) (file : SecretFile)
  | passkeyRegistrationOptions (deviceName : String)
  | passkeyRegistrationVerify (challenge : ChallengeId) (verification : Verification (String × Nat))
  | passkeyAuthenticationOptions (username : String)
  | passkeyAuthenticationVerify (challenge : ChallengeId) (rawId : Option String) (verification : Verification Nat)
  | currentSession
  | logout
  | beginTotpEnrollment
  /-- Whether `pyotp` can decode the secret. -/
  | confirmTotpEnrollment (secret code : String) (base32 : Bool)
  | verifyTotp (code : String)
  -- `api/security.py`
  | listDevices
  | renameDevice (device : DeviceId) (displayName : String)
  | trustDevice (device : DeviceId)
  | revokeDevice (device : DeviceId)
  | createApproval (request : ApprovalRequest)
  | listApprovals
  | decideApproval (approval : ApprovalId) (decision : SecurityApprovalDecision)
  | listGrants
  | revokeGrant (grant : GrantId)
  | lockdownState
  | activateLockdown
  | deactivateLockdown
  | listAudit
  | listVaultCredentials
  | createVaultCredential (name credentialType secret : String)
  | replaceVaultCredential (credential : CredentialId) (secret : String)
  | revokeVaultCredential (credential : CredentialId)
  -- the other modules of `api`
  | runtime (route : Route)
  | health

def routeMethod : Route → Method
  | .createAgent | .startRun | .stopRun | .createApproval | .approve | .reject | .enableNode | .disableNode | .probeNode
  | .createMemory | .searchMemory | .uploadAsset | .createAnalysis | .registerFolder | .scanFolder | .bootstrapLexi => .post
  | .updateAgentGraph => .patch
  | .deleteMemory | .deleteAsset => .delete
  | .system | .listProjects | .getProject | .agents | .getAgent | .listAgentRuns | .getRun | .getRunTree | .providers | .events
  | .approvals | .eventSocket | .listNodes | .getNode | .getRecoveryReport | .listToolInvocations | .listMemory
  | .runMemoryUsage | .listAssets | .getAsset | .listAnalyses | .getAnalysis | .listFolders | .getLexi => .get

namespace Endpoint

def method : Endpoint → Method
  | bootstrap _ _ _ _ | passkeyRegistrationOptions _ | passkeyRegistrationVerify _ _ | passkeyAuthenticationOptions _
  | passkeyAuthenticationVerify _ _ _ | logout | beginTotpEnrollment | confirmTotpEnrollment _ _ _ | verifyTotp _
  | trustDevice _ | revokeDevice _ | createApproval _ | decideApproval _ _ | revokeGrant _ | activateLockdown
  | deactivateLockdown | createVaultCredential _ _ _ | revokeVaultCredential _ => .post
  | renameDevice _ _ => .patch
  | replaceVaultCredential _ _ => .put
  | currentSession | listDevices | listApprovals | listGrants | lockdownState | listAudit | listVaultCredentials | health => .get
  | runtime route => routeMethod route

/-- The method is none of `GET`, `HEAD` and `OPTIONS`. -/
def changes (endpoint : Endpoint) : Bool := decide (endpoint.method ≠ .get)

/-- The paths whose token the middleware does not check. -/
def exempt : Endpoint → Bool
  | bootstrap _ _ _ _ | passkeyAuthenticationOptions _ | passkeyAuthenticationVerify _ _ _ | passkeyRegistrationVerify _ _ => true
  | _ => false

end Endpoint

/-- What a route asks for before it calls its service. -/
inductive Guard
  | nothing (operation : Option Operation)
  /-- A session and its token, if there is a cookie. -/
  | cookie (operation : Operation)
  /-- `_principal`, then `_csrf` and `require_vault_management`. -/
  | session (csrf vault : Bool) (operation : SessionPrincipal → Option Operation)
  | permission (route : Route)

namespace Guard

def principal (operation : SessionPrincipal → Option Operation) : Guard := .session false false operation

/-- `_mutation_principal`. -/
def mutation (operation : SessionPrincipal → Operation) : Guard := .session true false fun p => some (operation p)

end Guard

def Endpoint.guard : Endpoint → Guard
  | bootstrap username bootstrapSecret deviceName file => .nothing (some (.bootstrap username bootstrapSecret deviceName file))
  | passkeyRegistrationOptions deviceName => .mutation fun p => .beginPasskeyRegistration p deviceName
  | passkeyRegistrationVerify challenge verification => .cookie (.finishPasskeyRegistration challenge verification.toOption)
  | passkeyAuthenticationOptions username => .nothing (some (.beginPasskeyAuthentication username))
  | passkeyAuthenticationVerify challenge rawId verification =>
    .nothing (some (.finishPasskeyAuthentication challenge rawId verification.toOption))
  | currentSession => .principal fun _ => none
  | logout => .mutation .logout
  | beginTotpEnrollment => .mutation fun _ => .beginTotpEnrollment
  | confirmTotpEnrollment secret code _ => .mutation fun p => .confirmTotpEnrollment p secret code
  | verifyTotp code => .mutation fun p => .verifyTotp p code
  | listDevices => .principal fun _ => some .listDevices
  | renameDevice device displayName => .mutation fun p => .renameDevice p device displayName
  | trustDevice device => .mutation fun p => .trustDevice p device
  | revokeDevice device => .mutation fun p => .revokeDevice p device
  | createApproval request => .mutation fun p => .createApproval p request
  | listApprovals => .principal fun p => some (.listApprovals p)
  | decideApproval approval decision => .mutation fun p => .decideApproval p approval decision
  | listGrants => .principal fun p => some (.listGrants p)
  | revokeGrant grant => .mutation fun p => .revokeGrant p grant
  | lockdownState => .principal fun p => some (.lockdownState p)
  | activateLockdown => .mutation .activateLockdown
  | deactivateLockdown => .mutation .deactivateLockdown
  | listAudit => .principal fun p => some (.listAudit p)
  | listVaultCredentials => .session false true fun _ => some .listMetadata
  | createVaultCredential name credentialType secret =>
    .session true true fun p => some (.createCredential p.userId name credentialType secret)
  | replaceVaultCredential credential secret => .session true true fun _ => some (.replaceCredential credential secret)
  | revokeVaultCredential credential => .session true true fun _ => some (.revokeCredential credential)
  | runtime route => .permission route
  | health => .nothing none

/-! ## Replies -/

inductive Cookie
  | set (token : String)
  | deleted

/-- The body is given by its error, or by the token it tells. A reply without a status cannot be sent. -/
structure Reply where
  status : Option Nat
  code : Option String
  detail : Option String
  cookie : Option Cookie
  csrfToken : Option String

def Reply.refused (status : Nat) (code : Option String) (detail : String) : Reply := ⟨some status,code,some detail,none,none⟩

/-- No handler catches the exception. -/
def Reply.unhandled : Reply := ⟨some 500,none,none,none,none⟩

/-- An `except` clause. -/
inductive Clause
  | authentication
  | authenticationConflict
  | keyError (detail : String)
  | authorization
  | conflict
  | vault (status : Nat)

def Clause.catches : Clause → Failure → Option (Nat × String)
  | .authentication, .service (.authentication message) => some (401,message)
  | .authenticationConflict, .service (.authenticationConflict message) => some (409,message)
  | .keyError detail, .service .keyError => some (404,detail)
  | .authorization, .service (.securityAuthorization message) => some (403,message)
  | .conflict, .service (.securityConflict message) => some (409,message)
  | .vault status, .vault message => some (status,message)
  | _, _ => none

namespace Endpoint

def clauses : Endpoint → List Clause
  | bootstrap _ _ _ _ | passkeyRegistrationVerify _ _ | passkeyAuthenticationVerify _ _ _ => [.authenticationConflict,.authentication]
  | passkeyRegistrationOptions _ | passkeyAuthenticationOptions _ | confirmTotpEnrollment _ _ _ | verifyTotp _ => [.authentication]
  | renameDevice _ _ => [.keyError "Device was not found"]
  | trustDevice _ => [.keyError "Device was not found",.authorization,.conflict]
  | revokeDevice _ => [.keyError "Device was not found",.authorization]
  | decideApproval _ _ => [.keyError "Approval was not found",.authorization,.conflict]
  | revokeGrant _ => [.keyError "Grant was not found",.authorization]
  | createApproval _ | listApprovals | listGrants | lockdownState | activateLockdown | deactivateLockdown | listAudit
  | listVaultCredentials => [.authorization]
  | createVaultCredential _ _ _ => [.authorization,.vault 403]
  | replaceVaultCredential _ _ | revokeVaultCredential _ => [.authorization,.vault 404]
  | currentSession | logout | beginTotpEnrollment | listDevices | runtime _ | health => []

def failed (endpoint : Endpoint) (failure : Failure) : Reply :=
  match endpoint.clauses.findSome? fun clause => clause.catches failure with
  | some (status,detail) => .refused status none detail
  | none => .unhandled

/-- The status of a reply without an error. -/
def success : Endpoint → Option Nat
  | bootstrap _ _ _ _ | createApproval _ | createVaultCredential _ _ _ => some 201
  -- the route returns the response that is injected for its headers, on which no status is set
  | logout => none
  | confirmTotpEnrollment _ _ _ => some 204
  | runtime .createAgent | runtime .createMemory | runtime .uploadAsset | runtime .registerFolder | runtime .bootstrapLexi => some 201
  | runtime .startRun | runtime .createAnalysis => some 202
  | runtime .deleteMemory | runtime .deleteAsset => some 204
  | _ => some 200

/-- The reply to what the service has returned. -/
def returned (settings : Settings) (endpoint : Endpoint) : Return → Reply
  | .tokens token p => ⟨endpoint.success,none,none,some (.set token),some (settings.csrfToken p.sessionId)⟩
  | .principal p => ⟨endpoint.success,none,none,none,some (settings.csrfToken p.sessionId)⟩
  | _ =>
    match endpoint with
    | logout => ⟨endpoint.success,none,none,some .deleted,none⟩
    | _ => ⟨endpoint.success,none,none,none,none⟩

end Endpoint

/-! ## The stages of a request -/

structure HttpRequest where
  page : Nat
  endpoint : Endpoint
  origin : Option String
  cookie : Option String
  csrf : Option String
  loopback : Bool

/-- Between two stages the other requests run. -/
inductive Stage
  | arrived
  | handling (principal : Option SessionPrincipal)
  /-- `require_vault_management` is next. -/
  | managing (p : SessionPrincipal) (operation : Option Operation)
  | acting (principal : Option SessionPrincipal) (operation : Option Operation)
  | answered (reply : Reply)
  | delivered (reply : Reply)

section Stages
variable (settings : Settings) (chance : Chance) (db : SecurityDb) (request : HttpRequest)

/-- `principal_from_session_token`, which returns nothing but a principal. -/
def identify : Except Failure SessionPrincipal :=
  match (principalFromSessionToken settings chance db (request.cookie.getD "")).result with
  | .ok (.principal p) => .ok p
  | .ok _ => .error (.service invalidSession)
  | .error e => .error e

/-- `require_csrf`; `compare_digest` of strings takes no other than ASCII ones. -/
def checkCsrf (p : SessionPrincipal) : Except Failure Unit :=
  if settings.allowedOrigins.contains request.origin && request.csrf.any (fun csrf => !isAscii csrf) then .error (.service .typeError)
  else
    match (requireCsrf settings p request.csrf request.origin).result with
    | .ok _ => .ok ()
    | .error e => .error e

/-- `authenticate_request`; the event socket looks the session up in the same way. -/
def authenticateRequest : Stage :=
  match identify settings chance db request with
  | .error (.service (.authentication _)) => .handling none
  | .error _ => .answered .unhandled
  | .ok p =>
    if request.endpoint.changes && !request.endpoint.exempt then
      match checkCsrf settings request p with
      | .error (.service (.authentication message)) => .answered (.refused 403 (some "CSRF_DENIED") message)
      | .error _ => .answered .unhandled
      | .ok () => .handling (some p)
    else .handling (some p)

/-- `_principal`, `_csrf` and what follows them. -/
def authenticated (csrf : Bool) (next : SessionPrincipal → Stage) : Stage :=
  match identify settings chance db request with
  | .error (.service (.authentication message)) => .answered (.refused 401 none message)
  | .error _ => .answered .unhandled
  | .ok p =>
    if csrf then
      match checkCsrf settings request p with
      | .error (.service (.authentication message)) => .answered (.refused 403 none message)
      | .error _ => .answered .unhandled
      | .ok () => next p
    else next p

def handle (principal : Option SessionPrincipal) : Stage :=
  match request.endpoint.guard with
  | .nothing operation =>
    match request.endpoint with
    | .bootstrap _ _ _ _ =>
      if request.loopback then .acting none operation
      else .answered (.refused 403 none "Bootstrap requires a loopback connection")
    | _ => .acting none operation
  | .cookie operation =>
    if request.cookie.getD "" = "" then .acting none (some operation)
    else authenticated settings chance db request true fun p => .acting (some p) (some operation)
  | .session csrf vault operation =>
    authenticated settings chance db request csrf fun p =>
      if vault then .managing p (operation p) else .acting (some p) (operation p)
  | .permission route =>
    match principal with
    | none => .answered (.refused 403 (some "FORBIDDEN") "Authentication is required")
    | some p =>
      match route.authorize (requestPrincipal p) with
      | .ok () => .acting (some p) none
      | .error (.authorization message) => .answered (.refused 403 (some "FORBIDDEN") message)
      | .error .keyError => .answered .unhandled

def manage (p : SessionPrincipal) (operation : Option Operation) : Option SecurityDb × Stage :=
  let effect := requireVaultManagement db p
  (effect.commit,match effect.result with
    | .ok _ => .acting (some p) operation
    | .error e => .answered (request.endpoint.failed e))

/-- The service comes to a library that raises what it does not expect. -/
def Endpoint.raises (settings : Settings) (db : SecurityDb) (now : Security.Instant) : Endpoint → Bool
  | passkeyRegistrationVerify challenge .raised => (registrationChallenge settings.le? (db.accounts.challenges challenge) now).toBool
  | passkeyAuthenticationVerify challenge rawId .raised =>
    match authenticationChallenge settings.le? (db.accounts.challenges challenge) now with
    | .error _ => false
    | .ok record =>
      (rawId.bind fun credentialId => db.accounts.passkeys.find? fun row => row.credentialId == credentialId).any fun passkey =>
        !(passkey.revokedAt.isSome || some passkey.userId != record.userId)
  | confirmTotpEnrollment _ _ base32 => !base32
  | _ => false

/-- The service is called; what stands behind a route of another module is not part of this. -/
def act (principal : Option SessionPrincipal) (operation : Option Operation) : Option SecurityDb × Reply :=
  match operation with
  | none => (none,⟨request.endpoint.success,none,none,none,match request.endpoint with
      | .currentSession => principal.map fun p => settings.csrfToken p.sessionId
      | _ => none⟩)
  | some operation =>
    if request.endpoint.raises settings db chance.now then (none,.unhandled)
    else
      let effect := operation.effect settings chance db
      (effect.commit,match effect.result with
        | .ok value => request.endpoint.returned settings value
        | .error e => request.endpoint.failed e)

end Stages

end AgentGraph.Api.Gateway
