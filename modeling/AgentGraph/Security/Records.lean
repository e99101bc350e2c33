import Mathlib.Data.Int.Notation
import Mathlib.Data.Nat.Notation

/-! # Rows of the security tables and the checks on them

Rows are generic in the type of their instants, and the checks in the comparison
`expires_at <= now`, which may raise: `none` is a `TypeError`.
-/
set_option autoImplicit false
namespace AgentGraph.Security

abbrev UserId := Nat
abbrev DeviceId := Nat
abbrev SessionId := Nat
abbrev ChallengeId := Nat
abbrev ApprovalId := Nat

inductive UserRole
  | owner | admin | operator
deriving DecidableEq, Repr

inductive DeviceTrust
  | limited | trusted
deriving DecidableEq, Repr

inductive AuthenticationStrength
  | passkey | passkeyTotp | development
deriving DecidableEq, Repr

inductive ChallengeKind
  | passkeyRegistration | passkeyAuthentication
deriving DecidableEq, Repr

inductive Permission
  | read | execute | control | approve | admin
deriving DecidableEq, Repr

inductive SecurityApprovalDecision
  | allowOnce | allowForTask | reject | modify
deriving DecidableEq, Repr

/-- The exceptions of the services, and those that escape them. -/
inductive ServiceError
  | authentication (message : String)
  | authenticationConflict (message : String)
  | securityAuthorization (message : String)
  | securityConflict (message : String)
  | keyError
  | integrityError
  | operationalError
  | typeError
deriving DecidableEq, Repr

structure UserRecord (τ : Type) where
  username : String
  role : UserRole
  disabledAt : Option τ
deriving DecidableEq

structure DeviceRecord (τ : Type) where
  userId : UserId
  displayName : String
  trust : DeviceTrust
  revokedAt : Option τ
  lastAuthenticatedAt : Option τ
deriving DecidableEq

structure SessionRecord (τ : Type) where
  id : SessionId
  userId : UserId
  deviceId : DeviceId
  tokenHash : String
  strength : AuthenticationStrength
  expiresAt : τ
  stepUpAt : Option τ
  revokedAt : Option τ
deriving DecidableEq

structure PasskeyRecord (τ : Type) where
  userId : UserId
  deviceId : DeviceId
  signCount : Nat
  revokedAt : Option τ
deriving DecidableEq

structure ChallengeRecord (τ : Type) where
  kind : ChallengeKind
  userId : Option UserId
  deviceName : Option String
  expiresAt : τ
  consumedAt : Option τ
deriving DecidableEq

/-- `device_name or "Passkey device"`. -/
def ChallengeRecord.displayName {τ : Type} (challenge : ChallengeRecord τ) : String :=
  if challenge.deviceName.getD "" = "" then "Passkey device" else challenge.deviceName.getD ""

structure FactorRecord (τ : Type) where
  encryptedSecret : String
  revokedAt : Option τ
deriving DecidableEq

structure ApprovalRecord (τ : Type) where
  requestedBy : UserId
  action : String
  target : Option String
  runId : Option String
  taskRef : Option String
  status : String
  expiresAt : τ
  decision : Option SecurityApprovalDecision
  decidedByUserId : Option UserId
  decidedAt : Option τ

structure GrantRecord (τ : Type) where
  issuerUserId : UserId
  subject : UserId
  action : String
  target : Option String
  runId : Option String
  taskRef : Option String
  expiresAt : τ
  sourceApprovalId : ApprovalId

structure SessionPrincipal where
  userId : UserId
  username : String
  role : UserRole
  sessionId : SessionId
  deviceId : DeviceId
  deviceTrust : DeviceTrust
  authenticationStrength : AuthenticationStrength
deriving DecidableEq, Repr

/-- `_permissions_for_role`. -/
def permissionsForRole : UserRole → List Permission
  | .owner | .admin => [.read,.execute,.control,.approve,.admin]
  | .operator => [.read,.execute,.control]

def SessionPrincipal.permissions (p : SessionPrincipal) : List Permission := permissionsForRole p.role

def invalidSession : ServiceError := .authentication "Session is invalid or expired"
def invalidChallenge : ServiceError := .authentication "Passkey challenge is invalid or expired"

section Checks
variable {τ : Type} (le? : τ → τ → Option Bool)

/-- `if record.expires_at <= now: raise error`. -/
def checkExpiry (expiresAt now : τ) (error : ServiceError) : Except ServiceError Unit :=
  match le? expiresAt now with
  | none => .error .typeError
  | some true => .error error
  | some false => .ok ()

/-- The check of the session row in `principal_from_session_token`. -/
def checkSession (record : Option (SessionRecord τ)) (now : τ) : Except ServiceError (SessionRecord τ) :=
  match record with
  | none => .error invalidSession
  | some record =>
    if record.revokedAt.isSome then .error invalidSession
    else (checkExpiry le? record.expiresAt now invalidSession).map fun _ => record

/-- `_registration_challenge` and `_authentication_challenge`. -/
def checkChallenge (kind : ChallengeKind) (record : Option (ChallengeRecord τ)) (now : τ) :
    Except ServiceError (ChallengeRecord τ) :=
  match record with
  | none => .error invalidChallenge
  | some record =>
    if record.kind ≠ kind then .error invalidChallenge
    else if record.consumedAt.isSome then .error invalidChallenge
    else (checkExpiry le? record.expiresAt now invalidChallenge).map fun _ => record

def registrationChallenge (record : Option (ChallengeRecord τ)) (now : τ) : Except ServiceError (ChallengeRecord τ) :=
  checkChallenge le? .passkeyRegistration record now

def authenticationChallenge (record : Option (ChallengeRecord τ)) (now : τ) :
    Except ServiceError (ChallengeRecord τ) :=
  checkChallenge le? .passkeyAuthentication record now

theorem checkChallenge_ok {le? : τ → τ → Option Bool} {kind : ChallengeKind} {row? : Option (ChallengeRecord τ)}
    {row : ChallengeRecord τ} {now : τ} (h : checkChallenge le? kind row? now = .ok row) :
    row? = some row ∧ row.kind = kind := by
  unfold checkChallenge at h
  split at h
  · cases h
  · split at h
    · cases h
    next hkind =>
      split at h
      · cases h
      · unfold checkExpiry at h
        split at h <;> cases h
        exact ⟨rfl,Decidable.not_not.mp hkind⟩

end Checks

end AgentGraph.Security
