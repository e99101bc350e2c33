import AgentGraph.Security.Records
import AgentGraph.Foundation.Transition
import Mathlib.Logic.Function.Basic

/-! # `AuthService` and `SecurityService` over one database, statement by statement

A `Pc` is a database statement that a request is about to execute, with the rows the
request holds in memory. A `SELECT` outside a transaction sees the last commit; the
first writing statement takes the write lock of the database, and from then on the
request sees its own writes, which its commit publishes. An `UPDATE` of a row writes
the columns that were assigned.
-/
set_option autoImplicit false
namespace AgentGraph.Security
open Transition

abbrev Instant := ℤ

/-- Comparison of two instants of one kind. -/
def before? (a b : Instant) : Option Bool := some (decide (a ≤ b))

/-- Settings, and the functions of `hashlib`, `pyotp` and Fernet. -/
structure Settings where
  sessionTtl : ℤ
  tokenHash : String → String
  totpVerify : String → String → Instant → Bool
  encrypt : String → Nat → String
  decrypt : String → Option String

structure Db where
  users : UserId → Option (UserRecord Instant)
  devices : DeviceId → Option (DeviceRecord Instant)
  sessions : List (SessionRecord Instant)
  passkeys : String → Option (PasskeyRecord Instant)
  challenges : ChallengeId → Option (ChallengeRecord Instant)
  factors : UserId → Option (FactorRecord Instant)

namespace Db

def sessionByTokenHash (db : Db) (hash : String) : Option (SessionRecord Instant) :=
  db.sessions.find? fun record => record.tokenHash == hash

def session (db : Db) (sid : SessionId) : Option (SessionRecord Instant) :=
  db.sessions.find? fun record => record.id == sid

def updateSession (db : Db) (sid : SessionId) (f : SessionRecord Instant → SessionRecord Instant) : Db :=
  { db with sessions := db.sessions.map fun record => if record.id = sid then f record else record }

def updateDevice (db : Db) (d : DeviceId) (f : DeviceRecord Instant → DeviceRecord Instant) : Db :=
  { db with devices := Function.update db.devices d ((db.devices d).map f) }

/-- `revoke_sessions_for_device`. -/
def revokeSessionsForDevice (db : Db) (d : DeviceId) (now : Instant) : Db :=
  { db with
    sessions := db.sessions.map fun record =>
      if record.deviceId = d ∧ record.revokedAt = none then { record with revokedAt := some now } else record }

/-- The condition of the `UPDATE` in `consume_challenge`. -/
def consumable (db : Db) (c : ChallengeId) (now : Instant) : Bool :=
  match db.challenges c with
  | some challenge => challenge.consumedAt.isNone && decide (now < challenge.expiresAt)
  | none => false

def consumeChallenge (db : Db) (c : ChallengeId) (now : Instant) : Db :=
  { db with
    challenges := Function.update db.challenges c
      ((db.challenges c).map fun challenge => { challenge with consumedAt := some now }) }

def updatePasskey (db : Db) (credentialId : String) (signCount : Nat) : Db :=
  { db with
    passkeys := Function.update db.passkeys credentialId
      ((db.passkeys credentialId).map fun passkey => { passkey with signCount := signCount }) }

/-- `INSERT` of a session; the identifier and the token hash are unique. -/
def insertSession (db : Db) (record : SessionRecord Instant) : Option Db :=
  if db.sessions.any fun other => other.id == record.id || other.tokenHash == record.tokenHash then none
  else some { db with sessions := db.sessions ++ [record] }

def insertDevice (db : Db) (d : DeviceId) (record : DeviceRecord Instant) : Option Db :=
  if (db.devices d).isSome then none else some { db with devices := Function.update db.devices d (some record) }

def insertPasskey (db : Db) (credentialId : String) (record : PasskeyRecord Instant) : Option Db :=
  if (db.passkeys credentialId).isSome then none
  else some { db with passkeys := Function.update db.passkeys credentialId (some record) }

/-- The flush of `upsert_second_factor`: an `INSERT`, or an `UPDATE` of the row that
was read. -/
def upsertFactor (db : Db) (user : UserId) (existing : Bool) (encrypted : String) : Option Db :=
  if !existing && (db.factors user).isSome then none
  else some { db with factors := Function.update db.factors user (some ⟨encrypted,none⟩) }

end Db

/-- What a request does with the principal of its session. -/
inductive Action
  | returnPrincipal
  | beginTotpEnrollment
  | confirmTotpEnrollment (secret code : String) (nonce : Nat)
  | verifyTotp (code : String)
  | logout
  | trustDevice (d : DeviceId)
  | renameDevice (d : DeviceId) (name : String)
  | revokeDevice (d : DeviceId)

inductive Request
  | finishRegistration (c : ChallengeId)
  | finishAuthentication (c : ChallengeId) (rawId : Option String)
  | withSession (token : String) (k : Action)

inductive Result
  | returned
  | principal (p : SessionPrincipal)
  | tokens (token : String) (p : SessionPrincipal)
  | raised (e : ServiceError)
deriving DecidableEq

/-- The database statements of the requests. -/
inductive Pc
  -- `principal_from_session_token`
  | principalSession (token : String) (now : Instant) (k : Action)
  | principalUser (record : SessionRecord Instant) (k : Action)
  | principalDevice (record : SessionRecord Instant) (user : Option (UserRecord Instant)) (k : Action)
  -- `finish_passkey_registration`
  | registrationChallenge (c : ChallengeId)
  | registrationConsume (c : ChallengeId) (challenge : ChallengeRecord Instant) (credentialId : String)
      (signCount : Nat) (now : Instant)
  | registrationUser (challenge : ChallengeRecord Instant) (credentialId : String) (signCount : Nat)
  | registrationDevice (userId : UserId) (user : UserRecord Instant) (challenge : ChallengeRecord Instant)
      (credentialId : String) (signCount : Nat)
  | registrationPasskey (userId : UserId) (user : UserRecord Instant) (d : DeviceId) (credentialId : String)
      (signCount : Nat)
  -- `finish_passkey_authentication`
  | authenticationChallenge (c : ChallengeId) (rawId : Option String)
  | authenticationPasskey (c : ChallengeId) (challenge : ChallengeRecord Instant) (credentialId : String)
  | authenticationConsume (c : ChallengeId) (credentialId : String) (passkey : PasskeyRecord Instant)
      (signCount : Nat) (now : Instant)
  | authenticationUser (credentialId : String) (passkey : PasskeyRecord Instant) (signCount : Nat)
  | authenticationDevice (credentialId : String) (passkey : PasskeyRecord Instant)
      (user : Option (UserRecord Instant)) (signCount : Nat)
  | authenticationSignCount (credentialId : String) (passkey : PasskeyRecord Instant) (user : UserRecord Instant)
      (trust : DeviceTrust) (signCount : Nat)
  | authenticationTouch (passkey : PasskeyRecord Instant) (user : UserRecord Instant) (trust : DeviceTrust)
      (now : Instant)
  -- `_create_session`
  | createSession (userId : UserId) (user : UserRecord Instant) (d : DeviceId) (trust : DeviceTrust) (now : Instant)
  -- `verify_totp`
  | totpFactor (p : SessionPrincipal) (code : String)
  | totpSession (p : SessionPrincipal)
  | totpStepUp (p : SessionPrincipal) (record : SessionRecord Instant) (now : Instant)
  | totpCommit (p : SessionPrincipal) (record : SessionRecord Instant)
  | totpUser (p : SessionPrincipal) (record : SessionRecord Instant)
  -- `confirm_totp_enrollment`
  | enrollmentRead (p : SessionPrincipal) (secret encrypted : String)
  | enrollmentWrite (p : SessionPrincipal) (secret encrypted : String) (existing : Bool)
  -- `logout`
  | logoutRead (p : SessionPrincipal)
  | logoutWrite (p : SessionPrincipal) (now : Instant)
  -- `trust_device`, `rename_device`, `revoke_device`
  | trustRead (p : SessionPrincipal) (d : DeviceId)
  | trustWrite (d : DeviceId)
  | renameRead (p : SessionPrincipal) (d : DeviceId) (name : String)
  | renameWrite (d : DeviceId) (name : String)
  | revokeRead (p : SessionPrincipal) (d : DeviceId)
  | revokeWrite (d : DeviceId) (now : Instant)
  | revokeSessions (d : DeviceId) (now : Instant)
  -- the audit event and the commit that end a request
  | audit (result : Result)
  | commit (result : Result)

inductive Ctl
  | at (pc : Pc)
  | done (result : Result)

/-- What the outside decides at a statement: the verdict of the WebAuthn library, and
the identifier and token drawn at random. -/
inductive Choice
  | resume
  | attested (credentialId : String) (signCount : Nat)
  | asserted (signCount : Nat)
  | refused
  | fresh (newId : Nat) (token : String)
deriving DecidableEq

/-- The effect of one statement: what it writes, and whether it commits. -/
structure Effect where
  next : Ctl
  write : Option Db := none
  commit : Bool := false

namespace Effect

def goto (pc : Pc) : Effect := { next := .at pc }
def ret (result : Result) : Effect := { next := .done result }
def raise (e : ServiceError) : Effect := { next := .done (.raised e) }

end Effect

def loginFailed : ServiceError := .authentication "Authentication failed"

/-- `SecurityService.require`, with the lockdown state it reads. -/
def require (p : SessionPrincipal) (permission : Permission) (mfa lockedDown : Bool) : Except ServiceError Unit :=
  if !p.permissions.contains permission && !p.permissions.contains .admin then
    .error (.securityAuthorization "Principal lacks required permission")
  else if mfa && p.authenticationStrength != .passkeyTotp then
    .error (.securityAuthorization "A stepped-up session is required")
  else if [Permission.execute,.control,.approve].contains permission && lockedDown then
    .error (.securityAuthorization "Lockdown is active")
  else .ok ()

/-- `_principal`. -/
def principalOf (userId : UserId) (user : UserRecord Instant) (sid : SessionId) (d : DeviceId) (trust : DeviceTrust)
    (strength : AuthenticationStrength) : SessionPrincipal :=
  ⟨userId,user.username,user.role,sid,d,trust,strength⟩

/-- The strength `principal_from_session_token` reports. -/
def sessionStrength (record : SessionRecord Instant) : AuthenticationStrength :=
  if record.stepUpAt.isSome then .passkeyTotp else record.strength

/-- The request continues with its principal. -/
def Action.start (settings : Settings) (now : Instant) (p : SessionPrincipal) : Action → Effect
  | .returnPrincipal => .ret (.principal p)
  | .beginTotpEnrollment => .ret .returned
  | .confirmTotpEnrollment secret code nonce =>
    if settings.totpVerify secret code now then .goto (.enrollmentRead p secret (settings.encrypt secret nonce))
    else .raise (.authentication "Invalid verification code")
  | .verifyTotp code => .goto (.totpFactor p code)
  | .logout => .goto (.logoutRead p)
  | .trustDevice d =>
    match require p .admin false false with
    | .ok () => .goto (.trustRead p d)
    | .error e => .raise e
  | .renameDevice d name => .goto (.renameRead p d name)
  | .revokeDevice d =>
    match require p .admin false false with
    | .ok () => .goto (.revokeRead p d)
    | .error e => .raise e

/-- `_owned_device`. -/
def ownedDevice (db : Db) (p : SessionPrincipal) (d : DeviceId) : Option (DeviceRecord Instant) :=
  (db.devices d).filter fun device => device.userId == p.userId

/-- The first statement of a request. -/
def Request.begin (now : Instant) : Request → Ctl
  | .finishRegistration c => .at (.registrationChallenge c)
  | .finishAuthentication c rawId => .at (.authenticationChallenge c rawId)
  | .withSession token k =>
    if token = "" then .done (.raised (.authentication "Authentication is required"))
    else .at (.principalSession token now k)

/-- The last check of `principal_from_session_token`, on the device row. -/
def resolvePrincipal (db : Db) (record : SessionRecord Instant) (user : Option (UserRecord Instant)) :
    Except ServiceError SessionPrincipal :=
  match user, db.devices record.deviceId with
  | some user, some device =>
    if user.disabledAt.isSome || device.revokedAt.isSome then .error invalidSession
    else .ok (principalOf record.userId user record.id record.deviceId device.trust (sessionStrength record))
  | _, _ => .error invalidSession

/-- `principal_from_session_token`. -/
def resumePrincipal (settings : Settings) (db : Db) (now : Instant) (pc : Pc) : Option Effect :=
  match pc with
  | .principalSession token started k =>
    match checkSession before? (db.sessionByTokenHash (settings.tokenHash token)) started with
    | .error e => some (.raise e)
    | .ok record => some (.goto (.principalUser record k))
  | .principalUser record k => some (.goto (.principalDevice record (db.users record.userId) k))
  | .principalDevice record user k =>
    match resolvePrincipal db record user with
    | .error e => some (.raise e)
    | .ok p => some (k.start settings now p)
  | _ => none

/-- `finish_passkey_registration`. -/
def resumeRegistration (db : Db) (now : Instant) (ch : Choice) (pc : Pc) : Option Effect :=
  match pc, ch with
  | .registrationChallenge c, .attested credentialId signCount =>
    match Security.registrationChallenge before? (db.challenges c) now with
    | .error e => some (.raise e)
    | .ok challenge => some (.goto (.registrationConsume c challenge credentialId signCount now))
  | .registrationChallenge c, .refused =>
    match Security.registrationChallenge before? (db.challenges c) now with
    | .error e => some (.raise e)
    | .ok _ => some (.raise (.authentication "Passkey registration verification failed"))
  | .registrationConsume c challenge credentialId signCount started, .resume =>
    if db.consumable c started then
      some
        { next := .at (.registrationUser challenge credentialId signCount)
          write := some (db.consumeChallenge c started) }
    else
      some
        { next := .done (.raised (.authenticationConflict "Passkey challenge is no longer valid"))
          write := some db }
  | .registrationUser challenge credentialId signCount, .resume =>
    match challenge.userId, challenge.userId.bind db.users with
    | some userId, some user => some (.goto (.registrationDevice userId user challenge credentialId signCount))
    | _, _ => some (.raise (.authentication "User is unavailable"))
  | .registrationDevice userId user challenge credentialId signCount, .fresh d _ =>
    match db.insertDevice d ⟨userId,challenge.displayName,.limited,none,none⟩ with
    | none => some (.raise .integrityError)
    | some db =>
      some
        { next := .at (.registrationPasskey userId user d credentialId signCount)
          write := some db }
  | .registrationPasskey userId user d credentialId signCount, .resume =>
    match db.insertPasskey credentialId ⟨userId,d,signCount,none⟩ with
    | none => some (.raise .integrityError)
    | some db =>
      some
        { next := .at (.createSession userId user d .limited now)
          write := some db }
  | _, _ => none

/-- `finish_passkey_authentication`. -/
def resumeAuthentication (db : Db) (now : Instant) (ch : Choice) (pc : Pc) : Option Effect :=
  match pc, ch with
  | .authenticationChallenge c rawId, .resume =>
    match Security.authenticationChallenge before? (db.challenges c) now, rawId with
    | .error e, _ => some (.raise e)
    | .ok _, none => some (.raise loginFailed)
    | .ok challenge, some credentialId => some (.goto (.authenticationPasskey c challenge credentialId))
  | .authenticationPasskey c challenge credentialId, ch =>
    match db.passkeys credentialId, ch with
    | none, _ => some (.raise loginFailed)
    | some passkey, ch =>
      if passkey.revokedAt.isSome || challenge.userId != some passkey.userId then some (.raise loginFailed)
      else
        match ch with
        | .asserted signCount => some (.goto (.authenticationConsume c credentialId passkey signCount now))
        | .refused => some (.raise loginFailed)
        | _ => none
  | .authenticationConsume c credentialId passkey signCount started, .resume =>
    if db.consumable c started then
      some
        { next := .at (.authenticationUser credentialId passkey signCount)
          write := some (db.consumeChallenge c started) }
    else
      some
        { next := .done (.raised (.authenticationConflict "Passkey challenge is no longer valid"))
          write := some db }
  | .authenticationUser credentialId passkey signCount, .resume =>
    some (.goto (.authenticationDevice credentialId passkey (db.users passkey.userId) signCount))
  | .authenticationDevice credentialId passkey user signCount, .resume =>
    match user, db.devices passkey.deviceId with
    | some user, some device =>
      if user.disabledAt.isSome || device.revokedAt.isSome then some (.raise loginFailed)
      -- an unchanged sign count is not written
      else if passkey.signCount = signCount then some (.goto (.authenticationTouch passkey user device.trust now))
      else some (.goto (.authenticationSignCount credentialId passkey user device.trust signCount))
    | _, _ => some (.raise loginFailed)
  | .authenticationSignCount credentialId passkey user trust signCount, .resume =>
    some
      { next := .at (.authenticationTouch passkey user trust now)
        write := some (db.updatePasskey credentialId signCount) }
  | .authenticationTouch passkey user trust started, .resume =>
    some
      { next := .at (.createSession passkey.userId user passkey.deviceId trust now)
        write := some (db.updateDevice passkey.deviceId fun device => { device with lastAuthenticatedAt := some started }) }
  | _, _ => none

/-- `_create_session`; its device row is the one the request already holds. -/
def resumeCreate (settings : Settings) (db : Db) (ch : Choice) (pc : Pc) : Option Effect :=
  match pc, ch with
  | .createSession userId user d trust started, .fresh sid token =>
    match db.insertSession
      ⟨sid,userId,d,settings.tokenHash token,.passkey,started + settings.sessionTtl,none,none⟩ with
    | none => some (.raise .integrityError)
    | some db =>
      some
        { next := .at (.audit (.tokens token (principalOf userId user sid d trust .passkey)))
          write := some db }
  | _, _ => none

/-- `verify_totp` and `confirm_totp_enrollment`. -/
def resumeTotp (settings : Settings) (db : Db) (now : Instant) (pc : Pc) : Option Effect :=
  match pc with
  | .totpFactor p code =>
    match db.factors p.userId with
    | none => some (.raise (.authentication "Second factor is not enabled"))
    | some factor =>
      if factor.revokedAt.isSome then some (.raise (.authentication "Second factor is not enabled"))
      else
        match settings.decrypt factor.encryptedSecret with
        | none => some (.raise (.authentication "Second factor is unavailable"))
        | some secret =>
          if settings.totpVerify secret code now then some (.goto (.totpSession p))
          else some (.goto (.audit (.raised (.authentication "Invalid verification code"))))
  | .totpSession p =>
    match db.session p.sessionId with
    | none => some (.raise (.authentication "Session is invalid"))
    | some record =>
      if record.revokedAt.isSome then some (.raise (.authentication "Session is invalid"))
      else some (.goto (.totpStepUp p record now))
  | .totpStepUp p record started =>
    some
      { next := .at (.totpCommit p record)
        write := some (db.updateSession record.id fun record => { record with stepUpAt := some started }) }
  | .totpCommit p record => some { next := .at (.totpUser p record), commit := true }
  | .totpUser p record =>
    match db.users p.userId with
    | none => some (.raise (.authentication "User is unavailable"))
    | some user =>
      some (.ret (.principal (principalOf p.userId user record.id record.deviceId p.deviceTrust .passkeyTotp)))
  | .enrollmentRead p secret encrypted =>
    some (.goto (.enrollmentWrite p secret encrypted (db.factors p.userId).isSome))
  | .enrollmentWrite p _ encrypted existing =>
    match db.upsertFactor p.userId existing encrypted with
    | none => some (.raise .integrityError)
    | some db =>
      some
        { next := .at (.audit .returned)
          write := some db }
  | _ => none

/-- `logout`, `trust_device`, `rename_device` and `revoke_device`. -/
def resumeDevices (db : Db) (now : Instant) (pc : Pc) : Option Effect :=
  match pc with
  | .logoutRead p =>
    match db.session p.sessionId with
    | none => some (.ret .returned)
    | some record => if record.revokedAt.isSome then some (.ret .returned) else some (.goto (.logoutWrite p now))
  | .logoutWrite p started =>
    some
      { next := .at (.audit .returned)
        write := some (db.updateSession p.sessionId fun record => { record with revokedAt := some started }) }
  | .trustRead p d =>
    match ownedDevice db p d with
    | none => some (.raise .keyError)
    | some device =>
      if device.revokedAt.isSome then some (.raise (.securityConflict "A revoked device cannot be trusted"))
      -- an unchanged column is not written
      else if device.trust = .trusted then some (.goto (.audit .returned))
      else some (.goto (.trustWrite d))
  | .trustWrite d =>
    some
      { next := .at (.audit .returned)
        write := some (db.updateDevice d fun device => { device with trust := .trusted }) }
  | .renameRead p d name =>
    match ownedDevice db p d with
    | none => some (.raise .keyError)
    | some device =>
      if device.displayName = name then some (.goto (.commit .returned)) else some (.goto (.renameWrite d name))
  | .renameWrite d name =>
    some
      { next := .at (.commit .returned)
        write := some (db.updateDevice d fun device => { device with displayName := name }) }
  | .revokeRead p d =>
    match ownedDevice db p d with
    | none => some (.raise .keyError)
    | some device =>
      if device.revokedAt.isSome then some (.ret .returned) else some (.goto (.revokeWrite d now))
  | .revokeWrite d started =>
    some
      { next := .at (.revokeSessions d started)
        write := some (db.updateDevice d fun device => { device with revokedAt := some started }) }
  | .revokeSessions d started =>
    some
      { next := .at (.audit .returned)
        write := some (db.revokeSessionsForDevice d started) }
  | .audit result => some { next := .at (.commit result), write := some db }
  | .commit result => some { next := .done result, commit := true }
  | _ => none

/-- The next statement of a request, on the rows it sees. -/
def resume (settings : Settings) (db : Db) (now : Instant) (ch : Choice) (pc : Pc) : Option Effect :=
  match pc with
  | .principalSession _ _ _ | .principalUser _ _ | .principalDevice _ _ _ => resumePrincipal settings db now pc
  | .registrationChallenge _ | .registrationConsume _ _ _ _ _ | .registrationUser _ _ _
  | .registrationDevice _ _ _ _ _ | .registrationPasskey _ _ _ _ _ => resumeRegistration db now ch pc
  | .authenticationChallenge _ _ | .authenticationPasskey _ _ _ | .authenticationConsume _ _ _ _ _
  | .authenticationUser _ _ _ | .authenticationDevice _ _ _ _ | .authenticationSignCount _ _ _ _ _
  | .authenticationTouch _ _ _ _ => resumeAuthentication db now ch pc
  | .createSession _ _ _ _ _ => resumeCreate settings db ch pc
  | .totpFactor _ _ | .totpSession _ | .totpStepUp _ _ _ | .totpCommit _ _ | .totpUser _ _ | .enrollmentRead _ _ _
  | .enrollmentWrite _ _ _ _ => resumeTotp settings db now pc
  | .logoutRead _ | .logoutWrite _ _ | .trustRead _ _ | .trustWrite _ | .renameRead _ _ _ | .renameWrite _ _
  | .revokeRead _ _ | .revokeWrite _ _ | .revokeSessions _ _ | .audit _ | .commit _ => resumeDevices db now pc

/-- A request in progress or answered. -/
structure Task where
  request : Request
  ctl : Ctl

/-- The database with the transaction in progress, the clock and all requests so far. -/
structure Server where
  db : Db
  writer : Option Nat
  working : Db
  clock : Instant
  tasks : Nat → Option Task
  count : Nat

inductive Label
  | request (r : Request) (now : Instant)
  | run (i : Nat) (ch : Choice) (now : Instant)
  | abort (i : Nat)

namespace Server

def pc? (s : Server) (i : Nat) : Option Pc :=
  match s.tasks i with
  | some ⟨_,.at pc⟩ => some pc
  | _ => none

def result? (s : Server) (i : Nat) : Option Result :=
  match s.tasks i with
  | some ⟨_,.done result⟩ => some result
  | _ => none

/-- The rows that request `i` sees. -/
def view (s : Server) (i : Nat) : Db := if s.writer = some i then s.working else s.db

def setCtl (s : Server) (i : Nat) (c : Ctl) : Nat → Option Task :=
  Function.update s.tasks i ((s.tasks i).map fun t => { t with ctl := c })

/-- A writing statement takes the lock or waits for it. -/
def lock (s : Server) (i : Nat) : Option Db → Option Server
  | none => some s
  | some db =>
    match s.writer with
    | none => some { s with writer := some i, working := db }
    | some j => if j = i then some { s with working := db } else none

/-- The transaction of request `i` ends. -/
def release (s : Server) (i : Nat) (commit : Bool) : Server :=
  if s.writer = some i then { s with db := if commit then s.working else s.db, writer := none } else s

/-- A request that ends without a commit is rolled back. -/
def settle (s : Server) (i : Nat) (eff : Effect) : Server :=
  match eff.next with
  | .done _ => s.release i eff.commit
  | .at _ => if eff.commit then s.release i true else s

def apply (s : Server) (i : Nat) (now : Instant) (eff : Effect) : Option Server :=
  (s.lock i eff.write).map fun s => { s.settle i eff with clock := now, tasks := s.setCtl i eff.next }

end Server

def step (settings : Settings) (l : Label) (s : Server) : Option Server :=
  match l with
  | .request r now =>
    if s.clock ≤ now then
      some { s with clock := now, tasks := Function.update s.tasks s.count (some ⟨r,r.begin now⟩), count := s.count + 1 }
    else none
  | .run i ch now =>
    if s.clock ≤ now then
      match s.pc? i with
      | some pc => (resume settings (s.view i) now ch pc).bind (s.apply i now)
      | none => none
    else none
  -- the request is cancelled or a statement fails
  | .abort i =>
    match s.pc? i with
    | some _ => some { s.release i false with tasks := s.setCtl i (.done (.raised .operationalError)) }
    | none => none

/-- A server that has served no request yet. -/
def initial (db : Db) (clock : Instant) : Server := ⟨db,none,db,clock,fun _ => none,0⟩

abbrev Run (settings : Settings) (ok : Label → Server → Prop) : Server → Server → Prop := Reaches (step settings) ok

end AgentGraph.Security
