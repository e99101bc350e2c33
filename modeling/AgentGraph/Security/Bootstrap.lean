import AgentGraph.Domain.Text
import AgentGraph.Foundation.Database
import AgentGraph.Security.Service

/-! # First-time setup: `bootstrap` and the registration of the first passkey

The secret of the bootstrap lies in a file beside the database. `bootstrap` compares it
before its first statement and removes it after its commit.
-/
set_option autoImplicit false
namespace AgentGraph.Security

structure UserRow extends UserRecord Instant where
  id : UserId
deriving DecidableEq

structure PasskeyRow extends PasskeyRecord Instant where
  credentialId : String
deriving DecidableEq

structure SetupDb where
  users : List UserRow
  challenges : ChallengeId → Option (ChallengeRecord Instant)
  devices : DeviceId → Option (DeviceRecord Instant)
  passkeys : List PasskeyRow
  sessions : List (SessionRecord Instant)

/-- Settings, the comparison `expires_at <= now`, and the hash of a session token. -/
structure SetupSettings where
  le? : Instant → Instant → Option Bool
  challengeTtl : ℤ
  sessionTtl : ℤ
  tokenHash : String → String

/-- The letters, the digits, `-` and `_`. -/
def isUrlSafe (c : Char) : Bool :=
  let n := c.toNat
  (97 ≤ n && n ≤ 122) || (65 ≤ n && n ≤ 90) || (48 ≤ n && n ≤ 57) || n == 45 || n == 95

/-- A value of `secrets.token_urlsafe(32)`. -/
structure UrlSafeToken where
  text : String
  size : text.toList.length = 43
  urlSafe : text.toList.all isUrlSafe = true

/-- The bootstrap secret file, if it exists, with its text. -/
abbrev SecretFile := Option String

/-- What a statement takes from the clock, from `uuid4` and `secrets`, and from
`verify_registration_response`. -/
structure SetupDraw where
  now : Instant
  newId : Nat
  secret : UrlSafeToken
  sessionToken : String
  verification : Option (String × Nat)
  /-- A crash falls between the creation of the secret file and the write of its text. -/
  torn : Bool

inductive SetupCall
  | bootstrap (username bootstrapSecret deviceName : String)
  | finishPasskeyRegistration (c : ChallengeId)

structure RegistrationOptions where
  userName : String
  userId : UserId
  excludeCredentials : List String
deriving DecidableEq

inductive SetupReturn
  | options (c : ChallengeId) (options : RegistrationOptions)
  | tokens (token : String) (p : SessionPrincipal)
deriving DecidableEq

inductive SetupPc
  -- `bootstrap`
  | bootstrapSecret
  | bootstrapUsers
  | bootstrapUser
  | bootstrapChallenge (user : UserRow)
  | bootstrapPasskeys (user : UserRow) (c : ChallengeId)
  | bootstrapAudit (c : ChallengeId) (options : RegistrationOptions)
  | bootstrapCommit (c : ChallengeId) (options : RegistrationOptions)
  | bootstrapUnlink (c : ChallengeId) (options : RegistrationOptions)
  -- `finish_passkey_registration`
  | registrationChallenge
  | registrationConsume (challenge : ChallengeRecord Instant) (credentialId : String) (signCount : Nat) (now : Instant)
  | registrationUser (challenge : ChallengeRecord Instant) (credentialId : String) (signCount : Nat)
  | registrationDevice (user : UserRow) (challenge : ChallengeRecord Instant) (credentialId : String) (signCount : Nat)
  | registrationPasskey (user : UserRow) (d : DeviceId) (credentialId : String) (signCount : Nat)
  | registrationSession (user : UserRow) (d : DeviceId) (now : Instant)
  | registrationAudit (token : String) (p : SessionPrincipal)
  | registrationCommit (token : String) (p : SessionPrincipal)

abbrev SetupResult := Except ServiceError SetupReturn

abbrev SetupEffect := Database.Effect SetupDb SecretFile SetupPc SetupResult

def bootstrapClosed : ServiceError := .authenticationConflict "Bootstrap is no longer available"
def invalidSecret : ServiceError := .authentication "Bootstrap secret is invalid"
def userUnavailable : ServiceError := .authentication "User is unavailable"

namespace SetupDb

/-- `INSERT` of a user; the identifier and the name are unique. -/
def insertUser (db : SetupDb) (user : UserRow) : Option SetupDb :=
  if db.users.any fun other => other.id == user.id || other.username == user.username then none
  else some { db with users := db.users ++ [user] }

def insertChallenge (db : SetupDb) (c : ChallengeId) (challenge : ChallengeRecord Instant) : Option SetupDb :=
  if (db.challenges c).isSome then none
  else some { db with challenges := Function.update db.challenges c (some challenge) }

def insertDevice (db : SetupDb) (d : DeviceId) (device : DeviceRecord Instant) : Option SetupDb :=
  if (db.devices d).isSome then none else some { db with devices := Function.update db.devices d (some device) }

def insertPasskey (db : SetupDb) (passkey : PasskeyRow) : Option SetupDb :=
  if db.passkeys.any fun other => other.credentialId == passkey.credentialId then none
  else some { db with passkeys := db.passkeys ++ [passkey] }

def insertSession (db : SetupDb) (record : SessionRecord Instant) : Option SetupDb :=
  if db.sessions.any fun other => other.id == record.id || other.tokenHash == record.tokenHash then none
  else some { db with sessions := db.sessions ++ [record] }

/-- The condition of the `UPDATE` in `consume_challenge`. -/
def consumable (db : SetupDb) (c : ChallengeId) (now : Instant) : Bool :=
  match db.challenges c with
  | some challenge => challenge.consumedAt.isNone && decide (now < challenge.expiresAt)
  | none => false

def consumeChallenge (db : SetupDb) (c : ChallengeId) (now : Instant) : SetupDb :=
  { db with
    challenges := Function.update db.challenges c
      ((db.challenges c).map fun challenge => { challenge with consumedAt := some now }) }

/-- `list_passkey_credentials_for_user`. -/
def passkeysOf (db : SetupDb) (user : UserId) : List PasskeyRow := db.passkeys.filter fun row => row.userId == user

end SetupDb

namespace SetupEffect

def goto (pc : SetupPc) (o : SecretFile) : SetupEffect := ⟨.at pc,.keep,o⟩

def write (db : SetupDb) (pc : SetupPc) (o : SecretFile) : SetupEffect := ⟨.at pc,.write db,o⟩

def raise (e : ServiceError) (o : SecretFile) : SetupEffect := ⟨.done (.error e),.keep,o⟩

/-- An `INSERT`, which raises if a constraint fails. -/
def insert (db : Option SetupDb) (pc : SetupPc) (o : SecretFile) : SetupEffect :=
  match db with
  | none => raise .integrityError o
  | some db => write db pc o

end SetupEffect

open SetupEffect

/-- `_require_bootstrap_secret`. -/
def requireBootstrapSecret (supplied : String) (file : SecretFile) (drawn : UrlSafeToken) : Except ServiceError Unit :=
  let expected := strip (file.getD drawn.text)
  if expected = "" then .error invalidSecret
  -- `compare_digest` of two strings
  else if !isAscii supplied || !isAscii expected then .error .typeError
  else if supplied ≠ expected then .error invalidSecret
  else .ok ()

/-- `bootstrap`, statement by statement. -/
def resumeBootstrap (settings : SetupSettings) (username bootstrapSecret deviceName : String) (o : SecretFile)
    (db : SetupDb) (draw : SetupDraw) : SetupPc → Option SetupEffect
  | .bootstrapSecret =>
    let file : SecretFile := some (o.getD draw.secret.text)
    match requireBootstrapSecret bootstrapSecret o draw.secret with
    | .error e => some (raise e file)
    | .ok () => some (goto .bootstrapUsers file)
  | .bootstrapUsers => some (if db.users ≠ [] then raise bootstrapClosed o else goto .bootstrapUser o)
  | .bootstrapUser =>
    let user : UserRow := { username := username, role := .owner, disabledAt := none, id := draw.newId }
    some (insert (db.insertUser user) (.bootstrapChallenge user) o)
  | .bootstrapChallenge user =>
    let challenge : ChallengeRecord Instant :=
      ⟨.passkeyRegistration,some user.id,some deviceName,draw.now + settings.challengeTtl,none⟩
    some (insert (db.insertChallenge draw.newId challenge) (.bootstrapPasskeys user draw.newId) o)
  | .bootstrapPasskeys user c =>
    some (goto (.bootstrapAudit c ⟨user.username,user.id,(db.passkeysOf user.id).map PasskeyRow.credentialId⟩) o)
  | .bootstrapAudit c options => some (write db (.bootstrapCommit c options) o)
  | .bootstrapCommit c options => some ⟨.at (.bootstrapUnlink c options),.commit,o⟩
  | .bootstrapUnlink c options => some ⟨.done (.ok (.options c options)),.keep,none⟩
  | _ => none

/-- `finish_passkey_registration`, statement by statement. -/
def resumeFinish (settings : SetupSettings) (c : ChallengeId) (o : SecretFile) (db : SetupDb) (draw : SetupDraw) :
    SetupPc → Option SetupEffect
  | .registrationChallenge =>
    match registrationChallenge settings.le? (db.challenges c) draw.now with
    | .error e => some (raise e o)
    | .ok challenge =>
      match draw.verification with
      | none => some (raise (.authentication "Passkey registration verification failed") o)
      | some (credentialId,signCount) =>
        some (goto (.registrationConsume challenge credentialId signCount draw.now) o)
  | .registrationConsume challenge credentialId signCount now =>
    if db.consumable c now then
      some (write (db.consumeChallenge c now) (.registrationUser challenge credentialId signCount) o)
    else some ⟨.done (.error (.authenticationConflict "Passkey challenge is no longer valid")),.write db,o⟩
  | .registrationUser challenge credentialId signCount =>
    match db.users.find? fun user => some user.id == challenge.userId with
    | none => some (raise userUnavailable o)
    | some user => some (goto (.registrationDevice user challenge credentialId signCount) o)
  | .registrationDevice user challenge credentialId signCount =>
    some (insert (db.insertDevice draw.newId ⟨user.id,challenge.displayName,.limited,none,none⟩)
      (.registrationPasskey user draw.newId credentialId signCount) o)
  | .registrationPasskey user d credentialId signCount =>
    some (insert (db.insertPasskey { userId := user.id, deviceId := d, signCount := signCount, revokedAt := none, credentialId := credentialId })
      (.registrationSession user d draw.now) o)
  | .registrationSession user d now =>
    let session : SessionRecord Instant :=
      ⟨draw.newId,user.id,d,settings.tokenHash draw.sessionToken,.passkey,now + settings.sessionTtl,none,none⟩
    some (insert (db.insertSession session)
      (.registrationAudit draw.sessionToken (principalOf user.id user.toUserRecord draw.newId d .limited .passkey)) o)
  | .registrationAudit token p => some (write db (.registrationCommit token p) o)
  | .registrationCommit token p => some ⟨.done (.ok (.tokens token p)),.commit,o⟩
  | _ => none

def SetupCall.begin : SetupCall → Database.Ctl SetupPc SetupResult
  | .bootstrap _ _ _ => .at .bootstrapSecret
  | .finishPasskeyRegistration _ => .at .registrationChallenge

def SetupCall.resume (settings : SetupSettings) (q : SetupCall) (o : SecretFile) (db : SetupDb) (draw : SetupDraw)
    (pc : SetupPc) : Option SetupEffect :=
  match q with
  | .bootstrap username bootstrapSecret deviceName =>
    resumeBootstrap settings username bootstrapSecret deviceName o db draw pc
  | .finishPasskeyRegistration c => resumeFinish settings c o db draw pc

/-- First-time setup, as calls on the database and the secret file. -/
def setup (settings : SetupSettings) : Database.Program SetupDb SecretFile SetupCall SetupDraw SetupPc SetupResult where
  begin := fun _ q => q.begin
  resume := fun q o db draw pc => q.resume settings o db draw pc
  abandon := fun _ o _ => (o,.error .operationalError)
  restart := fun draw o => if draw.torn && o.isNone then some "" else o

end AgentGraph.Security
