import AgentGraph.Security.FirstOwner
import AgentGraph.Security.Operations

/-! # Which security changes are audited

Each operation is given its verdict: when its commit changes the security tables without an
event, and when it could be taken for a success that it was not.
-/
set_option autoImplicit false
namespace AgentGraph.Security.Operations
open Transition OpEffect

/-- The two states agree on everything that is to be audited. -/
structure SameSecurity (a b : SecurityDb) : Prop where
  users : a.accounts.users = b.accounts.users
  devices : a.accounts.devices = b.accounts.devices
  passkeys : a.accounts.passkeys = b.accounts.passkeys
  sessions : a.accounts.sessions = b.accounts.sessions
  factors : a.factors = b.factors
  approvals : a.approvals = b.approvals
  grants : a.grants = b.grants
  vault : a.vault = b.vault
  lockdown : a.lockedDown = b.lockedDown

def Audited (before after : SecurityDb) : Prop :=
  SameSecurity before after ∨ ∃ rows, rows ≠ [] ∧ after.audit = before.audit ++ rows

/-- No success event is added. -/
def NoSuccess (before after : SecurityDb) : Prop :=
  ∃ rows, after.audit = before.audit ++ rows ∧ ∀ row ∈ rows, row.event.result ≠ "success"

/-- A transaction that changes the security tables commits an event with the change. -/
def AuditsChanges (settings : Settings) (l : Label) (db : SecurityDb) : Prop :=
  ∀ after, (l.effect settings db).commit = some after → Audited db after

/-- An operation that raises and has changed nothing adds no success event. -/
def NoFalseSuccess (settings : Settings) (l : Label) (db : SecurityDb) : Prop :=
  ∀ e after, (l.effect settings db).result = .error e → (l.effect settings db).commit = some after → SameSecurity db after →
    NoSuccess db after

/-! ## The branches that write without an event -/

/-- The principal passes `require`. -/
def Permitted (db : SecurityDb) (p : SessionPrincipal) (permission : Permission) : Prop :=
  Security.require p permission false db.lockedDown = .ok ()

def Owned (db : SecurityDb) (p : SessionPrincipal) (d : DeviceId) (device : DeviceRecord Instant) : Prop :=
  db.accounts.devices d = some device ∧ device.userId = p.userId

/-- The live credential that `replace` and `revoke` find. -/
def Found (db : SecurityDb) (id : CredentialId) (row : VaultRow) : Prop :=
  (db.vault.find? fun row => row.id == id) = some row ∧ row.revokedAt = none

def FactorAccepts (settings : Settings) (chance : Chance) (db : SecurityDb) (u : UserId) (code : String) : Prop :=
  ∃ factor secret, db.factors u = some factor ∧ factor.revokedAt = none ∧
    settings.decrypt factor.encryptedSecret = some secret ∧ settings.totpVerify secret code chance.now = true

/-- A device gets a new name, a session is stepped up, an expired approval is closed, or the
vault is written. -/
def Operation.Silent (settings : Settings) (chance : Chance) (db : SecurityDb) : Operation → Prop
  | renameDevice p d displayName => ∃ device, Owned db p d device ∧ device.displayName ≠ displayName
  | verifyTotp p code => FactorAccepts settings chance db p.userId code ∧
      (∃ record, db.session p.sessionId = some record ∧ record.revokedAt = none) ∧
      ∃ record ∈ db.accounts.sessions, record.id = p.sessionId ∧ record.stepUpAt ≠ some chance.now
  | decideApproval p a _ => Permitted db p .approve ∧
      ∃ record, db.approvals a = some record ∧ settings.le? record.expiresAt chance.now = some true ∧ record.status = "pending"
  | createCredential ownerUserId name _ secret => secret ≠ "" ∧
      (∀ row ∈ db.vault, row.id ≠ chance.newId ∧ row.name ≠ name) ∧ ∃ user, db.user ownerUserId = some user
  | replaceCredential id secret => secret ≠ "" ∧ (∃ row, Found db id row) ∧
      ∃ row ∈ db.vault, row.id = id ∧ ¬(row.encryptedValue = settings.encrypt secret chance.nonce ∧ row.keyVersion = 1)
  | revokeCredential id => ∃ row, Found db id row
  | _ => False

/-- A device is trusted that already is, or a factor is stored that already is. -/
def Operation.Repeats (settings : Settings) (chance : Chance) (db : SecurityDb) : Operation → Prop
  | trustDevice p d => Permitted db p .admin ∧
      ∃ device, Owned db p d device ∧ device.revokedAt = none ∧ device.trust = .trusted
  | confirmTotpEnrollment p secret code => settings.totpVerify secret code chance.now = true ∧
      db.factors p.userId = some ⟨settings.encrypt secret chance.nonce,none⟩
  | _ => False

/-- The commit of the operation is reached. -/
def Label.Silent (settings : Settings) (l : Label) (db : SecurityDb) : Prop :=
  l.operation.Silent settings l.chance db ∧ l.interruption ≠ some .before

/-- The operation is interrupted behind its commit. -/
def Label.Repeats (settings : Settings) (l : Label) (db : SecurityDb) : Prop :=
  l.operation.Repeats settings l.chance db ∧ l.interruption = some .behind

/-! ## Verdicts -/

theorem SameSecurity.refl (db : SecurityDb) : SameSecurity db db := ⟨rfl,rfl,rfl,rfl,rfl,rfl,rfl,rfl,rfl⟩

theorem sameSecurity_note (db : SecurityDb) (p : SessionPrincipal) (event : Event) : SameSecurity db (db.note p event) :=
  ⟨rfl,rfl,rfl,rfl,rfl,rfl,rfl,rfl,rfl⟩

/-- What the commit of an operation is worth, under the conditions that speak against it. -/
structure Verdict (db : SecurityDb) (effect : OpEffect) (silent repeats : Prop) : Prop where
  audited : (∀ after, effect.commit = some after → Audited db after) ↔ ¬silent
  behind : (∀ after, effect.commit = some after → SameSecurity db after → NoSuccess db after) ↔ ¬repeats
  raised : ∀ e after, effect.result = .error e → effect.commit = some after → SameSecurity db after → NoSuccess db after

variable {db : SecurityDb} {effect : OpEffect} {silent repeats : Prop}

theorem noSuccess_note {event : Event} (p : SessionPrincipal) (h : event.result ≠ "success") : NoSuccess db (db.note p event) :=
  ⟨_,rfl,fun row hrow => (by rw [List.mem_singleton.mp hrow]; exact h)⟩

namespace Verdict

theorem rolledBack (h : effect.commit = none) (hsilent : ¬silent) (hrepeats : ¬repeats) : Verdict db effect silent repeats := by
  refine ⟨iff_of_true (fun after ha => ?_) hsilent,iff_of_true (fun after ha => ?_) hrepeats,fun e after _ ha => ?_⟩
  all_goals
    rw [h] at ha
    cases ha

/-- Nothing that is to be audited has changed, and at most a denial is added. -/
theorem harmless {c : SecurityDb} (h : effect.commit = some c) (hsame : SameSecurity db c) (hevents : NoSuccess db c)
    (hsilent : ¬silent) (hrepeats : ¬repeats) : Verdict db effect silent repeats := by
  refine ⟨iff_of_true (fun after ha => ?_) hsilent,iff_of_true (fun after ha _ => ?_) hrepeats,fun e after _ ha _ => ?_⟩
  all_goals
    rw [h] at ha
    cases ha
  · exact .inl hsame
  · exact hevents
  · exact hevents

/-- A change with its event. -/
theorem changes {c : SecurityDb} {row : AuditRow} (h : effect.commit = some c) (hnew : ¬SameSecurity db c)
    (hevent : c.audit = db.audit ++ [row]) (hsilent : ¬silent) (hrepeats : ¬repeats) : Verdict db effect silent repeats := by
  refine ⟨iff_of_true (fun after ha => ?_) hsilent,iff_of_true (fun after ha hsame => ?_) hrepeats,fun e after _ ha hsame => ?_⟩
  all_goals
    rw [h] at ha
    cases ha
  · exact .inr ⟨[row],by simp,hevent⟩
  · exact absurd hsame hnew
  · exact absurd hsame hnew

/-- A change without an event. -/
theorem unaudited {c : SecurityDb} (h : effect.commit = some c) (hnew : ¬SameSecurity db c) (hevent : c.audit = db.audit)
    (hsilent : silent) (hrepeats : ¬repeats) : Verdict db effect silent repeats := by
  refine ⟨iff_of_false (fun hall => ?_) (not_not.mpr hsilent),iff_of_true (fun after ha hsame => ?_) hrepeats,fun e after _ ha hsame => ?_⟩
  · rcases hall c h with hsame | ⟨rows,hrows,hadded⟩
    · exact hnew hsame
    · rw [hevent] at hadded
      exact hrows (List.self_eq_append_right.mp hadded)
  · rw [h] at ha
    cases ha
    exact absurd hsame hnew
  · rw [h] at ha
    cases ha
    exact absurd hsame hnew

/-- An event of a success that has changed nothing. -/
theorem repeated {c : SecurityDb} {row : AuditRow} {value : Return} (h : effect = ⟨some c,.ok value⟩) (hsame : SameSecurity db c)
    (hevent : c.audit = db.audit ++ [row]) (hsuccess : row.event.result = "success") (hsilent : ¬silent) (hrepeats : repeats) :
    Verdict db effect silent repeats := by
  subst h
  refine ⟨iff_of_true (fun after ha => ?_) hsilent,iff_of_false (fun hall => ?_) (not_not.mpr hrepeats),fun e after he => (by cases he)⟩
  · cases ha
    exact .inl hsame
  · obtain ⟨rows,hadded,hrows⟩ := hall c rfl hsame
    rw [hevent] at hadded
    obtain rfl := List.append_cancel_left hadded
    exact hrows row List.mem_cons_self hsuccess

theorem flush {α : Type} {rows : Option α} {next : α → OpEffect} (hsilent : ¬silent) (hrepeats : ¬repeats)
    (h : ∀ a, rows = some a → Verdict db (next a) silent repeats) : Verdict db (OpEffect.flush rows next) silent repeats := by
  cases hrows : rows with
  | none => exact rolledBack rfl hsilent hrepeats
  | some a => exact h a hrows

/-- A denial under lockdown is committed with its event, any other is raised. -/
theorem require {p : SessionPrincipal} {permission : Permission} {mfa : Bool} {next : OpEffect}
    (hdenied : ∀ e, Security.require p permission mfa db.lockedDown = .error e → ¬silent ∧ ¬repeats)
    (hnext : Security.require p permission mfa db.lockedDown = .ok () → Verdict db next silent repeats) :
    Verdict db (Operations.require db p permission mfa next) silent repeats := by
  unfold Operations.require
  split
  next hok => exact hnext hok
  next e he =>
    obtain ⟨hsilent,hrepeats⟩ := hdenied e he
    split
    · exact harmless rfl (sameSecurity_note db p _) (noSuccess_note p (by simp [Event.result])) hsilent hrepeats
    · exact rolledBack rfl hsilent hrepeats

theorem ownedDevice {p : SessionPrincipal} {d : DeviceId} {next : DeviceRecord Instant → OpEffect}
    (hnone : (∀ device, ¬Owned db p d device) → ¬silent ∧ ¬repeats)
    (hnext : ∀ device, Owned db p d device → Verdict db (next device) silent repeats) :
    Verdict db (Operations.ownedDevice db p d next) silent repeats := by
  unfold Operations.ownedDevice
  split
  next hdevice =>
    obtain ⟨hsilent,hrepeats⟩ := hnone fun device hd => (by rw [hd.1] at hdevice; cases hdevice)
    exact rolledBack rfl hsilent hrepeats
  next device hdevice =>
    split
    next hforeign =>
      obtain ⟨hsilent,hrepeats⟩ := hnone fun device' hd => hforeign (by
        obtain rfl : device = device' := Option.some.inj (hdevice.symm.trans hd.1)
        exact hd.2)
      exact rolledBack rfl hsilent hrepeats
    next hown => exact hnext device ⟨hdevice,not_not.mp hown⟩

end Verdict

/-! ## Changes of the tables -/

section Changes
variable {c : SecurityDb}

theorem not_sameSecurity_users (h : db.accounts.users ≠ c.accounts.users) : ¬SameSecurity db c := fun hs => h hs.users

/-- A session more. -/
theorem not_sameSecurity_session (h : ∃ record, c.accounts.sessions = db.accounts.sessions ++ [record]) : ¬SameSecurity db c := by
  intro hs
  obtain ⟨record,hrecord⟩ := h
  have hsame := hs.sessions
  rw [hrecord] at hsame
  simp at hsame

/-- An update of rows changes the table exactly if it changes one of them. -/
theorem map_eq_self_iff {α : Type} {xs : List α} {select : α → Prop} [DecidablePred select] {f : α → α} :
    xs = xs.map (fun a => if select a then f a else a) ↔ ∀ a ∈ xs, select a → f a = a := by
  rw [eq_comm]
  nth_rewrite 2 [← List.map_id xs]
  rw [List.map_inj_left]
  refine forall₂_congr fun a ha => ?_
  by_cases hs : select a <;> simp [hs]

end Changes

/-! ## `AuthService` -/

section Operations
variable (settings : Settings) (chance : Chance) (db : SecurityDb)

/-- Neither condition is about this operation. -/
abbrev Clean (db : SecurityDb) (effect : OpEffect) : Prop := Verdict db effect False False

theorem bootstrap_clean (username bootstrapSecret deviceName : String) (file : SecretFile) :
    Clean db (bootstrap settings chance db username bootstrapSecret deviceName file) := by
  unfold bootstrap
  split
  · exact .rolledBack rfl id id
  · split
    · exact .rolledBack rfl id id
    next hempty =>
      refine .flush id id fun accounts huser => .flush id id fun accounts' hchallenge => ?_
      refine .changes rfl (not_sameSecurity_users ?_) rfl id id
      rw [not_not.mp hempty]
      unfold SetupDb.insertChallenge at hchallenge
      unfold SetupDb.insertUser at huser
      split at hchallenge <;> cases hchallenge
      split at huser <;> cases huser
      simp

/-- A challenge is not audited. -/
theorem challenge_clean {accounts : SetupDb} {c : ChallengeId} {challenge : ChallengeRecord Instant}
    (h : db.accounts.insertChallenge c challenge = some accounts) (value : Return) :
    Clean db (commits { db with accounts := accounts } value) := by
  unfold SetupDb.insertChallenge at h
  split at h <;> cases h
  exact .harmless rfl ⟨rfl,rfl,rfl,rfl,rfl,rfl,rfl,rfl,rfl⟩ ⟨[],by simp,by simp⟩ id id

theorem beginPasskeyRegistration_clean (p : SessionPrincipal) (deviceName : String) :
    Clean db (beginPasskeyRegistration settings chance db p deviceName) := by
  unfold beginPasskeyRegistration
  split
  · exact .rolledBack rfl id id
  · split
    · exact .rolledBack rfl id id
    · exact .flush id id fun accounts h => challenge_clean db h _

theorem insertSession_sessions {accounts accounts' : SetupDb} {record : SessionRecord Instant}
    (h : accounts.insertSession record = some accounts') : accounts'.sessions = accounts.sessions ++ [record] := by
  unfold SetupDb.insertSession at h
  split at h <;> cases h
  rfl

theorem finishPasskeyRegistration_clean (c : ChallengeId) (verification : Option (String × Nat)) :
    Clean db (finishPasskeyRegistration settings chance db c verification) := by
  unfold finishPasskeyRegistration
  split
  · exact .rolledBack rfl id id
  · split
    · exact .rolledBack rfl id id
    · split
      · exact .rolledBack rfl id id
      · split
        · exact .rolledBack rfl id id
        · refine .flush id id fun accounts hdevice => .flush id id fun accounts' hpasskey => .flush id id fun accounts'' hsession => ?_
          have hkept : accounts'.sessions = db.accounts.sessions := by
            unfold SetupDb.insertPasskey at hpasskey
            unfold SetupDb.insertDevice at hdevice
            split at hpasskey <;> cases hpasskey
            split at hdevice <;> cases hdevice
            rfl
          have hadded := insertSession_sessions hsession
          rw [hkept] at hadded
          exact .changes rfl (not_sameSecurity_session ⟨_,hadded⟩) rfl id id

theorem beginPasskeyAuthentication_clean (username : String) :
    Clean db (beginPasskeyAuthentication settings chance db username) := by
  unfold beginPasskeyAuthentication
  split
  · exact .rolledBack rfl id id
  · split
    · exact .rolledBack rfl id id
    · split
      · exact .rolledBack rfl id id
      · exact .flush id id fun accounts h => challenge_clean db h _

theorem finishPasskeyAuthentication_clean (c : ChallengeId) (rawId : Option String) (verification : Option Nat) :
    Clean db (finishPasskeyAuthentication settings chance db c rawId verification) := by
  unfold finishPasskeyAuthentication
  split
  · exact .rolledBack rfl id id
  · split
    · exact .rolledBack rfl id id
    · split
      · exact .rolledBack rfl id id
      · split
        · exact .rolledBack rfl id id
        · split
          · exact .rolledBack rfl id id
          · split
            · split
              · exact .rolledBack rfl id id
              · refine .flush id id fun accounts hsession => ?_
                have hadded := insertSession_sessions hsession
                exact .changes rfl (not_sameSecurity_session ⟨_,hadded⟩) rfl id id
            · exact .rolledBack rfl id id

theorem principalFromSessionToken_clean (token : String) : Clean db (principalFromSessionToken settings chance db token) := by
  unfold principalFromSessionToken
  split
  · exact .rolledBack rfl id id
  · split
    · exact .rolledBack rfl id id
    · split
      · split <;> exact .rolledBack rfl id id
      · exact .rolledBack rfl id id

theorem session_mem {db : SecurityDb} {sid : SessionId} {record : SessionRecord Instant} (h : db.session sid = some record) :
    record ∈ db.accounts.sessions ∧ record.id = sid :=
  ⟨List.mem_of_find?_eq_some h,by simpa using List.find?_some h⟩

theorem logout_clean (p : SessionPrincipal) : Clean db (logout chance db p) := by
  unfold logout
  split
  · exact .rolledBack rfl id id
  next record hsession =>
    split
    · exact .rolledBack rfl id id
    next hlive =>
      refine .changes rfl (fun hsame => ?_) rfl id id
      obtain ⟨hmem,hid⟩ := session_mem hsession
      have hfixed := congrArg SessionRecord.revokedAt (map_eq_self_iff.mp hsame.sessions record hmem hid)
      rw [← hfixed] at hlive
      exact hlive rfl

theorem confirmTotpEnrollment_verdict (p : SessionPrincipal) (secret code : String) :
    Verdict db (confirmTotpEnrollment settings chance db p secret code) False
      ((Operation.confirmTotpEnrollment p secret code).Repeats settings chance db) := by
  unfold confirmTotpEnrollment
  split
  next haccepted =>
    by_cases hsame : db.factors p.userId = some ⟨settings.encrypt secret chance.nonce,none⟩
    · refine .repeated rfl ⟨rfl,rfl,rfl,rfl,?_,rfl,rfl,rfl,rfl⟩ rfl rfl id ⟨haccepted,hsame⟩
      exact (Function.update_eq_self_iff.mpr hsame.symm).symm
    · refine .changes rfl (fun h => hsame ?_) rfl id fun hrepeats => hsame hrepeats.2
      exact (Function.update_eq_self_iff.mp h.factors.symm).symm
  next hrefused => exact .rolledBack rfl id fun hrepeats => hrefused hrepeats.1

/-- The step-up of a live session, by a code that is accepted. -/
theorem stepUp_verdict {p : SessionPrincipal} {code : String} {record : SessionRecord Instant} {effect : OpEffect}
    (haccepts : FactorAccepts settings chance db p.userId code) (hrecord : db.session p.sessionId = some record)
    (hlive : record.revokedAt = none)
    (hcommit : effect.commit = some (db.updateSession p.sessionId fun record => { record with stepUpAt := some chance.now })) :
    Verdict db effect ((Operation.verifyTotp p code).Silent settings chance db) False := by
  by_cases hchanged : ∃ record ∈ db.accounts.sessions, record.id = p.sessionId ∧ record.stepUpAt ≠ some chance.now
  · refine .unaudited hcommit (fun hsame => ?_) rfl ⟨haccepts,⟨record,hrecord,hlive⟩,hchanged⟩ id
    obtain ⟨other,hmem,hid,hold⟩ := hchanged
    exact hold (congrArg SessionRecord.stepUpAt (map_eq_self_iff.mp hsame.sessions other hmem hid)).symm
  · refine .harmless hcommit ⟨rfl,rfl,rfl,?_,rfl,rfl,rfl,rfl,rfl⟩ ⟨[],by simp [SecurityDb.updateSession],by simp⟩
      (fun hsilent => hchanged hsilent.2.2) id
    push Not at hchanged
    exact map_eq_self_iff.mpr fun other hmem hid => by rw [← hchanged other hmem hid]

theorem verifyTotp_verdict (p : SessionPrincipal) (code : String) :
    Verdict db (verifyTotp settings chance db p code) ((Operation.verifyTotp p code).Silent settings chance db) False := by
  unfold verifyTotp
  split
  next hfactor =>
    refine .rolledBack rfl (fun hsilent => ?_) id
    obtain ⟨⟨factor,secret,hsome,hrest⟩,-⟩ := hsilent
    rw [hfactor] at hsome
    cases hsome
  next factor hfactor =>
    have haccepts (h : FactorAccepts settings chance db p.userId code) : factor.revokedAt = none ∧
        ∃ secret, settings.decrypt factor.encryptedSecret = some secret ∧ settings.totpVerify secret code chance.now = true := by
      obtain ⟨other,secret,hother,hlive,hdecrypt,hverify⟩ := h
      obtain rfl := Option.some.inj (hfactor.symm.trans hother)
      exact ⟨hlive,secret,hdecrypt,hverify⟩
    split
    next hrevoked => exact .rolledBack rfl (fun hsilent => by simp [(haccepts hsilent.1).1] at hrevoked) id
    next hlive =>
      split
      next hdecrypt =>
        refine .rolledBack rfl (fun hsilent => ?_) id
        obtain ⟨-,secret,hsome,-⟩ := haccepts hsilent.1
        rw [hdecrypt] at hsome
        cases hsome
      next secret hdecrypt =>
        split
        next hverify =>
          split
          next hnone =>
            refine .rolledBack rfl (fun hsilent => ?_) id
            obtain ⟨record,hsome,-⟩ := hsilent.2.1
            rw [hnone] at hsome
            cases hsome
          next record hrecord =>
            split
            next hrevoked =>
              refine .rolledBack rfl (fun hsilent => ?_) id
              obtain ⟨other,hother,hother_live⟩ := hsilent.2.1
              obtain rfl := Option.some.inj (hrecord.symm.trans hother)
              simp [hother_live] at hrevoked
            next hopen =>
              have hstepUp : FactorAccepts settings chance db p.userId code :=
                ⟨factor,secret,hfactor,by simpa using hlive,hdecrypt,hverify⟩
              split <;> exact stepUp_verdict settings chance db hstepUp hrecord (by simpa using hopen) rfl
        next hverify =>
          refine .harmless rfl (sameSecurity_note db p _) (noSuccess_note p (by simp [Event.result])) (fun hsilent => ?_) id
          obtain ⟨-,other,hother,hother_verify⟩ := haccepts hsilent.1
          obtain rfl := Option.some.inj (hdecrypt.symm.trans hother)
          exact hverify hother_verify

theorem requireCsrf_clean (p : SessionPrincipal) (csrfToken origin : Option String) :
    Clean db (requireCsrf settings p csrfToken origin) := by
  unfold requireCsrf
  split
  · exact .rolledBack rfl id id
  · split <;> exact .rolledBack rfl id id

/-! ## `SecurityService` -/

/-- A permission check, and what follows it. -/
theorem require_clean {p : SessionPrincipal} {permission : Permission} {mfa : Bool} {next : OpEffect} (h : Clean db next) :
    Clean db (require db p permission mfa next) :=
  .require (fun _ _ => ⟨id,id⟩) fun _ => h

theorem device_same_iff {db : SecurityDb} {d : DeviceId} {device : DeviceRecord Instant} (h : db.accounts.devices d = some device)
    (f : DeviceRecord Instant → DeviceRecord Instant) :
    db.accounts.devices = (db.updateDevice d f).accounts.devices ↔ f device = device := by
  rw [eq_comm]
  refine Function.update_eq_self_iff.trans ?_
  simp [h]

theorem renameDevice_verdict (p : SessionPrincipal) (d : DeviceId) (displayName : String) :
    Verdict db (renameDevice db p d displayName) ((Operation.renameDevice p d displayName).Silent settings chance db) False := by
  refine .ownedDevice (fun hnone => ⟨fun ⟨device,hown,_⟩ => hnone device hown,id⟩) fun device hown => ?_
  have hsame := device_same_iff hown.1 fun device => { device with displayName := displayName }
  by_cases hname : device.displayName = displayName
  · refine .harmless rfl ⟨rfl,hsame.mpr (by rw [← hname]),rfl,rfl,rfl,rfl,rfl,rfl,rfl⟩ ⟨[],by simp [SecurityDb.updateDevice],by simp⟩ ?_ id
    rintro ⟨other,hother,hrenamed⟩
    obtain rfl := Option.some.inj (hown.1.symm.trans hother.1)
    exact hrenamed hname
  · refine .unaudited rfl (fun h => hname ?_) rfl ⟨device,hown,hname⟩ id
    exact (congrArg DeviceRecord.displayName (hsame.mp h.devices)).symm

theorem trustDevice_verdict (p : SessionPrincipal) (d : DeviceId) :
    Verdict db (trustDevice db p d) False ((Operation.trustDevice p d).Repeats settings chance db) := by
  refine .require (fun e he => ⟨id,fun hrepeats => ?_⟩) fun hpermitted => ?_
  · rw [show Security.require p .admin false db.lockedDown = .ok () from hrepeats.1] at he
    cases he
  refine .ownedDevice (fun hnone => ⟨id,fun hrepeats => ?_⟩) fun device hown => ?_
  · obtain ⟨device,hown,-⟩ := hrepeats.2
    exact hnone device hown
  have hdevice (hrepeats : (Operation.trustDevice p d).Repeats settings chance db) : device.revokedAt = none ∧ device.trust = .trusted := by
    obtain ⟨other,hother,hrest⟩ := hrepeats.2
    obtain rfl := Option.some.inj (hown.1.symm.trans hother.1)
    exact hrest
  have hsame := device_same_iff hown.1 fun device => { device with trust := .trusted }
  split
  next hrevoked => exact .rolledBack rfl id fun hrepeats => by simp [(hdevice hrepeats).1] at hrevoked
  next hlive =>
    by_cases htrust : device.trust = .trusted
    · refine .repeated rfl ⟨rfl,hsame.mpr (by rw [← htrust]),rfl,rfl,rfl,rfl,rfl,rfl,rfl⟩ rfl rfl id ?_
      exact ⟨hpermitted,device,hown,by simpa using hlive,htrust⟩
    · refine .changes rfl (fun h => htrust ?_) rfl id fun hrepeats => htrust (hdevice hrepeats).2
      exact (congrArg DeviceRecord.trust (hsame.mp h.devices)).symm

theorem revokeDevice_clean (p : SessionPrincipal) (d : DeviceId) : Clean db (revokeDevice chance db p d) := by
  refine require_clean db (.ownedDevice (fun _ => ⟨id,id⟩) fun device hown => ?_)
  split
  · exact .rolledBack rfl id id
  next hlive =>
    refine .changes rfl (fun h => hlive ?_) rfl id id
    rw [← (device_same_iff hown.1 fun device => { device with revokedAt := some chance.now }).mp h.devices]
    rfl

theorem createApproval_clean (p : SessionPrincipal) (request : ApprovalRequest) : Clean db (createApproval chance db p request) := by
  refine require_clean db ?_
  split
  · exact .rolledBack rfl id id
  next hfresh =>
    refine .changes rfl (fun h => hfresh ?_) rfl id id
    rw [← Function.update_eq_self_iff.mp h.approvals.symm]
    rfl

theorem approval_same_iff {db : SecurityDb} {a : ApprovalId} {record : ApprovalRecord Instant} (h : db.approvals a = some record)
    (decided : ApprovalRecord Instant) : db.approvals = (db.setApproval a decided).approvals ↔ decided = record := by
  rw [eq_comm]
  refine Function.update_eq_self_iff.trans ?_
  simp [h]

theorem decide_pending {record : ApprovalRecord Instant} (h : record.status = "pending") (decision : SecurityApprovalDecision)
    (u : UserId) (now : Instant) (status : String) : (record.decide decision u now status).status = status := by
  unfold ApprovalRecord.decide
  rw [if_pos h]

theorem decide_closed {record : ApprovalRecord Instant} (h : record.status ≠ "pending") (decision : SecurityApprovalDecision)
    (u : UserId) (now : Instant) (status : String) : record.decide decision u now status = record := by
  unfold ApprovalRecord.decide
  rw [if_neg h]

/-- A decision that is not the pending status changes the approval. -/
theorem not_sameSecurity_decided {db c : SecurityDb} {a : ApprovalId} {record : ApprovalRecord Instant}
    {decision : SecurityApprovalDecision} {u : UserId} {now : Instant} {status : String} (hrecord : db.approvals a = some record)
    (hpending : record.status = "pending") (hstatus : status ≠ "pending")
    (hc : c.approvals = (db.setApproval a (record.decide decision u now status)).approvals) : ¬SameSecurity db c := by
  intro hsame
  have hdecided := (approval_same_iff hrecord _).mp (hsame.approvals.trans hc)
  apply hstatus
  rw [← decide_pending hpending decision u now status, hdecided, hpending]

theorem decideApproval_verdict (p : SessionPrincipal) (a : ApprovalId) (decision : SecurityApprovalDecision) :
    Verdict db (decideApproval settings chance db p a decision) ((Operation.decideApproval p a decision).Silent settings chance db) False := by
  refine .require (fun e he => ⟨fun hsilent => ?_,id⟩) fun hpermitted => ?_
  · rw [show Security.require p .approve false db.lockedDown = .ok () from hsilent.1] at he
    cases he
  split
  next hnone =>
    refine .rolledBack rfl (fun hsilent => ?_) id
    obtain ⟨record,hrecord,-⟩ := hsilent.2
    rw [hnone] at hrecord
    cases hrecord
  next record hrecord =>
    have hexpired (hsilent : (Operation.decideApproval p a decision).Silent settings chance db) :
        settings.le? record.expiresAt chance.now = some true ∧ record.status = "pending" := by
      obtain ⟨other,hother,hrest⟩ := hsilent.2
      obtain rfl := Option.some.inj (hrecord.symm.trans hother)
      exact hrest
    split
    next hnaive =>
      refine .rolledBack rfl (fun hsilent => ?_) id
      rw [(hexpired hsilent).1] at hnaive
      cases hnaive
    next hdue =>
      by_cases hpending : record.status = "pending"
      · exact .unaudited rfl (not_sameSecurity_decided hrecord hpending (by decide) rfl) rfl ⟨hpermitted,record,hrecord,hdue,hpending⟩ id
      · refine .harmless rfl ⟨rfl,rfl,rfl,rfl,rfl,?_,rfl,rfl,rfl⟩ ⟨[],by simp [SecurityDb.setApproval],by simp⟩
          (fun hsilent => hpending (hexpired hsilent).2) id
        exact (approval_same_iff hrecord _).mpr (decide_closed hpending _ _ _ _)
    next hdue =>
      have hsilent : ¬(Operation.decideApproval p a decision).Silent settings chance db := by
        intro h
        rw [(hexpired h).1] at hdue
        cases hdue
      split
      · exact .rolledBack rfl hsilent id
      next hpending =>
        have hnew : (if decision = .reject then "rejected" else "approved") ≠ "pending" := by split <;> decide
        generalize (if decision = .reject then "rejected" else "approved") = status at hnew ⊢
        split
        · split
          · exact .rolledBack rfl hsilent id
          · split
            · exact .rolledBack rfl hsilent id
            · exact .changes rfl (not_sameSecurity_decided hrecord (not_not.mp hpending) hnew rfl) rfl hsilent id
        · exact .changes rfl (not_sameSecurity_decided hrecord (not_not.mp hpending) hnew rfl) rfl hsilent id

/-- An active grant that is revoked. -/
theorem not_sameSecurity_revoked {db c : SecurityDb} {select : GrantRow Instant → Bool} {now : Instant} {row : GrantRow Instant}
    (hrow : row ∈ db.grants) (hselect : select row = true) (hactive : row.status = .active)
    (hc : c.grants = (db.revokeGrants select now).grants) : ¬SameSecurity db c := by
  intro hsame
  have hrevoked := congrArg GrantRow.status (map_eq_self_iff.mp (hsame.grants.trans hc) row hrow hselect)
  rw [hactive] at hrevoked
  cases hrevoked

theorem revokeGrant_clean (p : SessionPrincipal) (g : GrantId) : Clean db (revokeGrant chance db p g) := by
  refine require_clean db ?_
  split
  · exact .rolledBack rfl id id
  next row hrow =>
    split
    · exact .rolledBack rfl id id
    · split
      next hactive =>
        have hid := List.find?_some (p := fun row : GrantRow Instant => row.id == g) hrow
        exact .changes rfl (not_sameSecurity_revoked (List.mem_of_find?_eq_some hrow) hid hactive rfl) rfl id id
      · exact .rolledBack rfl id id

theorem activateLockdown_clean (p : SessionPrincipal) : Clean db (activateLockdown chance db p) := by
  refine require_clean db ?_
  split
  · exact .rolledBack rfl id id
  next hnormal => exact .changes rfl (fun h => hnormal (h.lockdown.trans rfl)) rfl id id

theorem deactivateLockdown_clean (p : SessionPrincipal) : Clean db (deactivateLockdown db p) := by
  refine require_clean db ?_
  split
  next hlocked =>
    refine .changes rfl (fun h => ?_) rfl id id
    have hnormal := h.lockdown
    rw [hlocked] at hnormal
    cases hnormal
  · exact .rolledBack rfl id id

theorem requireVaultManagement_clean (p : SessionPrincipal) : Clean db (requireVaultManagement db p) := by
  refine require_clean db ?_
  split <;> exact .rolledBack rfl id id

/-! ## `VaultService` -/

theorem insertVault_eq_some_iff {row : VaultRow} {c : SecurityDb} :
    db.insertVault row = some c ↔ ((∀ other ∈ db.vault, other.id ≠ row.id ∧ other.name ≠ row.name) ∧
      ∃ user, db.user row.createdByUserId = some user) ∧ { db with vault := db.vault ++ [row] } = c := by
  unfold SecurityDb.insertVault
  cases db.user row.createdByUserId <;> simp

theorem create_verdict (ownerUserId : UserId) (name credentialType secret : String) :
    Verdict db (Vault.create settings chance db ownerUserId name credentialType secret)
      ((Operation.createCredential ownerUserId name credentialType secret).Silent settings chance db) False := by
  unfold Vault.create
  split
  next hempty => exact .rolledBack rfl (fun hsilent => hsilent.1 hempty) id
  next hsecret =>
    cases hinsert : db.insertVault ⟨chance.newId,name,credentialType,settings.encrypt secret chance.nonce,1,none,ownerUserId⟩ with
    | none =>
      simp only [hinsert]
      refine .rolledBack rfl (fun hsilent => ?_) id
      rw [(insertVault_eq_some_iff db).mpr ⟨hsilent.2,rfl⟩] at hinsert
      cases hinsert
    | some c =>
      simp only [hinsert]
      obtain ⟨hfits,rfl⟩ := (insertVault_eq_some_iff db).mp hinsert
      refine .unaudited rfl (fun h => ?_) rfl ⟨hsecret,hfits⟩ id
      have hvault := h.vault
      simp at hvault

/-- `replace` and `revoke`, with what they write. -/
theorem found_verdict {silent : Prop} (id : CredentialId) (written : VaultRow → VaultRow)
    (hsilent : silent ↔ (∃ row, Found db id row) ∧ ∃ row ∈ db.vault, row.id = id ∧ written row ≠ row) :
    Verdict db (Vault.found db id fun row => commits (db.updateVault id written) (.credential (written row))) silent False := by
  unfold Vault.found
  split
  next hnone =>
    refine .rolledBack rfl (fun h => ?_) not_false
    obtain ⟨⟨row,hrow,-⟩,-⟩ := hsilent.mp h
    rw [hnone] at hrow
    cases hrow
  next row hrow =>
    split
    next hrevoked =>
      refine .rolledBack rfl (fun h => ?_) not_false
      obtain ⟨⟨other,hother,hlive⟩,-⟩ := hsilent.mp h
      obtain rfl := Option.some.inj (hrow.symm.trans hother)
      simp [hlive] at hrevoked
    next hlive =>
      by_cases hchanged : ∃ row ∈ db.vault, row.id = id ∧ written row ≠ row
      · refine .unaudited rfl (fun h => ?_) rfl (hsilent.mpr ⟨⟨row,hrow,by simpa using hlive⟩,hchanged⟩) not_false
        obtain ⟨other,hmem,hid,hnew⟩ := hchanged
        exact hnew (map_eq_self_iff.mp h.vault other hmem hid)
      · refine .harmless rfl ⟨rfl,rfl,rfl,rfl,rfl,rfl,rfl,?_,rfl⟩ ⟨[],by simp [SecurityDb.updateVault],by simp⟩
          (fun h => hchanged (hsilent.mp h).2) not_false
        push Not at hchanged
        exact map_eq_self_iff.mpr hchanged

theorem replace_verdict (id : CredentialId) (secret : String) :
    Verdict db (Vault.replace settings chance db id secret) ((Operation.replaceCredential id secret).Silent settings chance db) False := by
  unfold Vault.replace
  split
  next hempty => exact .rolledBack rfl (fun hsilent => hsilent.1 hempty) not_false
  next hsecret =>
    refine found_verdict db id _ ?_
    have hwritten (row : VaultRow) :
        ({ row with encryptedValue := settings.encrypt secret chance.nonce, keyVersion := 1 } : VaultRow) ≠ row ↔
          ¬(row.encryptedValue = settings.encrypt secret chance.nonce ∧ row.keyVersion = 1) := by
      cases row
      simp [eq_comm]
    simp only [Operation.Silent, hwritten]
    exact and_iff_right hsecret

theorem revoke_verdict (id : CredentialId) :
    Verdict db (Vault.revoke chance db id) ((Operation.revokeCredential id).Silent settings chance db) False := by
  refine found_verdict db id _ ⟨fun hfound => ⟨hfound,?_⟩,And.left⟩
  obtain ⟨row,hrow,hlive⟩ := hfound
  refine ⟨row,List.mem_of_find?_eq_some hrow,by simpa using List.find?_some hrow,fun hsame => ?_⟩
  rw [← hsame] at hlive
  cases hlive

/-! ## Every operation -/

theorem Operation.verdict (op : Operation) :
    Verdict db (op.effect settings chance db) (op.Silent settings chance db) (op.Repeats settings chance db) := by
  cases op with
  | bootstrap username bootstrapSecret deviceName file => exact bootstrap_clean settings chance db _ _ _ _
  | beginPasskeyRegistration p deviceName => exact beginPasskeyRegistration_clean settings chance db _ _
  | finishPasskeyRegistration c verification => exact finishPasskeyRegistration_clean settings chance db _ _
  | beginPasskeyAuthentication username => exact beginPasskeyAuthentication_clean settings chance db _
  | finishPasskeyAuthentication c rawId verification => exact finishPasskeyAuthentication_clean settings chance db _ _ _
  | principalFromSessionToken token => exact principalFromSessionToken_clean settings chance db _
  | logout p => exact logout_clean chance db p
  | confirmTotpEnrollment p secret code => exact confirmTotpEnrollment_verdict settings chance db p secret code
  | verifyTotp p code => exact verifyTotp_verdict settings chance db p code
  | requireCsrf p csrfToken origin => exact requireCsrf_clean settings db p csrfToken origin
  | renameDevice p d displayName => exact renameDevice_verdict settings chance db p d displayName
  | trustDevice p d => exact trustDevice_verdict settings chance db p d
  | revokeDevice p d => exact revokeDevice_clean chance db p d
  | createApproval p request => exact createApproval_clean chance db p request
  | decideApproval p a decision => exact decideApproval_verdict settings chance db p a decision
  | revokeGrant p g => exact revokeGrant_clean chance db p g
  | activateLockdown p => exact activateLockdown_clean chance db p
  | deactivateLockdown p => exact deactivateLockdown_clean db p
  | requireVaultManagement p => exact requireVaultManagement_clean db p
  | createCredential ownerUserId name credentialType secret => exact create_verdict settings chance db _ _ _ _
  | replaceCredential id secret => exact replace_verdict settings chance db id secret
  | revokeCredential id => exact revoke_verdict settings chance db id
  | beginTotpEnrollment | listDevices | listMetadata => exact .rolledBack rfl id id
  | require p permission mfa => exact require_clean db (.rolledBack rfl id id)
  | listApprovals p | listGrants p | lockdownState p | listAudit p => exact require_clean db (.rolledBack rfl id id)

end Operations

/-! ## Runs -/

section Runs
variable (settings : Settings)

theorem auditsChanges_iff (l : Label) (db : SecurityDb) : AuditsChanges settings l db ↔ ¬l.Silent settings db := by
  have hverdict := l.operation.verdict settings l.chance db
  unfold AuditsChanges Label.effect Label.Silent OpEffect.interrupt
  split
  next hnone => simpa [hnone] using hverdict.audited
  next hbefore => simp [hbefore]
  next hbehind => simpa [hbehind] using hverdict.audited

theorem noFalseSuccess_iff (l : Label) (db : SecurityDb) : NoFalseSuccess settings l db ↔ ¬l.Repeats settings db := by
  have hverdict := l.operation.verdict settings l.chance db
  unfold NoFalseSuccess Label.effect Label.Repeats OpEffect.interrupt
  split
  next hnone => exact iff_of_true hverdict.raised fun h => by simp [hnone] at h
  next hbefore => simp [hbefore]
  next hbehind =>
    refine Iff.trans ⟨fun h after => h _ after rfl,fun h _ after _ => h after⟩ (hverdict.behind.trans ?_)
    simp [hbehind]

/-- In every run each change is audited exactly if none of its operations reaches one of the
commits that write without an event, and no failure adds a success exactly if none is
interrupted behind the commit of a success that was there before. -/
theorem changes_audited_iff (ls : List Label) (db : SecurityDb) :
    (ExecOk (step settings) (AuditsChanges settings) ls db ↔ ExecOk (step settings) (fun l db => ¬l.Silent settings db) ls db) ∧
      (ExecOk (step settings) (NoFalseSuccess settings) ls db ↔ ExecOk (step settings) (fun l db => ¬l.Repeats settings db) ls db) := by
  have hchanges : AuditsChanges settings = fun l db => ¬l.Silent settings db := funext₂ fun l db => propext (auditsChanges_iff settings l db)
  have hsuccess : NoFalseSuccess settings = fun l db => ¬l.Repeats settings db := funext₂ fun l db => propext (noFalseSuccess_iff settings l db)
  rw [hchanges, hsuccess]
  exact ⟨Iff.rfl,Iff.rfl⟩

end Runs

/-! ## A device that gets a new name -/

def sampleSettings : Settings :=
  { le? := before?, sessionTtl := 28800, tokenHash := id, totpVerify := fun secret code _ => secret == code, encrypt := fun secret _ => secret,
    decrypt := some, challengeTtl := 300, allowedOrigins := [some "http://localhost"], csrfToken := fun _ => "csrf" }

def emptySecurity : SecurityDb := ⟨⟨[],fun _ => none,fun _ => none,[],[]⟩,fun _ => none,fun _ => none,[],none,[],[]⟩

def sampleChance : Chance := ⟨0,0,sampleSecret,"session",0⟩

def firstOwner : SessionPrincipal := principalOf 0 ⟨"ada",.owner,none⟩ 0 0 .limited .passkey

/-- The first owner registers a passkey and renames the device. -/
def renamingRun : List Label :=
  [⟨.bootstrap "ada" "secret" "laptop" (some "secret"),sampleChance,none⟩,
    ⟨.finishPasskeyRegistration 0 (some ("key",0)),sampleChance,none⟩,
    ⟨.renameDevice firstOwner 0 "desk",sampleChance,none⟩]

/-- The new name is committed without an event. -/
theorem renamed_device_unaudited :
    ¬ ∀ ls : List Label, ExecOk (step sampleSettings) (AuditsChanges sampleSettings) ls emptySecurity := by
  intro h
  obtain ⟨-,hbootstrap⟩ := h renamingRun
  obtain ⟨-,hregistered⟩ := hbootstrap _ rfl
  obtain ⟨hrenamed,-⟩ := hregistered _ rfl
  refine (auditsChanges_iff sampleSettings _ _).mp hrenamed ⟨⟨⟨0,"laptop",.limited,none,none⟩,⟨?_,rfl⟩,by decide⟩,by decide⟩
  rfl

end AgentGraph.Security.Operations
