import AgentGraph.Security.FirstPasskey
import AgentGraph.Security.SessionRows
import Mathlib.Tactic.MkIffOfInductiveProp

/-! # Operations that fail

What an operation raises if its draws are new, and what it has committed by then: an audit row of
the denial, the expiry of an approval, or nothing.
-/
set_option autoImplicit false
namespace AgentGraph.Security.Operations
open OpEffect

/-- The identifier and the token that are drawn are no row's yet. -/
@[mk_iff]
structure Fresh (settings : Settings) (chance : Chance) (db : SecurityDb) : Prop where
  session : (db.accounts.sessions.any fun row => row.id == chance.newId || row.tokenHash == settings.tokenHash chance.token) = false
  challenge : (db.accounts.challenges chance.newId).isSome = false
  device : (db.accounts.devices chance.newId).isSome = false
  approval : (db.approvals chance.newId).isSome = false
  grant : (db.grants.any fun row => row.id == chance.newId) = false
  credential : (db.vault.any fun row => row.id == chance.newId) = false

instance Fresh.decidable (settings : Settings) (chance : Chance) (db : SecurityDb) : Decidable (Fresh settings chance db) :=
  decidable_of_iff _ (fresh_iff settings chance db).symm

/-- What a failed operation leaves of the database. -/
inductive Unharmed (settings : Settings) (db : SecurityDb) (now : Instant) : SecurityDb → Prop
  | same : Unharmed settings db now db
  | denied (row : AuditRow) (h : row.event.result = "denied") : Unharmed settings db now { db with audit := db.audit ++ [row] }
  | expired (a : ApprovalId) (record : ApprovalRecord Instant) (decision : SecurityApprovalDecision) (u : UserId)
      (h : db.approvals a = some record) (hexpired : settings.le? record.expiresAt now = some true) :
    Unharmed settings db now (db.setApproval a (record.decide decision u now "expired"))

variable {settings : Settings}

theorem Unharmed.vault {db after : SecurityDb} {now : Instant} (h : Unharmed settings db now after) : after.vault = db.vault := by
  cases h with
  | same => rfl
  | denied row h => rfl
  | expired a record decision u h hexpired => rfl

/-- If the operation fails, the failure is handled and has done no harm. -/
def Failing (settings : Settings) (handled : Failure → Prop) (db : SecurityDb) (now : Instant) (effect : OpEffect) : Prop :=
  ∀ e, effect.result = .error e → handled e ∧ ∀ after, effect.commit = some after → Unharmed settings db now after

namespace Failing
variable {handled : Failure → Prop} {db : SecurityDb} {now : Instant}

theorem returns {commit : Option SecurityDb} {value : Return} : Failing settings handled db now ⟨commit,.ok value⟩ := by
  intro e he
  cases he

theorem raised {e : Failure} (h : handled e) : Failing settings handled db now ⟨none,.error e⟩ := by
  rintro _ ⟨⟩
  refine ⟨h,?_⟩
  intro after hafter
  cases hafter

theorem unharmed {c : SecurityDb} {e : ServiceError} (h : handled (.service e)) (hc : Unharmed settings db now c) :
    Failing settings handled db now (commitsRaise c e) := by
  rintro _ ⟨⟩
  refine ⟨h,?_⟩
  rintro _ ⟨⟩
  exact hc

theorem flush {α : Type} {rows : Option α} {next : α → OpEffect} (hnone : rows = none → handled (.service .integrityError))
    (h : ∀ row, rows = some row → Failing settings handled db now (next row)) : Failing settings handled db now (OpEffect.flush rows next) := by
  cases rows with
  | none => exact raised (hnone rfl)
  | some row => exact h row rfl

end Failing

/-! ## The checks -/

section Checks
variable {now : Instant} {le? : Instant → Instant → Option Bool}

theorem require_error {p : SessionPrincipal} {permission : Permission} {mfa lockedDown : Bool} {e : ServiceError}
    (h : Security.require p permission mfa lockedDown = .error e) : ∃ message, e = .securityAuthorization message := by
  unfold Security.require at h
  split at h
  · exact ⟨_,(Except.error.inj h).symm⟩
  · split at h
    · exact ⟨_,(Except.error.inj h).symm⟩
    · split at h
      · exact ⟨_,(Except.error.inj h).symm⟩
      · cases h

/-- A deadline that cannot be compared raises what no service expects. -/
theorem checkExpiry_error {expiresAt : Instant} {error e : ServiceError} (h : checkExpiry le? expiresAt now error = .error e) :
    e = error ∨ e = .typeError ∧ le? expiresAt now = none := by
  unfold checkExpiry at h
  split at h
  next hnone => exact .inr ⟨(Except.error.inj h).symm,hnone⟩
  · exact .inl (Except.error.inj h).symm
  · cases h

theorem checkSession_error {row? : Option (SessionRecord Instant)} {e : ServiceError} (h : checkSession le? row? now = .error e) :
    (∃ message, e = .authentication message) ∨
      e = .typeError ∧ ∃ record, row? = some record ∧ record.revokedAt = none ∧ le? record.expiresAt now = none := by
  unfold checkSession at h
  split at h
  · exact .inl ⟨_,(Except.error.inj h).symm⟩
  next record =>
    split at h
    · exact .inl ⟨_,(Except.error.inj h).symm⟩
    next hlive =>
      cases hexpiry : checkExpiry le? record.expiresAt now invalidSession with
      | ok value =>
        rw [hexpiry] at h
        cases h
      | error e' =>
        rw [hexpiry] at h
        cases h
        rcases checkExpiry_error hexpiry with rfl | ⟨rfl,hnone⟩
        · exact .inl ⟨_,rfl⟩
        · exact .inr ⟨rfl,record,rfl,by simpa using hlive,hnone⟩

theorem checkChallenge_error {kind : ChallengeKind} {row? : Option (ChallengeRecord Instant)} {e : ServiceError}
    (h : checkChallenge le? kind row? now = .error e) :
    (∃ message, e = .authentication message) ∨
      e = .typeError ∧ ∃ record, row? = some record ∧ record.consumedAt = none ∧ le? record.expiresAt now = none := by
  unfold checkChallenge at h
  split at h
  · exact .inl ⟨_,(Except.error.inj h).symm⟩
  next record =>
    split at h
    · exact .inl ⟨_,(Except.error.inj h).symm⟩
    · split at h
      · exact .inl ⟨_,(Except.error.inj h).symm⟩
      next hunused =>
        cases hexpiry : checkExpiry le? record.expiresAt now invalidChallenge with
        | ok value =>
          rw [hexpiry] at h
          cases h
        | error e' =>
          rw [hexpiry] at h
          cases h
          rcases checkExpiry_error hexpiry with rfl | ⟨rfl,hnone⟩
          · exact .inl ⟨_,rfl⟩
          · exact .inr ⟨rfl,record,rfl,by simpa using hunused,hnone⟩

theorem requireBootstrapSecret_error {supplied : String} {file : SecretFile} {drawn : UrlSafeToken} {e : ServiceError}
    (h : requireBootstrapSecret supplied file drawn = .error e) :
    (∃ message, e = .authentication message) ∨
      e = .typeError ∧ (isAscii supplied = false ∨ ∃ text, file = some text ∧ isAscii (strip text) = false) := by
  unfold requireBootstrapSecret at h
  dsimp only at h
  split at h
  · exact .inl ⟨_,(Except.error.inj h).symm⟩
  · split at h
    next hforeign =>
      refine .inr ⟨(Except.error.inj h).symm,?_⟩
      rw [Bool.or_eq_true, Bool.not_eq_true', Bool.not_eq_true'] at hforeign
      cases hforeign with
      | inl hsupplied => exact .inl hsupplied
      | inr hexpected =>
        cases file with
        | some text => exact .inr ⟨text,rfl,hexpected⟩
        | none =>
          have hdrawn := (drawn.presentable drawn.text rfl).2
          rw [Option.getD_none] at hexpected
          rw [hexpected] at hdrawn
          cases hdrawn
    · split at h
      · exact .inl ⟨_,(Except.error.inj h).symm⟩
      · cases h

end Checks

/-! ## The operations -/

section Operations
variable {chance : Chance} {db : SecurityDb} {handled : Failure → Prop}

theorem require_failing {p : SessionPrincipal} {permission : Permission} {mfa : Bool} {next : OpEffect} {now : Instant}
    (hauthorization : ∀ message, handled (.service (.securityAuthorization message))) (h : Failing settings handled db now next) :
    Failing settings handled db now (require db p permission mfa next) := by
  unfold require
  split
  · exact h
  next e he =>
    obtain ⟨message,rfl⟩ := require_error he
    split
    · exact .unharmed (hauthorization message) (.denied _ rfl)
    · exact .raised (hauthorization message)

theorem ownedDevice_failing {p : SessionPrincipal} {d : DeviceId} {next : DeviceRecord Instant → OpEffect} {now : Instant}
    (hkey : handled (.service .keyError)) (h : ∀ device, Failing settings handled db now (next device)) :
    Failing settings handled db now (ownedDevice db p d next) := by
  unfold ownedDevice
  split
  · exact .raised hkey
  next device _ =>
    split
    · exact .raised hkey
    · exact h device

theorem found_failing {id : CredentialId} {next : VaultRow → OpEffect} {now : Instant}
    (hvault : ∀ message, handled (.vault message)) (h : ∀ row, Failing settings handled db now (next row)) :
    Failing settings handled db now (Vault.found db id next) := by
  unfold Vault.found
  split
  · exact .raised (hvault _)
  next row _ =>
    split
    · exact .raised (hvault _)
    · exact h row

theorem insertPasskey_taken {accounts : SetupDb} {passkey : PasskeyRow} (h : accounts.insertPasskey passkey = none) :
    (accounts.passkeys.any fun row => row.credentialId == passkey.credentialId) = true := by
  unfold SetupDb.insertPasskey at h
  split at h
  next hany => exact hany
  · cases h

theorem insertChallenge_failing {record : ChallengeRecord Instant} {value : Return} (hfresh : Fresh settings chance db) :
    Failing settings handled db chance.now
      (OpEffect.flush (db.accounts.insertChallenge chance.newId record) fun accounts => commits { db with accounts := accounts } value) := by
  apply Failing.flush
  · intro hnone
    simp [SetupDb.insertChallenge, hfresh.challenge] at hnone
  · intro accounts _
    exact .returns

section AuthService
variable (hauth : ∀ message, handled (.service (.authentication message)))
include hauth

theorem bootstrap_failing {username bootstrapSecret deviceName : String} {file : SecretFile} (hfresh : Fresh settings chance db)
    (hconflict : ∀ message, handled (.service (.authenticationConflict message)))
    (hforeign : isAscii bootstrapSecret = false ∨ (∃ text, file = some text ∧ isAscii (strip text) = false) → handled (.service .typeError)) :
    Failing settings handled db chance.now (bootstrap settings chance db username bootstrapSecret deviceName file) := by
  unfold bootstrap
  split
  next e he =>
    rcases requireBootstrapSecret_error he with ⟨message,rfl⟩ | ⟨rfl,htext⟩
    · exact .raised (hauth message)
    · exact .raised (hforeign htext)
  · split
    · exact .raised (hconflict _)
    next hempty =>
      apply Failing.flush
      · intro hnone
        simp [SetupDb.insertUser, not_not.mp hempty] at hnone
      · intro accounts haccounts
        obtain rfl := SetupDb.insertUser_eq haccounts
        apply Failing.flush
        · intro hnone
          simp [SetupDb.insertChallenge, hfresh.challenge] at hnone
        · intro accounts' _
          exact .returns

theorem beginPasskeyRegistration_failing {p : SessionPrincipal} {deviceName : String} (hfresh : Fresh settings chance db) :
    Failing settings handled db chance.now (beginPasskeyRegistration settings chance db p deviceName) := by
  unfold beginPasskeyRegistration
  split
  · exact .raised (hauth _)
  · split
    · exact .raised (hauth _)
    · exact insertChallenge_failing hfresh

theorem finishPasskeyRegistration_failing {c : ChallengeId} {verification : Option (String × Nat)} (hfresh : Fresh settings chance db)
    (hnaive : ∀ record, db.accounts.challenges c = some record → record.consumedAt = none →
      settings.le? record.expiresAt chance.now = none → handled (.service .typeError))
    (hconflict : ∀ message, handled (.service (.authenticationConflict message)))
    (htaken : ∀ credentialId signCount, verification = some (credentialId,signCount) →
      (db.accounts.passkeys.any fun row => row.credentialId == credentialId) = true → handled (.service .integrityError)) :
    Failing settings handled db chance.now (finishPasskeyRegistration settings chance db c verification) := by
  unfold finishPasskeyRegistration
  split
  next e he =>
    rcases checkChallenge_error he with ⟨message,rfl⟩ | ⟨rfl,record,hrecord,hunused,hnone⟩
    · exact .raised (hauth message)
    · exact .raised (hnaive record hrecord hunused hnone)
  · split
    · exact .raised (hauth _)
    next credentialId signCount =>
      split
      · exact .raised (hconflict _)
      · split
        · exact .raised (hauth _)
        · apply Failing.flush
          · intro hnone
            simp [SetupDb.insertDevice, SetupDb.consumeChallenge, hfresh.device] at hnone
          · intro accounts hdevice
            obtain ⟨-,rfl⟩ := insertDevice_new hdevice
            apply Failing.flush
            · intro hnone
              exact htaken credentialId signCount rfl (insertPasskey_taken hnone)
            · intro accounts' hpasskey
              obtain rfl := SetupDb.insertPasskey_eq hpasskey
              apply Failing.flush
              · intro hnone
                simp [SetupDb.insertSession, SetupDb.consumeChallenge, newSession, hfresh.session] at hnone
              · intro accounts'' _
                exact .returns

theorem beginPasskeyAuthentication_failing {username : String} (hfresh : Fresh settings chance db) :
    Failing settings handled db chance.now (beginPasskeyAuthentication settings chance db username) := by
  unfold beginPasskeyAuthentication
  split
  · exact .raised (hauth _)
  · split
    · exact .raised (hauth _)
    · split
      · exact .raised (hauth _)
      · exact insertChallenge_failing hfresh

theorem finishPasskeyAuthentication_failing {c : ChallengeId} {rawId : Option String} {verification : Option Nat}
    (hfresh : Fresh settings chance db)
    (hnaive : ∀ record, db.accounts.challenges c = some record → record.consumedAt = none →
      settings.le? record.expiresAt chance.now = none → handled (.service .typeError))
    (hconflict : ∀ message, handled (.service (.authenticationConflict message))) :
    Failing settings handled db chance.now (finishPasskeyAuthentication settings chance db c rawId verification) := by
  unfold finishPasskeyAuthentication
  split
  next e he =>
    rcases checkChallenge_error he with ⟨message,rfl⟩ | ⟨rfl,record,hrecord,hunused,hnone⟩
    · exact .raised (hauth message)
    · exact .raised (hnaive record hrecord hunused hnone)
  · split
    · exact .raised (hauth _)
    · split
      · exact .raised (hauth _)
      · split
        · exact .raised (hauth _)
        · split
          · exact .raised (hconflict _)
          · split
            · split
              · exact .raised (hauth _)
              · apply Failing.flush
                · intro hnone
                  simp [SetupDb.insertSession, SetupDb.consumeChallenge, newSession, SecurityDb.updateDevice, SecurityDb.updatePasskey,
                    hfresh.session] at hnone
                · intro accounts _
                  exact .returns
            · exact .raised (hauth _)

theorem principalFromSessionToken_failing {token : String}
    (hnaive : ∀ record ∈ db.accounts.sessions, record.tokenHash = settings.tokenHash token → record.revokedAt = none →
      settings.le? record.expiresAt chance.now = none → handled (.service .typeError)) :
    Failing settings handled db chance.now (principalFromSessionToken settings chance db token) := by
  unfold principalFromSessionToken
  split
  · exact .raised (hauth _)
  · split
    next e he =>
      rcases checkSession_error he with ⟨message,rfl⟩ | ⟨rfl,record,hrecord,hlive,hnone⟩
      · exact .raised (hauth message)
      · exact .raised (hnaive record (List.mem_of_find?_eq_some hrecord) (by simpa using List.find?_some hrecord) hlive hnone)
    · split
      · split
        · exact .raised (hauth _)
        · exact .returns
      · exact .raised (hauth _)

theorem confirmTotpEnrollment_failing {p : SessionPrincipal} {secret code : String} :
    Failing settings handled db chance.now (confirmTotpEnrollment settings chance db p secret code) := by
  unfold confirmTotpEnrollment
  split
  · exact .returns
  · exact .raised (hauth _)

/-- The user is there, so nothing is raised behind the commit of the step-up. -/
theorem verifyTotp_failing {p : SessionPrincipal} {code : String} (hknown : (db.user p.userId).isSome) :
    Failing settings handled db chance.now (verifyTotp settings chance db p code) := by
  unfold verifyTotp
  split
  · exact .raised (hauth _)
  · split
    · exact .raised (hauth _)
    · split
      · exact .raised (hauth _)
      · split
        · split
          · exact .raised (hauth _)
          · split
            · exact .raised (hauth _)
            · dsimp only
              split
              next hnone =>
                rw [hnone] at hknown
                cases hknown
              · exact .returns
        · exact .unharmed (hauth _) (.denied _ rfl)

end AuthService

theorem logout_failing {p : SessionPrincipal} : Failing settings handled db chance.now (logout chance db p) := by
  unfold logout
  split
  · exact .returns
  · split
    · exact .returns
    · exact .returns

section SecurityService
variable (hauthorization : ∀ message, handled (.service (.securityAuthorization message))) {p : SessionPrincipal}

theorem renameDevice_failing {d : DeviceId} {displayName : String} (hkey : handled (.service .keyError)) :
    Failing settings handled db chance.now (renameDevice db p d displayName) := by
  apply ownedDevice_failing hkey
  intro device
  exact .returns

include hauthorization

theorem trustDevice_failing {d : DeviceId} (hkey : handled (.service .keyError))
    (hconflict : ∀ message, handled (.service (.securityConflict message))) :
    Failing settings handled db chance.now (trustDevice db p d) := by
  apply require_failing hauthorization
  apply ownedDevice_failing hkey
  intro device
  split
  · exact .raised (hconflict _)
  · exact .returns

theorem revokeDevice_failing {d : DeviceId} (hkey : handled (.service .keyError)) :
    Failing settings handled db chance.now (revokeDevice chance db p d) := by
  apply require_failing hauthorization
  apply ownedDevice_failing hkey
  intro device
  split
  · exact .returns
  · exact .returns

theorem createApproval_failing {request : ApprovalRequest} (hfresh : Fresh settings chance db) :
    Failing settings handled db chance.now (createApproval chance db p request) := by
  apply require_failing hauthorization
  rw [hfresh.approval]
  exact .returns

theorem decideApproval_failing {a : ApprovalId} {decision : SecurityApprovalDecision} (hfresh : Fresh settings chance db)
    (hnaive : ∀ record, db.approvals a = some record → settings.le? record.expiresAt chance.now = none → handled (.service .typeError))
    (hkey : handled (.service .keyError)) (hconflict : ∀ message, handled (.service (.securityConflict message))) :
    Failing settings handled db chance.now (decideApproval settings chance db p a decision) := by
  apply require_failing hauthorization
  split
  · exact .raised hkey
  next record hrecord =>
    split
    next hnone => exact .raised (hnaive record hrecord hnone)
    next hexpired => exact .unharmed (hconflict _) (.expired a record .reject p.userId hrecord hexpired)
    · split
      · exact .raised (hconflict _)
      · dsimp only
        split
        · split
          · exact .raised (hconflict _)
          · rw [hfresh.grant]
            exact .returns
        · exact .returns

theorem revokeGrant_failing {g : GrantId} (hkey : handled (.service .keyError)) :
    Failing settings handled db chance.now (revokeGrant chance db p g) := by
  apply require_failing hauthorization
  split
  · exact .raised hkey
  · split
    · exact .raised hkey
    · split
      · exact .returns
      · exact .returns

theorem activateLockdown_failing : Failing settings handled db chance.now (activateLockdown chance db p) := by
  apply require_failing hauthorization
  split
  · exact .returns
  · exact .returns

theorem deactivateLockdown_failing : Failing settings handled db chance.now (deactivateLockdown db p) := by
  apply require_failing hauthorization
  split
  · exact .returns
  · exact .returns

theorem requireVaultManagement_failing {now : Instant} : Failing settings handled db now (requireVaultManagement db p) := by
  apply require_failing hauthorization
  split
  · exact .raised (hauthorization _)
  · exact .returns

end SecurityService

section VaultService
variable (hvault : ∀ message, handled (.vault message))
include hvault

theorem create_failing {ownerUserId : UserId} {name credentialType secret : String} (hfresh : Fresh settings chance db)
    (hknown : (db.user ownerUserId).isSome)
    (htaken : (db.vault.any fun row => row.name == name) = true → handled (.service .integrityError)) :
    Failing settings handled db chance.now (Vault.create settings chance db ownerUserId name credentialType secret) := by
  unfold Vault.create
  split
  · exact .raised (hvault _)
  · apply Failing.flush
    · intro hnone
      apply htaken
      unfold SecurityDb.insertVault at hnone
      split at hnone
      next hclash =>
        rw [Bool.or_eq_true, List.any_eq_true] at hclash
        rcases hclash with ⟨row,hrow,hsame⟩ | hunknown
        · rw [Bool.or_eq_true] at hsame
          cases hsame with
          | inl hid => exact absurd hid (Bool.not_eq_true _ ▸ List.any_eq_false.mp hfresh.credential row hrow)
          | inr hname => exact List.any_eq_true.mpr ⟨row,hrow,hname⟩
        · rw [Option.isNone_iff_eq_none] at hunknown
          rw [hunknown] at hknown
          cases hknown
      · cases hnone
    · intro inserted _
      exact .returns

theorem replace_failing {id : CredentialId} {secret : String} :
    Failing settings handled db chance.now (Vault.replace settings chance db id secret) := by
  unfold Vault.replace
  split
  · exact .raised (hvault _)
  · apply found_failing hvault
    intro row
    exact .returns

theorem revoke_failing {id : CredentialId} : Failing settings handled db chance.now (Vault.revoke chance db id) := by
  apply found_failing hvault
  intro row
  exact .returns

end VaultService
end Operations
end AgentGraph.Security.Operations
