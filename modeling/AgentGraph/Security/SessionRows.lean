import AgentGraph.Security.FirstOwner
import AgentGraph.Security.Operations
import AgentGraph.Security.Serving

/-! # What the operations keep of the sessions

No operation deletes a session or a device or undoes a revocation, and no two sessions get one
identifier or one token.
-/
set_option autoImplicit false
namespace AgentGraph.Security.Operations
open OpEffect

/-- Every user, session and device is still there, and revoked if it was. -/
structure Keeps (db after : SecurityDb) : Prop where
  users : db.accounts.users ⊆ after.accounts.users
  sessions : ∀ row ∈ db.accounts.sessions, ∃ row' ∈ after.accounts.sessions, SessionRecord.Keeps row row'
  devices : ∀ d device, db.accounts.devices d = some device →
    ∃ device', after.accounts.devices d = some device' ∧ (device.revokedAt.isSome → device'.revokedAt.isSome)

def SecurityDb.UniqueSessions (db : SecurityDb) : Prop :=
  db.accounts.sessions.Pairwise fun row row' => row.id ≠ row'.id ∧ row.tokenHash ≠ row'.tokenHash

theorem Keeps.refl (db : SecurityDb) : Keeps db db :=
  ⟨List.Subset.refl _,fun row h => ⟨row,h,.refl row⟩,fun _ device h => ⟨device,h,id⟩⟩

theorem Keeps.trans {a b c : SecurityDb} (h : Keeps a b) (h' : Keeps b c) : Keeps a c := by
  constructor
  · exact fun row hrow => h'.users (h.users hrow)
  · intro row hrow
    obtain ⟨row₁,h₁,hk₁⟩ := h.sessions row hrow
    obtain ⟨row₂,h₂,hk₂⟩ := h'.sessions row₁ h₁
    exact ⟨row₂,h₂,hk₁.trans hk₂⟩
  · intro d device hd
    obtain ⟨device₁,h₁,hr₁⟩ := h.devices d device hd
    obtain ⟨device₂,h₂,hr₂⟩ := h'.devices d device₁ h₁
    exact ⟨device₂,h₂,hr₂ ∘ hr₁⟩

theorem SecurityDb.UniqueSessions.eq_of {db : SecurityDb} (h : db.UniqueSessions) {row row' : SessionRecord Instant}
    (hr : row ∈ db.accounts.sessions) (hr' : row' ∈ db.accounts.sessions) (hid : row.id = row'.id) : row = row' := by
  by_contra hne
  have hsymm : Std.Symm fun row row' : SessionRecord Instant => row.id ≠ row'.id ∧ row.tokenHash ≠ row'.tokenHash :=
    ⟨fun _ _ h => ⟨h.1.symm,h.2.symm⟩⟩
  exact (List.Pairwise.forall h hr hr' hne).1 hid

/-- What an operation commits keeps the rows. -/
def Keeping (db : SecurityDb) (effect : OpEffect) : Prop :=
  ∀ after, effect.commit = some after → Keeps db after ∧ (db.UniqueSessions → after.UniqueSessions)

namespace Keeping
variable {db : SecurityDb} {effect : OpEffect}

theorem nothing (h : effect.commit = none) : Keeping db effect := by
  intro after hafter
  rw [h] at hafter
  cases hafter

theorem same {c : SecurityDb} (h : effect.commit = some c) (husers : db.accounts.users ⊆ c.accounts.users) (hsessions : c.accounts.sessions = db.accounts.sessions)
    (hdevices : c.accounts.devices = db.accounts.devices) : Keeping db effect := by
  intro after hafter
  obtain rfl : c = after := Option.some.inj (h.symm.trans hafter)
  refine ⟨⟨husers,?_,?_⟩,?_⟩
  · rw [hsessions]
    exact (Keeps.refl db).sessions
  · rw [hdevices]
    exact (Keeps.refl db).devices
  · unfold SecurityDb.UniqueSessions
    rw [hsessions]
    exact id

/-- An `UPDATE` of session rows and of one device. -/
theorem updates {c : SecurityDb} (h : effect.commit = some c) (husers : c.accounts.users = db.accounts.users) {f : SessionRecord Instant → SessionRecord Instant}
    (hf : ∀ row, SessionRecord.Keeps row (f row)) (hsessions : c.accounts.sessions = db.accounts.sessions.map f)
    (hdevices : ∀ d device, db.accounts.devices d = some device →
      ∃ device', c.accounts.devices d = some device' ∧ (device.revokedAt.isSome → device'.revokedAt.isSome)) :
    Keeping db effect := by
  intro after hafter
  obtain rfl : c = after := Option.some.inj (h.symm.trans hafter)
  refine ⟨⟨husers ▸ List.Subset.refl _,?_,hdevices⟩,?_⟩
  · intro row hrow
    rw [hsessions]
    exact ⟨f row,List.mem_map_of_mem hrow,hf row⟩
  · intro hunique
    unfold SecurityDb.UniqueSessions
    rw [hsessions, List.pairwise_map]
    refine List.Pairwise.imp ?_ hunique
    intro row row' hd
    rw [(hf row).id, (hf row').id, (hf row).tokenHash, (hf row').tokenHash]
    exact hd

/-- A session is added that no row has the identifier or the token of. -/
theorem adds {c : SecurityDb} (h : effect.commit = some c) (husers : c.accounts.users = db.accounts.users) {record : SessionRecord Instant}
    (hnew : ∀ row ∈ db.accounts.sessions, row.id ≠ record.id ∧ row.tokenHash ≠ record.tokenHash)
    (hsessions : c.accounts.sessions = db.accounts.sessions ++ [record])
    (hdevices : ∀ d device, db.accounts.devices d = some device →
      ∃ device', c.accounts.devices d = some device' ∧ (device.revokedAt.isSome → device'.revokedAt.isSome)) :
    Keeping db effect := by
  intro after hafter
  obtain rfl : c = after := Option.some.inj (h.symm.trans hafter)
  refine ⟨⟨husers ▸ List.Subset.refl _,?_,hdevices⟩,?_⟩
  · intro row hrow
    rw [hsessions]
    exact ⟨row,List.mem_append_left _ hrow,.refl row⟩
  · intro hunique
    unfold SecurityDb.UniqueSessions
    rw [hsessions]
    refine List.pairwise_append.mpr ⟨hunique,List.pairwise_singleton _ _,?_⟩
    intro row hrow row' hrow'
    rw [List.mem_singleton.mp hrow']
    exact hnew row hrow

theorem flush {α : Type} {rows : Option α} {next : α → OpEffect} (h : ∀ row, rows = some row → Keeping db (next row)) :
    Keeping db (OpEffect.flush rows next) := by
  cases rows with
  | none => exact nothing rfl
  | some row => exact h row rfl

theorem require {p : SessionPrincipal} {permission : Permission} {mfa : Bool} {next : OpEffect} (h : Keeping db next) :
    Keeping db (Operations.require db p permission mfa next) := by
  unfold Operations.require
  split
  · exact h
  · split
    · exact same rfl (List.Subset.refl _) rfl rfl
    · exact nothing rfl

theorem ownedDevice {p : SessionPrincipal} {d : DeviceId} {next : DeviceRecord Instant → OpEffect}
    (h : ∀ device, db.accounts.devices d = some device → Keeping db (next device)) :
    Keeping db (Operations.ownedDevice db p d next) := by
  unfold Operations.ownedDevice
  split
  · exact nothing rfl
  next device hdevice =>
    split
    · exact nothing rfl
    · exact h device hdevice

theorem found {id : CredentialId} {next : VaultRow → OpEffect} (h : ∀ row, Keeping db (next row)) :
    Keeping db (Vault.found db id next) := by
  unfold Vault.found
  split
  · exact nothing rfl
  · split
    · exact nothing rfl
    · exact h _

end Keeping

section Devices
variable {db : SecurityDb}

theorem devices_updated {f : DeviceRecord Instant → DeviceRecord Instant} (d : DeviceId)
    (hf : ∀ device, device.revokedAt.isSome → (f device).revokedAt.isSome) (e : DeviceId) (device : DeviceRecord Instant)
    (h : db.accounts.devices e = some device) :
    ∃ device', (db.updateDevice d f).accounts.devices e = some device' ∧ (device.revokedAt.isSome → device'.revokedAt.isSome) := by
  by_cases he : e = d
  · subst he
    exact ⟨f device,by simp [SecurityDb.updateDevice, h],hf device⟩
  · exact ⟨device,by simpa [SecurityDb.updateDevice, he] using h,id⟩

theorem insertSession_new {accounts accounts' : SetupDb} {record : SessionRecord Instant} (h : accounts.insertSession record = some accounts') :
    (∀ row ∈ accounts.sessions, row.id ≠ record.id ∧ row.tokenHash ≠ record.tokenHash) ∧
      accounts' = { accounts with sessions := accounts.sessions ++ [record] } := by
  unfold SetupDb.insertSession at h
  split at h
  · cases h
  next hnone =>
    constructor
    · intro row hrow
      simp only [List.any_eq_true, Bool.or_eq_true, beq_iff_eq, not_exists, not_and, not_or] at hnone
      exact hnone row hrow
    · exact (Option.some.inj h).symm

theorem insertDevice_new {accounts accounts' : SetupDb} {d : DeviceId} {record : DeviceRecord Instant}
    (h : accounts.insertDevice d record = some accounts') :
    accounts.devices d = none ∧ accounts' = { accounts with devices := Function.update accounts.devices d (some record) } := by
  unfold SetupDb.insertDevice at h
  split at h
  · cases h
  next hnone => exact ⟨by simpa using hnone,(Option.some.inj h).symm⟩

end Devices

section Operations
variable (settings : Settings) (chance : Chance) (db : SecurityDb)

theorem bootstrap_keeping (username bootstrapSecret deviceName : String) (file : SecretFile) :
    Keeping db (bootstrap settings chance db username bootstrapSecret deviceName file) := by
  unfold bootstrap
  split
  · exact .nothing rfl
  · split
    · exact .nothing rfl
    · apply Keeping.flush
      intro accounts haccounts
      apply Keeping.flush
      intro accounts' haccounts'
      obtain rfl := SetupDb.insertUser_eq haccounts
      obtain ⟨-,rfl⟩ := SetupDb.insertChallenge_eq haccounts'
      exact .same rfl (List.subset_append_left _ _) rfl rfl

theorem insertChallenge_keeping {c : ChallengeId} {challenge : ChallengeRecord Instant} {value : Return} :
    Keeping db (OpEffect.flush (db.accounts.insertChallenge c challenge) fun accounts => commits { db with accounts := accounts } value) := by
  apply Keeping.flush
  intro accounts haccounts
  obtain ⟨-,rfl⟩ := SetupDb.insertChallenge_eq haccounts
  exact .same rfl (List.Subset.refl _) rfl rfl

theorem finishPasskeyRegistration_keeping (c : ChallengeId) (verification : Option (String × Nat)) :
    Keeping db (finishPasskeyRegistration settings chance db c verification) := by
  unfold finishPasskeyRegistration
  split
  · exact .nothing rfl
  · split
    · exact .nothing rfl
    · split
      · exact .nothing rfl
      · split
        · exact .nothing rfl
        · apply Keeping.flush
          intro accounts hdevice
          apply Keeping.flush
          intro accounts' hpasskey
          apply Keeping.flush
          intro accounts'' hsession
          obtain ⟨hnone,rfl⟩ := insertDevice_new hdevice
          obtain rfl := SetupDb.insertPasskey_eq hpasskey
          obtain ⟨hnew,rfl⟩ := insertSession_new hsession
          refine .adds rfl rfl hnew rfl ?_
          intro d device hd
          refine ⟨device,?_,id⟩
          refine (Function.update_of_ne ?_ _ _).trans hd
          rintro rfl
          exact absurd (hnone.symm.trans hd) (by simp)

theorem beginPasskeyRegistration_keeping (p : SessionPrincipal) (deviceName : String) :
    Keeping db (beginPasskeyRegistration settings chance db p deviceName) := by
  unfold beginPasskeyRegistration
  split
  · exact .nothing rfl
  · split
    · exact .nothing rfl
    · exact insertChallenge_keeping db

theorem beginPasskeyAuthentication_keeping (username : String) :
    Keeping db (beginPasskeyAuthentication settings chance db username) := by
  unfold beginPasskeyAuthentication
  split
  · exact .nothing rfl
  · split
    · exact .nothing rfl
    · split
      · exact .nothing rfl
      · exact insertChallenge_keeping db

theorem finishPasskeyAuthentication_keeping (c : ChallengeId) (rawId : Option String) (verification : Option Nat) :
    Keeping db (finishPasskeyAuthentication settings chance db c rawId verification) := by
  unfold finishPasskeyAuthentication
  split
  · exact .nothing rfl
  · split
    · exact .nothing rfl
    next passkey _ =>
      split
      · exact .nothing rfl
      · split
        · exact .nothing rfl
        · split
          · exact .nothing rfl
          · split
            · split
              · exact .nothing rfl
              · apply Keeping.flush
                intro accounts hsession
                obtain ⟨hnew,rfl⟩ := insertSession_new hsession
                exact .adds rfl rfl hnew rfl (devices_updated passkey.deviceId fun _ h => h)
            · exact .nothing rfl

theorem principalFromSessionToken_keeping (token : String) :
    Keeping db (principalFromSessionToken settings chance db token) := by
  unfold principalFromSessionToken
  split
  · exact .nothing rfl
  · split
    · exact .nothing rfl
    · split
      · split <;> exact .nothing rfl
      · exact .nothing rfl

/-- The session is revoked or stepped up, and nothing else. -/
theorem updateSession_keeping {sid : SessionId} {f : SessionRecord Instant → SessionRecord Instant} {effect : OpEffect} {c : SecurityDb}
    (h : effect.commit = some c) (husers : c.accounts.users = db.accounts.users) (hf : ∀ row, SessionRecord.Keeps row (f row))
    (hsessions : c.accounts.sessions = (db.updateSession sid f).accounts.sessions)
    (hdevices : c.accounts.devices = db.accounts.devices) : Keeping db effect := by
  refine .updates h husers (fun row => keeps_ite (hf row)) hsessions ?_
  rw [hdevices]
  exact (Keeps.refl db).devices

theorem keeps_revoked (row : SessionRecord Instant) (now : Instant) : row.Keeps { row with revokedAt := some now } :=
  ⟨rfl,rfl,rfl,rfl,rfl,fun _ => rfl⟩

theorem keeps_steppedUp (row : SessionRecord Instant) (now : Instant) : row.Keeps { row with stepUpAt := some now } :=
  ⟨rfl,rfl,rfl,rfl,rfl,id⟩

theorem logout_keeping (p : SessionPrincipal) : Keeping db (logout chance db p) := by
  unfold logout
  split
  · exact .nothing rfl
  · split
    · exact .nothing rfl
    · exact updateSession_keeping db rfl rfl (fun row => keeps_revoked row chance.now) rfl rfl

theorem verifyTotp_keeping (p : SessionPrincipal) (code : String) : Keeping db (verifyTotp settings chance db p code) := by
  unfold verifyTotp
  split
  · exact .nothing rfl
  · split
    · exact .nothing rfl
    · split
      · exact .nothing rfl
      · split
        · split
          · exact .nothing rfl
          · split
            · exact .nothing rfl
            · dsimp only
              split <;> exact updateSession_keeping db rfl rfl (fun row => keeps_steppedUp row chance.now) rfl rfl
        · exact .same rfl (List.Subset.refl _) rfl rfl

theorem renameDevice_keeping (p : SessionPrincipal) (d : DeviceId) (displayName : String) :
    Keeping db (renameDevice db p d displayName) := by
  apply Keeping.ownedDevice
  intro device _
  exact .updates rfl rfl SessionRecord.Keeps.refl (List.map_id _).symm (devices_updated d fun _ h => h)

theorem trustDevice_keeping (p : SessionPrincipal) (d : DeviceId) : Keeping db (trustDevice db p d) := by
  apply Keeping.require
  apply Keeping.ownedDevice
  intro device _
  split
  · exact .nothing rfl
  · exact .updates rfl rfl SessionRecord.Keeps.refl (List.map_id _).symm (devices_updated d fun _ h => h)

theorem revokeDevice_keeping (p : SessionPrincipal) (d : DeviceId) : Keeping db (revokeDevice chance db p d) := by
  apply Keeping.require
  apply Keeping.ownedDevice
  intro device _
  split
  · exact .nothing rfl
  · exact .updates rfl rfl (fun row => keeps_ite (keeps_revoked row chance.now)) rfl (devices_updated d fun _ _ => rfl)

theorem createApproval_keeping (p : SessionPrincipal) (request : ApprovalRequest) :
    Keeping db (createApproval chance db p request) := by
  apply Keeping.require
  split
  · exact .nothing rfl
  · exact .same rfl (List.Subset.refl _) rfl rfl

theorem decideApproval_keeping (p : SessionPrincipal) (a : ApprovalId) (decision : SecurityApprovalDecision) :
    Keeping db (decideApproval settings chance db p a decision) := by
  apply Keeping.require
  split
  · exact .nothing rfl
  · split
    · exact .nothing rfl
    · exact .same rfl (List.Subset.refl _) rfl rfl
    · split
      · exact .nothing rfl
      · dsimp only
        split
        · split
          · exact .nothing rfl
          · split
            · exact .nothing rfl
            · exact .same rfl (List.Subset.refl _) rfl rfl
        · exact .same rfl (List.Subset.refl _) rfl rfl

theorem revokeGrant_keeping (p : SessionPrincipal) (g : GrantId) : Keeping db (revokeGrant chance db p g) := by
  apply Keeping.require
  split
  · exact .nothing rfl
  · split
    · exact .nothing rfl
    · split
      · exact .same rfl (List.Subset.refl _) rfl rfl
      · exact .nothing rfl

theorem activateLockdown_keeping (p : SessionPrincipal) : Keeping db (activateLockdown chance db p) := by
  apply Keeping.require
  split
  · exact .nothing rfl
  · exact .same rfl (List.Subset.refl _) rfl rfl

theorem deactivateLockdown_keeping (p : SessionPrincipal) : Keeping db (deactivateLockdown db p) := by
  apply Keeping.require
  split
  · exact .same rfl (List.Subset.refl _) rfl rfl
  · exact .nothing rfl

theorem confirmTotpEnrollment_keeping (p : SessionPrincipal) (secret code : String) :
    Keeping db (confirmTotpEnrollment settings chance db p secret code) := by
  unfold confirmTotpEnrollment
  split
  · exact .same rfl (List.Subset.refl _) rfl rfl
  · exact .nothing rfl

theorem requireCsrf_keeping (p : SessionPrincipal) (csrfToken origin : Option String) :
    Keeping db (requireCsrf settings p csrfToken origin) := by
  unfold requireCsrf
  split
  · exact .nothing rfl
  · split <;> exact .nothing rfl

theorem requireVaultManagement_keeping (p : SessionPrincipal) : Keeping db (requireVaultManagement db p) := by
  apply Keeping.require
  split <;> exact .nothing rfl

theorem create_keeping (ownerUserId : UserId) (name credentialType secret : String) :
    Keeping db (Vault.create settings chance db ownerUserId name credentialType secret) := by
  unfold Vault.create
  split
  · exact .nothing rfl
  · apply Keeping.flush
    intro inserted hinserted
    unfold SecurityDb.insertVault at hinserted
    split at hinserted <;> cases hinserted
    exact .same rfl (List.Subset.refl _) rfl rfl

theorem replace_keeping (id : CredentialId) (secret : String) : Keeping db (Vault.replace settings chance db id secret) := by
  unfold Vault.replace
  split
  · exact .nothing rfl
  · exact .found fun _ => .same rfl (List.Subset.refl _) rfl rfl

theorem revoke_keeping (id : CredentialId) : Keeping db (Vault.revoke chance db id) := .found fun _ => .same rfl (List.Subset.refl _) rfl rfl

theorem Operation.keeping (op : Operation) : Keeping db (op.effect settings chance db) := by
  cases op with
  | bootstrap username bootstrapSecret deviceName file => exact bootstrap_keeping settings chance db _ _ _ _
  | beginPasskeyRegistration p deviceName => exact beginPasskeyRegistration_keeping settings chance db _ _
  | finishPasskeyRegistration c verification => exact finishPasskeyRegistration_keeping settings chance db _ _
  | beginPasskeyAuthentication username => exact beginPasskeyAuthentication_keeping settings chance db _
  | finishPasskeyAuthentication c rawId verification => exact finishPasskeyAuthentication_keeping settings chance db _ _ _
  | principalFromSessionToken token => exact principalFromSessionToken_keeping settings chance db _
  | logout p => exact logout_keeping chance db p
  | confirmTotpEnrollment p secret code => exact confirmTotpEnrollment_keeping settings chance db p secret code
  | verifyTotp p code => exact verifyTotp_keeping settings chance db p code
  | requireCsrf p csrfToken origin => exact requireCsrf_keeping settings db p csrfToken origin
  | renameDevice p d displayName => exact renameDevice_keeping db p d displayName
  | trustDevice p d => exact trustDevice_keeping db p d
  | revokeDevice p d => exact revokeDevice_keeping chance db p d
  | createApproval p request => exact createApproval_keeping chance db p request
  | decideApproval p a decision => exact decideApproval_keeping settings chance db p a decision
  | revokeGrant p g => exact revokeGrant_keeping chance db p g
  | activateLockdown p => exact activateLockdown_keeping chance db p
  | deactivateLockdown p => exact deactivateLockdown_keeping db p
  | requireVaultManagement p => exact requireVaultManagement_keeping db p
  | createCredential ownerUserId name credentialType secret => exact create_keeping settings chance db _ _ _ _
  | replaceCredential id secret => exact replace_keeping settings chance db id secret
  | revokeCredential id => exact revoke_keeping chance db id
  | beginTotpEnrollment | listDevices | listMetadata => exact .nothing rfl
  | require p permission mfa => exact .require (.nothing rfl)
  | listApprovals p | listGrants p | lockdownState p | listAudit p => exact .require (.nothing rfl)

end Operations
end AgentGraph.Security.Operations
