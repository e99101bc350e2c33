import AgentGraph.Security.Operations

/-! # Three forms of the accounts

The accounts are rows in `SetupDb` and look-ups in `Db`, and `SecurityDb` holds the rows beside its other tables. A
statement does the same in each form.
-/
set_option autoImplicit false
namespace AgentGraph.Security

/-- The rows by their keys. -/
def SetupDb.toDb (accounts : SetupDb) (factors : UserId → Option (FactorRecord Instant)) : Db where
  users := fun u => (accounts.users.find? fun row => row.id == u).map UserRow.toUserRecord
  devices := accounts.devices
  sessions := accounts.sessions
  passkeys := fun credentialId =>
    (accounts.passkeys.find? fun row => row.credentialId == credentialId).map PasskeyRow.toPasskeyRecord
  challenges := accounts.challenges
  factors := factors

def Operations.SecurityDb.toDb (db : Operations.SecurityDb) : Db := db.accounts.toDb db.factors

/-! ## Statements -/

section Accounts
variable (accounts : SetupDb) (factors : UserId → Option (FactorRecord Instant))

theorem SetupDb.toDb_insertDevice (d : DeviceId) (device : DeviceRecord Instant) :
    (accounts.insertDevice d device).map (SetupDb.toDb · factors) = (accounts.toDb factors).insertDevice d device := by
  unfold SetupDb.insertDevice Db.insertDevice
  rw [apply_ite (Option.map _)]
  rfl

theorem SetupDb.toDb_insertSession (record : SessionRecord Instant) :
    (accounts.insertSession record).map (SetupDb.toDb · factors) = (accounts.toDb factors).insertSession record := by
  unfold SetupDb.insertSession Db.insertSession
  rw [apply_ite (Option.map _)]
  rfl

theorem SetupDb.toDb_insertPasskey (row : PasskeyRow) :
    (accounts.insertPasskey row).map (SetupDb.toDb · factors) =
      (accounts.toDb factors).insertPasskey row.credentialId row.toPasskeyRecord := by
  have hpasskeys (k : String) : (accounts.toDb factors).passkeys k =
      (accounts.passkeys.find? fun other => other.credentialId == k).map PasskeyRow.toPasskeyRecord := rfl
  unfold SetupDb.insertPasskey Db.insertPasskey
  cases hfind : accounts.passkeys.find? fun other => other.credentialId == row.credentialId with
  | some other =>
    have hkey := List.find?_some hfind
    have hany : (accounts.passkeys.any fun other => other.credentialId == row.credentialId) = true :=
      List.any_eq_true.mpr ⟨other,List.mem_of_find?_eq_some hfind,hkey⟩
    simp [hpasskeys,hfind,hany]
  | none =>
    have hany : (accounts.passkeys.any fun other => other.credentialId == row.credentialId) = false :=
      List.any_eq_false.mpr (List.find?_eq_none.mp hfind)
    simp only [hany, hpasskeys, hfind, Bool.false_eq_true, if_false, Option.map_some, Option.map_none, Option.isSome_none,
      Option.some.injEq]
    -- the new row is the last one, and its key is new
    unfold SetupDb.toDb
    congr 1
    funext k
    rw [List.find?_append,Function.update_apply]
    by_cases hk : k = row.credentialId
    · rw [hk,hfind]
      simp
    · simp [hk,Ne.symm hk]

theorem SetupDb.toDb_consumable (c : ChallengeId) (now : Instant) :
    accounts.consumable c now = (accounts.toDb factors).consumable c now := rfl

theorem SetupDb.toDb_consumeChallenge (c : ChallengeId) (now : Instant) :
    (accounts.consumeChallenge c now).toDb factors = (accounts.toDb factors).consumeChallenge c now := rfl

end Accounts

namespace Operations.SecurityDb
variable (db : SecurityDb)

@[simp] theorem toDb_users (u : UserId) : db.toDb.users u = (db.user u).map UserRow.toUserRecord := rfl

@[simp] theorem toDb_devices : db.toDb.devices = db.accounts.devices := rfl

@[simp] theorem toDb_factors : db.toDb.factors = db.factors := rfl

@[simp] theorem toDb_session (sid : SessionId) : db.toDb.session sid = db.session sid := rfl

@[simp] theorem user_updateSession (sid : SessionId) (f : SessionRecord Instant → SessionRecord Instant) (u : UserId) :
    (db.updateSession sid f).user u = db.user u := rfl

@[simp] theorem toDb_note (p : SessionPrincipal) (event : Event) : (db.note p event).toDb = db.toDb := rfl

theorem toDb_updateSession (sid : SessionId) (f : SessionRecord Instant → SessionRecord Instant) :
    (db.updateSession sid f).toDb = db.toDb.updateSession sid f := rfl

theorem toDb_updateDevice (d : DeviceId) (f : DeviceRecord Instant → DeviceRecord Instant) :
    (db.updateDevice d f).toDb = db.toDb.updateDevice d f := rfl

theorem toDb_revokeSessionsForDevice (d : DeviceId) (now : Instant) :
    (db.revokeSessionsForDevice d now).toDb = db.toDb.revokeSessionsForDevice d now := rfl

theorem toDb_updatePasskey (credentialId : String) (signCount : Nat) :
    (db.updatePasskey credentialId signCount).toDb = db.toDb.updatePasskey credentialId signCount := by
  unfold toDb SetupDb.toDb updatePasskey Db.updatePasskey
  congr 1
  funext k
  rw [List.find?_map,Function.update_apply]
  have hkey : ((fun row : PasskeyRow => row.credentialId == k) ∘ fun row =>
      if row.credentialId = credentialId then { row with signCount := signCount } else row) =
        fun row => row.credentialId == k := by
    funext row
    simp only [Function.comp_apply]
    split <;> rfl
  rw [hkey]
  cases hfind : db.accounts.passkeys.find? fun row => row.credentialId == k with
  | none =>
    split
    next hk =>
      subst hk
      simp [hfind]
    · simp [hfind]
  | some row =>
    have hrow := List.find?_some hfind
    obtain rfl : row.credentialId = k := by simpa using hrow
    by_cases hk : row.credentialId = credentialId
    · subst hk
      simp [hfind]
    · simp [hk,hfind]

/-- The look-up of the user of a challenge. -/
theorem find_user (u? : Option UserId) : (db.accounts.users.find? fun user => some user.id == u?) = u?.bind db.user := by
  cases u? with
  | none => exact List.find?_eq_none.mpr fun user _ => by simp
  | some u => rfl

theorem user_id {u : UserId} {user : UserRow} (h : db.user u = some user) : user.id = u := by
  have hkey := List.find?_some h
  simpa using hkey

theorem session_id {sid : SessionId} {record : SessionRecord Instant} (h : db.session sid = some record) :
    record.id = sid := by
  have hkey := List.find?_some h
  simpa using hkey

/-- The flush of the factor that was read before it. -/
theorem toDb_upsertFactor (u : UserId) (encrypted : String) :
    db.toDb.upsertFactor u (db.factors u).isSome encrypted = some (db.upsertFactor u encrypted).toDb := by
  unfold Db.upsertFactor
  rw [if_neg (by simp)]
  rfl

/-- A row whose columns are what they were. -/
theorem toDb_updateDevice_same {d : DeviceId} {device : DeviceRecord Instant} {f : DeviceRecord Instant → DeviceRecord Instant}
    (hd : db.accounts.devices d = some device) (hf : f device = device) : (db.updateDevice d f).toDb = db.toDb := by
  unfold updateDevice
  rw [hd,Option.map_some,hf,← hd,Function.update_eq_self]

theorem toDb_updatePasskey_same {row : PasskeyRow} {signCount : Nat}
    (hrow : db.accounts.passkeys.find? (fun other => other.credentialId == row.credentialId) = some row)
    (hs : row.signCount = signCount) : (db.updatePasskey row.credentialId signCount).toDb = db.toDb := by
  rw [toDb_updatePasskey]
  unfold Db.updatePasskey
  have hpasskey : db.toDb.passkeys row.credentialId = some row.toPasskeyRecord := by
    change Option.map _ _ = _
    rw [hrow]
    rfl
  rw [hpasskey,Option.map_some,← hs,← hpasskey,Function.update_eq_self]

end Operations.SecurityDb

end AgentGraph.Security
