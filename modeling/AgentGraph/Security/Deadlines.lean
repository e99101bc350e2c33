import AgentGraph.Security.Records

/-! # Deadlines across a store round trip

`AuthService` and `SecurityService` write aware deadlines. The column drops the
offset, so a deadline is naive when it is read back, and its comparison with the
aware present raises. Only a check that is decided before the comparison works.
-/
set_option autoImplicit false
namespace AgentGraph.Security

/-- A Python `datetime`: wall-clock seconds, and the UTC offset unless it is naive. -/
structure DateTime where
  wall : ℤ
  offset : Option ℤ
deriving DecidableEq, Repr

namespace DateTime

/-- `a <= b`, which raises for a naive and an aware operand. -/
def le? (a b : DateTime) : Option Bool :=
  match a.offset, b.offset with
  | none, none => some (a.wall ≤ b.wall)
  | some x, some y => some (a.wall - x ≤ b.wall - y)
  | _, _ => none

/-- `datetime.now(UTC)` at an instant. -/
def nowUtc (instant : ℤ) : DateTime := ⟨instant,some 0⟩

/-- `d + timedelta(seconds=seconds)`. -/
def addSeconds (d : DateTime) (seconds : ℤ) : DateTime := { d with wall := d.wall + seconds }

/-- What the `DateTime` column gives back for a value it was given. -/
def readBack (d : DateTime) : DateTime := { d with offset := none }

/-- `_as_utc` of the node service. -/
def asUtc (d : DateTime) : DateTime :=
  match d.offset with
  | none => { d with offset := some 0 }
  | some _ => d

end DateTime

open DateTime

/-- The deadline that `_create_session`, `create_challenge` and `create_approval` write. -/
def deadline (created seconds : ℤ) : DateTime := (nowUtc created).addSeconds seconds

/-- `AuthenticationError` or `SecurityConflictError`. -/
def ServiceError.own : ServiceError → Bool
  | authentication _ | securityConflict _ => true
  | _ => false

def approvalExpired : ServiceError := .securityConflict "Approval has expired"

/-- The update that `decide_approval` of the repository makes to a pending row. -/
def ApprovalRecord.decide {τ : Type} (record : ApprovalRecord τ) (decision : SecurityApprovalDecision)
    (userId : UserId) (now : τ) (status : String) : ApprovalRecord τ :=
  if record.status = "pending" then
    { record with status := status, decision := some decision, decidedByUserId := some userId, decidedAt := some now }
  else record

/-- `decide_approval` after its permission check: what it returns or raises, and the
row it leaves. -/
def decideApproval {τ : Type} (le? : τ → τ → Option Bool) (approvalId : ApprovalId) (record : Option (ApprovalRecord τ))
    (userId : UserId) (decision : SecurityApprovalDecision) (now : τ) :
    Except ServiceError (ApprovalRecord τ × Option (GrantRecord τ)) × Option (ApprovalRecord τ) :=
  match record with
  | none => (.error .keyError,none)
  | some record =>
    match le? record.expiresAt now with
    | none => (.error .typeError,some record)
    | some true => (.error approvalExpired,some (record.decide .reject userId now "expired"))
    | some false =>
      if record.status ≠ "pending" then (.error (.securityConflict "Approval is no longer pending"),some record)
      else
        let status := if decision = .reject then "rejected" else "approved"
        let decided := record.decide decision userId now status
        if decision = .allowForTask then
          match record.taskRef with
          | none => (.error (.securityConflict "Task-scoped approval requires a task"),some record)
          | some task =>
            let grant : GrantRecord τ :=
              ⟨userId,record.requestedBy,record.action,record.target,record.runId,some task,record.expiresAt,approvalId⟩
            (.ok (decided,some grant),some decided)
        else (.ok (decided,none),some decided)

/-- The check raises nothing but the services' own errors, and a row that gets as far
as the comparison is refused exactly when its deadline has passed. -/
def WellDecided {α : Type} (result : Except ServiceError α) (refusal : ServiceError) (live expired : Prop) : Prop :=
  (∀ e, result = .error e → e.own = true) ∧ (live → (result = .error refusal ↔ expired))

theorem not_wellDecided_typeError {α : Type} {result : Except ServiceError α} {refusal : ServiceError}
    {live expired : Prop} (h : result = .error .typeError) : ¬ WellDecided result refusal live expired := fun hw => by
  cases hw.1 _ h

/-- A refusal before the comparison is reached. -/
theorem wellDecided_refused {α : Type} {result : Except ServiceError α} {refusal : ServiceError} {live expired : Prop}
    (h : result = .error refusal) (ho : refusal.own = true) (hl : ¬ live) :
    WellDecided result refusal live expired :=
  ⟨fun e he => by rw [h] at he; cases he; exact ho,fun h => absurd h hl⟩

/-- A deadline that was read back cannot be compared with the present. -/
theorem le?_readBack (created seconds now : ℤ) : (deadline created seconds).readBack.le? (nowUtc now) = none := rfl

theorem checkSession_readBack {created seconds now : ℤ} {record : SessionRecord DateTime}
    (he : record.expiresAt = (deadline created seconds).readBack) :
    checkSession le? (some record) (nowUtc now) =
      if record.revokedAt.isSome then .error invalidSession else .error .typeError := by
  unfold checkSession checkExpiry
  dsimp only
  rw [he, le?_readBack]
  rfl

theorem checkChallenge_readBack {created seconds now : ℤ} {kind : ChallengeKind} {record : ChallengeRecord DateTime}
    (he : record.expiresAt = (deadline created seconds).readBack) :
    checkChallenge le? kind (some record) (nowUtc now) =
      if record.kind = kind ∧ record.consumedAt = none then .error .typeError else .error invalidChallenge := by
  unfold checkChallenge checkExpiry
  dsimp only
  rw [he, le?_readBack]
  by_cases hk : record.kind = kind
  · cases hc : record.consumedAt with
    | none =>
      simp [hk]
      rfl
    | some consumed =>
      simp [hk]
  · simp [hk]

theorem wellDecided_session_iff {created seconds now : ℤ} {record : SessionRecord DateTime}
    (he : record.expiresAt = (deadline created seconds).readBack) :
    WellDecided (checkSession le? (some record) (nowUtc now)) invalidSession (record.revokedAt = none)
      (created + seconds ≤ now) ↔ record.revokedAt ≠ none := by
  rw [checkSession_readBack he]
  cases hr : record.revokedAt with
  | none => simpa using not_wellDecided_typeError rfl
  | some at' => simpa using wellDecided_refused rfl rfl (by simp)

theorem wellDecided_challenge_iff {created seconds now : ℤ} {kind : ChallengeKind} {record : ChallengeRecord DateTime}
    (he : record.expiresAt = (deadline created seconds).readBack) :
    WellDecided (checkChallenge le? kind (some record) (nowUtc now)) invalidChallenge
      (record.kind = kind ∧ record.consumedAt = none) (created + seconds ≤ now) ↔
      ¬ (record.kind = kind ∧ record.consumedAt = none) := by
  rw [checkChallenge_readBack he]
  by_cases h : record.kind = kind ∧ record.consumedAt = none
  · simpa [h] using not_wellDecided_typeError rfl
  · simpa [h] using wellDecided_refused rfl rfl h

theorem decideApproval_readBack {created seconds now : ℤ} {approvalId : ApprovalId} {record : ApprovalRecord DateTime}
    (he : record.expiresAt = (deadline created seconds).readBack) (userId : UserId)
    (decision : SecurityApprovalDecision) :
    (decideApproval le? approvalId (some record) userId decision (nowUtc now)).1 = .error .typeError := by
  unfold decideApproval
  dsimp only
  rw [he, le?_readBack]

/-- For a deadline that a service has written and the store has given back, a check
works exactly when it does not get to the comparison: the session is revoked, or the
challenge is of another kind or consumed. Deciding an approval never works. -/
theorem expiry_checks_iff (created seconds now : ℤ) :
    (∀ record : SessionRecord DateTime, record.expiresAt = (deadline created seconds).readBack →
      (WellDecided (checkSession le? (some record) (nowUtc now)) invalidSession (record.revokedAt = none)
        (created + seconds ≤ now) ↔ record.revokedAt ≠ none)) ∧
    (∀ record : ChallengeRecord DateTime, record.expiresAt = (deadline created seconds).readBack →
      (WellDecided (registrationChallenge le? (some record) (nowUtc now)) invalidChallenge
          (record.kind = .passkeyRegistration ∧ record.consumedAt = none) (created + seconds ≤ now) ↔
        ¬ (record.kind = .passkeyRegistration ∧ record.consumedAt = none)) ∧
      (WellDecided (authenticationChallenge le? (some record) (nowUtc now)) invalidChallenge
          (record.kind = .passkeyAuthentication ∧ record.consumedAt = none) (created + seconds ≤ now) ↔
        ¬ (record.kind = .passkeyAuthentication ∧ record.consumedAt = none))) ∧
    (∀ (record : ApprovalRecord DateTime) (approvalId : ApprovalId) (userId : UserId)
      (decision : SecurityApprovalDecision), record.expiresAt = (deadline created seconds).readBack →
      ¬ WellDecided (decideApproval le? approvalId (some record) userId decision (nowUtc now)).1 approvalExpired True
        (created + seconds ≤ now)) :=
  ⟨fun _ he => wellDecided_session_iff he,fun _ he => ⟨wellDecided_challenge_iff he,wellDecided_challenge_iff he⟩,
    fun _ _ userId decision he => not_wellDecided_typeError (decideApproval_readBack he userId decision)⟩

/-- A session that was created for an hour, as it is read back. -/
def hourSession : SessionRecord DateTime := ⟨0,0,0,"hash",.passkey,(deadline 0 3600).readBack,none,none⟩

theorem expiry_checks_iff_hour :
    WellDecided (checkSession le? (some { hourSession with revokedAt := some ⟨1,none⟩ }) (nowUtc 1)) invalidSession
      False (0 + 3600 ≤ (1 : ℤ)) := by
  have h := ((expiry_checks_iff 0 3600 1).1 { hourSession with revokedAt := some ⟨1,none⟩ } rfl).mpr (by simp)
  exact ⟨h.1,False.elim⟩

/-- The session is looked up one second after it was created, and the check raises a
`TypeError`. -/
theorem fresh_session_check_raises :
    checkSession le? (some hourSession) (nowUtc 1) = .error .typeError ∧
      ¬ WellDecided (checkSession le? (some hourSession) (nowUtc 1)) invalidSession True (0 + 3600 ≤ (1 : ℤ)) :=
  ⟨rfl,not_wellDecided_typeError rfl⟩

/-- With the repair of the node service every check of a session would be well decided. -/
theorem asUtc_wellDecided (created seconds now : ℤ) (record : SessionRecord DateTime)
    (he : record.expiresAt = (deadline created seconds).readBack.asUtc) :
    WellDecided (checkSession le? (some record) (nowUtc now)) invalidSession (record.revokedAt = none)
      (created + seconds ≤ now) := by
  have hle : record.expiresAt.le? (nowUtc now) = some (decide (created + seconds ≤ now)) := by
    rw [he]
    simp [deadline,readBack,asUtc,le?,nowUtc,addSeconds]
  unfold checkSession checkExpiry
  dsimp only
  rw [hle]
  by_cases hd : created + seconds ≤ now <;> cases hr : record.revokedAt <;>
    simp [WellDecided,hd,invalidSession,ServiceError.own,Except.map]

end AgentGraph.Security
