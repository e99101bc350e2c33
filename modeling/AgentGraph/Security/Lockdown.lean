import AgentGraph.Security.Policy

/-! # What lockdown stops

Two properties of whole histories fail, each at one kind of step. A privileged
command passes the gate of the runtime under lockdown, since only the other gate reads
the lockdown state. A grant becomes active under lockdown, when the lockdown commits
between the check of `decide_approval` and its transaction.
-/
set_option autoImplicit false
namespace AgentGraph.Security
open Transition

variable {τ : Type}

/-! ## The two gates -/

/-- The permissions that `SecurityService.require` refuses under lockdown. -/
def privileged : List Permission := [.execute,.control,.approve]

/-- The first test of both gates. -/
def SessionPrincipal.holds (p : SessionPrincipal) (permission : Permission) : Prop :=
  permission ∈ p.permissions ∨ Permission.admin ∈ p.permissions

theorem lacks_iff {p : SessionPrincipal} {permission : Permission} :
    (!p.permissions.contains permission && !p.permissions.contains .admin) = true ↔ ¬ p.holds permission := by
  simp [SessionPrincipal.holds]

theorem Principal.require_eq_ok {p : SessionPrincipal} {permission : Permission} :
    (requestPrincipal p).require permission = .ok () ↔ p.holds permission := by
  unfold Principal.require requestPrincipal
  by_cases h : p.holds permission
  · rw [if_neg (mt lacks_iff.mp (not_not.mpr h))]
    simp [h]
  · rw [if_pos (lacks_iff.mpr h)]
    simp [h]

/-- A check that passes, with or without the second factor. -/
theorem require_unlocked {p : SessionPrincipal} {permission : Permission} {mfa lockedDown : Bool}
    (h : require p permission mfa lockedDown = .ok ()) : ¬ (permission ∈ privileged ∧ lockedDown = true) := by
  rintro ⟨hp,rfl⟩
  have hlocked : ([Permission.execute,.control,.approve].contains permission && true) = true := by
    simpa [privileged] using hp
  unfold require at h
  rw [hlocked] at h
  split at h
  · cases h
  · split at h <;> cases h

theorem require_eq_ok {p : SessionPrincipal} {permission : Permission} {lockedDown : Bool} :
    require p permission false lockedDown = .ok () ↔
      p.holds permission ∧ ¬ (permission ∈ privileged ∧ lockedDown = true) := by
  unfold require
  by_cases h : p.holds permission
  · rw [if_neg (mt lacks_iff.mp (not_not.mpr h))]
    simp [h,privileged]
  · rw [if_pos (lacks_iff.mpr h)]
    simp [h]

/-- In one state the gate of the runtime admits only what the other gate admits,
unless the state is locked down and the permission a privileged one that is held. -/
theorem gates_agree_iff (p : SessionPrincipal) (permission : Permission) (db : PolicyDb τ) :
    ((requestPrincipal p).require permission = .ok () → require p permission false db.lockedDown = .ok ()) ↔
      ¬ (db.lockdown = .lockedDown ∧ permission ∈ privileged ∧ p.holds permission) := by
  rw [Principal.require_eq_ok,require_eq_ok,PolicyDb.lockedDown,decide_eq_true_iff]
  tauto

/-- No command that needs a privileged permission was admitted under lockdown. -/
def LockdownRespected (s : Policy τ) : Prop :=
  ∀ a ∈ s.admitted, a.permission ∈ privileged → a.lockdown ≠ .lockedDown

/-- A privileged request that its principal may make arrives at the runtime under lockdown. -/
def PrivilegedRequest (l : PolicyLabel τ) (s : Policy τ) : Prop :=
  match l with
  | .request p route => p.holds route.permission ∧ route.permission ∈ privileged ∧ s.db.lockdown = .lockedDown
  | _ => False

theorem letPass_respected {s : Policy τ} {gate : Gate} {permission : Permission} (hs : LockdownRespected s) :
    LockdownRespected (s.letPass gate permission) ↔
      ¬ (permission ∈ privileged ∧ s.db.lockdown = .lockedDown) := by
  have hmem : ∀ a, a ∈ (s.letPass gate permission).admitted ↔ a ∈ s.admitted ∨ a = ⟨gate,permission,s.db.lockdown⟩ :=
    fun a => by simp [Policy.letPass]
  constructor
  · rintro h ⟨hp,hl⟩
    exact h _ ((hmem _).mpr (.inr rfl)) hp hl
  · intro h a ha hp hl
    obtain ha | rfl := (hmem a).mp ha
    · exact hs a ha hp hl
    · exact h ⟨hp,hl⟩

/-- What passes the check of `SecurityService` is not a privileged command under lockdown. -/
theorem check_ok {db db' : PolicyDb τ} {p : SessionPrincipal} {permission : Permission} {mfa : Bool}
    (h : db.check p permission mfa = (.ok (),db')) :
    db' = db ∧ ¬ (permission ∈ privileged ∧ db.lockdown = .lockedDown) := by
  unfold PolicyDb.check at h
  split at h
  next hr =>
    have hne := require_unlocked hr
    rw [PolicyDb.lockedDown,decide_eq_true_iff] at hne
    exact ⟨(Prod.mk.inj h).2.symm,hne⟩
  · cases h

/-- One step keeps the property exactly if it is no privileged request. -/
theorem step_respected {clock : Clock τ} (l : PolicyLabel τ) (s t : Policy τ) (hs : LockdownRespected s)
    (h : Policy.step clock l s = some t) : LockdownRespected t ↔ ¬ PrivilegedRequest l s := by
  cases l with
  | call p op =>
    cases h
    exact iff_of_true hs id
  | check i =>
    refine iff_of_true ?_ id
    simp only [Policy.step] at h
    split at h
    · split at h
      next p op hc db he =>
        cases h
        obtain ⟨rfl,hne⟩ := check_ok he
        exact (letPass_respected hs).mpr hne
      · cases h
        exact hs
    · cases h
  | transact i now newId =>
    refine iff_of_true ?_ id
    simp only [Policy.step] at h
    split at h <;> cases h
    exact hs
  | abort i =>
    refine iff_of_true ?_ id
    simp only [Policy.step] at h
    split at h <;> cases h
    exact hs
  | request p route =>
    have hauth := route.authorize_eq (requestPrincipal p)
    simp only [Policy.step, hauth] at h
    simp only [PrivilegedRequest]
    cases hr : (requestPrincipal p).require route.permission with
    | ok _ =>
      rw [hr] at h
      cases h
      rw [letPass_respected hs]
      have hp := Principal.require_eq_ok.mp hr
      tauto
    | error e =>
      rw [hr] at h
      cases h
      have hp : ¬ p.holds route.permission := fun hp => by
        rw [Principal.require_eq_ok.mpr hp] at hr
        cases hr
      exact iff_of_true hs fun h => hp h.1

/-- At every point of a history the gate of the runtime refines the other gate for a
principal and a permission exactly if it is not a privileged one, held, under
lockdown; and no privileged command is ever admitted under lockdown exactly if none is
requested from the runtime by a principal who holds its permission. -/
theorem lockdown_stops_privileged_iff (clock : Clock τ) {ls : List (PolicyLabel τ)} {s : Policy τ}
    (h : exec (Policy.step clock) ls Policy.empty = some s) :
    (∀ (p : SessionPrincipal) (permission : Permission),
      ((requestPrincipal p).require permission = .ok () → require p permission false s.db.lockedDown = .ok ()) ↔
        ¬ (s.db.lockdown = .lockedDown ∧ permission ∈ privileged ∧ p.holds permission)) ∧
    (ExecAll (Policy.step clock) LockdownRespected ls Policy.empty ↔
      ExecOk (Policy.step clock) (fun l s => ¬ PrivilegedRequest l s) ls Policy.empty) := by
  refine ⟨fun p permission => gates_agree_iff p permission s.db,?_⟩
  refine execAll_iff_execOk (fun _ _ _ _ _ => trivial) (I := fun _ => True) ?_ trivial (fun a ha => ?_) h
  · exact fun l s t _ hs ht => step_respected l s t hs ht
  · cases ha

/-- An administrator with a stepped-up session. -/
def owner : SessionPrincipal := ⟨0,"owner",.owner,0,0,.trusted,.passkeyTotp⟩

/-- The owner activates the lockdown. -/
def lockdownLabels : List (PolicyLabel Instant) := [.call owner .activateLockdown,.check 0,.transact 0 10 0]

theorem lockdown_stops_privileged_iff_activated :
    ExecAll (Policy.step instantClock) LockdownRespected lockdownLabels Policy.empty :=
  (lockdown_stops_privileged_iff instantClock (s := after (Policy.step instantClock) lockdownLabels Policy.empty (by decide))
    (exec_after _)).2.mpr (execOk_of_all (fun l hl s => by
      simp only [lockdownLabels, List.mem_cons, List.not_mem_nil, or_false] at hl
      obtain rfl | rfl | rfl := hl <;> exact id) _)

/-- After it, the owner starts a run: the gate of the runtime lets the command pass,
and the other gate would refuse it. -/
theorem runtime_gate_ignores_lockdown :
    ∃ s, exec (Policy.step instantClock) (lockdownLabels ++ [.request owner .startRun]) Policy.empty = some s ∧
      s.db.lockdown = .lockedDown ∧ s.admitted = [⟨.security,.admin,.normal⟩,⟨.runtime,.execute,.lockedDown⟩] ∧
      require owner .execute false s.db.lockedDown = .error lockdownActive ∧ ¬ LockdownRespected s := by
  refine ⟨after (Policy.step instantClock) _ Policy.empty rfl,exec_after rfl,rfl,rfl,rfl,fun h => ?_⟩
  exact h _ (List.mem_cons_of_mem _ List.mem_cons_self) List.mem_cons_self rfl

/-! ## Grants -/

/-- The transaction issues a grant: an approval that is pending, not expired and bound
to a task is allowed for that task. -/
def PolicyDb.IssuesGrant (db : PolicyDb τ) (clock : Clock τ) (op : PolicyOp) (now : τ) (newId : GrantId) : Prop :=
  match op with
  | .decideApproval approval decision =>
    (decision = .allowForTask ∧ ∃ record, db.approvals approval = some record ∧
      clock.le? record.expiresAt now = some false ∧ record.status = "pending" ∧ record.taskRef.isSome = true) ∧
    ∀ grant ∈ db.grants, grant.id ≠ newId
  | _ => False

/-- What a transaction does to the grants and to the lockdown state. -/
inductive PolicyDb.Effect (db db' : PolicyDb τ) (issues : Prop) : Prop
  | kept (still : ¬ issues) (grants : db'.grants = db.grants) (lockdown : db'.lockdown = db.lockdown)
  | issued (issuing : issues) (row : GrantRow τ) (active : row.status = .active)
      (grants : db'.grants = db.grants ++ [row]) (lockdown : db'.lockdown = db.lockdown)
  | revoked (still : ¬ issues) (select : GrantRow τ → Bool) (now : τ)
      (grants : db'.grants = (db.revoke select now).grants) (lockdown : db'.lockdown = db.lockdown)
  | locked (still : ¬ issues) (inactive : ∀ row ∈ db'.grants, row.status ≠ .active)
  | unlocked (still : ¬ issues) (normal : db'.lockdown = .normal)

theorem PolicyDb.mem_revoke {db : PolicyDb τ} {select : GrantRow τ → Bool} {now : τ} {row : GrantRow τ}
    (h : row ∈ (db.revoke select now).grants) : row.status ≠ .active ∨ row ∈ db.grants ∧ select row = false := by
  obtain ⟨row',hrow,rfl⟩ := List.mem_map.mp h
  cases hsel : select row' with
  | true => exact .inl (by simp)
  | false => exact .inr (by simp [hrow,hsel])

/-- When `decide_approval` gets as far as creating a grant. -/
theorem decideApproval_grant_iff (le? : τ → τ → Option Bool) (approval : ApprovalId)
    (record : Option (ApprovalRecord τ)) (userId : UserId) (decision : SecurityApprovalDecision) (now : τ) :
    (∃ decided grant row, decideApproval le? approval record userId decision now = (.ok (decided,some grant),row)) ↔
      decision = .allowForTask ∧ ∃ row, record = some row ∧ le? row.expiresAt now = some false ∧
        row.status = "pending" ∧ row.taskRef.isSome = true := by
  unfold decideApproval
  cases record with
  | none => simp
  | some record =>
    rcases hle : le? record.expiresAt now with _ | _ | _
    · simp [hle]
    · by_cases hpending : record.status = "pending"
      · cases decision <;> cases htask : record.taskRef <;> simp [hpending,htask,hle]
      · simp [hpending,hle]
    · simp [hle]

theorem PolicyDb.decideApproval_effect (db : PolicyDb τ) (clock : Clock τ) (p : SessionPrincipal)
    (approval : ApprovalId) (decision : SecurityApprovalDecision) (now : τ) (newId : Nat) :
    db.Effect (db.decideApproval clock p approval decision now newId).2
      (db.IssuesGrant clock (.decideApproval approval decision) now newId) := by
  have hiff := decideApproval_grant_iff clock.le? approval (db.approvals approval) p.userId decision now
  unfold PolicyDb.decideApproval
  split
  next e row he =>
    refine .kept (fun h => ?_) rfl rfl
    obtain ⟨_,_,_,h⟩ := hiff.mpr h.1
    rw [he] at h
    cases h
  next decided issued row he =>
    cases issued with
    | none =>
      refine .kept (fun h => ?_) rfl rfl
      obtain ⟨_,_,_,h⟩ := hiff.mpr h.1
      rw [he] at h
      cases h
    | some issued =>
      dsimp only
      split
      next hany =>
        -- the identifier is taken, and the insertion fails
        obtain ⟨grant,hg,hid⟩ := List.any_eq_true.mp hany
        exact .kept (fun h => h.2 grant hg (beq_iff_eq.mp hid)) rfl rfl
      next hany =>
        refine .issued ⟨hiff.mp ⟨_,_,_,he⟩,fun grant hg hid => hany ?_⟩ _ rfl rfl rfl
        exact List.any_eq_true.mpr ⟨grant,hg,beq_iff_eq.mpr hid⟩

theorem PolicyDb.transact_effect (db : PolicyDb τ) (clock : Clock τ) (p : SessionPrincipal) (op : PolicyOp) (now : τ)
    (newId : Nat) : db.Effect (db.transact clock p op now newId).2 (db.IssuesGrant clock op now newId) := by
  cases op with
  | createApproval request =>
    simp only [PolicyDb.transact, PolicyDb.createApproval]
    split <;> exact .kept id rfl rfl
  | decideApproval approval decision => exact db.decideApproval_effect clock p approval decision now newId
  | revokeGrant grant =>
    simp only [PolicyDb.transact, PolicyDb.revokeGrant]
    split
    · exact .kept id rfl rfl
    · split
      · exact .kept id rfl rfl
      · split
        · exact .revoked id _ now rfl rfl
        · exact .kept id rfl rfl
  | activateLockdown =>
    simp only [PolicyDb.transact, PolicyDb.activateLockdown]
    split
    next =>
      refine .locked id fun row hrow => ?_
      obtain h | ⟨-,h⟩ := PolicyDb.mem_revoke hrow
      · exact h
      · simpa using h
    next => exact .kept id rfl rfl
  | deactivateLockdown =>
    simp only [PolicyDb.transact, PolicyDb.deactivateLockdown]
    split
    next => exact .unlocked id rfl
    next => exact .kept id rfl rfl

/-- No grant is active in a database that is locked down. -/
def NoActiveGrant (s : Policy τ) : Prop := s.db.lockdown = .lockedDown → ∀ row ∈ s.db.grants, row.status ≠ .active

/-- A `decide_approval` that has passed its check runs its transaction under lockdown
and issues a grant. -/
def GrantUnderLockdown (clock : Clock τ) (l : PolicyLabel τ) (s : Policy τ) : Prop :=
  match l with
  | .transact i now newId =>
    s.db.lockdown = .lockedDown ∧
      ∃ p op, s.calls i = some ⟨p,op,.writing⟩ ∧ s.db.IssuesGrant clock op now newId
  | _ => False

theorem PolicyDb.Effect.noActiveGrant {db db' : PolicyDb τ} {issues : Prop} (h : db.Effect db' issues)
    (hdb : db.lockdown = .lockedDown → ∀ row ∈ db.grants, row.status ≠ .active) :
    (db'.lockdown = .lockedDown → ∀ row ∈ db'.grants, row.status ≠ .active) ↔
      ¬ (db.lockdown = .lockedDown ∧ issues) := by
  cases h with
  | kept still grants lockdown =>
    rw [grants,lockdown]
    exact iff_of_true hdb fun h => still h.2
  | issued issuing row active grants lockdown =>
    rw [grants,lockdown]
    constructor
    · rintro h ⟨hl,-⟩
      exact h hl row (by simp) active
    · intro h hl
      exact absurd ⟨hl,issuing⟩ h
  | revoked still select now grants lockdown =>
    rw [grants,lockdown]
    refine iff_of_true (fun hl row hrow => ?_) fun h => still h.2
    obtain h | ⟨h,-⟩ := mem_revoke hrow
    · exact h
    · exact hdb hl row h
  | locked still inactive => exact iff_of_true (fun _ => inactive) fun h => still h.2
  | unlocked still normal =>
    refine iff_of_true (fun hl => ?_) fun h => still h.2
    rw [normal] at hl
    cases hl

/-- A check writes no grant and leaves the lockdown state. -/
theorem PolicyDb.check_keeps (db : PolicyDb τ) (p : SessionPrincipal) (permission : Permission) (mfa : Bool) :
    (db.check p permission mfa).2.grants = db.grants ∧ (db.check p permission mfa).2.lockdown = db.lockdown := by
  unfold PolicyDb.check
  split
  · exact ⟨rfl,rfl⟩
  · dsimp only
    split <;> exact ⟨rfl,rfl⟩

theorem step_noActiveGrant {clock : Clock τ} (l : PolicyLabel τ) (s t : Policy τ) (hs : NoActiveGrant s)
    (h : Policy.step clock l s = some t) : NoActiveGrant t ↔ ¬ GrantUnderLockdown clock l s := by
  cases l with
  | call p op =>
    cases h
    exact iff_of_true hs id
  | check i =>
    refine iff_of_true ?_ id
    simp only [Policy.step] at h
    split at h
    next p op hc =>
      have hkeep := s.db.check_keeps p op.permission.1 op.permission.2
      have hdb : t.db = (s.db.check p op.permission.1 op.permission.2).2 := by
        split at h
        · cases h
          exact (congrArg Prod.snd ‹_›).symm
        · cases h
          exact (congrArg Prod.snd ‹_›).symm
      rw [NoActiveGrant,hdb,hkeep.1,hkeep.2]
      exact hs
    · cases h
  | transact i now newId =>
    simp only [Policy.step] at h
    split at h
    next p op hc =>
      cases h
      have heffect := (s.db.transact_effect clock p op now newId).noActiveGrant hs
      refine heffect.trans (not_congr ?_)
      simp only [GrantUnderLockdown]
      constructor
      · rintro ⟨hl,hi⟩
        exact ⟨hl,p,op,hc,hi⟩
      · rintro ⟨hl,p',op',hc',hi⟩
        cases hc.symm.trans hc'
        exact ⟨hl,hi⟩
    · cases h
  | abort i =>
    refine iff_of_true ?_ id
    simp only [Policy.step] at h
    split at h <;> cases h
    exact hs
  | request p route =>
    refine iff_of_true ?_ id
    simp only [Policy.step] at h
    split at h <;> cases h <;> exact hs

/-- In every committed state of a history a database that is locked down has no active
grant, exactly if no `decide_approval` issues a grant under lockdown. -/
theorem no_active_grant_in_lockdown_iff (clock : Clock τ) {ls : List (PolicyLabel τ)} {s : Policy τ}
    (h : exec (Policy.step clock) ls Policy.empty = some s) :
    ExecAll (Policy.step clock) NoActiveGrant ls Policy.empty ↔
      ExecOk (Policy.step clock) (fun l s => ¬ GrantUnderLockdown clock l s) ls Policy.empty := by
  refine execAll_iff_execOk (fun _ _ _ _ _ => trivial) (I := fun _ => True) ?_ trivial (fun hl => ?_) h
  · exact fun l s t _ hs ht => step_noActiveGrant l s t hs ht
  · cases hl

/-- An approval bound to a task, and its decision up to the check. -/
def decisionLabels : List (PolicyLabel Instant) :=
  [.call owner (.createApproval ⟨"tool.run",none,none,some "task",3600⟩),.check 0,.transact 0 0 0,
    .call owner (.decideApproval 0 .allowForTask),.check 1]

/-- The decision issues its grant, and the lockdown comes behind it. -/
def grantLabels : List (PolicyLabel Instant) :=
  decisionLabels ++ [.transact 1 20 0,.call owner .activateLockdown,.check 2,.transact 2 30 0]

/-- The activation revokes the grant that was issued before it. -/
theorem no_active_grant_in_lockdown_iff_revoked :
    ∃ s, exec (Policy.step instantClock) grantLabels Policy.empty = some s ∧ s.db.lockdown = .lockedDown ∧
      s.db.grants.map (·.status) = [.revoked] ∧ ExecAll (Policy.step instantClock) NoActiveGrant grantLabels Policy.empty := by
  have hrun : (exec (Policy.step instantClock) grantLabels Policy.empty).isSome = true := by decide
  have hnormal : ExecOk (Policy.step instantClock) (fun l s => match l with
      | .transact _ _ _ => s.db.lockdown = .normal
      | _ => True) grantLabels Policy.empty := by
    iterate 9
      refine ⟨by trivial,?_⟩
      rintro _ ⟨⟩
    trivial
  refine ⟨after (Policy.step instantClock) grantLabels Policy.empty hrun,exec_after _,rfl,rfl,?_⟩
  refine (no_active_grant_in_lockdown_iff instantClock (exec_after hrun)).mpr ?_
  refine hnormal.imp (I := fun _ => True) (fun _ _ _ _ _ => trivial) ?_ trivial
  intro l s _ hl
  cases l with
  | transact i now newId =>
    rintro ⟨hlocked,-⟩
    rw [hl] at hlocked
    cases hlocked
  | _ => exact id

/-- The lockdown commits between the check and the transaction of the decision. -/
theorem grant_issued_under_lockdown :
    ∃ s, exec (Policy.step instantClock)
        (decisionLabels ++ [.call owner .activateLockdown,.check 2,.transact 2 10 0,.transact 1 20 0])
        Policy.empty = some s ∧
      s.db.lockdown = .lockedDown ∧ s.db.grants.map (·.status) = [.active] ∧ ¬ NoActiveGrant s := by
  refine ⟨after (Policy.step instantClock) _ Policy.empty (by decide),exec_after _,rfl,rfl,fun h => ?_⟩
  exact h rfl _ List.mem_cons_self rfl

end AgentGraph.Security
