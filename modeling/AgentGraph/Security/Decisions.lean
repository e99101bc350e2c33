import AgentGraph.Security.Approvals
import Mathlib.Data.List.Pairwise

/-! # An approval is decided once, and its grant mirrors it

The conditional update of a decision takes the write lock, so that the approval it
closes stays as it is until the grant is inserted and both are committed. The row that
was read before it is trusted for the columns that nobody changes.
-/
set_option autoImplicit false
namespace AgentGraph.Security
open Transition Database.Outline
open Database hiding Effect Ctl Label step Run

/-- The grants without the columns that a revocation changes. -/
def PolicyDb.issued (db : PolicyDb Instant) : List (GrantRecord Instant) := db.grants.map GrantRow.toGrantRecord

/-- Approval `a` is approved for its task. -/
def PolicyDb.Allowed (db : PolicyDb Instant) (a : ApprovalId) (r : ApprovalRecord Instant) : Prop :=
  db.approvals a = some r ∧ r.status = "approved" ∧ r.decision = some .allowForTask

/-- Approval `a` has been decided or has expired. -/
def PolicyDb.Closed (db : PolicyDb Instant) (a : ApprovalId) : Prop :=
  ∃ r, db.approvals a = some r ∧ r.status ≠ "pending"

/-- The grants are those of the approvals that were allowed for their task. -/
structure Mirrors (db : PolicyDb Instant) : Prop where
  granted : ∀ a r, db.Allowed a r → ∃ g ∈ db.issued, g.sourceApprovalId = a
  source : ∀ g ∈ db.issued, ∃ r, db.Allowed g.sourceApprovalId r ∧ g = r.grant g.issuerUserId g.sourceApprovalId
  unique : db.issued.Pairwise fun g g' => g.sourceApprovalId ≠ g'.sourceApprovalId

/-- Only a pending row changes, and only in the columns of a decision. -/
structure ApprovalRecord.Settles (r r' : ApprovalRecord Instant) : Prop where
  columns : r' = { r with
    status := r'.status, decision := r'.decision, decidedByUserId := r'.decidedByUserId, decidedAt := r'.decidedAt }
  final : r.status ≠ "pending" → r' = r

/-- No approval is lost, and one that is closed stays as it is. -/
def Settles (db db' : PolicyDb Instant) : Prop :=
  ∀ a r, db.approvals a = some r → ∃ r', db'.approvals a = some r' ∧ r.Settles r'

/-- The decision that the call `q` makes about `a`, with its grant. -/
structure Decides (issuer : UserId) (a : ApprovalId) (decision : SecurityApprovalDecision)
    (db working : PolicyDb Instant) : Prop where
  row : ∃ r now, db.approvals a = some r ∧ r.status = "pending" ∧
    working.approvals = Function.update db.approvals a (some (r.decide decision issuer now decision.status)) ∧
    working.issued = if decision = .allowForTask then db.issued ++ [r.grant issuer a] else db.issued

/-- The deadline of `a` has passed: it is closed if it is still pending. -/
structure Expires (issuer : UserId) (a : ApprovalId) (db working : PolicyDb Instant) : Prop where
  row : ∃ r now, db.approvals a = some r ∧ r.expiresAt ≤ now ∧
    working.approvals = Function.update db.approvals a (some (r.decide .reject issuer now "expired"))
  grants : working.grants = db.grants

/-- A new approval, still pending. -/
structure Requests (db working : PolicyDb Instant) : Prop where
  row : ∃ a r, db.approvals a = none ∧ r.status = "pending" ∧
    working.approvals = Function.update db.approvals a (some r)
  grants : working.grants = db.grants

/-- The approvals and what was granted are as they were. -/
structure Untouched (db working : PolicyDb Instant) : Prop where
  approvals : working.approvals = db.approvals
  issued : working.issued = db.issued

section Rows
variable {db db' working : PolicyDb Instant} {a : ApprovalId} {r r' : ApprovalRecord Instant} {issuer : UserId}
  {decision : SecurityApprovalDecision} {now : Instant}

theorem ApprovalRecord.Settles.refl (r : ApprovalRecord Instant) : r.Settles r := ⟨rfl,fun _ => rfl⟩

theorem ApprovalRecord.Settles.trans {r'' : ApprovalRecord Instant} (h : r.Settles r') (h' : r'.Settles r'') :
    r.Settles r'' := by
  refine ⟨?_,fun hr => ?_⟩
  · have hcolumns := h'.columns
    rw [h.columns] at hcolumns
    exact hcolumns
  · obtain rfl := h.final hr
    exact h'.final hr

theorem ApprovalRecord.Settles.grant (h : r.Settles r') (issuer : UserId) (a : ApprovalId) :
    r'.grant issuer a = r.grant issuer a := by
  rw [h.columns]
  rfl

theorem ApprovalRecord.decide_settles (status : String) : r.Settles (r.decide decision issuer now status) := by
  unfold ApprovalRecord.decide
  split
  next hp => exact ⟨rfl,fun hne => absurd hp hne⟩
  · exact .refl r

theorem Settles.refl (db : PolicyDb Instant) : Settles db db := fun _ r h => ⟨r,h,.refl r⟩

theorem Settles.of_eq (h : db'.approvals = db.approvals) : Settles db db' := by
  intro a r hr
  exact ⟨r,by rw [h]; exact hr,.refl r⟩

theorem Settles.update (h : db.approvals a = none ∨ ∃ r, db.approvals a = some r ∧ r.Settles r')
    (hdb : db'.approvals = Function.update db.approvals a (some r')) : Settles db db' := by
  intro b row hrow
  rw [hdb]
  by_cases hb : b = a
  · subst hb
    obtain hnone | ⟨r,hr,hs⟩ := h
    · rw [hnone] at hrow
      cases hrow
    · obtain rfl := Option.some.inj (hr.symm.trans hrow)
      exact ⟨r',Function.update_self _ _ _,hs⟩
  · exact ⟨row,(Function.update_of_ne hb _ _).trans hrow,.refl row⟩

theorem PolicyDb.Closed.settles (h : db.Closed a) (hs : Settles db db') : db'.Closed a := by
  obtain ⟨r,hr,hne⟩ := h
  obtain ⟨r',hr',hrow⟩ := hs a r hr
  obtain rfl := hrow.final hne
  exact ⟨r',hr',hne⟩

theorem Untouched.refl (db : PolicyDb Instant) : Untouched db db := ⟨rfl,rfl⟩

theorem Untouched.of_grants (ha : working.approvals = db.approvals) (hg : working.grants = db.grants) :
    Untouched db working := ⟨ha,by rw [PolicyDb.issued,hg,PolicyDb.issued]⟩

theorem PolicyDb.revoke_issued (db : PolicyDb Instant) (select : GrantRow Instant → Bool) (now : Instant) :
    (db.revoke select now).issued = db.issued := by
  unfold PolicyDb.issued PolicyDb.revoke
  rw [List.map_map]
  refine List.map_congr_left fun row _ => ?_
  simp only [Function.comp_apply]
  split <;> rfl

theorem Untouched.revoke (h : Untouched db working) (select : GrantRow Instant → Bool) (now : Instant) :
    Untouched db (working.revoke select now) :=
  ⟨h.approvals,(working.revoke_issued select now).trans h.issued⟩

theorem Mirrors.untouched (hm : Mirrors db) (h : Untouched db working) : Mirrors working := by
  have hallowed : ∀ a r, working.Allowed a r ↔ db.Allowed a r := fun a r => by
    unfold PolicyDb.Allowed
    rw [h.approvals]
  refine ⟨fun a r ha => ?_,fun g hg => ?_,?_⟩
  · rw [h.issued]
    exact hm.granted a r ((hallowed a r).mp ha)
  · rw [h.issued] at hg
    obtain ⟨r,ha,he⟩ := hm.source g hg
    exact ⟨r,(hallowed _ r).mpr ha,he⟩
  · rw [h.issued]
    exact hm.unique

/-- A row that is not allowed for its task comes in the place of one that is not. -/
theorem Mirrors.update (hm : Mirrors db) (hold : ∀ r, ¬ db.Allowed a r) (hnew : ¬ (r'.status = "approved" ∧
      r'.decision = some .allowForTask)) (hw : working.approvals = Function.update db.approvals a (some r'))
    (hi : working.issued = db.issued) : Mirrors working := by
  have hallowed : ∀ b r, working.Allowed b r ↔ db.Allowed b r := fun b r => by
    by_cases hb : b = a
    · subst hb
      refine iff_of_false ?_ (hold r)
      rintro ⟨hr,h⟩
      rw [hw,Function.update_self] at hr
      cases hr
      exact hnew h
    · unfold PolicyDb.Allowed
      rw [hw,Function.update_of_ne hb]
  refine ⟨fun b r hb => ?_,fun g hg => ?_,?_⟩
  · rw [hi]
    exact hm.granted b r ((hallowed b r).mp hb)
  · rw [hi] at hg
    obtain ⟨r,hr,he⟩ := hm.source g hg
    exact ⟨r,(hallowed _ r).mpr hr,he⟩
  · rw [hi]
    exact hm.unique

theorem not_allowed_of_pending (hr : db.approvals a = some r) (hp : r.status = "pending") (r' : ApprovalRecord Instant) :
    ¬ db.Allowed a r' := by
  rintro ⟨hr',hs,-⟩
  obtain rfl := Option.some.inj (hr.symm.trans hr')
  rw [hp] at hs
  exact absurd hs (by decide)

theorem Mirrors.decides (hm : Mirrors db) (h : Decides issuer a decision db working) : Mirrors working := by
  obtain ⟨r,now,hr,hp,hw,hi⟩ := h.row
  have hnot := not_allowed_of_pending hr hp
  have hdecide : r.decide decision issuer now decision.status =
      { r with status := decision.status, decision := some decision, decidedByUserId := some issuer, decidedAt := some now } :=
    if_pos hp
  by_cases hd : decision = .allowForTask
  · subst hd
    rw [if_pos rfl] at hi
    have hnew : working.Allowed a (r.decide .allowForTask issuer now (SecurityApprovalDecision.status .allowForTask)) := by
      refine ⟨by rw [hw,Function.update_self],?_,?_⟩
      · rw [hdecide]
        rfl
      · rw [hdecide]
    -- no grant has this source yet
    have hfresh : ∀ g ∈ db.issued, g.sourceApprovalId ≠ a := by
      intro g hg he
      obtain ⟨r',ha,-⟩ := hm.source g hg
      exact hnot r' (he ▸ ha)
    have hother : ∀ b r', b ≠ a → (working.Allowed b r' ↔ db.Allowed b r') := fun b r' hb => by
      unfold PolicyDb.Allowed
      rw [hw,Function.update_of_ne hb]
    refine ⟨fun b r' hb => ?_,fun g hg => ?_,?_⟩
    · rw [hi]
      by_cases hba : b = a
      · exact ⟨_,List.mem_append_right _ (List.mem_singleton_self _),hba.symm⟩
      · obtain ⟨g,hg,he⟩ := hm.granted b r' ((hother b r' hba).mp hb)
        exact ⟨g,List.mem_append_left _ hg,he⟩
    · rw [hi] at hg
      obtain hg | hg := List.mem_append.mp hg
      · obtain ⟨r',ha,he⟩ := hm.source g hg
        exact ⟨r',(hother _ r' (hfresh g hg)).mpr ha,he⟩
      · rw [List.mem_singleton.mp hg]
        refine ⟨_,hnew,?_⟩
        rw [(ApprovalRecord.decide_settles (r := r) _).grant]
        rfl
    · rw [hi]
      refine List.pairwise_append.mpr ⟨hm.unique,List.pairwise_singleton _ _,fun g hg g' hg' => ?_⟩
      rw [List.mem_singleton.mp hg']
      exact hfresh g hg
  · rw [if_neg hd] at hi
    refine hm.update hnot ?_ hw hi
    rw [hdecide]
    rintro ⟨-,he⟩
    exact hd (Option.some.inj he)

theorem Mirrors.expires (hm : Mirrors db) (h : Expires issuer a db working) : Mirrors working := by
  obtain ⟨r,now,hr,-,hw⟩ := h.row
  have hi : working.issued = db.issued := by rw [PolicyDb.issued,h.grants,PolicyDb.issued]
  by_cases hp : r.status = "pending"
  · refine hm.update (not_allowed_of_pending hr hp) ?_ hw hi
    rw [ApprovalRecord.decide,if_pos hp]
    simp
  · rw [ApprovalRecord.decide,if_neg hp,← hr,Function.update_eq_self] at hw
    exact hm.untouched ⟨hw,hi⟩

theorem Mirrors.requests (hm : Mirrors db) (h : Requests db working) : Mirrors working := by
  obtain ⟨a,r,hnone,hp,hw⟩ := h.row
  refine hm.update (fun r' ha => ?_) ?_ hw (by rw [PolicyDb.issued,h.grants,PolicyDb.issued])
  · rw [PolicyDb.Allowed,hnone] at ha
    cases ha.1
  · rw [hp]
    rintro ⟨hs,-⟩
    exact absurd hs (by decide)

theorem Decides.settles (h : Decides issuer a decision db working) : Settles db working := by
  obtain ⟨r,now,hr,-,hw,-⟩ := h.row
  exact .update (.inr ⟨r,hr,ApprovalRecord.decide_settles _⟩) hw

theorem Decides.closed (h : Decides issuer a decision db working) : working.Closed a := by
  obtain ⟨r,now,hr,hp,hw,-⟩ := h.row
  refine ⟨_,by rw [hw,Function.update_self],?_⟩
  rw [ApprovalRecord.decide,if_pos hp]
  unfold SecurityApprovalDecision.status
  split <;> simp

theorem Expires.settles (h : Expires issuer a db working) : Settles db working := by
  obtain ⟨r,now,hr,-,hw⟩ := h.row
  exact .update (.inr ⟨r,hr,ApprovalRecord.decide_settles _⟩) hw

theorem Expires.closed (h : Expires issuer a db working) : working.Closed a := by
  obtain ⟨r,now,hr,-,hw⟩ := h.row
  refine ⟨_,by rw [hw,Function.update_self],?_⟩
  unfold ApprovalRecord.decide
  split
  · simp
  next hne => exact hne

theorem Requests.settles (h : Requests db working) : Settles db working := by
  obtain ⟨a,r,hnone,-,hw⟩ := h.row
  exact .update (.inl hnone) hw

end Rows

/-! ## The outline -/

/-- What a call relies on that has read a row. -/
def ApprovalCall.Reads (q : ApprovalCall) (db : PolicyDb Instant) : ApprovalPc → Prop
  | .policyState | .policyCreate | .policyDenied | .approvalInsert | .approvalRead | .grantRead | .grantUpdate _ _
  | .stateRead | .stateCreate | .stateUpdate => True
  | .approvalExpire now => ∀ a decision, q.op = .decideApproval a decision →
    ∃ r, db.approvals a = some r ∧ r.expiresAt ≤ now
  | .approvalUpdate record _ => ∀ a decision, q.op = .decideApproval a decision →
    ∃ r, db.approvals a = some r ∧ record.Settles r
  | _ => False

/-- What a call has done in its transaction. -/
def ApprovalCall.Writes (q : ApprovalCall) (db working : PolicyDb Instant) : ApprovalPc → Prop
  | .policyClose | .policyDeniedCommit => working.approvals = db.approvals ∧ working.grants = db.grants
  | .approvalAudit _ _ | .approvalCommit _ => Requests db working
  | .approvalExpireCommit => ∃ a decision, q.op = .decideApproval a decision ∧ Expires q.principal.userId a db working
  | .grantInsert record => ∃ a, q.op = .decideApproval a .allowForTask ∧ ∃ r now, db.approvals a = some r ∧
      r.status = "pending" ∧ record.grant q.principal.userId a = r.grant q.principal.userId a ∧
      working.approvals = Function.update db.approvals a
        (some (r.decide .allowForTask q.principal.userId now (SecurityApprovalDecision.status .allowForTask))) ∧
      working.grants = db.grants
  | .decisionAudit _ _ | .decisionCommit _ _ => ∃ a decision, q.op = .decideApproval a decision ∧
      Decides q.principal.userId a decision db working
  | .grantAudit _ | .grantCommit _ | .stateUpdate | .grantsList | .grantsRevoke _ | .stateAudit | .stateCommit =>
    Untouched db working
  | _ => False

/-- A decision that has returned, or has found the deadline passed, has closed its approval. -/
def ApprovalCall.Ends (q : ApprovalCall) (db : PolicyDb Instant) (result : ApprovalResult) : Prop :=
  ∀ a decision, q.op = .decideApproval a decision → (∃ v, result = .ok v) ∨ result = .error approvalExpired → db.Closed a

def approvalOutline : Database.Outline (PolicyDb Instant) Unit ApprovalCall ApprovalPc ApprovalResult where
  world := fun _ db => Mirrors db
  rely := fun _ db _ db' => Settles db db'
  reading := fun _ q _ db pc => q.Reads db pc
  writing := fun _ q _ db working pc => q.Writes db working pc
  ended := fun _ q _ db result => q.Ends db result

section Valid
variable {db db' view working : PolicyDb Instant} {q : ApprovalCall} {pc : ApprovalPc} {i : ℕ} {draw : Draw}
  {keep : ApprovalPc → Prop} {e : ApprovalEffect}

theorem ApprovalCall.Reads.settles (h : q.Reads db pc) (hs : Settles db db') : q.Reads db' pc := by
  cases pc <;> simp only [ApprovalCall.Reads] at h ⊢
  case approvalExpire now =>
    intro a decision hq
    obtain ⟨r,hr,hle⟩ := h a decision hq
    obtain ⟨r',hr',hrow⟩ := hs a r hr
    refine ⟨r',hr',?_⟩
    rw [hrow.columns]
    exact hle
  case approvalUpdate record now =>
    intro a decision hq
    obtain ⟨r,hr,hrow⟩ := h a decision hq
    obtain ⟨r',hr',hrow'⟩ := hs a r hr
    exact ⟨r',hr',hrow.trans hrow'⟩

theorem start_reads (q : ApprovalCall) (db : PolicyDb Instant) : q.Reads db q.op.start := by
  cases hop : q.op <;> simp [PolicyOp.start,ApprovalCall.Reads]

/-- Raising, or returning what was read. -/
theorem ApprovalCall.Ends.of_not_decides (h : ∀ a decision, q.op ≠ .decideApproval a decision) (result : ApprovalResult) :
    q.Ends db result := fun a decision hq => absurd hq (h a decision)

theorem ApprovalCall.Ends.error {e : ServiceError} (h : e ≠ approvalExpired) : q.Ends db (.error e) := by
  rintro a decision - (⟨v,hv⟩ | he)
  · cases hv
  · exact absurd (Except.error.inj he) h

theorem meets_raise (hw : Mirrors db) {e : ServiceError} (he : e ≠ approvalExpired) :
    approvalOutline.Meets i q () db view keep (ApprovalEffect.raise e) :=
  Meets.finish (by simp) hw (Settles.refl db) (ApprovalCall.Ends.error he)

theorem meets_writeRaise (hw : Mirrors db) {e : ServiceError} (he : e ≠ approvalExpired) :
    approvalOutline.Meets i q () db view keep (ApprovalEffect.writeRaise db' e) :=
  Meets.finish (by simp) hw (Settles.refl db) (ApprovalCall.Ends.error he)

theorem meets_return (hw : Mirrors db) (hq : ∀ a decision, q.op ≠ .decideApproval a decision)
    (value : PolicyReturn Instant) : approvalOutline.Meets i q () db view keep (ApprovalEffect.return_ value) :=
  Meets.finish (by simp) hw (Settles.refl db) (ApprovalCall.Ends.of_not_decides hq _)

theorem meets_goto (hw : Mirrors db) (hk : keep pc) :
    approvalOutline.Meets i q () db view keep (ApprovalEffect.goto pc) :=
  Meets.goto hw (Settles.refl db) hk

theorem meets_write (hw : Mirrors db) (hk : q.Writes db db' pc) :
    approvalOutline.Meets i q () db view keep (ApprovalEffect.write db' pc) :=
  Meets.write hw (Settles.refl db) hk

theorem meets_commit {result : ApprovalResult} (hw : Mirrors view) (hs : Settles db view) (he : q.Ends view result) :
    approvalOutline.Meets i q () db view keep (ApprovalEffect.commit result) :=
  Meets.commit hw hs he

theorem meets_commit_untouched {result : ApprovalResult} (hw : Mirrors db) (hu : Untouched db view)
    (he : q.Ends view result) : approvalOutline.Meets i q () db view keep (ApprovalEffect.commit result) :=
  meets_commit (hw.untouched hu) (.of_eq hu.approvals) he

/-! ### The statements, before and in a transaction -/

theorem resumePolicy_reads (hw : Mirrors db) (h : q.Reads db pc) (he : q.resumePolicy db pc = some e) :
    approvalOutline.Meets i q () db db (q.Reads db) e := by
  cases pc <;> simp only [ApprovalCall.resumePolicy, reduceCtorEq] at he
  case policyState =>
    split at he <;> cases he
    · exact meets_goto hw trivial
    · exact meets_goto hw (start_reads q db)
    · exact meets_goto hw trivial
  case policyCreate =>
    cases he
    split
    · exact meets_raise hw (by simp [approvalExpired])
    · exact meets_write hw ⟨rfl,rfl⟩
  case policyDenied =>
    cases he
    exact meets_write hw ⟨rfl,rfl⟩
  all_goals exact h.elim

theorem resumePolicy_writes (hw : Mirrors db) (h : q.Writes db working pc) (he : q.resumePolicy working pc = some e) :
    approvalOutline.Meets i q () db working (q.Writes db working) e := by
  cases pc <;> simp only [ApprovalCall.resumePolicy, reduceCtorEq] at he
  case policyClose =>
    cases he
    exact Meets.release (.inr rfl) hw (Settles.refl db) (start_reads q db)
  case policyDeniedCommit =>
    cases he
    exact meets_commit_untouched hw (.of_grants h.1 h.2) (.error (by simp [lockdownActive,approvalExpired]))
  all_goals exact h.elim

theorem resumeCreate_reads {request : ApprovalRequest} (hw : Mirrors db) (h : q.Reads db pc)
    (he : q.resumeCreate db draw request pc = some e) : approvalOutline.Meets i q () db db (q.Reads db) e := by
  cases pc <;> simp only [ApprovalCall.resumeCreate, reduceCtorEq] at he
  case approvalInsert =>
    split at he <;> cases he
    · exact meets_raise hw (by simp [approvalExpired])
    next hnone => exact meets_write hw ⟨⟨_,_,by simpa using hnone,rfl,rfl⟩,rfl⟩
  all_goals exact h.elim

theorem resumeCreate_writes {request : ApprovalRequest} (hq : ∀ a decision, q.op ≠ .decideApproval a decision)
    (hw : Mirrors db) (h : q.Writes db working pc) (he : q.resumeCreate working draw request pc = some e) :
    approvalOutline.Meets i q () db working (q.Writes db working) e := by
  cases pc <;> simp only [ApprovalCall.resumeCreate, reduceCtorEq] at he
  case approvalAudit a record =>
    cases he
    exact meets_write hw ⟨h.row,h.grants⟩
  case approvalCommit record =>
    cases he
    exact meets_commit (hw.requests h) h.settles (.of_not_decides hq _)
  all_goals exact h.elim

theorem resumeRevoke_reads {grant : GrantId} (hq : ∀ a decision, q.op ≠ .decideApproval a decision) (hw : Mirrors db)
    (h : q.Reads db pc) (he : q.resumeRevoke db draw grant pc = some e) :
    approvalOutline.Meets i q () db db (q.Reads db) e := by
  cases pc <;> simp only [ApprovalCall.resumeRevoke, reduceCtorEq] at he
  case grantRead =>
    split at he
    · cases he
      exact meets_raise hw (by simp [approvalExpired])
    · split at he
      · cases he
        exact meets_raise hw (by simp [approvalExpired])
      · split at he <;> cases he
        · exact meets_goto hw trivial
        · exact meets_return hw hq _
  case grantUpdate row now =>
    cases he
    exact meets_write hw ((Untouched.refl db).revoke _ _)
  all_goals exact h.elim

theorem resumeRevoke_writes {grant : GrantId} (hq : ∀ a decision, q.op ≠ .decideApproval a decision) (hw : Mirrors db)
    (h : q.Writes db working pc) (he : q.resumeRevoke working draw grant pc = some e) :
    approvalOutline.Meets i q () db working (q.Writes db working) e := by
  cases pc <;> simp only [ApprovalCall.resumeRevoke, reduceCtorEq] at he
  case grantAudit row =>
    cases he
    exact meets_write hw ⟨h.approvals,h.issued⟩
  case grantCommit row =>
    cases he
    exact meets_commit_untouched hw h (.of_not_decides hq _)
  all_goals exact h.elim

theorem nextRevoke_writes (h : Untouched db working) (rest : List GrantId) : q.Writes db working (nextRevoke rest) := by
  cases rest <;> exact h

theorem resumeActivate_reads (hq : ∀ a decision, q.op ≠ .decideApproval a decision) (hw : Mirrors db)
    (h : q.Reads db pc) (he : q.resumeActivate db draw pc = some e) :
    approvalOutline.Meets i q () db db (q.Reads db) e := by
  cases pc <;> simp only [ApprovalCall.resumeActivate, reduceCtorEq] at he
  case stateRead =>
    split at he <;> cases he
    · exact meets_goto hw trivial
    · exact meets_goto hw trivial
    · exact meets_return hw hq _
  case stateCreate =>
    cases he
    split
    · exact meets_raise hw (by simp [approvalExpired])
    · exact meets_write hw ⟨rfl,rfl⟩
  case stateUpdate =>
    cases he
    exact meets_write hw ⟨rfl,rfl⟩
  all_goals exact h.elim

theorem resumeActivate_writes (hq : ∀ a decision, q.op ≠ .decideApproval a decision) (hw : Mirrors db)
    (h : q.Writes db working pc) (he : q.resumeActivate working draw pc = some e) :
    approvalOutline.Meets i q () db working (q.Writes db working) e := by
  cases pc <;> simp only [ApprovalCall.resumeActivate, reduceCtorEq] at he
  case stateUpdate =>
    cases he
    exact meets_write hw ⟨h.approvals,h.issued⟩
  case grantsList =>
    cases he
    exact meets_goto hw (nextRevoke_writes h _)
  case grantsRevoke rest =>
    cases rest with
    | nil => cases he
    | cons grant rest =>
      cases he
      exact meets_write hw (nextRevoke_writes (Untouched.revoke h _ _) rest)
  case stateAudit =>
    cases he
    exact meets_write hw ⟨h.approvals,h.issued⟩
  case stateCommit =>
    cases he
    exact meets_commit_untouched hw h (.of_not_decides hq _)
  all_goals exact h.elim

theorem resumeDeactivate_reads (hq : ∀ a decision, q.op ≠ .decideApproval a decision) (hw : Mirrors db)
    (h : q.Reads db pc) (he : q.resumeDeactivate db pc = some e) :
    approvalOutline.Meets i q () db db (q.Reads db) e := by
  cases pc <;> simp only [ApprovalCall.resumeDeactivate, reduceCtorEq] at he
  case stateRead =>
    split at he <;> cases he
    · exact meets_goto hw trivial
    · exact meets_return hw hq _
    · exact meets_goto hw trivial
  case stateCreate =>
    cases he
    split
    · exact meets_raise hw (by simp [approvalExpired])
    · exact Meets.finish (by simp) hw (Settles.refl db) (ApprovalCall.Ends.of_not_decides hq _)
  case stateUpdate =>
    cases he
    exact meets_write hw ⟨rfl,rfl⟩
  all_goals exact h.elim

theorem resumeDeactivate_writes (hq : ∀ a decision, q.op ≠ .decideApproval a decision) (hw : Mirrors db)
    (h : q.Writes db working pc) (he : q.resumeDeactivate working pc = some e) :
    approvalOutline.Meets i q () db working (q.Writes db working) e := by
  cases pc <;> simp only [ApprovalCall.resumeDeactivate, reduceCtorEq] at he
  case stateUpdate =>
    cases he
    exact meets_write hw ⟨h.approvals,h.issued⟩
  case stateAudit =>
    cases he
    exact meets_write hw ⟨h.approvals,h.issued⟩
  case stateCommit =>
    cases he
    exact meets_commit_untouched hw h (.of_not_decides hq _)
  all_goals exact h.elim

/-- The row that a decision closes is the one it has read, but for the columns of a decision. -/
theorem decideUpdate_meets {a : ApprovalId} {decision : SecurityApprovalDecision} {record row : ApprovalRecord Instant}
    {now : Instant} (hop : q.op = .decideApproval a decision) (hw : Mirrors db) (hrow : db.approvals a = some row)
    (hrecord : record.Settles row) (hp : row.status = "pending")
    (he : (if decision = .allowForTask then
        if record.taskRef = none then
          some (ApprovalEffect.writeRaise (db.setApproval a (some (row.decide decision q.principal.userId now decision.status)))
            (.securityConflict "Task-scoped approval requires a task"))
        else some (ApprovalEffect.write (db.setApproval a (some (row.decide decision q.principal.userId now decision.status)))
          (.grantInsert (record.decide decision q.principal.userId now decision.status)))
      else some (ApprovalEffect.write (db.setApproval a (some (row.decide decision q.principal.userId now decision.status)))
        (.decisionAudit (record.decide decision q.principal.userId now decision.status) none))) = some e) :
    approvalOutline.Meets i q () db db (q.Reads db) e := by
  split at he
  next hallow =>
    subst hallow
    split at he <;> cases he
    · exact meets_writeRaise hw (by simp [approvalExpired])
    · have hdecide : record.Settles (record.decide .allowForTask q.principal.userId now
          (SecurityApprovalDecision.status .allowForTask)) := ApprovalRecord.decide_settles _
      have hgrant := (hdecide.grant q.principal.userId a).trans (hrecord.grant q.principal.userId a).symm
      exact meets_write hw ⟨a,hop,row,now,hrow,hp,hgrant,rfl,rfl⟩
  next hallow =>
    cases he
    exact meets_write hw ⟨a,decision,hop,⟨row,now,hrow,hp,rfl,by rw [if_neg hallow]; rfl⟩⟩

theorem resumeDecide_reads {a : ApprovalId} {decision : SecurityApprovalDecision} (hop : q.op = .decideApproval a decision)
    (hw : Mirrors db) (h : q.Reads db pc) (he : q.resumeDecide db draw a decision pc = some e) :
    approvalOutline.Meets i q () db db (q.Reads db) e := by
  have hother {b : ApprovalId} {decision' : SecurityApprovalDecision} (hb : q.op = .decideApproval b decision') :
      b = a ∧ decision' = decision := by
    rw [hop] at hb
    cases hb
    exact ⟨rfl,rfl⟩
  cases pc <;> simp only [ApprovalCall.resumeDecide, reduceCtorEq] at he
  case approvalRead =>
    split at he
    · cases he
      exact meets_raise hw (by simp [approvalExpired])
    next record hrecord =>
      split at he <;> cases he
      next hle =>
        refine meets_goto hw fun b decision' hb => ?_
        obtain ⟨rfl,-⟩ := hother hb
        exact ⟨record,hrecord,hle⟩
      · refine meets_goto hw fun b decision' hb => ?_
        obtain ⟨rfl,-⟩ := hother hb
        exact ⟨record,hrecord,.refl record⟩
  case approvalExpire now =>
    cases he
    obtain ⟨r,hr,hle⟩ := h a decision hop
    exact meets_write hw ⟨a,decision,hop,⟨r,now,hr,hle,by rw [hr]; rfl⟩,rfl⟩
  case approvalUpdate record now =>
    obtain ⟨r,hr,hrecord⟩ := h a decision hop
    rw [hr] at he
    dsimp only at he
    split at he
    next hp => exact decideUpdate_meets hop hw hr hrecord hp he
    · cases he
      exact meets_writeRaise hw (by simp [approvalExpired])
  all_goals exact h.elim

theorem resumeDecide_writes {a : ApprovalId} {decision : SecurityApprovalDecision} (hop : q.op = .decideApproval a decision)
    (hw : Mirrors db) (h : q.Writes db working pc) (he : q.resumeDecide working draw a decision pc = some e) :
    approvalOutline.Meets i q () db working (q.Writes db working) e := by
  cases pc <;> simp only [ApprovalCall.resumeDecide, reduceCtorEq] at he
  case approvalExpireCommit =>
    cases he
    obtain ⟨b,decision',hb,hexpires⟩ := h
    refine meets_commit (hw.expires hexpires) hexpires.settles fun c decision'' hc _ => ?_
    rw [hb] at hc
    cases hc
    exact hexpires.closed
  case grantInsert record =>
    obtain ⟨b,hb,r,now,hr,hp,hgrant,happrovals,hgrants⟩ := h
    rw [hop] at hb
    cases hb
    split at he <;> cases he
    · exact meets_raise hw (by simp [approvalExpired])
    · refine meets_write hw ⟨a,.allowForTask,hop,⟨r,now,hr,hp,happrovals,?_⟩⟩
      rw [if_pos rfl]
      simp only [PolicyDb.issued, PolicyDb.addGrant, hgrants, List.map_append, List.map_cons, List.map_nil, hgrant]
  case decisionAudit record grant =>
    cases he
    obtain ⟨b,decision',hb,hdecides⟩ := h
    exact meets_write hw ⟨b,decision',hb,⟨hdecides.row⟩⟩
  case decisionCommit record grant =>
    cases he
    obtain ⟨b,decision',hb,hdecides⟩ := h
    refine meets_commit (hw.decides hdecides) hdecides.settles fun c decision'' hc _ => ?_
    rw [hb] at hc
    cases hc
    exact hdecides.closed
  all_goals exact h.elim

theorem resumeOp_reads (hw : Mirrors db) (h : q.Reads db pc) (he : q.resumeOp db draw pc = some e) :
    approvalOutline.Meets i q () db db (q.Reads db) e := by
  unfold ApprovalCall.resumeOp at he
  split at he
  next hop => exact resumeCreate_reads hw h he
  next hop => exact resumeDecide_reads hop hw h he
  next hop => exact resumeRevoke_reads (by simp [hop]) hw h he
  next hop => exact resumeActivate_reads (by simp [hop]) hw h he
  next hop => exact resumeDeactivate_reads (by simp [hop]) hw h he

theorem resumeOp_writes (hw : Mirrors db) (h : q.Writes db working pc) (he : q.resumeOp working draw pc = some e) :
    approvalOutline.Meets i q () db working (q.Writes db working) e := by
  unfold ApprovalCall.resumeOp at he
  split at he
  next hop => exact resumeCreate_writes (by simp [hop]) hw h he
  next hop => exact resumeDecide_writes hop hw h he
  next hop => exact resumeRevoke_writes (by simp [hop]) hw h he
  next hop => exact resumeActivate_writes (by simp [hop]) hw h he
  next hop => exact resumeDeactivate_writes (by simp [hop]) hw h he

theorem resume_reads (hw : Mirrors db) (h : q.Reads db pc) (he : q.resume db draw pc = some e) :
    approvalOutline.Meets i q () db db (q.Reads db) e := by
  cases pc with
  | policyState | policyCreate | policyClose | policyDenied | policyDeniedCommit => exact resumePolicy_reads hw h he
  | _ => exact resumeOp_reads hw h he

theorem resume_writes (hw : Mirrors db) (h : q.Writes db working pc) (he : q.resume working draw pc = some e) :
    approvalOutline.Meets i q () db working (q.Writes db working) e := by
  cases pc with
  | policyState | policyCreate | policyClose | policyDenied | policyDeniedCommit => exact resumePolicy_writes hw h he
  | _ => exact resumeOp_writes hw h he

theorem approvals_valid : approvalOutline.Valid approvals where
  reading_stable := fun _ _ _ _ _ _ _ hs h => h.settles hs
  writing_stable := fun _ _ _ _ _ _ _ _ h => h
  ended_stable := fun _ _ _ _ _ _ _ hs h a decision hq hr => (h a decision hq hr).settles hs
  begin := by
    intro i q o db hw
    refine ⟨fun pc hpc => ?_,fun r hr => ?_⟩
    · simp only [approvals, ApprovalCall.begin] at hpc
      split at hpc
      · cases hpc
      · split at hpc <;> cases hpc
        · trivial
        · exact start_reads q db
    · simp only [approvals, ApprovalCall.begin] at hr
      split at hr
      next e he =>
        cases hr
        refine ApprovalCall.Ends.error ?_
        rintro rfl
        unfold require at he
        repeat' split at he
        all_goals simp [approvalExpired] at he
      · split at hr <;> cases hr
  read := fun _ _ _ _ _ _ _ hw h he => resume_reads hw h he
  write := fun _ _ _ _ _ _ _ _ hw h he => resume_writes hw h he
  abandon := fun _ _ _ db _ hw _ => Meets.finish (by simp) hw (Settles.refl db) (ApprovalCall.Ends.error (by simp [approvalExpired]))
  restart := fun _ _ _ hw => hw

/-- Where a decision commits, and that it returns only there. -/
theorem decide_ends {a : ApprovalId} {decision : SecurityApprovalDecision} (hop : q.op = .decideApproval a decision)
    (he : q.resume db draw pc = some e) :
    (e.action ≠ .commit ∧ ∀ v, e.next ≠ .done (.ok v)) ∨
      (pc = .policyDeniedCommit ∧ e = ApprovalEffect.commit (.error lockdownActive)) ∨
      (pc = .approvalExpireCommit ∧ e = ApprovalEffect.commit (.error approvalExpired)) ∨
      ∃ record grant, pc = .decisionCommit record grant ∧ e = ApprovalEffect.commit (.ok (.approval record grant)) := by
  cases pc <;> simp only [ApprovalCall.resume, ApprovalCall.resumePolicy, ApprovalCall.resumeOp, hop, ApprovalCall.resumeDecide,
    reduceCtorEq] at he
  case policyDeniedCommit =>
    cases he
    exact .inr (.inl ⟨rfl,rfl⟩)
  case approvalExpireCommit =>
    cases he
    exact .inr (.inr (.inl ⟨rfl,rfl⟩))
  case decisionCommit record grant =>
    cases he
    exact .inr (.inr (.inr ⟨record,grant,rfl,rfl⟩))
  all_goals
    refine .inl ?_
    (repeat' split at he) <;> cases he <;>
      simp [ApprovalEffect.goto,ApprovalEffect.write,ApprovalEffect.raise,ApprovalEffect.writeRaise]

end Valid

/-! ## Runs -/

abbrev ApprovalState := Database.State (PolicyDb Instant) Unit ApprovalCall ApprovalPc ApprovalResult

/-- Call `i` is a `decide_approval` of `a` that has returned. -/
def Decided (s : ApprovalState) (i : ℕ) (a : ApprovalId) : Prop :=
  ∃ q decision v, s.tasks i = some (q,.done (.ok v)) ∧ q.op = .decideApproval a decision

/-- What a step of call `i` does that decides about `a`. -/
inductive DecideStep (s t : ApprovalState) (i : ℕ) (q : ApprovalCall) (a : ApprovalId)
    (decision : SecurityApprovalDecision) : Prop
  | unchanged (approvals : t.db.approvals = s.db.approvals) (grants : t.db.grants = s.db.grants)
      (open_ : ¬ Decided t i a)
  | decided (returned : Decided t i a) (decides : Decides q.principal.userId a decision s.db t.db)
  | expired (raised : t.tasks i = some (q,.done (.error approvalExpired)))
      (expires : Expires q.principal.userId a s.db t.db) (closed : t.db.Closed a)

section Runs
variable {s t : ApprovalState} {l : Database.Label ApprovalCall Draw} {i : ℕ} {q : ApprovalCall} {a : ApprovalId}
  {decision : SecurityApprovalDecision}

theorem decide_step (hs : approvalOutline.Holds s) {pc : ApprovalPc} {e : ApprovalEffect}
    (h : Database.Ran approvals s l i q pc e t) (hop : q.op = .decideApproval a decision) :
    DecideStep s t i q a decision := by
  have hnext : t.tasks i = some (q,e.next) := by rw [h.tasks,Function.update_self]
  have hkept (hc : e.action ≠ .commit) (hr : ∀ v, e.next ≠ .done (.ok v)) : DecideStep s t i q a decision := by
    have hdb : t.db = s.db := h.db_kept hc
    refine .unchanged (by rw [hdb]) (by rw [hdb]) ?_
    rintro ⟨q',decision',v,ht,-⟩
    rw [hnext] at ht
    exact hr v (Prod.mk.inj (Option.some.inj ht)).2
  obtain ⟨env,-,he⟩ | ⟨-,rfl⟩ := h.label
  · obtain ⟨hc,hr⟩ | hcommit := decide_ends hop he
    · exact hkept hc hr
    · obtain ⟨hview,hwrites⟩ : s.view i = s.working ∧ approvalOutline.writing i q s.outside s.db s.working pc := by
        obtain ⟨-,hview,hwrites⟩ | ⟨-,-,hreads⟩ := hs.seen h.task
        · exact ⟨hview,hwrites⟩
        · obtain ⟨rfl,-⟩ | ⟨rfl,-⟩ | ⟨_,_,rfl,-⟩ := hcommit <;> exact hreads.elim
      have hdb := h.db
      rw [hview] at hdb
      obtain ⟨rfl,rfl⟩ | ⟨rfl,rfl⟩ | ⟨record,grant,rfl,rfl⟩ := hcommit
      · obtain ⟨ha,hg⟩ := hwrites
        have hdb : t.db = s.working := hdb
        refine .unchanged (by rw [hdb]; exact ha) (by rw [hdb]; exact hg) ?_
        rintro ⟨q',decision',v,ht,-⟩
        rw [hnext] at ht
        cases ht
      · obtain ⟨b,decision',hb,hexpires⟩ := hwrites
        rw [hop] at hb
        cases hb
        have hdb : t.db = s.working := hdb
        refine .expired hnext ?_ ?_
        · rw [hdb]
          exact hexpires
        · rw [hdb]
          exact hexpires.closed
      · obtain ⟨b,decision',hb,hdecides⟩ := hwrites
        rw [hop] at hb
        cases hb
        have hdb : t.db = s.working := hdb
        refine .decided ⟨q,decision,_,hnext,hop⟩ ?_
        rw [hdb]
        exact hdecides
  · exact hkept (by simp [Database.Program.abandoned]) (by simp [Database.Program.abandoned,approvals])

/-- No two decisions about an approval have returned. -/
def DecidedOnce (s : ApprovalState) : Prop := ∀ i j a, Decided s i a → Decided s j a → i = j

theorem step_decidedOnce (hs : approvalOutline.Holds s) (ho : DecidedOnce s) (h : Database.step approvals l s = some t) :
    DecidedOnce t := by
  cases Database.step_moved h with
  | called q label state =>
    have hold {j : ℕ} {b : ApprovalId} (hd : Decided t j b) : Decided s j b := by
      obtain ⟨q',decision,v,ht,hop⟩ := hd
      rw [state] at ht
      obtain ⟨rfl,hx⟩ | ⟨-,ht⟩ := Database.update_cases ht
      · obtain ⟨-,hbegin⟩ := Prod.mk.inj hx
        simp only [approvals, ApprovalCall.begin] at hbegin
        split at hbegin
        · cases hbegin
        · split at hbegin <;> cases hbegin
      · exact ⟨q',decision,v,ht,hop⟩
    exact fun i j b hi hj => ho i j b (hold hi) (hold hj)
  | restarted env label state =>
    rintro i j b ⟨q',decision,v,ht,-⟩
    rw [state] at ht
    cases ht
  | ran k q pc e h =>
    have hold {j : ℕ} {b : ApprovalId} (hd : Decided t j b) : j = k ∧ (∃ decision, Decides q.principal.userId b decision s.db t.db) ∨
        Decided s j b := by
      obtain ⟨q',decision,v,ht,hop⟩ := hd
      obtain ⟨rfl,hx⟩ | ⟨-,hsame⟩ := h.task_cases ht
      · obtain ⟨rfl,-⟩ := Prod.mk.inj hx
        cases decide_step hs h hop with
        | unchanged _ _ open_ => exact absurd ⟨q',decision,v,ht,hop⟩ open_
        | decided _ decides => exact .inl ⟨rfl,decision,decides⟩
        | expired raised =>
          rw [raised] at ht
          cases ht
      · exact .inr ⟨q',decision,v,hsame,hop⟩
    -- a decision that returns now has found its approval pending
    have hfresh {j : ℕ} {b : ApprovalId} (hnew : ∃ decision, Decides q.principal.userId b decision s.db t.db) :
        ¬ Decided s j b := by
      rintro ⟨q',decision',v,ht,hop⟩
      obtain ⟨decision,hdecides⟩ := hnew
      obtain ⟨r,now,hr,hp,-⟩ := hdecides.row
      obtain ⟨r',hr',hne⟩ := hs.ended j q' _ ht b decision' hop (.inl ⟨v,rfl⟩)
      obtain rfl := Option.some.inj (hr.symm.trans hr')
      exact hne hp
    intro i j b hi hj
    obtain ⟨rfl,hnew⟩ | hi := hold hi
    · obtain ⟨rfl,-⟩ | hj := hold hj
      · rfl
      · exact absurd hj (hfresh hnew)
    · obtain ⟨rfl,hnew⟩ | hj := hold hj
      · exact absurd hi (hfresh hnew)
      · exact ho i j b hi hj

/-- Two grants of one approval are the same row. -/
theorem Mirrors.grant_unique {db : PolicyDb Instant} (hm : Mirrors db) {g g' : GrantRow Instant} (hg : g ∈ db.grants)
    (hg' : g' ∈ db.grants) (he : g.sourceApprovalId = g'.sourceApprovalId) : g = g' := by
  by_contra hne
  have hsymm : Std.Symm fun g g' : GrantRow Instant => g.sourceApprovalId ≠ g'.sourceApprovalId := ⟨fun _ _ h => h.symm⟩
  exact List.Pairwise.forall (List.pairwise_map.mp hm.unique) hg hg' hne he

end Runs

def sampleOwner : SessionPrincipal := ⟨0,"owner",.owner,0,0,.trusted,.passkeyTotp⟩

def emptyPolicy : PolicyDb Instant := ⟨fun _ => none,[],some .normal,[]⟩

def approvalSteps (i n : ℕ) (newId : Nat) : List (Database.Label ApprovalCall Draw) :=
  List.replicate n (.run i ⟨1,newId⟩)

/-- Two decisions about one request race, after both have read it. -/
def decisionTrace : List (Database.Label ApprovalCall Draw) :=
  let create : ApprovalCall := ⟨sampleOwner,.createApproval ⟨"deploy",none,none,some "task",300⟩⟩
  let decide : ApprovalCall := ⟨sampleOwner,.decideApproval 7 .allowForTask⟩
  [.call create] ++ approvalSteps 0 4 7 ++ [.call decide,.call decide] ++ approvalSteps 1 2 9 ++ approvalSteps 2 2 9 ++
    approvalSteps 1 4 9 ++ approvalSteps 2 1 9

def raced : ApprovalState := after (Database.step approvals) decisionTrace (Database.State.initial emptyPolicy ()) (by decide)

end AgentGraph.Security
