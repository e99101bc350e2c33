import AgentGraph.Tools.Service

/-! # The approval service and its waiters

`wait_for_decision` awaits a shield of the decision under a timeout. The timeout only
cancels the waiting task, and the decision is only copied to the shield, so between either
of them and the waiter's next turn every other operation of the service may run. When the
waiter is resumed, a cancellation by somebody else wins over the timeout, and the timeout
over a result that has arrived.
-/
set_option autoImplicit false
namespace AgentGraph.Tools.ApprovalService
open Transition

abbrev WaiterId := Nat

/-- The future a waiter awaits: the outer one of `asyncio.shield`. -/
inductive Shield
  | pending
  | resolved (status : ApprovalStatus)
  | cancelled
deriving DecidableEq, Repr

/-- How a call of `wait_for_decision` ends. -/
inductive Outcome
  | returned (status : ApprovalStatus)
  | raised
deriving DecidableEq, Repr

/-- A call of `wait_for_decision` on a request that exists. -/
structure Waiter where
  approval : ApprovalId
  shield : Shield
  /-- The timeout has cancelled the task. -/
  timedOut : Bool
  /-- Somebody else has cancelled the task. -/
  cancelRequested : Bool
  outcome : Option Outcome
deriving DecidableEq

inductive Notice
  | approvalRequired | approvalApproved | approvalRejected | approvalExpired
deriving DecidableEq, Repr

/-- `_requests` with `_decisions`, the calls that wait on them and what was published. -/
structure State where
  approvals : ApprovalId → Option Approval
  waiters : WaiterId → Option Waiter
  nextApproval : Nat
  nextWaiter : Nat
  notices : List (ApprovalId × Notice)

def initial : State := ⟨fun _ => none,fun _ => none,0,0,[]⟩

inductive Label
  | create (action description requestedBy : String) (runId : Option RunId) (expiresAt : Option Instant)
  | decide (a : ApprovalId) (approved : Bool) (now : Instant)
  | cancel (a : ApprovalId)
  /-- A call of `wait_for_decision`, whose timeout may not be positive. -/
  | wait (a : ApprovalId) (elapsed : Bool)
  /-- The callback of the shield copies the decision. -/
  | deliver (w : WaiterId)
  /-- The timeout of the waiter fires. -/
  | timeout (w : WaiterId)
  /-- The task of the waiter is cancelled. -/
  | cancelWaiter (w : WaiterId)
  /-- The waiter takes its next turn. -/
  | resume (w : WaiterId)
deriving DecidableEq

namespace Waiter

/-- `task.cancel()` cancels the future the task waits for, unless that is done. -/
def interrupt (waiter : Waiter) : Waiter :=
  { waiter with shield := if waiter.shield = .pending then .cancelled else waiter.shield }

/-- A call of `wait_for_decision` up to its first suspension. -/
def enter (a : ApprovalId) (request : Approval) (elapsed : Bool) : Waiter :=
  match request.decision with
  | some status => ⟨a,.resolved status,false,false,some (.returned status)⟩
  | none => ⟨a,if elapsed then .cancelled else .pending,elapsed,false,none⟩

def finish (waiter : Waiter) (outcome : Outcome) : Waiter := { waiter with outcome := some outcome }

end Waiter

namespace State

def setApproval (s : State) (a : ApprovalId) (request : Approval) : State :=
  { s with approvals := Function.update s.approvals a (some request) }

def setWaiter (s : State) (w : WaiterId) (waiter : Waiter) : State :=
  { s with waiters := Function.update s.waiters w (some waiter) }

def note (s : State) (a : ApprovalId) (notice : Notice) : State := { s with notices := s.notices ++ [(a,notice)] }

/-- `decide` on a request that exists; one that is not pending raises. -/
def decide (s : State) (a : ApprovalId) (request : Approval) (approved : Bool) (now : Instant) : State :=
  match request.decide approved now with
  | none => s
  | some (decided,moved) =>
    (s.setApproval a decided).note a
      (if moved then (if approved then .approvalApproved else .approvalRejected) else .approvalExpired)

/-- The `except TimeoutError` branch of `wait_for_decision`. -/
def expire (s : State) (w : WaiterId) (waiter : Waiter) (request : Approval) : State :=
  let s := s.setWaiter w (waiter.finish (.returned .expired))
  if request.status = .pending then
    (s.setApproval waiter.approval request.expire).note waiter.approval .approvalExpired
  else s

/-- The turn of a waiter whose future is done. -/
def resume (s : State) (w : WaiterId) (waiter : Waiter) (request : Approval) : Option State :=
  if waiter.cancelRequested then
    some ((s.setApproval waiter.approval request.cancel).setWaiter w (waiter.finish .raised))
  else if waiter.timedOut then some (s.expire w waiter request)
  else
    match waiter.shield with
    | .resolved status => some (s.setWaiter w (waiter.finish (.returned status)))
    | _ => none

/-- A waiter that has not returned. -/
def waiting (s : State) (w : WaiterId) : Option Waiter := (s.waiters w).filter fun waiter => waiter.outcome.isNone

end State

def step : Label → State → Option State
  | .create action description requestedBy runId expiresAt, s =>
    some (({ s with
      approvals := Function.update s.approvals s.nextApproval
        (some (Approval.request action description requestedBy runId expiresAt)),
      nextApproval := s.nextApproval + 1 } : State).note s.nextApproval .approvalRequired)
  | .decide a approved now, s =>
    -- an unknown request is a `KeyError`
    match s.approvals a with
    | none => some s
    | some request => some (s.decide a request approved now)
  | .cancel a, s =>
    match s.approvals a with
    | none => some s
    | some request => some (s.setApproval a request.cancel)
  | .wait a elapsed, s =>
    match s.approvals a with
    -- the call returns "cancelled"
    | none => some s
    | some request =>
      some { s with
        waiters := Function.update s.waiters s.nextWaiter (some (Waiter.enter a request elapsed)),
        nextWaiter := s.nextWaiter + 1 }
  | .deliver w, s =>
    (s.waiting w).bind fun waiter => (s.approvals waiter.approval).bind fun request =>
      if waiter.shield = .pending then
        request.decision.map fun status => s.setWaiter w { waiter with shield := .resolved status }
      else none
  | .timeout w, s =>
    (s.waiting w).bind fun waiter =>
      if waiter.timedOut then none else some (s.setWaiter w { waiter.interrupt with timedOut := true })
  | .cancelWaiter w, s =>
    (s.waiting w).map fun waiter => s.setWaiter w { waiter.interrupt with cancelRequested := true }
  | .resume w, s =>
    (s.waiting w).bind fun waiter => (s.approvals waiter.approval).bind fun request =>
      if waiter.shield = .pending then none else s.resume w waiter request

/-- Every value a waiter has returned is the status of its request. -/
def Agree (s : State) : Prop :=
  ∀ w waiter, s.waiters w = some waiter → ∀ status, waiter.outcome = some (.returned status) →
    ∃ request, s.approvals waiter.approval = some request ∧ request.status = status

/-- A waiter whose timeout has fired finds its request still pending, or expired. -/
def TimeoutFirst : Label → State → Prop
  | .resume w, s => ∀ waiter request, s.waiting w = some waiter → s.approvals waiter.approval = some request →
      waiter.timedOut = true → waiter.cancelRequested = false → request.status = .pending ∨ request.status = .expired
  | _, _ => True

/-- What holds of every request and waiter, whether they agree or not. -/
structure Inv (s : State) : Prop where
  fresh : ∀ w, s.nextWaiter ≤ w → s.waiters w = none
  freshApproval : ∀ a, s.nextApproval ≤ a → s.approvals a = none
  known : ∀ w waiter, s.waiters w = some waiter → (s.approvals waiter.approval).isSome = true
  decided : ∀ a request, s.approvals a = some request → ∀ status, request.decision = some status →
    request.status = status ∧ status ≠ .pending
  resolved : ∀ w waiter, s.waiters w = some waiter → ∀ status, waiter.shield = .resolved status →
    ∃ request, s.approvals waiter.approval = some request ∧ request.decision = some status
  settled : ∀ w waiter, s.waiters w = some waiter → ∀ status, waiter.outcome = some (.returned status) →
    status ≠ .pending

/-- What the operations do to a request: nothing, or its one move away from PENDING. -/
def Settles (request request' : Approval) : Prop :=
  request' = request ∨ request.status = .pending ∧ request'.status ≠ .pending ∧
    (request.decision = none → request'.decision = none ∨ request'.decision = some request'.status)

theorem Settles.refl (request : Approval) : Settles request request := .inl rfl

theorem settles_resolve {request : Approval} {status : ApprovalStatus} (hpending : request.status = .pending)
    (hstatus : status ≠ .pending) : Settles request (request.resolve status) := by
  refine .inr ⟨hpending,hstatus,fun hnone => .inr ?_⟩
  simp [Approval.resolve, hnone]

theorem settles_decide {request decided : Approval} {approved moved : Bool} {now : Instant}
    (h : request.decide approved now = some (decided,moved)) : Settles request decided := by
  unfold Approval.decide at h
  split at h
  · cases h
  · rename_i hpending
    have hpending : request.status = .pending := by simpa using hpending
    split at h
    · obtain ⟨rfl,-⟩ := Prod.mk.inj (Option.some.inj h)
      exact .inr ⟨hpending,by simp,fun hnone => .inl hnone⟩
    · obtain ⟨rfl,-⟩ := Prod.mk.inj (Option.some.inj h)
      exact settles_resolve hpending (by cases approved <;> simp)

theorem settles_cancel (request : Approval) : Settles request request.cancel := by
  unfold Approval.cancel
  split
  · rename_i hpending
    exact settles_resolve hpending (by simp)
  · exact .refl request

theorem settles_expire (request : Approval) : Settles request request.expire := by
  unfold Approval.expire
  split
  · rename_i hpending
    exact .inr ⟨hpending,by simp,fun hnone => .inl hnone⟩
  · exact .refl request

section Writes
variable {s : State} {a : ApprovalId} {w : WaiterId} {request request' : Approval} {old new : Waiter}

theorem Inv.notices (h : Inv s) (notices : List (ApprovalId × Notice)) : Inv { s with notices := notices } :=
  ⟨h.fresh,h.freshApproval,h.known,h.decided,h.resolved,h.settled⟩

theorem Inv.setApproval (h : Inv s) (hrow : s.approvals a = some request) (hsettles : Settles request request') :
    Inv (s.setApproval a request') := by
  have hdecision : ∀ status, request.decision = some status → request'.decision = some status := by
    intro status hstatus
    rcases hsettles with rfl | ⟨hpending,-,-⟩
    · exact hstatus
    · obtain ⟨hsame,hne⟩ := h.decided a request hrow status hstatus
      exact absurd (hsame.symm.trans hpending) hne
  refine ⟨h.fresh,?_,?_,?_,?_,h.settled⟩
  · intro b hb
    have hne : b ≠ a := by
      rintro rfl
      rw [h.freshApproval b hb] at hrow
      cases hrow
    simpa [State.setApproval, Function.update_of_ne hne] using h.freshApproval b hb
  · intro v waiter hv
    by_cases hva : waiter.approval = a
    · simp [State.setApproval, hva]
    · simpa [State.setApproval, Function.update_of_ne hva] using h.known v waiter hv
  · intro b row hb status hstatus
    by_cases hba : b = a
    · subst hba
      obtain rfl : request' = row := by simpa [State.setApproval] using hb
      rcases hsettles with rfl | ⟨hpending,hne,hfree⟩
      · exact h.decided b request' hrow status hstatus
      · have hnone : request.decision = none := by
          by_contra hsome
          obtain ⟨other,hother⟩ := Option.ne_none_iff_exists'.mp hsome
          obtain ⟨hsame,hother'⟩ := h.decided b request hrow other hother
          exact hother' (hsame.symm.trans hpending)
        rcases hfree hnone with hdec | hdec
        · rw [hdec] at hstatus
          cases hstatus
        · rw [hdec] at hstatus
          obtain rfl := Option.some.inj hstatus
          exact ⟨rfl,hne⟩
    · exact h.decided b row (by simpa [State.setApproval, Function.update_of_ne hba] using hb) status hstatus
  · intro v waiter hv status hstatus
    obtain ⟨row,hrow',hdec⟩ := h.resolved v waiter hv status hstatus
    by_cases hva : waiter.approval = a
    · subst hva
      obtain rfl : request = row := by simpa [hrow] using hrow'
      exact ⟨request',by simp [State.setApproval],hdecision status hdec⟩
    · exact ⟨row,by simpa [State.setApproval, Function.update_of_ne hva] using hrow',hdec⟩

theorem Inv.setWaiter (h : Inv s) (hold : s.waiters w = some old) (hsame : new.approval = old.approval)
    (hresolved : ∀ status, new.shield = .resolved status →
      ∃ request, s.approvals new.approval = some request ∧ request.decision = some status)
    (hsettled : ∀ status, new.outcome = some (.returned status) → status ≠ .pending) : Inv (s.setWaiter w new) := by
  have hcases : ∀ v waiter, (s.setWaiter w new).waiters v = some waiter →
      v = w ∧ waiter = new ∨ s.waiters v = some waiter := by
    intro v waiter hv
    by_cases hvw : v = w
    · subst hvw
      exact .inl ⟨rfl,(by simpa [State.setWaiter] using hv : new = waiter).symm⟩
    · exact .inr (by simpa [State.setWaiter, Function.update_of_ne hvw] using hv)
  refine ⟨?_,h.freshApproval,?_,h.decided,?_,?_⟩
  · intro v hv
    have hne : v ≠ w := by
      rintro rfl
      rw [h.fresh v hv] at hold
      cases hold
    simpa [State.setWaiter, Function.update_of_ne hne] using h.fresh v hv
  · intro v waiter hv
    rcases hcases v waiter hv with ⟨rfl,rfl⟩ | hv
    · rw [hsame]
      exact h.known v old hold
    · exact h.known v waiter hv
  · intro v waiter hv status hstatus
    rcases hcases v waiter hv with ⟨rfl,rfl⟩ | hv
    · exact hresolved status hstatus
    · exact h.resolved v waiter hv status hstatus
  · intro v waiter hv status hstatus
    rcases hcases v waiter hv with ⟨rfl,rfl⟩ | hv
    · exact hsettled status hstatus
    · exact h.settled v waiter hv status hstatus

/-- A settled request does not move, so what has been returned stays right. -/
theorem Agree.setApproval (h : Agree s) (hinv : Inv s) (hrow : s.approvals a = some request)
    (hsettles : Settles request request') : Agree (s.setApproval a request') := by
  intro v waiter hv status hstatus
  obtain ⟨row,hrow',hsame⟩ := h v waiter hv status hstatus
  by_cases hva : waiter.approval = a
  · subst hva
    obtain rfl : request = row := by simpa [hrow] using hrow'
    rcases hsettles with rfl | ⟨hpending,-⟩
    · exact ⟨request',by simp [State.setApproval],hsame⟩
    · exact absurd (hsame.symm.trans hpending) (hinv.settled v waiter hv status hstatus)
  · exact ⟨row,by simpa [State.setApproval, Function.update_of_ne hva] using hrow',hsame⟩

theorem Agree.setWaiter (h : Agree s) (hnew : ∀ status, new.outcome = some (.returned status) →
    ∃ request, s.approvals new.approval = some request ∧ request.status = status) : Agree (s.setWaiter w new) := by
  intro v waiter hv status hstatus
  by_cases hvw : v = w
  · subst hvw
    obtain rfl : new = waiter := by simpa [State.setWaiter] using hv
    exact hnew status hstatus
  · exact h v waiter (by simpa [State.setWaiter, Function.update_of_ne hvw] using hv) status hstatus

theorem waiting_eq {waiter : Waiter} (h : s.waiting w = some waiter) :
    s.waiters w = some waiter ∧ waiter.outcome = none := by
  simpa [State.waiting, Option.filter_eq_some_iff] using h

/-- A new request is undecided, and nobody waits for it. -/
theorem inv_create (h : Inv s) (hdecision : request.decision = none) :
    Inv { s with
      approvals := Function.update s.approvals s.nextApproval (some request)
      nextApproval := s.nextApproval + 1 } := by
  have hnew : s.approvals s.nextApproval = none := h.freshApproval _ (Nat.le_refl _)
  have hold : ∀ b row, s.approvals b = some row →
      Function.update s.approvals s.nextApproval (some request) b = some row := by
    intro b row hb
    have hne : b ≠ s.nextApproval := by
      rintro rfl
      rw [hnew] at hb
      cases hb
    rw [Function.update_of_ne hne, hb]
  refine ⟨h.fresh,?_,?_,?_,?_,h.settled⟩
  · intro b hb
    have hne : b ≠ s.nextApproval := by
      rintro rfl
      exact absurd hb (by simp)
    exact (Function.update_of_ne hne _ _).trans (h.freshApproval b (by simp only at hb; omega))
  · intro v waiter hv
    obtain ⟨row,hrow⟩ := Option.isSome_iff_exists.mp (h.known v waiter hv)
    exact Option.isSome_iff_exists.mpr ⟨row,hold _ _ hrow⟩
  · intro b row hb status hs
    by_cases hne : b = s.nextApproval
    · subst hne
      obtain rfl : request = row := by simpa using hb
      rw [hdecision] at hs
      cases hs
    · exact h.decided b row (by simpa [Function.update_of_ne hne] using hb) status hs
  · intro v waiter hv status hs
    obtain ⟨row,hrow,hdec⟩ := h.resolved v waiter hv status hs
    exact ⟨row,hold _ _ hrow,hdec⟩

/-- A call that finds its request decided returns the decision at once. -/
theorem inv_wait (h : Inv s) (hrow : s.approvals a = some request) (elapsed : Bool) :
    Inv { s with
      waiters := Function.update s.waiters s.nextWaiter (some (Waiter.enter a request elapsed))
      nextWaiter := s.nextWaiter + 1 } := by
  have hcases : ∀ v waiter, Function.update s.waiters s.nextWaiter (some (Waiter.enter a request elapsed)) v =
      some waiter → waiter = Waiter.enter a request elapsed ∨ s.waiters v = some waiter := by
    intro v waiter hv
    by_cases hvw : v = s.nextWaiter
    · subst hvw
      exact .inl (by simpa using hv.symm)
    · exact .inr (by simpa [Function.update_of_ne hvw] using hv)
  have happroval : (Waiter.enter a request elapsed).approval = a := by
    unfold Waiter.enter
    split <;> rfl
  refine ⟨?_,h.freshApproval,?_,h.decided,?_,?_⟩
  · intro v hv
    have hne : v ≠ s.nextWaiter := by
      rintro rfl
      exact absurd hv (by simp)
    exact (Function.update_of_ne hne _ _).trans (h.fresh v (by simp only at hv; omega))
  · intro v waiter hv
    rcases hcases v waiter hv with rfl | hv
    · simp [happroval, hrow]
    · exact h.known v waiter hv
  · intro v waiter hv status hs
    rcases hcases v waiter hv with rfl | hv
    · refine ⟨request,by rw [happroval, hrow],?_⟩
      unfold Waiter.enter at hs
      split at hs
      · rename_i other hother
        obtain rfl : other = status := by simpa using hs
        exact hother
      · cases elapsed <;> simp at hs
    · exact h.resolved v waiter hv status hs
  · intro v waiter hv status hs
    rcases hcases v waiter hv with rfl | hv
    · unfold Waiter.enter at hs
      split at hs
      · rename_i other hother
        obtain rfl : other = status := by simpa using hs
        exact (h.decided a request hrow other hother).2
      · simp at hs
    · exact h.settled v waiter hv status hs

end Writes

section Steps
variable {s t : State} {w : WaiterId} {waiter : Waiter} {request : Approval}

/-- The three ways a waiter leaves its `await`. -/
theorem resume_cases (h : s.resume w waiter request = some t) :
    (waiter.cancelRequested = true ∧
      t = (s.setApproval waiter.approval request.cancel).setWaiter w (waiter.finish .raised)) ∨
    (waiter.cancelRequested = false ∧ waiter.timedOut = true ∧ t = s.expire w waiter request) ∨
    (waiter.cancelRequested = false ∧ waiter.timedOut = false ∧
      ∃ status, waiter.shield = .resolved status ∧ t = s.setWaiter w (waiter.finish (.returned status))) := by
  unfold State.resume at h
  split at h
  · rename_i hcancel
    exact .inl ⟨hcancel,(Option.some.inj h).symm⟩
  · rename_i hcancel
    split at h
    · rename_i hout
      exact .inr (.inl ⟨by simpa using hcancel,hout,(Option.some.inj h).symm⟩)
    · rename_i hout
      split at h
      · rename_i status hshield
        exact .inr (.inr ⟨by simpa using hcancel,by simpa using hout,status,hshield,(Option.some.inj h).symm⟩)
      · cases h

theorem Inv.expire (h : Inv s) (hw : s.waiters w = some waiter) (hrow : s.approvals waiter.approval = some request) :
    Inv (s.expire w waiter request) := by
  have hset : Inv (s.setWaiter w (waiter.finish (.returned .expired))) := by
    refine h.setWaiter hw rfl (h.resolved w waiter hw) ?_
    intro status hstatus
    obtain rfl : ApprovalStatus.expired = status := by simpa [Waiter.finish] using hstatus
    simp
  unfold State.expire
  split
  · exact (hset.setApproval hrow (settles_expire request)).notices _
  · exact hset

theorem Inv.resume (h : Inv s) (hw : s.waiters w = some waiter) (hrow : s.approvals waiter.approval = some request)
    (ht : s.resume w waiter request = some t) : Inv t := by
  rcases resume_cases ht with ⟨-,rfl⟩ | ⟨-,-,rfl⟩ | ⟨-,-,status,hshield,rfl⟩
  · have hset : Inv (s.setApproval waiter.approval request.cancel) := h.setApproval hrow (settles_cancel request)
    exact hset.setWaiter hw rfl (hset.resolved w waiter hw) (by simp [Waiter.finish])
  · exact h.expire hw hrow
  · refine h.setWaiter hw rfl (h.resolved w waiter hw) ?_
    intro other hother
    obtain rfl : status = other := by simpa [Waiter.finish] using hother
    obtain ⟨row,hrow',hdec⟩ := h.resolved w waiter hw status hshield
    exact (h.decided _ row hrow' status hdec).2

/-- `task.cancel()` resolves nothing. -/
theorem interrupt_resolved {status : ApprovalStatus} (h : waiter.interrupt.shield = .resolved status) :
    waiter.shield = .resolved status := by
  unfold Waiter.interrupt at h
  simp only at h
  split at h
  · cases h
  · exact h

/-- What an operation other than the turn of a waiter can do. -/
inductive Quiet (s : State) : State → Prop
  | same : Quiet s s
  | created (request : Approval) (notices : List (ApprovalId × Notice)) (undecided : request.decision = none) :
      Quiet s { s with
        approvals := Function.update s.approvals s.nextApproval (some request)
        nextApproval := s.nextApproval + 1
        notices := notices }
  | settled (a : ApprovalId) (request request' : Approval) (notices : List (ApprovalId × Notice))
      (row : s.approvals a = some request) (settles : Settles request request') :
      Quiet s { s.setApproval a request' with notices := notices }
  | entered (a : ApprovalId) (request : Approval) (elapsed : Bool) (row : s.approvals a = some request) :
      Quiet s { s with
        waiters := Function.update s.waiters s.nextWaiter (some (Waiter.enter a request elapsed))
        nextWaiter := s.nextWaiter + 1 }
  | moved (w : WaiterId) (old new : Waiter) (row : s.waiters w = some old) (approval : new.approval = old.approval)
      (outcome : new.outcome = old.outcome)
      (resolved : ∀ status, new.shield = .resolved status → old.shield = .resolved status ∨
        ∃ request, s.approvals new.approval = some request ∧ request.decision = some status) :
      Quiet s (s.setWaiter w new)

/-- The turn of a waiter, or an operation that does not depend on the order of a timeout and
a decision. -/
theorem step_cases {l : Label} (h : step l s = some t) :
    (∃ w waiter request, l = .resume w ∧ s.waiting w = some waiter ∧ s.approvals waiter.approval = some request ∧
      s.resume w waiter request = some t) ∨ TimeoutFirst l s ∧ Quiet s t := by
  cases l with
  | create action description requestedBy runId expiresAt =>
    obtain rfl := Option.some.inj h
    exact .inr ⟨trivial,.created _ _ rfl⟩
  | decide a approved now =>
    refine .inr ⟨trivial,?_⟩
    simp only [step] at h
    split at h
    · obtain rfl := Option.some.inj h
      exact .same
    · rename_i request hrow
      obtain rfl := Option.some.inj h
      unfold State.decide
      split
      · exact .same
      · rename_i decided moved hdecide
        exact .settled a request decided _ hrow (settles_decide hdecide)
  | cancel a =>
    refine .inr ⟨trivial,?_⟩
    simp only [step] at h
    split at h
    · obtain rfl := Option.some.inj h
      exact .same
    · rename_i request hrow
      obtain rfl := Option.some.inj h
      exact .settled a request request.cancel s.notices hrow (settles_cancel request)
  | wait a elapsed =>
    refine .inr ⟨trivial,?_⟩
    simp only [step] at h
    split at h
    · obtain rfl := Option.some.inj h
      exact .same
    · rename_i request hrow
      obtain rfl := Option.some.inj h
      exact .entered a request elapsed hrow
  | deliver w =>
    simp only [step, Option.bind_eq_some_iff] at h
    obtain ⟨waiter,hw,request,hrow,h⟩ := h
    split at h
    · obtain ⟨status,hdec,rfl⟩ := Option.map_eq_some_iff.mp h
      refine .inr ⟨trivial,.moved w waiter _ (waiting_eq hw).1 rfl rfl fun other hother => .inr ⟨request,hrow,?_⟩⟩
      obtain rfl : status = other := by simpa using hother
      exact hdec
    · cases h
  | timeout w =>
    simp only [step, Option.bind_eq_some_iff] at h
    obtain ⟨waiter,hw,h⟩ := h
    split at h
    · cases h
    · obtain rfl := Option.some.inj h
      exact .inr ⟨trivial,.moved w waiter _ (waiting_eq hw).1 rfl rfl fun _ hs => .inl (interrupt_resolved hs)⟩
  | cancelWaiter w =>
    obtain ⟨waiter,hw,rfl⟩ := Option.map_eq_some_iff.mp h
    exact .inr ⟨trivial,.moved w waiter _ (waiting_eq hw).1 rfl rfl fun _ hs => .inl (interrupt_resolved hs)⟩
  | resume w =>
    simp only [step, Option.bind_eq_some_iff] at h
    obtain ⟨waiter,hw,request,hrow,h⟩ := h
    split at h
    · cases h
    · exact .inl ⟨w,waiter,request,rfl,hw,hrow,h⟩

/-- Every operation keeps the invariant. -/
theorem step_inv {l : Label} (h : Inv s) (ht : step l s = some t) : Inv t := by
  obtain ⟨w,waiter,request,-,hw,hrow,ht⟩ | ⟨-,hquiet⟩ := step_cases ht
  · exact h.resume (waiting_eq hw).1 hrow ht
  · cases hquiet with
    | same => exact h
    | created request notices undecided => exact (inv_create h undecided).notices notices
    | settled a request request' notices row settles => exact (h.setApproval row settles).notices notices
    | entered a request elapsed row => exact inv_wait h row elapsed
    | moved w old new row approval outcome resolved =>
      refine h.setWaiter row approval (fun status hs => ?_) fun status hs => h.settled w old row status (outcome ▸ hs)
      obtain hold | hdecided := resolved status hs
      · rw [approval]
        exact h.resolved w old row status hold
      · exact hdecided

theorem setApproval_settles {a b : ApprovalId} {row request' : Approval} (hrow : s.approvals a = some request)
    (hsettles : Settles request request') (hb : s.approvals b = some row) :
    ∃ row', (s.setApproval a request').approvals b = some row' ∧ Settles row row' := by
  by_cases hba : b = a
  · subst hba
    obtain rfl : request = row := by simpa [hrow] using hb
    exact ⟨request',by simp [State.setApproval],hsettles⟩
  · exact ⟨row,by simpa [State.setApproval, Function.update_of_ne hba] using hb,.refl row⟩

/-- One operation settles a request at most once, and never removes one. -/
theorem step_settles {l : Label} {a : ApprovalId} {row : Approval} (h : Inv s) (ht : step l s = some t)
    (hrow : s.approvals a = some row) : ∃ row', t.approvals a = some row' ∧ Settles row row' := by
  have hkept : ∃ row', s.approvals a = some row' ∧ Settles row row' := ⟨row,hrow,.refl row⟩
  obtain ⟨w,waiter,request,-,hw,hrequest,ht⟩ | ⟨-,hquiet⟩ := step_cases ht
  · rcases resume_cases ht with ⟨-,rfl⟩ | ⟨-,-,rfl⟩ | ⟨-,-,status,-,rfl⟩
    · exact setApproval_settles hrequest (settles_cancel request) hrow
    · unfold State.expire
      split
      · have hsame : (s.setWaiter w (waiter.finish (.returned .expired))).approvals waiter.approval = some request :=
          hrequest
        exact setApproval_settles hsame (settles_expire request) hrow
      · exact hkept
    · exact hkept
  · cases hquiet with
    | same | entered | moved => exact hkept
    | created request notices undecided =>
      have hne : a ≠ s.nextApproval := by
        rintro rfl
        rw [h.freshApproval _ (Nat.le_refl _)] at hrow
        cases hrow
      exact ⟨row,by simpa [Function.update_of_ne hne] using hrow,.refl row⟩
    | settled b request request' notices found settles => exact setApproval_settles found settles hrow

/-- A timeout that is handled agrees with a request it expires, or finds expired. -/
theorem agree_expire_iff (hagree : Agree s) (h : Inv s) (hrow : s.approvals waiter.approval = some request) :
    Agree (s.expire w waiter request) ↔ request.status = .pending ∨ request.status = .expired := by
  constructor
  · intro hafter
    by_cases hpending : request.status = .pending
    · exact .inl hpending
    · have hstate : s.expire w waiter request = s.setWaiter w (waiter.finish (.returned .expired)) := by
        simp only [State.expire, if_neg hpending]
      rw [hstate] at hafter
      obtain ⟨row,hrow',hstatus⟩ := hafter w _ (by simp [State.setWaiter]; rfl) .expired rfl
      obtain rfl : request = row := by simpa [State.setWaiter, Waiter.finish, hrow] using hrow'
      exact .inr hstatus
  · intro hstatus
    by_cases hpending : request.status = .pending
    · have hexpired : request.expire.status = .expired := by simp [Approval.expire, hpending]
      have hset : Agree (s.setApproval waiter.approval request.expire) :=
        hagree.setApproval h hrow (settles_expire request)
      have hafter : Agree ((s.setApproval waiter.approval request.expire).setWaiter w
          (waiter.finish (.returned .expired))) := by
        refine hset.setWaiter fun status hs => ⟨request.expire,by simp [State.setApproval, Waiter.finish],?_⟩
        obtain rfl : ApprovalStatus.expired = status := by simpa [Waiter.finish] using hs
        exact hexpired
      simp only [State.expire, if_pos hpending]
      exact hafter
    · simp only [State.expire, if_neg hpending]
      refine hagree.setWaiter fun status hs => ⟨request,hrow,?_⟩
      obtain rfl : ApprovalStatus.expired = status := by simpa [Waiter.finish] using hs
      exact hstatus.resolve_left hpending

/-- The only turn after which a waiter and its request disagree is the handling of a timeout
that came with or after a decision. -/
theorem resume_agree_iff (hagree : Agree s) (h : Inv s) (hw : s.waiting w = some waiter)
    (hrow : s.approvals waiter.approval = some request) (ht : s.resume w waiter request = some t) :
    Agree t ↔ TimeoutFirst (.resume w) s := by
  have hw' := (waiting_eq hw).1
  have hself : ∀ other row, s.waiting w = some other → s.approvals other.approval = some row →
      other = waiter ∧ row = request := by
    intro other row hother hrow'
    obtain rfl : waiter = other := by simpa [hw] using hother
    exact ⟨rfl,by simpa [hrow] using hrow'.symm⟩
  rcases resume_cases ht with ⟨hcancel,rfl⟩ | ⟨hcancel,hout,rfl⟩ | ⟨hcancel,hout,status,hshield,rfl⟩
  · refine iff_of_true ?_ ?_
    · exact (hagree.setApproval h hrow (settles_cancel request)).setWaiter (by simp [Waiter.finish])
    · intro other row hother hrow' _ hfree
      obtain ⟨rfl,rfl⟩ := hself other row hother hrow'
      rw [hcancel] at hfree
      cases hfree
  · rw [agree_expire_iff hagree h hrow]
    constructor
    · intro hstatus other row hother hrow' _ _
      obtain ⟨rfl,rfl⟩ := hself other row hother hrow'
      exact hstatus
    · intro hfirst
      exact hfirst waiter request hw hrow hout hcancel
  · refine iff_of_true ?_ ?_
    · refine hagree.setWaiter fun other hs => ?_
      obtain rfl : status = other := by simpa [Waiter.finish] using hs
      obtain ⟨row,hrow',hdec⟩ := h.resolved w waiter hw' status hshield
      exact ⟨row,hrow',(h.decided _ row hrow' status hdec).1⟩
    · intro other row hother hrow' htimed _
      obtain ⟨rfl,rfl⟩ := hself other row hother hrow'
      rw [hout] at htimed
      cases htimed

/-- A request that has settled the value of a waiter keeps it. -/
theorem Agree.keep {l : Label} (hagree : Agree s) (h : Inv s) (ht : step l s = some t) (hwaiters : t.waiters = s.waiters) :
    Agree t := by
  intro v waiter hv status hs
  rw [hwaiters] at hv
  obtain ⟨row,hrow,hsame⟩ := hagree v waiter hv status hs
  obtain ⟨row',hrow',hsettles⟩ := step_settles h ht hrow
  rcases hsettles with rfl | ⟨hpending,-⟩
  · exact ⟨row',hrow',hsame⟩
  · exact absurd (hsame.symm.trans hpending) (h.settled v waiter hv status hs)

theorem step_agree_iff {l : Label} (hagree : Agree s) (h : Inv s) (ht : step l s = some t) :
    Agree t ↔ TimeoutFirst l s := by
  obtain ⟨w,waiter,request,rfl,hw,hrow,hresume⟩ | ⟨hfirst,hquiet⟩ := step_cases ht
  · exact resume_agree_iff hagree h hw hrow hresume
  · refine iff_of_true ?_ hfirst
    cases hquiet with
    | same => exact hagree
    | created | settled => exact hagree.keep h ht rfl
    | entered a request elapsed row =>
      have henter : Agree (s.setWaiter s.nextWaiter (Waiter.enter a request elapsed)) := by
        refine hagree.setWaiter fun status hs => ?_
        unfold Waiter.enter at hs ⊢
        split at hs
        · rename_i other hother
          obtain rfl : other = status := by simpa using hs
          exact ⟨request,row,(h.decided a request row other hother).1⟩
        · simp at hs
      exact henter
    | moved w old new row approval outcome resolved =>
      refine hagree.setWaiter fun status hs => ?_
      rw [approval]
      exact hagree w old row status (outcome ▸ hs)

end Steps

theorem initial_inv : Inv initial := by
  refine ⟨fun _ _ => rfl,fun _ _ => rfl,?_,?_,?_,?_⟩ <;> intro _ _ h <;> cases h

theorem initial_agree : Agree initial := by
  intro w waiter h
  cases h

/-- A run keeps every request, and one that is settled as it is. -/
theorem exec_settled {ls : List Label} {s t : State} (h : Inv s) (ht : exec step ls s = some t) {a : ApprovalId}
    {request : Approval} (hrow : s.approvals a = some request) (hsettled : request.status ≠ .pending) :
    t.approvals a = some request := by
  induction ls generalizing s with
  | nil =>
    obtain rfl := Option.some.inj ht
    exact hrow
  | cons l ls ih =>
    obtain ⟨u,hu,hrest⟩ := Option.bind_eq_some_iff.mp ht
    obtain ⟨row,hrow',hsettles⟩ := step_settles h hu hrow
    rcases hsettles with rfl | ⟨hpending,-⟩
    · exact ih (step_inv h hu) hrest hrow'
    · exact absurd hpending hsettled

theorem exec_inv {ls : List Label} {t : State} (h : exec step ls initial = some t) : Inv t :=
  Reaches.invariant (fun _ _ _ hs _ ht => step_inv hs ht) (exec_reaches (execOk_anyStep ls initial) h) initial_inv

/-- In every run a request settles at most once, and all waiters agree with their requests
throughout exactly when no waiter handles its timeout on a request that was decided or
cancelled. -/
theorem waiters_agree_iff (ls : List Label) (t : State) (run : exec step ls initial = some t) :
    (∀ earlier later s, ls = earlier ++ later → exec step earlier initial = some s →
      ∀ a request, s.approvals a = some request → request.status ≠ .pending → t.approvals a = some request) ∧
        (ExecAll step Agree ls initial ↔ ExecOk step TimeoutFirst ls initial) := by
  constructor
  · intro earlier later s hsplit hs a request hrow hsettled
    rw [hsplit, exec_append, hs] at run
    exact exec_settled (exec_inv hs) run hrow hsettled
  · exact execAll_iff_execOk (fun _ _ _ hi ht => step_inv hi ht) (fun _ _ _ hi ha ht => step_agree_iff ha hi ht)
      initial_inv initial_agree run

/-- A request without an expiry, and a call that waits for it. -/
def requestAndWait : List Label := [.create "desktop.open_application" "Open it." "lexi" none none,.wait 0 false]

/-- The request is approved after the timeout has fired and before the waiter's turn. -/
theorem waiters_disagree : ∃ t, exec step (requestAndWait ++ [.timeout 0,.decide 0 true 5,.resume 0]) initial = some t ∧
    (t.approvals 0).map Approval.status = some .approved ∧
      (t.waiters 0).bind Waiter.outcome = some (.returned .expired) ∧ ¬ Agree t := by
  refine ⟨_,rfl,rfl,rfl,fun hagree => ?_⟩
  obtain ⟨request,hrow,hstatus⟩ := hagree 0 _ rfl .expired rfl
  obtain rfl := Option.some.inj hrow
  exact absurd hstatus (by decide)

/-- A decision that is delivered before the timeout fires. -/
theorem waiters_agree_delivered :
    let run := requestAndWait ++ [.decide 0 true 5,.deliver 0,.resume 0]
    let t := after step run initial rfl
    (∀ earlier later s, run = earlier ++ later → exec step earlier initial = some s →
      ∀ a request, s.approvals a = some request → request.status ≠ .pending → t.approvals a = some request) ∧
        (ExecAll step Agree run initial ↔ ExecOk step TimeoutFirst run initial) :=
  waiters_agree_iff _ _ (exec_after rfl)

section Coarse
variable {s : State} {w : WaiterId} {waiter : Waiter} {request : Approval}

/-- A timeout that is handled before anything else happens is the single step of a tool call. -/
theorem timeout_resume (hw : s.waiting w = some waiter) (hfirst : waiter.timedOut = false)
    (hfree : waiter.cancelRequested = false) (hshield : waiter.shield = .pending)
    (hrow : s.approvals waiter.approval = some request) :
    ∃ t, exec step [.timeout w,.resume w] s = some t ∧
      t.approvals = Function.update s.approvals waiter.approval (some request.expire) ∧
        (t.waiters w).bind Waiter.outcome = some (.returned .expired) := by
  obtain ⟨fired,happroval,hcancelled,hout,hcancel,hopen,hstep⟩ : ∃ fired : Waiter,
      fired.approval = waiter.approval ∧ fired.shield = .cancelled ∧ fired.timedOut = true ∧
        fired.cancelRequested = false ∧ fired.outcome = none ∧ step (.timeout w) s = some (s.setWaiter w fired) :=
    ⟨{ waiter.interrupt with timedOut := true },rfl,by simp [Waiter.interrupt, hshield],rfl,hfree,(waiting_eq hw).2,
      by simp [step, hw, hfirst]⟩
  have hwaiting : (s.setWaiter w fired).waiting w = some fired := by simp [State.waiting, State.setWaiter, hopen]
  have hrow' : (s.setWaiter w fired).approvals fired.approval = some request := by
    rw [happroval]
    exact hrow
  have hresume : step (.resume w) (s.setWaiter w fired) = some ((s.setWaiter w fired).expire w fired request) := by
    simp [step, hwaiting, hrow', hcancelled, State.resume, hcancel, hout]
  refine ⟨(s.setWaiter w fired).expire w fired request,by simp [exec, hstep, hresume],?_,?_⟩
  · by_cases hpending : request.status = .pending
    · simp [State.expire, hpending, State.setWaiter, State.setApproval, State.note, happroval]
    · have hsame : request.expire = request := by simp [Approval.expire, hpending]
      simp only [State.expire, if_neg hpending, State.setWaiter, hsame]
      rw [← hrow, Function.update_eq_self]
  · by_cases hpending : request.status = .pending
    · simp [State.expire, hpending, State.setWaiter, State.setApproval, State.note, Waiter.finish]
    · simp [State.expire, hpending, State.setWaiter, Waiter.finish]

end Coarse

end AgentGraph.Tools.ApprovalService
