import AgentGraph.Tools.CrashSafety

/-! # What the row of a call says once the call is over

A call commits its row before it asks for an approval and writes it again when there is
a result. In between it may leave at any await, and then the row stays as it is: pending,
or SUCCEEDED from the start when the tool needs no approval.
-/
set_option autoImplicit false
namespace AgentGraph.Tools
open Transition Recovery

/-- The last thing that happened to a call: the string its wait returned, the end of its
body, or an exception at another await. -/
inductive Happening
  | decided (status : ApprovalStatus)
  | bodyEnded (outcome : BodyOutcome)
  | interrupted
deriving DecidableEq

/-- The terminal statuses that match what happened. -/
def Happening.fits : Happening → ToolStatus → Bool
  | .decided .rejected, .rejected | .decided .expired, .expired | .decided .cancelled, .cancelled => true
  | .bodyEnded (.succeeded _), .succeeded | .bodyEnded .cancelled, .cancelled => true
  | .bodyEnded .timeout, .failed | .bodyEnded .osError, .failed | .bodyEnded .raised, .failed => true
  | .interrupted, .cancelled | .interrupted, .failed => true
  | _, _ => false

theorem Happening.fits_succeeded {w : Happening} (h : w.fits .succeeded = true) :
    ∃ output, w = .bodyEnded (.succeeded output) := by
  unfold fits at h
  split at h <;> simp_all

/-- How far a call is with its row. -/
inductive Phase
  | inserting
  | working (i : InvocationId)
  | finishing (i : InvocationId) (result : ToolResult)
  | settling
deriving DecidableEq

def Pc.phase : Pc → Phase
  | .insertInvocation => .inserting
  | .createApproval i | .linkApproval i _ | .waitForDecision i _ | .recordIntent i _ | .recordStarted i _ _
  | .begin i _ _ | .body i _ _ => .working i
  | .refuse i result | .complete i result _ _ => .finishing i result
  | .settle _ _ _ => .settling

/-- The row that is still to be completed. -/
def Phase.invocation? : Phase → Option InvocationId
  | .working i | .finishing i _ => some i
  | .inserting | .settling => none

/-- The call whose turn the label is. -/
def Label.call? : Label → Option CallId
  | .resume c _ | .endBody c _ | .approvalTimeout c | .cancelWait c | .abort c => some c
  | _ => none

/-- The call that the label ends with an exception, outside the handlers of the body. -/
def Label.quits : Label → Option CallId
  | .abort c | .cancelWait c | .endBody c .raised => some c
  | _ => none

/-- The row that the turn commits. -/
def inserts (l : Label) (s : Sys) (pc : Pc) : Option InvocationId :=
  match l, pc with
  | .resume _ _, .insertInvocation => some s.nextInvocation
  | _, _ => none

/-- What the turn lets the call come to. -/
def happens (l : Label) (s : Sys) (pc : Pc) : Option Happening :=
  match l, pc with
  | .resume _ _, .waitForDecision _ a =>
    match s.approvals a with
    | none => some (.decided .cancelled)
    | some request => request.decision.map .decided
  | .approvalTimeout _, .waitForDecision _ _ => some (.decided .expired)
  | .endBody _ outcome, .body _ _ _ => some (.bodyEnded outcome)
  -- a result that is there stays what happened
  | .abort _, .refuse _ _ | .abort _, .complete _ _ _ _ | .abort _, .settle _ _ _ => none
  | .abort _, _ | .cancelWait _, .waitForDecision _ _ => some .interrupted
  | _, _ => none

/-- The history of a call. -/
structure Trace where
  row : Option InvocationId
  happened : Option Happening
  exited : Bool

def Trace.fresh : Trace := ⟨none,none,false⟩

/-- The history after a turn of the call from `s` to `t`. -/
def Trace.record (trace : Trace) (l : Label) (s t : Sys) (c : CallId) (pc : Pc) : Trace :=
  { row := (inserts l s pc).or trace.row, happened := (happens l s pc).or trace.happened, exited := (t.calls c).isNone }

/-- The service with the history of each call, also of those that are over. -/
structure Traced where
  service : Sys
  traces : CallId → Trace

/-- The row of the call, if it is there, is finished and matches what happened. -/
def Told (rows : InvocationId → Option Invocation) (trace : Trace) : Prop :=
  ∀ i row, trace.row = some i → rows i = some row →
    row.finishedAt.isSome = true ∧ ∃ w, trace.happened = some w ∧ w.fits row.status = true

/-- The row of a call that is over tells what happened, and no row says SUCCEEDED before the
body has returned. -/
structure Truthful (rows : InvocationId → Option Invocation) (trace : Trace) : Prop where
  exited : trace.exited = true → Told rows trace
  early : ∀ i row, trace.row = some i → rows i = some row → row.status = .succeeded →
    ∃ output, trace.happened = some (.bodyEnded (.succeeded output))

/-- The step commits a row as SUCCEEDED for a tool that needs no approval, or ends a call
whose row is there and not completed yet. -/
inductive Betrays (l : Label) (s : Sys) : Prop
  | premature (c : CallId) (now : Instant) (call : Call) (label : l = .resume c now) (found : s.calls c = some call)
      (pc : call.pc = .insertInvocation) (unapproved : call.definition.requiresApproval = false)
  | abandoned (c : CallId) (call : Call) (i : InvocationId) (quits : l.quits = some c) (found : s.calls c = some call)
      (row : call.pc.phase.invocation? = some i) (present : (s.invocations i).isSome = true)

/-! ## What a turn can do -/

/-- A turn of a call, in terms of its row. -/
inductive Turn (settings : Settings) (l : Label) (s t : Sys) (c : CallId) (call : Call) : Prop
  | inserted (now : Instant) (label : l = .resume c now) (pc : call.pc = .insertInvocation)
      (next : (t.calls c).map (fun call => call.pc.phase) = some (.working s.nextInvocation))
      (rows : t.invocations = Function.update s.invocations s.nextInvocation (some (newInvocation call)))
      (count : t.nextInvocation = s.nextInvocation + 1)
  | worked (i : InvocationId) (f : Invocation → Invocation) (phase : call.pc.phase = .working i)
      (next : (t.calls c).map (fun call => call.pc.phase) = some (.working i))
      (rows : t.invocations = Function.update s.invocations i ((s.invocations i).map f))
      (status : ∀ row, (f row).status = row.status) (finishedAt : ∀ row, (f row).finishedAt = row.finishedAt)
      (happened : happens l s call.pc = none ∨ ∃ status, happens l s call.pc = some (.decided status))
      (stays : l.quits = none) (count : t.nextInvocation = s.nextInvocation)
  | concluded (i : InvocationId) (result : ToolResult) (w : Happening) (phase : call.pc.phase = .working i)
      (next : (t.calls c).map (fun call => call.pc.phase) = some (.finishing i result))
      (rows : t.invocations = s.invocations) (happened : happens l s call.pc = some w)
      (fits : w.fits result.status = true) (stays : l.quits = none) (count : t.nextInvocation = s.nextInvocation)
  | finished (i : InvocationId) (result : ToolResult) (now : Instant) (phase : call.pc.phase = .finishing i result)
      (next : (t.calls c).map (fun call => call.pc.phase) = none ∨
        (t.calls c).map (fun call => call.pc.phase) = some .settling)
      (rows : t.invocations = Function.update s.invocations i ((s.invocations i).map (Invocation.complete settings result now)))
      (happened : happens l s call.pc = none) (stays : l.quits = none) (count : t.nextInvocation = s.nextInvocation)
  | settled (phase : call.pc.phase = .settling) (next : t.calls c = none) (rows : t.invocations = s.invocations)
      (happened : happens l s call.pc = none) (stays : l.quits = none) (count : t.nextInvocation = s.nextInvocation)
  | quit (next : t.calls c = none) (rows : t.invocations = s.invocations) (quits : l.quits = some c)
      (happened : (∃ i, call.pc.phase = .working i) ∨ call.pc.phase = .inserting ∨ happens l s call.pc = none)
      (count : t.nextInvocation = s.nextInvocation)

/-- What else a turn of call `c` leaves as it was. -/
structure Frame (s t : Sys) (c : CallId) (call : Call) : Prop where
  others : ∀ c', c' ≠ c → t.calls c' = s.calls c'
  same : ∀ call', t.calls c = some call' → ∃ pc, call' = { call with pc := pc }
  nextCall : t.nextCall = s.nextCall

section Turns
variable {cfg : Config} {settings : Settings} {l : Label} {s t u : Sys} {c : CallId} {call : Call}

theorem Sys.goto_calls (u : Sys) (c : CallId) (call : Call) (pc : Pc) :
    (u.goto c call pc).calls c = some { call with pc := pc } := Function.update_self _ _ _

theorem Sys.leave_calls (u : Sys) (c : CallId) : (u.leave c).calls c = none := Function.update_self _ _ _

theorem Sys.goto_note (u : Sys) (c : CallId) (call : Call) (pc : Pc) (event : Event) :
    (u.goto c call pc).note event = (u.note event).goto c call pc := rfl

theorem Sys.leave_note (u : Sys) (c : CallId) (event : Event) : (u.leave c).note event = (u.note event).leave c := rfl

theorem Frame.goto {pc : Pc} (hcalls : u.calls = s.calls) (hnext : u.nextCall = s.nextCall) :
    Frame s (u.goto c call pc) c call := by
  refine ⟨fun c' hne => ?_,fun call' h => ?_,hnext⟩
  · rw [← hcalls]
    exact Function.update_of_ne hne _ _
  · rw [u.goto_calls] at h
    exact ⟨pc,(Option.some.inj h).symm⟩

theorem Frame.leave (hcalls : u.calls = s.calls) (hnext : u.nextCall = s.nextCall) : Frame s (u.leave c) c call := by
  refine ⟨fun c' hne => ?_,fun call' h => ?_,hnext⟩
  · rw [← hcalls]
    exact Function.update_of_ne hne _ _
  · rw [u.leave_calls] at h
    cases h

/-- The two ways on after the wait. -/
theorem turn_decided {i : InvocationId} {a : ApprovalId} {status : ApprovalStatus} (hpc : call.pc = .waitForDecision i a)
    (hu : u.invocations = s.invocations) (hcount : u.nextInvocation = s.nextInvocation) (hstays : l.quits = none)
    (hhappens : happens l s call.pc = some (.decided status)) :
    Turn settings l s (u.goto c call (afterDecision call i a status)) c call := by
  have hphase : call.pc.phase = .working i := by rw [hpc]; rfl
  have hnext : ((u.goto c call (afterDecision call i a status)).calls c).map (fun call => call.pc.phase) =
      some (afterDecision call i a status).phase := by
    rw [u.goto_calls]
    rfl
  have hrows : u.invocations = Function.update s.invocations i ((s.invocations i).map fun row => row) := by
    rw [Option.map_id',Function.update_eq_self]
    exact hu
  cases status with
  | approved | pending =>
    exact .worked i (fun row => row) hphase hnext hrows (fun _ => rfl) (fun _ => rfl) (.inr ⟨_,hhappens⟩) hstays hcount
  | rejected | expired | cancelled => exact .concluded i _ _ hphase hnext hu hhappens rfl hstays hcount

/-- A turn at a point before the result, which writes no more than the approval to the row. -/
theorem turn_worked {i : InvocationId} {pc : Pc} (hphase : call.pc.phase = .working i) (hpc : pc.phase = .working i)
    (hu : u.invocations = s.invocations) (hcount : u.nextInvocation = s.nextInvocation) (hstays : l.quits = none)
    (hhappens : happens l s call.pc = none) : Turn settings l s (u.goto c call pc) c call := by
  refine .worked i (fun row => row) hphase ?_ ?_ (fun _ => rfl) (fun _ => rfl) (.inl hhappens) hstays hcount
  · rw [u.goto_calls,← hpc]
    rfl
  · rw [Option.map_id',Function.update_eq_self]
    exact hu

/-- A call that has been admitted finds its application. -/
theorem enterBody_admitted (h : admission settings call.toolId call.arguments = .ok (call.definition,call.applicationId)) :
    ∃ vector, enterBody settings call = .ok vector := by
  unfold enterBody
  by_cases htime : call.toolId = "system.current_time"
  · exact ⟨none,if_pos htime⟩
  rw [if_neg htime]
  cases hlookup : (allowlist settings).lookup call.applicationId with
  | some vector => exact ⟨some vector,rfl⟩
  | none =>
    exfalso
    unfold admission at h
    split at h
    · cases h
    split at h
    · cases h
    next definition hdefinition =>
      -- the other tool has its application looked up
      have hdesktop : call.toolId = "desktop.open_application" := by
        have hid : definition.id = call.toolId := by simpa using List.find?_some hdefinition
        rcases List.mem_cons.mp (List.mem_of_find?_eq_some hdefinition) with rfl | hmem
        · exact absurd hid.symm htime
        · obtain rfl := List.mem_singleton.mp hmem
          exact hid.symm
      split at h
      · cases h
      split at h
      · cases h
      next hallowed =>
        obtain ⟨rfl,rfl⟩ := Prod.mk.inj (Except.ok.inj h)
        exact hallowed ⟨hdesktop,by simp [hlookup]⟩

theorem resume_turn {now : Instant} (hbody : ∃ vector, enterBody settings call = .ok vector)
    (h : resume settings s c call now = some t) : Frame s t c call ∧ Turn settings (.resume c now) s t c call := by
  unfold resume at h
  cases hpc : call.pc with
  | insertInvocation =>
    simp only [hpc, Option.ite_none_right_eq_some, Option.some.injEq] at h
    obtain ⟨-,rfl⟩ := h
    refine ⟨.goto rfl rfl,.inserted now rfl hpc ?_ rfl rfl⟩
    rw [Sys.goto_calls]
    cases call.definition.requiresApproval <;> rfl
  | createApproval i =>
    simp only [hpc, Option.some.injEq] at h
    obtain rfl := h
    refine ⟨.goto rfl rfl,turn_worked (i := i) ?_ rfl rfl rfl rfl ?_⟩ <;> rw [hpc] <;> rfl
  | linkApproval i a =>
    simp only [hpc, Option.some.injEq] at h
    obtain rfl := h
    refine ⟨.goto rfl rfl,.worked i (fun row => { row with approvalId := some a }) ?_ ?_ rfl (fun _ => rfl) (fun _ => rfl)
      (.inl ?_) rfl rfl⟩
    · rw [hpc]; rfl
    · rw [Sys.goto_calls]; rfl
    · rw [hpc]; rfl
  | waitForDecision i a =>
    simp only [hpc] at h
    split at h
    next hnone =>
      obtain rfl := Option.some.inj h
      exact ⟨.goto rfl rfl,turn_decided hpc rfl rfl rfl (by simp [happens,hpc,hnone])⟩
    next request hrequest =>
      obtain ⟨status,hstatus,rfl⟩ := Option.map_eq_some_iff.mp h
      exact ⟨.goto rfl rfl,turn_decided hpc rfl rfl rfl (by simp [happens,hpc,hrequest,hstatus])⟩
  | refuse i result =>
    simp only [hpc, Option.some.injEq, Sys.leave_note] at h
    obtain rfl := h
    refine ⟨.leave rfl rfl,.finished i result now ?_ (.inl ?_) rfl ?_ rfl rfl⟩
    · rw [hpc]; rfl
    · exact congrArg _ (Sys.leave_calls _ c)
    · rw [hpc]; rfl
  | recordIntent i a =>
    simp only [hpc] at h
    obtain ⟨recorded,-,rfl⟩ := Option.map_eq_some_iff.mp h
    refine ⟨.goto rfl rfl,turn_worked (i := i) ?_ rfl rfl rfl rfl ?_⟩ <;> rw [hpc] <;> rfl
  | recordStarted i a entry =>
    simp only [hpc, Option.some.injEq, Sys.goto_note] at h
    obtain rfl := h
    split <;> refine ⟨.goto rfl rfl,turn_worked (i := i) ?_ rfl rfl rfl rfl ?_⟩ <;> rw [hpc] <;> rfl
  | «begin» i a entry =>
    obtain ⟨vector,hvector⟩ := hbody
    simp only [hpc, hvector] at h
    cases vector with
    | none =>
      obtain rfl := Option.some.inj h
      refine ⟨.goto rfl rfl,turn_worked (i := i) ?_ rfl rfl rfl rfl ?_⟩ <;> rw [hpc] <;> rfl
    | some vector =>
      obtain rfl := Option.some.inj h
      refine ⟨.goto rfl rfl,turn_worked (i := i) ?_ rfl rfl rfl rfl ?_⟩ <;> rw [hpc] <;> rfl
  | body i a entry =>
    simp only [hpc, reduceCtorEq] at h
  | complete i result entry status =>
    simp only [hpc, Option.some.injEq] at h
    obtain rfl := h
    refine ⟨.goto rfl rfl,.finished i result now ?_ (.inr ?_) rfl ?_ rfl rfl⟩
    · rw [hpc]; rfl
    · rw [Sys.goto_calls]; rfl
    · rw [hpc]; rfl
  | settle result entry status =>
    simp only [hpc, Option.some.injEq, Sys.leave_note] at h
    obtain rfl := h
    refine ⟨.leave rfl rfl,.settled ?_ (Sys.leave_calls _ c) rfl ?_ rfl rfl⟩ <;> rw [hpc] <;> rfl

/-- The end of the body that goes into the row. -/
theorem afterBody_fits {approval : Option ApprovalId} {outcome : BodyOutcome} {result : ToolResult}
    {status : ActionLedgerStatus} (h : afterBody call approval outcome = some (result,status)) :
    (Happening.bodyEnded outcome).fits result.status = true ∧ (Label.endBody c outcome).quits = none := by
  cases outcome with
  | raised => cases h
  | succeeded | timeout | osError | cancelled =>
    obtain ⟨rfl,-⟩ := Prod.mk.inj (Option.some.inj h)
    exact ⟨rfl,rfl⟩

/-- What a turn does, given that the call has been admitted. -/
theorem step_turn (hlabel : l.call? = some c) (hrow : s.calls c = some call)
    (hbody : ∃ vector, enterBody settings call = .ok vector) (h : step cfg settings l s = some t) :
    Frame s t c call ∧ Turn settings l s t c call := by
  cases l with
  | manager | execute | createApproval | decide | cancelApproval | crash => cases hlabel
  | resume c' now =>
    obtain rfl := Option.some.inj hlabel
    simp only [step, hrow, Option.bind_some] at h
    exact resume_turn hbody h
  | endBody c' outcome =>
    obtain rfl := Option.some.inj hlabel
    simp only [step, hrow, Option.bind_some] at h
    split at h
    next i approval entry hpc =>
      have hphase : call.pc.phase = .working i := by rw [hpc]; rfl
      have hhappens : happens (.endBody c' outcome) s call.pc = some (.bodyEnded outcome) := by rw [hpc]; rfl
      split at h
      next result status hafter =>
        obtain rfl := Option.some.inj h
        obtain ⟨hfits,hstays⟩ := afterBody_fits (c := c') hafter
        refine ⟨.goto rfl rfl,.concluded i result _ hphase ?_ rfl hhappens hfits hstays rfl⟩
        rw [Sys.goto_calls]
        rfl
      next hafter =>
        obtain rfl := Option.some.inj h
        have hquits : (Label.endBody c' outcome).quits = some c' := by
          cases outcome with
          | raised => rfl
          | succeeded | timeout | osError | cancelled => cases hafter
        exact ⟨.leave rfl rfl,.quit (Sys.leave_calls _ _) rfl hquits (.inl ⟨i,hphase⟩) rfl⟩
    · cases h
  | approvalTimeout c' =>
    obtain rfl := Option.some.inj hlabel
    simp only [step, hrow, Option.bind_some] at h
    split at h
    next i a hpc =>
      obtain ⟨request,-,rfl⟩ := Option.map_eq_some_iff.mp h
      exact ⟨.goto rfl rfl,turn_decided hpc rfl rfl rfl (by rw [hpc]; rfl)⟩
    · cases h
  | cancelWait c' =>
    obtain rfl := Option.some.inj hlabel
    simp only [step, hrow, Option.bind_some] at h
    split at h
    next i a hpc =>
      obtain ⟨request,-,rfl⟩ := Option.map_eq_some_iff.mp h
      exact ⟨.leave rfl rfl,.quit (Sys.leave_calls _ _) rfl rfl (.inl ⟨i,by rw [hpc]; rfl⟩) rfl⟩
    · cases h
  | abort c' =>
    obtain rfl := Option.some.inj hlabel
    simp only [step, hrow, Option.bind_some, Option.ite_none_right_eq_some, Option.some.injEq] at h
    obtain ⟨-,rfl⟩ := h
    refine ⟨.leave rfl rfl,.quit (Sys.leave_calls _ _) rfl rfl ?_ rfl⟩
    cases call.pc with
    | insertInvocation => exact .inr (.inl rfl)
    | createApproval i | linkApproval i _ | waitForDecision i _ | recordIntent i _ | recordStarted i _ _
    | «begin» i _ _ | body i _ _ => exact .inl ⟨i,rfl⟩
    | refuse | complete | settle => exact .inr (.inr rfl)

/-- A turn is one of a call in progress. -/
theorem step_call (hlabel : l.call? = some c) (h : step cfg settings l s = some t) : ∃ call, s.calls c = some call := by
  cases l with
  | manager | execute | createApproval | decide | cancelApproval | crash => cases hlabel
  | resume c' | endBody c' | approvalTimeout c' | cancelWait c' | abort c' =>
    obtain rfl := Option.some.inj hlabel
    obtain ⟨call,hrow,-⟩ := Option.bind_eq_some_iff.mp h
    exact ⟨call,hrow⟩

/-- What any other step can do to the calls and their rows. -/
structure Aside (settings : Settings) (s t : Sys) : Prop where
  calls : ∀ c call, t.calls c = some call → s.calls c = some call ∨ c = s.nextCall ∧ call.pc = .insertInvocation ∧
    admission settings call.toolId call.arguments = .ok (call.definition,call.applicationId) ∧ t.nextCall = s.nextCall + 1
  rows : ∀ i row, t.invocations i = some row → s.invocations i = some row
  nextCall : s.nextCall ≤ t.nextCall
  count : t.nextInvocation = s.nextInvocation

theorem step_aside (hlabel : l.call? = none) (h : step cfg settings l s = some t) : Aside settings s t := by
  cases l with
  | resume | endBody | approvalTimeout | cancelWait | abort => cases hlabel
  | manager l =>
    simp only [step, Option.ite_none_right_eq_some] at h
    obtain ⟨-,h⟩ := h
    obtain ⟨server,-,rfl⟩ := Option.map_eq_some_iff.mp h
    exact ⟨fun _ _ hc => .inl hc,fun i row hrow => (Option.filter_eq_some_iff.mp hrow).1,Nat.le_refl _,rfl⟩
  | execute r toolId arguments =>
    simp only [step] at h
    split at h
    · obtain rfl := Option.some.inj h
      exact ⟨fun _ _ hc => .inl hc,fun _ _ hrow => hrow,Nat.le_succ _,rfl⟩
    next definition applicationId hadmitted =>
      obtain rfl := Option.some.inj h
      refine ⟨fun c call hc => ?_,fun _ _ hrow => hrow,Nat.le_succ _,rfl⟩
      by_cases hcc : c = s.nextCall
      · subst hcc
        simp only [Sys.setCall, Function.update_self, Option.some.injEq] at hc
        subst hc
        exact .inr ⟨rfl,rfl,hadmitted,rfl⟩
      · exact .inl ((Function.update_of_ne hcc _ _).symm.trans hc)
  | createApproval =>
    obtain rfl := Option.some.inj h
    exact ⟨fun _ _ hc => .inl hc,fun _ _ hrow => hrow,Nat.le_refl _,rfl⟩
  | decide a approved now =>
    obtain ⟨request,-,h⟩ := Option.bind_eq_some_iff.mp h
    obtain ⟨decided,-,rfl⟩ := Option.map_eq_some_iff.mp h
    split <;> exact ⟨fun _ _ hc => .inl hc,fun _ _ hrow => hrow,Nat.le_refl _,rfl⟩
  | cancelApproval a =>
    obtain ⟨request,-,rfl⟩ := Option.map_eq_some_iff.mp h
    exact ⟨fun _ _ hc => .inl hc,fun _ _ hrow => hrow,Nat.le_refl _,rfl⟩
  | crash =>
    obtain rfl := Option.some.inj h
    refine ⟨fun c call hc => ?_,fun _ _ hrow => hrow,Nat.le_refl _,rfl⟩
    cases hc

end Turns

/-! ## The phases of a call and its row -/

/-- No row is there, or it is not finished. -/
def Unfinished (rows : InvocationId → Option Invocation) (i : InvocationId) : Prop :=
  ∀ row, rows i = some row → row.finishedAt = none

/-- What the history of a call in progress says at each phase. -/
def PhaseSound (rows : InvocationId → Option Invocation) (trace : Trace) : Phase → Prop
  | .inserting => trace = .fresh
  | .working i => trace.row = some i ∧ trace.exited = false ∧ Unfinished rows i ∧
      ∀ outcome, trace.happened ≠ some (.bodyEnded outcome)
  | .finishing i result => trace.row = some i ∧ trace.exited = false ∧ Unfinished rows i ∧
      ∃ w, trace.happened = some w ∧ w.fits result.status = true
  | .settling => trace.exited = false ∧ Told rows trace

section Phases
variable {settings : Settings} {l : Label} {s t : Sys} {c : CallId} {call : Call} {trace : Trace}
  {rows rows' : InvocationId → Option Invocation}

theorem Told.mono (hrows : ∀ i row, trace.row = some i → rows' i = some row → rows i = some row)
    (h : Told rows trace) : Told rows' trace :=
  fun i row hi hrow => h i row hi (hrows i row hi hrow)

theorem Truthful.mono (hrows : ∀ i row, trace.row = some i → rows' i = some row → rows i = some row)
    (h : Truthful rows trace) : Truthful rows' trace :=
  ⟨fun he => (h.exited he).mono hrows,fun i row hi hrow => h.early i row hi (hrows i row hi hrow)⟩

theorem PhaseSound.mono {phase : Phase} (hrows : ∀ i row, trace.row = some i → rows' i = some row → rows i = some row)
    (h : PhaseSound rows trace phase) : PhaseSound rows' trace phase := by
  cases phase with
  | inserting => exact h
  | working i | finishing i result =>
    obtain ⟨hi,hexited,hopen,hhappened⟩ := h
    exact ⟨hi,hexited,fun row hrow => hopen row (hrows i row hi hrow),hhappened⟩
  | settling => exact ⟨h.1,h.2.mono hrows⟩

theorem inserts_none (h : call.pc.phase ≠ .inserting) : inserts l s call.pc = none := by
  unfold inserts
  split
  next hpc =>
    rw [hpc] at h
    exact absurd rfl h
  · rfl

/-- A turn after the row is committed betrays nothing unless it quits. -/
theorem not_betrays (hlabel : l.call? = some c) (hrow : s.calls c = some call) (hphase : call.pc.phase ≠ .inserting)
    (hstays : l.quits = none) : ¬ Betrays l s := by
  intro h
  cases h with
  | premature c' now call' label found pc unapproved =>
    subst label
    obtain rfl := Option.some.inj hlabel
    obtain rfl := Option.some.inj (hrow.symm.trans found)
    exact hphase (by rw [pc]; rfl)
  | abandoned c' call' i quits =>
    rw [hstays] at quits
    cases quits

theorem inserts_quits (h : l.quits = some c) : inserts l s call.pc = none := by
  unfold inserts
  split
  · cases h
  · rfl

theorem betrays_quits (hrow : s.calls c = some call) (hquits : l.quits = some c) :
    Betrays l s ↔ ∃ i, call.pc.phase.invocation? = some i ∧ (s.invocations i).isSome = true := by
  constructor
  · intro h
    cases h with
    | premature c' now call' label =>
      subst label
      cases hquits
    | abandoned c' call' i quits found row present =>
      obtain rfl := Option.some.inj (hquits.symm.trans quits)
      obtain rfl := Option.some.inj (hrow.symm.trans found)
      exact ⟨i,row,present⟩
  · rintro ⟨i,hi,hpresent⟩
    exact .abandoned c call i hquits hrow hi hpresent

/-- A row that is there while the call works has not succeeded. -/
theorem PhaseSound.not_succeeded {i : InvocationId} (h : PhaseSound rows trace (.working i)) (hp : Truthful rows trace)
    {row : Invocation} (hrow : rows i = some row) : row.status ≠ .succeeded := by
  intro hstatus
  obtain ⟨output,hhappened⟩ := hp.early i row h.1 hrow hstatus
  exact h.2.2.2 _ hhappened

/-- The approval goes into the row, or the call is told that it may go on. -/
theorem PhaseSound.worked {i : InvocationId} {f : Invocation → Invocation} {happened : Option Happening}
    (h : PhaseSound rows trace (.working i)) (hp : Truthful rows trace)
    (hstatus : ∀ row, (f row).status = row.status) (hfinished : ∀ row, (f row).finishedAt = row.finishedAt)
    (hhappened : happened = trace.happened ∨ ∃ status, happened = some (.decided status)) :
    PhaseSound (Function.update rows i ((rows i).map f)) ⟨trace.row,happened,false⟩ (.working i) ∧
    Truthful (Function.update rows i ((rows i).map f)) ⟨trace.row,happened,false⟩ := by
  obtain ⟨hi,hexited,hopen,hbody⟩ := h
  have hwritten : ∀ row, Function.update rows i ((rows i).map f) i = some row → ∃ old, rows i = some old ∧ f old = row := by
    intro row hrow
    rw [Function.update_self] at hrow
    exact Option.map_eq_some_iff.mp hrow
  refine ⟨⟨hi,rfl,fun row hrow => ?_,fun outcome hout => ?_⟩,⟨by simp,fun i' row hi' hrow hsucceeded => ?_⟩⟩
  · obtain ⟨old,hold,rfl⟩ := hwritten row hrow
    rw [hfinished]
    exact hopen old hold
  · rcases hhappened with hsame | ⟨status,hdecided⟩
    · exact hbody outcome (hsame ▸ hout)
    · cases hdecided.symm.trans hout
  · obtain rfl : i' = i := Option.some.inj (hi'.symm.trans hi)
    obtain ⟨old,hold,rfl⟩ := hwritten row hrow
    rw [hstatus] at hsucceeded
    exact absurd hsucceeded (PhaseSound.not_succeeded ⟨hi,hexited,hopen,hbody⟩ hp hold)

/-- There is a result, and it is not in the row yet. -/
theorem PhaseSound.concluded {i : InvocationId} {result : ToolResult} {w : Happening}
    (h : PhaseSound rows trace (.working i)) (hp : Truthful rows trace) (hfits : w.fits result.status = true) :
    PhaseSound rows ⟨trace.row,some w,false⟩ (.finishing i result) ∧ Truthful rows ⟨trace.row,some w,false⟩ := by
  refine ⟨⟨h.1,rfl,h.2.2.1,w,rfl,hfits⟩,⟨by simp,fun i' row hi' hrow hsucceeded => ?_⟩⟩
  obtain rfl : i' = i := Option.some.inj (hi'.symm.trans h.1)
  exact absurd hsucceeded (h.not_succeeded hp hrow)

/-- The result is in the row. -/
theorem PhaseSound.finished {i : InvocationId} {result : ToolResult} {now : Instant} {exited : Bool}
    (h : PhaseSound rows trace (.finishing i result)) :
    Told (Function.update rows i ((rows i).map (Invocation.complete settings result now)))
      ⟨trace.row,trace.happened,exited⟩ ∧
    Truthful (Function.update rows i ((rows i).map (Invocation.complete settings result now)))
      ⟨trace.row,trace.happened,exited⟩ := by
  obtain ⟨hi,-,-,w,hw,hfits⟩ := h
  have hwritten : ∀ i' row, trace.row = some i' →
      Function.update rows i ((rows i).map (Invocation.complete settings result now)) i' = some row →
      row.finishedAt.isSome = true ∧ row.status = result.status := by
    intro i' row hi' hrow
    obtain rfl : i' = i := Option.some.inj (hi'.symm.trans hi)
    rw [Function.update_self] at hrow
    obtain ⟨old,-,rfl⟩ := Option.map_eq_some_iff.mp hrow
    exact ⟨rfl,rfl⟩
  have htold : Told (Function.update rows i ((rows i).map (Invocation.complete settings result now)))
      ⟨trace.row,trace.happened,exited⟩ := by
    intro i' row hi' hrow
    obtain ⟨hfinished,hstatus⟩ := hwritten i' row hi' hrow
    exact ⟨hfinished,w,hw,by rw [hstatus]; exact hfits⟩
  refine ⟨htold,fun _ => htold,fun i' row hi' hrow hsucceeded => ?_⟩
  obtain ⟨-,hstatus⟩ := hwritten i' row hi' hrow
  obtain ⟨output,rfl⟩ := Happening.fits_succeeded (w := w) (by rw [← hsucceeded, hstatus]; exact hfits)
  exact ⟨output,hw⟩

/-- A call that quits has a truthful row exactly if no row is left to complete. -/
theorem PhaseSound.quit {phase : Phase} {happened : Option Happening} (h : PhaseSound rows trace phase)
    (hp : Truthful rows trace)
    (hhappened : (∃ i, phase = .working i) ∨ phase = .inserting ∨ happened = trace.happened) :
    Truthful rows ⟨trace.row,happened,true⟩ ↔ ∀ i, phase.invocation? = some i → rows i = none := by
  cases phase with
  | inserting =>
    obtain rfl : trace = .fresh := h
    refine iff_of_true ⟨fun _ i row hi => ?_,fun i row hi => ?_⟩ (fun i hi => ?_) <;> cases hi
  | working i | finishing i result =>
    obtain ⟨hi,-,hopen,-⟩ := h
    constructor
    · intro ht i' hi'
      obtain rfl := Option.some.inj hi'
      refine Option.eq_none_iff_forall_ne_some.mpr fun row hrow => ?_
      have hfinished := (ht.exited rfl i row hi hrow).1
      rw [hopen row hrow] at hfinished
      cases hfinished
    · intro hnone
      refine ⟨fun _ i' row hi' hrow => ?_,fun i' row hi' hrow => ?_⟩
      all_goals
        obtain rfl : i' = i := Option.some.inj (hi'.symm.trans hi)
        simp [hnone i' rfl] at hrow
  | settling =>
    have hsame : happened = trace.happened := by simpa using hhappened
    subst hsame
    exact iff_of_true ⟨fun _ => h.2,hp.early⟩ (fun i hi => by cases hi)

theorem record_eq (h : inserts l s call.pc = none) :
    trace.record l s t c call.pc = ⟨trace.row,(happens l s call.pc).or trace.happened,(t.calls c).isNone⟩ := by
  rw [Trace.record,h]
  rfl

/-- A turn keeps the row truthful exactly if it does not betray it, and leads from phase to
phase. -/
theorem Turn.truthful (ht : Turn settings l s t c call) (hlabel : l.call? = some c) (hrow : s.calls c = some call)
    (hs : PhaseSound s.invocations trace call.pc.phase) (hp : Truthful s.invocations trace) :
    (Truthful t.invocations (trace.record l s t c call.pc) ↔ ¬ Betrays l s) ∧
    ∀ call', t.calls c = some call' → PhaseSound t.invocations (trace.record l s t c call.pc) call'.pc.phase := by
  have hgoes : ∀ {phase}, (t.calls c).map (fun call => call.pc.phase) = some phase →
      (t.calls c).isNone = false ∧ ∀ call', t.calls c = some call' → call'.pc.phase = phase := by
    intro phase hnext
    obtain ⟨call',hcall',hphase'⟩ := Option.map_eq_some_iff.mp hnext
    simp [hcall',hphase']
  cases ht with
  | inserted now label pc next rows count =>
    obtain ⟨hnone,hphase'⟩ := hgoes next
    subst label
    rw [pc] at hs
    obtain rfl : trace = .fresh := hs
    have hrecord : Trace.fresh.record (.resume c now) s t c call.pc = ⟨some s.nextInvocation,none,false⟩ := by
      rw [Trace.record,hnone,pc]
      rfl
    have hnew : t.invocations s.nextInvocation = some (newInvocation call) := by
      rw [rows]
      exact Function.update_self _ _ _
    rw [hrecord]
    refine ⟨⟨fun htruthful hbetrays => ?_,fun hbetrays => ⟨by simp,fun i row hi hold hsucceeded => ?_⟩⟩,fun call' hcall' => ?_⟩
    · cases hbetrays with
      | premature c' now' call' label found pc' unapproved =>
        cases label
        obtain rfl := Option.some.inj (hrow.symm.trans found)
        obtain ⟨output,hhappened⟩ := htruthful.early _ _ rfl hnew (by simp [newInvocation,unapproved])
        cases hhappened
      | abandoned c' call' i quits => cases quits
    · obtain rfl := Option.some.inj hi
      obtain rfl := Option.some.inj (hnew.symm.trans hold)
      refine absurd (Betrays.premature c now call rfl hrow pc ?_) hbetrays
      by_contra hneeds
      simp [newInvocation,hneeds] at hsucceeded
    · rw [hphase' call' hcall']
      refine ⟨rfl,rfl,fun row hold => ?_,fun outcome hout => by cases hout⟩
      obtain rfl := Option.some.inj (hnew.symm.trans hold)
      rfl
  | worked i f phase next rows status finishedAt happened stays count =>
    obtain ⟨hnone,hphase'⟩ := hgoes next
    have hpost : call.pc.phase ≠ .inserting := by simp [phase]
    rw [phase] at hs
    have hlast : (happens l s call.pc).or trace.happened = trace.happened ∨
        ∃ status, (happens l s call.pc).or trace.happened = some (.decided status) := by
      rcases happened with hnothing | ⟨status,hdecided⟩
      · exact .inl (by rw [hnothing]; rfl)
      · exact .inr ⟨status,by rw [hdecided]; rfl⟩
    obtain ⟨hsound,htruthful⟩ := hs.worked hp status finishedAt hlast
    rw [record_eq (inserts_none hpost),hnone,rows]
    refine ⟨iff_of_true htruthful (not_betrays hlabel hrow hpost stays),fun call' hcall' => ?_⟩
    rw [hphase' call' hcall']
    exact hsound
  | concluded i result w phase next rows happened fits stays count =>
    obtain ⟨hnone,hphase'⟩ := hgoes next
    have hpost : call.pc.phase ≠ .inserting := by simp [phase]
    rw [phase] at hs
    obtain ⟨hsound,htruthful⟩ := hs.concluded hp fits
    rw [record_eq (inserts_none hpost),hnone,rows,happened]
    refine ⟨iff_of_true htruthful (not_betrays hlabel hrow hpost stays),fun call' hcall' => ?_⟩
    rw [hphase' call' hcall']
    exact hsound
  | finished i result now phase next rows happened stays count =>
    have hpost : call.pc.phase ≠ .inserting := by simp [phase]
    rw [phase] at hs
    rw [record_eq (inserts_none hpost),rows,happened]
    refine ⟨iff_of_true hs.finished.2 (not_betrays hlabel hrow hpost stays),fun call' hcall' => ?_⟩
    rcases next with hgone | hsettling
    · simp [hcall'] at hgone
    · obtain ⟨hnone,hphase'⟩ := hgoes hsettling
      rw [hphase' call' hcall',hnone]
      exact ⟨rfl,hs.finished.1⟩
  | settled phase next rows happened stays count =>
    have hpost : call.pc.phase ≠ .inserting := by simp [phase]
    rw [phase] at hs
    rw [record_eq (inserts_none hpost),rows,happened,next]
    refine ⟨iff_of_true ⟨fun _ => hs.2,hp.early⟩ (not_betrays hlabel hrow hpost stays),fun call' hcall' => ?_⟩
    cases hcall'
  | quit next rows quits happened count =>
    have hlast : (∃ i, call.pc.phase = .working i) ∨ call.pc.phase = .inserting ∨
        (happens l s call.pc).or trace.happened = trace.happened := by
      rcases happened with hworking | hinserting | hnothing
      · exact .inl hworking
      · exact .inr (.inl hinserting)
      · exact .inr (.inr (by rw [hnothing]; rfl))
    rw [record_eq (inserts_quits quits),rows,next,Option.isNone_none,betrays_quits hrow quits]
    refine ⟨(hs.quit hp hlast).trans ?_,fun call' hcall' => by cases hcall'⟩
    simp only [not_exists, not_and, Bool.not_eq_true, Option.isSome_eq_false_iff, Option.isNone_iff_eq_none]

/-- A turn writes no row but that of its call. -/
theorem Turn.writes (ht : Turn settings l s t c call) (hs : PhaseSound s.invocations trace call.pc.phase) :
    ((trace.record l s t c call.pc).row = trace.row ∧ t.nextInvocation = s.nextInvocation ∨
      (trace.record l s t c call.pc).row = some s.nextInvocation ∧ t.nextInvocation = s.nextInvocation + 1) ∧
    ∀ i, (trace.record l s t c call.pc).row ≠ some i → t.invocations i = s.invocations i := by
  have hkeep (hnone : inserts l s call.pc = none) : (trace.record l s t c call.pc).row = trace.row := by
    rw [record_eq hnone]
  have hown {i : InvocationId} {row : Option Invocation} (hnone : inserts l s call.pc = none) (hi : trace.row = some i)
      (hrows : t.invocations = Function.update s.invocations i row) (i' : InvocationId)
      (hne : (trace.record l s t c call.pc).row ≠ some i') : t.invocations i' = s.invocations i' := by
    rw [hrows]
    exact Function.update_of_ne (fun he => hne (by rw [hkeep hnone,he,hi])) _ _
  cases ht with
  | inserted now label pc next rows count =>
    have hrecord : (trace.record l s t c call.pc).row = some s.nextInvocation := by
      rw [label,pc]
      rfl
    refine ⟨.inr ⟨hrecord,count⟩,fun i hi => ?_⟩
    rw [rows]
    exact Function.update_of_ne (fun he => hi (by rw [hrecord,he])) _ _
  | worked i f phase next rows status finishedAt happened stays count =>
    have hnone : inserts l s call.pc = none := inserts_none (by simp [phase])
    rw [phase] at hs
    exact ⟨.inl ⟨hkeep hnone,count⟩,hown hnone hs.1 rows⟩
  | finished i result now phase next rows happened stays count =>
    have hnone : inserts l s call.pc = none := inserts_none (by simp [phase])
    rw [phase] at hs
    exact ⟨.inl ⟨hkeep hnone,count⟩,hown hnone hs.1 rows⟩
  | concluded i result w phase next rows happened fits stays count =>
    exact ⟨.inl ⟨hkeep (inserts_none (by simp [phase])),count⟩,fun i _ => by rw [rows]⟩
  | settled phase next rows happened stays count =>
    exact ⟨.inl ⟨hkeep (inserts_none (by simp [phase])),count⟩,fun i _ => by rw [rows]⟩
  | quit next rows quits happened count =>
    exact ⟨.inl ⟨hkeep (inserts_quits quits),count⟩,fun i _ => by rw [rows]⟩

end Phases

/-! ## Runs -/

namespace Traced

def start (server : Recovery.Sys) : Traced := ⟨Sys.initial server,fun _ => .fresh⟩

/-- The histories after a step to `t`. -/
def record (l : Label) (x : Traced) (t : Sys) : CallId → Trace :=
  match l.call? with
  | none => x.traces
  | some c =>
    match x.service.calls c with
    | none => x.traces
    | some call => Function.update x.traces c ((x.traces c).record l x.service t c call.pc)

def step (cfg : Config) (settings : Settings) (l : Label) (x : Traced) : Option Traced :=
  (Tools.step cfg settings l x.service).map fun t => ⟨t,record l x t⟩

/-- The row of every call is truthful. -/
def RowsTruthful (x : Traced) : Prop := ∀ c, Truthful x.service.invocations (x.traces c)

/-- What holds between two steps as long as the rows are truthful. -/
structure Followed (settings : Settings) (x : Traced) : Prop where
  fresh : ∀ c, x.service.nextCall ≤ c → x.traces c = .fresh
  known : ∀ c call, x.service.calls c = some call → c < x.service.nextCall
  bounded : ∀ c i, (x.traces c).row = some i → i < x.service.nextInvocation
  own : ∀ c c' i, (x.traces c).row = some i → (x.traces c').row = some i → c = c'
  admitted : ∀ c call, x.service.calls c = some call →
    admission settings call.toolId call.arguments = .ok (call.definition,call.applicationId)
  phase : ∀ c call, x.service.calls c = some call → PhaseSound x.service.invocations (x.traces c) call.pc.phase

section Runs
variable {cfg : Config} {settings : Settings} {l : Label} {x y : Traced} {s t : Sys} {c : CallId} {call : Call}

/-- Every run of the service is a run with the histories. -/
theorem exec_service (cfg : Config) (settings : Settings) (ls : List Label) (x : Traced) :
    (exec (step cfg settings) ls x).map service = exec (Tools.step cfg settings) ls x.service := by
  refine exec_map (fun l x => ?_) ls x
  rw [step,Option.map_map]
  exact Option.map_id'

theorem Followed.start (settings : Settings) (server : Recovery.Sys) : Followed settings (start server) := by
  constructor <;> simp [Traced.start, Sys.initial, Trace.fresh]

theorem RowsTruthful.start (server : Recovery.Sys) : RowsTruthful (start server) := by
  intro c
  constructor <;> simp [Traced.start, Trace.fresh]

/-- A step beside the calls. -/
theorem Followed.aside (hx : Followed settings x) (hp : RowsTruthful x) (h : Aside settings x.service t) :
    Followed settings ⟨t,x.traces⟩ ∧ RowsTruthful ⟨t,x.traces⟩ := by
  refine ⟨⟨fun c hc => hx.fresh c (h.nextCall.trans hc),fun c call hcall => ?_,fun c i hi => ?_,hx.own,
    fun c call hcall => ?_,fun c call hcall => ?_⟩,fun c => (hp c).mono fun i row _ hrow => h.rows i row hrow⟩
  · rcases h.calls c call hcall with hold | ⟨rfl,-,-,hnext⟩
    · exact (hx.known c call hold).trans_le h.nextCall
    · exact (Nat.lt_succ_self _).trans_eq hnext.symm
  · exact (hx.bounded c i hi).trans_eq h.count.symm
  · rcases h.calls c call hcall with hold | ⟨-,-,hadmitted,-⟩
    · exact hx.admitted c call hold
    · exact hadmitted
  · rcases h.calls c call hcall with hold | ⟨rfl,hpc,-,-⟩
    · exact (hx.phase c call hold).mono fun i row _ hrow => h.rows i row hrow
    · dsimp only
      rw [hpc]
      exact hx.fresh _ (Nat.le_refl _)

/-- A turn of a call: the other calls and their rows are as before. -/
theorem Followed.turn (hx : Followed settings x) (hp : RowsTruthful x) (hlabel : l.call? = some c)
    (hrow : x.service.calls c = some call) (hframe : Frame x.service t c call) (ht : Turn settings l x.service t c call) :
    (RowsTruthful ⟨t,Function.update x.traces c ((x.traces c).record l x.service t c call.pc)⟩ ↔ ¬ Betrays l x.service) ∧
    Followed settings ⟨t,Function.update x.traces c ((x.traces c).record l x.service t c call.pc)⟩ := by
  obtain ⟨hiff,hphase⟩ := ht.truthful hlabel hrow (hx.phase c call hrow) (hp c)
  obtain ⟨hcount,hrows⟩ := ht.writes (hx.phase c call hrow)
  generalize (x.traces c).record l x.service t c call.pc = trace at hiff hphase hcount hrows
  have hother : ∀ c', c' ≠ c → Function.update x.traces c trace c' = x.traces c' := fun c' hne => Function.update_of_ne hne _ _
  have hself : Function.update x.traces c trace c = trace := Function.update_self _ _ _
  -- no other call has the row of this one
  have hapart : ∀ c', c' ≠ c → ∀ i, (x.traces c').row = some i → trace.row ≠ some i := by
    intro c' hne i hi htrace
    rcases hcount with ⟨hkeep,-⟩ | ⟨hnew,-⟩
    · exact hne (hx.own c' c i hi (hkeep ▸ htrace))
    · obtain rfl : x.service.nextInvocation = i := Option.some.inj (hnew.symm.trans htrace)
      exact absurd (hx.bounded c' _ hi) (Nat.lt_irrefl _)
  have hkept : ∀ c', c' ≠ c → ∀ i row, (x.traces c').row = some i → t.invocations i = some row →
      x.service.invocations i = some row := by
    intro c' hne i row hi hrow'
    rwa [hrows i (hapart c' hne i hi)] at hrow'
  refine ⟨⟨fun h => hiff.mp (hself ▸ h c),fun hbetrays c' => ?_⟩,fun c' hc' => ?_,fun c' call' hcall' => ?_,fun c' i hi => ?_,
    fun c₁ c₂ i h₁ h₂ => ?_,fun c' call' hcall' => ?_,fun c' call' hcall' => ?_⟩
  · by_cases hcc : c' = c
    · subst hcc
      dsimp only
      rw [hself]
      exact hiff.mpr hbetrays
    · dsimp only
      rw [hother c' hcc]
      exact (hp c').mono (hkept c' hcc)
  · have hc : c' ≠ c := by
      rintro rfl
      exact absurd (hx.known c' call hrow) (Nat.not_lt.mpr (hframe.nextCall ▸ hc'))
    exact (hother c' hc).trans (hx.fresh c' (hframe.nextCall ▸ hc'))
  · refine lt_of_lt_of_eq ?_ hframe.nextCall.symm
    by_cases hcc : c' = c
    · subst hcc
      exact hx.known c' call hrow
    · exact hx.known c' call' ((hframe.others c' hcc).symm.trans hcall')
  · by_cases hcc : c' = c
    · subst hcc
      have hi' : trace.row = some i := hself ▸ hi
      rcases hcount with ⟨hkeep,hcount⟩ | ⟨hnew,hcount⟩
      · exact (hx.bounded c' i (hkeep ▸ hi')).trans_eq hcount.symm
      · obtain rfl : x.service.nextInvocation = i := Option.some.inj (hnew.symm.trans hi')
        exact (Nat.lt_succ_self _).trans_eq hcount.symm
    · have hle : x.service.nextInvocation ≤ t.nextInvocation := by
        rcases hcount with ⟨-,hcount⟩ | ⟨-,hcount⟩ <;> omega
      exact (hx.bounded c' i (hother c' hcc ▸ hi)).trans_le hle
  · by_cases h₁c : c₁ = c <;> by_cases h₂c : c₂ = c
    · exact h₁c.trans h₂c.symm
    · subst h₁c
      exact absurd (hself ▸ h₁) (hapart c₂ h₂c i (hother c₂ h₂c ▸ h₂))
    · subst h₂c
      exact absurd (hself ▸ h₂) (hapart c₁ h₁c i (hother c₁ h₁c ▸ h₁))
    · exact hx.own c₁ c₂ i (hother c₁ h₁c ▸ h₁) (hother c₂ h₂c ▸ h₂)
  · by_cases hcc : c' = c
    · subst hcc
      obtain ⟨pc,rfl⟩ := hframe.same call' hcall'
      exact hx.admitted c' call hrow
    · exact hx.admitted c' call' ((hframe.others c' hcc).symm.trans hcall')
  · by_cases hcc : c' = c
    · subst hcc
      dsimp only
      rw [hself]
      exact hphase call' hcall'
    · dsimp only
      rw [hother c' hcc]
      exact (hx.phase c' call' ((hframe.others c' hcc).symm.trans hcall')).mono (hkept c' hcc)

/-- The condition is exact for one step. -/
theorem step_truthful (hx : Followed settings x) (hp : RowsTruthful x) (h : step cfg settings l x = some y) :
    (RowsTruthful y ↔ ¬ Betrays l x.service) ∧ (RowsTruthful y → Followed settings y) := by
  obtain ⟨t,ht,rfl⟩ := Option.map_eq_some_iff.mp h
  cases hlabel : l.call? with
  | none =>
    have hrecord : record l x t = x.traces := by simp [record,hlabel]
    obtain ⟨hfollowed,htruthful⟩ := hx.aside hp (step_aside hlabel ht)
    rw [hrecord]
    refine ⟨iff_of_true htruthful fun hbetrays => ?_,fun _ => hfollowed⟩
    cases hbetrays with
    | premature c now call label =>
      subst label
      cases hlabel
    | abandoned c call i quits =>
      unfold Label.quits at quits
      split at quits <;> cases quits <;> cases hlabel
  | some c =>
    obtain ⟨call,hrow⟩ := step_call hlabel ht
    have hrecord : record l x t = Function.update x.traces c ((x.traces c).record l x.service t c call.pc) := by
      simp [record,hlabel,hrow]
    obtain ⟨hframe,hturn⟩ := step_turn hlabel hrow (enterBody_admitted (hx.admitted c call hrow)) ht
    obtain ⟨hiff,hfollowed⟩ := hx.turn hp hlabel hrow hframe hturn
    rw [hrecord]
    exact ⟨hiff,fun _ => hfollowed⟩

/-- Along a run every row is truthful in every state exactly if no step commits a row as
SUCCEEDED for a tool without an approval, and no call ends with an exception between the
commit of its row and that of the result. -/
theorem rows_truthful_iff (cfg : Config) (settings : Settings) (server : Recovery.Sys) (ls : List Label) (x : Traced)
    (h : exec (step cfg settings) ls (start server) = some x) :
    ExecAll (step cfg settings) RowsTruthful ls (start server) ↔
      ExecOk (step cfg settings) (fun l x => ¬ Betrays l x.service) ls (start server) :=
  execAll_iff_execOk_of (J := Followed settings) (fun _ _ _ hx hp ht => step_truthful hx hp ht)
    (Followed.start settings server) (RowsTruthful.start server) h

end Runs

/-- The status and the end of the row of a call. -/
def rowOf (x : Traced) (c : CallId) : Option (ToolStatus × Option Instant) :=
  ((x.traces c).row.bind x.service.invocations).map fun row => (row.status,row.finishedAt)

/-- A run that waits for a call. -/
def runLabels : List Label :=
  [.manager (.createAgent "auto" []),.manager (.startRun 0 "open the browser" none true),.manager (.markRunning 1 5)]

/-- The browser is opened after an approval. -/
def openedLabels : List Label :=
  runLabels ++ [.execute 1 "desktop.open_application" [("application_id",.str "browser")],.resume 0 6,.resume 0 6,
    .resume 0 6,.decide 0 true 7,.resume 0 8,.resume 0 8,.resume 0 8,.resume 0 8,.endBody 0 (.succeeded ""),
    .resume 0 9,.resume 0 9]

/-- The call needs an approval, and it is not ended. -/
def careful (l : Label) (x : Traced) : Bool :=
  l.quits.isNone && match l with
    | .resume c _ => (x.service.calls c).all fun call => call.definition.requiresApproval
    | _ => true

theorem rows_truthful_opened :
    (exec (step sampleConfig sampleSettings) openedLabels (start Recovery.Sys.initial)).map (fun x => x.rowOf 0) =
      some (some (.succeeded,some 9)) ∧
    ExecAll (step sampleConfig sampleSettings) RowsTruthful openedLabels (start Recovery.Sys.initial) := by
  have hend : (exec (step sampleConfig sampleSettings) openedLabels (start Recovery.Sys.initial)).map
      (fun x => x.rowOf 0) = some (some (.succeeded,some 9)) := by decide +kernel
  obtain ⟨x,hexec,-⟩ := Option.map_eq_some_iff.mp hend
  refine ⟨hend,(rows_truthful_iff sampleConfig sampleSettings Recovery.Sys.initial openedLabels x hexec).mpr ?_⟩
  have hcareful : ExecOk (step sampleConfig sampleSettings) (fun l x => careful l x = true) openedLabels
      (start Recovery.Sys.initial) := by decide +kernel
  refine hcareful.imp (I := fun _ => True) (fun _ _ _ _ _ => trivial) (fun l x _ hl hbetrays => ?_) trivial
  cases hbetrays with
  | premature c now call label found pc unapproved =>
    subst label
    simp [careful,found,unapproved] at hl
  | abandoned c call i quits => simp [careful,quits] at hl

/-- The clock is asked for, and the call is cancelled after the commit of its row. -/
def clockLabels : List Label :=
  runLabels ++ [.execute 1 "system.current_time" [],.resume 0 6,.abort 0]

/-- The row of the call says SUCCEEDED, without an end, and its body has never begun. -/
theorem cancelled_clock_succeeded :
    ¬ ExecAll (step sampleConfig sampleSettings) RowsTruthful clockLabels (start Recovery.Sys.initial) ∧
    (exec (step sampleConfig sampleSettings) clockLabels (start Recovery.Sys.initial)).map
      (fun x => (x.rowOf 0,(x.traces 0).happened,(x.traces 0).exited)) =
      some (some (.succeeded,none),some .interrupted,true) := by
  have hend : (exec (step sampleConfig sampleSettings) clockLabels (start Recovery.Sys.initial)).map
      (fun x => (x.rowOf 0,(x.traces 0).happened,(x.traces 0).exited)) =
      some (some (.succeeded,none),some .interrupted,true) := by decide +kernel
  refine ⟨fun hall => ?_,hend⟩
  obtain ⟨x,hexec,hx⟩ := Option.map_eq_some_iff.mp hend
  simp only [Prod.mk.injEq, rowOf] at hx
  obtain ⟨hrow,-,hexited⟩ := hx
  obtain ⟨row,hrow,hsaid⟩ := Option.map_eq_some_iff.mp hrow
  obtain ⟨i,hi,hrow⟩ := Option.bind_eq_some_iff.mp hrow
  have hfinished := ((hall.last hexec 0).exited hexited i row hi hrow).1
  rw [(Prod.mk.inj hsaid).2] at hfinished
  cases hfinished

end Traced

end AgentGraph.Tools
