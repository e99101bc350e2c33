import AgentGraph.Tools.Service

/-! # What a step of the tool service can do

A session of the manager, or one constructor for each other branch of the step
function, with the checks that led to it. Every step is a step of the server underneath or leaves it alone, so whatever
holds of the server by itself holds of it under any number of tool calls.
-/
set_option autoImplicit false
namespace AgentGraph.Tools
open Transition Recovery

/-- The branches of a step other than the sessions of the manager. -/
inductive Next (settings : Settings) (s : Sys) : Sys → Prop
  | refused (r : RunId) (toolId : String) (arguments : JsonObject) (result : ToolResult) :
      Next settings s ((s.enter r toolId arguments).note (.returned s.nextCall result))
  | entered (r : RunId) (toolId : String) (arguments : JsonObject) (definition : ToolDefinition)
      (applicationId : String) (admitted : admission settings toolId arguments = .ok (definition,applicationId)) :
      Next settings s ((s.enter r toolId arguments).setCall s.nextCall
        ⟨r,toolId,arguments,definition,applicationId,.insertInvocation⟩)
  | inserted (c : CallId) (call : Call) (row : s.calls c = some call) (pc : call.pc = .insertInvocation) :
      Next settings s ((s.addInvocation (newInvocation call)).goto c call
        (if call.definition.requiresApproval then .createApproval s.nextInvocation
        else .recordIntent s.nextInvocation none))
  | requested (c : CallId) (call : Call) (invocation : InvocationId) (request : Approval)
      (row : s.calls c = some call) (pc : call.pc = .createApproval invocation) (undecided : request.decision = none) :
      Next settings s (((s.addApproval request).note (.approvalCreated c s.nextApproval)).goto c call
        (.linkApproval invocation s.nextApproval))
  | linked (c : CallId) (call : Call) (invocation : InvocationId) (approval : ApprovalId)
      (f : Invocation → Invocation) (row : s.calls c = some call) (pc : call.pc = .linkApproval invocation approval) :
      Next settings s ((s.updateInvocation invocation f).goto c call (.waitForDecision invocation approval))
  | resolved (c : CallId) (call : Call) (invocation : InvocationId) (approval : ApprovalId)
      (status : ApprovalStatus) (row : s.calls c = some call) (pc : call.pc = .waitForDecision invocation approval)
      (found : status = .cancelled ∨ ∃ request, s.approvals approval = some request ∧ request.decision = some status) :
      Next settings s (s.goto c call (afterDecision call invocation approval status))
  | finishedRefused (c : CallId) (invocation : InvocationId) (f : Invocation → Invocation) (result : ToolResult) :
      Next settings s (((s.updateInvocation invocation f).leave c).note (.returned c result))
  | intended (c : CallId) (call : Call) (invocation : InvocationId) (approval : Option ApprovalId)
      (recorded : Database × EntryId) (row : s.calls c = some call) (pc : call.pc = .recordIntent invocation approval)
      (committed : recordActionIntent s.server.db call.runId (some invocation) call.toolId = some recorded) :
      Next settings s ((s.setDb recorded.1).goto c call (.recordStarted invocation approval recorded.2))
  | started (c : CallId) (call : Call) (invocation : InvocationId) (approval : Option ApprovalId) (entry : EntryId)
      (now : Instant) (row : s.calls c = some call) (pc : call.pc = .recordStarted invocation approval entry) :
      Next settings s (((s.setDb (updateAction s.server.db entry .started now)).goto c call
        (.begin invocation approval entry)).note (.actionStarted c entry))
  | startedMissing (c : CallId) (call : Call) (invocation : InvocationId) (approval : Option ApprovalId)
      (entry : EntryId) (now : Instant) (row : s.calls c = some call)
      (pc : call.pc = .recordStarted invocation approval entry)
      (missing : ∀ action ∈ s.server.db.actions, action.id ≠ entry) :
      Next settings s ((s.setDb (updateAction s.server.db entry .started now)).goto c call
        (.begin invocation approval entry))
  | bodyRaised (c : CallId) (call : Call) (invocation : InvocationId) (approval : Option ApprovalId)
      (entry : EntryId) (row : s.calls c = some call) (pc : call.pc = .begin invocation approval entry) :
      Next settings s ((s.note (.bodyStarted c call.runId entry)).leave c)
  | bodyEntered (c : CallId) (call : Call) (invocation : InvocationId) (approval : Option ApprovalId)
      (entry : EntryId) (row : s.calls c = some call) (pc : call.pc = .begin invocation approval entry) :
      Next settings s ((s.note (.bodyStarted c call.runId entry)).goto c call (.body invocation approval entry))
  | bodyLaunched (c : CallId) (call : Call) (invocation : InvocationId) (approval : Option ApprovalId)
      (entry : EntryId) (vector : List String) (row : s.calls c = some call)
      (pc : call.pc = .begin invocation approval entry) (launch : enterBody settings call = .ok (some vector)) :
      Next settings s (((s.note (.bodyStarted c call.runId entry)).note (.launched c vector)).goto c call
        (.body invocation approval entry))
  | bodyEnded (c : CallId) (call : Call) (invocation : InvocationId) (approval : Option ApprovalId) (entry : EntryId)
      (result : ToolResult) (status : ActionLedgerStatus) (row : s.calls c = some call)
      (pc : call.pc = .body invocation approval entry) :
      Next settings s (s.goto c call (.complete invocation result entry status))
  | completed (c : CallId) (call : Call) (invocation : InvocationId) (f : Invocation → Invocation)
      (result : ToolResult) (entry : EntryId) (status : ActionLedgerStatus) (row : s.calls c = some call)
      (pc : call.pc = .complete invocation result entry status) :
      Next settings s ((s.updateInvocation invocation f).goto c call (.settle result entry status))
  | settled (c : CallId) (result : ToolResult) (entry : EntryId) (status : ActionLedgerStatus) (now : Instant) :
      Next settings s
        (((s.setDb (updateAction s.server.db entry status now)).leave c).note (.returned c result))
  | left (c : CallId) : Next settings s (s.leave c)
  | expired (c : CallId) (call : Call) (invocation : InvocationId) (approval : ApprovalId) (request : Approval)
      (row : s.calls c = some call) (pc : call.pc = .waitForDecision invocation approval)
      (found : s.approvals approval = some request) :
      Next settings s ((s.setApproval approval request.expire).goto c call
        (afterDecision call invocation approval .expired))
  | waitCancelled (c : CallId) (approval : ApprovalId) (request : Approval)
      (found : s.approvals approval = some request) :
      Next settings s ((s.setApproval approval request.cancel).leave c)
  | approvalAdded (request : Approval) (undecided : request.decision = none) :
      Next settings s (s.addApproval request)
  | approvalDecided (a : ApprovalId) (request moved : Approval) (approved : Bool) (now : Instant)
      (found : s.approvals a = some request) (decided : request.decide approved now = some (moved,true)) :
      Next settings s ((s.setApproval a moved).note (.decided a approved))
  | approvalLapsed (a : ApprovalId) (request moved : Approval) (approved : Bool) (now : Instant)
      (found : s.approvals a = some request) (decided : request.decide approved now = some (moved,false)) :
      Next settings s (s.setApproval a moved)
  | approvalCancelled (a : ApprovalId) (request : Approval) (found : s.approvals a = some request) :
      Next settings s (s.setApproval a request.cancel)
  | crashed : Next settings s
      { s with
        server := { s.server with tasks := fun _ => none },
        approvals := fun _ => none, calls := fun _ => none }

theorem resume_next {settings : Settings} {s t : Sys} {c : CallId} {call : Call} {now : Instant}
    (row : s.calls c = some call) (h : resume settings s c call now = some t) : Next settings s t := by
  unfold resume at h
  match hpc : call.pc with
  | .insertInvocation =>
    simp only [hpc, Option.ite_none_right_eq_some, Option.some.injEq] at h
    obtain ⟨-,rfl⟩ := h
    exact .inserted c call row hpc
  | .createApproval invocation =>
    simp only [hpc, Option.some.injEq] at h
    obtain rfl := h
    exact .requested c call invocation _ row hpc rfl
  | .linkApproval invocation approval =>
    simp only [hpc, Option.some.injEq] at h
    obtain rfl := h
    exact .linked c call invocation approval _ row hpc
  | .waitForDecision invocation approval =>
    simp only [hpc] at h
    split at h
    · obtain rfl := Option.some.inj h
      exact .resolved c call invocation approval .cancelled row hpc (.inl rfl)
    next request hrequest =>
      obtain ⟨status,hstatus,rfl⟩ := Option.map_eq_some_iff.mp h
      exact .resolved c call invocation approval status row hpc (.inr ⟨request,hrequest,hstatus⟩)
  | .refuse invocation result =>
    simp only [hpc, Option.some.injEq] at h
    obtain rfl := h
    exact .finishedRefused c invocation _ result
  | .recordIntent invocation approval =>
    simp only [hpc] at h
    obtain ⟨recorded,hrecorded,rfl⟩ := Option.map_eq_some_iff.mp h
    exact .intended c call invocation approval recorded row hpc hrecorded
  | .recordStarted invocation approval entry =>
    simp only [hpc, Option.some.injEq] at h
    by_cases hrow : (s.server.db.actions.any fun row => row.id == entry) = true
    · simp only [hrow, ↓reduceIte] at h
      obtain rfl := h
      exact .started c call invocation approval entry now row hpc
    · simp only [hrow, Bool.false_eq_true, ↓reduceIte] at h
      obtain rfl := h
      refine .startedMissing c call invocation approval entry now row hpc ?_
      rintro action haction rfl
      exact hrow (List.any_eq_true.mpr ⟨action,haction,by simp⟩)
  | .begin invocation approval entry =>
    simp only [hpc] at h
    split at h
    · obtain rfl := Option.some.inj h
      exact .bodyRaised c call invocation approval entry row hpc
    · obtain rfl := Option.some.inj h
      exact .bodyEntered c call invocation approval entry row hpc
    next vector hvector =>
      obtain rfl := Option.some.inj h
      exact .bodyLaunched c call invocation approval entry vector row hpc hvector
  | .body invocation approval entry =>
    simp only [hpc, reduceCtorEq] at h
  | .complete invocation result entry status =>
    simp only [hpc, Option.some.injEq] at h
    obtain rfl := h
    exact .completed c call invocation _ result entry status row hpc
  | .settle result entry status =>
    simp only [hpc, Option.some.injEq] at h
    obtain rfl := h
    exact .settled c result entry status now

/-- A session of the manager under the calls in progress. -/
structure Managed (cfg : Config) (l : Label) (s t : Sys) : Prop where
  session : ∃ l' server, l = .manager l' ∧ ofManager l' = true ∧
    Recovery.step cfg l' s.server = some server ∧ t = s.cascade server

theorem step_next {cfg : Config} {settings : Settings} {l : Label} {s t : Sys}
    (h : step cfg settings l s = some t) : Managed cfg l s t ∨ Next settings s t := by
  match l with
  | .manager l =>
    simp only [step, Option.ite_none_right_eq_some] at h
    obtain ⟨hmanager,h⟩ := h
    obtain ⟨server,hran,rfl⟩ := Option.map_eq_some_iff.mp h
    exact .inl ⟨l,server,rfl,hmanager,hran,rfl⟩
  | .execute r toolId arguments =>
    simp only [step] at h
    split at h
    next result hresult =>
      obtain rfl := Option.some.inj h
      exact .inr <| .refused r toolId arguments result
    next definition applicationId hadmitted =>
      obtain rfl := Option.some.inj h
      exact .inr <| .entered r toolId arguments definition applicationId hadmitted
  | .resume c now =>
    obtain ⟨call,row,h⟩ := Option.bind_eq_some_iff.mp h
    exact .inr <| resume_next row h
  | .endBody c outcome =>
    obtain ⟨call,row,h⟩ := Option.bind_eq_some_iff.mp h
    split at h
    next invocation approval entry hpc =>
      split at h
      next result status hbody =>
        obtain rfl := Option.some.inj h
        exact .inr <| .bodyEnded c call invocation approval entry result status row hpc
      · obtain rfl := Option.some.inj h
        exact .inr <| .left c
    · cases h
  | .approvalTimeout c =>
    obtain ⟨call,row,h⟩ := Option.bind_eq_some_iff.mp h
    split at h
    next invocation approval hpc =>
      obtain ⟨request,hrequest,rfl⟩ := Option.map_eq_some_iff.mp h
      exact .inr <| .expired c call invocation approval request row hpc hrequest
    · cases h
  | .cancelWait c =>
    obtain ⟨call,row,h⟩ := Option.bind_eq_some_iff.mp h
    split at h
    next invocation approval hpc =>
      obtain ⟨request,hrequest,rfl⟩ := Option.map_eq_some_iff.mp h
      exact .inr <| .waitCancelled c approval request hrequest
    · cases h
  | .abort c =>
    obtain ⟨call,row,h⟩ := Option.bind_eq_some_iff.mp h
    simp only [Option.ite_none_right_eq_some, Option.some.injEq] at h
    obtain ⟨-,rfl⟩ := h
    exact .inr <| .left c
  | .createApproval action description requestedBy runId expiresAt =>
    obtain rfl := Option.some.inj h
    exact .inr <| .approvalAdded _ rfl
  | .decide a approved now =>
    obtain ⟨request,hrequest,h⟩ := Option.bind_eq_some_iff.mp h
    obtain ⟨⟨moved,done⟩,hdecided,rfl⟩ := Option.map_eq_some_iff.mp h
    match done with
    | true => exact .inr <| .approvalDecided a request moved approved now hrequest hdecided
    | false => exact .inr <| .approvalLapsed a request moved approved now hrequest hdecided
  | .cancelApproval a =>
    obtain ⟨request,hrequest,rfl⟩ := Option.map_eq_some_iff.mp h
    exact .inr <| .approvalCancelled a request hrequest
  | .crash =>
    obtain rfl := Option.some.inj h
    exact .inr <| .crashed

/-- A step of a call is a step of the server or leaves it alone. -/
theorem Next.server (cfg : Config) {settings : Settings} {s t : Sys} (h : Next settings s t) :
    t.server = s.server ∨ ∃ l, Recovery.step cfg l s.server = some t.server := by
  cases h with
  | intended c call invocation approval recorded row pc committed =>
    refine .inr ⟨.recordActionIntent call.runId (some invocation) call.toolId,?_⟩
    simp only [Recovery.step, committed, Option.map_some]
    rfl
  | started c call invocation approval entry now row pc => exact .inr ⟨.updateAction entry .started now,rfl⟩
  | startedMissing c call invocation approval entry now row pc missing =>
    exact .inr ⟨.updateAction entry .started now,rfl⟩
  | settled c result entry status now => exact .inr ⟨.updateAction entry status now,rfl⟩
  | crashed => exact .inr ⟨.restart,rfl⟩
  | _ => exact .inl rfl

/-- Every step of the tool service is a step of the server or leaves it alone. -/
theorem step_server {cfg : Config} {settings : Settings} {l : Label} {s t : Sys}
    (h : step cfg settings l s = some t) :
    t.server = s.server ∨ ∃ l', Recovery.step cfg l' s.server = some t.server := by
  rcases step_next h with ⟨l',server,-,-,hran,rfl⟩ | hn
  · exact .inr ⟨l',hran⟩
  · exact hn.server cfg

/-- The server under tool calls goes through states it can also reach without them. -/
theorem reaches_server {cfg : Config} {settings : Settings} {ok : Label → Sys → Prop} {s t : Sys}
    (h : Reaches (step cfg settings) ok s t) :
    Reaches (Recovery.step cfg) anyStep s.server t.server := by
  induction h with
  | refl => exact .refl
  | tail _ hm ih =>
    obtain ⟨l,-,he⟩ := hm
    rcases step_server he with hsame | ⟨l',hl⟩
    · rw [hsame]
      exact ih
    · exact ih.tail ⟨l',trivial,hl⟩

end AgentGraph.Tools
