import AgentGraph.Recovery.Startup

/-! # Tool calls, their approvals and the action ledger

A call of `ToolService.execute` is followed from one commit to the next. Approvals
live in memory: a request has a status and a future that `decide` or `cancel`
resolves. The log is not read by the code; it tells what happened, newest first.
-/
set_option autoImplicit false
namespace AgentGraph.Tools
open Transition Recovery

abbrev CallId := Nat
abbrev ApprovalId := Nat

inductive ToolRisk
  | read | control
deriving DecidableEq, Repr

inductive ToolStatus
  | pendingApproval | succeeded | rejected | expired | cancelled | failed
deriving DecidableEq, Repr

structure ToolDefinition where
  id : String
  description : String
  risk : ToolRisk
  requiresApproval : Bool
deriving DecidableEq, Repr

structure ToolResult where
  toolId : String
  status : ToolStatus
  output : Option String
  errorCode : Option String
  approvalId : Option ApprovalId
deriving DecidableEq, Repr

/-- `ToolService._definitions`. -/
def definitions : List ToolDefinition :=
  [⟨"system.current_time","Return the current local system time.",.read,false⟩,
    ⟨"desktop.open_application","Open a configured local application alias.",.control,true⟩]

/-- The settings of the tool service; the allowlist is what `json.loads` makes of its
text, if anything. -/
structure Settings where
  projectId : String
  toolsEnabled : Bool
  applicationAllowlist : Option Json
  maxOutputChars : Nat

/-- One entry of the allowlist: an alias and a non-empty vector of non-empty strings. -/
def allowlistEntry? (entry : String × Json) : Option (String × List String) :=
  match entry.2 with
  | .arr command => if command.isEmpty then none else (command.mapM Json.nonemptyStr?).map fun vector => (entry.1,vector)
  | _ => none

/-- `_application_allowlist`. -/
def allowlist (settings : Settings) : List (String × List String) :=
  match settings.applicationAllowlist with
  | some (.obj fields) => fields.filterMap allowlistEntry?
  | _ => []

/-- The pattern of `application_id`: an ASCII letter or digit and up to 63 more
characters, which may also be dots, underscores and hyphens. -/
def applicationIdPattern (text : String) : Bool :=
  match text.toList with
  | [] => false
  | first :: rest =>
    first.isAlphanum && decide (rest.length ≤ 63) &&
      rest.all fun c => c.isAlphanum || c == '.' || c == '_' || c == '-'

/-- `_validate_arguments`, by the application id of the validated arguments. -/
def validateArguments (toolId : String) (arguments : JsonObject) : Option String :=
  if toolId = "system.current_time" then
    if arguments.isEmpty then some "system" else none
  else if arguments.onlyKeys ["application_id"] then
    match arguments.get "application_id" with
    | .str text => if applicationIdPattern text then some text else none
    | _ => none
  else none

def failure (toolId errorCode : String) : ToolResult := ⟨toolId,.failed,none,some errorCode,none⟩

/-- The checks of `execute` before it touches the database. -/
def admission (settings : Settings) (toolId : String) (arguments : JsonObject) :
    Except ToolResult (ToolDefinition × String) :=
  if !settings.toolsEnabled then .error (failure toolId "tool_disabled")
  else
    match definitions.find? fun definition => definition.id == toolId with
    | none => .error (failure toolId "tool_not_found")
    | some definition =>
      match validateArguments toolId arguments with
      | none => .error (failure toolId "tool_invalid_arguments")
      | some applicationId =>
        if toolId = "desktop.open_application" ∧ ((allowlist settings).lookup applicationId).isNone then
          .error (failure toolId "tool_not_allowed")
        else .ok (definition,applicationId)

inductive ApprovalStatus
  | pending | approved | rejected | expired | cancelled
deriving DecidableEq, Repr

/-- An `ApprovalRequest` and its future. -/
structure Approval where
  action : String
  description : String
  requestedBy : String
  runId : Option RunId
  expiresAt : Option Instant
  status : ApprovalStatus
  decision : Option ApprovalStatus
deriving DecidableEq

def Approval.request (action description requestedBy : String) (runId : Option RunId)
    (expiresAt : Option Instant) : Approval :=
  ⟨action,description,requestedBy,runId,expiresAt,.pending,none⟩

/-- `set_result`, unless the future is done. -/
def Approval.resolve (approval : Approval) (status : ApprovalStatus) : Approval :=
  { approval with
    status := status,
    decision := some (approval.decision.getD status) }

/-- `ApprovalService.decide` on a request that exists: an error, or the new request
and whether its status was moved from PENDING by a decision. -/
def Approval.decide (approval : Approval) (approved : Bool) (now : Instant) : Option (Approval × Bool) :=
  if approval.status ≠ .pending then none
  else if approval.expiresAt.any fun expiry => expiry ≤ now then
    some ({ approval with status := .expired },false)
  else some (approval.resolve (if approved then .approved else .rejected),true)

/-- `ApprovalService.cancel`. -/
def Approval.cancel (approval : Approval) : Approval :=
  if approval.status = .pending then approval.resolve .cancelled else approval

/-- The timeout branch of `wait_for_decision`. -/
def Approval.expire (approval : Approval) : Approval :=
  if approval.status = .pending then { approval with status := .expired } else approval

/-- `ToolInvocationRecord`. -/
structure Invocation where
  runId : RunId
  toolId : String
  risk : ToolRisk
  status : ToolStatus
  approvalId : Option ApprovalId
  inputMetadata : JsonObject
  output : Option String
  errorCode : Option String
  finishedAt : Option Instant

/-- Where a call of `execute` stands: the name is what it does when it is resumed. -/
inductive Pc
  | insertInvocation
  | createApproval (invocation : InvocationId)
  | linkApproval (invocation : InvocationId) (approval : ApprovalId)
  | waitForDecision (invocation : InvocationId) (approval : ApprovalId)
  | refuse (invocation : InvocationId) (result : ToolResult)
  | recordIntent (invocation : InvocationId) (approval : Option ApprovalId)
  | recordStarted (invocation : InvocationId) (approval : Option ApprovalId) (entry : EntryId)
  | begin (invocation : InvocationId) (approval : Option ApprovalId) (entry : EntryId)
  | body (invocation : InvocationId) (approval : Option ApprovalId) (entry : EntryId)
  | complete (invocation : InvocationId) (result : ToolResult) (entry : EntryId) (status : ActionLedgerStatus)
  | settle (result : ToolResult) (entry : EntryId) (status : ActionLedgerStatus)
deriving DecidableEq

/-- A call that has passed `admission`. -/
structure Call where
  runId : RunId
  toolId : String
  arguments : JsonObject
  definition : ToolDefinition
  applicationId : String
  pc : Pc

/-- What happened. `actionStarted` is the commit of STARTED, `bodyStarted` the entry
of `_execute_validated`, `decided` the move of a request from PENDING by `decide`. -/
inductive Event
  | executed (c : CallId) (r : RunId) (toolId : String) (arguments : JsonObject)
  | returned (c : CallId) (result : ToolResult)
  | approvalCreated (c : CallId) (a : ApprovalId)
  | decided (a : ApprovalId) (approved : Bool)
  | actionStarted (c : CallId) (entry : EntryId)
  | bodyStarted (c : CallId) (r : RunId) (entry : EntryId)
  | launched (c : CallId) (vector : List String)

structure Sys where
  server : Recovery.Sys
  invocations : InvocationId → Option Invocation
  approvals : ApprovalId → Option Approval
  calls : CallId → Option Call
  nextInvocation : Nat
  nextApproval : Nat
  nextCall : Nat
  log : List Event

/-- A process over a server state, with no call yet. -/
def Sys.initial (server : Recovery.Sys) : Sys :=
  ⟨server,fun _ => none,fun _ => none,fun _ => none,0,0,0,[]⟩

/-- How the tool body ends. -/
inductive BodyOutcome
  | succeeded (output : String)
  | timeout
  | osError
  | raised
  | cancelled
deriving DecidableEq

inductive Label
  | manager (l : Recovery.Label)
  | execute (r : RunId) (toolId : String) (arguments : JsonObject)
  | resume (c : CallId) (now : Instant)
  | endBody (c : CallId) (outcome : BodyOutcome)
  | approvalTimeout (c : CallId)
  | cancelWait (c : CallId)
  | abort (c : CallId)
  | createApproval (action description requestedBy : String) (runId : Option RunId) (expiresAt : Option Instant)
  | decide (a : ApprovalId) (approved : Bool) (now : Instant)
  | cancelApproval (a : ApprovalId)
  | crash

/-- The sessions of the server other than those of tool calls. -/
def ofManager : Recovery.Label → Bool
  | .recordActionIntent _ _ _ | .updateAction _ _ _ | .restart => false
  | _ => true

namespace Sys

def setCall (s : Sys) (c : CallId) (call : Call) : Sys :=
  { s with calls := Function.update s.calls c (some call) }

/-- The call goes on at another point. -/
def goto (s : Sys) (c : CallId) (call : Call) (pc : Pc) : Sys := s.setCall c { call with pc := pc }

/-- A call of `execute` comes in. -/
def enter (s : Sys) (r : RunId) (toolId : String) (arguments : JsonObject) : Sys :=
  { s with
    nextCall := s.nextCall + 1,
    log := .executed s.nextCall r toolId arguments :: s.log }

/-- The call is over. -/
def leave (s : Sys) (c : CallId) : Sys := { s with calls := Function.update s.calls c none }

def note (s : Sys) (event : Event) : Sys := { s with log := event :: s.log }

def setApproval (s : Sys) (a : ApprovalId) (approval : Approval) : Sys :=
  { s with approvals := Function.update s.approvals a (some approval) }

/-- A new request, under a fresh identifier. -/
def addApproval (s : Sys) (request : Approval) : Sys :=
  { s with
    approvals := Function.update s.approvals s.nextApproval (some request),
    nextApproval := s.nextApproval + 1 }

def addInvocation (s : Sys) (row : Invocation) : Sys :=
  { s with
    invocations := Function.update s.invocations s.nextInvocation (some row),
    nextInvocation := s.nextInvocation + 1 }

def updateInvocation (s : Sys) (i : InvocationId) (f : Invocation → Invocation) : Sys :=
  { s with invocations := Function.update s.invocations i ((s.invocations i).map f) }

def setDb (s : Sys) (db : Database) : Sys := { s with server := { s.server with db := db } }

/-- A session of the server; invocations go with the run they belong to. -/
def cascade (s : Sys) (server : Recovery.Sys) : Sys :=
  { s with
    server := server,
    invocations := fun i => (s.invocations i).filter fun row => (server.db.store.runs row.runId).isSome }

end Sys

/-- `_bounded`. -/
def bounded (value : Option String) (limit : Nat) : Option String :=
  value.map fun text => if text.length ≤ limit then text else (text.take limit).toString ++ " [truncated]"

/-- The row that `execute` inserts. -/
def newInvocation (call : Call) : Invocation :=
  { runId := call.runId, toolId := call.toolId, risk := call.definition.risk,
    status := if call.definition.requiresApproval then .pendingApproval else .succeeded,
    approvalId := none,
    inputMetadata := [("application_id",.str call.applicationId)],
    output := none, errorCode := none, finishedAt := none }

/-- The columns `_complete` writes. -/
def Invocation.complete (settings : Settings) (result : ToolResult) (now : Instant) (row : Invocation) : Invocation :=
  { row with
    status := result.status, errorCode := result.errorCode,
    output := bounded result.output settings.maxOutputChars, finishedAt := some now }

/-- The branches of `execute` on the string `wait_for_decision` returns. -/
def afterDecision (call : Call) (invocation : InvocationId) (approval : ApprovalId) : ApprovalStatus → Pc
  | .rejected => .refuse invocation ⟨call.toolId,.rejected,none,none,some approval⟩
  | .expired => .refuse invocation ⟨call.toolId,.expired,none,none,some approval⟩
  | .cancelled => .refuse invocation ⟨call.toolId,.cancelled,none,none,some approval⟩
  | .approved | .pending => .recordIntent invocation (some approval)

/-- `_execute_validated` up to its await: the vector it launches, if the tool launches
one, or the lookup error of the allowlist. -/
def enterBody (settings : Settings) (call : Call) : Except Unit (Option (List String)) :=
  if call.toolId = "system.current_time" then .ok none
  else
    match (allowlist settings).lookup call.applicationId with
    | some vector => .ok (some vector)
    | none => .error ()

/-- What the body returns. -/
def bodyOutput (call : Call) (output : String) : String :=
  if call.toolId = "system.current_time" then output
  else "Opened configured application '" ++ call.applicationId ++ "'."

/-- The result and the ledger status for the end of a body, unless its exception goes
through `execute`. -/
def afterBody (call : Call) (approval : Option ApprovalId) : BodyOutcome → Option (ToolResult × ActionLedgerStatus)
  | .succeeded output => some (⟨call.toolId,.succeeded,some (bodyOutput call output),none,approval⟩,.confirmed)
  | .timeout => some (⟨call.toolId,.failed,none,some "tool_timeout",approval⟩,.uncertain)
  | .osError => some (⟨call.toolId,.failed,none,some "tool_execution_failed",approval⟩,.failed)
  | .cancelled => some (⟨call.toolId,.cancelled,none,some "tool_cancelled",approval⟩,.uncertain)
  | .raised => none

/-- A call goes on from where it stands to its next await. -/
def resume (settings : Settings) (s : Sys) (c : CallId) (call : Call) (now : Instant) : Option Sys :=
  match call.pc with
  | .insertInvocation =>
    -- the foreign key of the row needs its run
    if (s.server.db.store.runs call.runId).isSome then
      some ((s.addInvocation (newInvocation call)).goto c call
        (if call.definition.requiresApproval then .createApproval s.nextInvocation
        else .recordIntent s.nextInvocation none))
    else none
  | .createApproval invocation =>
    some (((s.addApproval (Approval.request call.toolId "Lexi requested a controlled desktop action." "lexi"
      (some call.runId) none)).note (.approvalCreated c s.nextApproval)).goto c call
        (.linkApproval invocation s.nextApproval))
  | .linkApproval invocation approval =>
    some ((s.updateInvocation invocation fun row => { row with approvalId := some approval }).goto c call
      (.waitForDecision invocation approval))
  | .waitForDecision invocation approval =>
    match s.approvals approval with
    | none => some (s.goto c call (afterDecision call invocation approval .cancelled))
    | some request => request.decision.map fun status => s.goto c call (afterDecision call invocation approval status)
  | .refuse invocation result =>
    some (((s.updateInvocation invocation (Invocation.complete settings result now)).leave c).note (.returned c result))
  | .recordIntent invocation approval =>
    (recordActionIntent s.server.db call.runId (some invocation) call.toolId).map fun recorded =>
      (s.setDb recorded.1).goto c call (.recordStarted invocation approval recorded.2)
  | .recordStarted invocation approval entry =>
    let updated := (s.setDb (updateAction s.server.db entry .started now)).goto c call
      (.begin invocation approval entry)
    -- `update_action` returns without a commit when the entry is gone
    some (if s.server.db.actions.any fun row => row.id == entry then updated.note (.actionStarted c entry)
      else updated)
  | .begin invocation approval entry =>
    let entered := s.note (.bodyStarted c call.runId entry)
    match enterBody settings call with
    | .error () => some (entered.leave c)
    | .ok none => some (entered.goto c call (.body invocation approval entry))
    | .ok (some vector) => some ((entered.note (.launched c vector)).goto c call (.body invocation approval entry))
  | .body _ _ _ => none
  | .complete invocation result entry status =>
    some ((s.updateInvocation invocation (Invocation.complete settings result now)).goto c call
      (.settle result entry status))
  | .settle result entry status =>
    some (((s.setDb (updateAction s.server.db entry status now)).leave c).note (.returned c result))

/-- An exception other than those `execute` handles may end a call at each of its awaits,
except in the wait for the decision and in the body, which have handlers. -/
def mayAbort : Pc → Bool
  | .waitForDecision _ _ | .body _ _ _ => false
  | _ => true

def step (cfg : Config) (settings : Settings) : Label → Sys → Option Sys
  | .manager l, s =>
    if ofManager l then (Recovery.step cfg l s.server).map s.cascade else none
  | .execute r toolId arguments, s =>
    let entered := s.enter r toolId arguments
    match admission settings toolId arguments with
    | .error result => some (entered.note (.returned s.nextCall result))
    | .ok (definition,applicationId) =>
      some (entered.setCall s.nextCall ⟨r,toolId,arguments,definition,applicationId,.insertInvocation⟩)
  | .resume c now, s => (s.calls c).bind fun call => resume settings s c call now
  | .endBody c outcome, s =>
    (s.calls c).bind fun call =>
      match call.pc with
      | .body invocation approval entry =>
        match afterBody call approval outcome with
        | some (result,status) => some (s.goto c call (.complete invocation result entry status))
        | none => some (s.leave c)
      | _ => none
  | .approvalTimeout c, s =>
    (s.calls c).bind fun call =>
      match call.pc with
      | .waitForDecision invocation approval =>
        (s.approvals approval).map fun request =>
          (s.setApproval approval request.expire).goto c call (afterDecision call invocation approval .expired)
      | _ => none
  | .cancelWait c, s =>
    (s.calls c).bind fun call =>
      match call.pc with
      | .waitForDecision _ approval =>
        (s.approvals approval).map fun request => (s.setApproval approval request.cancel).leave c
      | _ => none
  | .abort c, s => (s.calls c).bind fun call => if mayAbort call.pc then some (s.leave c) else none
  | .createApproval action description requestedBy runId expiresAt, s =>
    some (s.addApproval (Approval.request action description requestedBy runId expiresAt))
  | .decide a approved now, s =>
    (s.approvals a).bind fun request =>
      (request.decide approved now).map fun decided =>
        if decided.2 then (s.setApproval a decided.1).note (.decided a approved) else s.setApproval a decided.1
  | .cancelApproval a, s => (s.approvals a).map fun request => s.setApproval a request.cancel
  | .crash, s =>
    some { s with
      server := { s.server with tasks := fun _ => none },
      approvals := fun _ => none, calls := fun _ => none }

end AgentGraph.Tools
