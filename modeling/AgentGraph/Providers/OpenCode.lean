import AgentGraph.Foundation.Transition
import AgentGraph.Providers.OpenCodeReplies

/-! # `OpenCodeBridgeProvider.complete` under cancellation

The caller waits for its own two requests, and for the task that cleans the session up: first
behind a shield, after a cancellation directly. The event loop runs what is scheduled in
order, so that a new cleanup task has issued its first request before a cancellation that is
asked for later reaches the caller.
-/
set_option autoImplicit false
namespace AgentGraph.OpenCode
open Models Transition

/-- The requests of one completion. A session id is any JSON value but `null`. -/
inductive Request
  | createSession
  | message (session : Json) (providerId modelId prompt : String)
  | abort (session : Json)
  | delete (session : Json)

def Request.isMessage : Request → Bool
  | message _ _ _ _ => true
  | _ => false

/-- A completion, with the time that it takes. -/
structure Call where
  host : Host
  request : ModelRequest
  latencyMs : ℕ

namespace Call

/-- `model_id.partition("/")`, if the separator occurs. -/
def parts (call : Call) : Option (String × String) :=
  (partition ['/'] call.request.modelRef.modelId.toList).map fun parts => (String.ofList parts.1,String.ofList parts.2)

def providerId (call : Call) : String := (call.parts.map Prod.fst).getD ""

def modelId (call : Call) : String := (call.parts.map Prod.snd).getD ""

def prompt (call : Call) : String :=
  "\n\n".intercalate (call.request.messages.map fun message => message.role ++ ": " ++ message.content)

def response (call : Call) (message : Message) : Except ModelRouterError Models.ModelResponse :=
  message.response call.providerId call.modelId call.latencyMs

end Call

/-- How the `try` and the clauses of `complete` have gone, before and in the `finally`. -/
abbrev Pending := Except Exc Message

/-- `_cleanup_session`, by the request that it waits for. -/
inductive Cleanup
  | aborting
  | deleting
  /-- The task is done, with the exception that it has raised if any. -/
  | done (raised : Option Exc)

/-- Where a cleanup is called. -/
inductive Site
  /-- In an exception clause, which raises the exception behind it. -/
  | clause (raises : Exc)
  | final (pending : Pending)

inductive Pc
  | session
  | message (session : Option Json)
  /-- In `_shielded_cleanup`; `direct` behind a first cancellation. -/
  | cleaning (session : Json) (task : Cleanup) (direct : Bool) (site : Site)
  | exited (result : Except Exc Models.ModelResponse)

structure State where
  pc : Pc
  -- the requests that the client was asked for, oldest first
  issued : List Request
  -- the session id that was obtained
  session : Option Json
  -- a reply to the message that the response can be built from
  answered : Bool

/-- A request ends with a response or an exception. -/
inductive Outcome
  | response (response : Response)
  | raised (failure : Failure)

inductive Label
  /-- The request of the caller ends. -/
  | respond (outcome : Outcome)
  /-- The request of the cleanup task ends. -/
  | cleaned (outcome : Outcome)
  /-- The timeout of the cleanup's request passes. -/
  | timedOut
  /-- The caller resumes behind a finished cleanup. -/
  | resume
  /-- A cancellation reaches the caller. -/
  | cancel

def Outcome.bind {α : Type} (outcome : Outcome) (read : Response → Except Exc α) : Except Exc α :=
  match outcome with
  | .response reply => read reply
  | .raised failure => .error (.failure failure)

/-- `session_id is not None`. -/
def sessionOf : Json → Option Json
  | .null => none
  | session => some session

namespace State

def exit (s : State) (result : Except Exc Models.ModelResponse) : State := { s with pc := .exited result }

/-- `_shielded_cleanup`, with the first request of the task that it creates. -/
def clean (s : State) (session : Json) (abort : Bool) (site : Site) : State :=
  { s with
    pc := .cleaning session (if abort then .aborting else .deleting) false site,
    issued := s.issued ++ [if abort then .abort session else .delete session] }

/-- What follows the `finally`. -/
def conclude (s : State) (call : Call) : Pending → State
  | .error e => s.exit (.error e)
  | .ok message => s.exit ((call.response message).mapError .router)

/-- The `finally`. -/
def finish (s : State) (call : Call) (session : Option Json) (pending : Pending) : State :=
  match session with
  | some session => s.clean session false (.final pending)
  | none => s.conclude call pending

/-- The clause that catches an exception: whether it aborts, and what it raises. -/
def clauseOf (messageStarted : Bool) : Exc → Option (Bool × Exc)
  | .cancelled => some (true,.cancelled)
  | .router error => some (messageStarted,.router error)
  | .failure .timeout => some (messageStarted,routerError .timeout "OpenCode request timed out")
  | .failure .http => some (messageStarted,routerError .providerUnavailable "OpenCode is unavailable")
  | .failure .value => some (messageStarted,routerError .invalidResponse "OpenCode returned an invalid response")
  | .failure .other => none

/-- An exception leaves the `try`. -/
def handle (s : State) (call : Call) (session : Option Json) (messageStarted : Bool) (e : Exc) : State :=
  match clauseOf messageStarted e, session with
  | some (abort,raises), some session => s.clean session abort (.clause raises)
  | some (_,raises), none => s.finish call none (.error raises)
  | none, _ => s.finish call session (.error e)

/-- `_shielded_cleanup` is over, with the exception that it raises if any. -/
def leave (s : State) (call : Call) (session : Json) (site : Site) (raised : Option Exc) : State :=
  match site, raised with
  -- the clause has set the session id to `None`
  | .clause raises, none => s.finish call none (.error raises)
  | .clause _, some e => s.finish call (some session) (.error e)
  | .final pending, none => s.conclude call pending
  | .final _, some e => s.exit (.error e)

end State

/-- Whether the exceptions of a cleanup's request are caught. -/
def Exc.swallowed : Exc → Bool
  | .failure .timeout | .failure .http => true
  | _ => false

/-- The request of the cleanup has ended: where the task is then. -/
def Cleanup.proceed (result : Except Exc Unit) : Cleanup → Option Cleanup
  | aborting =>
    match result with
    | .ok () => some .deleting
    | .error e => some (if e.swallowed then .deleting else .done (some e))
  | deleting =>
    match result with
    | .ok () => some (.done none)
    | .error e => some (.done (if e.swallowed then none else some e))
  | done _ => none

/-- The cleanup goes on, with its next request. -/
def State.proceed (s : State) (session : Json) (direct : Bool) (site : Site) (task : Cleanup) : State :=
  match task with
  | .deleting => { s with pc := .cleaning session task direct site, issued := s.issued ++ [.delete session] }
  | _ => { s with pc := .cleaning session task direct site }

def step (call : Call) (l : Label) (s : State) : Option State :=
  match l, s.pc with
  | .respond outcome, .session =>
    match outcome.bind Response.sessionId with
    | .error e => some (s.handle call none false e)
    | .ok id =>
      some
        { s with
          pc := .message (sessionOf id), session := sessionOf id,
          issued := s.issued ++ [.message id call.providerId call.modelId call.prompt] }
  | .respond outcome, .message session =>
    match outcome.bind (Response.message call.host) with
    | .error e => some (s.handle call session true e)
    | .ok message =>
      some (({ s with answered := (call.response message).isOk } : State).finish call session (.ok message))
  | .cancel, .session => some (s.handle call none false .cancelled)
  | .cancel, .message session => some (s.handle call session true .cancelled)
  -- the shield keeps the cancellation from the task, which is then awaited directly
  | .cancel, .cleaning session (.done raised) false site => some (s.leave call session site (some (raised.getD .cancelled)))
  | .cancel, .cleaning session task false site => some { s with pc := .cleaning session task true site }
  | .cancel, .cleaning session (.done _) true site => some (s.leave call session site (some .cancelled))
  | .cancel, .cleaning session _ true site => some { s with pc := .cleaning session (.done (some .cancelled)) true site }
  | .cleaned outcome, .cleaning session task direct site =>
    (task.proceed (outcome.bind Response.raiseForStatus)).map (s.proceed session direct site)
  | .timedOut, .cleaning session task direct site =>
    (task.proceed (.error (.failure .timeout))).map (s.proceed session direct site)
  | .resume, .cleaning session (.done raised) direct site =>
    some (s.leave call session site (if direct then some (raised.getD .cancelled) else raised))
  | _, _ => none

/-- The start of `complete`. -/
def start (call : Call) : State :=
  match call.parts with
  | none =>
    ⟨.exited (.error (routerError .configurationError "OpenCode model reference must include provider and model")),[],none,false⟩
  | some _ => ⟨.session,[.createSession],none,false⟩

/-! ## What a completion leaves behind -/

/-- When `complete` has exited, the session is asked to be deleted. -/
def Deleted (s : State) : Prop := ∀ result id, s.pc = .exited result → s.session = some id → .delete id ∈ s.issued

def AbortedFirst (id : Json) (issued : List Request) : Prop :=
  ∃ before after, issued = before ++ .abort id :: after ∧ .delete id ∉ before

/-- When `complete` has exited, a session whose message was not answered was aborted before it
was deleted, and the exception is one of those that callers expect. -/
def ExitsAsExpected (s : State) : Prop :=
  ∀ result, s.pc = .exited result →
    (∀ id, s.session = some id → s.issued.any Request.isMessage = true → s.answered = false → AbortedFirst id s.issued) ∧
      ∀ e, result = .error e → e = .cancelled ∨ ∃ error, e = .router error

/-- The request and the body raise only what the clauses of `complete` catch. -/
def Outcome.Caught : Outcome → Prop
  | .raised failure => failure ≠ .other
  | .response reply => reply.json ≠ .error .other

/-- The requests raise what is caught where they are made, and a readable reply has valid metadata. -/
def Ordinary (call : Call) (l : Label) (_ : State) : Prop :=
  match l with
  | .respond outcome => outcome.Caught ∧
      ∀ message, outcome.bind (Response.message call.host) = .ok message → (call.response message).isOk = true
  | .cleaned (.raised failure) => failure = .timeout ∨ failure = .http
  | _ => True

end AgentGraph.OpenCode
