import AgentGraph.Nodes.Owners
import AgentGraph.Nodes.WorkerClient
import Mathlib.Tactic.Positivity

/-! # Workers and the core over their sockets

Any number of worker processes connect to the core, answer its requests and reconnect when
a connection ends. Their sockets carry documents in order. Other clients may open sockets
too, with proofs that verify for no node. The limit on the length of a text is a parameter.
-/
set_option autoImplicit false
namespace AgentGraph.Nodes
open Transition Document Protocol

/-- A worker process, with the connection it has now and the probes it has ever run. -/
structure Process where
  client : WorkerClient
  secret : String
  nodeName : BoundedText 1 200
  socket : Option TaskRef
  /-- The messages received over the connection. -/
  received : Nat
  executed : List (TaskId × ResourceSnapshot)

/-- The worker at the other end of a socket, and what it has sent that has not arrived. -/
structure Link where
  worker : Nat
  up : List Json

structure Network where
  core : NodeService
  /-- The steps that the core has taken. -/
  history : List Label
  process : Nat → Process
  link : TaskRef → Option Link

inductive NetworkLabel
  /-- A step of the core that is not about the input of a worker's socket. -/
  | core (l : Label)
  /-- `_connect_once` up to the hello. -/
  | dial (w : Nat) (capabilities : WorkerCapabilities)
  /-- The next text over a worker's socket arrives at the core. -/
  | carry (i : TaskRef) (now : Instant)
  /-- A worker receives the next message over its connection. -/
  | read (w : Nat) (resources : ResourceSnapshot)
  /-- The receive of a worker times out. -/
  | beat (w : Nat) (resources : ResourceSnapshot)
  /-- A connection ends for its worker. -/
  | hangUp (w : Nat)
  | restart (w : Nat)

/-! ## Documents of the core -/

/-- A message as `_handle` and `enroll` use it. -/
def handled (lax : Lax) : Protocol.ClientMessage → ClientMessage
  | ⟨.hello,m⟩ => .hello ⟨m.nodeId.val,m.nodeName.val,(capabilityFields lax).dump m.capabilities⟩
  | ⟨.heartbeat,_⟩ => .heartbeat
  | ⟨.capabilities,m⟩ => .capabilities ((capabilityFields lax).dump m)
  | ⟨.result,m⟩ => .result m.taskId.val m.result
  | ⟨.error,m⟩ => .error m.taskId.val m.code.val m.message.val
  | ⟨.cancel,taskId⟩ => .cancel taskId.val

/-- Milliseconds as the seconds of a request. -/
def seconds (timeout : ℤ) : JsonFloat := .finite (timeout / 1000)

/-- `value.model_dump(mode="json")`. -/
def serverDocument : ServerMessage → Json
  | .registered n status => (registeredFields.record jsonFormat).dump ⟨n,status⟩
  | .taskRequest id timeout =>
    .obj [("type",.str "task.request"),("protocol_version",.int 1),("task_id",.str id),("operation",.str "system.probe"),
      ("timeout_seconds",.float (seconds timeout))]
  | .taskCancel id => .obj [("type",.str "task.cancel"),("protocol_version",.int 1),("task_id",.str id)]

/-- The message that answers a request. -/
def replyMessage : TaskResult ⊕ TaskError → Protocol.ClientMessage
  | .inl result => ⟨.result,result⟩
  | .inr error => ⟨.error,error⟩

/-- A worker process that has just started. -/
structure Process.Fresh (p : Process) : Prop where
  completed : p.client.completed = []
  executed : p.executed = []
  socket : p.socket = none

namespace Network

section Steps
variable (lax : Lax) (settings : Settings) (tooLong : Json → Bool)

/-- `client_message_adapter.validate_json` after the check of the length. -/
def arrived (value : Json) : Option ClientMessage :=
  if tooLong value then none else ((clientMessageAdapter lax).validate value).map (handled lax)

def document (m : Protocol.ClientMessage) : Json := (clientMessageAdapter lax).dump m

def proof (p : Process) : String := settings.enrollmentProof p.secret p.client.nodeId.val

def enact (l : Label) (s : Network) : Option Network :=
  (NodeService.step settings l s.core).map fun core => { s with core := core, history := s.history ++ [l] }

def setProcess (w : Nat) (p : Process) (s : Network) : Network := { s with process := Function.update s.process w p }

def setLink (i : TaskRef) (link : Link) (s : Network) : Network := { s with link := Function.update s.link i (some link) }

/-- `websocket.send` of a worker. -/
def send (i : TaskRef) (value : Json) (s : Network) : Network :=
  { s with link := Function.update s.link i ((s.link i).map fun link => { link with up := link.up ++ [value] }) }

def hangUp (w : Nat) (s : Network) : Network := s.setProcess w { s.process w with socket := none }

def advance (w : Nat) (s : Network) : Network := s.setProcess w { s.process w with received := (s.process w).received + 1 }

/-- `_execute`. -/
def execute (w : Nat) (work : Work) (s : Network) : Network :=
  let p := s.process w
  s.setProcess w { p with
    client := (p.client.execute lax work).2
    received := p.received + 1
    executed := p.executed ++ (p.client.computes lax work).map fun entry => (entry.1,work.2) }

/-- `_execute` and the reply. -/
def answer (w : Nat) (i : TaskRef) (work : Work) (s : Network) : Network :=
  (s.execute lax w work).send i (document lax (replyMessage ((s.process w).client.execute lax work).1))

/-- A message of the core reaches the worker. -/
def takeMessage (w : Nat) (i : TaskRef) (m : ServerMessage) (resources : ResourceSnapshot) (s : Network) : Network :=
  -- the acknowledgement is not looked at
  if (s.process w).received = 0 then s.advance w
  else if tooLong (serverDocument m) then s.hangUp w
  else
    match (serverMessageAdapter lax).validate (serverDocument m) with
    | none => s.hangUp w
    | some (.inr (.inl request)) => s.answer lax w i (request,resources)
    | some _ => s.advance w

def step (l : NetworkLabel) (s : Network) : Option Network :=
  match l with
  | .core l =>
    match l with
    | .receive i message now => if (s.link i).isSome then none else s.enact settings (.receive i message now)
    | l => s.enact settings l
  | .dial w capabilities =>
    let p := s.process w
    if p.socket.isSome then none
    else
      (s.enact settings (.openSocket (some (proof settings p)))).map fun t =>
        (t.setProcess w { p with socket := some s.core.taskCount, received := 0 }).setLink s.core.taskCount
          ⟨w,[document lax ⟨.hello,⟨p.client.nodeId,p.nodeName,capabilities⟩⟩]⟩
  | .carry i now =>
    match s.link i with
    | some ⟨w,value :: up⟩ => (s.enact settings (.receive i (arrived lax tooLong value) now)).map (setLink i ⟨w,up⟩)
    | _ => none
  | .read w resources =>
    match (s.process w).socket with
    | none => none
    | some i =>
      match (((s.core.tasks i).map Task.sent).getD [])[(s.process w).received]? with
      | none => none
      | some m => some (s.takeMessage lax tooLong w i m resources)
  | .beat w resources =>
    match (s.process w).socket with
    | none => none
    | some i => if (s.process w).received = 0 then none else some (s.send i (document lax ⟨.heartbeat,resources⟩))
  | .hangUp w => some (s.hangUp w)
  | .restart w =>
    let p := s.process w
    some (s.setProcess w { p with client := .fresh p.client.nodeId p.client.maxTasks, socket := none })

end Steps

/-- A core without sockets, and workers. -/
def initial (records : Table) (workers : Nat → Process) : Network := ⟨.initial records,[],workers,fun _ => none⟩

end Network

end AgentGraph.Nodes
