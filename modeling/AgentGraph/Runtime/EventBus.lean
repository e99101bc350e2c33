import AgentGraph.Domain.Json
import AgentGraph.Foundation.Transition
import Mathlib.Data.List.Infix

/-! # The event bus

`publish` never suspends. A subscriber is an async generator: it runs from one `yield`
to the next, or until its queue is empty, and may be closed at any time.
-/
set_option autoImplicit false
namespace AgentGraph.Events
open Transition

/-- What a payload may hold. -/
inductive PyValue
  | none
  | bool (b : Bool)
  | int (n : ℤ)
  | float (x : JsonFloat)
  | str (s : String)
  /-- By its `isoformat`. -/
  | datetime (iso : String)
  | list (items : List PyValue)
  /-- By the `str` of its keys. -/
  | dict (fields : List (String × PyValue))
  /-- Any other object by its `str`. -/
  | other (text : String)

abbrev Payload := List (String × PyValue)

inductive RuntimeEventType
  | projectCreated
  | runCreated | runStarted | runPaused | runResumed | runCompleted | runFailed | runCancelled
  | taskCreated | taskStarted | taskProgress | taskCompleted | taskFailed
  | agentStarted | agentWaiting | agentCompleted | agentFailed
  | providerSelected | providerChanged | providerError
  | toolStarted | toolCompleted | toolFailed
  | approvalRequired | approvalApproved | approvalRejected | approvalExpired
  | logCreated
  | visionAssetCreated | visionAnalysisQueued | visionAnalysisStarted | visionAnalysisCompleted
  | visionAnalysisFailed | visionFolderScanStarted | visionFolderScanCompleted
  | nodeRegistered | nodeConnected | nodeOffline | nodeDisabled
  | workerTaskRequested | workerTaskCompleted | workerTaskFailed | workerTaskTimedOut
  | checkpointCreated | recoveryAssessed
deriving DecidableEq, Repr

structure RuntimeEvent where
  id : String
  type : RuntimeEventType
  timestamp : ℤ
  projectId : String
  runId : Option String
  taskId : Option String
  agentId : Option String
  providerId : Option String
  severity : String
  payload : Payload

/-! ## Redaction -/

def secretMarkers : List String := ["api_key","token","password","authorization","secret","credential"]

/-- The entries of a dict comprehension: a later value replaces an earlier one of its key. -/
def dictOf (entries : Payload) : Payload :=
  entries.foldl (fun fields entry =>
    if fields.any fun field => field.1 == entry.1 then
      fields.map fun field => if field.1 = entry.1 then entry else field
    else fields ++ [entry]) []

section Redaction
-- `str.lower`
variable (lower : String → String)

def isSecret (key : String) : Bool :=
  secretMarkers.any fun marker => decide (marker.toList <:+: (lower key).toList)

mutual
/-- `_sanitize`. -/
def sanitize : PyValue → PyValue
  | .dict fields => .dict (dictOf (sanitizeItems fields))
  | .list items => .list (sanitizeList items)
  | .datetime iso => .str iso
  | .other text => .str text
  | value => value

def sanitizeList : List PyValue → List PyValue
  | [] => []
  | item :: rest => sanitize item :: sanitizeList rest

/-- `_sanitize_item` of each entry. -/
def sanitizeItems : List (String × PyValue) → List (String × PyValue)
  | [] => []
  | (key,item) :: rest =>
    (key,if isSecret lower key then .str "[redacted]" else sanitize item) :: sanitizeItems rest
end

def sanitizePayload (payload : Payload) : Payload := dictOf (sanitizeItems lower payload)

def RuntimeEvent.sanitized (event : RuntimeEvent) : RuntimeEvent :=
  { event with payload := sanitizePayload lower event.payload }

end Redaction

/-! ## Subscribers -/

/-- The `maxsize` of a subscriber's queue. -/
def queueLimit : Nat := 100

/-- A generator of `subscribe` that has started, with what it has yielded. -/
structure Subscriber where
  runId : Option String
  queue : List RuntimeEvent
  yielded : List RuntimeEvent
  closed : Bool

namespace Subscriber

/-- The event is yielded. -/
def wants (sub : Subscriber) (event : RuntimeEvent) : Bool := sub.runId == none || event.runId == sub.runId

/-- An event arrives, and is dropped where the queue is full. -/
def offer (sub : Subscriber) (event : RuntimeEvent) : Subscriber :=
  if sub.closed || decide (queueLimit ≤ sub.queue.length) then sub
  else { sub with queue := sub.queue ++ [event] }

/-- The generator runs to its next `yield`, or waits at an empty queue. -/
def next (sub : Subscriber) : Subscriber :=
  match sub.queue.dropWhile fun event => !sub.wants event with
  | [] => { sub with queue := [] }
  | event :: rest => { sub with queue := rest, yielded := sub.yielded ++ [event] }

def close (sub : Subscriber) : Subscriber := { sub with closed := true }

end Subscriber

structure RuntimeEventBus where
  historyLimit : Nat
  events : List RuntimeEvent
  subscribers : List Subscriber

inductive Label
  | publish (event : RuntimeEvent)
  | subscribe (runId : Option String)
  | next (i : Nat)
  | close (i : Nat)

namespace RuntimeEventBus

def initial (historyLimit : Nat) : RuntimeEventBus := ⟨historyLimit,[],[]⟩

def publish (lower : String → String) (bus : RuntimeEventBus) (event : RuntimeEvent) : RuntimeEventBus :=
  let history := bus.events ++ [event.sanitized lower]
  { bus with
    events := history.drop (history.length - bus.historyLimit)
    subscribers := bus.subscribers.map fun sub => sub.offer (event.sanitized lower) }

def history (bus : RuntimeEventBus) (runId : Option String) : List RuntimeEvent :=
  bus.events.filter fun event => runId == none || event.runId == runId

/-- A step of the generator of an open subscriber. -/
def advance (bus : RuntimeEventBus) (i : Nat) (f : Subscriber → Subscriber) : Option RuntimeEventBus :=
  match bus.subscribers[i]? with
  | some sub => if sub.closed then none else some { bus with subscribers := bus.subscribers.set i (f sub) }
  | none => none

def step (lower : String → String) (l : Label) (bus : RuntimeEventBus) : Option RuntimeEventBus :=
  match l with
  | .publish event => some (bus.publish lower event)
  | .subscribe runId => some { bus with subscribers := bus.subscribers ++ [⟨runId,[],[],false⟩] }
  | .next i => bus.advance i Subscriber.next
  | .close i => bus.advance i Subscriber.close

end RuntimeEventBus

end AgentGraph.Events
