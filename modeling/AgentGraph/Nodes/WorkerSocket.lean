import AgentGraph.Nodes.Service

/-! # The loop of a worker socket

Each turn of `_serve_worker_socket` races a receive against a `get` of the command queue,
cancels the loser and looks at what the finished tasks hold, in any order. A cancelled
`get` or receive takes nothing. Other tasks put commands on the queue and texts arrive at
any time.
-/
set_option autoImplicit false
namespace AgentGraph.Nodes.WorkerSocket
open Transition

/-- The value of a finished task. -/
inductive Value
  | text (raw : String)
  | message (message : ServerMessage)

namespace Value

def text? : Value → Option String
  | .text raw => some raw
  | .message _ => none

def message? : Value → Option ServerMessage
  | .text _ => none
  | .message command => some command

end Value

/-- `isinstance(value, (WorkerRegistered, TaskRequest))`. -/
def dispatched : ServerMessage → Bool
  | .registered _ _ | .taskRequest _ _ => true
  | .taskCancel _ => false

inductive Phase
  /-- In `asyncio.wait`, with the values of the tasks that have finished. -/
  | racing (received : Option String) (taken : Option ServerMessage)
  /-- In the loop over the finished tasks. -/
  | processing (values : List Value)
  | closed

structure Loop where
  queue : List ServerMessage
  /-- The texts that have arrived and were not received. -/
  inbox : List String
  phase : Phase
  sent : List ServerMessage
  handled : List String

def initial : Loop := ⟨[],[],.racing none none,[],[]⟩

/-- What the loop does by itself. -/
inductive Turn
  | receive
  | take
  /-- `asyncio.wait` returns; its set of finished tasks has no order. -/
  | wake (swap : Bool)
  | process

inductive Label
  | put (message : ServerMessage)
  | arrive (raw : String)
  | turn (turn : Turn)
  /-- `_handle` raises, and the socket is closed. -/
  | reject

/-- The finished tasks in the order of the loop. -/
def results (swap : Bool) (received : Option String) (taken : Option ServerMessage) : List Value :=
  let values := (received.map Value.text).toList ++ (taken.map Value.message).toList
  if swap then values.reverse else values

/-- The next finished task, or the next turn. -/
def after : List Value → Phase
  | [] => .racing none none
  | values => .processing values

def turn : Turn → Loop → Option Loop
  | .receive, s =>
    match s.phase, s.inbox with
    | .racing none taken, raw :: rest => some { s with inbox := rest, phase := .racing (some raw) taken }
    | _, _ => none
  | .take, s =>
    match s.phase, s.queue with
    | .racing received none, message :: rest => some { s with queue := rest, phase := .racing received (some message) }
    | _, _ => none
  | .wake swap, s =>
    match s.phase with
    | .racing none none => none
    | .racing received taken => some { s with phase := .processing (results swap received taken) }
    | _ => none
  | .process, s =>
    match s.phase with
    | .processing (.text raw :: values) => some { s with phase := after values, handled := s.handled ++ [raw] }
    | .processing (.message message :: values) =>
      some { s with
        phase := after values
        sent := if dispatched message then s.sent ++ [message] else s.sent }
    | _ => none

def step : Label → Loop → Option Loop
  | .put message, s => some { s with queue := s.queue ++ [message] }
  | .arrive raw, s => some { s with inbox := s.inbox ++ [raw] }
  | .turn o, s => turn o s
  | .reject, s =>
    match s.phase with
    | .processing (.text _ :: _) => some { s with phase := .closed }
    | _ => none

/-- The commands that were put on the queue. -/
def puts (ls : List Label) : List ServerMessage :=
  ls.filterMap fun l => match l with
    | .put message => some message
    | _ => none

/-- The texts that arrived. -/
def arrivals (ls : List Label) : List String :=
  ls.filterMap fun l => match l with
    | .arrive raw => some raw
    | _ => none

/-- Commands go out and texts are handled in their order and once, and the loop left to
itself stops after a bounded number of steps with all of them through. -/
structure Delivers (ls : List Label) (t : Loop) : Prop where
  sentInOrder : t.sent <+: puts ls
  handledInOrder : t.handled <+: arrivals ls
  finishes : ∃ bound, ∀ us u, exec turn us t = some u →
    us.length ≤ bound ∧ ((∀ o, turn o u = none) → u.sent = puts ls ∧ u.handled = arrivals ls)

namespace Phase

/-- The texts of the turn that are not handled yet. -/
def texts : Phase → List String
  | .racing received _ => received.toList
  | .processing values => values.filterMap Value.text?
  | .closed => []

/-- The commands of the turn that are not looked at yet. -/
def messages : Phase → List ServerMessage
  | .racing _ taken => taken.toList
  | .processing values => values.filterMap Value.message?
  | .closed => []

/-- The steps the turn still takes. -/
def weight : Phase → Nat
  | .racing received taken => 2 * (received.toList.length + taken.toList.length)
  | .processing values => 2 * values.length - 1
  | .closed => 0

/-- A loop over finished tasks has one left. -/
def Open : Phase → Prop
  | .racing _ _ => True
  | .processing values => values ≠ []
  | .closed => False

end Phase

/-- How many steps the loop can take by itself. -/
def measure (s : Loop) : Nat := 3 * (s.queue.length + s.inbox.length) + s.phase.weight

/-- Every text and every command that is sent at all is in one place. -/
structure Accounted (ls : List Label) (s : Loop) : Prop where
  phase : s.phase.Open
  texts : s.handled ++ s.phase.texts ++ s.inbox = arrivals ls
  messages : s.sent ++ (s.phase.messages ++ s.queue).filter dispatched = (puts ls).filter dispatched

@[simp] theorem texts_racing (received : Option String) (taken : Option ServerMessage) :
    (Phase.racing received taken).texts = received.toList := rfl
@[simp] theorem texts_processing (values : List Value) :
    (Phase.processing values).texts = values.filterMap Value.text? := rfl
@[simp] theorem messages_racing (received : Option String) (taken : Option ServerMessage) :
    (Phase.racing received taken).messages = taken.toList := rfl
@[simp] theorem messages_processing (values : List Value) :
    (Phase.processing values).messages = values.filterMap Value.message? := rfl

@[simp] theorem filterMap_message?_text (raw : String) (values : List Value) :
    (Value.text raw :: values).filterMap Value.message? = values.filterMap Value.message? := rfl
@[simp] theorem filterMap_text?_message (message : ServerMessage) (values : List Value) :
    (Value.message message :: values).filterMap Value.text? = values.filterMap Value.text? := rfl

@[simp] theorem texts_after (values : List Value) : (after values).texts = values.filterMap Value.text? := by
  cases values <;> rfl

@[simp] theorem messages_after (values : List Value) :
    (after values).messages = values.filterMap Value.message? := by
  cases values <;> rfl

theorem open_after (values : List Value) : (after values).Open := by
  cases values <;> simp [after, Phase.Open]

theorem weight_after (values : List Value) : (after values).weight = 2 * values.length - 1 := by
  cases values <;> simp [after, Phase.weight]

@[simp] theorem texts_results (swap : Bool) (received : Option String) (taken : Option ServerMessage) :
    (results swap received taken).filterMap Value.text? = received.toList := by
  cases swap <;> cases received <;> cases taken <;> rfl

@[simp] theorem messages_results (swap : Bool) (received : Option String) (taken : Option ServerMessage) :
    (results swap received taken).filterMap Value.message? = taken.toList := by
  cases swap <;> cases received <;> cases taken <;> rfl

theorem length_results (swap : Bool) (received : Option String) (taken : Option ServerMessage) :
    (results swap received taken).length = received.toList.length + taken.toList.length := by
  cases swap <;> cases received <;> cases taken <;> rfl

theorem filter_dispatched_cons (message : ServerMessage) (rest : List ServerMessage) :
    (message :: rest).filter dispatched = (if dispatched message then [message] else []) ++ rest.filter dispatched := by
  rw [List.filter_cons]
  split <;> rfl

section Turns
variable {s t : Loop} {o : Turn}

/-- What each step of the loop does. -/
theorem turn_cases (h : turn o s = some t) :
    (∃ taken raw rest, s.phase = .racing none taken ∧ s.inbox = raw :: rest ∧
      t = { s with inbox := rest, phase := .racing (some raw) taken }) ∨
    (∃ received message rest, s.phase = .racing received none ∧ s.queue = message :: rest ∧
      t = { s with queue := rest, phase := .racing received (some message) }) ∨
    (∃ swap received taken, s.phase = .racing received taken ∧ (received ≠ none ∨ taken ≠ none) ∧
      t = { s with phase := .processing (results swap received taken) }) ∨
    (∃ raw values, s.phase = .processing (.text raw :: values) ∧
      t = { s with phase := after values, handled := s.handled ++ [raw] }) ∨
    (∃ message values, s.phase = .processing (.message message :: values) ∧
      t = { s with phase := after values, sent := if dispatched message then s.sent ++ [message] else s.sent }) := by
  cases o with
  | receive =>
    simp only [turn] at h
    split at h
    · rename_i taken raw rest hphase hinbox
      exact .inl ⟨taken,raw,rest,hphase,hinbox,(Option.some.inj h).symm⟩
    · cases h
  | take =>
    simp only [turn] at h
    split at h
    · rename_i received message rest hphase hqueue
      exact .inr (.inl ⟨received,message,rest,hphase,hqueue,(Option.some.inj h).symm⟩)
    · cases h
  | wake swap =>
    simp only [turn] at h
    split at h
    · cases h
    · rename_i received taken hempty hphase
      refine .inr (.inr (.inl ⟨swap,received,taken,hphase,?_,(Option.some.inj h).symm⟩))
      by_contra hnone
      simp only [ne_eq, not_or, not_not] at hnone
      exact hempty hnone.1 hnone.2
    · cases h
  | process =>
    simp only [turn] at h
    split at h
    · rename_i raw values hphase
      exact .inr (.inr (.inr (.inl ⟨raw,values,hphase,(Option.some.inj h).symm⟩)))
    · rename_i message values hphase
      exact .inr (.inr (.inr (.inr ⟨message,values,hphase,(Option.some.inj h).symm⟩)))
    · cases h

/-- The loop loses no text, and of the commands only those it does not dispatch. -/
theorem Accounted.turn {ls : List Label} (h : Accounted ls s) (ht : turn o s = some t) : Accounted ls t := by
  obtain ⟨hopen,htexts,hmessages⟩ := h
  rcases turn_cases ht with ⟨taken,raw,rest,hphase,hinbox,rfl⟩ | ⟨received,message,rest,hphase,hqueue,rfl⟩ |
    ⟨swap,received,taken,hphase,hsome,rfl⟩ | ⟨raw,values,hphase,rfl⟩ | ⟨message,values,hphase,rfl⟩
  · rw [hphase] at htexts hmessages
    rw [hinbox] at htexts
    exact ⟨trivial,by simpa using htexts,hmessages⟩
  · rw [hphase] at htexts hmessages
    rw [hqueue] at hmessages
    exact ⟨trivial,htexts,by simpa using hmessages⟩
  · rw [hphase] at htexts hmessages
    refine ⟨?_,by simpa using htexts,by simpa using hmessages⟩
    apply List.ne_nil_of_length_pos
    rw [length_results]
    cases received <;> cases taken <;> simp at hsome ⊢
  · rw [hphase] at htexts hmessages
    refine ⟨open_after values,?_,by simpa using hmessages⟩
    simpa [Value.text?] using htexts
  · rw [hphase] at htexts hmessages
    refine ⟨open_after values,by simpa using htexts,?_⟩
    rw [← hmessages]
    simp only [messages_processing, Value.message?, List.filterMap_cons, messages_after, List.cons_append,
      filter_dispatched_cons]
    cases dispatched message <;> simp

theorem measure_turn (ht : turn o s = some t) : measure t < measure s := by
  rcases turn_cases ht with ⟨taken,raw,rest,hphase,hinbox,rfl⟩ | ⟨received,message,rest,hphase,hqueue,rfl⟩ |
    ⟨swap,received,taken,hphase,hsome,rfl⟩ | ⟨raw,values,hphase,rfl⟩ | ⟨message,values,hphase,rfl⟩
  · simp only [measure, hphase, hinbox, Phase.weight, List.length_cons, Option.toList_some, Option.toList_none,
      List.length_nil]
    omega
  · simp only [measure, hphase, hqueue, Phase.weight, List.length_cons, Option.toList_some, Option.toList_none,
      List.length_nil]
    omega
  · have hpos : 0 < received.toList.length + taken.toList.length := by
      cases received <;> cases taken <;> simp at hsome ⊢
    simp only [measure, hphase, Phase.weight, length_results]
    omega
  · simp only [measure, hphase, weight_after]
    simp only [Phase.weight, List.length_cons]
    omega
  · simp only [measure, hphase, weight_after]
    simp only [Phase.weight, List.length_cons]
    omega

/-- A loop that is not closed stops only with nothing left to do. -/
theorem quiet_empty (hopen : s.phase.Open) (hquiet : ∀ o, turn o s = none) :
    s.phase.texts = [] ∧ s.inbox = [] ∧ s.phase.messages = [] ∧ s.queue = [] := by
  cases hphase : s.phase with
  | racing received taken =>
    have hwake := hquiet (.wake false)
    have hreceive := hquiet .receive
    have htake := hquiet .take
    simp only [turn, hphase] at hwake hreceive htake
    cases received with
    | some raw => cases taken <;> cases hwake
    | none =>
      cases taken with
      | some message => cases hwake
      | none =>
        cases hinbox : s.inbox with
        | cons raw rest =>
          rw [hinbox] at hreceive
          cases hreceive
        | nil =>
          cases hqueue : s.queue with
          | cons message rest =>
            rw [hqueue] at htake
            cases htake
          | nil => exact ⟨rfl,rfl,rfl,rfl⟩
  | processing values =>
    rw [hphase] at hopen
    have hprocess := hquiet .process
    simp only [turn, hphase] at hprocess
    cases values with
    | nil => exact absurd rfl hopen
    | cons value values => cases value <;> cases hprocess
  | closed =>
    rw [hphase] at hopen
    exact hopen.elim

end Turns

theorem puts_append (ls ls' : List Label) : puts (ls ++ ls') = puts ls ++ puts ls' := List.filterMap_append
theorem arrivals_append (ls ls' : List Label) : arrivals (ls ++ ls') = arrivals ls ++ arrivals ls' :=
  List.filterMap_append

/-- Along every run in which no text is rejected everything is accounted for. -/
theorem exec_accounted {ls : List Label} {t : Loop} (run : exec step ls initial = some t) (accepted : .reject ∉ ls) :
    Accounted ls t := by
  have hall : .reject ∉ ls → Accounted ls t := by
    refine exec_induction (P := fun ls t => .reject ∉ ls → Accounted ls t) ?_ ?_ run
    · intro _
      exact ⟨trivial,rfl,rfl⟩
    · intro ls l s t _ ih ht hreject
      simp only [List.mem_append, List.mem_singleton, not_or] at hreject
      obtain ⟨hopen,htexts,hmessages⟩ := ih hreject.1
      cases l with
      | put message =>
        obtain rfl := Option.some.inj ht
        have hputs : puts [.put message] = [message] := rfl
        have harrivals : arrivals [.put message] = [] := rfl
        refine ⟨hopen,by rw [arrivals_append, harrivals, List.append_nil, htexts],?_⟩
        rw [puts_append, hputs, List.filter_append (puts ls), ← hmessages]
        simp [List.filter_append]
      | arrive raw =>
        obtain rfl := Option.some.inj ht
        have hputs : puts [.arrive raw] = [] := rfl
        have harrivals : arrivals [.arrive raw] = [raw] := rfl
        refine ⟨hopen,?_,by rw [puts_append, hputs, List.append_nil, hmessages]⟩
        rw [arrivals_append, harrivals, ← htexts]
        simp
      | turn o =>
        have hturn := Accounted.turn ⟨hopen,htexts,hmessages⟩ ht
        have hputs : puts [.turn o] = [] := rfl
        have harrivals : arrivals [.turn o] = [] := rfl
        refine ⟨hturn.phase,?_,?_⟩
        · rw [arrivals_append, harrivals, List.append_nil, hturn.texts]
        · rw [puts_append, hputs, List.append_nil, hturn.messages]
      | reject => exact absurd rfl hreject.2
  exact hall accepted

theorem exec_turn_accounted {ls : List Label} {us : List Turn} {t u : Loop} (h : Accounted ls t)
    (hu : exec turn us t = some u) : Accounted ls u :=
  exec_induction (P := fun _ u => Accounted ls u) h (fun _ _ _ _ _ ih ht => ih.turn ht) hu

/-- Left to itself the loop takes a bounded number of steps, and some of its runs stop. -/
theorem exec_turn_bounded {us : List Turn} {t u : Loop} (hu : exec turn us t = some u) : us.length ≤ measure t := by
  have hbound := exec_length_le (I := fun _ => True) measure (fun _ _ _ _ _ => trivial)
    (fun _ _ _ _ ht => measure_turn ht) trivial hu
  omega

theorem exists_quiet (t : Loop) : ∃ us u, exec turn us t = some u ∧ ∀ o, turn o u = none := by
  induction hm : measure t using Nat.strong_induction_on generalizing t with
  | _ m ih =>
    subst hm
    by_cases hquiet : ∀ o, turn o t = none
    · exact ⟨[],t,rfl,hquiet⟩
    · obtain ⟨o,ho⟩ := not_forall.mp hquiet
      obtain ⟨v,hv⟩ := Option.ne_none_iff_exists'.mp ho
      obtain ⟨us,u,hu,hdone⟩ := ih (measure v) (measure_turn hv) v rfl
      exact ⟨o :: us,u,by simp [exec, hv, hu],hdone⟩

/-- What has gone out when the loop has nothing left to do. -/
theorem quiet_sent {ls : List Label} {u : Loop} (h : Accounted ls u) (hquiet : ∀ o, turn o u = none) :
    u.sent = (puts ls).filter dispatched ∧ u.handled = arrivals ls := by
  obtain ⟨htexts,hinbox,hmessages,hqueue⟩ := quiet_empty h.phase hquiet
  have hleft := h.messages
  have hright := h.texts
  rw [hmessages, hqueue] at hleft
  rw [htexts, hinbox] at hright
  exact ⟨by simpa using hleft,by simpa using hright⟩

/-- In a run whose texts are accepted every command and every text gets through, in order
and once, exactly when no `TaskCancel` is put on the queue. -/
theorem delivers_iff (ls : List Label) (t : Loop) (run : exec step ls initial = some t) (accepted : .reject ∉ ls) :
    Delivers ls t ↔ ∀ message ∈ puts ls, dispatched message = true := by
  have hacc := exec_accounted run accepted
  constructor
  · rintro ⟨-,-,bound,hfinish⟩
    obtain ⟨us,u,hu,hquiet⟩ := exists_quiet t
    have hsent := ((hfinish us u hu).2 hquiet).1
    rw [(quiet_sent (exec_turn_accounted hacc hu) hquiet).1] at hsent
    exact List.filter_eq_self.mp hsent
  · intro hall
    have hputs : (puts ls).filter dispatched = puts ls := List.filter_eq_self.mpr hall
    refine ⟨⟨_,by rw [hacc.messages, hputs]⟩,⟨_,by rw [← List.append_assoc, hacc.texts]⟩,measure t,?_⟩
    intro us u hu
    refine ⟨exec_turn_bounded hu,fun hquiet => ?_⟩
    have hsent := quiet_sent (exec_turn_accounted hacc hu) hquiet
    rwa [hputs] at hsent

/-- A turn that takes one command from the queue and looks at it. -/
def takeOne : List Label := [.turn .take,.turn (.wake false),.turn .process]

/-- The command of a timed out probe is taken from the queue and not sent. -/
theorem delivers_not_cancel :
    let ls := [.put (.taskRequest "task-0001" 5000)] ++ takeOne ++ [.put (.taskCancel "task-0001")] ++ takeOne
    ∃ t, exec step ls initial = some t ∧ t.queue = [] ∧ t.sent = [.taskRequest "task-0001" 5000] ∧
      (∀ o, turn o t = none) ∧ ¬ Delivers ls t := by
  intro ls
  have hquiet : ∀ o, turn o ⟨[],[],.racing none none,[.taskRequest "task-0001" 5000],[]⟩ = none := by
    intro o
    cases o <;> rfl
  refine ⟨_,rfl,rfl,rfl,hquiet,fun h => ?_⟩
  obtain ⟨bound,hfinish⟩ := h.finishes
  have hsent := ((hfinish [] _ rfl).2 hquiet).1
  exact absurd hsent (by decide)

/-- A command and a text that finish together. -/
theorem delivers_both :
    let ls := [.put (.taskRequest "task-0001" 5000),.arrive "heartbeat",.turn .take,.turn .receive,.turn (.wake true)]
    Delivers ls (Transition.after step ls initial rfl) ↔ ∀ message ∈ puts ls, dispatched message = true :=
  delivers_iff _ _ (exec_after rfl) (by simp)

/-- One turn of the loop makes of a queue and what was sent what `deliver` makes of them. -/
theorem turn_deliver {settings : Settings} {s s' : NodeService} {i : TaskRef} {n : NodeId} {m : NodeId} {r : SessionRef}
    {sent : List ServerMessage} {loop : Loop} (htask : s.tasks i = some ⟨.serving n,some (m,r),sent⟩)
    (hphase : loop.phase = .racing none none) (hqueue : loop.queue = (s.sessions r).queue) (hsent : loop.sent = sent)
    (h : s.step settings (.deliver i) = some s') :
    ∃ loop', exec turn [.take,.wake false,.process] loop = some loop' ∧ loop'.phase = .racing none none ∧
      loop'.queue = (s'.sessions r).queue ∧ (s'.tasks i).map Task.sent = some loop'.sent := by
  simp only [NodeService.step, htask] at h
  cases hq : (s.sessions r).queue with
  | nil =>
    rw [hq] at h
    cases h
  | cons message rest =>
    rw [hq] at h hqueue
    obtain rfl := Option.some.inj h
    subst hsent
    refine ⟨{ loop with
      queue := rest
      sent := if dispatched message then loop.sent ++ [message] else loop.sent },?_,hphase,?_,?_⟩
    · simp [exec, turn, hphase, hqueue, results, after]
    · simp [NodeService.updateTask, NodeService.updateSession]
    · cases message <;> simp [NodeService.updateTask, NodeService.updateSession, htask, dispatched]

end AgentGraph.Nodes.WorkerSocket
