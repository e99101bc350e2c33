import AgentGraph.Foundation.Transition
import Mathlib.Algebra.GroupWithZero.Nat
import Mathlib.Data.List.Basic

/-! # The event client of the browser

`EventClient` of `events.ts` with the sockets and the timers that the browser keeps for it.
Each callback runs to its end; a socket closes once, and has no message for a client that has
begun to close it.
-/
set_option autoImplicit false
namespace AgentGraph.Browser

/-- `readyState` of a `WebSocket`. -/
inductive ReadyState
  | connecting | «open» | closing | closed
deriving DecidableEq

inductive ConnectionState
  | connected | reconnecting | disconnected
deriving DecidableEq

/-- A timer that is set, by its number. -/
structure Timer where
  id : Nat
  delay : Nat

/-- The sockets are numbered as the client has made them; `state` is what it has reported last. -/
structure EventClient where
  socket : Option Nat
  retryTimer : Option Nat
  stopped : Bool
  attempts : Nat
  state : ConnectionState
  sockets : List ReadyState
  timers : List Timer
  timerCount : Nat

/-- What happens to a client after `connect`. -/
inductive ClientLabel
  | opened (i : Nat)
  | message (i : Nat)
  | closed (i : Nat) (code : Nat)
  | error (i : Nat)
  | elapsed (timer : Nat)
  | disconnect

/-- `close()` of a socket. -/
def ReadyState.close : ReadyState → ReadyState
  | .connecting | .open => .closing
  | state => state

/-- The close code of a policy violation. -/
def policyViolation : Nat := 1008

/-- The delay before the attempt of this number. -/
def retryDelay (attempts : Nat) : Nat := min 30000 (1000 * 2 ^ min attempts 5)

namespace EventClient

/-- `open`. -/
def openSocket (client : EventClient) : EventClient :=
  { client with
    state := .reconnecting
    socket := some client.sockets.length
    sockets := client.sockets ++ [.connecting] }

/-- The constructor and `connect`. -/
def connect : EventClient := openSocket ⟨none,none,false,0,.disconnected,[],[],0⟩

def setSocket (client : EventClient) (i : Nat) (state : ReadyState) : EventClient :=
  { client with sockets := client.sockets.set i state }

/-- `this.socket?.close()`. -/
def closeSocket (client : EventClient) : EventClient :=
  match client.socket with
  | none => client
  | some i => { client with sockets := client.sockets.modify i ReadyState.close }

def reconnect (client : EventClient) : EventClient :=
  { client with
    state := .reconnecting
    attempts := client.attempts + 1
    timers := client.timers ++ [⟨client.timerCount,retryDelay (client.attempts + 1)⟩]
    retryTimer := some client.timerCount
    timerCount := client.timerCount + 1 }

def clearTimer (client : EventClient) : EventClient :=
  match client.retryTimer with
  | none => client
  | some id => { client with timers := client.timers.filter fun timer => timer.id ≠ id }

def disconnect (client : EventClient) : EventClient :=
  { ({ client with stopped := true }.clearTimer).closeSocket with state := .disconnected }

def onclose (client : EventClient) (code : Nat) : EventClient :=
  let retried := if !client.stopped && code != policyViolation then client.reconnect else client
  if code = policyViolation then { retried with state := .disconnected } else retried

def step (l : ClientLabel) (client : EventClient) : Option EventClient :=
  match l with
  | .opened i =>
    if client.sockets[i]? = some .connecting then
      some { client.setSocket i .open with attempts := 0, state := .connected }
    else none
  -- the event goes to `onEvent`
  | .message i => if client.sockets[i]? = some .open then some client else none
  | .closed i code =>
    match client.sockets[i]? with
    | none | some .closed => none
    | some _ => some ((client.setSocket i .closed).onclose code)
  | .error i =>
    match client.sockets[i]? with
    | none | some .closed => none
    | some _ => some client.closeSocket
  | .elapsed id =>
    if client.timers.any fun timer => timer.id == id then
      some { client with timers := client.timers.filter fun timer => timer.id ≠ id }.openSocket
    else none
  | .disconnect => some client.disconnect

/-- Where a client is in its life: its last socket, the timers that are set, and what it has reported. -/
inductive Condition (client : EventClient) (last : ReadyState) : Prop
  | dialling (socket : last = .connecting) (timers : client.timers = []) (running : client.stopped = false)
      (state : client.state = .reconnecting)
  | live (socket : last = .open) (timers : client.timers = []) (running : client.stopped = false)
      (state : client.state = .connected)
  /-- A socket has failed, and is about to close. -/
  | failing (socket : last = .closing) (timers : client.timers = []) (running : client.stopped = false)
      (state : client.state ≠ .disconnected)
  | waiting (timer : Timer) (socket : last = .closed) (timers : client.timers = [timer])
      (retry : client.retryTimer = some timer.id) (delay : timer.delay = retryDelay client.attempts)
      (attempted : 0 < client.attempts) (running : client.stopped = false) (state : client.state = .reconnecting)
  /-- The server has refused the client. -/
  | refused (socket : last = .closed) (timers : client.timers = []) (running : client.stopped = false)
      (state : client.state = .disconnected)
  | stopped (socket : last = .closing ∨ last = .closed) (timers : client.timers = []) (stopped : client.stopped = true)
      (state : client.state = .disconnected)

/-- All sockets but the last have closed. -/
def Chain (client : EventClient) (last : ReadyState) : Prop :=
  ∃ earlier, client.sockets = earlier ++ [last] ∧ (∀ state ∈ earlier, state = .closed) ∧ client.socket = some earlier.length

structure Orderly (client : EventClient) (last : ReadyState) : Prop where
  chain : client.Chain last
  condition : client.Condition last

variable {client t u : EventClient} {last new state : ReadyState} {l : ClientLabel} {i : Nat}

theorem retryDelay_bounds {attempts : Nat} (h : 0 < attempts) : 2000 ≤ retryDelay attempts ∧ retryDelay attempts ≤ 30000 := by
  have hpow : 2 ^ 1 ≤ 2 ^ min attempts 5 := Nat.pow_le_pow_right (by decide) (by omega)
  unfold retryDelay
  omega

/-- A socket that has not closed is the last one. -/
theorem Chain.lookup (h : client.Chain last) (hi : client.sockets[i]? = some state) (hopen : state ≠ .closed) :
    state = last ∧ client.socket = some i := by
  obtain ⟨earlier,hsockets,hclosed,hsocket⟩ := h
  rw [hsockets] at hi
  obtain hlt | hge := Nat.lt_or_ge i earlier.length
  · rw [List.getElem?_append_left hlt] at hi
    exact absurd (hclosed state (List.mem_of_getElem? hi)) hopen
  · rw [List.getElem?_append_right hge] at hi
    have hlt : i - earlier.length < [last].length := (List.getElem?_eq_some_iff.mp hi).1
    have hzero : i - earlier.length = 0 := by simpa using hlt
    have heq : earlier.length = i := by omega
    rw [hzero] at hi
    exact ⟨(Option.some.inj hi).symm,by rw [hsocket, heq]⟩

/-- The last socket takes another state. -/
theorem Chain.set (h : client.Chain last) (hsocket : client.socket = some i) (new : ReadyState) :
    (client.setSocket i new).Chain new := by
  obtain ⟨earlier,heq,hclosed,hsocket'⟩ := h
  obtain rfl : earlier.length = i := Option.some.inj (hsocket'.symm.trans hsocket)
  refine ⟨earlier,?_,hclosed,hsocket'⟩
  simp [setSocket, heq]

theorem Chain.of_eq (h : client.Chain last) (hsockets : u.sockets = client.sockets) (hsocket : u.socket = client.socket) :
    u.Chain last := by
  obtain ⟨earlier,heq,hclosed,hlast⟩ := h
  exact ⟨earlier,hsockets.trans heq,hclosed,hsocket.trans hlast⟩

theorem Chain.closeSocket (h : client.Chain last) : client.closeSocket.Chain last.close := by
  obtain ⟨earlier,heq,hclosed,hsocket⟩ := h
  refine ⟨earlier,?_,hclosed,?_⟩
  · unfold EventClient.closeSocket
    rw [hsocket, heq]
    have hmodify : ∀ states : List ReadyState,
        (states ++ [last]).modify states.length ReadyState.close = states ++ [last.close] := by
      intro states
      induction states with
      | nil => rfl
      | cons first rest ih => simp [ih]
    exact hmodify earlier
  · unfold EventClient.closeSocket
    rw [hsocket]

/-- A new socket is made after the last one has closed. -/
theorem Chain.openSocket (h : client.Chain .closed) : client.openSocket.Chain .connecting := by
  obtain ⟨earlier,heq,hclosed,-⟩ := h
  refine ⟨client.sockets,rfl,fun state hstate => ?_,rfl⟩
  rw [heq] at hstate
  obtain hmem | hmem := List.mem_append.mp hstate
  · exact hclosed state hmem
  · exact List.mem_singleton.mp hmem

/-- A running client has no timer while its last socket has not closed, and a stopped one none at all. -/
theorem Condition.timers (h : client.Condition last) (hidle : last ≠ .closed ∨ client.stopped = true) : client.timers = [] := by
  cases h with
  | waiting timer socket timers retry delay attempted running =>
    obtain hidle | hidle := hidle
    · exact absurd socket hidle
    · rw [running] at hidle
      cases hidle
  | dialling _ timers | live _ timers | failing _ timers | refused _ timers | stopped _ timers => exact timers

theorem Condition.reported (h : client.Condition last) (hs : client.stopped = true) : client.state = .disconnected := by
  cases h with
  | stopped _ _ _ state => exact state
  | dialling _ _ running | live _ _ running | failing _ _ running | waiting _ _ _ _ _ _ running | refused _ _ running =>
    rw [hs] at running
    cases running

theorem Orderly.closed (h : client.Orderly last) (hsocket : client.socket = some i) (hlast : last ≠ .closed) (code : Nat) :
    ((client.setSocket i .closed).onclose code).Orderly .closed := by
  have hchain := h.chain.set hsocket .closed
  have htimers := h.condition.timers (.inl hlast)
  unfold onclose
  by_cases hcode : code = policyViolation
  · subst hcode
    have hnot : (!(client.setSocket i .closed).stopped && policyViolation != policyViolation) = false := by simp
    rw [hnot, if_pos rfl]
    refine ⟨hchain.of_eq rfl rfl,?_⟩
    cases hs : client.stopped with
    | true => exact .stopped (.inr rfl) htimers hs rfl
    | false => exact .refused rfl htimers hs rfl
  · rw [if_neg hcode]
    cases hs : client.stopped with
    | true =>
      have hnot : (!(client.setSocket i .closed).stopped && code != policyViolation) = false := by simp [setSocket, hs]
      rw [hnot]
      exact ⟨hchain,.stopped (.inr rfl) htimers hs (h.condition.reported hs)⟩
    | false =>
      have hretry : (!(client.setSocket i .closed).stopped && code != policyViolation) = true := by
        simpa [setSocket, hs] using hcode
      rw [hretry]
      refine ⟨hchain.of_eq rfl rfl,.waiting ⟨client.timerCount,retryDelay (client.attempts + 1)⟩ rfl ?_ rfl rfl
        (Nat.succ_pos _) hs rfl⟩
      simp [reconnect, setSocket, htimers]

theorem clearTimer_eq (h : client.Condition last) : ({ client with stopped := true } : EventClient).clearTimer =
    { client with stopped := true, timers := [] } := by
  unfold clearTimer
  cases h with
  | waiting timer _ timers retry =>
    simp only [retry, timers]
    simp
  | dialling _ timers | live _ timers | failing _ timers | refused _ timers | stopped _ timers => split <;> simp [timers]

theorem ReadyState.close_cases (state : ReadyState) : state.close = .closing ∨ state.close = .closed := by
  cases state <;> simp [ReadyState.close]

theorem Orderly.disconnect (h : client.Orderly last) : client.disconnect.Orderly last.close := by
  unfold EventClient.disconnect
  rw [clearTimer_eq h.condition]
  have hchain : ({ client with stopped := true, timers := [] } : EventClient).Chain last := h.chain.of_eq rfl rfl
  refine ⟨hchain.closeSocket.of_eq rfl rfl,.stopped (ReadyState.close_cases last) ?_ ?_ rfl⟩
  · unfold closeSocket
    split <;> rfl
  · unfold closeSocket
    split <;> rfl

theorem Orderly.error (h : client.Orderly last) (hlast : last ≠ .closed) : client.closeSocket.Orderly last.close := by
  refine ⟨h.chain.closeSocket,?_⟩
  have hfields : client.closeSocket = { client with sockets := client.closeSocket.sockets } := by
    unfold closeSocket
    split <;> rfl
  rw [hfields]
  cases h.condition with
  | dialling socket timers running state =>
    subst socket
    exact .failing rfl timers running (by simp [state])
  | live socket timers running state =>
    subst socket
    exact .failing rfl timers running (by simp [state])
  | failing socket timers running state =>
    subst socket
    exact .failing rfl timers running state
  | waiting timer socket => exact absurd socket hlast
  | refused socket => exact absurd socket hlast
  | stopped socket timers stopped state => exact .stopped (ReadyState.close_cases last) timers stopped state

theorem connect_orderly : connect.Orderly .connecting := ⟨⟨[],rfl,by simp,rfl⟩,.dialling rfl rfl rfl rfl⟩

theorem Orderly.step (h : client.Orderly last) (ht : step l client = some t) : ∃ last', t.Orderly last' := by
  cases l with
  | opened i =>
    simp only [EventClient.step] at ht
    split at ht <;> cases ht
    next hi =>
      obtain ⟨rfl,hsocket⟩ := h.chain.lookup hi (by decide)
      have hcondition := h.condition
      have hrunning : client.stopped = false := by
        cases hcondition with
        | dialling _ _ running => exact running
        | stopped socket => simp at socket
        | live socket | failing socket | waiting _ socket | refused socket => cases socket
      exact ⟨.open,(h.chain.set hsocket .open).of_eq rfl rfl,
        .live rfl (hcondition.timers (.inl (by decide))) hrunning rfl⟩
  | message i =>
    simp only [EventClient.step] at ht
    split at ht <;> cases ht
    exact ⟨last,h⟩
  | closed i code =>
    simp only [EventClient.step] at ht
    split at ht
    · cases ht
    · cases ht
    next state hne hi =>
      cases ht
      obtain ⟨rfl,hsocket⟩ := h.chain.lookup hi hne
      exact ⟨.closed,h.closed hsocket hne code⟩
  | error i =>
    simp only [EventClient.step] at ht
    split at ht
    · cases ht
    · cases ht
    next state hne hi =>
      cases ht
      obtain ⟨rfl,-⟩ := h.chain.lookup hi hne
      exact ⟨_,h.error hne⟩
  | elapsed id =>
    simp only [EventClient.step] at ht
    split at ht <;> cases ht
    next hset =>
      refine ⟨.connecting,?_,?_⟩
      · cases h.condition with
        | waiting timer socket =>
          subst socket
          exact Chain.openSocket (h.chain.of_eq rfl rfl)
        | dialling _ timers | live _ timers | failing _ timers | refused _ timers | stopped _ timers => simp [timers] at hset
      · cases h.condition with
        | waiting timer socket timers retry delay attempted running =>
          have hid : timer.id = id := by simpa [timers] using hset
          exact .dialling rfl (by simp [openSocket, timers, hid]) running rfl
        | dialling _ timers | live _ timers | failing _ timers | refused _ timers | stopped _ timers => simp [timers] at hset
  | disconnect =>
    cases ht
    exact ⟨_,h.disconnect⟩

/-- Without a refusal only `disconnect` ends in this report. -/
theorem step_state (hl : ∀ i, l ≠ .closed i policyViolation) (hs : client.state = .disconnected → client.stopped = true)
    (ht : step l client = some t) : t.state = .disconnected → t.stopped = true := by
  cases l with
  | opened i =>
    simp only [step] at ht
    split at ht <;> cases ht
    intro h
    cases h
  | message i =>
    simp only [step] at ht
    split at ht <;> cases ht
    exact hs
  | closed i code =>
    have hcode : code ≠ policyViolation := fun h => hl i (by rw [h])
    simp only [step] at ht
    split at ht
    · cases ht
    · cases ht
    · cases ht
      unfold onclose
      rw [if_neg hcode]
      cases hstopped : client.stopped with
      | true =>
        intro _
        simp [setSocket, hstopped]
      | false =>
        intro h
        simp [setSocket, hstopped, hcode, reconnect] at h
  | error i =>
    simp only [step] at ht
    split at ht
    · cases ht
    · cases ht
    · cases ht
      unfold closeSocket
      split <;> exact hs
  | elapsed id =>
    simp only [step] at ht
    split at ht <;> cases ht
    intro h
    cases h
  | disconnect =>
    cases ht
    intro _
    unfold disconnect clearTimer closeSocket
    split <;> split <;> rfl

theorem step_stopped (hl : l ≠ .disconnect) (ht : step l client = some t) : t.stopped = client.stopped := by
  cases l with
  | disconnect => exact absurd rfl hl
  | opened i | message i | elapsed id =>
    simp only [step] at ht
    split at ht <;> cases ht
    rfl
  | closed i code =>
    simp only [step] at ht
    split at ht
    · cases ht
    · cases ht
    · cases ht
      unfold onclose
      dsimp only
      split <;> split <;> rfl
  | error i =>
    simp only [step] at ht
    split at ht
    · cases ht
    · cases ht
    · cases ht
      unfold closeSocket
      split <;> rfl

end EventClient

/-! ## The effect of the workspace -/

/-- The clients that the effect has made, the last one last; its cleanup has not run yet while it is mounted. -/
structure Clients where
  made : List EventClient
  mounted : Bool

inductive EffectLabel
  | mount
  | unmount
  | client (k : Nat) (l : ClientLabel)

namespace Clients
open Transition

def initial : Clients := ⟨[],false⟩

/-- The effect runs again only after its cleanup, and nothing else stops a client. -/
def step (l : EffectLabel) (c : Clients) : Option Clients :=
  match l with
  | .mount => if c.mounted then none else some ⟨c.made ++ [.connect],true⟩
  | .unmount =>
    if c.mounted then some ⟨c.made.modify (c.made.length - 1) EventClient.disconnect,false⟩ else none
  | .client _ .disconnect => none
  | .client k l =>
    match c.made[k]? with
    | none => none
    | some client => (client.step l).map fun client => { c with made := c.made.set k client }

/-- A client that is not the last one of a mounted effect has been stopped. -/
structure Orderly (c : Clients) : Prop where
  clients : ∀ client ∈ c.made, ∃ last, client.Orderly last
  stopped : ∀ k client, c.made[k]? = some client → (client.stopped = false ↔ c.mounted = true ∧ k + 1 = c.made.length)
  mounted : c.mounted = true → c.made ≠ []

variable {c t : Clients} {l : EffectLabel} {client : EventClient} {k : Nat}

theorem disconnect_stopped (client : EventClient) : client.disconnect.stopped = true := by
  unfold EventClient.disconnect EventClient.clearTimer EventClient.closeSocket
  split <;> split <;> rfl

theorem Orderly.mount (h : c.Orderly) (hidle : c.mounted = false) : (⟨c.made ++ [.connect],true⟩ : Clients).Orderly := by
  refine ⟨fun client hclient => ?_,fun k client hk => ?_,fun _ => by simp⟩
  · obtain hold | hnew := List.mem_append.mp hclient
    · exact h.clients client hold
    · rw [List.mem_singleton.mp hnew]
      exact ⟨_,EventClient.connect_orderly⟩
  · rw [List.length_append, List.length_singleton]
    obtain hlt | hge := Nat.lt_or_ge k c.made.length
    · rw [List.getElem?_append_left hlt] at hk
      have hold := h.stopped k client hk
      rw [hidle] at hold
      have hstopped : ¬client.stopped = false := fun hrunning => by simpa using hold.mp hrunning
      exact iff_of_false hstopped fun hnew => by omega
    · rw [List.getElem?_append_right hge] at hk
      have hlt : k - c.made.length < 1 := (List.getElem?_eq_some_iff.mp hk).1
      have hzero : k - c.made.length = 0 := by omega
      rw [hzero] at hk
      cases hk
      exact iff_of_true rfl ⟨rfl,by omega⟩

theorem Orderly.unmount (h : c.Orderly) :
    (⟨c.made.modify (c.made.length - 1) EventClient.disconnect,false⟩ : Clients).Orderly := by
  refine ⟨fun client hclient => ?_,fun k client hk => ?_,fun hm => by cases hm⟩
  · obtain ⟨k,hk⟩ := List.mem_iff_getElem?.mp hclient
    rw [List.getElem?_modify] at hk
    obtain ⟨old,hold,rfl⟩ := Option.map_eq_some_iff.mp hk
    obtain ⟨last,horderly⟩ := h.clients old (List.mem_of_getElem? hold)
    split
    · exact ⟨_,horderly.disconnect⟩
    · exact ⟨last,horderly⟩
  · rw [List.getElem?_modify] at hk
    obtain ⟨old,hold,rfl⟩ := Option.map_eq_some_iff.mp hk
    refine iff_of_false (fun hrunning => ?_) fun hm => by cases hm.1
    split at hrunning
    · rw [disconnect_stopped] at hrunning
      cases hrunning
    next hne =>
      -- another client has been stopped before
      obtain ⟨-,hlast⟩ := (h.stopped k old hold).mp hrunning
      exact hne (by omega)

theorem step_client {l : ClientLabel} (ht : Clients.step (.client k l) c = some t) : l ≠ .disconnect ∧
    ∃ client client', c.made[k]? = some client ∧ client.step l = some client' ∧
      t = { c with made := c.made.set k client' } := by
  have hl : l ≠ .disconnect := by
    rintro rfl
    cases ht
  have hstep : (match c.made[k]? with
      | none => none
      | some client => (client.step l).map fun client => { c with made := c.made.set k client }) = some t := by
    cases l <;> first | exact ht | exact absurd rfl hl
  split at hstep
  · cases hstep
  next client hk =>
    obtain ⟨client',hclient',rfl⟩ := Option.map_eq_some_iff.mp hstep
    exact ⟨hl,client,client',hk,hclient',rfl⟩

theorem Orderly.step (h : c.Orderly) (ht : Clients.step l c = some t) : t.Orderly := by
  cases l with
  | mount =>
    simp only [Clients.step] at ht
    split at ht <;> cases ht
    next hidle => exact h.mount (by simpa using hidle)
  | unmount =>
    simp only [Clients.step] at ht
    split at ht <;> cases ht
    exact h.unmount
  | client k l =>
    obtain ⟨hl,client,client',hk,hclient',rfl⟩ := step_client ht
    have hlt : k < c.made.length := (List.getElem?_eq_some_iff.mp hk).1
    obtain ⟨last,horderly⟩ := h.clients client (List.mem_of_getElem? hk)
    refine ⟨fun other hother => ?_,fun j other hj => ?_,fun hm hnil => h.mounted hm (by simpa using hnil)⟩
    · obtain hold | rfl := List.mem_or_eq_of_mem_set hother
      · exact h.clients other hold
      · exact horderly.step hclient'
    · rw [List.length_set]
      by_cases hjk : j = k
      · subst hjk
        rw [List.getElem?_set_self hlt] at hj
        cases hj
        rw [EventClient.step_stopped hl hclient']
        exact h.stopped j client hk
      · rw [List.getElem?_set_ne (Ne.symm hjk)] at hj
        exact h.stopped j other hj

theorem orderly_exec {ls : List EffectLabel} (h : exec Clients.step ls initial = some c) : c.Orderly :=
  exec_induction (P := fun _ c => c.Orderly)
    ⟨fun _ hmem => (by cases hmem),fun _ _ hk => (by simp [initial] at hk),fun hm => (by cases hm)⟩
    (fun _ _ _ _ _ ih ht => ih.step ht) h

/-- A client that reports that it is disconnected has been stopped or refused. -/
theorem disconnected_exec {ls : List EffectLabel} (h : exec Clients.step ls initial = some c) (hk : c.made[k]? = some client)
    (hstate : client.state = .disconnected) :
    client.stopped = true ∨ ∃ i, EffectLabel.client k (.closed i policyViolation) ∈ ls := by
  refine exec_induction (P := fun ls c => ∀ k client, c.made[k]? = some client → client.state = .disconnected →
    client.stopped = true ∨ ∃ i, EffectLabel.client k (.closed i policyViolation) ∈ ls)
    (fun _ _ hk => by simp [initial] at hk) (fun ls l c t _ ih ht k client hk hstate => ?_) h k client hk hstate
  have hkept : ∀ {old : EventClient}, c.made[k]? = some old → old.state = .disconnected →
      old.stopped = true ∨ ∃ i, EffectLabel.client k (.closed i policyViolation) ∈ ls ++ [l] := by
    intro old hold hs
    obtain hstopped | ⟨i,hi⟩ := ih k old hold hs
    · exact .inl hstopped
    · exact .inr ⟨i,List.mem_append_left _ hi⟩
  cases l with
  | mount =>
    simp only [step] at ht
    split at ht <;> cases ht
    obtain hlt | hge := Nat.lt_or_ge k c.made.length
    · rw [List.getElem?_append_left hlt] at hk
      exact hkept hk hstate
    · rw [List.getElem?_append_right hge] at hk
      have hmem := List.mem_of_getElem? hk
      rw [List.mem_singleton] at hmem
      rw [hmem] at hstate
      cases hstate
  | unmount =>
    simp only [step] at ht
    split at ht <;> cases ht
    rw [List.getElem?_modify] at hk
    obtain ⟨old,hold,rfl⟩ := Option.map_eq_some_iff.mp hk
    by_cases hlast : c.made.length - 1 = k
    · rw [if_pos hlast]
      exact .inl (disconnect_stopped old)
    · rw [if_neg hlast] at hstate ⊢
      exact hkept hold hstate
  | client j l =>
    obtain ⟨-,old,new,hold,hnew,rfl⟩ := step_client ht
    by_cases hjk : k = j
    · subst hjk
      rw [List.getElem?_set_self (List.getElem?_eq_some_iff.mp hold).1] at hk
      cases hk
      by_cases hrefused : ∃ i, l = .closed i policyViolation
      · obtain ⟨i,rfl⟩ := hrefused
        exact .inr ⟨i,by simp⟩
      · by_cases hbefore : old.state = .disconnected → old.stopped = true
        · exact .inl (EventClient.step_state (fun i hi => hrefused ⟨i,hi⟩) hbefore hnew hstate)
        · obtain ⟨hs,hrunning⟩ := Classical.not_imp.mp hbefore
          exact (hkept hold hs).imp (fun hstopped => absurd hstopped hrunning) id
    · rw [List.getElem?_set_ne (Ne.symm hjk)] at hk
      exact hkept hk hstate

end Clients

open Transition in
/-- Whatever the effect, the sockets and the timers do: one socket at most can bring events, and one
timer at most is set, both of the last client of a mounted effect and never together; and while it
is mounted, this client has a socket or a timer unless the server has refused it. -/
theorem one_connection {ls : List EffectLabel} {c : Clients} (h : exec Clients.step ls .initial = some c) :
    (∀ k client i state, c.made[k]? = some client → client.sockets[i]? = some state → state = .connecting ∨ state = .open →
      c.mounted = true ∧ k + 1 = c.made.length ∧ client.socket = some i ∧ client.timers = []) ∧
    (∀ k client timer, c.made[k]? = some client → timer ∈ client.timers →
      c.mounted = true ∧ k + 1 = c.made.length ∧ client.timers = [timer] ∧ 2000 ≤ timer.delay ∧ timer.delay ≤ 30000 ∧
        ∀ state ∈ client.sockets, state = .closed) ∧
    (c.mounted = true → ∃ k client, c.made[k]? = some client ∧ k + 1 = c.made.length ∧
      (client.timers ≠ [] ∨ (∃ state ∈ client.sockets, state ≠ .closed) ∨
        ∃ i, EffectLabel.client k (.closed i policyViolation) ∈ ls) ∧
      (.open ∈ client.sockets → client.state = .connected)) := by
  have horderly := Clients.orderly_exec h
  refine ⟨fun k client i state hk hi hstate => ?_,fun k client timer hk htimer => ?_,fun hm => ?_⟩
  · obtain ⟨last,hclient⟩ := horderly.clients client (List.mem_of_getElem? hk)
    have hne : state ≠ .closed := by
      rintro rfl
      simp at hstate
    obtain ⟨rfl,hsocket⟩ := hclient.chain.lookup hi hne
    have hrunning : client.stopped = false := by
      cases hclient.condition with
      | stopped socket =>
        obtain rfl | rfl := socket <;> simp at hstate
      | dialling _ _ running | live _ _ running | failing _ _ running | waiting _ _ _ _ _ _ running | refused _ _ running =>
        exact running
    obtain ⟨hm,hlast⟩ := (horderly.stopped k client hk).mp hrunning
    exact ⟨hm,hlast,hsocket,hclient.condition.timers (.inl hne)⟩
  · obtain ⟨last,hclient⟩ := horderly.clients client (List.mem_of_getElem? hk)
    cases hclient.condition with
    | waiting timer' socket timers retry delay attempted running =>
      obtain ⟨hm,hlast⟩ := (horderly.stopped k client hk).mp running
      rw [timers, List.mem_singleton] at htimer
      subst htimer
      obtain ⟨hlow,hhigh⟩ := EventClient.retryDelay_bounds attempted
      refine ⟨hm,hlast,timers,delay ▸ hlow,delay ▸ hhigh,fun state hstate => ?_⟩
      obtain ⟨earlier,hsockets,hclosed,-⟩ := hclient.chain
      rw [hsockets] at hstate
      obtain hmem | hmem := List.mem_append.mp hstate
      · exact hclosed state hmem
      · rw [List.mem_singleton.mp hmem, socket]
    | dialling _ timers | live _ timers | failing _ timers | refused _ timers | stopped _ timers =>
      rw [timers] at htimer
      cases htimer
  · have hpos : 0 < c.made.length := List.length_pos_of_ne_nil (horderly.mounted hm)
    have hk : c.made[c.made.length - 1]? = some c.made[c.made.length - 1] := List.getElem?_eq_getElem _
    have hlast : c.made.length - 1 + 1 = c.made.length := by omega
    obtain ⟨last,hclient⟩ := horderly.clients _ (List.mem_of_getElem? hk)
    have hrunning := (horderly.stopped _ _ hk).mpr ⟨hm,hlast⟩
    obtain ⟨earlier,hsockets,hclosed,-⟩ := hclient.chain
    have hmem : last ∈ c.made[c.made.length - 1].sockets := by simp [hsockets]
    refine ⟨_,_,hk,hlast,?_,fun hopen => ?_⟩
    · cases hclient.condition with
      | dialling socket | live socket | failing socket => exact .inr (.inl ⟨last,hmem,by simp [socket]⟩)
      | waiting timer _ timers => exact .inl (by simp [timers])
      | refused _ _ _ state =>
        obtain hstopped | hrefused := Clients.disconnected_exec h hk state
        · rw [hrunning] at hstopped
          cases hstopped
        · exact .inr (.inr hrefused)
      | stopped _ _ stopped =>
        rw [hrunning] at stopped
        cases stopped
    · obtain ⟨i,hi⟩ := List.mem_iff_getElem?.mp hopen
      obtain ⟨rfl,-⟩ := hclient.chain.lookup hi (by decide)
      cases hclient.condition with
      | live _ _ _ state => exact state
      | dialling socket | failing socket | waiting _ socket | refused socket => cases socket
      | stopped socket => simp at socket

/-- A socket opens and is lost, the client dials again, and the effect runs a second time. -/
def sampleEffects : List EffectLabel :=
  [.mount,.client 0 (.opened 0),.client 0 (.closed 0 1006),.client 0 (.elapsed 0),.unmount,.mount,.client 1 (.opened 0)]

theorem sampleEffects_run : (Transition.exec Clients.step sampleEffects .initial).isSome = true := by decide

theorem one_connection_sample : ∃ c, Transition.exec Clients.step sampleEffects .initial = some c ∧
    (c.mounted = true → ∃ k client, c.made[k]? = some client ∧ k + 1 = c.made.length ∧
      (.open ∈ client.sockets → client.state = .connected)) := by
  refine ⟨_,Transition.exec_after sampleEffects_run,fun hm => ?_⟩
  obtain ⟨k,client,hk,hlast,-,hopen⟩ := (one_connection (Transition.exec_after sampleEffects_run)).2.2 hm
  exact ⟨k,client,hk,hlast,hopen⟩

end AgentGraph.Browser
