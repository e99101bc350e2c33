import AgentGraph.Browser.EventClient
import AgentGraph.Foundation.Recent
import AgentGraph.Runtime.Redaction

/-! # The events that the browser shows

An event is published on the bus of the server, sent to each socket that is served, and put
before the events that `Workspace` shows; a `refresh` replaces these by the history of the bus.
An answer of the server may arrive at any time after it was given, and in any order.
-/
set_option autoImplicit false
namespace AgentGraph.Browser
open Transition Events

/-- An event as `eventSchema` hands it over; `J` is what `JSON.parse` makes of a payload. -/
structure FeedEvent (J : Type) where
  eventId : String
  type : String
  timestamp : String
  projectId : String
  runId : Option String
  taskId : Option String
  agentId : Option String
  providerId : Option String
  severity : String
  payload : J

/-- The texts of the server, and `JSON.parse` of what `json.dumps` writes for a payload, which is
no JSON text if it holds a number that is not finite. -/
structure Wire (J : Type) where
  texts : Texts
  parse : Payload → Option J

/-- `eventSchema.safeParse` of the `event_json` of an event: all its fields but the payload are
texts or null. -/
def Wire.read {J : Type} (wire : Wire J) (event : Events.RuntimeEvent) : Option (FeedEvent J) :=
  (wire.parse event.payload).map fun payload =>
    ⟨event.id,event.type.value,wire.texts.isoformat event.timestamp,event.projectId,event.runId,event.taskId,event.agentId,
      event.providerId,event.severity,payload⟩

def maxEvents : Nat := 500

/-- What a socket of a client is on the server: its subscriber, and how many events it has sent. -/
structure Served where
  subscriber : Nat
  sent : Nat

/-- `served` is by the number of the client and of its socket. -/
structure LiveFeed (J : Type) where
  bus : RuntimeEventBus
  clients : Clients
  served : Nat → Nat → Option Served
  answers : List (List (FeedEvent J))
  events : List (FeedEvent J)

inductive FeedLabel
  | publish (event : Events.RuntimeEvent)
  /-- `event_socket` has accepted the socket, and subscribes without a run. -/
  | serve (k i : Nat)
  | next (k i : Nat)
  | hangUp (k i : Nat)
  | deliver (k i : Nat)
  | effect (l : EffectLabel)
  /-- The server answers a `GET` of the events. -/
  | answer
  | arrive (r : Nat)

namespace LiveFeed
variable {J : Type}

def initial (historyLimit : Nat) : LiveFeed J := ⟨.initial historyLimit,.initial,fun _ _ => none,[],[]⟩

/-- The bus runs the generator of a socket. -/
def advance (feed : LiveFeed J) (k i : Nat) (f : Subscriber → Subscriber) : Option (LiveFeed J) :=
  (feed.served k i).bind fun served => (feed.bus.advance served.subscriber f).map fun bus => { feed with bus := bus }

/-- `receiveEvent`. -/
def receiveEvent (feed : LiveFeed J) (event : FeedEvent J) : LiveFeed J :=
  { feed with events := Recent.push FeedEvent.eventId maxEvents event feed.events }

/-- The event that a socket has to send next, if it can be sent. -/
def outgoing (wire : Wire J) (feed : LiveFeed J) (served : Served) : Option Events.RuntimeEvent :=
  match feed.bus.subscribers[served.subscriber]? with
  | none => none
  | some sub =>
    match sub.yielded[served.sent]? with
    | none => none
    | some event => if (eventJson wire.texts event).isSome then some event else none

/-- A message arrives at an open socket; what cannot be parsed is ignored. -/
def deliver (wire : Wire J) (feed : LiveFeed J) (k i : Nat) : Option (LiveFeed J) :=
  (feed.served k i).bind fun served => (feed.outgoing wire served).bind fun event =>
    (feed.clients.step (.client k (.message i))).map fun clients =>
      let sent : LiveFeed J :=
        { feed with
          clients := clients
          served := Function.update feed.served k (Function.update (feed.served k) i (some ⟨served.subscriber,served.sent + 1⟩)) }
      match wire.read event with
      | none => sent
      | some event => sent.receiveEvent event

/-- Anything but a message, which the server delivers. -/
def effect (feed : LiveFeed J) (l : EffectLabel) : Option (LiveFeed J) :=
  match l with
  | .client _ (.message _) => none
  | l => (feed.clients.step l).map fun clients => { feed with clients := clients }

def step (wire : Wire J) (l : FeedLabel) (feed : LiveFeed J) : Option (LiveFeed J) :=
  match l with
  | .publish event => some { feed with bus := feed.bus.publish wire.texts.lower event }
  | .serve k i =>
    match feed.served k i with
    | some _ => none
    | none =>
      some { feed with
        bus := { feed.bus with subscribers := feed.bus.subscribers ++ [⟨none,[],[],false⟩] }
        served := Function.update feed.served k (Function.update (feed.served k) i (some ⟨feed.bus.subscribers.length,0⟩)) }
  | .next k i => feed.advance k i Subscriber.next
  | .hangUp k i => feed.advance k i Subscriber.close
  | .deliver k i => feed.deliver wire k i
  | .effect l => feed.effect l
  | .answer =>
    -- the answer is an error if one of the events cannot be sent or read
    ((feed.bus.history none).mapM fun event => if (eventJson wire.texts event).isSome then wire.read event else none).map
      fun items => { feed with answers := feed.answers ++ [items] }
  | .arrive r =>
    feed.answers[r]?.map fun items =>
      { feed with answers := feed.answers.eraseIdx r, events := items.reverse.take maxEvents }

/-- What a delivery to the socket hands to `onEvent`. -/
def incoming (wire : Wire J) (feed : LiveFeed J) (k i : Nat) : Option (FeedEvent J) :=
  ((feed.served k i).bind fun served => feed.outgoing wire served).bind wire.read

end LiveFeed

/-- The feed beside what the browser was given: the last history that has arrived, newest first,
and the events that have come since. -/
structure Watched (J : Type) where
  feed : LiveFeed J
  base : List (FeedEvent J)
  heard : List (FeedEvent J)

/-- What a label publishes, as it is published. -/
def FeedLabel.published (lower : String → String) : FeedLabel → Option Events.RuntimeEvent
  | .publish event => some (event.sanitized lower)
  | _ => none

/-- Different events that have been published. -/
def Reads {J : Type} (wire : Wire J) (published : List Events.RuntimeEvent) (items : List (FeedEvent J)) : Prop :=
  (items.map FeedEvent.eventId).Nodup ∧ ∀ item ∈ items, ∃ event ∈ published, wire.read event = some item

namespace Watched
variable {J : Type} {wire : Wire J} {w w' : Watched J} {l : FeedLabel} {published : List Events.RuntimeEvent}

def initial (historyLimit : Nat) : Watched J := ⟨.initial historyLimit,[],[]⟩

def step (wire : Wire J) (l : FeedLabel) (w : Watched J) : Option (Watched J) :=
  (w.feed.step wire l).map fun feed =>
    match l with
    | .deliver k i => ⟨feed,w.base,w.heard ++ (w.feed.incoming wire k i).toList⟩
    | .arrive r => ⟨feed,(w.feed.answers[r]?.getD []).reverse,[]⟩
    | _ => ⟨feed,w.base,w.heard⟩

/-- All that the server and the browser hold was published, and the browser shows the events that came last. -/
structure Faithful (wire : Wire J) (published : List Events.RuntimeEvent) (w : Watched J) : Prop where
  history : w.feed.bus.events.Sublist published
  queues : ∀ sub ∈ w.feed.bus.subscribers, ∀ event, event ∈ sub.queue ∨ event ∈ sub.yielded → event ∈ published
  answers : ∀ items ∈ w.feed.answers, Reads wire published items
  base : Reads wire published w.base
  heard : ∀ item ∈ w.heard, ∃ event ∈ published, wire.read event = some item
  shown : w.feed.events = (Recent.firsts FeedEvent.eventId (w.heard.reverse ++ w.base)).take maxEvents

theorem Wire.read_id {event : Events.RuntimeEvent} {item : FeedEvent J} (h : wire.read event = some item) : item.eventId = event.id := by
  obtain ⟨payload,-,rfl⟩ := Option.map_eq_some_iff.mp h
  rfl

/-- The events of a list, each of which can be read. -/
theorem reads_mapM {P : Events.RuntimeEvent → Bool} {events : List Events.RuntimeEvent} {items : List (FeedEvent J)}
    (h : (events.mapM fun event => if P event then wire.read event else none) = some items) :
    items.map FeedEvent.eventId = events.map Events.RuntimeEvent.id ∧ ∀ item ∈ items, ∃ event ∈ events, wire.read event = some item := by
  induction events generalizing items with
  | nil =>
    cases h
    exact ⟨rfl,fun _ hitem => by cases hitem⟩
  | cons event rest ih =>
    rw [List.mapM_cons] at h
    obtain ⟨item,hitem,hbind⟩ := Option.bind_eq_some_iff.mp h
    obtain ⟨others,hothers,hpure⟩ := Option.bind_eq_some_iff.mp hbind
    cases hpure
    have hread : wire.read event = some item := by
      split at hitem
      · exact hitem
      · cases hitem
    obtain ⟨hids,hall⟩ := ih hothers
    refine ⟨by rw [List.map_cons, List.map_cons, hids, Wire.read_id hread],fun item' hitem' => ?_⟩
    obtain rfl | hmem := List.mem_cons.mp hitem'
    · exact ⟨event,List.mem_cons_self,hread⟩
    · obtain ⟨event',hevent',hread'⟩ := hall item' hmem
      exact ⟨event',List.mem_cons_of_mem _ hevent',hread'⟩

theorem Reads.mono {items : List (FeedEvent J)} {more : List Events.RuntimeEvent} (h : Reads wire published items)
    (hsub : published ⊆ more) : Reads wire more items :=
  ⟨h.1,fun item hitem => (h.2 item hitem).imp fun _ hevent => ⟨hsub hevent.1,hevent.2⟩⟩

theorem Faithful.publish (h : w.Faithful wire published) (event : Events.RuntimeEvent) :
    ({ w with feed := { w.feed with bus := w.feed.bus.publish wire.texts.lower event } } : Watched J).Faithful wire
      (published ++ [event.sanitized wire.texts.lower]) := by
  have hmore : published ⊆ published ++ [event.sanitized wire.texts.lower] := List.subset_append_left _ _
  refine ⟨?_,fun sub hsub e he => ?_,fun items hitems => Reads.mono (h.answers items hitems) hmore,Reads.mono h.base hmore,
    fun item hitem => (h.heard item hitem).imp fun _ he => ⟨hmore he.1,he.2⟩,h.shown⟩
  · exact (List.drop_sublist _ _).trans (h.history.append (List.Sublist.refl _))
  · obtain ⟨old,hold,rfl⟩ := List.mem_map.mp hsub
    have hkept := h.queues old hold e
    unfold Subscriber.offer at he
    split at he
    · exact hmore (hkept he)
    · obtain hqueue | hyielded := he
      · obtain hmem | hmem := List.mem_append.mp hqueue
        · exact hmore (hkept (.inl hmem))
        · exact List.mem_append_right _ hmem
      · exact hmore (hkept (.inr hyielded))

/-- A generator goes on with what it has. -/
theorem Faithful.advance (h : w.Faithful wire published) {k i : Nat} {f : Subscriber → Subscriber} {feed : LiveFeed J}
    (hf : ∀ sub event, event ∈ (f sub).queue ∨ event ∈ (f sub).yielded → event ∈ sub.queue ∨ event ∈ sub.yielded)
    (ht : w.feed.advance k i f = some feed) : (⟨feed,w.base,w.heard⟩ : Watched J).Faithful wire published := by
  obtain ⟨served,-,hbus⟩ := Option.bind_eq_some_iff.mp ht
  obtain ⟨bus,hadvance,rfl⟩ := Option.map_eq_some_iff.mp hbus
  unfold RuntimeEventBus.advance at hadvance
  split at hadvance
  next sub hsub =>
    split at hadvance
    · cases hadvance
    · cases hadvance
      refine ⟨h.history,fun sub' hsub' event hevent => ?_,h.answers,h.base,h.heard,h.shown⟩
      obtain hold | rfl := List.mem_or_eq_of_mem_set hsub'
      · exact h.queues sub' hold event hevent
      · exact h.queues sub (List.mem_of_getElem? hsub) event (hf sub event hevent)
  · cases hadvance

theorem next_mem (sub : Subscriber) (event : Events.RuntimeEvent) (h : event ∈ sub.next.queue ∨ event ∈ sub.next.yielded) :
    event ∈ sub.queue ∨ event ∈ sub.yielded := by
  unfold Subscriber.next at h
  split at h
  · obtain hqueue | hyielded := h
    · cases hqueue
    · exact .inr hyielded
  next first rest hdrop =>
    have hkept : ∀ e ∈ first :: rest, e ∈ sub.queue := by
      intro e he
      rw [← hdrop] at he
      exact (List.dropWhile_sublist _).subset he
    obtain hqueue | hyielded := h
    · exact .inl (hkept event (List.mem_cons_of_mem _ hqueue))
    · obtain hold | hnew := List.mem_append.mp hyielded
      · exact .inr hold
      · rw [List.mem_singleton.mp hnew]
        exact .inl (hkept first List.mem_cons_self)

theorem incoming_published (h : w.Faithful wire published) {k i : Nat} {item : FeedEvent J}
    (hitem : w.feed.incoming wire k i = some item) : ∃ event ∈ published, wire.read event = some item := by
  obtain ⟨event,hevent,hread⟩ := Option.bind_eq_some_iff.mp hitem
  obtain ⟨served,-,hout⟩ := Option.bind_eq_some_iff.mp hevent
  refine ⟨event,?_,hread⟩
  unfold LiveFeed.outgoing at hout
  split at hout
  · cases hout
  next sub hsub =>
    split at hout
    · cases hout
    next e he =>
      split at hout <;> cases hout
      exact h.queues sub (List.mem_of_getElem? hsub) _ (.inr (List.mem_of_getElem? he))

/-- A delivery shows what comes in and leaves the server alone. -/
theorem deliver_cases {feed : LiveFeed J} {k i : Nat} (ht : w.feed.deliver wire k i = some feed) :
    feed.bus = w.feed.bus ∧ feed.answers = w.feed.answers ∧
      feed.events = match w.feed.incoming wire k i with
        | none => w.feed.events
        | some item => Recent.push FeedEvent.eventId maxEvents item w.feed.events := by
  obtain ⟨served,hserved,hrest⟩ := Option.bind_eq_some_iff.mp ht
  obtain ⟨event,hevent,hmap⟩ := Option.bind_eq_some_iff.mp hrest
  obtain ⟨clients,-,rfl⟩ := Option.map_eq_some_iff.mp hmap
  have hincoming : w.feed.incoming wire k i = wire.read event := by
    rw [LiveFeed.incoming, hserved, Option.bind_some, hevent, Option.bind_some]
  rw [hincoming]
  cases wire.read event with
  | none => exact ⟨rfl,rfl,rfl⟩
  | some item => exact ⟨rfl,rfl,rfl⟩

theorem Faithful.deliver (h : w.Faithful wire published) {feed : LiveFeed J} {k i : Nat}
    (ht : w.feed.deliver wire k i = some feed) :
    (⟨feed,w.base,w.heard ++ (w.feed.incoming wire k i).toList⟩ : Watched J).Faithful wire published := by
  obtain ⟨hbus,hanswers,hevents⟩ := deliver_cases ht
  refine ⟨hbus ▸ h.history,hbus ▸ h.queues,hanswers ▸ h.answers,h.base,fun item hitem => ?_,?_⟩
  · obtain hold | hnew := List.mem_append.mp hitem
    · exact h.heard item hold
    · exact incoming_published h (Option.mem_toList.mp hnew)
  · cases hincoming : w.feed.incoming wire k i with
    | none =>
      rw [hincoming] at hevents
      rw [Option.toList_none, List.append_nil]
      exact hevents.trans h.shown
    | some item =>
      rw [hincoming] at hevents
      dsimp only at hevents ⊢
      rw [hevents, h.shown, Recent.push_firsts, Option.toList_some, List.reverse_append, List.reverse_singleton,
        List.append_assoc, List.singleton_append]

/-- The server answers with its history. -/
theorem Faithful.answer (h : w.Faithful wire published) (hids : (published.map Events.RuntimeEvent.id).Nodup) {items : List (FeedEvent J)}
    (hitems : ((w.feed.bus.history none).mapM fun event =>
      if (eventJson wire.texts event).isSome then wire.read event else none) = some items) :
    Reads wire published items := by
  have hall : w.feed.bus.history none = w.feed.bus.events := List.filter_eq_self.mpr fun _ _ => rfl
  obtain ⟨heq,hread⟩ := reads_mapM hitems
  rw [hall] at heq hread
  refine ⟨heq ▸ hids.sublist (h.history.map _),fun item hitem => ?_⟩
  obtain ⟨event,hevent,hr⟩ := hread item hitem
  exact ⟨event,h.history.subset hevent,hr⟩

/-- An answer takes the place of what is shown. -/
theorem Faithful.arrive (h : w.Faithful wire published) {r : Nat} {items : List (FeedEvent J)} (hr : w.feed.answers[r]? = some items) :
    (⟨{ w.feed with answers := w.feed.answers.eraseIdx r, events := items.reverse.take maxEvents },items.reverse,[]⟩ :
      Watched J).Faithful wire published := by
  obtain ⟨hids,hread⟩ := h.answers items (List.mem_of_getElem? hr)
  have hids' : (items.reverse.map FeedEvent.eventId).Nodup := by
    rw [List.map_reverse]
    exact List.nodup_reverse.mpr hids
  refine ⟨h.history,h.queues,fun other hother => h.answers other ((List.eraseIdx_sublist _ _).subset hother),
    ⟨hids',fun item hitem => hread item (List.mem_reverse.mp hitem)⟩,fun _ hitem => (by cases hitem),?_⟩
  rw [List.reverse_nil, List.nil_append, Recent.firsts_eq_self hids']

theorem effect_cases {feed feed' : LiveFeed J} {l : EffectLabel} (h : feed.effect l = some feed') :
    ∃ clients, feed' = { feed with clients := clients } := by
  unfold LiveFeed.effect at h
  split at h
  · cases h
  · obtain ⟨clients,-,rfl⟩ := Option.map_eq_some_iff.mp h
    exact ⟨clients,rfl⟩

/-- A step that publishes nothing. -/
theorem Faithful.quiet (h : w.Faithful wire published) (hids : (published.map Events.RuntimeEvent.id).Nodup)
    (hl : l.published wire.texts.lower = none) (ht : Watched.step wire l w = some w') : w'.Faithful wire published := by
  obtain ⟨feed,hfeed,rfl⟩ := Option.map_eq_some_iff.mp ht
  cases l with
  | publish event => cases hl
  | serve k i =>
    simp only [LiveFeed.step] at hfeed
    split at hfeed <;> cases hfeed
    refine ⟨h.history,fun sub hsub event hevent => ?_,h.answers,h.base,h.heard,h.shown⟩
    obtain hold | hnew := List.mem_append.mp hsub
    · exact h.queues sub hold event hevent
    · rw [List.mem_singleton.mp hnew] at hevent
      simp at hevent
  | next k i => exact h.advance next_mem hfeed
  | hangUp k i => exact h.advance (f := Subscriber.close) (fun _ _ hevent => hevent) hfeed
  | deliver k i => exact h.deliver hfeed
  | effect l =>
    obtain ⟨clients,rfl⟩ := effect_cases hfeed
    exact ⟨h.history,h.queues,h.answers,h.base,h.heard,h.shown⟩
  | answer =>
    obtain ⟨items,hitems,rfl⟩ := Option.map_eq_some_iff.mp hfeed
    refine ⟨h.history,h.queues,fun other hother => ?_,h.base,h.heard,h.shown⟩
    obtain hold | hnew := List.mem_append.mp hother
    · exact h.answers other hold
    · rw [List.mem_singleton.mp hnew]
      exact h.answer hids hitems
  | arrive r =>
    obtain ⟨items,hr,rfl⟩ := Option.map_eq_some_iff.mp hfeed
    simp only [hr, Option.getD_some]
    exact h.arrive hr

theorem faithful_initial (wire : Wire J) (historyLimit : Nat) : (initial historyLimit : Watched J).Faithful wire [] where
  history := List.Sublist.refl _
  queues := fun _ hsub => by cases hsub
  answers := fun _ hitems => by cases hitems
  base := ⟨List.nodup_nil,fun _ hitem => by cases hitem⟩
  heard := fun _ hitem => by cases hitem
  shown := rfl

/-- However publications, sockets, histories and the effect interleave, if no two events have one
identifier: the browser shows the events that were given to it last, each once and at most 500,
before the history that arrived last; and all of them were published and are shown as published. -/
theorem shown_events (wire : Wire J) (historyLimit : Nat) {ls : List FeedLabel}
    (h : exec (step wire) ls (initial historyLimit) = some w)
    (hids : ((ls.filterMap (FeedLabel.published wire.texts.lower)).map Events.RuntimeEvent.id).Nodup) :
    w.feed.events = (Recent.firsts FeedEvent.eventId (w.heard.reverse ++ w.base)).take maxEvents ∧
      (w.feed.events.map FeedEvent.eventId).Nodup ∧
      ∀ item ∈ w.feed.events, ∃ event, FeedLabel.publish event ∈ ls ∧ wire.read (event.sanitized wire.texts.lower) = some item := by
  have hfaithful : w.Faithful wire (ls.filterMap (FeedLabel.published wire.texts.lower)) := by
    refine exec_induction (P := fun ls w => ((ls.filterMap (FeedLabel.published wire.texts.lower)).map Events.RuntimeEvent.id).Nodup →
      w.Faithful wire (ls.filterMap (FeedLabel.published wire.texts.lower)))
      (fun _ => faithful_initial wire historyLimit) (fun ls l w w' _ ih ht hids => ?_) h hids
    have hsnoc : (ls ++ [l]).filterMap (FeedLabel.published wire.texts.lower) =
        ls.filterMap (FeedLabel.published wire.texts.lower) ++ (l.published wire.texts.lower).toList := by
      rw [List.filterMap_append]
      cases hl : l.published wire.texts.lower <;> simp [hl]
    rw [hsnoc] at hids ⊢
    have hbefore : ((ls.filterMap (FeedLabel.published wire.texts.lower)).map Events.RuntimeEvent.id).Nodup := by
      rw [List.map_append] at hids
      exact hids.of_append_left
    cases hl : l.published wire.texts.lower with
    | none =>
      rw [Option.toList_none, List.append_nil]
      exact (ih hbefore).quiet hbefore hl ht
    | some event =>
      cases l with
      | publish original =>
        cases hl
        cases ht
        exact (ih hbefore).publish original
      | _ => cases hl
  have hshown := hfaithful.shown
  refine ⟨hshown,?_,fun item hitem => ?_⟩
  · rw [hshown, List.map_take]
    exact (Recent.firsts_nodup _).sublist (List.take_sublist _ _)
  · rw [hshown] at hitem
    have hgiven := Recent.mem_firsts (List.mem_of_mem_take hitem)
    have hpublished : ∃ event ∈ ls.filterMap (FeedLabel.published wire.texts.lower), wire.read event = some item := by
      obtain hmem | hmem := List.mem_append.mp hgiven
      · exact hfaithful.heard item (List.mem_reverse.mp hmem)
      · exact hfaithful.base.2 item hmem
    obtain ⟨event,hevent,hread⟩ := hpublished
    obtain ⟨l,hl,hsome⟩ := List.mem_filterMap.mp hevent
    cases l with
    | publish original =>
      cases hsome
      exact ⟨original,hl,hread⟩
    | _ => cases hsome

def sampleWire : Wire Unit := ⟨asciiTexts,fun _ => some ()⟩

def sampleFeedEvent (id : String) : Events.RuntimeEvent := ⟨id,.logCreated,0,"project",none,none,none,none,"info",[]⟩

/-- The second event comes over the socket, after the history that holds the first one. -/
def sampleFeed : List FeedLabel :=
  [.effect .mount,.serve 0 0,.effect (.client 0 (.opened 0)),.publish (sampleFeedEvent "evt_1"),.answer,.next 0 0,.deliver 0 0,
    .arrive 0,.publish (sampleFeedEvent "evt_2"),.next 0 0,.deliver 0 0]

theorem sampleFeed_run : (exec (step sampleWire) sampleFeed (initial 500)).isSome = true := by decide +kernel

theorem shown_events_sample : ∃ w : Watched Unit, exec (step sampleWire) sampleFeed (initial 500) = some w ∧
    (w.feed.events.map FeedEvent.eventId).Nodup ∧ ∀ item ∈ w.feed.events,
      ∃ event, FeedLabel.publish event ∈ sampleFeed ∧ sampleWire.read (event.sanitized asciiTexts.lower) = some item :=
  ⟨_,exec_after sampleFeed_run,(shown_events sampleWire 500 (exec_after sampleFeed_run) (by decide +kernel)).2⟩

end Watched

end AgentGraph.Browser
