import AgentGraph.Runtime.EventBus
import Mathlib.Data.List.Forall2

/-! # What a subscriber is owed, and what it gets

The feed of a subscriber is what has been published since it subscribed. An open
subscriber has missed nothing as long as every event that it wants finds room in its
queue; the events that it does not want take up room there as well.
-/
set_option autoImplicit false
namespace AgentGraph.Events
open Transition

abbrev Feed := List RuntimeEvent

/-- The bus next to the feeds of its subscribers. -/
structure Observed where
  bus : RuntimeEventBus
  feeds : List Feed

/-- What the subscriber has yielded is a prefix of the events of its feed that it wants;
while it is open the rest of them wait in its queue. -/
structure Subscriber.Follows (sub : Subscriber) (feed : Feed) : Prop where
  yielded : sub.yielded <+: feed.filter sub.wants
  waiting : sub.closed = false → sub.yielded ++ sub.queue.filter sub.wants = feed.filter sub.wants

/-- An event that the subscriber wants finds room. -/
def Subscriber.Takes (sub : Subscriber) (event : RuntimeEvent) : Prop :=
  sub.closed = false → sub.wants event = true → sub.queue.length < queueLimit

instance (sub : Subscriber) (event : RuntimeEvent) : Decidable (sub.Takes event) :=
  inferInstanceAs (Decidable (_ → _))

namespace Subscriber
variable {sub : Subscriber} {feed : Feed} {event : RuntimeEvent}

theorem wants_sanitized (lower : String → String) (sub : Subscriber) (event : RuntimeEvent) :
    sub.wants (event.sanitized lower) = sub.wants event := rfl

theorem offer_wants (sub : Subscriber) (event : RuntimeEvent) : (sub.offer event).wants = sub.wants := by
  unfold offer
  split <;> rfl

theorem next_wants (sub : Subscriber) : sub.next.wants = sub.wants := by
  unfold next
  split <;> rfl

theorem offer_yielded (sub : Subscriber) (event : RuntimeEvent) : (sub.offer event).yielded = sub.yielded := by
  unfold offer
  split <;> rfl

theorem offer_closed (sub : Subscriber) (event : RuntimeEvent) : (sub.offer event).closed = sub.closed := by
  unfold offer
  split <;> rfl

/-- What is dropped at the head of the queue is nothing the subscriber wants. -/
theorem filter_wants_dropWhile (queue : List RuntimeEvent) :
    (queue.dropWhile fun event => !sub.wants event).filter sub.wants = queue.filter sub.wants := by
  induction queue with
  | nil => rfl
  | cons event rest ih =>
    cases hw : sub.wants event with
    | true => simp [hw]
    | false =>
      have hdrop : (event :: rest).dropWhile (fun event => !sub.wants event) =
          rest.dropWhile fun event => !sub.wants event := by simp [hw]
      rw [hdrop,ih,List.filter_cons_of_neg (by simp [hw])]

/-- Reading moves events from the queue to the output, and loses none. -/
theorem next_output (sub : Subscriber) :
    sub.next.yielded ++ sub.next.queue.filter sub.wants = sub.yielded ++ sub.queue.filter sub.wants := by
  rw [← filter_wants_dropWhile sub.queue]
  unfold next
  split
  next h => rw [h]
  next event rest h =>
    have hwants : sub.wants event = true := by
      have hhead := List.head?_dropWhile_not (fun event => !sub.wants event) sub.queue
      rw [h] at hhead
      simpa using hhead
    rw [h,List.filter_cons_of_pos hwants]
    simp

theorem Follows.next (h : sub.Follows feed) (hopen : sub.closed = false) : sub.next.Follows feed := by
  have hout : sub.next.yielded ++ sub.next.queue.filter sub.next.wants = feed.filter sub.next.wants := by
    rw [next_wants,next_output]
    exact h.waiting hopen
  exact ⟨⟨_,hout⟩,fun _ => hout⟩

theorem Follows.close (h : sub.Follows feed) : sub.close.Follows feed := ⟨h.yielded,fun hc => by cases hc⟩

/-- An event reaches the subscriber exactly if it is not wanted or finds room. -/
theorem Follows.offer_iff (h : sub.Follows feed) : (sub.offer event).Follows (feed ++ [event]) ↔ sub.Takes event := by
  have hfeed : (feed ++ [event]).filter sub.wants = feed.filter sub.wants ++ [event].filter sub.wants :=
    List.filter_append ..
  constructor
  · intro h' hopen hwants
    by_contra hfull
    have hsame : sub.offer event = sub := by
      unfold offer
      exact if_pos (by simp [Nat.le_of_not_lt hfull])
    rw [hsame] at h'
    have hlost := h'.waiting hopen
    rw [h.waiting hopen,hfeed,List.filter_cons_of_pos hwants] at hlost
    have hlength := congrArg List.length hlost
    simp at hlength
  · intro hroom
    refine ⟨?_,fun hopen => ?_⟩
    · rw [offer_yielded,offer_wants,hfeed]
      exact h.yielded.trans (List.prefix_append _ _)
    · rw [offer_closed] at hopen
      rw [offer_yielded,offer_wants,hfeed,← h.waiting hopen,List.append_assoc,← List.filter_append]
      congr 1
      unfold offer
      split
      next hfull =>
        have hnot : sub.wants event = false := by
          by_contra hwants
          have hlt := hroom hopen (by simpa using hwants)
          simp only [hopen, Bool.false_or, decide_eq_true_eq] at hfull
          omega
        simp [hnot]
      · rfl

end Subscriber

namespace Observed

/-- A step of the bus, with the feeds of the subscribers. -/
def step (lower : String → String) (l : Label) (o : Observed) : Option Observed :=
  (o.bus.step lower l).map fun bus =>
    match l with
    | .publish event => ⟨bus,o.feeds.map fun feed => feed ++ [event.sanitized lower]⟩
    | .subscribe _ => ⟨bus,o.feeds ++ [[]]⟩
    | .next _ | .close _ => ⟨bus,o.feeds⟩

def initial (historyLimit : Nat) : Observed := ⟨.initial historyLimit,[]⟩

/-- No subscriber has a gap, and no open one has missed an event. -/
def Gapless (o : Observed) : Prop := List.Forall₂ Subscriber.Follows o.bus.subscribers o.feeds

/-- What is published finds room with everyone who wants it. -/
def Delivered (l : Label) (o : Observed) : Prop :=
  match l with
  | .publish event => ∀ sub ∈ o.bus.subscribers, sub.Takes event
  | _ => True

instance : (l : Label) → (o : Observed) → Decidable (Delivered l o)
  | .publish event, o => inferInstanceAs (Decidable (∀ sub ∈ o.bus.subscribers, sub.Takes event))
  | .subscribe _, _ | .next _, _ | .close _, _ => .isTrue trivial

theorem forall₂_offer_iff {subs : List Subscriber} {feeds : List Feed} (h : List.Forall₂ Subscriber.Follows subs feeds)
    (event : RuntimeEvent) :
    List.Forall₂ Subscriber.Follows (subs.map fun sub => sub.offer event) (feeds.map fun feed => feed ++ [event]) ↔
      ∀ sub ∈ subs, sub.Takes event := by
  induction h with
  | nil => simp
  | cons hfirst _ ih => simp [hfirst.offer_iff,ih]

/-- One subscriber moves on its own. -/
theorem forall₂_set {subs : List Subscriber} {feeds : List Feed} {i : Nat} {sub sub' : Subscriber}
    (h : List.Forall₂ Subscriber.Follows subs feeds) (hsub : subs[i]? = some sub)
    (hmove : ∀ feed, sub.Follows feed → sub'.Follows feed) : List.Forall₂ Subscriber.Follows (subs.set i sub') feeds := by
  induction h generalizing i with
  | nil => exact .nil
  | cons hfirst hrest ih =>
    cases i with
    | zero =>
      cases hsub
      exact .cons (hmove _ hfirst) hrest
    | succ i => exact .cons hfirst (ih hsub)

theorem advance_cases {bus bus' : RuntimeEventBus} {i : Nat} {f : Subscriber → Subscriber}
    (h : bus.advance i f = some bus') : ∃ sub, bus.subscribers[i]? = some sub ∧ sub.closed = false ∧
      bus' = { bus with subscribers := bus.subscribers.set i (f sub) } := by
  unfold RuntimeEventBus.advance at h
  split at h
  next sub hsub =>
    split at h
    · cases h
    next hopen => exact ⟨sub,hsub,by simpa using hopen,(Option.some.inj h).symm⟩
  · cases h

theorem step_gapless_iff {lower : String → String} {l : Label} {o o' : Observed} (h : o.Gapless)
    (hstep : step lower l o = some o') : o'.Gapless ↔ Delivered l o := by
  obtain ⟨bus,hbus,rfl⟩ := Option.map_eq_some_iff.mp hstep
  cases l with
  | publish event =>
    cases hbus
    refine (forall₂_offer_iff h (event.sanitized lower)).trans (forall₂_congr fun sub _ => ?_)
    simp only [Subscriber.Takes, Subscriber.wants_sanitized]
  | subscribe runId =>
    cases hbus
    refine iff_of_true (List.rel_append h (.cons ⟨?_,fun _ => ?_⟩ .nil)) trivial
    · simp
    · simp
  | next i =>
    obtain ⟨sub,hsub,hopen,rfl⟩ := advance_cases hbus
    exact iff_of_true (forall₂_set h hsub fun feed hf => hf.next hopen) trivial
  | close i =>
    obtain ⟨sub,hsub,-,rfl⟩ := advance_cases hbus
    exact iff_of_true (forall₂_set h hsub fun feed hf => hf.close) trivial

theorem exec_bus {lower : String → String} {ls : List Label} {o o' : Observed}
    (h : exec (step lower) ls o = some o') : exec (RuntimeEventBus.step lower) ls o.bus = some o'.bus := by
  have hview (l : Label) (o : Observed) : (step lower l o).map bus = RuntimeEventBus.step lower l o.bus := by
    rw [step,Option.map_map]
    cases l <;> exact Option.map_id'
  rw [← exec_map hview ls o,h]
  rfl

end Observed

/-! ## The history, and the speed of others -/

/-- What a label publishes. -/
def Label.published (lower : String → String) : Label → Option RuntimeEvent
  | .publish event => some (event.sanitized lower)
  | .subscribe _ | .next _ | .close _ => none

/-- The label is not a step of another subscriber. -/
def Label.concerns (i : Nat) : Label → Bool
  | .publish _ | .subscribe _ => true
  | .next j | .close j => j == i

namespace RuntimeEventBus
variable {lower : String → String} {l : Label} {bus bus' other : RuntimeEventBus} {i : Nat}

/-- Two buses agree on the history and on subscriber `i`. -/
structure Same (i : Nat) (bus other : RuntimeEventBus) : Prop where
  limit : other.historyLimit = bus.historyLimit
  events : other.events = bus.events
  count : other.subscribers.length = bus.subscribers.length
  subscriber : other.subscribers[i]? = bus.subscribers[i]?

/-- A step of another subscriber is not seen. -/
theorem Same.skip (h : Same i bus other) (hl : l.concerns i = false) (hstep : step lower l bus = some bus') :
    Same i bus' other := by
  cases l with
  | publish event | subscribe runId => cases hl
  | next j | close j =>
    obtain ⟨sub,-,-,rfl⟩ := Observed.advance_cases hstep
    have hne : j ≠ i := by simpa [Label.concerns] using hl
    exact ⟨h.limit,h.events,by simp [h.count],by simp [h.subscriber,List.getElem?_set_ne hne]⟩

theorem Same.advance {f : Subscriber → Subscriber} (h : Same i bus other) (hstep : bus.advance i f = some bus') :
    ∃ other', other.advance i f = some other' ∧ Same i bus' other' := by
  obtain ⟨sub,hsub,hopen,rfl⟩ := Observed.advance_cases hstep
  have hsub' : other.subscribers[i]? = some sub := h.subscriber.trans hsub
  refine ⟨{ other with subscribers := other.subscribers.set i (f sub) },?_,h.limit,h.events,?_,?_⟩
  · simp [RuntimeEventBus.advance,hsub',hopen]
  · simp [h.count]
  · simp [List.getElem?_set,h.count]

/-- Any other step is taken by both. -/
theorem Same.step (h : Same i bus other) (hl : l.concerns i = true) (hstep : step lower l bus = some bus') :
    ∃ other', RuntimeEventBus.step lower l other = some other' ∧ Same i bus' other' := by
  cases l with
  | publish event =>
    cases hstep
    refine ⟨_,rfl,h.limit,?_,?_,?_⟩
    · simp only [publish, h.events, h.limit]
    · simp [publish,h.count]
    · simp [publish,h.subscriber]
  | subscribe runId =>
    cases hstep
    refine ⟨_,rfl,h.limit,h.events,?_,?_⟩
    · simp [h.count]
    · simp [List.getElem?_append,h.count,h.subscriber]
  | next j | close j =>
    obtain rfl : j = i := by simpa [Label.concerns] using hl
    exact h.advance hstep

theorem Same.exec {ls : List Label} (h : Same i bus other) (he : exec (RuntimeEventBus.step lower) ls bus = some bus') :
    ∃ other', Transition.exec (RuntimeEventBus.step lower) (ls.filter (Label.concerns i)) other = some other' ∧
      Same i bus' other' := by
  induction ls generalizing bus other with
  | nil =>
    cases he
    exact ⟨other,rfl,h⟩
  | cons l ls ih =>
    obtain ⟨u,hu,hrest⟩ := Option.bind_eq_some_iff.mp he
    cases hl : l.concerns i with
    | false =>
      rw [List.filter_cons_of_neg (by simp [hl])]
      exact ih (h.skip hl hu) hrest
    | true =>
      obtain ⟨u',hu',hsame⟩ := h.step hl hu
      rw [List.filter_cons_of_pos hl]
      obtain ⟨other',he',hsame'⟩ := ih hsame hrest
      exact ⟨other',Option.bind_eq_some_iff.mpr ⟨u',hu',he'⟩,hsame'⟩

theorem drop_snoc {α : Type*} (events : List α) (event : α) (limit : Nat) :
    (events.drop (events.length - limit) ++ [event]).drop ((events.drop (events.length - limit) ++ [event]).length - limit) =
      (events ++ [event]).drop ((events ++ [event]).length - limit) := by
  have hle : events.length - limit ≤ events.length := Nat.sub_le ..
  rw [← List.drop_append_of_le_length hle,List.drop_drop]
  congr 1
  simp only [List.length_drop, List.length_append, List.length_singleton]
  omega

/-- The history holds the last events that have been published. -/
theorem exec_events {historyLimit : Nat} {ls : List Label}
    (h : exec (step lower) ls (initial historyLimit) = some bus) : bus.historyLimit = historyLimit ∧
      bus.events = (ls.filterMap (Label.published lower)).drop ((ls.filterMap (Label.published lower)).length - historyLimit) := by
  refine exec_induction (P := fun ls bus => bus.historyLimit = historyLimit ∧ bus.events =
    (ls.filterMap (Label.published lower)).drop ((ls.filterMap (Label.published lower)).length - historyLimit))
    ⟨rfl,by simp [initial]⟩ (fun ls l t u _ ih hstep => ?_) h
  obtain ⟨hlimit,hevents⟩ := ih
  cases l with
  | publish event =>
    cases hstep
    refine ⟨hlimit,?_⟩
    simp only [publish, hevents, hlimit, List.filterMap_append, List.filterMap_cons, Label.published, List.filterMap_nil]
    exact drop_snoc _ _ _
  | subscribe runId =>
    cases hstep
    exact ⟨hlimit,by simp only [hevents, List.filterMap_append, List.filterMap_cons, Label.published, List.filterMap_nil,
      List.append_nil]⟩
  | next i | close i =>
    obtain ⟨_,-,-,rfl⟩ := Observed.advance_cases hstep
    exact ⟨hlimit,by simp only [hevents, List.filterMap_append, List.filterMap_cons, Label.published, List.filterMap_nil,
      List.append_nil]⟩

end RuntimeEventBus

/-- Throughout a history no subscriber has a gap, nor misses an event while it is open,
exactly if every published event finds room in the queue of each open subscriber that
wants it. In every history the events kept are the last ones published, and neither they
nor a subscriber depend on the steps of the others. -/
theorem event_streams_gapless_iff (lower : String → String) (historyLimit : Nat) {ls : List Label} {o : Observed}
    (h : exec (Observed.step lower) ls (Observed.initial historyLimit) = some o) :
    (ExecAll (Observed.step lower) Observed.Gapless ls (Observed.initial historyLimit) ↔
      ExecOk (Observed.step lower) Observed.Delivered ls (Observed.initial historyLimit)) ∧
    o.bus.events = (ls.filterMap (Label.published lower)).drop ((ls.filterMap (Label.published lower)).length - historyLimit) ∧
    ∀ i, ∃ bus, exec (RuntimeEventBus.step lower) (ls.filter (Label.concerns i)) (.initial historyLimit) = some bus ∧
      bus.events = o.bus.events ∧ bus.subscribers[i]? = o.bus.subscribers[i]? := by
  refine ⟨?_,(RuntimeEventBus.exec_events (Observed.exec_bus h)).2,fun i => ?_⟩
  · exact execAll_iff_execOk (I := fun _ => True) (fun _ _ _ _ _ => trivial)
      (fun _ _ _ _ hgap hstep => Observed.step_gapless_iff hgap hstep) trivial .nil h
  · have hsame : RuntimeEventBus.Same i (.initial historyLimit) (.initial historyLimit) := ⟨rfl,rfl,rfl,rfl⟩
    obtain ⟨bus,hbus,hsame⟩ := hsame.exec (Observed.exec_bus h)
    exact ⟨bus,hbus,hsame.events,hsame.subscriber⟩

/-! ## A filtered subscriber that loses an event -/

def sampleEvent (id runId : String) : RuntimeEvent :=
  ⟨id,.logCreated,0,"project",some runId,none,none,none,"info",[("token",.str "abc")]⟩

def sampleLabels : List Label :=
  [.subscribe (some "run_a"),.publish (sampleEvent "evt_1" "run_b"),.publish (sampleEvent "evt_2" "run_a"),.next 0]

theorem event_streams_gapless_iff_sample :
    ExecAll (Observed.step String.toLower) Observed.Gapless sampleLabels (Observed.initial 500) :=
  (event_streams_gapless_iff String.toLower 500 (o := after (Observed.step String.toLower) sampleLabels
    (Observed.initial 500) (by decide +kernel)) (exec_after _)).1.mpr (by decide +kernel)

/-- A hundred events of another run fill the queue of the subscriber. -/
def crowdedOut : List Label :=
  .subscribe (some "run_a") :: List.replicate queueLimit (.publish (sampleEvent "evt_1" "run_b")) ++
    [.publish (sampleEvent "evt_2" "run_a"),.next 0,.publish (sampleEvent "evt_3" "run_a"),.next 0]

theorem crowded_out_subscriber_has_gap :
    ∃ o sub feed, exec (Observed.step String.toLower) crowdedOut (Observed.initial 500) = some o ∧
      o.bus.subscribers = [sub] ∧ o.feeds = [feed] ∧ sub.closed = false ∧
      sub.yielded.map RuntimeEvent.id = ["evt_3"] ∧ (feed.filter sub.wants).map RuntimeEvent.id = ["evt_2","evt_3"] ∧
      ¬ ExecAll (Observed.step String.toLower) Observed.Gapless crowdedOut (Observed.initial 500) := by
  let o := after (Observed.step String.toLower) crowdedOut (Observed.initial 500) (by decide +kernel)
  have hexec : exec (Observed.step String.toLower) crowdedOut (Observed.initial 500) = some o := exec_after _
  have hsubs : o.bus.subscribers.map (fun sub => (sub.closed,sub.yielded.map RuntimeEvent.id)) = [(false,["evt_3"])] := by
    decide +kernel
  have hwanted : List.zipWith (fun sub feed => (feed.filter sub.wants).map RuntimeEvent.id) o.bus.subscribers o.feeds =
      [["evt_2","evt_3"]] := by decide +kernel
  obtain ⟨sub,hsub,hout⟩ := List.map_eq_singleton_iff.mp hsubs
  obtain ⟨feed,hfeed⟩ := List.length_eq_one_iff.mp (show o.feeds.length = 1 by decide +kernel)
  obtain ⟨hclosed,hyielded⟩ := Prod.mk.inj hout
  rw [hsub,hfeed] at hwanted
  have hfilter : (feed.filter sub.wants).map RuntimeEvent.id = ["evt_2","evt_3"] := List.singleton_injective hwanted
  refine ⟨o,sub,feed,hexec,hsub,hfeed,hclosed,hyielded,hfilter,fun hall => ?_⟩
  have hgap : List.Forall₂ Subscriber.Follows o.bus.subscribers o.feeds := hall.last hexec
  rw [hsub,hfeed] at hgap
  cases hgap with
  | cons hfollows _ =>
    have hprefix := hfollows.yielded.map RuntimeEvent.id
    rw [hyielded,hfilter] at hprefix
    exact absurd hprefix (by decide)

end AgentGraph.Events
