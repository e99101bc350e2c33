import AgentGraph.Nodes.Enabled
import AgentGraph.Nodes.Probes
import Mathlib.Data.List.Nodup

/-! # What a step does to the worker slots

A probe takes a slot when it enters its future in the session of its node. Most steps
leave the entries alone or take some out, each with its future settled; what the others
do is told one by one.
-/
set_option autoImplicit false
namespace AgentGraph.Nodes
open Transition

/-- The session and the task id of a probe that has been dispatched and has not returned. -/
def Pc.slot : Pc → Option (SessionRef × TaskId)
  | .wait _ r _ id | .timedOut _ r id => some (r,id)
  | _ => none

def NodeEvent.request : NodeEvent → Option TaskId
  | .taskRequested _ id => some id
  | _ => none

namespace NodeService

/-- The ids of the requests that have been enqueued, oldest first. -/
def requests (s : NodeService) : List TaskId := s.events.filterMap NodeEvent.request

def pendingOf (s : NodeService) (r : SessionRef) : List (TaskId × FutureRef) := (s.sessions r).pending

/-- Nothing that has to do with slots changes. -/
structure Still (s t : NodeService) : Prop where
  pending : ∀ r, t.pendingOf r = s.pendingOf r
  futures : t.futures = s.futures
  futureCount : t.futureCount = s.futureCount
  sessionCount : t.sessionCount = s.sessionCount
  recentTasks : t.recentTasks = s.recentTasks
  requests : t.requests = s.requests

/-- Entries go only with their futures settled, a future that is settled has been an
entry, and nothing is dispatched. -/
structure Freed (s t : NodeService) : Prop where
  sublist : ∀ r, (t.pendingOf r).Sublist (s.pendingOf r)
  kept : ∀ r e, e ∈ s.pendingOf r → e ∈ t.pendingOf r ∨ t.futures e.2 ≠ .pending
  futures : ∀ f, t.futures f = s.futures f ∨
    t.futures f ≠ .pending ∧ ∃ r id, (id,f) ∈ s.pendingOf r ∧ (id,f) ∉ t.pendingOf r
  futureCount : t.futureCount = s.futureCount
  sessionCount : s.sessionCount ≤ t.sessionCount
  recentTasks : t.recentTasks = s.recentTasks
  requests : t.requests = s.requests

/-- The request is on the queue, and its task id is the last that is remembered. -/
def requested (s : NodeService) (settings : Settings) (n : NodeId) (r : SessionRef) (id : TaskId) (message : ServerMessage) :
    NodeService :=
  { (s.register r id).enqueue r message with
    recentTasks := (s.recentTasks ++ [id]).drop
      ((s.recentTasks ++ [id]).length - settings.maxTasks * settings.maxConnections) }.note (.taskRequested n id)

/-- The session part of a probe: refused before it takes a slot, refused with the slot
taken, refused with the slot given back, or enqueued. -/
inductive Dispatch (settings : Settings) (s t : NodeService) (i : TaskRef) (n : NodeId) (timeout : Option ℤ)
    (id : TaskId) : Prop
  | refused (e : NodeError) (guard : id ∈ s.recentTasks ∨ s.connections.lookup n = none ∨
        ∃ r, s.connections.lookup n = some r ∧ settings.maxTasks ≤ (s.pendingOf r).length)
      (state : t = s.goto i (.done (.raised e)))
  | invalid (r : SessionRef) (new : id ∉ s.recentTasks) (current : s.connections.lookup n = some r)
      (room : (s.pendingOf r).length < settings.maxTasks)
      (request : taskRequest id (orDefault timeout settings.taskTimeout) = none)
      (state : t = (s.register r id).goto i (.done (.raised .validation)))
  | full (r : SessionRef) (message : ServerMessage) (new : id ∉ s.recentTasks)
      (current : s.connections.lookup n = some r) (room : (s.pendingOf r).length < settings.maxTasks)
      (request : taskRequest id (orDefault timeout settings.taskTimeout) = some message)
      (queue : settings.maxMessages ≤ (s.sessions r).queue.length)
      (state : t = ((s.register r id).forget r id).goto i (.done (.raised (.unavailable "Worker command queue is full"))))
  | enqueued (r : SessionRef) (message : ServerMessage) (new : id ∉ s.recentTasks)
      (current : s.connections.lookup n = some r) (room : (s.pendingOf r).length < settings.maxTasks)
      (request : taskRequest id (orDefault timeout settings.taskTimeout) = some message)
      (queue : (s.sessions r).queue.length < settings.maxMessages)
      (state : t = (s.requested settings n r id message).goto i (.wait n r s.futureCount id))

/-- The step is that of a probe which finds its task id new and room in the session. -/
structure Enters (settings : Settings) (l : Label) (s : NodeService) (i : TaskRef) (n : NodeId) (r : SessionRef)
    (timeout : Option ℤ) (id : TaskId) : Prop where
  label : ∃ now fresh, l = .run i now fresh
  found : s.pc? i = some (.dispatch n timeout id)
  new : id ∉ s.recentTasks
  current : s.connections.lookup n = some r
  room : (s.pendingOf r).length < settings.maxTasks

/-- The request of the probe is put on the queue. -/
structure Requests (settings : Settings) (l : Label) (s : NodeService) (i : TaskRef) (n : NodeId) (r : SessionRef)
    (timeout : Option ℤ) (id : TaskId) : Prop extends Enters settings l s i n r timeout id where
  request : (taskRequest id (orDefault timeout settings.taskTimeout)).isSome = true
  queue : (s.sessions r).queue.length < settings.maxMessages

/-- What a step does to the slots. -/
inductive SlotStep (settings : Settings) (l : Label) (s t : NodeService) : Prop
  | freed (freed : s.Freed t) (slots : ∀ j pc, pc.slot ≠ none → (t.pc? j = some pc ↔ s.pc? j = some pc))
  | dispatched (i : TaskRef) (n : NodeId) (timeout : Option ℤ) (id : TaskId) (now : Instant) (fresh : TaskId)
      (label : l = .run i now fresh) (found : s.pc? i = some (.dispatch n timeout id))
      (dispatch : s.Dispatch settings t i n timeout id)
  | expired (i : TaskRef) (n : NodeId) (r : SessionRef) (f : FutureRef) (id : TaskId) (label : l = .timeout i)
      (found : s.pc? i = some (.wait n r f id)) (state : t = (s.settle f .cancelled).goto i (.timedOut n r id))
  | returned (i : TaskRef) (n : NodeId) (r : SessionRef) (f : FutureRef) (id : TaskId) (outcome : Outcome) (now : Instant)
      (fresh : TaskId) (label : l = .run i now fresh) (found : s.pc? i = some (.wait n r f id))
      (settled : s.futures f ≠ .pending) (u : NodeService) (tasks : u.tasks = s.tasks) (still : s.Still u)
      (state : t = u.goto i (.done outcome))
  | withdrawn (i : TaskRef) (n : NodeId) (r : SessionRef) (id : TaskId) (now : Instant) (fresh : TaskId)
      (label : l = .run i now fresh) (found : s.pc? i = some (.timedOut n r id)) (u : NodeService)
      (tasks : u.tasks = s.tasks) (still : (s.forget r id).Still u) (state : t = u.goto i (.done (.raised .timeout)))
  | cancelled (i : TaskRef) (n : NodeId) (r : SessionRef) (f : FutureRef) (id : TaskId) (label : l = .fail i)
      (found : s.pc? i = some (.wait n r f id)) (u : NodeService) (tasks : u.tasks = s.tasks)
      (still : (s.settle f .cancelled).Still u) (state : t = u.goto i (.done (.raised .cancelled)))
  | abandoned (i : TaskRef) (n : NodeId) (r : SessionRef) (id : TaskId) (label : l = .fail i)
      (found : s.pc? i = some (.timedOut n r id)) (u : NodeService) (tasks : u.tasks = s.tasks) (still : s.Still u)
      (state : t = u.goto i (.done (.raised .cancelled)))

section Freed
variable {s t u : NodeService} {r : SessionRef} {id : TaskId} {f : FutureRef}

theorem Still.of_eq (hp : ∀ r, t.pendingOf r = s.pendingOf r) (hf : t.futures = s.futures)
    (hn : t.futureCount = s.futureCount) (hm : t.sessionCount = s.sessionCount) (hr : t.recentTasks = s.recentTasks)
    (he : t.events = s.events) : s.Still t := ⟨hp,hf,hn,hm,hr,by simp only [NodeService.requests, he]⟩

theorem Still.refl (s : NodeService) : s.Still s := .of_eq (fun _ => rfl) rfl rfl rfl rfl rfl

theorem Still.trans (h : s.Still t) (h' : t.Still u) : s.Still u :=
  ⟨fun r => (h'.pending r).trans (h.pending r),h'.futures.trans h.futures,h'.futureCount.trans h.futureCount,
    h'.sessionCount.trans h.sessionCount,h'.recentTasks.trans h.recentTasks,h'.requests.trans h.requests⟩

/-- An event that is no request. -/
theorem Still.note (s : NodeService) {event : NodeEvent} (h : event.request = none) : s.Still (s.note event) :=
  ⟨fun _ => rfl,rfl,rfl,rfl,rfl,by simp [NodeService.requests,NodeService.note,h]⟩

theorem Still.queue (s : NodeService) (r : SessionRef) (queue : List ServerMessage) :
    s.Still (s.updateSession r fun session => { session with queue := queue }) := by
  refine .of_eq (fun r' => ?_) rfl rfl rfl rfl rfl
  by_cases hr : r' = r
  · subst hr
    simp [pendingOf,updateSession]
  · simp [pendingOf,updateSession,hr]

theorem Still.freed (h : s.Still t) : s.Freed t :=
  ⟨fun r => h.pending r ▸ List.Sublist.refl _,fun r e he => .inl (by rwa [h.pending]),fun f => .inl (congrFun h.futures f),h.futureCount,
    Nat.le_of_eq h.sessionCount.symm,h.recentTasks,h.requests⟩

theorem Freed.refl (s : NodeService) : s.Freed s := (Still.refl s).freed

theorem Freed.trans (h : s.Freed t) (h' : t.Freed u) : s.Freed u := by
  refine ⟨fun r => (h'.sublist r).trans (h.sublist r),fun r e he => ?_,fun f => ?_,h'.futureCount.trans h.futureCount,
    h.sessionCount.trans h'.sessionCount,h'.recentTasks.trans h.recentTasks,h'.requests.trans h.requests⟩
  · obtain he | hsettled := h.kept r e he
    · exact h'.kept r e he
    · obtain hsame | ⟨hsettled',-⟩ := h'.futures e.2
      · exact .inr (by rwa [hsame])
      · exact .inr hsettled'
  · obtain hsame' | ⟨hsettled',r,id,hmem,hgone⟩ := h'.futures f
    · obtain hsame | ⟨hsettled,r,id,hmem,hgone⟩ := h.futures f
      · exact .inl (hsame'.trans hsame)
      · exact .inr ⟨by rwa [hsame'],r,id,hmem,fun he => hgone ((h'.sublist r).subset he)⟩
    · exact .inr ⟨hsettled',r,id,(h.sublist r).subset hmem,hgone⟩

theorem pendingOf_update (s : NodeService) (r r' : SessionRef) (f : Session → Session) :
    (s.updateSession r f).pendingOf r' = if r' = r then (f (s.sessions r)).pending else s.pendingOf r' := by
  by_cases hr : r' = r
  · subst hr
    simp [pendingOf,updateSession]
  · simp [pendingOf,updateSession,hr]

theorem pendingOf_forget (s : NodeService) (r r' : SessionRef) (id : TaskId) : (s.forget r id).pendingOf r' =
    if r' = r then (s.pendingOf r).filter (fun entry => entry.1 != id) else s.pendingOf r' := pendingOf_update s r r' _

theorem pendingOf_register (s : NodeService) (r r' : SessionRef) (id : TaskId) : (s.register r id).pendingOf r' =
    if r' = r then (s.pendingOf r).filter (fun entry => entry.1 != id) ++ [(id,s.futureCount)] else s.pendingOf r' := by
  by_cases hr : r' = r
  · subst hr
    simp [register,pendingOf,updateSession,forget]
  · simp [register,pendingOf,updateSession,forget,hr]

/-- A slot that is taken and given back; an older entry under the task id goes with it. -/
theorem pendingOf_register_forget (s : NodeService) (r r' : SessionRef) (id : TaskId) :
    ((s.register r id).forget r id).pendingOf r' = (s.forget r id).pendingOf r' := by
  simp only [pendingOf_forget, pendingOf_register]
  split <;> simp

theorem mem_pendingOf_forget {s : NodeService} {r r' : SessionRef} {id id' : TaskId} {f : FutureRef} :
    (id',f) ∈ (s.forget r id).pendingOf r' ↔ (id',f) ∈ s.pendingOf r' ∧ ¬ (r' = r ∧ id' = id) := by
  rw [pendingOf_forget]
  by_cases hr : r' = r
  · subst hr
    simp
  · simp [hr]

/-- What is entered next to the other entries, in the place of an entry under the same id. -/
theorem mem_pendingOf_register {s : NodeService} {r r' : SessionRef} {id id' : TaskId} {f : FutureRef} :
    (id',f) ∈ (s.register r id).pendingOf r' ↔
      (id',f) ∈ s.pendingOf r' ∧ ¬ (r' = r ∧ id' = id) ∨ r' = r ∧ id' = id ∧ f = s.futureCount := by
  rw [pendingOf_register]
  by_cases hr : r' = r
  · subst hr
    simp
  · simp [hr]

theorem done_iff {outcome : Future} : outcome.done = true ↔ outcome ≠ .pending := by
  cases outcome <;> simp [Future.done]

/-- The exception goes to the futures of the entries that are not done, one after another. -/
theorem settle_all (e : NodeError) (f : FutureRef) : ∀ (entries : List (TaskId × FutureRef)) (futures : FutureRef → Future),
    let settled := entries.foldl (fun futures entry =>
      if (futures entry.2).done then futures else Function.update futures entry.2 (.exception e)) futures
    (settled f = futures f ∨ settled f ≠ .pending ∧ ∃ id, (id,f) ∈ entries) ∧
      (settled f = .pending → futures f = .pending ∧ ∀ id, (id,f) ∉ entries) := by
  intro entries
  induction entries with
  | nil => exact fun futures => ⟨.inl rfl,fun h => ⟨h,by simp⟩⟩
  | cons entry entries ih =>
    intro futures
    -- one entry, then the others
    have hone : ∃ next, next = (if (futures entry.2).done then futures else Function.update futures entry.2 (.exception e)) ∧
        (next f = futures f ∨ next f ≠ .pending ∧ f = entry.2) ∧ (next f = .pending → futures f = .pending ∧ f ≠ entry.2) := by
      refine ⟨_,rfl,?_⟩
      split
      next hdone =>
        refine ⟨.inl rfl,fun h => ⟨h,?_⟩⟩
        rintro rfl
        rw [h] at hdone
        cases hdone
      · by_cases hf : f = entry.2
        · subst hf
          simp
        · rw [Function.update_of_ne hf]
          exact ⟨.inl rfl,fun h => ⟨h,hf⟩⟩
    obtain ⟨next,hnext,hchange,hundone⟩ := hone
    obtain ⟨hchange',hundone'⟩ := ih next
    dsimp only [List.foldl_cons] at hchange' hundone' ⊢
    rw [← hnext]
    refine ⟨?_,fun h => ?_⟩
    · obtain hsame' | ⟨hsettled,id,hmem⟩ := hchange'
      · obtain hsame | ⟨hsettled,hf⟩ := hchange
        · exact .inl (hsame'.trans hsame)
        · exact .inr ⟨by rwa [hsame'],entry.1,by rw [hf]; exact List.mem_cons_self⟩
      · exact .inr ⟨hsettled,id,List.mem_cons_of_mem _ hmem⟩
    · obtain ⟨h,hnot⟩ := hundone' h
      obtain ⟨h,hne⟩ := hundone h
      refine ⟨h,fun id hmem => ?_⟩
      obtain rfl | hmem := List.mem_cons.mp hmem
      · exact hne rfl
      · exact hnot id hmem

/-- All futures of the session are settled and its entries go. -/
theorem Freed.failPending (s : NodeService) (r : SessionRef) (e : NodeError) : s.Freed (s.failPending r e) := by
  have hpending (r' : SessionRef) : (s.failPending r e).pendingOf r' = if r' = r then [] else s.pendingOf r' := by
    by_cases hr : r' = r
    · subst hr
      simp [NodeService.failPending,pendingOf]
    · simp [NodeService.failPending,pendingOf,hr]
  have hfutures (f : FutureRef) := settle_all e f (s.pendingOf r) s.futures
  refine ⟨fun r' => ?_,fun r' entry he => ?_,fun f => ?_,rfl,Nat.le_refl _,rfl,rfl⟩
  · rw [hpending]
    split
    · exact List.nil_sublist _
    · exact List.Sublist.refl _
  · rw [hpending]
    by_cases hr : r' = r
    · subst hr
      exact .inr fun h => ((hfutures entry.2).2 h).2 entry.1 he
    · rw [if_neg hr]
      exact .inl he
  · obtain hsame | ⟨hsettled,id,hmem⟩ := (hfutures f).1
    · exact .inl hsame
    · refine .inr ⟨hsettled,r,id,hmem,?_⟩
      rw [hpending,if_pos rfl]
      exact List.not_mem_nil

theorem Freed.popConnection (s : NodeService) (n : NodeId) (e : NodeError) : s.Freed (s.popConnection n e) := by
  unfold NodeService.popConnection
  split
  · exact .refl s
  next r _ =>
    have hfilter : s.Freed { s with connections := s.connections.filter fun entry => entry.1 != n } :=
      Still.freed (.of_eq (fun _ => rfl) rfl rfl rfl rfl rfl)
    exact hfilter.trans (.failPending _ r e)

theorem settle_self (s : NodeService) (f : FutureRef) {outcome : Future} (h : outcome ≠ .pending) :
    (s.settle f outcome).futures f ≠ .pending := by
  unfold settle
  dsimp only
  split
  next hdone => exact done_iff.mp hdone
  · rw [Function.update_self]
    exact h

theorem settle_other (s : NodeService) {f f' : FutureRef} (h : f' ≠ f) (outcome : Future) :
    (s.settle f outcome).futures f' = s.futures f' := by
  unfold settle
  dsimp only
  split
  · rfl
  · exact Function.update_of_ne h _ _

/-- The entry under the task id goes, and its future is settled unless it has been. -/
theorem Freed.forget_settle (hkeys : ((s.pendingOf r).map Prod.fst).Nodup) (hentry : (s.pendingOf r).lookup id = some f)
    {outcome : Future} (houtcome : outcome ≠ .pending) : s.Freed ((s.forget r id).settle f outcome) := by
  have hmem := mem_of_lookup hentry
  have hpending (r' : SessionRef) : ((s.forget r id).settle f outcome).pendingOf r' =
      if r' = r then (s.pendingOf r).filter (fun entry => entry.1 != id) else s.pendingOf r' := pendingOf_forget s r r' id
  have hsettled := settle_self (s.forget r id) f houtcome
  refine ⟨fun r' => ?_,fun r' entry he => ?_,fun f' => ?_,rfl,Nat.le_refl _,rfl,rfl⟩
  · rw [hpending]
    split
    next hr => rw [hr]; exact List.filter_sublist
    · exact List.Sublist.refl _
  · rw [hpending]
    by_cases hr : r' = r
    · subst hr
      rw [if_pos rfl]
      by_cases hid : entry.1 = id
      · -- the key is there once
        have hsame : entry = (id,f) := List.inj_on_of_nodup_map hkeys he hmem hid
        exact .inr (by rw [hsame]; exact hsettled)
      · exact .inl (List.mem_filter.mpr ⟨he,by simpa using hid⟩)
    · rw [if_neg hr]
      exact .inl he
  · by_cases hf : f' = f
    · subst hf
      refine .inr ⟨hsettled,r,id,hmem,?_⟩
      rw [hpending,if_pos rfl]
      simp
    · exact .inl (settle_other (s.forget r id) hf outcome)

theorem Freed.receiveResult (s : NodeService) (n : NodeId) (id : TaskId) (outcome : Future) (event : Option NodeEvent)
    (houtcome : outcome ≠ .pending) (hevent : ∀ e, event = some e → e.request = none) (hkeys : ∀ r, ((s.pendingOf r).map Prod.fst).Nodup) : s.Freed (s.receiveResult n id outcome event) := by
  unfold NodeService.receiveResult
  split
  · exact .refl s
  next r _ =>
    split
    · exact .refl s
    next f hf =>
      have hfreed := Freed.forget_settle (hkeys r) hf houtcome
      dsimp only
      split
      next hdone =>
        have hsame : (s.forget r id).settle f outcome = s.forget r id := by
          have hdone' : ((s.forget r id).futures f).done = true := hdone
          simp only [settle, hdone', if_true]
        rwa [hsame] at hfreed
      · cases event with
        | none => exact hfreed
        | some e => exact hfreed.trans (Still.note _ (hevent e rfl)).freed

/-- A new session has no entries. -/
theorem Freed.addConnection (s : NodeService) (n : NodeId) (hunborn : s.pendingOf s.sessionCount = []) :
    s.Freed (s.addConnection n) := by
  have hpending (r : SessionRef) : (s.addConnection n).pendingOf r = s.pendingOf r := by
    by_cases hr : r = s.sessionCount
    · rw [hr,hunborn]
      simp [pendingOf,NodeService.addConnection]
    · simp [pendingOf,NodeService.addConnection,hr]
  exact ⟨fun r => hpending r ▸ List.Sublist.refl _,fun r e he => .inl (by rwa [hpending]),fun _ => .inl rfl,rfl,
    Nat.le_succ _,rfl,rfl⟩

end Freed

section Steps
variable {settings : Settings} {l : Label} {s t u : NodeService} {i : TaskRef} {pc pc' : Pc}

theorem pc?_goto_self (hpc : s.pc? i = some pc) (htasks : u.tasks = s.tasks) : (u.goto i pc').pc? i = some pc' :=
  (pc?_goto_ite hpc htasks).trans (if_pos rfl)

theorem pc?_goto_other {j : TaskRef} (hpc : s.pc? i = some pc) (htasks : u.tasks = s.tasks) (hj : j ≠ i) :
    (u.goto i pc').pc? j = s.pc? j := (pc?_goto_ite hpc htasks).trans (if_neg hj)

theorem goto_slots (hpc : s.pc? i = some pc) (htasks : u.tasks = s.tasks) (hslot : pc.slot = none) (hslot' : pc'.slot = none)
    (j : TaskRef) (pc₁ : Pc) (hslot₁ : pc₁.slot ≠ none) : (u.goto i pc').pc? j = some pc₁ ↔ s.pc? j = some pc₁ := by
  rw [pc?_goto_ite hpc htasks]
  split
  next hj =>
    subst hj
    rw [hpc]
    refine ⟨fun h => ?_,fun h => ?_⟩
    · cases h
      exact absurd hslot' hslot₁
    · cases h
      exact absurd hslot hslot₁
  · rfl

/-- A task without a slot goes on without one. -/
theorem SlotStep.goto (hpc : s.pc? i = some pc) (htasks : u.tasks = s.tasks) (hfreed : s.Freed u) (hslot : pc.slot = none)
    (hslot' : pc'.slot = none) : SlotStep settings l s (u.goto i pc') :=
  .freed (hfreed.trans (Still.freed (.of_eq (fun _ => rfl) rfl rfl rfl rfl rfl))) (goto_slots hpc htasks hslot hslot')

theorem SlotStep.leave (hpc : s.pc? i = some pc) (htasks : u.tasks = s.tasks) (hfreed : s.Freed u) (hslot : pc.slot = none)
    (pc₀ : Pc) (e : NodeError) : SlotStep settings l s (u.leave i pc₀ e) := by
  have hrelease : s.Freed (u.release i) := hfreed.trans (Still.freed (.of_eq (fun _ => rfl) rfl rfl rfl rfl rfl))
  unfold NodeService.leave
  split
  · exact .goto hpc htasks hrelease hslot rfl
  · exact .goto hpc htasks hrelease hslot rfl

theorem SlotStep.nextStale (hpc : s.pc? i = some pc) (htasks : u.tasks = s.tasks) (hfreed : s.Freed u)
    (hslot : pc.slot = none) (rest : List NodeId) (k : AfterSweep) :
    SlotStep settings l s (u.goto i (nextStale rest k)) := by
  cases rest with
  | nil => exact .goto hpc htasks hfreed hslot rfl
  | cons => exact .goto hpc htasks hfreed hslot rfl

theorem SlotStep.disconnected (hpc : s.pc? i = some pc) (htasks : u.tasks = s.tasks) (hfreed : s.Freed u)
    (hslot : pc.slot = none) (n : NodeId) (k : AfterDisconnect) : SlotStep settings l s (u.disconnected i n k) := by
  cases k with
  | socket => exact .goto hpc htasks hfreed hslot rfl
  | sweep rest k => exact .nextStale (u := u.note (.offline n)) hpc htasks (hfreed.trans (Still.note u rfl).freed) hslot rest k
  | disabled record =>
    exact .goto (u := u.note (.disabled n)) hpc htasks (hfreed.trans (Still.note u rfl).freed) hslot rfl

theorem dispatch_cases (settings : Settings) (s : NodeService) (i : TaskRef) (n : NodeId) (timeout : Option ℤ) (id : TaskId) :
    s.Dispatch settings (s.dispatch settings i n timeout id) i n timeout id := by
  unfold NodeService.dispatch
  split
  next hrecent => exact .refused _ (.inl (by simpa using hrecent)) rfl
  next hrecent =>
    have hnew : id ∉ s.recentTasks := by simpa using hrecent
    split
    next hcur => exact .refused _ (.inr (.inl hcur)) rfl
    next r hcur =>
      split
      next htasks => exact .refused _ (.inr (.inr ⟨r,hcur,htasks⟩)) rfl
      next htasks =>
        have hroom : (s.pendingOf r).length < settings.maxTasks := Nat.lt_of_not_le htasks
        dsimp only
        split
        next hrequest => exact .invalid r hnew hcur hroom hrequest rfl
        next request hrequest =>
          split
          next hqueue => exact .full r request hnew hcur hroom hrequest hqueue rfl
          next hqueue => exact .enqueued r request hnew hcur hroom hrequest (Nat.lt_of_not_le hqueue) rfl

/-- A probe that finds its task id new and room in the session is not refused. -/
theorem Enters.dispatch {n : NodeId} {r : SessionRef} {timeout : Option ℤ} {id : TaskId}
    (h : Enters settings l s i n r timeout id) (ht : step settings l s = some t) :
    taskRequest id (orDefault timeout settings.taskTimeout) = none ∧
        t = (s.register r id).goto i (.done (.raised .validation)) ∨
      (taskRequest id (orDefault timeout settings.taskTimeout)).isSome = true ∧
        settings.maxMessages ≤ (s.sessions r).queue.length ∧
        t = ((s.register r id).forget r id).goto i (.done (.raised (.unavailable "Worker command queue is full"))) ∨
      ∃ message, taskRequest id (orDefault timeout settings.taskTimeout) = some message ∧
        t = (s.requested settings n r id message).goto i (.wait n r s.futureCount id) := by
  obtain ⟨⟨now,fresh,rfl⟩,found,new,current,room⟩ := h
  simp only [step, found, resume, Option.some.injEq] at ht
  subst ht
  cases dispatch_cases settings s i n timeout id with
  | refused e guard =>
    obtain hrecent | hnone | ⟨r',hcur,hfull⟩ := guard
    · exact absurd hrecent new
    · simp [current] at hnone
    · cases current.symm.trans hcur
      exact absurd room (Nat.not_lt.mpr hfull)
  | invalid r' new' current' room' request state =>
    cases current.symm.trans current'
    exact .inl ⟨request,state⟩
  | full r' message new' current' room' request queue state =>
    cases current.symm.trans current'
    exact .inr (.inl ⟨by rw [request]; rfl,queue,state⟩)
  | enqueued r' message new' current' room' request queue state =>
    cases current.symm.trans current'
    exact .inr (.inr ⟨message,request,state⟩)

theorem pendingOf_requested (settings : Settings) (s : NodeService) (n : NodeId) (r r' : SessionRef) (id : TaskId) (message : ServerMessage) :
    (s.requested settings n r id message).pendingOf r' = (s.register r id).pendingOf r' :=
  (Still.queue (s.register r id) r _).pending r'

theorem connected_slots {n : NodeId} {status : NodeStatus} (hunborn : s.pendingOf s.sessionCount = [])
    (hpc : s.pc? i = some (.connect n status)) :
    SlotStep settings l s (((s.popConnection n (.disconnected "Worker session was replaced")).addConnection n).updateTask i
      fun task => { task with pc := .register n status, connected := some (n,s.sessionCount) }) := by
  have hpop := Freed.popConnection s n (.disconnected "Worker session was replaced")
  obtain ⟨htasks,-,-,-,hcount⟩ := popConnection_frame s n (.disconnected "Worker session was replaced")
  have hunborn' : (s.popConnection n (.disconnected "Worker session was replaced")).pendingOf
      (s.popConnection n (.disconnected "Worker session was replaced")).sessionCount = [] := by
    rw [hcount]
    exact List.sublist_nil.mp (hunborn ▸ hpop.sublist s.sessionCount)
  refine .freed ((hpop.trans (.addConnection _ n hunborn')).trans (Still.freed (.of_eq (fun _ => rfl) rfl rfl rfl rfl rfl)))
    fun j pc hslot => ?_
  obtain ⟨task,htask,hfound⟩ := Option.map_eq_some_iff.mp hpc
  by_cases hj : j = i
  · subst hj
    refine ⟨fun h => ?_,fun h => ?_⟩
    · simp only [pc?, updateTask, NodeService.addConnection, Function.update_self, htasks, htask, Option.map_some,
        Option.some.injEq] at h
      subst h
      exact absurd rfl hslot
    · cases hpc.symm.trans h
      exact absurd rfl hslot
  · simp [pc?,updateTask,NodeService.addConnection,htasks,hj]

/-- The handler of the timeout takes out the entry under the task id, and its cancel
request is none that is counted. -/
theorem cancelProbe_still (settings : Settings) (s : NodeService) (i : TaskRef) (n : NodeId) (r : SessionRef) (id : TaskId) :
    ∃ u, u.tasks = s.tasks ∧ (s.forget r id).Still u ∧
      s.cancelProbe settings i n r id = u.goto i (.done (.raised .timeout)) := by
  have hqueue : (s.forget r id).Still ((s.forget r id).enqueue r (.taskCancel id)) := .queue _ r _
  unfold cancelProbe
  dsimp only
  split
  · exact ⟨((s.forget r id).enqueue r (.taskCancel id)).note (.taskTimedOut n id),rfl,hqueue.trans (.note _ rfl),rfl⟩
  · exact ⟨(s.forget r id).note (.taskTimedOut n id),rfl,.note _ rfl,rfl⟩

/-- What has to do with no slot. -/
theorem Freed.rows (s : NodeService) (records : Table) (lock : Option TaskRef) :
    s.Freed { s with records := records, databaseLock := lock } :=
  Still.freed (.of_eq (fun _ => rfl) rfl rfl rfl rfl rfl)

theorem Locks.slots {now : Instant} (locks : Locks settings now pc pc') : pc.slot = none ∧ pc'.slot = none := by
  cases locks <;> exact ⟨rfl,rfl⟩

theorem Finds.slots {fresh : TaskId} (finds : s.Finds fresh pc pc') : pc.slot = none ∧ pc'.slot = none := by
  cases finds <;> exact ⟨rfl,rfl⟩

theorem resume_slots {now : Instant} {fresh : TaskId} (hunborn : s.pendingOf s.sessionCount = []) (hpc : s.pc? i = some pc)
    (h : s.resume settings i now fresh pc = some t) : SlotStep settings (.run i now fresh) s t := by
  cases resume_cases h with
  | locked locks =>
    obtain ⟨hslot,hslot'⟩ := locks.slots
    exact .goto (u := { s with databaseLock := some i }) hpc rfl (.rows s s.records _) hslot hslot'
  | went finds =>
    obtain ⟨hslot,hslot'⟩ := finds.slots
    exact .goto hpc rfl (.refl s) hslot hslot'
  | left e fails =>
    have hslot : pc.slot = none := by cases pc <;> first | rfl | cases fails
    exact .leave hpc rfl (.refl s) hslot _ _
  | refused => exact .leave hpc rfl (.refl s) rfl _ _
  | denied | reported => exact .goto hpc rfl (.refl s) rfl rfl
  | inserted hello at' records => exact .goto (u := { s with records := records }) hpc rfl (.rows s records s.databaseLock) rfl rfl
  | enrolled => exact .goto (u := s.update _ _) hpc rfl (.rows s _ s.databaseLock) rfl rfl
  | announced n created record =>
    have hnote : s.Still (s.note (if created then .registered n record.status else .connected n record.status)) :=
      .note s (by split <;> rfl)
    exact .goto (u := (s.note _).release i) hpc rfl (hnote.freed.trans (.rows _ s.records _)) rfl rfl
  | connected n status => exact connected_slots hunborn hpc
  | registered n status =>
    obtain ⟨task,htask,hfound⟩ := Option.map_eq_some_iff.mp hpc
    refine .freed (Still.freed (.of_eq (fun _ => rfl) rfl rfl rfl rfl rfl)) fun j pc hslot => ?_
    by_cases hj : j = i
    · subst hj
      refine ⟨fun h => ?_,fun h => ?_⟩
      · simp only [pc?, updateTask, Function.update_self, htask, Option.map_some, Option.some.injEq] at h
        subst h
        exact absurd rfl hslot
      · cases hpc.symm.trans h
        exact absurd rfl hslot
    · simp [pc?,updateTask,hj]
  | beaten n => exact .goto (u := (s.update n _).release i) hpc rfl (.rows s _ _) rfl rfl
  | popped n k => exact .goto hpc (popConnection_frame s n _).1 (.popConnection s n _) rfl rfl
  | gone n k => exact .disconnected (u := s.release i) hpc rfl (.rows s s.records _) rfl n k
  | published n k =>
    exact .disconnected (u := (s.note _).release i) hpc rfl ((Still.note s rfl).freed.trans (.rows _ s.records _)) rfl n k
  | wentOffline n | switched n => exact .goto (u := s.update n _) hpc rfl (.rows s _ s.databaseLock) rfl rfl
  | swept stale k => exact .nextStale (u := s.markOffline stale) hpc rfl (.rows s _ s.databaseLock) rfl _ k
  | enabled | disabled => exact .goto hpc rfl (.rows s s.records _) rfl rfl
  | dispatched n timeout id => exact .dispatched i n timeout id now fresh rfl hpc (dispatch_cases _ s i n timeout id)
  | answered n r f id result future =>
    exact .returned i n r f id _ now fresh rfl hpc (by simp [future]) (s.note (.taskCompleted n id)) rfl (.note s rfl) rfl
  | failed n r f id e future => exact .returned i n r f id _ now fresh rfl hpc (by simp [future]) s rfl (.refl s) rfl
  | cancelled n r id =>
    obtain ⟨u,htasks,hstill,hstate⟩ := cancelProbe_still settings s i n r id
    exact .withdrawn i n r id now fresh rfl hpc u htasks hstill hstate

theorem spawn_slots (hfresh : s.tasks s.taskCount = none) (hslot : pc.slot = none) : SlotStep settings l s (s.spawn pc) := by
  refine .freed (Still.freed (.of_eq (fun _ => rfl) rfl rfl rfl rfl rfl)) fun j pc₁ hslot₁ => ?_
  by_cases hj : j = s.taskCount
  · subst hj
    refine ⟨fun h => ?_,fun h => ?_⟩
    · simp only [pc?, spawn, Function.update_self, Option.map_some, Option.some.injEq] at h
      subst h
      exact absurd hslot hslot₁
    · simp [pc?,hfresh] at h
  · simp [pc?,spawn,hj]

theorem handle_slots {n : NodeId} {now : Instant} (hkeys : ∀ r, ((s.pendingOf r).map Prod.fst).Nodup)
    (hpc : s.pc? i = some (.serving n)) (message : ClientMessage) : SlotStep settings l s (s.handle i n now message) := by
  cases message with
  | heartbeat | capabilities => exact .goto hpc rfl (.refl s) rfl rfl
  | hello | cancel => exact .freed (.refl s) fun _ _ _ => Iff.rfl
  | result id p =>
    have hfreed := Freed.receiveResult s n id (.result p) none (by simp) (by simp) hkeys
    refine .freed hfreed fun j pc _ => ?_
    rw [NodeService.handle,pc?,receiveResult_tasks]
    rfl
  | error id code message =>
    have hfreed := Freed.receiveResult s n id (.exception (.failed message)) (some (.taskFailed n id code))
      (by simp) (fun e he => by cases he; rfl) hkeys
    refine .freed hfreed fun j pc _ => ?_
    rw [NodeService.handle,pc?,receiveResult_tasks]
    rfl

/-- Each step, in a state in which no session has two entries under one key and one that
is yet to be created has none. -/
theorem step_slots (hfresh : s.tasks s.taskCount = none) (hunborn : s.pendingOf s.sessionCount = [])
    (hkeys : ∀ r, ((s.pendingOf r).map Prod.fst).Nodup) (h : step settings l s = some t) : SlotStep settings l s t := by
  cases l with
  | openSocket | sweep | setEnabled =>
    cases h
    exact spawn_slots hfresh rfl
  | receive i message now =>
    simp only [step] at h
    split at h
    next hpc =>
      cases h
      exact .goto hpc rfl (.refl s) rfl rfl
    next hpc =>
      cases h
      exact .goto hpc rfl (.refl s) rfl rfl
    next hpc =>
      cases h
      exact .goto hpc rfl (.refl s) rfl rfl
    next hpc =>
      cases h
      exact handle_slots hkeys hpc _
    next hpc =>
      cases h
      exact .leave hpc rfl (.refl s) rfl _ _
    · cases h
  | deliver i =>
    simp only [step] at h
    split at h
    next n m r sent htask =>
      split at h
      · cases h
      next message rest hq =>
        cases h
        have htask' (u : NodeService) (g : Task → Task) : u.Still (u.updateTask i g) := .of_eq (fun _ => rfl) rfl rfl rfl rfl rfl
        refine .freed ((Still.queue s r rest).trans (htask' _ _)).freed fun j pc hslot => ?_
        by_cases hj : j = i
        · subst hj
          cases message <;> simp [pc?,updateTask,updateSession,htask]
        · simp [pc?,updateTask,updateSession,hj]
    · cases h
  | run i now fresh =>
    simp only [step] at h
    split at h
    next pc hpc => exact resume_slots hunborn hpc h
    · cases h
  | timeout i =>
    simp only [step] at h
    split at h
    next n r f id hpc =>
      cases h
      exact .expired i n r f id rfl hpc rfl
    · cases h
  | fail i =>
    simp only [step] at h
    split at h
    · cases h
    · cases h
    next n r f id hpc =>
      cases h
      exact .cancelled i n r f id rfl hpc ((s.settle f .cancelled).release i) rfl (.of_eq (fun _ => rfl) rfl rfl rfl rfl rfl) rfl
    next pc _ hwait hpc =>
      cases h
      cases hslot : pc.slot with
      | none => exact .leave hpc rfl (.refl s) hslot _ _
      | some slot =>
        cases pc with
        | wait n r f id => exact absurd rfl (hwait n r f id)
        | timedOut n r id => exact .abandoned i n r id rfl hpc (s.release i) rfl (.of_eq (fun _ => rfl) rfl rfl rfl rfl rfl) rfl
        | _ => cases hslot

end Steps

/-! ## What holds in every state -/

/-- Of the sessions: a task id is a key once, there is room for `worker_max_tasks`, and a
session that is yet to be created has no entries. -/
structure SlotsBounded (settings : Settings) (records : Table) (s : NodeService) : Prop where
  reachable : ∃ ls, exec (step settings) ls (initial records) = some s
  keys : ∀ r, ((s.pendingOf r).map Prod.fst).Nodup
  unborn : ∀ r, s.sessionCount ≤ r → s.pendingOf r = []
  tasks : ∀ r, (s.pendingOf r).length ≤ settings.maxTasks
  connections : s.connections.length ≤ settings.maxConnections

section Bounds
variable {settings : Settings} {records : Table} {l : Label} {s t : NodeService} {i j : TaskRef} {n : NodeId}
  {r r' : SessionRef} {f f' : FutureRef} {id id' : TaskId}

theorem SlotsBounded.probing (hs : SlotsBounded settings records s) : ∃ ls, Probing settings records ls s := by
  obtain ⟨ls,hls⟩ := hs.reachable
  exact ⟨ls,probing_exec hls⟩

theorem SlotsBounded.fresh (hs : SlotsBounded settings records s) : s.tasks s.taskCount = none := by
  obtain ⟨ls,hls⟩ := hs.reachable
  have hsound : s.Sound := exec_induction (P := fun _ s => s.Sound) (sound_initial records)
    (fun _ _ _ _ _ hs ht => step_sound hs ht) hls
  exact hsound.fresh _ (Nat.le_refl _)

theorem SlotsBounded.slots (hs : SlotsBounded settings records s) (h : step settings l s = some t) : SlotStep settings l s t :=
  step_slots hs.fresh (hs.unborn _ (Nat.le_refl _)) hs.keys h

/-- Entries go, or one is entered in the current session of a node that has room for it. -/
theorem SlotStep.entries (h : SlotStep settings l s t) : s.sessionCount ≤ t.sessionCount ∧
    ((∀ r, (t.pendingOf r).Sublist (s.pendingOf r)) ∨ ∃ i n r timeout id, Enters settings l s i n r timeout id ∧
      (taskRequest id (orDefault timeout settings.taskTimeout) = none ∨
        (s.sessions r).queue.length < settings.maxMessages) ∧
      ∀ r', t.pendingOf r' = (s.register r id).pendingOf r') := by
  have hforget (r : SessionRef) (id : TaskId) (r' : SessionRef) :
      ((s.forget r id).pendingOf r').Sublist (s.pendingOf r') := by
    rw [pendingOf_forget]
    split
    next hr => rw [hr]; exact List.filter_sublist
    · exact List.Sublist.refl _
  cases h with
  | freed freed => exact ⟨freed.sessionCount,.inl freed.sublist⟩
  | dispatched i n timeout id now fresh label found dispatch =>
    cases dispatch with
    | refused e guard state =>
      subst state
      exact ⟨Nat.le_refl _,.inl fun _ => List.Sublist.refl _⟩
    | invalid r new current room request state =>
      subst state
      exact ⟨Nat.le_refl _,.inr ⟨i,n,r,timeout,id,⟨⟨now,fresh,label⟩,found,new,current,room⟩,.inl request,fun _ => rfl⟩⟩
    | full r message new current room request queue state =>
      subst state
      exact ⟨Nat.le_refl _,.inl fun r' => pendingOf_register_forget s r r' id ▸ hforget r id r'⟩
    | enqueued r message new current room request queue state =>
      subst state
      exact ⟨Nat.le_refl _,.inr ⟨i,n,r,timeout,id,⟨⟨now,fresh,label⟩,found,new,current,room⟩,.inr queue,
        fun r' => pendingOf_requested settings s n r r' id message⟩⟩
  | expired i n r f id label found state =>
    subst state
    exact ⟨Nat.le_refl _,.inl fun _ => List.Sublist.refl _⟩
  | returned i n r f id outcome now fresh label found settled u tasks still state =>
    subst state
    exact ⟨Nat.le_of_eq still.sessionCount.symm,.inl fun r => still.freed.sublist r⟩
  | withdrawn i n r id now fresh label found u tasks still state =>
    subst state
    exact ⟨Nat.le_of_eq still.sessionCount.symm,.inl fun r' => (still.freed.sublist r').trans (hforget r id r')⟩
  | cancelled i n r f id label found u tasks still state =>
    subst state
    exact ⟨Nat.le_of_eq still.sessionCount.symm,.inl fun r => still.freed.sublist r⟩
  | abandoned i n r id label found u tasks still state =>
    subst state
    exact ⟨Nat.le_of_eq still.sessionCount.symm,.inl fun r => still.freed.sublist r⟩

/-- A probe that waits after the step has waited before, or its request is the one that is
enqueued, and it waits on the next future. -/
theorem SlotStep.waits (h : SlotStep settings l s t) (hj : t.pc? j = some (.wait n r f id)) :
    s.pc? j = some (.wait n r f id) ∨ ∃ timeout, Requests settings l s j n r timeout id ∧ f = s.futureCount := by
  have hgoto {u : NodeService} {i : TaskRef} {pc pc' : Pc} (hpc : s.pc? i = some pc) (htasks : u.tasks = s.tasks)
      (hnot : pc'.awaits = none) (hj : (u.goto i pc').pc? j = some (.wait n r f id)) : s.pc? j = some (.wait n r f id) := by
    rw [pc?_goto_ite hpc htasks] at hj
    obtain ⟨-,rfl⟩ | hj := pc_cases hj
    · cases hnot
    · exact hj
  cases h with
  | freed freed slots => exact .inl ((slots j _ (by simp [Pc.slot])).mp hj)
  | dispatched i n' timeout id' now fresh label found dispatch =>
    cases dispatch with
    | refused e guard state => exact .inl (hgoto found rfl rfl (state ▸ hj))
    | invalid r new current room request state =>
      exact .inl (hgoto (u := s.register r id') found rfl rfl (state ▸ hj))
    | full r message new current room request queue state =>
      exact .inl (hgoto (u := (s.register r id').forget r id') found rfl rfl (state ▸ hj))
    | enqueued r message new current room request queue state =>
      rw [state] at hj
      by_cases hji : j = i
      · subst hji
        have hself := hj.symm.trans (pc?_goto_self found rfl)
        cases hself
        exact .inr ⟨timeout,⟨⟨⟨now,fresh,label⟩,found,new,current,room⟩,by rw [request]; rfl,queue⟩,rfl⟩
      · exact .inl ((pc?_goto_other found rfl hji).symm.trans hj)
  | expired i n r f id label found state => exact .inl (hgoto (u := s.settle f .cancelled) found rfl rfl (state ▸ hj))
  | returned i n r f id outcome now fresh label found settled u tasks still state =>
    exact .inl (hgoto found tasks rfl (state ▸ hj))
  | withdrawn i n r id now fresh label found u tasks still state => exact .inl (hgoto found tasks rfl (state ▸ hj))
  | cancelled i n r f id label found u tasks still state => exact .inl (hgoto found tasks rfl (state ▸ hj))
  | abandoned i n r id label found u tasks still state => exact .inl (hgoto found tasks rfl (state ▸ hj))

theorem connect_length {status : NodeStatus} (h : s.connections.length ≤ settings.maxConnections) :
    (s.connect settings i n status).connections.length ≤ settings.maxConnections := by
  unfold connect
  split
  · exact h
  next hfull =>
    have hlength : (s.popConnection n (.disconnected "Worker session was replaced")).connections.length <
        settings.maxConnections := by
      unfold NodeService.popConnection
      split
      next hnone =>
        simp only [hnone, Option.isNone_none, Bool.true_and, decide_eq_true_eq, Nat.not_le] at hfull
        exact hfull
      next r hcur =>
        -- an entry of the node goes
        refine Nat.lt_of_lt_of_le ?_ h
        exact List.length_filter_lt_length_iff_exists.mpr ⟨(n,r),mem_of_lookup hcur,by simp⟩
    simp only [updateTask, NodeService.addConnection, List.length_append, List.length_singleton]
    exact hlength

theorem step_connections (hs : s.connections.length ≤ settings.maxConnections) (h : step settings l s = some t) :
    t.connections.length ≤ settings.maxConnections := by
  have hsame (hsame : t.connections = s.connections) : t.connections.length ≤ settings.maxConnections := by rwa [hsame]
  cases step_next h with
  | spawned pc label state =>
    rw [state]
    exact hs
  | other i pc label found quiet =>
    cases quiet with
    | mk pc' advance records connections => exact hsame connections
  | ran i now fresh pc label found effect =>
    cases effect with
    | quiet safe quiet =>
      cases quiet with
      | mk pc' advance records connections => exact hsame connections
    | refused hello now at' taken quiet =>
      cases quiet with
      | mk pc' advance records connections => exact hsame connections
    | popped n k at' advance records connections =>
      rw [connections]
      unfold NodeService.popConnection
      split
      · exact hs
      · exact List.filter_sublist.length_le.trans hs
    | connected n status at' =>
      subst label at'
      simp only [step, found, resume, Option.some.injEq] at h
      rw [← h]
      exact connect_length hs
    | wrote n f at' pc' advance records connections => exact hsame connections
    | inserted hello now at' advance records connections => exact hsame connections
    | swept safe stale pc' advance records connections => exact hsame connections

theorem step_slotsBounded (hs : SlotsBounded settings records s) (h : step settings l s = some t) : SlotsBounded settings records t := by
  obtain ⟨ls,hls⟩ := hs.reachable
  have hreachable : ∃ ls, exec (step settings) ls (initial records) = some t := by
    refine ⟨ls ++ [l],?_⟩
    rw [exec_append,hls]
    simpa [exec] using h
  obtain ⟨hcount,hsub | ⟨i,n,r,timeout,id,henters,-,hpending⟩⟩ := (hs.slots h).entries
  · exact ⟨hreachable,fun r => ((hsub r).map Prod.fst).nodup (hs.keys r),
      fun r hr => List.sublist_nil.mp (hs.unborn r (hcount.trans hr) ▸ hsub r),
      fun r => (hsub r).length_le.trans (hs.tasks r),step_connections hs.connections h⟩
  · refine ⟨hreachable,fun r' => ?_,fun r' hr' => ?_,fun r' => ?_,step_connections hs.connections h⟩
    · rw [hpending,pendingOf_register]
      split
      next hr =>
        rw [List.map_append,List.nodup_append]
        refine ⟨(List.filter_sublist.map Prod.fst).nodup (hs.keys r),by simp,fun a ha b hb => ?_⟩
        obtain ⟨entry,hentry,rfl⟩ := List.mem_map.mp ha
        obtain rfl : b = id := by simpa using hb
        simpa using (List.mem_filter.mp hentry).2
      · exact hs.keys r'
    · obtain ⟨ls,hp⟩ := hs.probing
      have hr : r < s.sessionCount := hp.sessions n r (mem_of_lookup henters.current)
      have hne : r' ≠ r := Nat.ne_of_gt (Nat.lt_of_lt_of_le hr (hcount.trans hr'))
      rw [hpending,pendingOf_register,if_neg hne]
      exact hs.unborn r' (hcount.trans hr')
    · rw [hpending,pendingOf_register]
      split
      · have hle : ((s.pendingOf r).filter fun entry => entry.1 != id).length ≤ (s.pendingOf r).length :=
          List.filter_sublist.length_le
        have hroom := henters.room
        simp only [List.length_append, List.length_singleton]
        omega
      · exact hs.tasks r'

theorem slotsBounded_initial (settings : Settings) (records : Table) : SlotsBounded settings records (initial records) :=
  ⟨⟨[],rfl⟩,fun _ => List.nodup_nil,fun _ _ => rfl,fun _ => Nat.zero_le _,Nat.zero_le _⟩

end Bounds

end NodeService

end AgentGraph.Nodes
