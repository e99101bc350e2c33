import AgentGraph.Nodes.Turns

/-! # What the sockets send, and the errors that workers report

A session holds only requests that have passed their validation and cancellations, so a
socket sends its registration, once, and then requests. A probe fails with the message of a
worker only if a socket has delivered an error.
-/
set_option autoImplicit false
namespace AgentGraph.Nodes
open Transition

/-- A command in a queue: a request has passed its validation. -/
def ServerMessage.Valid : ServerMessage → Prop
  | .taskRequest id timeout => Nodes.taskRequest id timeout = some (.taskRequest id timeout)
  | .registered _ _ => False
  | .taskCancel _ => True

/-- A cancellation is taken from the queue and not sent. -/
def ServerMessage.Sendable : ServerMessage → Prop
  | .taskRequest id timeout => Nodes.taskRequest id timeout = some (.taskRequest id timeout)
  | .registered _ _ | .taskCancel _ => False

/-- The registration and then requests. -/
def Announced : List ServerMessage → Prop
  | .registered _ _ :: rest => ∀ m ∈ rest, m.Sendable
  | _ => False

/-- The awaits of a socket before its registration is sent. -/
def Pc.unannounced : Pc → Bool
  | .hello _ | .enrollLock _ _ | .enrollRead _ _ _ | .enrollCommit _ _ _ | .enrollRefresh _ _ | .connect _ _
  | .register _ _ => true
  | _ => false

/-- The awaits of a socket in its loop. -/
def Pc.announced : Pc → Bool
  | .serving _ | .heartbeatLock _ _ _ | .heartbeatRead _ _ _ | .heartbeatCommit _ _ _ _ => true
  | _ => false

/-- Whether a task may get from the first await to the second and send nothing. -/
def Pc.silently (pc pc' : Pc) : Bool :=
  (!pc'.unannounced || pc.unannounced) && (!pc'.announced || pc.announced)

/-- A socket sends nothing before its registration. -/
structure Task.Announces (task : Task) : Prop where
  before : task.pc.unannounced = true → task.sent = []
  looping : task.pc.announced = true → Announced task.sent
  always : task.sent = [] ∨ Announced task.sent

theorem Announced.append {sent : List ServerMessage} {m : ServerMessage} (h : Announced sent) (hm : m.Sendable) :
    Announced (sent ++ [m]) := by
  cases sent with
  | nil => exact h.elim
  | cons first rest =>
    cases first with
    | registered =>
      intro m' hm'
      obtain hm' | hm' := List.mem_append.mp hm'
      · exact h m' hm'
      · cases List.mem_singleton.mp hm'
        exact hm
    | taskRequest | taskCancel => exact h.elim

theorem Task.Announces.goto {task : Task} {pc : Pc} (h : task.Announces) (hpc : task.pc.silently pc = true) :
    Task.Announces { task with pc := pc } := by
  simp only [Pc.silently, Bool.and_eq_true, Bool.or_eq_true, Bool.not_eq_true'] at hpc
  obtain ⟨hbefore,hlooping⟩ := hpc
  refine ⟨fun hnew => ?_,fun hnew => ?_,h.always⟩
  · apply h.before
    simpa [show pc.unannounced = true from hnew] using hbefore
  · apply h.looping
    simpa [show pc.announced = true from hnew] using hlooping

def Future.reported : Future → Bool
  | .exception e => e.reported
  | _ => false

namespace NodeService

/-- A socket delivers the error of a worker. -/
def ReportsError (l : Label) (s : NodeService) : Prop :=
  ∃ j n id code message now, l = .receive j (some (.error id code message)) now ∧ s.pc? j = some (.serving n)

/-- Queues and futures after an operation. -/
structure AddsValid (s u : NodeService) : Prop where
  queue : ∀ r, ∀ m ∈ (u.sessions r).queue, m ∈ (s.sessions r).queue ∨ m.Valid
  futures : ∀ f, (u.futures f).reported = true → (s.futures f).reported = true

/-- All commands are valid and no error was reported. -/
structure CommandsValid (s : NodeService) : Prop where
  queue : ∀ r, ∀ m ∈ (s.sessions r).queue, m.Valid
  sent : ∀ i task, s.tasks i = some task → task.Announces
  futures : ∀ f, (s.futures f).reported = false
  outcomes : ∀ i pc, s.pc? i = some pc → pc.reported = false

section AddsValid
variable {s t u : NodeService} {r : SessionRef}

theorem AddsValid.of_eq (hs : u.sessions = s.sessions) (hf : u.futures = s.futures) : s.AddsValid u := by
  refine ⟨fun r m hm => .inl ?_,fun f h => ?_⟩
  · rwa [hs] at hm
  · rwa [hf] at h

theorem AddsValid.refl (s : NodeService) : s.AddsValid s := .of_eq rfl rfl

theorem AddsValid.trans (h : s.AddsValid t) (h' : t.AddsValid u) : s.AddsValid u := by
  refine ⟨fun r m hm => ?_,fun f hf => h.futures f (h'.futures f hf)⟩
  obtain hm | hvalid := h'.queue r m hm
  · exact h.queue r m hm
  · exact .inr hvalid

/-- A session is rewritten; what is new in its queue is valid. -/
theorem AddsValid.updateSession (s : NodeService) (r : SessionRef) {f : Session → Session}
    (hf : ∀ m ∈ (f (s.sessions r)).queue, m ∈ (s.sessions r).queue ∨ m.Valid) : s.AddsValid (s.updateSession r f) := by
  refine ⟨fun r' m hm => ?_,fun _ h => h⟩
  by_cases hr : r' = r
  · subst hr
    simp only [NodeService.updateSession, Function.update_self] at hm
    exact hf m hm
  · simp only [NodeService.updateSession, Function.update_of_ne hr] at hm
    exact .inl hm

theorem AddsValid.forget (s : NodeService) (r : SessionRef) (id : TaskId) : s.AddsValid (s.forget r id) :=
  .updateSession s r fun _ hm => .inl hm

theorem AddsValid.enqueue (s : NodeService) (r : SessionRef) {m : ServerMessage} (h : m.Valid) : s.AddsValid (s.enqueue r m) := by
  apply AddsValid.updateSession
  intro m' hm
  obtain hm | hm := List.mem_append.mp hm
  · exact .inl hm
  · cases List.mem_singleton.mp hm
    exact .inr h

theorem AddsValid.update (s : NodeService) (f : FutureRef) {o : Future} (h : o.reported = false) :
    s.AddsValid { s with futures := Function.update s.futures f o } := by
  refine ⟨fun _ _ hm => .inl hm,fun f' hf => ?_⟩
  dsimp only at hf
  by_cases heq : f' = f
  · subst heq
    rw [Function.update_self, h] at hf
    cases hf
  · rwa [Function.update_of_ne heq] at hf

theorem AddsValid.settle (s : NodeService) (f : FutureRef) {o : Future} (h : o.reported = false) :
    s.AddsValid (s.settle f o) := by
  unfold NodeService.settle
  split
  · exact .refl s
  · exact .update s f h

theorem AddsValid.register (s : NodeService) (r : SessionRef) (id : TaskId) : s.AddsValid (s.register r id) := by
  have hfuture := AddsValid.update (s.forget r id) s.futureCount (o := .pending) rfl
  have hcount : s.AddsValid
      { s.forget r id with futures := Function.update s.futures s.futureCount .pending, futureCount := s.futureCount + 1 } :=
    ((AddsValid.forget s r id).trans hfuture).trans (.of_eq rfl rfl)
  exact hcount.trans (.updateSession _ r fun _ hm => .inl hm)

theorem AddsValid.failPending (s : NodeService) (r : SessionRef) {e : NodeError} (he : e.reported = false) :
    s.AddsValid (s.failPending r e) := by
  refine ⟨fun r' m hm => .inl ?_,fun f hf => ?_⟩
  · unfold NodeService.failPending at hm
    dsimp only at hm
    by_cases hr : r' = r
    · subst hr
      rwa [Function.update_self] at hm
    · rwa [Function.update_of_ne hr] at hm
  · unfold NodeService.failPending at hf
    dsimp only at hf
    generalize (s.sessions r).pending = entries at hf
    induction entries generalizing s with
    | nil => exact hf
    | cons entry rest ih =>
      have hrest := ih (s.settle entry.2 (.exception e)) (by
        simpa only [List.foldl_cons, NodeService.settle] using hf)
      exact (AddsValid.settle s entry.2 (o := .exception e) he).futures f hrest

theorem AddsValid.popConnection (s : NodeService) (n : NodeId) {e : NodeError} (he : e.reported = false) :
    s.AddsValid (s.popConnection n e) := by
  unfold NodeService.popConnection
  split
  · exact .refl s
  next r _ =>
    have hfilter : s.AddsValid { s with connections := s.connections.filter fun entry => entry.1 != n } := .of_eq rfl rfl
    exact hfilter.trans (.failPending _ r he)

theorem AddsValid.addConnection (s : NodeService) (n : NodeId) : s.AddsValid (s.addConnection n) := by
  refine ⟨fun r m hm => ?_,fun _ h => h⟩
  unfold NodeService.addConnection at hm
  dsimp only at hm
  by_cases hr : r = s.sessionCount
  · subst hr
    rw [Function.update_self] at hm
    cases hm
  · rw [Function.update_of_ne hr] at hm
    exact .inl hm

end AddsValid

section CommandsValid
variable {settings : Settings} {l : Label} {s t u : NodeService} {i : TaskRef} {pc pc' : Pc}

/-- A task is rewritten, and still announces its node before it sends requests. -/
theorem CommandsValid.rewrite (h : s.CommandsValid) (htasks : u.tasks = s.tasks) (hadds : s.AddsValid u) {f : Task → Task}
    (hsent : ∀ task, s.tasks i = some task → task.Announces → (f task).Announces)
    (hpc : ∀ task, task.pc.reported = false → (f task).pc.reported = false) : (u.updateTask i f).CommandsValid := by
  have hcases : ∀ j task, (u.updateTask i f).tasks j = some task →
      s.tasks j = some task ∨ ∃ task', s.tasks i = some task' ∧ task = f task' := by
    intro j task htask
    unfold updateTask at htask
    dsimp only at htask
    rw [htasks] at htask
    by_cases hj : j = i
    · subst hj
      rw [Function.update_self] at htask
      obtain ⟨task',hfound,rfl⟩ := Option.map_eq_some_iff.mp htask
      exact .inr ⟨task',hfound,rfl⟩
    · rw [Function.update_of_ne hj] at htask
      exact .inl htask
  refine ⟨fun r m hm => ?_,fun j task htask => ?_,fun f' => ?_,fun j pc₁ hj => ?_⟩
  · obtain hm | hvalid := hadds.queue r m hm
    · exact h.queue r m hm
    · exact hvalid
  · obtain hsame | ⟨task',hfound,rfl⟩ := hcases j task htask
    · exact h.sent j task hsame
    · exact hsent task' hfound (h.sent i task' hfound)
  · rw [Bool.eq_false_iff]
    intro hf
    have hs := hadds.futures f' hf
    rw [h.futures f'] at hs
    cases hs
  · obtain ⟨task,htask,rfl⟩ := Option.map_eq_some_iff.mp hj
    obtain hsame | ⟨task',hfound,rfl⟩ := hcases j task htask
    · exact h.outcomes j task.pc (by rw [pc?, hsame]; rfl)
    · exact hpc task' (h.outcomes i task'.pc (by rw [pc?, hfound]; rfl))

theorem CommandsValid.goto (h : s.CommandsValid) (hfound : s.pc? i = some pc) (htasks : u.tasks = s.tasks) (hadds : s.AddsValid u)
    (hsilent : pc.silently pc' = true) (hpc : pc'.reported = false) : (u.goto i pc').CommandsValid := by
  apply h.rewrite htasks hadds
  · intro task htask hannounces
    obtain rfl : task.pc = pc := by simpa [pc?, htask] using hfound
    exact hannounces.goto hsilent
  · exact fun _ _ => hpc

/-- The tasks stay where they are. -/
theorem CommandsValid.stay (h : s.CommandsValid) (htasks : u.tasks = s.tasks) (hadds : s.AddsValid u) : u.CommandsValid := by
  have hsame : u.updateTask 0 id = u := by simp [updateTask]
  rw [← hsame]
  exact h.rewrite htasks hadds (fun _ _ hannounces => hannounces) fun _ hpc => hpc

theorem CommandsValid.leave (h : s.CommandsValid) (hfound : s.pc? i = some pc) (htasks : u.tasks = s.tasks) (hadds : s.AddsValid u) (pc₀ : Pc) {e : NodeError}
    (he : e.reported = false) : (u.leave i pc₀ e).CommandsValid := by
  unfold NodeService.leave
  split
  · exact h.goto (u := u.release i) hfound htasks (hadds.trans (.of_eq rfl rfl)) rfl rfl
  · exact h.goto (u := u.release i) hfound htasks (hadds.trans (.of_eq rfl rfl)) rfl he

theorem nextStale_reported (rest : List NodeId) (k : AfterSweep) : (nextStale rest k).reported = false := by
  cases rest <;> rfl

theorem nextStale_silently (pc : Pc) (rest : List NodeId) (k : AfterSweep) : pc.silently (nextStale rest k) = true := by
  cases rest <;> rfl

theorem CommandsValid.disconnected (h : s.CommandsValid) (hfound : s.pc? i = some pc) (htasks : u.tasks = s.tasks) (hadds : s.AddsValid u) (n : NodeId)
    (k : AfterDisconnect) : (u.disconnected i n k).CommandsValid := by
  cases k with
  | socket => exact h.goto hfound htasks hadds rfl rfl
  | sweep rest k =>
    exact h.goto (u := u.note (.offline n)) hfound htasks (hadds.trans (.of_eq rfl rfl)) (nextStale_silently _ rest k)
      (nextStale_reported rest k)
  | disabled record => exact h.goto (u := u.note (.disabled n)) hfound htasks (hadds.trans (.of_eq rfl rfl)) rfl rfl

theorem CommandsValid.spawn (h : s.CommandsValid) (hlooping : pc.announced = false) (hpc : pc.reported = false) :
    (s.spawn pc).CommandsValid := by
  refine ⟨h.queue,fun j task htask => ?_,h.futures,fun j pc₁ hj => ?_⟩
  · obtain rfl | htask := spawn_task htask
    · refine ⟨fun _ => rfl,fun hnew => ?_,.inl rfl⟩
      rw [hlooping] at hnew
      cases hnew
    · exact h.sent j task htask
  · obtain ⟨task,htask,rfl⟩ := Option.map_eq_some_iff.mp hj
    obtain rfl | htask := spawn_task htask
    · exact hpc
    · exact h.outcomes j task.pc (by rw [pc?, htask]; rfl)

theorem CommandsValid.dispatch (h : s.CommandsValid) (hfound : s.pc? i = some pc) (n : NodeId) (timeout : Option ℤ) (id : TaskId) :
    (s.dispatch settings i n timeout id).CommandsValid := by
  unfold NodeService.dispatch
  split
  · exact h.goto hfound rfl (.refl s) rfl rfl
  · split
    · exact h.goto hfound rfl (.refl s) rfl rfl
    next r _ =>
      split
      · exact h.goto hfound rfl (.refl s) rfl rfl
      · dsimp only
        split
        · exact h.goto hfound rfl (.register s r id) rfl rfl
        next request hrequest =>
          split
          · exact h.goto hfound rfl ((AddsValid.register s r id).trans (.forget _ r id)) rfl rfl
          · have hvalid : request.Valid := by
              have hrequest' := hrequest
              unfold taskRequest at hrequest'
              split at hrequest'
              · cases hrequest'
                exact hrequest
              · cases hrequest'
            exact h.goto (u := NodeService.note _ _) hfound rfl
              (((AddsValid.register s r id).trans (.enqueue _ r hvalid)).trans (.of_eq rfl rfl)) rfl rfl

theorem CommandsValid.resume {now : Instant} {fresh : TaskId} (h : s.CommandsValid) (hfound : s.pc? i = some pc)
    (ht : s.resume settings i now fresh pc = some t) : t.CommandsValid := by
  have hrelease : s.AddsValid (s.release i) := .of_eq rfl rfl
  cases resume_cases ht with
  | locked locks =>
    apply h.goto (u := { s with databaseLock := some i }) hfound rfl (.of_eq rfl rfl)
    · cases locks <;> rfl
    · cases locks <;> rfl
  | went finds =>
    apply h.goto hfound rfl (.refl s)
    · cases finds <;> rfl
    · cases finds <;> rfl
  | left e fails own => exact h.leave hfound rfl (.refl s) _ own
  | refused => exact h.leave hfound rfl (.refl s) _ rfl
  | denied => exact h.goto hfound rfl (.refl s) rfl rfl
  | reported k outcome unanswered own => exact h.goto hfound rfl (.refl s) rfl own
  | inserted hello at' records => exact h.goto (u := { s with records := records }) hfound rfl (.of_eq rfl rfl) rfl rfl
  | enrolled => exact h.goto (u := s.update _ _) hfound rfl (.of_eq rfl rfl) rfl rfl
  | announced => exact h.goto (u := (s.note _).release i) hfound rfl (.of_eq rfl rfl) rfl rfl
  | connected n status =>
    have hpop := AddsValid.popConnection s n (e := .disconnected "Worker session was replaced") rfl
    obtain ⟨htasks,-⟩ := popConnection_frame s n (.disconnected "Worker session was replaced")
    apply h.rewrite (u := (s.popConnection n _).addConnection n) htasks (hpop.trans (.addConnection _ n))
    · intro task htask hannounces
      obtain hpc : task.pc = .connect n status := by simpa [pc?, htask] using hfound
      have hsent := hannounces.before (by rw [hpc]; rfl)
      exact ⟨fun _ => hsent,(fun hnew => by cases hnew),.inl hsent⟩
    · exact fun _ _ => rfl
  | registered n status =>
    apply h.rewrite rfl (.refl s)
    · intro task htask hannounces
      obtain hpc : task.pc = .register n status := by simpa [pc?, htask] using hfound
      -- nothing was sent before
      have hsent := hannounces.before (by rw [hpc]; rfl)
      have hfirst : Announced (task.sent ++ [.registered n status]) := by
        rw [hsent]
        intro m hm
        cases hm
      exact ⟨(fun hnew => by cases hnew),fun _ => hfirst,.inr hfirst⟩
    · exact fun _ _ => rfl
  | beaten n => exact h.goto (u := (s.update n _).release i) hfound rfl (.of_eq rfl rfl) rfl rfl
  | popped n k => exact h.goto hfound (popConnection_frame s n _).1 (.popConnection s n rfl) rfl rfl
  | gone n k => exact h.disconnected (u := s.release i) hfound rfl hrelease n k
  | published n k => exact h.disconnected (u := (s.note _).release i) hfound rfl (.of_eq rfl rfl) n k
  | wentOffline n | switched n => exact h.goto (u := s.update n _) hfound rfl (.of_eq rfl rfl) rfl rfl
  | swept stale k =>
    exact h.goto (u := s.markOffline stale) hfound rfl (.of_eq rfl rfl) (nextStale_silently _ _ k) (nextStale_reported _ k)
  | enabled | disabled => exact h.goto (u := s.release i) hfound rfl hrelease rfl rfl
  | dispatched n timeout id => exact h.dispatch hfound n timeout id
  | answered => exact h.goto (u := s.note _) hfound rfl (.of_eq rfl rfl) rfl rfl
  | failed n r f id e future =>
    -- the future holds no reported error
    have hf := h.futures f
    rw [future] at hf
    exact h.goto hfound rfl (.refl s) rfl hf
  | cancelled n r id =>
    unfold cancelProbe
    dsimp only
    split
    · exact h.goto (u := NodeService.note _ _) hfound rfl
        (((AddsValid.forget s r id).trans (.enqueue _ r (m := .taskCancel id) trivial)).trans (.of_eq rfl rfl)) rfl rfl
    · exact h.goto (u := NodeService.note _ _) hfound rfl ((AddsValid.forget s r id).trans (.of_eq rfl rfl)) rfl rfl

theorem CommandsValid.receiveResult (h : s.CommandsValid) (n : NodeId) (id : TaskId) {outcome : Future} (ho : outcome.reported = false)
    (event : Option NodeEvent) : (s.receiveResult n id outcome event).CommandsValid := by
  cases receiveResult_received s n id outcome event with
  | lost state => rwa [state]
  | late r current state =>
    rw [state]
    exact h.stay rfl (.forget s r id)
  | settled r f events current entry undone state =>
    rw [state]
    exact h.stay rfl (((AddsValid.forget s r id).trans (.update _ f ho)).trans (.of_eq rfl rfl))

theorem CommandsValid.step (h : s.CommandsValid) (hl : ¬ ReportsError l s) (ht : NodeService.step settings l s = some t) :
    t.CommandsValid := by
  cases l with
  | openSocket proof =>
    cases ht
    exact h.spawn rfl rfl
  | sweep k now =>
    cases ht
    exact h.spawn rfl rfl
  | setEnabled n enabled =>
    cases ht
    exact h.spawn rfl rfl
  | receive i message now =>
    simp only [NodeService.step] at ht
    split at ht
    next proof hello hpc =>
      cases ht
      exact h.goto hpc rfl (.refl s) rfl rfl
    next hpc =>
      cases ht
      exact h.goto hpc rfl (.refl s) rfl rfl
    next hpc =>
      cases ht
      exact h.goto hpc rfl (.refl s) rfl rfl
    next n message hpc =>
      cases ht
      cases message with
      | heartbeat | capabilities => exact h.goto hpc rfl (.refl s) rfl rfl
      | hello | cancel => exact h
      | result id p => exact h.receiveResult n id rfl none
      | error id code message => exact absurd ⟨i,n,id,code,message,now,rfl,hpc⟩ hl
    next n hpc =>
      cases ht
      exact h.leave hpc rfl (.refl s) _ rfl
    · cases ht
  | deliver i =>
    simp only [NodeService.step] at ht
    split at ht
    next n m r sent htask =>
      split at ht
      · cases ht
      next message rest hq =>
        cases ht
        have hadds : s.AddsValid (s.updateSession r fun session => { session with queue := rest }) := by
          apply AddsValid.updateSession
          intro m hm
          rw [hq]
          exact .inl (List.mem_cons_of_mem _ hm)
        have hvalid := h.queue r message (by rw [hq]; exact List.mem_cons_self)
        apply h.rewrite (u := s.updateSession r _) rfl hadds
        · intro task htask' hannounces
          cases htask.symm.trans htask'
          cases message with
          | taskCancel => exact hannounces
          | registered => exact hvalid.elim
          | taskRequest =>
            have hmore := (hannounces.looping rfl).append (m := .taskRequest _ _) hvalid
            exact ⟨(fun hnew => by cases hnew),fun _ => hmore,.inr hmore⟩
        · intro task hpc
          cases message <;> exact hpc
    · cases ht
  | run i now fresh =>
    simp only [NodeService.step] at ht
    split at ht
    next pc hpc => exact h.resume hpc ht
    · cases ht
  | timeout i =>
    simp only [NodeService.step] at ht
    split at ht
    next hpc =>
      cases ht
      exact h.goto (u := s.settle _ _) hpc rfl (.settle s _ rfl) rfl rfl
    · cases ht
  | fail i =>
    simp only [NodeService.step] at ht
    split at ht
    · cases ht
    · cases ht
    next hpc =>
      cases ht
      exact h.leave (u := s.settle _ _) hpc rfl (.settle s _ rfl) _ rfl
    next hpc =>
      cases ht
      exact h.leave hpc rfl (.refl s) _ rfl

theorem commandsValid_initial (records : Table) : (initial records).CommandsValid where
  queue := fun _ _ h => nomatch h
  sent := fun _ _ h => nomatch h
  futures := fun _ => rfl
  outcomes := fun _ _ h => nomatch h

end CommandsValid

end NodeService

end AgentGraph.Nodes
