import AgentGraph.Nodes.Dispatch

/-! # What a step does to the futures of probes

Only the delivery of a result gives a future a result, only a dispatch enters a new
future in a session, and only `connect` creates a session.
-/
set_option autoImplicit false
namespace AgentGraph.Nodes
open Transition

/-- The node that the socket has proved to be. -/
def Pc.enrolledAs : Pc → Option NodeId
  | .enrollRead h _ _ | .enrollCommit h _ _ => some h.nodeId
  | .enrollRefresh n _ | .connect n _ | .register n _ | .serving n | .heartbeatLock n _ _ | .heartbeatRead n _ _
  | .heartbeatCommit n _ _ _ => some n
  | _ => none

/-- The future that a probe waits on. -/
def Pc.awaits : Pc → Option FutureRef
  | .wait _ _ f _ => some f
  | _ => none

namespace NodeService

/-- No future gets a result, no session an entry and no node a session. -/
structure AddsNothing (s t : NodeService) : Prop where
  results : ∀ f p, t.futures f = .result p → s.futures f = .result p
  futureCount : t.futureCount = s.futureCount
  pending : ∀ r e, e ∈ (t.sessions r).pending → e ∈ (s.sessions r).pending
  connections : ∀ e ∈ t.connections, e ∈ s.connections
  sessionCount : t.sessionCount = s.sessionCount

/-- Socket `j` proves to be node `n`. -/
def Authenticates (settings : Settings) (j : TaskRef) (n : NodeId) (l : Label) (s : NodeService) : Prop :=
  ∃ now fresh hello proof, l = .run j now fresh ∧ s.pc? j = some (.enrollLock hello proof) ∧ hello.nodeId = n ∧
    settings.verifyEnrollment n proof = true

/-- What a step does to the probes that wait. -/
inductive Turn (settings : Settings) (l : Label) (s t : NodeService) : Prop
  | spawned (pc : Pc) (enrolled : pc.enrolledAs = none) (idle : pc.awaits = none) (unanswered : pc.answer = none)
      (state : t = s.spawn pc)
  | moved (i : TaskRef) (pc pc' : Pc) (found : s.pc? i = some pc)
      (tasks : ∀ j, t.pc? j = if j = i then some pc' else s.pc? j) (adds : s.AddsNothing t)
      (enrolled : ∀ n, pc'.enrolledAs = some n → pc.enrolledAs = some n ∨ Authenticates settings i n l s)
      (idle : pc'.awaits = none)
      (answers : ∀ id p, pc'.answer = some (id,p) → ∃ n r f, pc = .wait n r f id ∧ s.futures f = .result p)
  | connected (i : TaskRef) (n : NodeId) (status : NodeStatus) (found : s.pc? i = some (.connect n status))
      (tasks : ∀ j, t.pc? j = if j = i then some (.register n status) else s.pc? j)
      (results : ∀ f p, t.futures f = .result p → s.futures f = .result p) (futureCount : t.futureCount = s.futureCount)
      (pending : ∀ r e, e ∈ (t.sessions r).pending → e ∈ (s.sessions r).pending)
      (connections : ∀ e ∈ t.connections, e ∈ s.connections ∨ e = (n,s.sessionCount))
      (sessionCount : t.sessionCount = s.sessionCount + 1)
  | registered (i : TaskRef) (n : NodeId) (timeout : Option ℤ) (id : TaskId) (r : SessionRef) (pc' : Pc)
      (label : ∃ now fresh, l = .run i now fresh) (found : s.pc? i = some (.dispatch n timeout id))
      (current : s.connections.lookup n = some r) (tasks : ∀ j, t.pc? j = if j = i then some pc' else s.pc? j)
      (waits : pc' = .wait n r s.futureCount id ∨ ∃ e, pc' = .done (.raised e))
      (futures : t.futures = Function.update s.futures s.futureCount .pending)
      (futureCount : t.futureCount = s.futureCount + 1)
      (pending : ∀ r' e, e ∈ (t.sessions r').pending →
        e ∈ (s.sessions r').pending ∨ r' = r ∧ e = (id,s.futureCount))
      (connections : t.connections = s.connections) (sessionCount : t.sessionCount = s.sessionCount)
  | delivered (j : TaskRef) (n : NodeId) (id : TaskId) (p : JsonObject) (now : Instant) (r : SessionRef) (f : FutureRef)
      (label : l = .receive j (some (.result id p)) now) (found : s.pc? j = some (.serving n)) (tasks : t.tasks = s.tasks)
      (current : s.connections.lookup n = some r) (entry : (s.sessions r).pending.lookup id = some f)
      (undone : s.futures f = .pending) (futures : t.futures = Function.update s.futures f (.result p))
      (futureCount : t.futureCount = s.futureCount)
      (pending : ∀ r e, e ∈ (t.sessions r).pending → e ∈ (s.sessions r).pending)
      (connections : t.connections = s.connections) (sessionCount : t.sessionCount = s.sessionCount)

/-- What a message does: it takes the entry out, and settles its future if nobody has. -/
inductive Received (s t : NodeService) (n : NodeId) (id : TaskId) (outcome : Future) : Prop
  | lost (state : t = s)
  | late (r : SessionRef) (current : s.connections.lookup n = some r) (state : t = s.forget r id)
  | settled (r : SessionRef) (f : FutureRef) (events : List NodeEvent) (current : s.connections.lookup n = some r)
      (entry : (s.sessions r).pending.lookup id = some f) (undone : s.futures f = .pending)
      (state : t = { s.forget r id with futures := Function.update s.futures f outcome, events := events })

section AddsNothing
variable {s t u : NodeService} {i j : TaskRef} {pc pc' : Pc}

theorem AddsNothing.of_eq (hf : t.futures = s.futures) (hn : t.futureCount = s.futureCount) (hs : t.sessions = s.sessions)
    (hc : t.connections = s.connections) (hm : t.sessionCount = s.sessionCount) : s.AddsNothing t := by
  refine ⟨fun f p h => ?_,hn,fun r e h => ?_,fun e h => ?_,hm⟩
  · rwa [hf] at h
  · rwa [hs] at h
  · rwa [hc] at h

theorem AddsNothing.refl (s : NodeService) : s.AddsNothing s := .of_eq rfl rfl rfl rfl rfl

theorem AddsNothing.trans (h : s.AddsNothing t) (h' : t.AddsNothing u) : s.AddsNothing u :=
  ⟨fun f p hp => h.results f p (h'.results f p hp),h'.futureCount.trans h.futureCount,
    fun r e he => h.pending r e (h'.pending r e he),fun e he => h.connections e (h'.connections e he),
    h'.sessionCount.trans h.sessionCount⟩

/-- A session is rewritten without a new entry. -/
theorem AddsNothing.updateSession (s : NodeService) (r : SessionRef) (f : Session → Session)
    (hf : ∀ e, e ∈ (f (s.sessions r)).pending → e ∈ (s.sessions r).pending) : s.AddsNothing (s.updateSession r f) := by
  refine ⟨fun _ _ h => h,rfl,fun r' e he => ?_,fun _ he => he,rfl⟩
  by_cases hr : r' = r
  · subst hr
    simp only [NodeService.updateSession, Function.update_self] at he
    exact hf e he
  · simp only [NodeService.updateSession, Function.update_of_ne hr] at he
    exact he

theorem AddsNothing.forget (s : NodeService) (r : SessionRef) (id : TaskId) : s.AddsNothing (s.forget r id) :=
  .updateSession s r _ fun _ he => (List.mem_filter.mp he).1

theorem AddsNothing.settle (s : NodeService) (f : FutureRef) {outcome : Future} (h : ∀ p, outcome ≠ .result p) :
    s.AddsNothing (s.settle f outcome) := by
  refine ⟨fun f' p hp => ?_,rfl,fun _ _ he => he,fun _ he => he,rfl⟩
  unfold NodeService.settle at hp
  dsimp only at hp
  split at hp
  · exact hp
  · by_cases hf : f' = f
    · subst hf
      rw [Function.update_self] at hp
      exact absurd hp (h p)
    · rwa [Function.update_of_ne hf] at hp

theorem AddsNothing.failPending (s : NodeService) (r : SessionRef) (e : NodeError) : s.AddsNothing (s.failPending r e) := by
  refine ⟨fun f p hp => ?_,rfl,fun r' entry he => ?_,fun _ he => he,rfl⟩
  · unfold NodeService.failPending at hp
    dsimp only at hp
    generalize (s.sessions r).pending = entries at hp
    induction entries generalizing s with
    | nil => exact hp
    | cons entry rest ih =>
      have hstep := ih (s.settle entry.2 (.exception e)) (by
        simpa only [List.foldl_cons, NodeService.settle] using hp)
      exact (AddsNothing.settle s entry.2 fun _ h => by cases h).results f p hstep
  · unfold NodeService.failPending at he
    dsimp only at he
    by_cases hr : r' = r
    · subst hr
      rw [Function.update_self] at he
      cases he
    · rwa [Function.update_of_ne hr] at he

theorem AddsNothing.popConnection (s : NodeService) (n : NodeId) (e : NodeError) : s.AddsNothing (s.popConnection n e) := by
  unfold NodeService.popConnection
  split
  · exact .refl s
  next r _ =>
    have hfilter : s.AddsNothing { s with connections := s.connections.filter fun entry => entry.1 != n } :=
      ⟨fun _ _ h => h,rfl,fun _ _ h => h,fun e he => (List.mem_filter.mp he).1,rfl⟩
    exact hfilter.trans (.failPending _ r e)

theorem pc?_goto_ite (hpc : s.pc? i = some pc) (htasks : u.tasks = s.tasks) :
    (u.goto i pc').pc? j = if j = i then some pc' else s.pc? j := by
  obtain ⟨task,htask,-⟩ := Option.map_eq_some_iff.mp hpc
  unfold pc? goto updateTask
  dsimp only
  rw [htasks]
  by_cases hj : j = i
  · subst hj
    rw [Function.update_self,htask,if_pos rfl]
    rfl
  · rw [Function.update_of_ne hj,if_neg hj]

end AddsNothing

section Turns
variable {settings : Settings} {l : Label} {s t u : NodeService} {i : TaskRef} {pc pc' : Pc}

/-- The task goes on, without a new identity and without an answer. -/
theorem Turn.goto (hpc : s.pc? i = some pc) (htasks : u.tasks = s.tasks) (hadds : s.AddsNothing u)
    (henrolled : pc'.enrolledAs = none ∨ pc'.enrolledAs = pc.enrolledAs) (hidle : pc'.awaits = none)
    (hanswer : pc'.answer = none) : Turn settings l s (u.goto i pc') := by
  refine .moved i pc pc' hpc (fun j => pc?_goto_ite hpc htasks) (hadds.trans (.of_eq rfl rfl rfl rfl rfl)) (fun n hn => ?_)
    hidle (by simp [hanswer])
  obtain hnone | hsame := henrolled
  · rw [hnone] at hn
    cases hn
  · exact .inl (hsame ▸ hn)

theorem Turn.leave (hpc : s.pc? i = some pc) (htasks : u.tasks = s.tasks) (hadds : s.AddsNothing u) (pc₀ : Pc) (e : NodeError) :
    Turn settings l s (u.leave i pc₀ e) := by
  unfold NodeService.leave
  split
  · exact .goto hpc htasks (hadds.trans (.of_eq rfl rfl rfl rfl rfl)) (.inl rfl) rfl rfl
  · exact .goto hpc htasks (hadds.trans (.of_eq rfl rfl rfl rfl rfl)) (.inl rfl) rfl rfl

theorem Turn.nextStale (hpc : s.pc? i = some pc) (htasks : u.tasks = s.tasks) (hadds : s.AddsNothing u) (rest : List NodeId)
    (k : AfterSweep) : Turn settings l s (u.goto i (nextStale rest k)) := by
  cases rest with
  | nil => exact .goto hpc htasks hadds (.inl rfl) rfl rfl
  | cons => exact .goto hpc htasks hadds (.inl rfl) rfl rfl

theorem Turn.disconnected (hpc : s.pc? i = some pc) (htasks : u.tasks = s.tasks) (hadds : s.AddsNothing u) (n : NodeId)
    (k : AfterDisconnect) : Turn settings l s (u.disconnected i n k) := by
  cases k with
  | socket => exact .goto hpc htasks hadds (.inl rfl) rfl rfl
  | sweep rest k => exact .nextStale (u := u.note (.offline n)) hpc htasks (hadds.trans (.of_eq rfl rfl rfl rfl rfl)) rest k
  | disabled record =>
    exact .goto (u := u.note (.disabled n)) hpc htasks (hadds.trans (.of_eq rfl rfl rfl rfl rfl)) (.inl rfl) rfl rfl

theorem dispatch_turn {now : Instant} {fresh : TaskId} {n : NodeId} {timeout : Option ℤ} {id : TaskId}
    (hpc : s.pc? i = some (.dispatch n timeout id)) :
    Turn settings (.run i now fresh) s (s.dispatch settings i n timeout id) := by
  unfold dispatch
  split
  · exact .goto hpc rfl (.refl s) (.inl rfl) rfl rfl
  · split
    · exact .goto hpc rfl (.refl s) (.inl rfl) rfl rfl
    next r hcur =>
      split
      · exact .goto hpc rfl (.refl s) (.inl rfl) rfl rfl
      · have hpending : ∀ r' e, e ∈ ((s.register r id).sessions r').pending →
            e ∈ (s.sessions r').pending ∨ r' = r ∧ e = (id,s.futureCount) := by
          intro r' e he
          by_cases hr : r' = r
          · subst hr
            simp only [register, NodeService.updateSession, Function.update_self, List.mem_append,
              List.mem_singleton] at he
            obtain he | rfl := he
            · exact .inl ((AddsNothing.forget s r' id).pending r' e he)
            · exact .inr ⟨rfl,rfl⟩
          · simp only [register, NodeService.updateSession, Function.update_of_ne hr] at he
            exact .inl ((AddsNothing.forget s r id).pending r' e he)
        dsimp only
        split
        · exact .registered i n timeout id r _ ⟨now,fresh,rfl⟩ hpc hcur (fun j => pc?_goto_ite hpc rfl) (.inr ⟨_,rfl⟩) rfl rfl
            hpending rfl rfl
        next request _ =>
          split
          · -- the entry goes again, and its future with it
            refine .registered i n timeout id r _ ⟨now,fresh,rfl⟩ hpc hcur (fun j => pc?_goto_ite hpc rfl) (.inr ⟨_,rfl⟩) rfl
              rfl (fun r' e he => hpending r' e ((AddsNothing.forget _ r id).pending r' e he)) rfl rfl
          · have hqueue : (s.register r id).AddsNothing ((s.register r id).enqueue r request) :=
              .updateSession _ r _ fun _ he => he
            exact .registered i n timeout id r _ ⟨now,fresh,rfl⟩ hpc hcur (fun j => pc?_goto_ite hpc rfl) (.inl rfl) rfl rfl
              (fun r' e he => hpending r' e (hqueue.pending r' e he)) rfl rfl

/-- A task that takes the lock has proved its node, or goes on with the one it has. -/
theorem locked_turn {now : Instant} {fresh : TaskId} (hpc : s.pc? i = some pc) (locks : Locks settings now pc pc') :
    Turn settings (.run i now fresh) s ({ s with databaseLock := some i }.goto i pc') := by
  have hadds : s.AddsNothing { s with databaseLock := some i } := .of_eq rfl rfl rfl rfl rfl
  cases locks with
  | enroll hello proof verified =>
    refine .moved i _ _ hpc (fun j => pc?_goto_ite (u := { s with databaseLock := some i }) hpc rfl)
      (.of_eq rfl rfl rfl rfl rfl) (fun n hn => ?_) rfl
      (by simp [Pc.answer])
    cases hn
    exact .inr ⟨now,fresh,hello,proof,rfl,hpc,rfl,verified⟩
  | heartbeat => exact .goto hpc rfl hadds (.inr rfl) rfl rfl
  | offline | setEnabled => exact .goto hpc rfl hadds (.inl rfl) rfl rfl

theorem went_turn {fresh : TaskId} (hpc : s.pc? i = some pc) (finds : s.Finds fresh pc pc') :
    Turn settings l s (s.goto i pc') := by
  cases finds with
  | unknown | known | beating => exact .goto hpc rfl (.refl s) (.inr rfl) rfl rfl
  | online | worker | stale | crowded | probed => exact .goto hpc rfl (.refl s) (.inl rfl) rfl rfl

theorem connected_turn {n : NodeId} {status : NodeStatus} (hpc : s.pc? i = some (.connect n status)) :
    Turn settings l s (((s.popConnection n (.disconnected "Worker session was replaced")).addConnection n).updateTask i
      fun task => { task with pc := .register n status, connected := some (n,s.sessionCount) }) := by
  have hadds := AddsNothing.popConnection s n (.disconnected "Worker session was replaced")
  obtain ⟨htasks,-,-,-,hcount⟩ := popConnection_frame s n (.disconnected "Worker session was replaced")
  refine .connected i n status hpc (fun j => ?_) hadds.results hadds.futureCount (fun r e he => ?_) (fun e he => ?_) ?_
  · obtain ⟨task,htask,-⟩ := Option.map_eq_some_iff.mp hpc
    by_cases hj : j = i
    · subst hj
      simp [pc?,updateTask,addConnection,htasks,htask]
    · simp [pc?,updateTask,addConnection,htasks,hj]
  · refine hadds.pending r e ?_
    by_cases hr : r = s.sessionCount
    · subst hr
      simp [updateTask,addConnection,hcount] at he
    · simpa [updateTask,addConnection,hcount,hr] using he
  · simp only [updateTask, addConnection, hcount, List.mem_append, List.mem_singleton] at he
    exact he.imp_left (hadds.connections e)
  · simp [updateTask,addConnection,hcount]

theorem resume_turn {now : Instant} {fresh : TaskId} (hpc : s.pc? i = some pc)
    (h : s.resume settings i now fresh pc = some t) : Turn settings (.run i now fresh) s t := by
  have hrelease : s.AddsNothing (s.release i) := .of_eq rfl rfl rfl rfl rfl
  cases resume_cases h with
  | locked locks free => exact locked_turn hpc locks
  | went finds => exact went_turn hpc finds
  | left e => exact .leave hpc rfl (.refl s) _ _
  | denied | failed => exact .goto hpc rfl (.refl s) (.inl rfl) rfl rfl
  | reported k outcome unanswered => exact .goto hpc rfl (.refl s) (.inl rfl) rfl unanswered
  | refused => exact .leave hpc rfl (.refl s) _ _
  | inserted hello at' records => exact .goto (u := { s with records := records }) hpc rfl (.of_eq rfl rfl rfl rfl rfl) (.inr rfl) rfl rfl
  | enrolled => exact .goto (u := s.update _ _) hpc rfl (.of_eq rfl rfl rfl rfl rfl) (.inr rfl) rfl rfl
  | announced => exact .goto (u := (s.note _).release i) hpc rfl (.of_eq rfl rfl rfl rfl rfl) (.inr rfl) rfl rfl
  | connected n status => exact connected_turn hpc
  | registered n status =>
    obtain ⟨task,htask,-⟩ := Option.map_eq_some_iff.mp hpc
    refine .moved i _ (.serving n) hpc (fun j => ?_) (.of_eq rfl rfl rfl rfl rfl) (fun m hm => .inl hm) rfl
      (by simp [Pc.answer])
    by_cases hj : j = i
    · subst hj
      simp [pc?,updateTask,htask]
    · simp [pc?,updateTask,hj]
  | beaten n => exact .goto (u := (s.update n _).release i) hpc rfl (.of_eq rfl rfl rfl rfl rfl) (.inr rfl) rfl rfl
  | popped n k => exact .goto hpc (popConnection_frame s n _).1 (.popConnection s n _) (.inl rfl) rfl rfl
  | gone n k => exact .disconnected (u := s.release i) hpc rfl hrelease n k
  | published n k => exact .disconnected (u := (s.note _).release i) hpc rfl (.of_eq rfl rfl rfl rfl rfl) n k
  | wentOffline n | switched n => exact .goto (u := s.update n _) hpc rfl (.of_eq rfl rfl rfl rfl rfl) (.inl rfl) rfl rfl
  | swept stale k => exact .nextStale (u := s.markOffline stale) hpc rfl (.of_eq rfl rfl rfl rfl rfl) _ k
  | enabled | disabled => exact .goto hpc rfl hrelease (.inl rfl) rfl rfl
  | dispatched n timeout taskId => exact dispatch_turn hpc
  | answered n r f id result future =>
    refine .moved i _ _ hpc (fun j => pc?_goto_ite (u := s.note _) hpc rfl) (.of_eq rfl rfl rfl rfl rfl) (fun m hm => ?_) rfl
      (fun id' p' ha => ?_)
    · cases hm
    · cases ha
      exact ⟨n,r,f,rfl,future⟩
  | cancelled n r id =>
    unfold cancelProbe
    have hforget := AddsNothing.forget s r id
    have hqueue : (s.forget r id).AddsNothing ((s.forget r id).enqueue r (.taskCancel id)) :=
      .updateSession _ r _ fun _ he => he
    dsimp only
    split
    · exact .goto (u := NodeService.note _ _) hpc rfl ((hforget.trans hqueue).trans (.of_eq rfl rfl rfl rfl rfl))
        (.inl rfl) rfl rfl
    · exact .goto (u := NodeService.note _ _) hpc rfl (hforget.trans (.of_eq rfl rfl rfl rfl rfl)) (.inl rfl) rfl rfl

/-- A message that no probe gets a result from. -/
theorem Turn.stay (hpc : s.pc? i = some pc) (htasks : u.tasks = s.tasks) (hadds : s.AddsNothing u) (hidle : pc.awaits = none)
    (hanswer : pc.answer = none) : Turn settings l s u := by
  refine .moved i pc pc hpc (fun j => ?_) hadds (fun _ hn => .inl hn) hidle (by simp [hanswer])
  rw [pc?,htasks]
  split
  next hj => rw [hj,← hpc]; rfl
  · rfl

theorem receiveResult_received (s : NodeService) (n : NodeId) (id : TaskId) (outcome : Future)
    (event : Option NodeEvent) : Received s (s.receiveResult n id outcome event) n id outcome := by
  unfold receiveResult
  split
  · exact .lost rfl
  next r hcur =>
    split
    · exact .lost rfl
    next f hf =>
      dsimp only
      split
      · exact .late r hcur rfl
      next hdone =>
        have hundone : s.futures f = .pending := by
          cases h : s.futures f <;> simp [Future.done,h] at hdone ⊢
        have hsettle : (s.forget r id).settle f outcome =
            { s.forget r id with futures := Function.update s.futures f outcome } := by
          have hdone' : ((s.forget r id).futures f).done ≠ true := hdone
          unfold settle
          rw [if_neg hdone']
          rfl
        cases event with
        | none => exact .settled r f s.events hcur hf hundone hsettle
        | some e => exact .settled r f (s.events ++ [e]) hcur hf hundone (by rw [hsettle]; rfl)

theorem handle_turn {n : NodeId} {now : Instant} (hpc : s.pc? i = some (.serving n)) (message : ClientMessage) :
    Turn settings (.receive i (some message) now) s (s.handle i n now message) := by
  cases message with
  | heartbeat | capabilities => exact .goto hpc rfl (.refl s) (.inr rfl) rfl rfl
  | hello | cancel => exact .stay hpc rfl (.refl s) rfl rfl
  | result id p =>
    simp only [handle]
    cases receiveResult_received s n id (.result p) none with
    | lost state =>
      rw [state]
      exact .stay hpc rfl (.refl s) rfl rfl
    | late r current state =>
      rw [state]
      exact .stay hpc rfl (.forget s r id) rfl rfl
    | settled r f events current entry undone state =>
      rw [state]
      exact .delivered i n id p now r f rfl hpc rfl current entry undone rfl rfl (AddsNothing.forget s r id).pending rfl rfl
  | error id code message =>
    simp only [handle]
    cases receiveResult_received s n id (.exception (.failed message)) (some (.taskFailed n id code)) with
    | lost state =>
      rw [state]
      exact .stay hpc rfl (.refl s) rfl rfl
    | late r current state =>
      rw [state]
      exact .stay hpc rfl (.forget s r id) rfl rfl
    | settled r f events current entry undone state =>
      rw [state]
      refine .stay hpc rfl ⟨fun f' p hp => ?_,rfl,(AddsNothing.forget s r id).pending,fun _ he => he,rfl⟩ rfl rfl
      by_cases hf : f' = f
      · subst hf
        simp at hp
      · simpa [hf] using hp

theorem step_turn (h : step settings l s = some t) : Turn settings l s t := by
  cases l with
  | openSocket proof =>
    cases h
    exact .spawned _ rfl rfl rfl rfl
  | sweep k now =>
    cases h
    exact .spawned _ rfl rfl rfl rfl
  | setEnabled n enabled =>
    cases h
    exact .spawned _ rfl rfl rfl rfl
  | receive i message now =>
    simp only [step] at h
    split at h
    next hpc =>
      cases h
      exact .goto hpc rfl (.refl s) (.inl rfl) rfl rfl
    next hpc =>
      cases h
      exact .goto hpc rfl (.refl s) (.inl rfl) rfl rfl
    next hpc =>
      cases h
      exact .goto hpc rfl (.refl s) (.inl rfl) rfl rfl
    next hpc =>
      cases h
      exact handle_turn hpc _
    next hpc =>
      cases h
      exact .leave hpc rfl (.refl s) _ _
    · cases h
  | deliver i =>
    simp only [step] at h
    split at h
    next n m r sent htask =>
      have hpc : s.pc? i = some (.serving n) := by rw [pc?,htask]; rfl
      split at h
      · cases h
      next message rest hq =>
        cases h
        have hadds : s.AddsNothing (s.updateSession r fun session => { session with queue := rest }) :=
          .updateSession s r _ fun _ he => he
        refine .moved i _ (.serving n) hpc (fun j => ?_) (hadds.trans (.of_eq rfl rfl rfl rfl rfl)) (fun _ hn => .inl hn) rfl
          (by simp [Pc.answer])
        by_cases hj : j = i
        · subst hj
          cases message <;> simp [pc?,updateTask,NodeService.updateSession,htask]
        · simp [pc?,updateTask,NodeService.updateSession,hj]
    · cases h
  | run i now fresh =>
    simp only [step] at h
    split at h
    next pc hpc => exact resume_turn hpc h
    · cases h
  | timeout i =>
    simp only [step] at h
    split at h
    next hpc =>
      cases h
      exact .goto (u := s.settle _ _) hpc rfl (.settle s _ fun _ h => by cases h) (.inl rfl) rfl rfl
    · cases h
  | fail i =>
    simp only [step] at h
    split at h
    · cases h
    · cases h
    next n r f taskId hpc =>
      cases h
      exact .leave (u := s.settle f .cancelled) hpc rfl (.settle s f fun _ h => by cases h) _ _
    next pc _ _ hpc =>
      cases h
      exact .leave hpc rfl (.refl s) _ _

end Turns

end NodeService

end AgentGraph.Nodes
