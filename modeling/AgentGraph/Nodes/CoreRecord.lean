import AgentGraph.Nodes.Turns

/-! # The row of the core

`ensure_core` writes the row of the core whenever the server starts. Its identifier is one
that a worker could choose, and a worker that holds the enrolment secret could prove that it
is this node; but the row has an empty enrolment hash, and no proof is empty.
-/
set_option autoImplicit false
namespace AgentGraph.Nodes
open Transition

def coreId : NodeId := "core_local"

/-- A start of the server: the name of its core, its capabilities and the time. -/
structure Start where
  name : String
  capabilities : JsonObject
  now : Instant

/-- `ensure_core`. -/
def ensureCore (start : Start) (table : Table) : Table :=
  match table.get coreId with
  | none => table ++ [⟨coreId,start.name,.core,.online,true,"",start.capabilities,some start.now⟩]
  | some _ =>
    table.update coreId fun record => { record with name := start.name, status := .online, lastSeenAt := some start.now }

/-- The server runs, or it ends at any place and starts again on the rows that were committed. -/
inductive ServerLabel
  | step (l : Label)
  | restart (start : Start)

def NodeService.serverStep (settings : Settings) (l : ServerLabel) (s : NodeService) : Option NodeService :=
  match l with
  | .step l => NodeService.step settings l s
  | .restart start => some (.initial (ensureCore start s.records))

def ServerLabel.start? : ServerLabel → Option Start
  | .step _ => none
  | .restart start => some start

/-- The row of a core that was created by one start, after the others. -/
def coreRow (first last : Start) : NodeRecord :=
  ⟨coreId,last.name,.core,.online,true,"",first.capabilities,some last.now⟩

/-- The last start of a run. -/
def lastStart (first : Start) (ls : List ServerLabel) : Start := (ls.filterMap ServerLabel.start?).getLast?.getD first

/-- The node that an event is about. -/
def NodeEvent.node : NodeEvent → NodeId
  | .registered n _ | .connected n _ | .disabled n | .offline n | .taskRequested n _ | .taskCompleted n _
  | .taskFailed n _ _ | .taskTimedOut n _ => n

def AfterDisconnect.Spares : AfterDisconnect → Prop
  | .sweep rest _ => coreId ∉ rest
  | .socket | .disabled _ => True

/-- The task is not about to change the row of the core, its session or its events. -/
def Pc.Spares : Pc → Prop
  | .enrollRead h proof _ => h.nodeId = coreId → proof.getD "" ≠ ""
  | .enrollCommit h _ _ => h.nodeId ≠ coreId
  | .enrollRefresh n _ | .connect n _ | .register n _ | .serving n | .heartbeatLock n _ _ | .heartbeatRead n _ _
  | .heartbeatCommit n _ _ _ | .setEnabledCommit n _ _ | .setEnabledRefresh n _ | .wait n _ _ _ | .timedOut n _ _ => n ≠ coreId
  | .disconnect n k | .offlineLock n k | .offlineRead n k | .offlineCommit n _ k | .offlinePublish n k =>
    n ≠ coreId ∧ k.Spares
  | .sweepCommit stale _ => ∀ record ∈ stale, record.id ≠ coreId
  | .hello _ | .enrollLock _ _ | .sweepRead _ _ | .swept _ | .setEnabledLock _ _ | .setEnabledRead _ _ | .dispatch _ _ _
  | .done _ => True

/-- The rows under the key of the core. -/
def Table.core (table : Table) : Table := table.filter fun record => record.id == coreId

section Table
variable {table table' : Table} {n : NodeId} {f : NodeRecord → NodeRecord} {row record : NodeRecord}

theorem Table.get_core (h : table.core = [row]) : table.get coreId = some row := by
  rw [Table.get, ← List.head?_filter]
  exact congrArg List.head? h

theorem Table.core_update (hf : ∀ record, (f record).id = record.id) (hn : n ≠ coreId) :
    (table.update n f).core = table.core := by
  unfold Table.core Table.update
  induction table with
  | nil => rfl
  | cons record rest ih =>
    rw [List.map_cons, List.filter_cons, List.filter_cons, ih]
    by_cases hid : record.id = n
    · simp [hid, hf, hn]
    · simp [hid]

theorem Table.core_insert (h : table.insert record = some table') (hid : record.id ≠ coreId) : table'.core = table.core := by
  unfold Table.insert at h
  split at h <;> cases h
  simp [Table.core, hid]

theorem Table.core_markOffline (s : NodeService) {stale : List NodeRecord} (h : ∀ record ∈ stale, record.id ≠ coreId) :
    (s.markOffline stale).records.core = s.records.core := by
  induction stale generalizing s with
  | nil => rfl
  | cons read rest ih =>
    have hread := ih (s.update read.id (read.setStatus .offline)) fun record hrecord => h record (List.mem_cons_of_mem _ hrecord)
    have hupdate : (s.update read.id (read.setStatus .offline)).records.core = s.records.core :=
      Table.core_update (fun _ => rfl) (h read List.mem_cons_self)
    exact hread.trans hupdate

/-- A start leaves one row for the core, as a first start would have made it. -/
theorem Table.core_ensure {first last : Start} (h : table.core = [coreRow first last]) (start : Start) :
    (ensureCore start table).core = [coreRow first start] := by
  have hupdate : ∀ table : Table, (table.update coreId fun record =>
      { record with name := start.name, status := .online, lastSeenAt := some start.now }).core =
        table.core.map fun record => { record with name := start.name, status := .online, lastSeenAt := some start.now } := by
    intro table
    unfold Table.core Table.update
    induction table with
    | nil => rfl
    | cons record rest ih =>
      rw [List.map_cons, List.filter_cons, List.filter_cons, ih]
      by_cases hid : record.id = coreId <;> simp [hid]
  unfold ensureCore
  rw [Table.get_core h]
  dsimp only
  rw [hupdate, h]
  rfl

end Table

namespace NodeService

/-- Rows, connections and events after an operation that spares the core. -/
structure Spared (s u : NodeService) : Prop where
  rows : u.records.core = s.records.core
  connections : s.connections.lookup coreId = none → u.connections.lookup coreId = none
  events : ∀ event ∈ u.events, event ∈ s.events ∨ event.node ≠ coreId

/-- Nothing has touched the core since the row was written. -/
structure CoreKept (row : NodeRecord) (s : NodeService) : Prop where
  rows : s.records.core = [row]
  connections : s.connections.lookup coreId = none
  tasks : ∀ i pc, s.pc? i = some pc → pc.Spares
  events : ∀ event ∈ s.events, event.node ≠ coreId

section Spared
variable {s t u : NodeService} {n : NodeId} {r : SessionRef}

theorem Spared.of_eq (hr : u.records = s.records) (hc : u.connections = s.connections) (he : u.events = s.events) :
    s.Spared u := by
  refine ⟨by rw [hr],fun h => by rwa [hc],fun event hevent => .inl ?_⟩
  rwa [he] at hevent

theorem Spared.refl (s : NodeService) : s.Spared s := .of_eq rfl rfl rfl

theorem Spared.trans (h : s.Spared t) (h' : t.Spared u) : s.Spared u := by
  refine ⟨h'.rows.trans h.rows,fun hs => h'.connections (h.connections hs),fun event hevent => ?_⟩
  obtain hmem | hother := h'.events event hevent
  · exact h.events event hmem
  · exact .inr hother

theorem Spared.note (h : s.Spared u) {event : NodeEvent} (hn : event.node ≠ coreId) : s.Spared (u.note event) := by
  refine ⟨h.rows,h.connections,fun event' hevent => ?_⟩
  obtain hmem | hmem := List.mem_append.mp hevent
  · exact h.events event' hmem
  · cases List.mem_singleton.mp hmem
    exact .inr hn

theorem Spared.settle (s : NodeService) (f : FutureRef) (outcome : Future) : s.Spared (s.settle f outcome) := by
  unfold NodeService.settle
  split <;> exact .of_eq rfl rfl rfl

theorem Spared.update (s : NodeService) {f : NodeRecord → NodeRecord} (hf : ∀ record, (f record).id = record.id)
    (hn : n ≠ coreId) : s.Spared (s.update n f) :=
  ⟨Table.core_update hf hn,id,fun _ h => .inl h⟩

theorem Spared.popConnection (s : NodeService) (n : NodeId) (e : NodeError) : s.Spared (s.popConnection n e) := by
  obtain ⟨-,-,-,hr,-⟩ := popConnection_frame s n e
  have hevents : (s.popConnection n e).events = s.events := by
    unfold NodeService.popConnection
    split <;> rfl
  refine ⟨by rw [hr],fun h => ?_,fun event hevent => .inl (hevents ▸ hevent)⟩
  rw [popConnection_lookup]
  split
  · rfl
  · exact h

theorem Spared.addConnection (s : NodeService) (hn : n ≠ coreId) : s.Spared (s.addConnection n) := by
  refine ⟨rfl,fun h => ?_,fun _ hevent => .inl hevent⟩
  have hsingle : List.lookup coreId [(n,s.sessionCount)] = none := by
    simp [List.lookup_cons, beq_eq_false_iff_ne.mpr (Ne.symm hn)]
  rw [NodeService.addConnection, List.lookup_append, h, hsingle]
  rfl

end Spared

section Kept
variable {settings : Settings} {row : NodeRecord} {l : Label} {s t u : NodeService} {i : TaskRef} {pc pc' : Pc}

/-- A task moves to a place that spares the core. -/
theorem CoreKept.rewrite (h : s.CoreKept row) (htasks : u.tasks = s.tasks) (hspared : s.Spared u) {f : Task → Task}
    (hpc : ∀ task, task.pc.Spares → (f task).pc.Spares) : (u.updateTask i f).CoreKept row := by
  refine ⟨hspared.rows.trans h.rows,hspared.connections h.connections,fun j pc₁ hj => ?_,fun event hevent => ?_⟩
  · obtain ⟨task,htask,rfl⟩ := Option.map_eq_some_iff.mp hj
    unfold updateTask at htask
    dsimp only at htask
    rw [htasks] at htask
    by_cases hji : j = i
    · subst hji
      rw [Function.update_self] at htask
      obtain ⟨task',hfound,rfl⟩ := Option.map_eq_some_iff.mp htask
      exact hpc task' (h.tasks j task'.pc (by rw [pc?, hfound]; rfl))
    · rw [Function.update_of_ne hji] at htask
      exact h.tasks j task.pc (by rw [pc?, htask]; rfl)
  · obtain hmem | hother := hspared.events event hevent
    · exact h.events event hmem
    · exact hother

theorem CoreKept.goto (h : s.CoreKept row) (htasks : u.tasks = s.tasks) (hspared : s.Spared u) (hpc : pc'.Spares) :
    (u.goto i pc').CoreKept row :=
  h.rewrite htasks hspared fun _ _ => hpc

/-- The tasks stay where they are. -/
theorem CoreKept.stay (h : s.CoreKept row) (htasks : u.tasks = s.tasks) (hspared : s.Spared u) : u.CoreKept row := by
  have hsame : u.updateTask 0 id = u := by simp [updateTask]
  rw [← hsame]
  exact h.rewrite htasks hspared fun _ hpc => hpc

theorem Pc.Spares.socket (h : pc.Spares) {n : NodeId} (hn : pc.socketOf = some n) : n ≠ coreId := by
  cases pc <;> cases hn <;> exact h

theorem CoreKept.leave (h : s.CoreKept row) (htasks : u.tasks = s.tasks) (hspared : s.Spared u) (hpc : pc.Spares)
    (e : NodeError) : (u.leave i pc e).CoreKept row := by
  have hrelease : s.Spared (u.release i) := hspared.trans (.of_eq rfl rfl rfl)
  unfold NodeService.leave
  split
  next n hn => exact h.goto (u := u.release i) htasks hrelease ⟨Pc.Spares.socket hpc hn,trivial⟩
  · exact h.goto (u := u.release i) htasks hrelease trivial

theorem nextStale_spares {rest : List NodeId} (h : coreId ∉ rest) (k : AfterSweep) : (nextStale rest k).Spares := by
  cases rest with
  | nil => trivial
  | cons m ms =>
    have hm : m ≠ coreId := fun heq => h (by simp [heq])
    exact ⟨hm,fun hmem => h (List.mem_cons_of_mem _ hmem)⟩

theorem CoreKept.disconnected (h : s.CoreKept row) (htasks : u.tasks = s.tasks) (hspared : s.Spared u) {n : NodeId}
    (hn : n ≠ coreId) {k : AfterDisconnect} (hk : k.Spares) : (u.disconnected i n k).CoreKept row := by
  cases k with
  | socket => exact h.goto htasks hspared trivial
  | sweep rest k => exact h.goto (u := u.note (.offline n)) htasks (hspared.note hn) (nextStale_spares hk k)
  | disabled record => exact h.goto (u := u.note (.disabled n)) htasks (hspared.note hn) trivial

theorem CoreKept.spawn (h : s.CoreKept row) (hpc : pc.Spares) : (s.spawn pc).CoreKept row := by
  refine ⟨h.rows,h.connections,fun j pc₁ hj => ?_,h.events⟩
  obtain ⟨task,htask,rfl⟩ := Option.map_eq_some_iff.mp hj
  obtain rfl | htask := spawn_task htask
  · exact hpc
  · exact h.tasks j task.pc (by rw [pc?, htask]; rfl)

/-- A probe of the core finds no session. -/
theorem CoreKept.dispatch (h : s.CoreKept row) (n : NodeId) (timeout : Option ℤ) (id : TaskId) :
    (s.dispatch settings i n timeout id).CoreKept row := by
  unfold NodeService.dispatch
  split
  · exact h.goto rfl (.refl s) trivial
  · split
    · exact h.goto rfl (.refl s) trivial
    next r hr =>
      have hn : n ≠ coreId := by
        rintro rfl
        rw [h.connections] at hr
        cases hr
      split
      · exact h.goto rfl (.refl s) trivial
      · dsimp only
        split
        · exact h.goto (u := s.register r id) rfl (.of_eq rfl rfl rfl) trivial
        next request hrequest =>
          split
          · exact h.goto (u := (s.register r id).forget r id) rfl (.of_eq rfl rfl rfl) trivial
          · exact h.goto (u := NodeService.note _ _) rfl
              ((Spared.of_eq rfl rfl rfl : s.Spared { (s.register r id).enqueue r request with recentTasks := _ }).note hn) hn

theorem verifyEnrollment_proof {n : NodeId} {proof : Option String} (h : settings.verifyEnrollment n proof = true) :
    proof.getD "" ≠ "" := by
  unfold Settings.verifyEnrollment at h
  split at h
  · simp only [Bool.and_eq_true, bne_iff_ne] at h
    exact h.1.2
  · cases h

theorem Locks.spares {now : Instant} (hpc : pc.Spares) (locks : Locks settings now pc pc') : pc'.Spares := by
  cases locks with
  | enroll hello proof verified => exact fun _ => verifyEnrollment_proof verified
  | heartbeat => exact hpc
  | offline => exact hpc
  | setEnabled => trivial

/-- The reads of an enrolment and of `set_enabled` turn the core away. -/
theorem Finds.spares {fresh : TaskId} (h : s.CoreKept row) (hrole : row.role = .core) (hhash : row.enrollmentHash = "")
    (hpc : pc.Spares) (finds : s.Finds fresh pc pc') : pc'.Spares := by
  have hget := Table.get_core h.rows
  cases finds with
  | unknown hello proof now found =>
    intro heq
    rw [heq, hget] at found
    cases found
  | known hello proof now record found enabled proved =>
    intro heq
    rw [heq, hget] at found
    cases found
    exact hpc heq (proved.symm.trans hhash)
  | beating => exact hpc
  | online => exact hpc
  | worker n enabled record found role =>
    rintro rfl
    rw [hget] at found
    cases found
    rw [hrole] at role
    cases role
  | stale cutoff k =>
    -- a row of the core is not one of a worker
    intro record hrecord heq
    obtain ⟨hmem,hstale⟩ := List.mem_filter.mp hrecord
    have hcore : record ∈ s.records.core := List.mem_filter.mpr ⟨hmem,by simp [heq]⟩
    rw [h.rows, List.mem_singleton] at hcore
    subst hcore
    simp [NodeRecord.stale, hrole] at hstale
  | crowded => exact ⟨hpc,trivial⟩
  | probed => trivial

theorem CoreKept.resume {now : Instant} {fresh : TaskId} (h : s.CoreKept row) (hrole : row.role = .core)
    (hhash : row.enrollmentHash = "") (hpc : pc.Spares) (ht : s.resume settings i now fresh pc = some t) :
    t.CoreKept row := by
  have hrelease : s.Spared (s.release i) := .of_eq rfl rfl rfl
  cases resume_cases ht with
  | locked locks => exact h.goto (u := { s with databaseLock := some i }) rfl (.of_eq rfl rfl rfl) (locks.spares hpc)
  | went finds => exact h.goto rfl (.refl s) (finds.spares h hrole hhash hpc)
  | left e => exact h.leave rfl (.refl s) hpc _
  | refused => exact h.leave rfl (.refl s) hpc _
  | denied | reported | failed => exact h.goto rfl (.refl s) trivial
  | inserted hello at' records new =>
    exact h.goto (u := { s with records := records }) rfl ⟨Table.core_insert new hpc,id,fun _ hevent => .inl hevent⟩ hpc
  | enrolled => exact h.goto (u := s.update _ _) rfl (.update s (fun _ => rfl) hpc) hpc
  | announced n created record =>
    have hnode : ∀ event : NodeEvent, event.node = n → s.Spared ((s.note event).release i) := by
      rintro event rfl
      exact ((Spared.refl s).note hpc).trans (.of_eq rfl rfl rfl)
    cases created with
    | true => exact h.goto (u := (s.note _).release i) rfl (hnode (.registered n record.status) rfl) hpc
    | false => exact h.goto (u := (s.note _).release i) rfl (hnode (.connected n record.status) rfl) hpc
  | connected n status =>
    obtain ⟨htasks,-⟩ := popConnection_frame s n (.disconnected "Worker session was replaced")
    exact h.rewrite (u := (s.popConnection n _).addConnection n) htasks
      ((Spared.popConnection s n _).trans (.addConnection _ hpc)) fun _ _ => hpc
  | registered n status => exact h.rewrite rfl (.refl s) fun _ _ => hpc
  | beaten n capabilities at' read =>
    exact h.goto (u := (s.update n _).release i) rfl
      ((Spared.update s (f := read.heartbeat capabilities at') (fun _ => rfl) hpc).trans (.of_eq rfl rfl rfl)) hpc
  | popped n k => exact h.goto (popConnection_frame s n _).1 (.popConnection s n _) hpc
  | gone n k => exact h.disconnected (u := s.release i) rfl hrelease hpc.1 hpc.2
  | published n k =>
    have hnote : s.Spared (s.note (.offline n)) := (Spared.refl s).note hpc.1
    exact h.disconnected (u := (s.note _).release i) rfl (hnote.trans (.of_eq rfl rfl rfl)) hpc.1 hpc.2
  | wentOffline n => exact h.goto (u := s.update n _) rfl (.update s (fun _ => rfl) hpc.1) hpc
  | switched n => exact h.goto (u := s.update n _) rfl (.update s (fun _ => rfl) hpc) hpc
  | swept stale k =>
    have hrest : coreId ∉ stale.map NodeRecord.id := by
      intro hmem
      obtain ⟨record,hrecord,heq⟩ := List.mem_map.mp hmem
      exact hpc record hrecord heq
    exact h.goto (u := s.markOffline stale) rfl ⟨Table.core_markOffline s hpc,id,fun _ hevent => .inl hevent⟩
      (nextStale_spares hrest k)
  | enabled => exact h.goto (u := s.release i) rfl hrelease trivial
  | disabled => exact h.goto (u := s.release i) rfl hrelease ⟨hpc,trivial⟩
  | dispatched n timeout id => exact h.dispatch n timeout id
  | answered n => exact h.goto (u := s.note _) rfl ((Spared.refl s).note hpc) trivial
  | cancelled n r id =>
    unfold cancelProbe
    dsimp only
    split
    · have hqueue : s.Spared ((s.forget r id).enqueue r (.taskCancel id)) := .of_eq rfl rfl rfl
      exact h.goto (u := NodeService.note _ _) rfl (hqueue.note hpc) trivial
    · have hforget : s.Spared (s.forget r id) := .of_eq rfl rfl rfl
      exact h.goto (u := NodeService.note _ _) rfl (hforget.note hpc) trivial

theorem CoreKept.receiveResult (h : s.CoreKept row) {n : NodeId} (hn : n ≠ coreId) (id : TaskId) (outcome : Future)
    {event : Option NodeEvent} (hevent : ∀ e ∈ event, e.node = n) : (s.receiveResult n id outcome event).CoreKept row := by
  have hsettled : ∀ r f, s.Spared ((s.forget r id).settle f outcome) := fun r f =>
    (Spared.of_eq rfl rfl rfl : s.Spared (s.forget r id)).trans (.settle _ f outcome)
  unfold NodeService.receiveResult
  split
  · exact h
  next r _ =>
    split
    · exact h
    next f _ =>
      dsimp only
      split
      · exact h.stay (u := s.forget r id) rfl (.of_eq rfl rfl rfl)
      · cases event with
        | none => exact h.stay rfl (hsettled r f)
        | some e =>
          have he : e.node ≠ coreId := (hevent e rfl).trans_ne hn
          exact h.stay rfl ((hsettled r f).note he)

theorem CoreKept.step (h : s.CoreKept row) (hrole : row.role = .core) (hhash : row.enrollmentHash = "")
    (ht : NodeService.step settings l s = some t) : t.CoreKept row := by
  cases l with
  | openSocket proof =>
    cases ht
    exact h.spawn trivial
  | sweep k now =>
    cases ht
    exact h.spawn trivial
  | setEnabled n enabled =>
    cases ht
    exact h.spawn trivial
  | receive i message now =>
    simp only [NodeService.step] at ht
    split at ht
    · cases ht
      exact h.goto rfl (.refl s) trivial
    · cases ht
      exact h.goto rfl (.refl s) trivial
    · cases ht
      exact h.goto rfl (.refl s) trivial
    next n message hpc =>
      have hn : n ≠ coreId := h.tasks i _ hpc
      cases ht
      cases message with
      | heartbeat | capabilities => exact h.goto rfl (.refl s) hn
      | hello | cancel => exact h
      | result id p =>
        have hnone : ∀ event ∈ (none : Option NodeEvent), event.node = n := by
          rintro _ ⟨⟩
        exact h.receiveResult hn id (.result p) hnone
      | error id code message =>
        have hfailed : ∀ event ∈ some (NodeEvent.taskFailed n id code), event.node = n := by
          rintro _ ⟨⟩
          rfl
        exact h.receiveResult hn id (.exception (.failed message)) hfailed
    next n hpc =>
      cases ht
      exact h.leave rfl (.refl s) (h.tasks i _ hpc) _
    · cases ht
  | deliver i =>
    simp only [NodeService.step] at ht
    split at ht
    · split at ht
      · cases ht
      next message rest hq =>
        cases ht
        apply h.rewrite (u := s.updateSession _ _) rfl (.of_eq rfl rfl rfl)
        intro task hpc
        cases message <;> exact hpc
    · cases ht
  | run i now fresh =>
    simp only [NodeService.step] at ht
    split at ht
    next hpc => exact h.resume hrole hhash (h.tasks i _ hpc) ht
    · cases ht
  | timeout i =>
    simp only [NodeService.step] at ht
    split at ht
    next n r f id hpc =>
      have hn : n ≠ coreId := h.tasks i _ hpc
      cases ht
      exact h.goto (u := s.settle _ _) rfl (.settle s f _) hn
    · cases ht
  | fail i =>
    simp only [NodeService.step] at ht
    split at ht
    · cases ht
    · cases ht
    next n r f id hpc =>
      cases ht
      exact h.leave (u := s.settle _ _) rfl (.settle s f _) (h.tasks i _ hpc) _
    next pc _ _ hpc =>
      cases ht
      exact h.leave rfl (.refl s) (h.tasks i _ hpc) _

theorem coreKept_initial {table : Table} (h : table.core = [row]) : (initial table).CoreKept row := by
  constructor
  · exact h
  · rfl
  · intro i pc hpc
    cases hpc
  · intro event hevent
    cases hevent

end Kept

theorem CoreKept.server {settings : Settings} {first last : Start} {l : ServerLabel} {s t : NodeService}
    (h : s.CoreKept (coreRow first last)) (ht : serverStep settings l s = some t) :
    t.CoreKept (coreRow first (l.start?.getD last)) := by
  cases l with
  | step l => exact h.step rfl rfl ht
  | restart start =>
    cases ht
    exact coreKept_initial (Table.core_ensure h.rows start)

theorem lastStart_cons (first : Start) (l : ServerLabel) (ls : List ServerLabel) :
    lastStart first (l :: ls) = lastStart (l.start?.getD first) ls := by
  cases l with
  | step l => rfl
  | restart start =>
    simp only [lastStart, ServerLabel.start?, List.filterMap_cons, List.getLast?_cons, Option.getD_some]

theorem CoreKept.run {settings : Settings} {first last : Start} {ls : List ServerLabel} {s t : NodeService}
    (h : s.CoreKept (coreRow first last)) (ht : exec (serverStep settings) ls s = some t) :
    t.CoreKept (coreRow first (lastStart last ls)) := by
  induction ls generalizing s last with
  | nil =>
    cases ht
    exact h
  | cons l ls ih =>
    obtain ⟨u,hu,hrest⟩ := Option.bind_eq_some_iff.mp ht
    rw [lastStart_cons]
    exact ih (h.server hu) hrest

/-- Whatever workers and clients do, and whenever the server stops and starts again: the row of
the core is the one that the starts have written, no worker connects as the core, and nothing is
ever sent to it or said of it. -/
theorem core_unassailable (settings : Settings) (first : Start) (ls : List ServerLabel) (s : NodeService)
    (h : exec (serverStep settings) ls (initial (ensureCore first [])) = some s) :
    s.records.get coreId = some (coreRow first (lastStart first ls)) ∧ s.connections.lookup coreId = none ∧
      ∀ event ∈ s.events, event.node ≠ coreId := by
  have hinitial : (initial (ensureCore first [])).CoreKept (coreRow first first) := coreKept_initial rfl
  have hkept : s.CoreKept (coreRow first (lastStart first ls)) := hinitial.run h
  exact ⟨Table.get_core hkept.rows,hkept.connections,hkept.events⟩

/-- A worker with the secret claims to be the core, before and after a restart. -/
def impostorLabels : List ServerLabel :=
  let claim : List ServerLabel :=
    [.step (.openSocket (some "keycore_local")),.step (.receive 0 (some (.hello ⟨coreId,"impostor",[]⟩)) 1),
      .step (.run 0 2 ""),.step (.run 0 3 "")]
  claim ++ [.restart ⟨"second",[],4⟩] ++ claim

theorem impostorLabels_run :
    (exec (serverStep sampleSettings) impostorLabels (initial (ensureCore ⟨"first",[],0⟩ []))).isSome = true := by
  decide

theorem core_unassailable_impostor : ∃ s,
    exec (serverStep sampleSettings) impostorLabels (initial (ensureCore ⟨"first",[],0⟩ [])) = some s ∧
      s.records.get coreId = some ⟨coreId,"second",.core,.online,true,"",[],some 4⟩ :=
  ⟨_,exec_after impostorLabels_run,
    (core_unassailable sampleSettings ⟨"first",[],0⟩ impostorLabels _ (exec_after impostorLabels_run)).1⟩

end NodeService

end AgentGraph.Nodes
