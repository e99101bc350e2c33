import AgentGraph.Nodes.Steps

/-! # The session a probe is sent to

The newest socket of a node owns its session as long as no `disconnect` takes it away:
the one of a replaced socket, of a sweep or of `set_enabled`. Such a pop is harmless only
while the row is not ONLINE, and until a heartbeat or an enrolment makes it so again.
-/
set_option autoImplicit false
namespace AgentGraph.Nodes
open Transition

namespace NodeService

/-- Task `j` is a socket of `n`, and its `connect` created session `r`. -/
def Connected (s : NodeService) (j : TaskRef) (n : NodeId) (r : SessionRef) : Prop :=
  ∃ task, s.tasks j = some task ∧ task.connected = some (n,r)

/-- The socket has returned from `connect` and is still open. -/
def Live (s : NodeService) (j : TaskRef) (n : NodeId) (r : SessionRef) : Prop :=
  ∃ task, s.tasks j = some task ∧ task.connected = some (n,r) ∧ task.pc.live = true

/-- No later socket of `n` has connected. -/
def Newest (s : NodeService) (n : NodeId) (r : SessionRef) : Prop := ∀ j r', s.Connected j n r' → r' ≤ r

/-- The row of `n` is enabled and ONLINE. -/
def Online (s : NodeService) (n : NodeId) : Prop :=
  ∃ record, s.records.get n = some record ∧ record.enabled = true ∧ record.status = .online

/-- The newest socket, while it is open and its node ONLINE, owns the current session. -/
def Dispatchable (s : NodeService) : Prop :=
  ∀ j n r, s.Live j n r → s.Newest n r → s.Online n → s.connections.lookup n = some r

/-- The commit writes ONLINE into an enabled row of `n`. -/
def WritesOnline (s : NodeService) (n : NodeId) : Pc → Prop
  | .enrollCommit hello _ none => hello.nodeId = n ∧ s.records.get n = none
  | .enrollCommit hello _ (some read) =>
    hello.nodeId = n ∧ read.status ≠ .online ∧ ∃ record, s.records.get n = some record ∧ record.enabled = true
  | .heartbeatCommit m _ _ read =>
    m = n ∧ read.status ≠ .online ∧ ∃ record, s.records.get n = some record ∧ record.enabled = true
  | _ => False

/-- A `disconnect` is about to take the session of a node that is ONLINE and whose
newest socket is open, or a commit is about to make a node ONLINE whose newest socket is
open without its session. -/
def Endangers (s : NodeService) (pc : Pc) : Prop :=
  (∃ n k, pc = .disconnect n k ∧ s.Online n ∧ ∃ j r, s.Live j n r ∧ s.Newest n r) ∨
  ∃ n, s.WritesOnline n pc ∧ ∃ j r, s.Live j n r ∧ s.Newest n r ∧ s.connections.lookup n ≠ some r

def EndangeringStep (l : Label) (s : NodeService) : Prop :=
  ∃ i now fresh pc, l = .run i now fresh ∧ s.pc? i = some pc ∧ s.Endangers pc

/-- What holds in every state: sessions are numbered in the order of the connects, the
database lock has the holder that the program counters say, and no row becomes ONLINE
between the read and the write of a `set_enabled`. -/
structure Sound (s : NodeService) : Prop where
  fresh : ∀ j, s.taskCount ≤ j → s.tasks j = none
  refs : ∀ j n r, s.Connected j n r → r < s.sessionCount
  early : ∀ j task, s.tasks j = some task → task.pc.early = true → task.connected = none
  holding : ∀ j pc, s.pc? j = some pc → pc.holding = true → s.databaseLock = some j
  reading : ∀ j pc n read, s.pc? j = some pc → pc.enabling = some (n,read) →
    ∀ record, s.records.get n = some record → record.status = .online → read.status = .online

section Advances
variable {s t : NodeService} {i j : TaskRef} {pc pc' : Pc} {n : NodeId} {r : SessionRef}

theorem Advance.other (h : s.Advance t i pc pc') (hj : j ≠ i) : t.tasks j = s.tasks j := by
  obtain ⟨f,-,htasks⟩ := h.tasks
  rw [htasks,Function.update_of_ne hj]

theorem Advance.self (h : s.Advance t i pc pc') (hpc : s.pc? i = some pc) :
    ∃ task task', s.tasks i = some task ∧ task.pc = pc ∧ t.tasks i = some task' ∧ task'.pc = pc' ∧
      task'.connected = task.connected := by
  obtain ⟨task,htask,htaskpc⟩ := Option.map_eq_some_iff.mp hpc
  obtain ⟨f,hf,htasks⟩ := h.tasks
  refine ⟨task,f task,htask,htaskpc,?_,(hf task).1,(hf task).2⟩
  rw [htasks,Function.update_self,htask,Option.map_some]

theorem Advance.pc?_self (h : s.Advance t i pc pc') (hpc : s.pc? i = some pc) : t.pc? i = some pc' := by
  obtain ⟨_,task',-,-,htask',hpc',-⟩ := h.self hpc
  rw [pc?,htask',Option.map_some,hpc']

theorem Advance.pc?_other (h : s.Advance t i pc pc') (hj : j ≠ i) : t.pc? j = s.pc? j := by
  rw [pc?,pc?,h.other hj]

theorem Advance.connected_iff (h : s.Advance t i pc pc') (hpc : s.pc? i = some pc) :
    t.Connected j n r ↔ s.Connected j n r := by
  by_cases hj : j = i
  · subst hj
    obtain ⟨task,task',htask,-,htask',-,hc⟩ := h.self hpc
    simp [Connected,htask,htask',hc]
  · rw [Connected,Connected,h.other hj]

theorem Advance.newest_iff (h : s.Advance t i pc pc') (hpc : s.pc? i = some pc) : t.Newest n r ↔ s.Newest n r := by
  simp only [Newest, h.connected_iff hpc]

theorem Advance.live (h : s.Advance t i pc pc') (hpc : s.pc? i = some pc) (hlive : pc'.live = true → pc.live = true)
    (hl : t.Live j n r) : s.Live j n r := by
  by_cases hj : j = i
  · subst hj
    obtain ⟨task,task',htask,htaskpc,htask',hpc',hc⟩ := h.self hpc
    obtain ⟨_,hsome,hconn,hl⟩ := hl
    obtain rfl := Option.some.inj (htask'.symm.trans hsome)
    exact ⟨task,htask,hc.symm.trans hconn,by rw [htaskpc]; exact hlive (by rw [← hpc']; exact hl)⟩
  · rw [Live,← h.other hj]
    exact hl

theorem Advance.live' (h : s.Advance t i pc pc') (hpc : s.pc? i = some pc) (hlive : pc'.live = pc.live)
    (hl : s.Live j n r) : t.Live j n r := by
  by_cases hj : j = i
  · subst hj
    obtain ⟨task,task',htask,htaskpc,htask',hpc',hc⟩ := h.self hpc
    obtain ⟨_,hsome,hconn,hl⟩ := hl
    obtain rfl := Option.some.inj (htask.symm.trans hsome)
    exact ⟨task',htask',hc.trans hconn,by rw [hpc',hlive,← htaskpc]; exact hl⟩
  · rw [Live,h.other hj]
    exact hl

/-- The fields of `Sound` that rest on the tasks alone. -/
theorem Sound.advance (hs : s.Sound) (h : s.Advance t i pc pc') (hpc : s.pc? i = some pc)
    (hn : t.sessionCount = s.sessionCount)
    (hreading : ∀ j pc n read, t.pc? j = some pc → pc.enabling = some (n,read) →
      ∀ record, t.records.get n = some record → record.status = .online → read.status = .online) : t.Sound := by
  refine ⟨fun j hj => ?_,fun j n r hc => ?_,fun j task ht he => ?_,fun j pc₁ hj hh => ?_,hreading⟩
  · rw [h.taskCount] at hj
    have hnone := hs.fresh j hj
    have hne : j ≠ i := by
      rintro rfl
      rw [pc?,hnone] at hpc
      cases hpc
    rw [h.other hne,hnone]
  · rw [hn]
    exact hs.refs j n r ((h.connected_iff hpc).mp hc)
  · by_cases hne : j = i
    · subst hne
      obtain ⟨task₀,task',htask,htaskpc,htask',hpc',hc⟩ := h.self hpc
      obtain rfl := Option.some.inj (htask'.symm.trans ht)
      rw [hc]
      exact hs.early j task₀ htask (by rw [htaskpc]; exact h.early (by rw [← hpc']; exact he))
    · rw [h.other hne] at ht
      exact hs.early j task ht he
  · by_cases hne : j = i
    · subst hne
      rw [h.pc?_self hpc] at hj
      cases hj
      exact h.own hh (hs.holding j pc hpc)
    · rw [h.pc?_other hne] at hj
      exact h.others j hne (hs.holding j pc₁ hj hh)

end Advances

/-! ## Rows -/

section Rows
variable {settings : Settings} {s t : NodeService} {i : TaskRef} {pc pc' : Pc} {n m : NodeId}
  {f : NodeRecord → NodeRecord}

theorem write_id (h : pc.write = some (n,f)) (record : NodeRecord) : (f record).id = record.id := by
  unfold Pc.write at h
  split at h <;> cases h <;> rfl

theorem write_holding (h : pc.write = some (n,f)) : pc.holding = true := by
  unfold Pc.write at h
  split at h <;> cases h <;> rfl

/-- A sweep writes OFFLINE or nothing. -/
theorem get_markOffline (stale : List NodeRecord) (s : NodeService) {record : NodeRecord}
    (h : (s.markOffline stale).records.get n = some record) :
    ∃ old, s.records.get n = some old ∧ record.enabled = old.enabled ∧
      (record.status = .online → old.status = .online) := by
  induction stale generalizing s with
  | nil => exact ⟨record,h,rfl,id⟩
  | cons read rest ih =>
    obtain ⟨mid,hmid,henabled,hstatus⟩ := ih (s.update read.id (read.setStatus .offline)) h
    have hget : (s.update read.id (read.setStatus .offline)).records.get n =
        (s.records.get n).map fun record => if n = read.id then read.setStatus .offline record else record :=
      Table.get_update fun _ => rfl
    obtain ⟨old,hold,rfl⟩ := Option.map_eq_some_iff.mp (hget.symm.trans hmid)
    refine ⟨old,hold,henabled.trans (by split <;> rfl),fun ho => ?_⟩
    have hmidstatus := hstatus ho
    split at hmidstatus
    · unfold NodeRecord.setStatus written at hmidstatus
      dsimp only at hmidstatus
      split at hmidstatus
      · exact hmidstatus
      · cases hmidstatus
    · exact hmidstatus

theorem online_update (hid : ∀ record, (f record).id = record.id) (hr : t.records = s.records.update n f) :
    t.Online m ↔ ∃ record, s.records.get m = some record ∧
      (if m = n then f record else record).enabled = true ∧ (if m = n then f record else record).status = .online := by
  rw [Online,hr,Table.get_update hid]
  simp only [Option.map_eq_some_iff]
  constructor
  · rintro ⟨_,⟨record,hrec,rfl⟩,h⟩
    exact ⟨record,hrec,h⟩
  · rintro ⟨record,hrec,h⟩
    exact ⟨_,⟨record,hrec,rfl⟩,h⟩

/-- A commit makes a node ONLINE only where `WritesOnline` says so. -/
theorem wrote_online (hs : s.Sound) (hpc : s.pc? i = some pc) (hw : pc.write = some (n,f))
    (hr : t.records = s.records.update n f) (h : t.Online m) : s.Online m ∨ s.WritesOnline m pc := by
  obtain ⟨record,hrec,henabled,hstatus⟩ := (online_update (write_id hw) hr).mp h
  by_cases hm : m = n
  · subst hm
    rw [if_pos rfl] at henabled hstatus
    unfold Pc.write at hw
    split at hw <;> cases hw
    · next hello now read =>
      by_cases hread : read.status = .online
      · exact .inl ⟨record,hrec,henabled,by simpa [NodeRecord.enroll,written,hread] using hstatus⟩
      · exact .inr ⟨rfl,hread,record,hrec,henabled⟩
    · next capabilities now read =>
      by_cases hread : read.status = .online
      · exact .inl ⟨record,hrec,henabled,by simpa [NodeRecord.heartbeat,written,hread] using hstatus⟩
      · exact .inr ⟨rfl,hread,record,hrec,henabled⟩
    · next read k =>
      refine .inl ⟨record,hrec,henabled,?_⟩
      unfold NodeRecord.setStatus written at hstatus
      dsimp only at hstatus
      split at hstatus
      · exact hstatus
      · cases hstatus
    · next enabled read =>
      -- the status would have to be written, or to have been read as ONLINE
      unfold NodeRecord.setEnabled at hstatus
      by_cases hread : (if enabled then NodeStatus.registered else .disabled) = read.status
      · have hcur : record.status = .online := by simpa [written,hread] using hstatus
        have honline := hs.reading i _ _ read hpc rfl record hrec hcur
        rw [← hread] at honline
        cases enabled <;> cases honline
      · simp only [written, if_neg hread] at hstatus
        cases enabled <;> cases hstatus
  · rw [if_neg hm] at henabled hstatus
    exact .inl ⟨record,hrec,henabled,hstatus⟩

theorem writes_online (hw : pc.write = some (n,f)) (hr : t.records = s.records.update n f)
    (h : s.WritesOnline m pc) : t.Online m := by
  rw [online_update (write_id hw) hr]
  unfold Pc.write at hw
  split at hw <;> cases hw
  · next hello now read =>
    obtain ⟨rfl,hread,record,hrec,henabled⟩ := h
    exact ⟨record,hrec,by rw [if_pos rfl]; exact henabled,by simp [NodeRecord.enroll,written,Ne.symm hread]⟩
  · next capabilities now read =>
    obtain ⟨rfl,hread,record,hrec,henabled⟩ := h
    exact ⟨record,hrec,by rw [if_pos rfl]; exact henabled,by simp [NodeRecord.heartbeat,written,Ne.symm hread]⟩
  · cases h
  · cases h

theorem inserted_online {hello : WorkerHello} {now : Instant} {records : Table}
    (hrec : s.records.insert (newRecord settings hello now) = some records) (hr : t.records = records) :
    t.Online m ↔ s.Online m ∨ s.WritesOnline m (.enrollCommit hello now none) := by
  have hget := Table.get_insert (m := m) hrec
  rw [Online,hr,hget.2]
  change _ ↔ s.Online m ∨ (hello.nodeId = m ∧ s.records.get m = none)
  have hnone : s.records.get hello.nodeId = none := hget.1
  cases hm : s.records.get m with
  | some record =>
    have hne : hello.nodeId ≠ m := by
      rintro rfl
      rw [hnone] at hm
      cases hm
    simp [Online,hm,hne]
  | none =>
    by_cases he : m = hello.nodeId
    · simp [Online,he,hnone,newRecord]
    · simp [Online,hm,he,newRecord,Ne.symm he]

end Rows

/-! ## One step -/

section Steps
variable {settings : Settings} {s t : NodeService} {i : TaskRef} {pc pc' : Pc} {l : Label}

theorem lookup_filter {α : Type} [DecidableEq α] {β : Type} (entries : List (α × β)) (a b : α) :
    (entries.filter fun entry => entry.1 != a).lookup b = if b = a then none else entries.lookup b := by
  induction entries with
  | nil => simp
  | cons entry rest ih =>
    obtain ⟨key,value⟩ := entry
    by_cases hb : b = key
    · subst hb
      by_cases ha : b = a
      · rw [if_pos ha] at ih
        rw [List.filter_cons_of_neg (by simp [ha]),if_pos ha,ih]
      · simp [ha]
    · have hlookup : ∀ rest : List (α × β), ((key,value) :: rest).lookup b = rest.lookup b := by
        simp [List.lookup_cons,beq_eq_false_iff_ne.mpr hb]
      by_cases ha : key = a
      · simp [ha,ih,← hlookup rest]
      · simp [ha,hlookup,ih]

/-- The entry of the node is gone after a pop, and the others are as they were. -/
theorem popConnection_lookup (s : NodeService) (n m : NodeId) (e : NodeError) :
    (s.popConnection n e).connections.lookup m = if m = n then none else s.connections.lookup m := by
  unfold popConnection
  split
  next hnone =>
    split
    next hm => rw [hm,hnone]
    · rfl
  · exact lookup_filter s.connections n m

theorem spawn_task {j : TaskRef} {task : Task} (h : (s.spawn pc).tasks j = some task) :
    task = ⟨pc,none,[]⟩ ∨ s.tasks j = some task := by
  by_cases hj : j = s.taskCount
  · subst hj
    simp only [NodeService.spawn, Function.update_self, Option.some.injEq] at h
    exact .inl h.symm
  · simp only [NodeService.spawn, Function.update_of_ne hj] at h
    exact .inr h

theorem Sound.spawn (hs : s.Sound) (hh : pc.holding = false) (hr : pc.enabling = none) : (s.spawn pc).Sound := by
  refine ⟨fun j hj => ?_,fun j n r hc => ?_,fun j task ht he => ?_,fun j pc₁ hj hh₁ => ?_,
    fun j pc₁ n read hj hread => ?_⟩
  · have hlt : s.taskCount + 1 ≤ j := hj
    have hne : j ≠ s.taskCount := by omega
    exact (Function.update_of_ne hne _ _).trans (hs.fresh j (by omega))
  · obtain ⟨task,ht,hc⟩ := hc
    obtain rfl | ht := spawn_task ht
    · cases hc
    · exact hs.refs j n r ⟨task,ht,hc⟩
  · obtain rfl | ht := spawn_task ht
    · rfl
    · exact hs.early j task ht he
  · obtain ⟨task,ht,rfl⟩ := Option.map_eq_some_iff.mp hj
    obtain rfl | ht := spawn_task ht
    · rw [hh] at hh₁
      cases hh₁
    · exact hs.holding j task.pc (by rw [pc?,ht]; rfl) hh₁
  · obtain ⟨task,ht,rfl⟩ := Option.map_eq_some_iff.mp hj
    obtain rfl | ht := spawn_task ht
    · rw [hr] at hread
      cases hread
    · exact hs.reading j task.pc n read (by rw [pc?,ht]; rfl) hread

/-- No other task can be about to write a row that `set_enabled` has read. -/
theorem Sound.enabling_other (hs : s.Sound) (hpc : s.pc? i = some pc) (hh : pc.holding = true) {j : TaskRef} {pc₁ : Pc}
    {n : NodeId} {read : NodeRecord} (hj : s.pc? j = some pc₁) (hread : pc₁.enabling = some (n,read)) : j = i := by
  have hh₁ : pc₁.holding = true := by
    unfold Pc.enabling at hread
    split at hread <;> cases hread
    rfl
  have hlock := hs.holding j pc₁ hj hh₁
  rw [hs.holding i pc hpc hh] at hlock
  exact (Option.some.inj hlock).symm

/-- The tasks after a `connect`. -/
theorem connected_tasks {n : NodeId} {status : NodeStatus} {r : SessionRef}
    (htasks : t.tasks = Function.update s.tasks i ((s.tasks i).map fun task =>
      { task with pc := .register n status, connected := some (n,r) }))
    (hpc : s.pc? i = some pc) :
    ∃ task, s.tasks i = some task ∧ t.tasks i = some ⟨.register n status,some (n,r),task.sent⟩ ∧
      ∀ j, j ≠ i → t.tasks j = s.tasks j := by
  obtain ⟨task,htask,-⟩ := Option.map_eq_some_iff.mp hpc
  refine ⟨task,htask,?_,fun j hj => ?_⟩
  · rw [htasks,Function.update_self,htask,Option.map_some]
  · rw [htasks,Function.update_of_ne hj]

theorem Quiet.sound (h : s.Quiet t i pc) (hs : s.Sound) (hpc : s.pc? i = some pc) : t.Sound := by
  obtain ⟨pc',hadv,hr,-,hn,-,hreading⟩ := h
  refine hs.advance hadv hpc hn fun j pc₁ n read hj hread => ?_
  rw [hr]
  by_cases hne : j = i
  · subst hne
    rw [hadv.pc?_self hpc] at hj
    cases hj
    intro record hrec ho
    rw [hreading n read hread] at hrec
    cases hrec
    exact ho
  · rw [hadv.pc?_other hne] at hj
    exact hs.reading j pc₁ n read hj hread

theorem Effect.sound (h : s.Effect settings t i pc) (hs : s.Sound) (hpc : s.pc? i = some pc) : t.Sound := by
  cases h with
  | quiet _ h | refused _ _ _ _ h => exact h.sound hs hpc
  | popped n k at' hadv hr _ hn =>
    refine hs.advance hadv hpc hn fun j pc₁ m read hj hread => ?_
    rw [hr]
    by_cases hne : j = i
    · subst hne
      rw [hadv.pc?_self hpc] at hj
      cases hj
      cases hread
    · rw [hadv.pc?_other hne] at hj
      exact hs.reading j pc₁ m read hj hread
  | connected n status at' htasks hcount hlock hr hc hn =>
    obtain ⟨task,htask,hself,hother⟩ := connected_tasks htasks hpc
    refine ⟨fun j hj => ?_,fun j m r hc => ?_,fun j task' ht he => ?_,fun j pc₁ hj hh => ?_,
      fun j pc₁ m read hj hread => ?_⟩
    · have hnone := hs.fresh j (by omega)
      have hne : j ≠ i := by
        rintro rfl
        rw [htask] at hnone
        cases hnone
      rw [hother j hne,hnone]
    · obtain ⟨task',ht,hc⟩ := hc
      by_cases hne : j = i
      · subst hne
        rw [hself] at ht
        cases ht
        cases hc
        rw [hn]
        exact Nat.lt_succ_self _
      · rw [hother j hne] at ht
        rw [hn]
        exact Nat.lt_succ_of_lt (hs.refs j m r ⟨task',ht,hc⟩)
    · by_cases hne : j = i
      · subst hne
        rw [hself] at ht
        cases ht
        cases he
      · rw [hother j hne] at ht
        exact hs.early j task' ht he
    · rw [hlock]
      by_cases hne : j = i
      · subst hne
        rw [pc?,hself] at hj
        cases hj
        cases hh
      · rw [pc?,hother j hne] at hj
        exact hs.holding j pc₁ hj hh
    · rw [hr]
      by_cases hne : j = i
      · subst hne
        rw [pc?,hself] at hj
        cases hj
        cases hread
      · rw [pc?,hother j hne] at hj
        exact hs.reading j pc₁ m read hj hread
  | wrote n f at' pc' hadv hr hc hn hlive hidle =>
    refine hs.advance hadv hpc hn fun j pc₁ m read hj hread => ?_
    by_cases hne : j = i
    · subst hne
      rw [hadv.pc?_self hpc] at hj
      cases hj
      rw [hidle] at hread
      cases hread
    · rw [hadv.pc?_other hne] at hj
      exact absurd (hs.enabling_other hpc (write_holding at') hj hread) hne
  | inserted hello now at' hadv hrec hc hn =>
    refine hs.advance hadv hpc hn fun j pc₁ m read hj hread => ?_
    by_cases hne : j = i
    · subst hne
      rw [hadv.pc?_self hpc] at hj
      cases hj
      cases hread
    · rw [hadv.pc?_other hne] at hj
      exact absurd (hs.enabling_other hpc (by rw [at']; rfl) hj hread) hne
  | swept _ stale pc' hadv hr hc hn hlive hidle =>
    refine hs.advance hadv hpc hn fun j pc₁ m read hj hread record hrec ho => ?_
    by_cases hne : j = i
    · subst hne
      rw [hadv.pc?_self hpc] at hj
      cases hj
      rw [hidle] at hread
      cases hread
    · rw [hadv.pc?_other hne] at hj
      rw [hr] at hrec
      obtain ⟨old,hold,-,hstatus⟩ := get_markOffline stale s hrec
      exact hs.reading j pc₁ m read hj hread old hold (hstatus ho)

theorem Quiet.dispatchable (h : s.Quiet t i pc) (hpc : s.pc? i = some pc) (hd : s.Dispatchable) : t.Dispatchable := by
  obtain ⟨pc',hadv,hr,hc,-,hlive,-⟩ := h
  intro j n r hl hnew ho
  rw [hc]
  rw [Online,hr] at ho
  exact hd j n r (hadv.live hpc hlive hl) ((hadv.newest_iff hpc).mp hnew) ho

/-- A new task is no socket yet. -/
theorem Dispatchable.spawn (hd : s.Dispatchable) (hs : s.Sound) : (s.spawn pc).Dispatchable := by
  intro j n r hl hnew ho
  obtain ⟨task,ht,hconn,hlive⟩ := hl
  obtain rfl | ht := spawn_task ht
  · cases hconn
  · refine hd j n r ⟨task,ht,hconn,hlive⟩ (fun j' r' hc => ?_) ho
    obtain ⟨task',ht',hconn'⟩ := hc
    have hne : j' ≠ s.taskCount := by
      rintro rfl
      rw [hs.fresh _ le_rfl] at ht'
      cases ht'
    exact hnew j' r' ⟨task',(Function.update_of_ne hne _ _).trans ht',hconn'⟩

theorem not_endangers_of_safe (h : pc.hazard = false) : ¬ s.Endangers pc := by
  rintro (⟨n,k,rfl,-⟩ | ⟨n,hw,-⟩)
  · cases h
  · unfold WritesOnline at hw
    split at hw
    · cases h
    · cases h
    · cases h
    · exact hw

/-- Of all steps only one that endangers a session ends the property. -/
theorem Effect.dispatchable_iff (h : s.Effect settings t i pc) (hs : s.Sound) (hpc : s.pc? i = some pc)
    (hd : s.Dispatchable) : t.Dispatchable ↔ ¬ s.Endangers pc := by
  cases h with
  | quiet hsafe h => exact iff_of_true (h.dispatchable hpc hd) (not_endangers_of_safe hsafe)
  | refused hello now at' htaken h =>
    refine iff_of_true (h.dispatchable hpc hd) ?_
    rintro (⟨n,k,he,-⟩ | ⟨n,hw,-⟩)
    · rw [at'] at he
      cases he
    · rw [at'] at hw
      obtain ⟨rfl,hnone⟩ := hw
      unfold Table.insert at htaken
      rw [if_neg (by rw [newRecord,hnone]; simp)] at htaken
      cases htaken
  | popped n k at' hadv hr hc hn =>
    have honline : ∀ m, t.Online m ↔ s.Online m := fun m => by rw [Online,hr,Online]
    constructor
    · rintro hd' (⟨m,k',he,ho,j,r,hl,hnew⟩ | ⟨m,hw,-⟩)
      · rw [at'] at he
        cases he
        -- the newest socket is another task, so it is still open without its session
        have hl' := hadv.live' hpc (by rw [at']; rfl) hl
        have hlookup := hd' j n r hl' ((hadv.newest_iff hpc).mpr hnew) ((honline n).mpr ho)
        rw [hc,popConnection_lookup,if_pos rfl] at hlookup
        cases hlookup
      · rw [at'] at hw
        exact hw
    · intro hsafe j m r hl hnew ho
      have hl' := hadv.live hpc (by simp [Pc.live]) hl
      have hnew' := (hadv.newest_iff hpc).mp hnew
      have ho' := (honline m).mp ho
      rw [hc,popConnection_lookup]
      split
      next hm => exact absurd (.inl ⟨n,k,at',hm ▸ ho',j,r,hm ▸ hl',hm ▸ hnew'⟩) hsafe
      · exact hd j m r hl' hnew' ho'
  | connected n status at' htasks hcount hlock hr hc hn =>
    obtain ⟨task,htask,hself,hother⟩ := connected_tasks htasks hpc
    refine iff_of_true ?_ (not_endangers_of_safe (by rw [at']; rfl))
    intro j m r hl hnew ho
    rw [Online,hr] at ho
    rw [hc,List.lookup_append,popConnection_lookup]
    have htaskpc : task.pc = pc := by simpa [pc?,htask] using hpc
    have hnone : task.connected = none := hs.early i task htask (by rw [htaskpc,at']; rfl)
    by_cases hm : m = n
    · subst hm
      -- the new session is the newest
      have hle : s.sessionCount ≤ r := hnew i _ ⟨_,hself,rfl⟩
      have hr' : r = s.sessionCount := by
        obtain ⟨task',ht,hconn,-⟩ := hl
        by_cases hj : j = i
        · subst hj
          rw [hself] at ht
          cases ht
          cases hconn
          rfl
        · rw [hother j hj] at ht
          exact absurd hle (Nat.not_le.mpr (hs.refs j m r ⟨task',ht,hconn⟩))
      simp [hr']
    · have hne : ∀ r', t.Connected j m r' → s.Connected j m r' := fun r' h => by
        obtain ⟨task',ht,hconn⟩ := h
        by_cases hj : j = i
        · subst hj
          rw [hself] at ht
          cases ht
          cases hconn
          exact absurd rfl hm
        · rw [hother j hj] at ht
          exact ⟨task',ht,hconn⟩
      have hj : j ≠ i := by
        rintro rfl
        obtain ⟨task',ht,hconn,-⟩ := hl
        rw [hself] at ht
        cases ht
        cases hconn
        exact hm rfl
      rw [Live,hother j hj] at hl
      have hnew' : s.Newest m r := fun j' r' hc' => by
        obtain ⟨task',ht,hconn⟩ := hc'
        have hj' : j' ≠ i := by
          rintro rfl
          rw [htask] at ht
          cases ht
          rw [hnone] at hconn
          cases hconn
        exact hnew j' r' ⟨task',by rw [hother j' hj']; exact ht,hconn⟩
      have hlookup := hd j m r hl hnew' ho
      simp [hm,hlookup]
  | wrote n f at' pc' hadv hr hc hn hlive hidle =>
    constructor
    · rintro hd' (⟨m,k,he,-⟩ | ⟨m,hw,j,r,hl,hnew,hne⟩)
      · rw [he] at at'
        cases at'
      · have hlookup := hd' j m r (hadv.live' hpc hlive hl) ((hadv.newest_iff hpc).mpr hnew) (writes_online at' hr hw)
        rw [hc] at hlookup
        exact hne hlookup
    · intro hsafe j m r hl hnew ho
      rw [hc]
      have hl' := hadv.live hpc (fun h => hlive ▸ h) hl
      have hnew' := (hadv.newest_iff hpc).mp hnew
      obtain ho | hw := wrote_online hs hpc at' hr ho
      · exact hd j m r hl' hnew' ho
      · by_contra hne
        exact hsafe (.inr ⟨m,hw,j,r,hl',hnew',hne⟩)
  | inserted hello now at' hadv hrec hc hn =>
    have honline : ∀ m, t.Online m ↔ s.Online m ∨ s.WritesOnline m pc := fun m => by
      rw [at']
      exact inserted_online hrec rfl
    have hlive : (Pc.enrollRefresh hello.nodeId true).live = pc.live := by rw [at']; rfl
    constructor
    · rintro hd' (⟨m,k,he,-⟩ | ⟨m,hw,j,r,hl,hnew,hne⟩)
      · rw [at'] at he
        cases he
      · have ho := (honline m).mpr (.inr hw)
        have hlookup := hd' j m r (hadv.live' hpc hlive hl) ((hadv.newest_iff hpc).mpr hnew) ho
        rw [hc] at hlookup
        exact hne hlookup
    · intro hsafe j m r hl hnew ho
      rw [hc]
      have hl' := hadv.live hpc (fun h => hlive ▸ h) hl
      have hnew' := (hadv.newest_iff hpc).mp hnew
      obtain ho | hw := (honline m).mp ho
      · exact hd j m r hl' hnew' ho
      · by_contra hne
        exact hsafe (.inr ⟨m,hw,j,r,hl',hnew',hne⟩)
  | swept hsafe stale pc' hadv hr hc hn hlive hidle =>
    refine iff_of_true (fun j m r hl hnew ho => ?_) (not_endangers_of_safe hsafe)
    obtain ⟨record,hrec,henabled,hstatus⟩ := ho
    rw [hr] at hrec
    obtain ⟨old,hold,henabled',hstatus'⟩ := get_markOffline stale s hrec
    rw [hc]
    exact hd j m r (hadv.live hpc (by simp [hlive]) hl) ((hadv.newest_iff hpc).mp hnew)
      ⟨old,hold,henabled'.symm.trans henabled,hstatus' hstatus⟩

theorem step_sound (hs : s.Sound) (h : step settings l s = some t) : t.Sound := by
  cases step_next h with
  | spawned pc _ state hh _ hr =>
    rw [state]
    exact hs.spawn hh hr
  | ran i now fresh pc _ hpc heffect => exact heffect.sound hs hpc
  | other i pc _ hpc hquiet => exact hquiet.sound hs hpc

theorem step_dispatchable_iff (hs : s.Sound) (hd : s.Dispatchable) (h : step settings l s = some t) :
    t.Dispatchable ↔ ¬ EndangeringStep l s := by
  cases step_next h with
  | spawned pc hlabel state hh hlive hr =>
    subst state
    refine iff_of_true (hd.spawn hs) ?_
    rintro ⟨j,now,fresh,_,he,-⟩
    exact hlabel j now fresh he
  | ran i now fresh pc hlabel hpc heffect =>
    refine (heffect.dispatchable_iff hs hpc hd).trans (not_congr ⟨fun he => ⟨i,now,fresh,pc,hlabel,hpc,he⟩,?_⟩)
    rintro ⟨i',now',fresh',pc',hlabel',hpc',he⟩
    cases hlabel.symm.trans hlabel'
    cases hpc.symm.trans hpc'
    exact he
  | other i pc hlabel hpc hquiet =>
    refine iff_of_true (hquiet.dispatchable hpc hd) ?_
    rintro ⟨j,now,fresh,_,he,-⟩
    exact hlabel j now fresh he

end Steps

theorem sound_initial (records : Table) : (initial records).Sound :=
  ⟨fun _ _ => rfl,fun _ _ _ ⟨_,h,_⟩ => (by cases h),fun _ _ h => (by cases h),fun _ _ h => (by cases h),
    fun _ _ _ _ h => (by cases h)⟩

theorem dispatchable_initial (records : Table) : (initial records).Dispatchable := fun _ _ _ ⟨_,h,_⟩ => by cases h

/-- A probe that is dispatched puts its request on the queue of the session that is
current for its node, and on no other queue. -/
theorem dispatch_queue {settings : Settings} {s : NodeService} {j : TaskRef} {n : NodeId} {timeout : Option ℤ}
    {taskId : TaskId} {r r' : SessionRef} {f : FutureRef} (hcur : s.connections.lookup n = some r)
    (hwait : (s.dispatch settings j n timeout taskId).pc? j = some (.wait n r' f taskId)) :
    r' = r ∧ ∃ request, taskRequest taskId (orDefault timeout settings.taskTimeout) = some request ∧
      ∀ r', ((s.dispatch settings j n timeout taskId).sessions r').queue =
        if r' = r then (s.sessions r).queue ++ [request] else (s.sessions r').queue := by
  -- a refused probe is done and waits for nothing
  have hdone : ∀ (u : NodeService) (e : NodeError), (u.goto j (.done (.raised e))).pc? j ≠ some (.wait n r' f taskId) := by
    intro u e he
    simp only [pc?, goto, updateTask, Function.update_self, Option.map_map] at he
    obtain ⟨_,-,he⟩ := Option.map_eq_some_iff.mp he
    cases he
  unfold dispatch at hwait ⊢
  split at hwait
  · exact absurd hwait (hdone _ _)
  next hrecent =>
    rw [if_neg hrecent]
    simp only [hcur] at hwait ⊢
    split at hwait
    · exact absurd hwait (hdone _ _)
    next htasks =>
      rw [if_neg htasks]
      cases hreq : taskRequest taskId (orDefault timeout settings.taskTimeout) with
      | none =>
        simp only [hreq] at hwait
        exact absurd hwait (hdone _ _)
      | some request =>
        simp only [hreq] at hwait ⊢
        split at hwait
        · exact absurd hwait (hdone _ _)
        next hqueue =>
          simp only [if_neg hqueue]
          refine ⟨?_,request,rfl,fun r'' => ?_⟩
          · simp only [pc?, goto, updateTask, Function.update_self, Option.map_map] at hwait
            obtain ⟨_,-,he⟩ := Option.map_eq_some_iff.mp hwait
            cases he
            rfl
          · by_cases hr : r'' = r
            · subst hr
              simp [goto,note,updateTask,enqueue,register,forget,updateSession]
            · simp [goto,note,updateTask,enqueue,register,forget,updateSession,hr]

/-- Throughout a history the newest socket of a node, while it is open and the row
enabled and ONLINE, owns the session in the connection table, exactly if no step takes
its session away while the row is ONLINE or makes the row ONLINE while it has lost its
session. Where it does, a probe of the node is put on the queue this socket reads. -/
theorem newest_socket_dispatchable_iff (settings : Settings) (records : Table) {ls : List Label} {s : NodeService}
    (h : exec (step settings) ls (initial records) = some s) :
    (ExecAll (step settings) Dispatchable ls (initial records) ↔
      ExecOk (step settings) (fun l s => ¬ EndangeringStep l s) ls (initial records)) ∧
    (s.Dispatchable → ∀ i n r, s.Live i n r → s.Newest n r → s.Online n →
      ∀ j now fresh timeout taskId t r' f, s.pc? j = some (.dispatch n timeout taskId) →
        step settings (.run j now fresh) s = some t → t.pc? j = some (.wait n r' f taskId) →
        r' = r ∧ ∃ request, taskRequest taskId (orDefault timeout settings.taskTimeout) = some request ∧
          ∀ r', (t.sessions r').queue = if r' = r then (s.sessions r).queue ++ [request] else (s.sessions r').queue) := by
  refine ⟨?_,?_⟩
  · exact execAll_iff_execOk (fun _ _ _ hs ht => step_sound hs ht) (fun _ _ _ hs hd ht => step_dispatchable_iff hs hd ht)
      (sound_initial records) (dispatchable_initial records) h
  · intro hd i n r hl hnew ho j now fresh timeout taskId t r' f hpc ht hwait
    simp only [step, hpc, resume, Option.some.injEq] at ht
    subst ht
    exact dispatch_queue (hd i n r hl hnew ho) hwait

/-! ## A replaced socket -/

def sampleSettings : Settings := ⟨some "key",fun secret n => secret ++ n,2,2,2,30000,10000⟩

/-- Socket `i` enrols and connects. -/
def socketLabels (i : TaskRef) : List Label :=
  [.openSocket (some "keynode_0001"),.receive i (some (.hello ⟨"node_0001","worker",[]⟩)) 0,.run i 0 "",.run i 0 "",
    .run i 0 "",.run i 0 "",.run i 0 ""]

theorem newest_socket_dispatchable_iff_connected :
    ExecAll (step sampleSettings) Dispatchable (socketLabels 0) (initial []) := by
  refine (newest_socket_dispatchable_iff sampleSettings []
    (s := after (step sampleSettings) (socketLabels 0) (initial []) rfl) (exec_after rfl)).1.mpr ?_
  -- before the last step there is no session, and so no live socket
  have hnone : ExecOk (step sampleSettings) (fun _ s => s.sessionCount = 0) (socketLabels 0) (initial []) := by decide
  refine hnone.imp (fun _ _ _ hs ht => step_sound hs ht) (fun l s hs h0 => ?_) (sound_initial [])
  have hlive : ∀ j n r, ¬ s.Live j n r := by
    rintro j n r ⟨task,ht,hc,-⟩
    have hlt := hs.refs j n r ⟨task,ht,hc⟩
    rw [h0] at hlt
    exact absurd hlt (Nat.not_lt_zero _)
  rintro ⟨_,_,_,_,-,-,⟨_,_,-,-,j,r,hl,-⟩ | ⟨_,-,j,r,hl,-⟩⟩
  · exact hlive j _ r hl
  · exact hlive j _ r hl

/-- A second socket of the node connects, and the first one ends. -/
theorem replaced_socket_pops_newest :
    ∃ s, exec (step sampleSettings) (socketLabels 0 ++ socketLabels 1 ++ [.fail 0,.run 0 0 ""]) (initial []) = some s ∧
      s.Live 1 "node_0001" 1 ∧ s.Newest "node_0001" 1 ∧ s.Online "node_0001" ∧
      s.connections.lookup "node_0001" = none ∧ ¬ s.Dispatchable := by
  let s := after (step sampleSettings) (socketLabels 0 ++ socketLabels 1 ++ [.fail 0,.run 0 0 ""]) (initial []) rfl
  have hexec : exec (step sampleSettings) _ (initial []) = some s := exec_after rfl
  have hsound : s.Sound :=
    exec_induction (P := fun _ s => s.Sound) (sound_initial []) (fun _ _ _ _ _ hs ht => step_sound hs ht) hexec
  have hlive : s.Live 1 "node_0001" 1 := by
    refine ⟨_,rfl,?_,?_⟩
    · rfl
    · rfl
  have hnew : s.Newest "node_0001" 1 := fun j r' hc => Nat.le_of_lt_succ (hsound.refs j _ r' hc)
  have honline : s.Online "node_0001" := by
    refine ⟨_,rfl,?_,?_⟩
    · rfl
    · rfl
  refine ⟨s,hexec,hlive,hnew,honline,rfl,fun hd => ?_⟩
  have hlookup := hd 1 _ 1 hlive hnew honline
  cases hlookup

end NodeService

end AgentGraph.Nodes
