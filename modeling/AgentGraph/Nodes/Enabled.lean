import AgentGraph.Nodes.Dispatch

/-! # The status of a worker and its enabled flag

All writers but the stale sweep hold the database lock from the read of a row to its
write, so the row they have read still has its flag. The sweep has read its rows before,
and writes OFFLINE also into a row that has been disabled in the meantime.
-/
set_option autoImplicit false
namespace AgentGraph.Nodes
open Transition

/-- A worker is DISABLED exactly when it is not enabled. -/
def NodeRecord.Agrees (record : NodeRecord) : Prop :=
  record.role = .worker → (record.status = .disabled ↔ record.enabled = false)

/-- The row that is about to be written. -/
def Pc.holds : Pc → Option (NodeId × NodeRecord)
  | .enrollCommit h _ (some read) => some (h.nodeId,read)
  | .heartbeatCommit n _ _ read | .offlineCommit n read _ | .setEnabledCommit n _ read => some (n,read)
  | _ => none

/-- The row has been found enabled. -/
def Pc.checked : Pc → Bool
  | .enrollCommit _ _ _ | .heartbeatCommit _ _ _ _ | .offlineCommit _ _ _ => true
  | _ => false

namespace NodeService

def Agrees (s : NodeService) : Prop := ∀ n record, s.records.get n = some record → record.Agrees

/-- A sweep is about to write OFFLINE into the row of a worker that is not enabled. -/
def SweepsDisabled (l : Label) (s : NodeService) : Prop :=
  ∃ i now fresh stale k, l = .run i now fresh ∧ s.pc? i = some (.sweepCommit stale k) ∧
    ∃ read ∈ stale, read.status ≠ .offline ∧
      ∃ record, s.records.get read.id = some record ∧ record.role = .worker ∧ record.enabled = false

/-- A row that is about to be written still has the flag it was read with. -/
def Informed (s : NodeService) : Prop :=
  ∀ j pc n read, s.pc? j = some pc → pc.holds = some (n,read) → read.Agrees ∧ (pc.checked = true → read.enabled = true) ∧
    ∃ record, s.records.get n = some record ∧ record.enabled = read.enabled ∧ record.role = read.role

/-- What a step does to the rows, and which row its task holds then. -/
inductive Writes (settings : Settings) (s t : NodeService) (i : TaskRef) (pc pc' : Pc) : Prop
  | kept (records : t.records = s.records)
      (held : ∀ n read, pc'.holds = some (n,read) →
        s.records.get n = some read ∧ (pc'.checked = true → read.enabled = true))
  | wrote (n : NodeId) (f : NodeRecord → NodeRecord) (at' : pc.write = some (n,f))
      (records : t.records = s.records.update n f) (idle : pc'.holds = none)
  | inserted (hello : WorkerHello) (now : Instant) (at' : pc = .enrollCommit hello now none)
      (records : s.records.insert (newRecord settings hello now) = some t.records) (idle : pc'.holds = none)
  | swept (stale : List NodeRecord) (k : AfterSweep) (at' : pc = .sweepCommit stale k)
      (records : t.records = (s.markOffline stale).records) (idle : pc'.holds = none)

section Moves
variable {settings : Settings} {s t u : NodeService} {i : TaskRef} {pc pc' : Pc}

theorem pc?_updateTask (f : Task → Task) : (u.updateTask i f).pc? i = ((u.tasks i).map f).map Task.pc := by
  simp [pc?,updateTask]

theorem pc?_updateTask_ne {j : TaskRef} (hj : j ≠ i) (f : Task → Task) : (u.updateTask i f).pc? j = u.pc? j := by
  simp [pc?,updateTask,hj]

theorem pc?_goto (h : (u.goto i pc).pc? i = some pc') : pc' = pc := by
  rw [goto,pc?_updateTask,Option.map_map] at h
  obtain ⟨_,-,rfl⟩ := Option.map_eq_some_iff.mp h
  rfl

/-- The task goes on without writing a row, and holds none. -/
def Idles (s t : NodeService) (i : TaskRef) : Prop :=
  ∃ u pc', t = goto u i pc' ∧ u.records = s.records ∧ pc'.holds = none

theorem Idles.writes (h : s.Idles t i) (hpc : t.pc? i = some pc') : s.Writes settings t i pc pc' := by
  obtain ⟨u,pc'',rfl,hr,hidle⟩ := h
  obtain rfl := pc?_goto hpc
  exact .kept hr (by simp [hidle])

theorem leave_idles (hr : u.records = s.records) (from' : Pc) (e : NodeError) : s.Idles (u.leave i from' e) i := by
  unfold leave
  split <;> exact ⟨u.release i,_,rfl,hr,rfl⟩

theorem disconnected_idles (hr : u.records = s.records) (n : NodeId) (k : AfterDisconnect) :
    s.Idles (u.disconnected i n k) i := by
  cases k with
  | socket => exact ⟨u,_,rfl,hr,rfl⟩
  | sweep rest k => exact ⟨u.note (.offline n),_,rfl,hr,by cases rest <;> rfl⟩
  | disabled record => exact ⟨u.note (.disabled n),_,rfl,hr,rfl⟩

theorem dispatch_idles (n : NodeId) (timeout : Option ℤ) (taskId : TaskId) :
    s.Idles (s.dispatch settings i n timeout taskId) i := by
  unfold dispatch
  split
  · exact ⟨_,_,rfl,rfl,rfl⟩
  · split
    · exact ⟨_,_,rfl,rfl,rfl⟩
    · split
      · exact ⟨_,_,rfl,rfl,rfl⟩
      · dsimp only
        split
        · exact ⟨_,_,rfl,rfl,rfl⟩
        · split <;> exact ⟨_,_,rfl,rfl,rfl⟩

theorem cancelProbe_idles (n : NodeId) (r : SessionRef) (taskId : TaskId) :
    s.Idles (s.cancelProbe settings i n r taskId) i := by
  unfold cancelProbe
  dsimp only
  split <;> exact ⟨_,_,rfl,rfl,rfl⟩

/-- Who finds a row under the lock is about to write it. -/
theorem went_writes {fresh : TaskId} (finds : s.Finds fresh pc pc') : s.Writes settings (s.goto i pc') i pc pc' := by
  refine .kept rfl fun n read hread => ?_
  cases finds with
  | unknown | stale | crowded | probed => cases hread
  | known hello proof now record found enabled =>
    cases hread
    exact ⟨found,fun _ => enabled⟩
  | beating m capabilities now record found enabled =>
    cases hread
    exact ⟨found,fun _ => enabled⟩
  | online m k record found enabled =>
    cases hread
    exact ⟨found,fun _ => enabled⟩
  | worker m enabled record found =>
    cases hread
    exact ⟨found,fun hchecked => by cases hchecked⟩

theorem resume_writes {now : Instant} {fresh : TaskId} (hstep : s.resume settings i now fresh pc = some t)
    (h : t.pc? i = some pc') : s.Writes settings t i pc pc' := by
  cases resume_cases hstep with
  | locked locks =>
    refine Idles.writes ⟨{ s with databaseLock := some i },_,rfl,rfl,?_⟩ h
    cases locks <;> rfl
  | went finds =>
    obtain rfl := pc?_goto h
    exact went_writes finds
  | left e | refused => exact (leave_idles rfl _ _).writes h
  | denied | reported | failed => exact Idles.writes ⟨_,_,rfl,rfl,rfl⟩ h
  | inserted hello at' records new =>
    obtain rfl := pc?_goto h
    exact .inserted hello at' rfl new rfl
  | enrolled | beaten | wentOffline | switched =>
    obtain rfl := pc?_goto h
    exact .wrote _ _ rfl rfl rfl
  | announced => exact Idles.writes ⟨(s.note _).release i,_,rfl,rfl,rfl⟩ h
  | connected n status =>
    obtain ⟨-,-,-,hr,-⟩ := popConnection_frame s n (.disconnected "Worker session was replaced")
    rw [pc?_updateTask,Option.map_map] at h
    obtain ⟨_,-,rfl⟩ := Option.map_eq_some_iff.mp h
    exact .kept hr (fun n read hread => by cases hread)
  | registered n status =>
    rw [pc?_updateTask,Option.map_map] at h
    obtain ⟨_,-,rfl⟩ := Option.map_eq_some_iff.mp h
    exact .kept rfl (fun n read hread => by cases hread)
  | popped n k =>
    obtain ⟨-,-,-,hr,-⟩ := popConnection_frame s n (.disconnected "Worker disconnected")
    exact Idles.writes ⟨_,_,rfl,hr,rfl⟩ h
  | gone n k => exact (disconnected_idles (s := s) (u := s.release i) rfl n k).writes h
  | published n k => exact (disconnected_idles (s := s) (u := (s.note (.offline n)).release i) rfl n k).writes h
  | swept stale k =>
    obtain rfl := pc?_goto h
    refine .swept stale k rfl rfl ?_
    cases stale <;> rfl
  | enabled | disabled => exact Idles.writes ⟨s.release i,_,rfl,rfl,rfl⟩ h
  | dispatched n timeout taskId => exact (dispatch_idles n timeout taskId).writes h
  | answered => exact Idles.writes ⟨s.note _,_,rfl,rfl,rfl⟩ h
  | cancelled n r taskId => exact (cancelProbe_idles n r taskId).writes h

theorem goto_held {j : TaskRef} (hu : u.tasks = s.tasks) (hidle : pc'.holds = none)
    (hj : (u.goto i pc').pc? j = some pc) : pc.holds = none ∨ s.pc? j = some pc := by
  by_cases hne : j = i
  · subst hne
    obtain rfl := pc?_goto hj
    exact .inl hidle
  · refine .inr ?_
    rw [goto,pc?_updateTask_ne hne,pc?,hu] at hj
    exact hj

theorem spawn_held {j : TaskRef} {pc₀ : Pc} (hidle : pc₀.holds = none) (hj : (s.spawn pc₀).pc? j = some pc) :
    pc.holds = none ∨ s.pc? j = some pc := by
  by_cases hne : j = s.taskCount
  · subst hne
    simp only [pc?, spawn, Function.update_self, Option.map_some, Option.some.injEq] at hj
    exact .inl (hj ▸ hidle)
  · refine .inr ?_
    simpa only [pc?, spawn, Function.update_of_ne hne] using hj

theorem leave_held {j : TaskRef} (hu : u.tasks = s.tasks) (from' : Pc) (e : NodeError)
    (hj : (u.leave i from' e).pc? j = some pc) : pc.holds = none ∨ s.pc? j = some pc := by
  unfold leave at hj
  split at hj <;> exact goto_held (u := u.release i) hu rfl hj

theorem receiveResult_tasks (n : NodeId) (taskId : TaskId) (outcome : Future) (event : Option NodeEvent) :
    (s.receiveResult n taskId outcome event).tasks = s.tasks := by
  unfold receiveResult
  split
  · rfl
  · split
    · rfl
    · dsimp only
      split
      · rfl
      · split <;> rfl

/-- Only a task that runs comes to hold a row. -/
theorem step_held {l : Label} {j : TaskRef} (hl : ∀ i now fresh, l ≠ .run i now fresh)
    (h : step settings l s = some t) (hj : t.pc? j = some pc) : pc.holds = none ∨ s.pc? j = some pc := by
  cases l with
  | openSocket proof | sweep k now | setEnabled n enabled =>
    cases h
    exact spawn_held rfl hj
  | receive i message now =>
    simp only [step] at h
    split at h
    · cases h
      exact goto_held rfl rfl hj
    · cases h
      exact goto_held rfl rfl hj
    · cases h
      exact goto_held rfl rfl hj
    next n message hpc =>
      cases h
      cases message with
      | heartbeat | capabilities => exact goto_held rfl rfl hj
      | result | error =>
        refine .inr ?_
        rw [pc?,handle,receiveResult_tasks] at hj
        exact hj
      | hello | cancel => exact .inr hj
    · cases h
      exact leave_held rfl _ _ hj
    · cases h
  | deliver i =>
    simp only [step] at h
    split at h
    next n m r sent htask =>
      split at h
      · cases h
      next message rest hq =>
        cases h
        by_cases hne : j = i
        · subst hne
          refine .inl ?_
          rw [pc?_updateTask] at hj
          simp only [updateSession, htask, Option.map_some, Option.some.injEq] at hj
          rw [← hj]
          cases message <;> rfl
        · refine .inr ?_
          rw [pc?_updateTask_ne hne] at hj
          exact hj
    · cases h
  | run i now fresh => exact absurd rfl (hl i now fresh)
  | timeout i =>
    simp only [step] at h
    split at h
    · cases h
      exact goto_held rfl rfl hj
    · cases h
  | fail i =>
    simp only [step] at h
    split at h
    · cases h
    · cases h
    next n r f taskId hpc =>
      cases h
      exact leave_held (s := s) (u := s.settle f .cancelled) rfl _ _ hj
    · cases h
      exact leave_held rfl _ _ hj

theorem holds_holding {n : NodeId} {read : NodeRecord} (h : pc.holds = some (n,read)) : pc.holding = true := by
  unfold Pc.holds at h
  split at h <;> cases h <;> rfl

theorem Effect.pc?_other {j : TaskRef} (h : s.Effect settings t i pc) (hj : j ≠ i) : t.pc? j = s.pc? j := by
  cases h with
  | quiet _ h | refused _ _ _ _ h =>
    obtain ⟨_,hadv,-⟩ := h
    exact hadv.pc?_other hj
  | popped _ _ _ hadv | wrote _ _ _ _ hadv | inserted _ _ _ hadv | swept _ _ _ hadv => exact hadv.pc?_other hj
  | connected n status _ htasks => rw [pc?,htasks,Function.update_of_ne hj,pc?]

theorem Effect.pc?_self (h : s.Effect settings t i pc) (hpc : s.pc? i = some pc) : ∃ pc', t.pc? i = some pc' := by
  cases h with
  | quiet _ h | refused _ _ _ _ h =>
    obtain ⟨pc',hadv,-⟩ := h
    exact ⟨pc',hadv.pc?_self hpc⟩
  | popped _ _ _ hadv | wrote _ _ _ _ hadv | inserted _ _ _ hadv | swept _ _ _ hadv => exact ⟨_,hadv.pc?_self hpc⟩
  | connected n status _ htasks =>
    obtain ⟨_,_,hself,-⟩ := connected_tasks htasks hpc
    exact ⟨_,by rw [pc?,hself]; rfl⟩

end Moves

/-! ## The rows after a write -/

section Rows
variable {settings : Settings} {s t : NodeService} {i : TaskRef} {pc : Pc} {n : NodeId}

/-- A sweep writes OFFLINE into each row that it has read with another status. -/
theorem get_markOffline_eq (stale : List NodeRecord) (s : NodeService) (n : NodeId) :
    (s.markOffline stale).records.get n = (s.records.get n).map fun record =>
      if ∃ read ∈ stale, read.id = n ∧ read.status ≠ .offline then { record with status := .offline } else record := by
  induction stale generalizing s with
  | nil => simp [markOffline]
  | cons read rest ih =>
    have hfirst : (s.update read.id (read.setStatus .offline)).records.get n =
        (s.records.get n).map fun record => if n = read.id then read.setStatus .offline record else record :=
      Table.get_update fun _ => rfl
    refine (ih (s.update read.id (read.setStatus .offline))).trans ?_
    rw [hfirst,Option.map_map]
    refine Option.map_congr fun record _ => ?_
    by_cases hn : n = read.id
    · by_cases ho : read.status = .offline
      · simp [hn,ho,NodeRecord.setStatus,written]
      · by_cases hrest : ∃ read' ∈ rest, read'.id = n ∧ read'.status ≠ .offline
        all_goals simp [hn,ho,Ne.symm ho,NodeRecord.setStatus,written]
    · simp [hn,Ne.symm hn]

theorem agrees_markOffline_iff (hs : s.Agrees) (stale : List NodeRecord) :
    (s.markOffline stale).Agrees ↔ ¬ ∃ read ∈ stale, read.status ≠ .offline ∧
      ∃ record, s.records.get read.id = some record ∧ record.role = .worker ∧ record.enabled = false := by
  constructor
  · rintro hagrees ⟨read,hmem,ho,record,hrec,hrole,hdisabled⟩
    have hget : (s.markOffline stale).records.get read.id = some { record with status := .offline } := by
      rw [get_markOffline_eq,hrec,Option.map_some,if_pos ⟨read,hmem,rfl,ho⟩]
    have hstatus := (hagrees _ _ hget hrole).mpr hdisabled
    cases hstatus
  · intro hsafe m record hrec
    rw [get_markOffline_eq] at hrec
    obtain ⟨old,hold,rfl⟩ := Option.map_eq_some_iff.mp hrec
    split
    next hswept =>
      obtain ⟨read,hmem,hid,ho⟩ := hswept
      intro hrole
      have henabled : old.enabled = true := by
        by_contra hne
        exact hsafe ⟨read,hmem,ho,old,hid ▸ hold,hrole,by simpa using hne⟩
      simp [henabled]
    · exact hs m old hold

/-- The columns of a row that has been read keep the row right when they are written. -/
theorem write_agrees {f : NodeRecord → NodeRecord} (hw : pc.write = some (n,f)) {record read : NodeRecord}
    (hheld : pc.holds = some (n,read)) (hread : read.Agrees) (hchecked : pc.checked = true → read.enabled = true)
    (henabled : record.enabled = read.enabled) (hrole : record.role = read.role) (hrec : record.Agrees) :
    (f record).Agrees := by
  -- a row that has been found enabled gets a status other than DISABLED, or keeps its own
  have hkeeps : ∀ status : NodeStatus, status ≠ .disabled → record.enabled = true → record.role = .worker →
      (written read.status status record.status = .disabled ↔ record.enabled = false) := by
    intro status hne he hw
    have hown := hrec hw
    unfold written
    split <;> simp_all
  unfold Pc.write at hw
  split at hw
  next hello now read' =>
    cases hw
    cases hheld
    exact fun hworker => hkeeps .online (by simp) (henabled.trans (hchecked rfl)) hworker
  next capabilities now read' =>
    cases hw
    cases hheld
    exact fun hworker => hkeeps .online (by simp) (henabled.trans (hchecked rfl)) hworker
  next read' k =>
    cases hw
    cases hheld
    exact fun hworker => hkeeps .offline (by simp) (henabled.trans (hchecked rfl)) hworker
  next enabled read' =>
    cases hw
    cases hheld
    intro hworker
    have hworker' : record.role = .worker := hworker
    have hnew : written read.enabled enabled record.enabled = enabled := by
      unfold written
      split
      next h => rw [henabled,h]
      · rfl
    have hown := hrec hworker'
    have hold := hread (hrole ▸ hworker')
    show written read.status _ record.status = .disabled ↔ written read.enabled enabled record.enabled = false
    rw [hnew]
    unfold written
    cases enabled with
    | true =>
      simp only [if_true]
      split
      next h =>
        -- REGISTERED is not written over itself, so the row was enabled already
        have hne : record.enabled = true := by
          rw [henabled]
          by_contra hf
          have hd := hold.mpr (by simpa using hf)
          rw [← h] at hd
          cases hd
        simp [hown,hne]
      · simp
    | false =>
      simp only [Bool.false_eq_true, if_false]
      split
      next h =>
        have hf : record.enabled = false := henabled.trans (hold.mp h.symm)
        simp [hown.mpr hf]
      · simp
  · cases hw

/-- A committed write keeps the property, unless it is the one of a sweep. -/
theorem Writes.agrees {pc' : Pc} (h : s.Writes settings t i pc pc') (hs : s.Agrees) (hinformed : s.Informed)
    (hpc : s.pc? i = some pc) (hsweep : ∀ stale k, pc ≠ .sweepCommit stale k) : t.Agrees := by
  cases h with
  | kept hr => exact fun n record hrec => hs n record (hr ▸ hrec)
  | wrote n f at' hr =>
    intro m record hrec
    rw [hr,Table.get_update (write_id at')] at hrec
    obtain ⟨old,hold,rfl⟩ := Option.map_eq_some_iff.mp hrec
    split
    next hm =>
      subst hm
      obtain ⟨read,hheld⟩ : ∃ read, pc.holds = some (m,read) := by
        unfold Pc.write at at'
        split at at' <;> cases at' <;> exact ⟨_,rfl⟩
      obtain ⟨hread,hchecked,current,hcur,henabled,hrole⟩ := hinformed i pc m read hpc hheld
      obtain rfl := Option.some.inj (hold.symm.trans hcur)
      exact write_agrees at' hheld hread hchecked henabled hrole (hs m old hold)
    · exact hs m old hold
  | inserted hello now _ hrec =>
    intro m record hget
    obtain ⟨-,hnew⟩ := Table.get_insert (m := m) hrec
    rw [hnew] at hget
    obtain hold | ⟨-,hnew⟩ := Option.or_eq_some_iff.mp hget
    · exact hs m record hold
    · split at hnew <;> cases hnew
      intro _
      simp [newRecord]
  | swept stale k at' => exact absurd at' (hsweep stale k)

/-- The lock keeps other writers away from a row between its read and its write, and a
sweep that comes between does not change its flag. -/
theorem Writes.informed {pc' : Pc} (h : s.Writes settings t i pc pc') (hs : s.Sound) (hagrees : s.Agrees)
    (hinformed : s.Informed) (hpc : s.pc? i = some pc) (hpc' : t.pc? i = some pc')
    (hother : ∀ j, j ≠ i → t.pc? j = s.pc? j) : t.Informed := by
  -- the writer is the only task that holds the lock
  have halone : pc.holding = true → pc'.holds = none → t.Informed := by
    intro hhold hidle j pc₁ m read hj hheld
    by_cases hne : j = i
    · subst hne
      cases hpc'.symm.trans hj
      rw [hidle] at hheld
      cases hheld
    · rw [hother j hne] at hj
      have hlock := hs.holding j pc₁ hj (holds_holding hheld)
      exact absurd (Option.some.inj (hlock.symm.trans (hs.holding i pc hpc hhold))) hne
  cases h with
  | kept hr hheld' =>
    intro j pc₁ m read hj hheld
    rw [hr]
    by_cases hne : j = i
    · subst hne
      cases hpc'.symm.trans hj
      obtain ⟨hrec,hchecked⟩ := hheld' m read hheld
      exact ⟨hagrees m read hrec,hchecked,read,hrec,rfl,rfl⟩
    · rw [hother j hne] at hj
      exact hinformed j pc₁ m read hj hheld
  | wrote n f at' hr hidle => exact halone (write_holding at') hidle
  | inserted hello now at' hr hidle => exact halone (by rw [at']; rfl) hidle
  | swept stale k at' hr hidle =>
    intro j pc₁ m read hj hheld
    by_cases hne : j = i
    · subst hne
      cases hpc'.symm.trans hj
      rw [hidle] at hheld
      cases hheld
    · rw [hother j hne] at hj
      obtain ⟨hread,hchecked,record,hrec,henabled,hrole⟩ := hinformed j pc₁ m read hj hheld
      refine ⟨hread,hchecked,_,by rw [hr,get_markOffline_eq,hrec,Option.map_some],?_⟩
      split <;> exact ⟨henabled,hrole⟩

/-- A step from a state that agrees ends the agreement exactly if it is a sweep that
writes into the row of a disabled worker. -/
theorem step_agrees_iff {l : Label} (hs : s.Sound) (hinformed : s.Informed) (hagrees : s.Agrees)
    (h : step settings l s = some t) : (t.Agrees ↔ ¬ SweepsDisabled l s) ∧ t.Informed := by
  by_cases hrun : ∃ i now fresh, l = .run i now fresh
  · obtain ⟨i,now,fresh,rfl⟩ := hrun
    have heffect : ∀ pc, s.pc? i = some pc → s.Effect settings t i pc := by
      intro pc hpc
      simp only [step, hpc] at h
      exact resume_effect h
    cases hpc : s.pc? i with
    | none => simp [step,hpc] at h
    | some pc =>
      simp only [step, hpc] at h
      obtain ⟨pc',hpc'⟩ := (heffect pc hpc).pc?_self hpc
      have hw := resume_writes h hpc'
      refine ⟨?_,hw.informed hs hagrees hinformed hpc hpc' fun j hj => (heffect pc hpc).pc?_other hj⟩
      by_cases hsweep : ∃ stale k, pc = .sweepCommit stale k
      · obtain ⟨stale,k,rfl⟩ := hsweep
        cases h
        refine (agrees_markOffline_iff hagrees stale).trans (not_congr ⟨fun hex => ⟨i,now,fresh,stale,k,rfl,hpc,hex⟩,?_⟩)
        rintro ⟨i',now',fresh',stale',k',he,hpc₁,hex⟩
        cases he
        cases hpc.symm.trans hpc₁
        exact hex
      · refine iff_of_true (hw.agrees hagrees hinformed hpc fun stale k he => hsweep ⟨stale,k,he⟩) ?_
        rintro ⟨i',now',fresh',stale,k,he,hpc₁,-⟩
        cases he
        cases hpc.symm.trans hpc₁
        exact hsweep ⟨stale,k,rfl⟩
  · have hrecords : t.records = s.records := by
      cases step_next h with
      | spawned pc _ state => rw [state]; rfl
      | ran i now fresh pc hl => exact absurd ⟨i,now,fresh,hl⟩ hrun
      | other i pc _ _ hquiet =>
        obtain ⟨_,-,hr,-⟩ := hquiet
        exact hr
    refine ⟨iff_of_true (fun n record hrec => hagrees n record (hrecords ▸ hrec)) ?_,?_⟩
    · rintro ⟨i,now,fresh,stale,k,he,-⟩
      exact hrun ⟨i,now,fresh,he⟩
    · intro j pc n read hj hheld
      rw [hrecords]
      obtain hidle | hj := step_held (fun i now fresh he => hrun ⟨i,now,fresh,he⟩) h hj
      · rw [hidle] at hheld
        cases hheld
      · exact hinformed j pc n read hj hheld

end Rows

theorem informed_initial (records : Table) : (initial records).Informed := fun _ _ _ _ h => by cases h

/-- Throughout a history a worker is DISABLED exactly when it is not enabled, if and only
if no sweep writes OFFLINE into the row of a worker that is not enabled any more. -/
theorem worker_disabled_iff_not_enabled_iff (settings : Settings) {records : Table} (hrecords : (initial records).Agrees)
    {ls : List Label} {s : NodeService} (h : exec (step settings) ls (initial records) = some s) :
    ExecAll (step settings) Agrees ls (initial records) ↔
      ExecOk (step settings) (fun l s => ¬ SweepsDisabled l s) ls (initial records) := by
  refine execAll_iff_execOk_of (J := fun s => s.Sound ∧ s.Informed) (fun l s t hs hagrees ht => ?_)
    ⟨sound_initial records,informed_initial records⟩ hrecords h
  obtain ⟨hiff,hinformed⟩ := step_agrees_iff hs.1 hs.2 hagrees ht
  exact ⟨hiff,fun _ => ⟨step_sound hs.1 ht,hinformed⟩⟩

theorem worker_disabled_iff_not_enabled_iff_enrolled :
    ExecAll (step sampleSettings) Agrees (socketLabels 0) (initial []) := by
  have hagrees : (initial []).Agrees := fun _ _ h => by cases h
  refine (worker_disabled_iff_not_enabled_iff sampleSettings hagrees
    (s := after (step sampleSettings) (socketLabels 0) (initial []) rfl) (exec_after rfl)).mpr ?_
  -- every task that runs is a socket that has not connected yet
  have hearly : ExecOk (step sampleSettings) (fun l s =>
      (match l with | .run i _ _ => (s.pc? i).all Pc.early | _ => true) = true) (socketLabels 0) (initial []) := by decide
  refine hearly.imp (fun _ _ _ _ _ => trivial) (fun l s _ h => ?_) trivial
  rintro ⟨i,now,fresh,stale,k,rfl,hpc,-⟩
  simp only [hpc] at h
  cases h

/-- A sweep reads a stale row, the worker is disabled, and the sweep writes what it has read. -/
def disableDuringSweep : List Label :=
  socketLabels 0 ++ [.sweep .liveness 100000,.run 1 0 "",.setEnabled "node_0001" false,.run 2 0 "",.run 2 0 "",
    .run 2 0 "",.run 1 0 ""]

theorem sweep_overwrites_disabled :
    ∃ s record, exec (step sampleSettings) disableDuringSweep (initial []) = some s ∧
      s.records.get "node_0001" = some record ∧ record.role = .worker ∧ record.status = .offline ∧
      record.enabled = false ∧ ¬ ExecAll (step sampleSettings) Agrees disableDuringSweep (initial []) := by
  let s := after (step sampleSettings) disableDuringSweep (initial []) rfl
  have hexec : exec (step sampleSettings) disableDuringSweep (initial []) = some s := exec_after rfl
  refine ⟨s,_,hexec,rfl,rfl,rfl,rfl,fun hall => ?_⟩
  have hstatus := (hall.last hexec "node_0001" _ rfl rfl).mpr rfl
  cases hstatus

end NodeService

end AgentGraph.Nodes
