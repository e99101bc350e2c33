import AgentGraph.Vision.AnalysisStates
import Mathlib.Data.List.Nodup

/-! # The invariant of one analysis

Each await of the submission and of the task permits certain statuses of the row. A cancelled
task may find its row marked by the shutdown.
-/
set_option autoImplicit false
namespace AgentGraph.Vision.Analysis

/-- The moves of a status. -/
inductive Status.Moves : Status → Status → Prop
  | start : Moves .queued .running
  | complete : Moves .running .completed
  | fail (status : Status) (h : status.terminal = false) : Moves status .failed

/-- An update or a deletion: what is left of the row has kept its status or made one move. -/
def RowMoves (row row' : Option Row) : Prop :=
  ∀ r', row' = some r' → ∃ r, row = some r ∧ (r'.status = r.status ∨ Status.Moves r.status r'.status)

def SubmissionOk (s : Local) : Prop :=
  match s.submission with
  | none => s.task = none ∧ Settled s.row ∧ ¬s.admitted
  | some (.asset _ _ _) | some (.refused _) => s.task = none ∧ s.row = none ∧ ¬s.admitted
  | some (.commit row) => s.task = none ∧ s.row = none ∧ s.admitted ∧ row.status = .queued
  | some .refresh | some .publish => s.task = none ∧ RowIs (· = .queued) s.row ∧ s.admitted
  | some .returned => s.task.isSome = true ∧ s.admitted
  | some .raised => s.task = none ∧ RowIs (· = .queued) s.row

/-- A task that raises its cancellation is on the way out. -/
def TaskPc.unwinding : TaskPc → Bool
  | markRead mark | markCommit mark => mark.reraise
  | ended _ => true
  | _ => false

/-- The status is the task's own, unless a shutdown that has asked it to cancel has marked it. -/
def Own (signal : Signal) (own status : Status) : Prop := status = own ∨ signal ≠ .none ∧ status = .failed

def Permits (task : Task) (row : Row) : Prop :=
  match task.pc with
  | .semaphore | .readAnalysis => Own task.signal .queued row.status
  | .readAsset seen | .commitRunning seen => Own task.signal .queued row.status ∧ row.assetId = seen.assetId
  | .publishStarted _ | .readFile _ | .complete _ | .readStatus _ | .commitCompleted _ => Own task.signal .running row.status
  | .publishCompleted => row.status = .completed
  | .markRead _ => row.status ≠ .queued
  | .markCommit _ => row.status = .running ∨ row.status = .failed
  | .publishFailed => row.status.terminal = true
  | .ended _ => True

structure TaskOk (s : Local) (task : Task) : Prop where
  permits : ∀ row, s.row = some row → Permits task row
  delivered : task.signal = .delivered → task.pc.unwinding = true
  tabled : task.pc.isEnded = false → s.tabled

structure Local.Ok (s : Local) : Prop where
  submission : SubmissionOk s
  task : ∀ task, s.task = some task → TaskOk s task
  tabled : s.tabled → s.task.isSome = true
  watch : s.watch.active = true → ∃ task, s.task = some task ∧ (task.signal ≠ .none ∨ task.pc.isEnded = true)
  writing : s.watch = .writing → RowIs (· ≠ .completed) s.row

/-- A task exists once the submission has returned. -/
theorem SubmissionOk.of_task {s : Local} (h : SubmissionOk s) {task : Task} (ht : s.task = some task) :
    s.submission = some .returned ∧ s.admitted := by
  unfold SubmissionOk at h
  split at h
  case h_7 hs => exact ⟨hs,h.2⟩
  all_goals
    rw [ht] at h
    cases h.1

/-! ## A step of the task -/

theorem own_none {signal : Signal} (h : signal = .none) {own status : Status} : Own signal own status ↔ status = own := by
  simp [Own,h]

/-- What a task's own step does to its row. -/
structure Resumed (task : Task) (pc : TaskPc) (row row' : Option Row) : Prop where
  permits : ∀ r, row' = some r → Permits { task with pc := pc } r
  moves : RowMoves row row'
  settled : pc.isEnded = true → Settled row'
  delivered : task.signal = .delivered → pc.unwinding = true ∧ (RowIs (· ≠ .completed) row → RowIs (· ≠ .completed) row')
  live : task.pc.isEnded = false

theorem RowMoves.refl (row : Option Row) : RowMoves row row := fun r hr => ⟨r,hr,.inl rfl⟩

theorem RowMoves.write {row : Row} {update : Write} (h : Status.Moves row.status update.status) :
    RowMoves (some row) (some (update.apply row)) := by
  rintro _ ⟨⟩
  exact ⟨row,rfl,.inr (by rw [Write.apply_status]; exact h)⟩

/-- A step that writes nothing. -/
theorem Resumed.reads {task : Task} {pc : TaskPc} {row : Option Row}
    (permits : ∀ r, row = some r → Permits { task with pc := pc } r) (settled : pc.isEnded = true → Settled row)
    (delivered : task.signal = .delivered → pc.unwinding = true) (live : task.pc.isEnded = false) : Resumed task pc row row :=
  ⟨permits,.refl row,settled,fun h => ⟨delivered h,id⟩,live⟩

/-- After `_mark_failed` the row is settled and a cancellation is on its way out. -/
theorem Mark.after_ok (mark : Mark) (task : Task) {row : Option Row} (h : Settled row) :
    (∀ r, row = some r → Permits { task with pc := mark.after } r) ∧ (mark.reraise = true → mark.after.unwinding = true) := by
  unfold Mark.after
  split
  · exact ⟨fun _ _ => trivial,fun _ => rfl⟩
  next hreraise => exact ⟨h,fun hr => absurd hr hreraise⟩

theorem resumed {w : World} {i : AnalysisId} {content : String} {task : Task} {pc : TaskPc} {write : Option Write}
    (hpermits : ∀ row, w.db.rows i = some row → Permits task row)
    (hdelivered : task.signal = .delivered → task.pc.unwinding = true) (hs : task.signal ≠ .requested)
    (h : resume w i content task.pc = some (pc,write)) : Resumed task pc (w.db.rows i) (written (w.db.rows i) write) := by
  obtain ⟨at_,signal⟩ := task
  simp only at hpermits hdelivered hs h
  -- a task that is not on the way out has not been asked to cancel
  have hnone (hpc : at_.unwinding = false) : signal = .none := by
    cases signal with
    | none => rfl
    | requested => exact absurd rfl hs
    | delivered => rw [hdelivered rfl] at hpc; cases hpc
  cases at_ with
  | semaphore =>
    simp only [resume] at h
    split at h
    · cases h
      exact .reads hpermits (fun h => (by cases h)) (fun h => (by cases hdelivered h)) rfl
    · cases h
  | readAnalysis =>
    simp only [resume] at h
    split at h
    next hrow =>
      cases h
      rw [hrow]
      exact .reads (fun r hr => (by cases hr)) (fun _ => rowIs_none _) (fun _ => rfl) rfl
    next row hrow =>
      cases h
      refine .reads (fun r hr => ?_) (fun h => (by cases h)) (fun h => (by cases hdelivered h)) rfl
      obtain rfl : row = r := Option.some.inj (hrow.symm.trans hr)
      exact ⟨hpermits row hrow,rfl⟩
  | readAsset seen =>
    simp only [resume] at h
    split at h
    · cases h
      exact .reads hpermits (fun h => (by cases h)) (fun h => (by cases hdelivered h)) rfl
    next hasset =>
      cases h
      refine .reads (fun _ _ => trivial) (fun _ r hr => ?_) (fun _ => rfl) rfl
      -- the foreign key has taken the row with its asset
      have hasset' := w.db.foreignKey i r hr
      rw [(hpermits r hr).2] at hasset'
      exact absurd hasset' hasset
  | commitRunning seen =>
    simp only [resume] at h
    split at h
    next hrow =>
      cases h
      rw [hrow]
      exact .reads (fun r hr => (by cases hr)) (fun _ => rowIs_none _) (fun _ => rfl) rfl
    next row hrow =>
      cases h
      have hsignal := hnone rfl
      have hqueued : row.status = .queued := (own_none hsignal).mp (hpermits row hrow).1
      rw [hrow]
      refine ⟨?_,.write (hqueued ▸ .start),fun h => (by cases h),fun h => (by cases hdelivered h),rfl⟩
      rintro _ ⟨⟩
      exact .inl rfl
  | publishStarted seen =>
    cases h
    exact .reads hpermits (fun h => (by cases h)) (fun h => (by cases hdelivered h)) rfl
  | readFile seen =>
    cases h
    exact .reads hpermits (fun h => (by cases h)) (fun h => (by cases hdelivered h)) rfl
  | complete seen =>
    cases h
    exact .reads hpermits (fun h => (by cases h)) (fun h => (by cases hdelivered h)) rfl
  | readStatus result =>
    simp only [resume] at h
    split at h
    next hrow =>
      cases h
      rw [hrow]
      exact .reads (fun r hr => (by cases hr)) (fun _ => rowIs_none _) (fun _ => rfl) rfl
    next row hrow =>
      cases h
      have hrunning : row.status = .running := (own_none (hnone rfl)).mp (hpermits row hrow)
      rw [if_pos hrunning]
      exact .reads hpermits (fun h => (by cases h)) (fun h => (by cases hdelivered h)) rfl
  | commitCompleted result =>
    simp only [resume] at h
    split at h
    next hrow =>
      cases h
      rw [hrow]
      exact .reads (fun r hr => (by cases hr)) (fun h => (by cases h)) (fun h => (by cases hdelivered h)) rfl
    next row hrow =>
      cases h
      have hrunning : row.status = .running := (own_none (hnone rfl)).mp (hpermits row hrow)
      rw [hrow]
      refine ⟨?_,.write (hrunning ▸ .complete),fun h => (by cases h),fun h => (by cases hdelivered h),rfl⟩
      rintro _ ⟨⟩
      rfl
  | publishCompleted =>
    cases h
    refine .reads (fun _ _ => trivial) (fun _ r hr => ?_) (fun _ => rfl) rfl
    have hcompleted : r.status = .completed := hpermits r hr
    rw [hcompleted]
    rfl
  | markRead mark =>
    simp only [resume] at h
    split at h
    next hrow =>
      cases h
      obtain ⟨hafter,hunwind⟩ := mark.after_ok ⟨.markRead mark,signal⟩ (rowIs_none _)
      rw [hrow]
      exact .reads hafter (fun _ => rowIs_none _) (fun h => hunwind (hdelivered h)) rfl
    next row hrow =>
      cases h
      split
      next hterminal =>
        have hsettled : Settled (w.db.rows i) := hrow ▸ rowIs_some.mpr hterminal
        obtain ⟨hafter,hunwind⟩ := mark.after_ok ⟨.markRead mark,signal⟩ hsettled
        exact .reads hafter (fun _ => hsettled) (fun h => hunwind (hdelivered h)) rfl
      next hactive =>
        refine .reads (fun r hr => ?_) (fun h => (by cases h)) hdelivered rfl
        obtain rfl : row = r := Option.some.inj (hrow.symm.trans hr)
        have hstarted : row.status ≠ .queued := hpermits row hrow
        left
        cases hstatus : row.status with
        | queued => exact absurd hstatus hstarted
        | running => rfl
        | completed => rw [hstatus] at hactive; exact absurd rfl hactive
        | failed => rw [hstatus] at hactive; exact absurd rfl hactive
  | markCommit mark =>
    simp only [resume] at h
    split at h
    next hrow =>
      cases h
      rw [hrow]
      exact .reads (fun r hr => (by cases hr)) (fun _ => rowIs_none _) (fun _ => rfl) rfl
    next row hrow =>
      cases h
      have hsettled : Settled (some ((Write.failed mark.errorCode).apply row)) := rowIs_some.mpr rfl
      obtain ⟨hafter,hunwind⟩ := mark.after_ok ⟨.markCommit mark,signal⟩ hsettled
      rw [hrow]
      refine ⟨hafter,?_,fun _ => hsettled,fun h => ⟨hunwind (hdelivered h),fun _ => rowIs_some.mpr (by simp [Write.status])⟩,rfl⟩
      rcases hpermits row hrow with hstatus | hstatus
      · exact .write (.fail _ (by rw [hstatus]; rfl))
      -- the shutdown has marked the row since it was read
      · rintro _ ⟨⟩
        exact ⟨row,rfl,.inl (by rw [Write.apply_status,hstatus]; rfl)⟩
  | publishFailed =>
    cases h
    exact .reads (fun _ _ => trivial) (fun _ => hpermits) (fun _ => rfl) rfl
  | ended outcome => cases h

/-! ## One step -/

namespace Permits
variable {task : Task} {row : Row}

/-- Inside the `try` the analysis has been started. -/
theorem started (h : Permits task row) (hpc : task.pc.inTry = true) : row.status ≠ .queued := by
  obtain ⟨pc,signal⟩ := task
  cases pc with
  | readFile _ | complete _ | readStatus _ | commitCompleted _ =>
    rcases h with h | ⟨-,h⟩ <;> simp [h]
  | publishCompleted =>
    have h : row.status = .completed := h
    simp [h]
  | _ => cases hpc

theorem onError (h : Permits task row) (errorCode : String) :
    Permits { task with pc := task.pc.onError errorCode } row := by
  unfold TaskPc.onError
  split
  next hpc => exact h.started hpc
  · trivial

theorem onCancel (h : Permits task row) (signal : Signal) : Permits ⟨task.pc.onCancel,signal⟩ row := by
  unfold TaskPc.onCancel
  split
  next hpc => exact h.started hpc
  · trivial

theorem cancel (h : Permits task row) : Permits task.cancel row := by
  unfold Task.cancel
  split
  · exact h
  next hc =>
    obtain ⟨-,hsignal⟩ : task.pc.isEnded = false ∧ task.signal = .none := by simpa using hc
    obtain ⟨pc,signal⟩ := task
    obtain rfl : signal = .none := hsignal
    have hown {own status : Status} (h : Own .none own status) : Own .requested own status := .inl ((own_none rfl).mp h)
    cases pc with
    | semaphore | readAnalysis | publishStarted _ | readFile _ | complete _ | readStatus _ | commitCompleted _ => exact hown h
    | readAsset seen | commitRunning seen => exact ⟨hown h.1,h.2⟩
    | publishCompleted | markRead _ | markCommit _ | publishFailed | ended _ => exact h

/-- A shutdown marks the row of a task that it has asked to cancel, or that has ended. -/
theorem marked (h : Permits task row) (hrow : row.status ≠ .completed)
    (hasked : task.signal ≠ .none ∨ task.pc.isEnded = true) :
    Permits task ((Write.failed "vision_cancelled").apply row) := by
  obtain ⟨pc,signal⟩ := task
  have hown (hpc : pc.isEnded = false) (own : Status) : Own signal own .failed :=
    .inr ⟨hasked.resolve_right (by simp [hpc]),rfl⟩
  cases pc with
  | semaphore | readAnalysis => exact hown rfl .queued
  | readAsset seen | commitRunning seen => exact ⟨hown rfl .queued,h.2⟩
  | publishStarted _ | readFile _ | complete _ | readStatus _ | commitCompleted _ => exact hown rfl .running
  | publishCompleted => exact absurd h hrow
  | markRead _ => simp [Permits,Write.status]
  | markCommit _ => exact .inr rfl
  | publishFailed => rfl
  | ended _ => trivial

end Permits

theorem TaskPc.onCancel_unwinding (pc : TaskPc) : pc.onCancel.unwinding = true := by
  unfold onCancel
  split <;> rfl

theorem TaskPc.onError_unwinding {pc : TaskPc} (h : pc.unwinding = true) (errorCode : String) :
    (pc.onError errorCode).unwinding = true := by
  cases pc with
  | markRead _ | markCommit _ | ended _ => rfl
  | _ => cases h

theorem Task.cancel_pc (task : Task) : task.cancel.pc = task.pc := by
  unfold Task.cancel
  split <;> rfl

theorem Task.cancel_asked (task : Task) : task.cancel.signal ≠ .none ∨ task.cancel.pc.isEnded = true := by
  unfold Task.cancel
  split
  next h =>
    rcases Bool.or_eq_true_iff.mp h with h | h
    · exact .inr h
    · exact .inl (by simpa using h)
  · exact .inl (by simp)

theorem Task.cancel_delivered {task : Task} (h : task.cancel.signal = .delivered) : task.signal = .delivered := by
  unfold Task.cancel at h
  split at h
  · exact h
  · cases h

namespace Local.Ok
variable {i : AnalysisId} {l : Label} {s s' : Local}

theorem setSubmission (h : s.Ok) {pc : SubmitPc} (hok : SubmissionOk { s with submission := some pc }) :
    Local.Ok { s with submission := some pc } :=
  ⟨hok,fun task ht => ⟨(h.task task ht).permits,(h.task task ht).delivered,(h.task task ht).tabled⟩,h.tabled,h.watch,h.writing⟩

/-- The task moves on from an await, and the row with it. -/
theorem setTask (h : s.Ok) {task task' : Task} {row : Option Row} (ht : s.task = some task)
    (hok : TaskOk { s with task := some task', row := row } task')
    (hasked : task.signal ≠ .none ∨ task.pc.isEnded = true → task'.signal ≠ .none ∨ task'.pc.isEnded = true)
    (hwriting : s.watch = .writing → RowIs (· ≠ .completed) row) :
    Local.Ok { s with task := some task', row := row } := by
  obtain ⟨hreturned,hadmitted⟩ := h.submission.of_task ht
  refine ⟨?_,?_,fun _ => rfl,fun hactive => ⟨task',rfl,?_⟩,hwriting⟩
  · unfold SubmissionOk
    simp only [hreturned]
    exact ⟨rfl,hadmitted⟩
  · rintro _ ⟨⟩
    exact hok
  · obtain ⟨task₀,ht₀,hasked₀⟩ := h.watch hactive
    obtain rfl : task = task₀ := Option.some.inj (ht.symm.trans ht₀)
    exact hasked hasked₀

theorem setWatch (h : s.Ok) {v : Watch} (hactive : v.active = true → s.watch.active = true)
    (hwriting : v = .writing → RowIs (· ≠ .completed) s.row) : Local.Ok { s with watch := v } :=
  ⟨h.submission,fun task ht => ⟨(h.task task ht).permits,(h.task task ht).delivered,(h.task task ht).tabled⟩,h.tabled,
    fun hv => h.watch (hactive hv),hwriting⟩

theorem moveWatch (h : s.Ok) {v : Watch} (hv : Watch.Moves s v) : Local.Ok { s with watch := v } := by
  cases hv with
  | absent v hs hv => rcases hv with rfl | rfl <;> exact h.setWatch (fun h => (by cases h)) (fun h => (by cases h))
  | marks hs => exact h.setWatch (fun _ => by rw [hs]; rfl) (fun h => (by cases h))
  | ended v hs ht hv => rcases hv with rfl | rfl <;> exact h.setWatch (fun h => (by cases h)) (fun h => (by cases h))
  | writes row hs hrow hstatus =>
    refine h.setWatch (fun _ => by rw [hs]; rfl) fun _ => ?_
    rw [hrow]
    refine rowIs_some.mpr fun hcompleted => ?_
    rw [hcompleted] at hstatus
    cases hstatus
  | settled v hs hrow hv =>
    rcases hv with rfl | rfl | rfl
    · exact h.setWatch (fun _ => by rw [hs]; rfl) (fun h => (by cases h))
    · exact h.setWatch (fun h => (by cases h)) (fun h => (by cases h))
    · exact h.setWatch (fun h => (by cases h)) (fun h => (by cases h))
  | returns hs => exact h.setWatch (fun h => (by cases h)) (fun h => (by cases h))
  | cut => exact h.setWatch (fun h => (by cases h)) (fun h => (by cases h))

theorem deleteAsset (h : s.Ok) (f : Row → Bool) : Local.Ok { s with row := s.row.filter f } := by
  refine ⟨?_,fun task ht => ⟨fun row hrow => ?_,(h.task task ht).delivered,(h.task task ht).tabled⟩,h.tabled,h.watch,
    fun hw => (h.writing hw).filter f⟩
  · have hsub := h.submission
    unfold SubmissionOk at hsub ⊢
    split at hsub <;> simp_all [RowIs.filter]
  · exact (h.task task ht).permits row (Option.filter_eq_some_iff.mp hrow).1

theorem step (h : s.Ok) (hstep : Local.Step i s l s') : s'.Ok := by
  have hsub := h.submission
  unfold SubmissionOk at hsub
  cases hstep with
  | stay => exact h
  | submit a mode model hs hrow =>
    simp only [hs] at hsub
    exact h.setSubmission ⟨hsub.1,hrow,hsub.2.2⟩
  | accept a mode model hs =>
    simp only [hs] at hsub
    obtain ⟨htask,hrow,-⟩ := hsub
    exact ⟨⟨htask,hrow,trivial,rfl⟩,fun task ht => (by rw [htask] at ht; cases ht),h.tabled,h.watch,h.writing⟩
  | reject a mode model pc hs hpc =>
    simp only [hs] at hsub
    obtain ⟨htask,hrow,hadmitted⟩ := hsub
    rcases hpc with rfl | ⟨n,rfl⟩
    · exact h.setSubmission ⟨htask,hrow ▸ rowIs_none _⟩
    · exact h.setSubmission ⟨htask,hrow,hadmitted⟩
  | insert row hs =>
    simp only [hs] at hsub
    obtain ⟨htask,-,hadmitted,hqueued⟩ := hsub
    refine ⟨⟨htask,rowIs_some.mpr hqueued,hadmitted⟩,fun task ht => (by rw [htask] at ht; cases ht),h.tabled,h.watch,fun hw => ?_⟩
    exact rowIs_some.mpr (by rw [hqueued]; decide)
  | drop row hs =>
    simp only [hs] at hsub
    obtain ⟨htask,hrow,-⟩ := hsub
    exact h.setSubmission ⟨htask,hrow ▸ rowIs_none _⟩
  | refresh hs =>
    simp only [hs] at hsub
    exact h.setSubmission hsub
  | vanished hs hrow =>
    simp only [hs] at hsub
    exact h.setSubmission ⟨hsub.1,hrow ▸ rowIs_none _⟩
  | register hs =>
    simp only [hs] at hsub
    obtain ⟨htask,hqueued,hadmitted⟩ := hsub
    refine ⟨⟨rfl,hadmitted⟩,?_,fun _ => rfl,fun hactive => ?_,h.writing⟩
    · rintro _ ⟨⟩
      exact ⟨fun row hrow => .inl (hqueued row hrow),fun h => (by cases h),fun _ => trivial⟩
    · obtain ⟨task,ht,-⟩ := h.watch hactive
      rw [htask] at ht
      cases ht
  | abort pc hs hpc =>
    simp only [hs] at hsub
    cases pc with
    | asset _ _ _ => exact h.setSubmission ⟨hsub.1,hsub.2.1 ▸ rowIs_none _⟩
    | commit row => exact h.setSubmission ⟨hsub.1,hsub.2.1 ▸ rowIs_none _⟩
    | refresh | publish => exact h.setSubmission ⟨hsub.1,hsub.2.1⟩
    | returned | refused _ | raised => cases hpc
  | run w content task pc write ht hs hrow hresume =>
    have hok := h.task task ht
    have hr := resumed (hrow ▸ hok.permits) hok.delivered hs hresume
    rw [hrow] at hr
    refine h.setTask ht ⟨hr.permits,fun hd => (hr.delivered hd).1,fun _ => hok.tabled hr.live⟩ ?_ fun hw => ?_
    · rintro (hsignal | hended)
      · exact .inl hsignal
      · rw [hr.live] at hended
        cases hended
    · obtain ⟨task₀,ht₀,hasked⟩ := h.watch (by rw [hw]; rfl)
      obtain rfl : task = task₀ := Option.some.inj (ht.symm.trans ht₀)
      have hdelivered : task.signal = .delivered := by
        cases hsignal : task.signal with
        | none => simp [hsignal,hr.live] at hasked
        | requested => exact absurd hsignal hs
        | delivered => rfl
      exact (hr.delivered hdelivered).2 (h.writing hw)
  | fail errorCode task ht hs hlive =>
    have hok := h.task task ht
    refine h.setTask ht ⟨fun row hrow => (hok.permits row hrow).onError errorCode,
      fun hd => TaskPc.onError_unwinding (hok.delivered hd) errorCode,fun _ => hok.tabled hlive⟩ ?_ h.writing
    rintro (hsignal | hended)
    · exact .inl hsignal
    · rw [hlive] at hended
      cases hended
  | cancel task ht hs hlive =>
    have hok := h.task task ht
    refine h.setTask ht ⟨fun row hrow => (hok.permits row hrow).onCancel _,fun _ => TaskPc.onCancel_unwinding _,
      fun _ => hok.tabled hlive⟩ ?_ h.writing
    rintro (hsignal | hended)
    · exact .inl hsignal
    · rw [hlive] at hended
      cases hended
  | deliver task ht hs =>
    have hok := h.task task ht
    refine h.setTask ht ⟨fun row hrow => (hok.permits row hrow).onCancel _,fun _ => TaskPc.onCancel_unwinding _,
      fun hpc => hok.tabled ?_⟩ (fun _ => .inl (by simp)) h.writing
    cases hended : task.pc.isEnded with
    | false => rfl
    | true =>
      cases hpc' : task.pc with
      | ended outcome => rw [hpc'] at hpc; cases hpc
      | _ => rw [hpc'] at hended; cases hended
  | pop tabled ht hlive =>
    refine ⟨hsub,fun task hs => ⟨(h.task task hs).permits,(h.task task hs).delivered,fun hended => ?_⟩,fun hp => h.tabled (ht hp),
      h.watch,h.writing⟩
    rw [hlive task hs] at hended
    cases hended
  | deleteAsset a => exact h.deleteAsset _
  | shutdown hs ht =>
    obtain ⟨task,htask⟩ := Option.isSome_iff_exists.mp (h.tabled ht)
    have hok := h.task task htask
    have hmap : s.task.map Task.cancel = some task.cancel := by rw [htask]; rfl
    rw [hmap]
    have hset : Local.Ok { s with task := some task.cancel, row := s.row } := by
      refine h.setTask htask ⟨fun row hrow => (hok.permits row hrow).cancel,fun hd => ?_,fun _ => ht⟩
        (fun _ => task.cancel_asked) h.writing
      rw [Task.cancel_pc]
      exact hok.delivered (Task.cancel_delivered hd)
    refine ⟨hset.submission,fun task' ht' => ?_,hset.tabled,fun _ => ⟨_,rfl,task.cancel_asked⟩,fun hw => (by cases hw)⟩
    exact ⟨(hset.task task' ht').permits,(hset.task task' ht').delivered,(hset.task task' ht').tabled⟩
  | watch _ v hv => exact h.moveWatch hv
  | mark v row hs hrow hv =>
    obtain ⟨task,ht,hasked⟩ := h.watch (by rw [hs]; rfl)
    have hok := h.task task ht
    have hset : Local.Ok { s with task := some task, row := some ((Write.failed "vision_cancelled").apply row) } :=
      h.setTask ht ⟨fun row' hrow' => Option.some.inj hrow' ▸ (hok.permits row hrow).marked (rowIs_some.mp (hrow ▸ h.writing hs)) hasked,
        hok.delivered,hok.tabled⟩ id fun _ => rowIs_some.mpr (by simp [Write.status])
    rw [← ht] at hset
    refine hset.setWatch (fun _ => by rw [hs]; rfl) fun hw => ?_
    rcases hv with rfl | rfl | rfl <;> cases hw

end Local.Ok

/-! ## The service -/

structure Inv (w : World) : Prop where
  each : ∀ i, (w.view i).Ok
  nodup : w.admitted.Nodup
  entered : w.table.Nodup

theorem inv_initial (db : Db) : Inv (initial db) := by
  refine ⟨fun i => ⟨⟨rfl,fun r hr => ?_,List.not_mem_nil⟩,fun task ht => (by cases ht),fun h => (by cases h),fun h => (by cases h),
    fun h => (by cases h)⟩,List.nodup_nil,List.nodup_nil⟩
  obtain ⟨row,-,rfl⟩ := Option.map_eq_some_iff.mp hr
  split
  next hterminal => exact hterminal
  · rfl

section Service
variable {settings : Settings} {l : Label} {w w' : World}

/-- What a submission is admitted under. -/
def Admits (settings : Settings) (l : Label) (w : World) (i : AnalysisId) : Prop :=
  l = .advance i ∧ ∃ a mode model, w.submissions i = some (.asset a mode model) ∧
    checkSubmission settings w a mode model = .commit (.queued a mode)

/-- What a step does to the submissions that are admitted and to the table. -/
inductive Enters (settings : Settings) (l : Label) (w w' : World) : Prop
  | kept (admitted : w'.admitted = w.admitted) (table : w'.table = w.table)
  | admits (i : AnalysisId) (h : Admits settings l w i) (admitted : w'.admitted = w.admitted ++ [i]) (table : w'.table = w.table)
  | enters (i : AnalysisId) (h : w.submissions i = some .publish) (admitted : w'.admitted = w.admitted) (table : w'.table = w.table ++ [i])
  | leaves (i : AnalysisId) (admitted : w'.admitted = w.admitted) (table : w'.table = w.table.erase i)

theorem step_enters (h : step settings l w = some w') : Enters settings l w w' := by
  cases l with
  | advance i =>
    obtain ⟨pc,hpc,h⟩ := Option.bind_eq_some_iff.mp h
    cases pc with
    | asset a mode model =>
      simp only [advance] at h
      split at h
      next row hcheck =>
        cases h
        refine .admits i ⟨rfl,a,mode,model,hpc,?_⟩ rfl rfl
        unfold checkSubmission at hcheck ⊢
        split_ifs at hcheck ⊢
        rfl
      · cases h
        exact .kept rfl rfl
    | commit row =>
      simp only [advance] at h
      split at h <;> cases h <;> exact .kept rfl rfl
    | refresh =>
      cases h
      exact .kept rfl rfl
    | publish =>
      cases h
      exact .enters i hpc rfl rfl
    | returned | refused _ | raised => cases h
  | submit i a mode model =>
    simp only [step] at h
    split at h <;> cases h
    exact .kept rfl rfl
  | abort i =>
    simp only [step] at h
    split at h <;> cases h <;> exact .kept rfl rfl
  | run i content =>
    simp only [step] at h
    split at h
    · split at h
      · cases h
      · obtain ⟨next,-,rfl⟩ := Option.map_eq_some_iff.mp h
        exact .kept rfl rfl
    · cases h
  | fail i errorCode | cancel i | deliver i =>
    simp only [step] at h
    split at h
    · split at h <;> cases h
      exact .kept rfl rfl
    · cases h
  | pop i =>
    simp only [step] at h
    split at h <;> cases h
    exact .leaves i rfl rfl
  | addAsset a | deleteAsset a =>
    cases h
    exact .kept rfl rfl
  | shutdown =>
    simp only [step] at h
    split at h
    · split at h <;> cases h <;> exact .kept rfl rfl
    · cases h
  | mark =>
    simp only [step] at h
    split at h
    · split at h <;> cases h <;> exact .kept rfl rfl
    · split at h <;> cases h <;> exact .kept rfl rfl
    · cases h
  | waited | abortShutdown =>
    simp only [step] at h
    split at h <;> cases h <;> exact .kept rfl rfl

theorem step_admitted (h : step settings l w = some w') :
    w'.admitted = w.admitted ∨ ∃ i, Admits settings l w i ∧ w'.admitted = w.admitted ++ [i] := by
  cases step_enters h with
  | kept admitted table => exact .inl admitted
  | admits i h admitted table => exact .inr ⟨i,h,admitted⟩
  | enters i h admitted table => exact .inl admitted
  | leaves i admitted table => exact .inl admitted

theorem inv_step (hw : Inv w) (h : step settings l w = some w') : Inv w' := by
  refine ⟨fun i => (hw.each i).step (step_view h i),?_,?_⟩
  · rcases step_admitted h with hsame | ⟨i,⟨-,a,mode,model,hsub,-⟩,hnew⟩
    · rw [hsame]
      exact hw.nodup
    · have hok := (hw.each i).submission
      unfold SubmissionOk at hok
      simp only [World.view, hsub] at hok
      rw [hnew, ← List.concat_eq_append]
      exact List.Nodup.concat hok.2.2 hw.nodup
  · cases step_enters h with
    | kept admitted table | admits i h admitted table =>
      rw [table]
      exact hw.entered
    | enters i hs admitted table =>
      -- the task of a submission that is about to enter it is not there yet
      have hok := (hw.each i).submission
      unfold SubmissionOk at hok
      simp only [World.view, hs] at hok
      have hi : i ∉ w.table := by
        intro hi
        have htask := (hw.each i).tabled hi
        simp only [World.view, hok.1] at htask
        cases htask
      rw [table, ← List.concat_eq_append]
      exact List.Nodup.concat hi hw.entered
    | leaves i admitted table =>
      rw [table]
      exact hw.entered.erase i

end Service

end AgentGraph.Vision.Analysis
