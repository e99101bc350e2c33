import AgentGraph.Vision.AnalysisInvariant

/-! # The statuses of analyses

Statuses move one way in every run. A row without a task to finish it is left behind by an
interrupted submission, and by a task that ends outside its `try`.
-/
set_option autoImplicit false
namespace AgentGraph.Vision.Analysis
open Transition

instance RowIs.decidable (p : Status → Prop) [DecidablePred p] (row : Option Row) : Decidable (RowIs p row) :=
  inferInstanceAs (Decidable (∀ r ∈ row, p r.status))

/-- The row of an analysis is new, or it was there before and its status is the same or has
made one move. -/
def RowStep (w w' : World) (i : AnalysisId) : Prop :=
  ∀ r', w'.db.rows i = some r' →
    (w.db.rows i = none ∧ w.submissions i = some (.commit r') ∧ r'.status = .queued) ∨
      ∃ r, w.db.rows i = some r ∧ (r'.status = r.status ∨ Status.Moves r.status r'.status)

/-- Unless a shutdown is under way or was cut short, an ended task leaves its row settled. -/
def Finished (w : World) (i : AnalysisId) : Prop :=
  w.shutdown.watch i = .notCalled ∨ w.shutdown.watch i = .returned →
    ∀ task, w.tasks i = some task → task.pc.isEnded = true → Settled (w.db.rows i)

/-- Once the submission is over, a queued row has a live task. -/
def Attended (w : World) (i : AnalysisId) : Prop :=
  (∀ pc, w.submissions i = some pc → pc.isOpen = false) →
    ∀ row, w.db.rows i = some row → row.status = .queued → w.isLive i = true

/-- The row has been committed and the task is not there yet. -/
def SubmitPc.isCommitted : SubmitPc → Bool
  | refresh | publish => true
  | _ => false

/-- An exception that ends the task, or a cancellation, finds the row settled, or finds a shutdown
that will still mark it. -/
def EndsHandled (l : Label) (w : World) : Prop :=
  match l with
  | .fail i _ => ∀ task ∈ w.tasks i, task.pc.inTry = true ∨ Settled (w.db.rows i) ∨
      w.shutdown.watch i = .marking ∨ w.shutdown.watch i = .writing
  | .cancel i => ∀ task ∈ w.tasks i, task.pc.inTry = true ∨ Settled (w.db.rows i) ∨ (w.shutdown.watch i).active = true
  | _ => True

/-- The step neither interrupts a submission behind its commit nor ends a task whose analysis has
not been started. -/
def KeepsQueued (l : Label) (w : World) : Prop :=
  match l with
  | .abort i => ∀ pc ∈ w.submissions i, pc.isCommitted = true → w.db.rows i = none
  | .fail i _ | .cancel i | .deliver i => ∀ task ∈ w.tasks i, task.pc.inTry = true ∨ RowIs (· ≠ .queued) (w.db.rows i)
  | _ => True

/-! ## Moves of the status -/

theorem Status.Moves.active {status status' : Status} (h : Moves status status') : status.terminal = false := by
  cases h with
  | start | complete => rfl
  | fail _ h => exact h

theorem RowMoves.settled {row row' : Option Row} (h : RowMoves row row') (hrow : Settled row) : Settled row' := by
  intro r' hr'
  obtain ⟨r,hr,hstatus | hmoves⟩ := h r' hr'
  · rw [hstatus]
    exact hrow r hr
  · have hterminal : r.status.terminal = true := hrow r hr
    rw [hmoves.active] at hterminal
    cases hterminal

theorem RowMoves.filter (row : Option Row) (f : Row → Bool) : RowMoves row (row.filter f) :=
  fun r hr => ⟨r,(Option.filter_eq_some_iff.mp hr).1,.inl rfl⟩

variable {i : AnalysisId} {l : Label} {s s' : Local}

/-- The row is inserted by the submission, or it moves. -/
theorem Local.Ok.moves (h : s.Ok) (hstep : Local.Step i s l s') :
    (∃ row, s.submission = some (.commit row) ∧ s.row = none ∧ s'.row = some row ∧ row.status = .queued) ∨
      RowMoves s.row s'.row := by
  cases hstep with
  | insert row hs =>
    have hsub := h.submission
    unfold SubmissionOk at hsub
    simp only [hs] at hsub
    exact .inl ⟨row,hs,hsub.2.1,rfl,hsub.2.2.2⟩
  | run w content task pc write ht hs hrow hresume =>
    have hok := h.task task ht
    have hr := resumed (hrow ▸ hok.permits) hok.delivered hs hresume
    rw [hrow] at hr
    exact .inr hr.moves
  | deleteAsset a => exact .inr (.filter _ _)
  | mark v row hs hrow hv =>
    right
    obtain ⟨task,ht,-⟩ := h.watch (by rw [hs]; rfl)
    rw [hrow]
    rintro _ ⟨⟩
    refine ⟨row,rfl,?_⟩
    rw [Write.apply_status]
    have hcompleted : row.status ≠ .completed := h.writing hs row hrow
    cases hstatus : row.status with
    | queued | running => exact .inr (.fail _ rfl)
    | completed => exact absurd hstatus hcompleted
    | failed => exact .inl rfl
  | stay | submit | accept | reject | drop | refresh | vanished | register | abort | fail | cancel | deliver | pop | shutdown | watch =>
    exact .inr (.refl _)

/-! ## Ended tasks -/

/-- An ended task leaves a settled row, or one that the shutdown has yet to mark. So does a
task that has been asked to cancel. -/
structure Local.Watched (s : Local) : Prop where
  ended : ∀ task outcome, s.task = some task → task.pc = .ended outcome →
    Settled s.row ∨ s.watch = .raised ∨ s.watch = .marking ∨ s.watch = .writing ∨ s.watch = .waiting ∧ outcome = .cancelled
  asked : ∀ task, s.task = some task → task.signal ≠ .none → Settled s.row ∨ s.watch.active = true ∨ s.watch = .raised

def Local.EndsHandled (i : AnalysisId) (s : Local) (l : Label) : Prop :=
  (∀ errorCode, l = .fail i errorCode → ∀ task, s.task = some task →
    task.pc.inTry = true ∨ Settled s.row ∨ s.watch = .marking ∨ s.watch = .writing) ∧
  (l = .cancel i → ∀ task, s.task = some task → task.pc.inTry = true ∨ Settled s.row ∨ s.watch.active = true)

theorem EndsHandled.view {w : World} (h : EndsHandled l w) (i : AnalysisId) : (w.view i).EndsHandled i l :=
  ⟨fun _ hl task ht => by subst hl; exact h task ht,fun hl task ht => by subst hl; exact h task ht⟩

theorem isEnded_iff {pc : TaskPc} : pc.isEnded = true ↔ ∃ outcome, pc = .ended outcome := by
  cases pc <;> simp [TaskPc.isEnded]

theorem TaskPc.onError_ended {pc : TaskPc} {errorCode : String} {outcome : Outcome} (h : pc.onError errorCode = .ended outcome) :
    pc.inTry = false := by
  unfold onError at h
  split at h
  · cases h
  next hpc => simpa using hpc

theorem TaskPc.onCancel_ended {pc : TaskPc} {outcome : Outcome} (h : pc.onCancel = .ended outcome) :
    pc.inTry = false ∧ outcome = .cancelled := by
  unfold onCancel at h
  split at h
  · cases h
  next hpc =>
    cases h
    exact ⟨by simpa using hpc,rfl⟩

/-- A shutdown that is concerned with a cancelled task will mark it. -/
theorem active_covers {v : Watch} {row : Option Row} (h : v.active = true) :
    Settled row ∨ v = .raised ∨ v = .marking ∨ v = .writing ∨ v = .waiting ∧ Outcome.cancelled = .cancelled := by
  cases v <;> simp_all [Watch.active]

namespace Local.Watched

/-- Neither the task nor the shutdown has moved. -/
theorem of_row (h : s.Watched) {row : Option Row} (hrow : Settled s.row → Settled row) : Local.Watched { s with row := row } :=
  ⟨fun task outcome ht hpc => (h.ended task outcome ht hpc).imp_left hrow,fun task ht hs => (h.asked task ht hs).imp_left hrow⟩

theorem moveWatch (h : s.Watched) {v : Watch} (hv : Watch.Moves s v) : Local.Watched { s with watch := v } := by
  cases hv with
  | absent v hs hv =>
    refine ⟨fun task outcome ht hpc => .inl ?_,fun task ht hsignal => .inl ?_⟩
    · simpa [hs] using h.ended task outcome ht hpc
    · simpa [hs,Watch.active] using h.asked task ht hsignal
  | marks hs => exact ⟨fun _ _ _ _ => .inr (.inr (.inl rfl)),fun _ _ _ => .inr (.inl rfl)⟩
  | ended v hs hended hv =>
    have hsettled (task : Task) (ht : s.task = some task) : Settled s.row := by
      obtain ⟨outcome,hpc,hcancelled⟩ := hended task ht
      simpa [hs,hcancelled] using h.ended task outcome ht hpc
    exact ⟨fun task _ ht _ => .inl (hsettled task ht),fun task ht _ => .inl (hsettled task ht)⟩
  | writes row hs hrow hstatus =>
    exact ⟨fun _ _ _ _ => .inr (.inr (.inr (.inl rfl))),fun _ _ _ => .inr (.inl rfl)⟩
  | settled v hs hrow hv => exact ⟨fun _ _ _ _ => .inl hrow,fun _ _ _ => .inl hrow⟩
  | returns hs =>
    refine ⟨fun task outcome ht hpc => .inl ?_,fun task ht hsignal => .inl ?_⟩
    · simpa [hs] using h.ended task outcome ht hpc
    · simpa [hs,Watch.active] using h.asked task ht hsignal
  | cut => exact ⟨fun _ _ _ _ => .inr (.inl rfl),fun _ _ _ => .inr (.inr rfl)⟩

theorem step (h : s.Watched) (hok : s.Ok) (hhandled : s.EndsHandled i l) (hstep : Local.Step i s l s') : s'.Watched := by
  have hsub := hok.submission
  have hmoves := hok.moves hstep
  unfold SubmissionOk at hsub
  cases hstep with
  | stay => exact h
  | submit | accept | reject | drop | refresh | vanished | abort | pop => exact ⟨h.ended,h.asked⟩
  | insert row hs =>
    simp only [hs] at hsub
    have hnone {task : Task} (ht : s.task = some task) : False := by rw [hsub.1] at ht; cases ht
    exact ⟨fun _ _ ht _ => (hnone ht).elim,fun _ ht _ => (hnone ht).elim⟩
  | register hs =>
    refine ⟨?_,?_⟩
    · rintro _ outcome ⟨⟩ hpc
      cases hpc
    · rintro _ ⟨⟩ hsignal
      exact absurd rfl hsignal
  | run w content task pc write ht hs hrow hresume =>
    have htask := hok.task task ht
    have hr := resumed (hrow ▸ htask.permits) htask.delivered hs hresume
    rw [hrow] at hr
    refine ⟨?_,?_⟩
    · rintro _ outcome ⟨⟩ hpc
      have hpc : pc = .ended outcome := hpc
      exact .inl (hr.settled (by rw [hpc]; rfl))
    · rintro _ ⟨⟩ hsignal
      exact (h.asked task ht hsignal).imp_left hr.moves.settled
  | fail errorCode task ht hs hlive =>
    refine ⟨?_,?_⟩
    · rintro _ outcome ⟨⟩ hpc
      have hout := TaskPc.onError_ended hpc
      rcases hhandled.1 errorCode rfl task ht with htry | hsettled | hmarking | hwriting
      · rw [hout] at htry
        cases htry
      · exact .inl hsettled
      · exact .inr (.inr (.inl hmarking))
      · exact .inr (.inr (.inr (.inl hwriting)))
    · rintro _ ⟨⟩ hsignal
      exact h.asked task ht hsignal
  | cancel task ht hs hlive =>
    refine ⟨?_,?_⟩
    · rintro _ outcome ⟨⟩ hpc
      obtain ⟨hout,rfl⟩ := TaskPc.onCancel_ended hpc
      rcases hhandled.2 rfl task ht with htry | hsettled | hactive
      · rw [hout] at htry
        cases htry
      · exact .inl hsettled
      · exact active_covers hactive
    · rintro _ ⟨⟩ hsignal
      exact h.asked task ht hsignal
  | deliver task ht hs =>
    have hasked := h.asked task ht (by simp [hs])
    refine ⟨?_,?_⟩
    · rintro _ outcome ⟨⟩ hpc
      obtain ⟨-,rfl⟩ := TaskPc.onCancel_ended hpc
      rcases hasked with hsettled | hactive | hraised
      · exact .inl hsettled
      · exact active_covers hactive
      · exact .inr (.inl hraised)
    · rintro _ ⟨⟩ -
      exact hasked
  | deleteAsset a => exact h.of_row fun hrow => hrow.filter _
  | shutdown hs ht =>
    refine ⟨fun task outcome hmap hpc => ?_,fun _ _ _ => .inr (.inl rfl)⟩
    obtain ⟨task,htask,rfl⟩ := Option.map_eq_some_iff.mp hmap
    rw [Task.cancel_pc] at hpc
    left
    simpa [hs] using h.ended task outcome htask hpc
  | watch _ v hv => exact h.moveWatch hv
  | mark v row hs hrow hv =>
    exact ⟨fun _ _ _ _ => .inl (rowIs_some.mpr rfl),fun _ _ _ => .inl (rowIs_some.mpr rfl)⟩

end Local.Watched

/-! ## Queued rows -/

/-- No queued row is left by a submission that was raised or by a task that has ended. -/
structure Local.Kept (s : Local) : Prop where
  raised : s.submission = some .raised → s.row = none
  ended : ∀ task, s.task = some task → task.pc.isEnded = true → RowIs (· ≠ .queued) s.row

def Local.KeepsQueued (i : AnalysisId) (s : Local) (l : Label) : Prop :=
  (l = .abort i → ∀ pc, s.submission = some pc → pc.isCommitted = true → s.row = none) ∧
  ((∃ errorCode, l = .fail i errorCode) ∨ l = .cancel i ∨ l = .deliver i →
    ∀ task, s.task = some task → task.pc.inTry = true ∨ RowIs (· ≠ .queued) s.row)

theorem KeepsQueued.view {w : World} (h : KeepsQueued l w) (i : AnalysisId) : (w.view i).KeepsQueued i l := by
  refine ⟨fun hl pc hpc => ?_,fun hl task ht => ?_⟩
  · subst hl
    exact h pc hpc
  · rcases hl with ⟨_,rfl⟩ | rfl | rfl <;> exact h task ht

namespace Local.Kept

/-- The task, if it is there, has not ended. -/
theorem of_returned (hs : s'.submission = some .returned)
    (h : ∀ task, s'.task = some task → task.pc.isEnded = true → RowIs (· ≠ .queued) s'.row) : s'.Kept :=
  ⟨fun hraised => (by rw [hs] at hraised; cases hraised),h⟩

theorem of_no_task (ht : s'.task = none) (h : s'.submission = some .raised → s'.row = none) : s'.Kept :=
  ⟨h,fun task hs => (by rw [ht] at hs; cases hs)⟩

/-- A step of the task either does not end it or finds the row started. -/
theorem setTask (hsub : SubmissionOk s) {task task' : Task} (ht : s.task = some task) {row : Option Row}
    (hended : task'.pc.isEnded = true → RowIs (· ≠ .queued) row) : Local.Kept { s with task := some task', row := row } := by
  refine of_returned (hsub.of_task ht).1 ?_
  rintro _ ⟨⟩ hpc
  exact hended hpc

theorem step (h : s.Kept) (hok : s.Ok) (hkeeps : s.KeepsQueued i l) (hstep : Local.Step i s l s') : s'.Kept := by
  have hsub := hok.submission
  have hinv := hok.submission
  unfold SubmissionOk at hsub
  cases hstep with
  | stay => exact h
  | submit a mode model hs hrow => exact of_no_task (by simp_all) (fun h => (by cases h))
  | accept a mode model hs => exact of_no_task (by simp_all) (fun h => (by cases h))
  | reject a mode model pc hs hpc =>
    simp only [hs] at hsub
    exact of_no_task hsub.1 (fun _ => hsub.2.1)
  | insert row hs =>
    simp only [hs] at hsub
    exact of_no_task hsub.1 (fun h => (by cases h))
  | drop row hs =>
    simp only [hs] at hsub
    exact of_no_task hsub.1 (fun _ => hsub.2.1)
  | refresh hs =>
    simp only [hs] at hsub
    exact of_no_task hsub.1 (fun h => (by cases h))
  | vanished hs hrow =>
    simp only [hs] at hsub
    exact of_no_task hsub.1 (fun _ => hrow)
  | register hs =>
    refine of_returned rfl ?_
    rintro _ ⟨⟩ hpc
    cases hpc
  | abort pc hs hpc =>
    have hnone := hkeeps.1 rfl pc hs
    simp only [hs] at hsub
    cases pc with
    | asset _ _ _ => exact of_no_task hsub.1 (fun _ => hsub.2.1)
    | commit row => exact of_no_task hsub.1 (fun _ => hsub.2.1)
    | refresh | publish => exact of_no_task hsub.1 (fun _ => hnone rfl)
    | returned | refused _ | raised => cases hpc
  | run w content task pc write ht hs hrow hresume =>
    have htask := hok.task task ht
    have hr := resumed (hrow ▸ htask.permits) htask.delivered hs hresume
    rw [hrow] at hr
    exact setTask hinv ht fun hended => (hr.settled hended).imp fun status hterminal hqueued => by
      rw [hqueued] at hterminal
      cases hterminal
  | fail errorCode task ht hs hlive =>
    refine setTask hinv ht fun hended => ?_
    obtain ⟨outcome,hpc⟩ := isEnded_iff.mp hended
    have hout := TaskPc.onError_ended hpc
    exact (hkeeps.2 (.inl ⟨_,rfl⟩) task ht).resolve_left (by simp [hout])
  | cancel task ht hs hlive =>
    refine setTask hinv ht fun hended => ?_
    obtain ⟨outcome,hpc⟩ := isEnded_iff.mp hended
    have hout := (TaskPc.onCancel_ended hpc).1
    exact (hkeeps.2 (.inr (.inl rfl)) task ht).resolve_left (by simp [hout])
  | deliver task ht hs =>
    refine setTask hinv ht fun hended => ?_
    obtain ⟨outcome,hpc⟩ := isEnded_iff.mp hended
    have hout := (TaskPc.onCancel_ended hpc).1
    exact (hkeeps.2 (.inr (.inr rfl)) task ht).resolve_left (by simp [hout])
  | pop | watch => exact ⟨h.raised,h.ended⟩
  | deleteAsset a =>
    refine ⟨fun hs => ?_,fun task ht hended => (h.ended task ht hended).filter _⟩
    simp only [h.raised hs, Option.filter_none]
  | shutdown hs ht =>
    refine ⟨h.raised,fun task hmap hended => ?_⟩
    obtain ⟨task,htask,rfl⟩ := Option.map_eq_some_iff.mp hmap
    rw [Task.cancel_pc] at hended
    exact h.ended task htask hended
  | mark v row hs hrow hv =>
    refine ⟨fun hraised => ?_,fun _ _ _ => rowIs_some.mpr (by simp [Write.status])⟩
    rw [h.raised hraised] at hrow
    cases hrow

end Local.Kept

theorem attended {w : World} {i : AnalysisId} (hok : (w.view i).Ok) (hkept : (w.view i).Kept) : Attended w i := by
  intro hover row hrow hqueued
  have hsub := hok.submission
  have hrow' : (w.view i).row = some row := hrow
  unfold SubmissionOk at hsub
  split at hsub
  next hs =>
    have hterminal : row.status.terminal = true := hsub.2.1 row hrow
    rw [hqueued] at hterminal
    cases hterminal
  next hs => cases hover _ hs
  next hs =>
    rw [hsub.2.1] at hrow'
    cases hrow'
  next hs => cases hover _ hs
  next hs => cases hover _ hs
  next hs => cases hover _ hs
  next hs =>
    obtain ⟨task,ht⟩ := Option.isSome_iff_exists.mp hsub.1
    have ht : w.tasks i = some task := ht
    cases hended : task.pc.isEnded with
    | true => exact absurd hqueued (hkept.ended task ht hended row hrow)
    | false => simp [World.isLive,ht,hended]
  next hs =>
    rw [hkept.raised hs] at hrow'
    cases hrow'

theorem finished {w : World} {i : AnalysisId} (h : (w.view i).Watched) : Finished w i := by
  intro hshutdown task ht hended
  obtain ⟨outcome,hpc⟩ := isEnded_iff.mp hended
  have hwatch : (w.view i).watch = .notCalled ∨ (w.view i).watch = .returned := hshutdown
  have hsettled := h.ended task outcome ht hpc
  change Settled (w.view i).row
  rcases hwatch with hwatch | hwatch <;> simpa [hwatch] using hsettled

/-! ## Every run -/

section Runs
variable (settings : Settings) (db : Db) (ls : List Label)

theorem rowStep {w w' : World} (hw : Inv w) (h : step settings l w = some w') (i : AnalysisId) : RowStep w w' i := by
  intro r' hr'
  rcases (hw.each i).moves (step_view h i) with ⟨row,hs,hnone,hrow,hqueued⟩ | hmoves
  · obtain rfl : row = r' := Option.some.inj (hrow.symm.trans hr')
    exact .inl ⟨hnone,hs,hqueued⟩
  · exact .inr (hmoves r' hr')

theorem watched_initial (i : AnalysisId) : ((initial db).view i).Watched :=
  ⟨fun task _ ht => (by cases ht),fun task ht => (by cases ht)⟩

theorem kept_initial (i : AnalysisId) : ((initial db).view i).Kept := ⟨fun h => (by cases h),fun task ht => (by cases ht)⟩

/-- Statuses only move forward. In a run whose exceptions and cancellations are handled, an
ended task leaves a settled row; in a run that keeps its queued rows, each has a live task. -/
theorem statuses_settle :
    ExecOk (step settings) (fun l w => ∀ w', step settings l w = some w' → ∀ i, RowStep w w' i) ls (initial db) ∧
      (ExecOk (step settings) EndsHandled ls (initial db) →
        ExecAll (step settings) (fun w => ∀ i, Finished w i) ls (initial db)) ∧
      (ExecOk (step settings) KeepsQueued ls (initial db) →
        ExecAll (step settings) (fun w => ∀ i, Attended w i) ls (initial db)) := by
  refine ⟨?_,fun hhandled => ?_,fun hkeeps => ?_⟩
  · refine (execOk_anyStep ls (initial db)).imp (I := Inv) (fun l w w' => inv_step) ?_ (inv_initial db)
    exact fun l w hw _ w' h i => rowStep settings hw h i
  · refine hhandled.all (I := fun w => Inv w ∧ ∀ i, (w.view i).Watched) ?_ (fun w hw i => finished (hw.2 i))
      ⟨inv_initial db,watched_initial db⟩
    rintro l w w' ⟨hw,hwatched⟩ hok h
    exact ⟨inv_step hw h,fun i => (hwatched i).step (hw.each i) (hok.view i) (step_view h i)⟩
  · refine hkeeps.all (I := fun w => Inv w ∧ ∀ i, (w.view i).Kept) ?_ (fun w hw i => attended (hw.1.each i) (hw.2 i))
      ⟨inv_initial db,kept_initial db⟩
    rintro l w w' ⟨hw,hkept⟩ hok h
    exact ⟨inv_step hw h,fun i => (hkept i).step (hw.each i) (hok.view i) (step_view h i)⟩

end Runs

/-! ## A run that keeps everything and two that do not -/

instance EndsHandled.decidable : ∀ (l : Label) (w : World), Decidable (EndsHandled l w)
  | .fail i _, w => inferInstanceAs (Decidable (∀ task ∈ w.tasks i, _ ∨ _ ∨ _ ∨ _))
  | .cancel i, w => inferInstanceAs (Decidable (∀ task ∈ w.tasks i, _ ∨ _ ∨ _))
  | .submit _ _ _ _, _ | .advance _, _ | .abort _, _ | .run _ _, _ | .deliver _, _ | .pop _, _ | .addAsset _, _
  | .deleteAsset _, _ | .shutdown, _ | .waited, _ | .mark, _ | .abortShutdown, _ => .isTrue trivial

instance KeepsQueued.decidable : ∀ (l : Label) (w : World), Decidable (KeepsQueued l w)
  | .abort i, w => inferInstanceAs (Decidable (∀ pc ∈ w.submissions i, _ → w.db.rows i = none))
  | .fail i _, w | .cancel i, w | .deliver i, w => inferInstanceAs (Decidable (∀ task ∈ w.tasks i, _ ∨ _))
  | .submit _ _ _ _, _ | .advance _, _ | .run _ _, _ | .pop _, _ | .addAsset _, _ | .deleteAsset _, _ | .shutdown, _
  | .waited, _ | .mark, _ | .abortShutdown, _ => .isTrue trivial

def localVision : Settings := ⟨true,"local","pixtral",1⟩

/-- An analysis is submitted for a new asset and its row committed. -/
def committedSubmission : List Label := [.addAsset 0,.submit 0 0 .ocr none,.advance 0,.advance 0]

def submitted : List Label := committedSubmission ++ [.advance 0,.advance 0]

/-- The model answers, a shutdown finds the task at its last status and cancels it. -/
def answeredRun : List Label :=
  submitted ++ [.run 0 "",.run 0 "",.run 0 "",.run 0 "",.run 0 "",.run 0 "",.shutdown,.deliver 0,.run 0 "",.run 0 "",.waited,
    .mark,.pop 0]

theorem answeredRun_settles :
    (exec (step localVision) answeredRun (initial noAssets)).map (fun w => (w.db.rows 0).map Row.status) =
        some (some .failed) ∧
      ExecAll (step localVision) (fun w => ∀ i, Finished w i) answeredRun (initial noAssets) ∧
      ExecAll (step localVision) (fun w => ∀ i, Attended w i) answeredRun (initial noAssets) :=
  ⟨by decide +kernel,(statuses_settle localVision noAssets answeredRun).2.1 (by decide +kernel),
    (statuses_settle localVision noAssets answeredRun).2.2 (by decide +kernel)⟩

/-- The request is cancelled while its queued analysis is read back. -/
def disconnectedRun : List Label := committedSubmission ++ [.abort 0]

/-- The event that announces the start of the analysis cannot be stored. -/
def unannouncedRun : List Label := submitted ++ [.run 0 "",.run 0 "",.run 0 "",.run 0 "",.fail 0 "vision_analysis_failed"]

theorem disconnectedRun_not_attended :
    ¬ ExecAll (step localVision) (fun w => ∀ i, Attended w i) disconnectedRun (initial noAssets) ∧
      ¬ ExecAll (step localVision) (fun w => ∀ i, Finished w i) unannouncedRun (initial noAssets) := by
  refine ⟨fun h => ?_,fun h => ?_⟩
  · have hrun : (exec (step localVision) disconnectedRun (initial noAssets)).map (fun w =>
        (w.db.rows 0,w.isLive 0,(w.submissions 0).all fun pc => !pc.isOpen)) =
          some (some (.queued 0 .ocr),false,true) := by decide +kernel
    obtain ⟨w,hw,hview⟩ := Option.map_eq_some_iff.mp hrun
    obtain ⟨hrow,hlive,hover⟩ : w.db.rows 0 = some (.queued 0 .ocr) ∧ w.isLive 0 = false ∧ _ := by simpa using hview
    have hattended := h.last hw 0 (fun pc hpc => by simpa [hpc] using hover) _ hrow rfl
    rw [hlive] at hattended
    cases hattended
  · have hrun : (exec (step localVision) unannouncedRun (initial noAssets)).map (fun w =>
        (w.db.rows 0,w.shutdown.watch 0,(w.tasks 0).map (·.pc.isEnded))) =
          some (some ((Write.running).apply (.queued 0 .ocr)),.notCalled,some true) := by decide +kernel
    obtain ⟨w,hw,hview⟩ := Option.map_eq_some_iff.mp hrun
    obtain ⟨hrow,hwatch,htask⟩ := by simpa using hview
    obtain ⟨task,ht,hended⟩ := htask
    have hsettled := h.last hw 0 (.inl hwatch) task ht hended _ hrow
    cases hsettled

end AgentGraph.Vision.Analysis
