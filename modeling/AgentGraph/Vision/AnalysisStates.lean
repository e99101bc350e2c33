import AgentGraph.Vision.Analyses

/-! # The service as one analysis sees it

The submission, the task, the row and the shutdown's concern with one analysis make a state of
their own. Every step of the service is a step of that state or leaves it alone, and what holds
of one analysis is proved from those steps.
-/
set_option autoImplicit false
namespace AgentGraph.Vision.Analysis

/-- How far the shutdown is with one analysis. -/
inductive Watch
  | notCalled
  | waiting
  | marking
  | writing
  /-- It is not concerned with the analysis, and not over. -/
  | passed
  | returned
  | raised
deriving DecidableEq

/-- The shutdown will still look at the analysis, unless it is cut short. -/
def Watch.active : Watch → Bool
  | waiting | marking | writing => true
  | notCalled | passed | returned | raised => false

def Shutdown.watch (i : AnalysisId) : Shutdown → Watch
  | notCalled => .notCalled
  | waiting pending => if i ∈ pending then .waiting else .passed
  | marking rest => if i ∈ rest then .marking else .passed
  | writing j rest => if j = i then .writing else if i ∈ rest then .marking else .passed
  | returned => .returned
  | raised => .raised

/-- What one analysis sees of the service. -/
structure Local where
  submission : Option SubmitPc
  task : Option Task
  row : Option Row
  admitted : Prop
  tabled : Prop
  watch : Watch

def World.view (w : World) (i : AnalysisId) : Local :=
  ⟨w.submissions i,w.tasks i,w.db.rows i,i ∈ w.admitted,i ∈ w.table,w.shutdown.watch i⟩

/-- A row that is there has a status that `p` permits. -/
def RowIs (p : Status → Prop) (row : Option Row) : Prop := ∀ r, row = some r → p r.status

/-- The row has a terminal status or is gone. -/
abbrev Settled (row : Option Row) : Prop := RowIs (fun status => status.terminal = true) row

theorem rowIs_none (p : Status → Prop) : RowIs p none := fun _ h => by cases h

theorem rowIs_some {p : Status → Prop} {row : Row} : RowIs p (some row) ↔ p row.status :=
  ⟨fun h => h row rfl,fun h _ he => Option.some.inj he ▸ h⟩

theorem RowIs.filter {p : Status → Prop} {row : Option Row} (h : RowIs p row) (f : Row → Bool) :
    RowIs p (row.filter f) := fun r hr => h r (Option.filter_eq_some_iff.mp hr).1

theorem RowIs.imp {p q : Status → Prop} {row : Option Row} (h : RowIs p row) (hpq : ∀ status, p status → q status) :
    RowIs q row := fun r hr => hpq _ (h r hr)

/-- The row after a write that may not have happened. -/
def written (row : Option Row) (write : Option Write) : Option Row := write.elim row fun update => row.map update.apply

/-! ## The steps of one analysis -/

/-- The submission may be interrupted. -/
def SubmitPc.isOpen : SubmitPc → Bool
  | asset _ _ _ | commit _ | refresh | publish => true
  | returned | refused _ | raised => false

/-- The moves of a shutdown that leave the row alone. -/
inductive Watch.Moves (s : Local) : Watch → Prop
  /-- The shutdown finds no task of the analysis in the table. -/
  | absent (v : Watch) (h : s.watch = .notCalled) (hv : v = .passed ∨ v = .returned) : Moves s v
  | marks (h : s.watch = .waiting) : Moves s .marking
  /-- The wait has found the task ended, and not by a cancellation. -/
  | ended (v : Watch) (h : s.watch = .waiting)
      (ht : ∀ task, s.task = some task → ∃ outcome, task.pc = .ended outcome ∧ outcome ≠ .cancelled)
      (hv : v = .passed ∨ v = .returned) : Moves s v
  | writes (row : Row) (h : s.watch = .marking) (hrow : s.row = some row) (hstatus : row.status.terminal = false) :
      Moves s .writing
  | settled (v : Watch) (h : s.watch = .marking) (hrow : Settled s.row)
      (hv : v = .marking ∨ v = .passed ∨ v = .returned) : Moves s v
  | returns (h : s.watch = .passed) : Moves s .returned
  | cut : Moves s .raised

/-- The steps of one analysis, under the labels of the service. -/
inductive Local.Step (i : AnalysisId) (s : Local) : Label → Local → Prop
  | stay (l : Label) : Step i s l s
  | submit (a : AssetId) (mode : VisionMode) (model : Option String) (h : s.submission = none) (hrow : s.row = none) :
      Step i s (.submit i a mode model) { s with submission := some (.asset a mode model) }
  | accept (a : AssetId) (mode : VisionMode) (model : Option String) (h : s.submission = some (.asset a mode model)) :
      Step i s (.advance i) { s with submission := some (.commit (.queued a mode)), admitted := True }
  | reject (a : AssetId) (mode : VisionMode) (model : Option String) (pc : SubmitPc)
      (h : s.submission = some (.asset a mode model)) (hpc : pc = .raised ∨ ∃ n, pc = .refused n) :
      Step i s (.advance i) { s with submission := some pc }
  | insert (row : Row) (h : s.submission = some (.commit row)) :
      Step i s (.advance i) { s with submission := some .refresh, row := some row }
  | drop (row : Row) (h : s.submission = some (.commit row)) : Step i s (.advance i) { s with submission := some .raised }
  | refresh (h : s.submission = some .refresh) : Step i s (.advance i) { s with submission := some .publish }
  | vanished (h : s.submission = some .refresh) (hrow : s.row = none) :
      Step i s (.advance i) { s with submission := some .raised }
  | register (h : s.submission = some .publish) :
      Step i s (.advance i) { s with submission := some .returned, task := some ⟨.semaphore,.none⟩, tabled := True }
  | abort (pc : SubmitPc) (h : s.submission = some pc) (hpc : pc.isOpen = true) :
      Step i s (.abort i) { s with submission := some .raised }
  | run (w : World) (content : String) (task : Task) (pc : TaskPc) (write : Option Write) (ht : s.task = some task)
      (hs : task.signal ≠ .requested) (hrow : w.db.rows i = s.row) (h : resume w i content task.pc = some (pc,write)) :
      Step i s (.run i content) { s with task := some { task with pc := pc }, row := written s.row write }
  | fail (errorCode : String) (task : Task) (ht : s.task = some task) (hs : task.signal ≠ .requested)
      (hlive : task.pc.isEnded = false) :
      Step i s (.fail i errorCode) { s with task := some { task with pc := task.pc.onError errorCode } }
  | cancel (task : Task) (ht : s.task = some task) (hs : task.signal ≠ .requested) (hlive : task.pc.isEnded = false) :
      Step i s (.cancel i) { s with task := some { task with pc := task.pc.onCancel } }
  | deliver (task : Task) (ht : s.task = some task) (hs : task.signal = .requested) :
      Step i s (.deliver i) { s with task := some ⟨task.pc.onCancel,.delivered⟩ }
  | pop (tabled : Prop) (h : tabled → s.tabled) (hlive : ∀ task, s.task = some task → task.pc.isEnded = true) :
      Step i s (.pop i) { s with tabled := tabled }
  | deleteAsset (a : AssetId) : Step i s (.deleteAsset a) { s with row := s.row.filter fun row => row.assetId ≠ a }
  | shutdown (h : s.watch = .notCalled) (ht : s.tabled) :
      Step i s .shutdown { s with task := s.task.map Task.cancel, watch := .waiting }
  | watch (l : Label) (v : Watch) (h : Watch.Moves s v) : Step i s l { s with watch := v }
  | mark (v : Watch) (row : Row) (h : s.watch = .writing) (hrow : s.row = some row)
      (hv : v = .marking ∨ v = .passed ∨ v = .returned) :
      Step i s .mark { s with row := some ((Write.failed "vision_cancelled").apply row), watch := v }

section Views
variable {w w' : World} {i j : AnalysisId}

theorem view_setSubmission_of_ne (h : j ≠ i) (pc : SubmitPc) : (w.setSubmission i pc).view j = w.view j := by
  simp [World.view,World.setSubmission,Function.update_of_ne h]

theorem view_setSubmission (pc : SubmitPc) :
    (w.setSubmission i pc).view i = { w.view i with submission := some pc } := by
  simp [World.view,World.setSubmission]

theorem view_setTask_of_ne (h : j ≠ i) (task : Task) : (w.setTask i task).view j = w.view j := by
  simp [World.view,World.setTask,Function.update_of_ne h]

theorem view_setTask (task : Task) : (w.setTask i task).view i = { w.view i with task := some task } := by
  simp [World.view,World.setTask]

theorem watch_next (rest : List AnalysisId) :
    (i ∈ rest ∧ (Shutdown.next rest).watch i = .marking) ∨
      i ∉ rest ∧ ((Shutdown.next rest).watch i = .passed ∨ (Shutdown.next rest).watch i = .returned) := by
  unfold Shutdown.next
  by_cases hi : i ∈ rest
  · rw [if_neg (List.ne_nil_of_mem hi)]
    exact .inl ⟨hi,if_pos hi⟩
  · refine .inr ⟨hi,?_⟩
    split
    · exact .inr rfl
    · exact .inl (if_neg hi)

end Views

/-- A step that changes what at most the analysis `i` sees. -/
theorem step_at {w w' : World} {l : Label} (i : AnalysisId) (hother : ∀ j, j ≠ i → w'.view j = w.view j)
    (hi : Local.Step i (w.view i) l (w'.view i)) (j : AnalysisId) : Local.Step j (w.view j) l (w'.view j) := by
  by_cases he : j = i
  · exact he ▸ hi
  · rw [hother j he]
    exact .stay l

/-- A step of the shutdown alone. -/
theorem shutdown_step {w : World} {shutdown : Shutdown} {l : Label} {j : AnalysisId}
    (h : shutdown.watch j = w.shutdown.watch j ∨ Watch.Moves (w.view j) (shutdown.watch j)) :
    Local.Step j (w.view j) l (({ w with shutdown := shutdown } : World).view j) := by
  rcases h with h | h
  · have hview : ({ w with shutdown := shutdown } : World).view j = w.view j := by simp [World.view,h]
    rw [hview]
    exact .stay l
  · exact .watch l _ h

section Step
variable {settings : Settings} {w w' : World} {l : Label}

theorem advance_view {i : AnalysisId} {pc : SubmitPc} (hpc : w.submissions i = some pc)
    (h : advance settings w i pc = some w') (j : AnalysisId) : Local.Step j (w.view j) (.advance i) (w'.view j) := by
  revert j
  cases pc with
  | asset a mode model =>
    simp only [advance] at h
    split at h
    next row hcheck =>
      cases h
      have hrow : row = .queued a mode := by
        unfold checkSubmission at hcheck
        split_ifs at hcheck
        cases hcheck
        rfl
      subst hrow
      refine step_at i (fun j hj => ?_) ?_
      · simp [World.view,World.setSubmission,hj]
      · have hview : ({ w.setSubmission i (.commit (.queued a mode)) with admitted := w.admitted ++ [i] } : World).view i =
            { w.view i with submission := some (.commit (.queued a mode)), admitted := True } := by
          simp [World.view,World.setSubmission]
        rw [hview]
        exact .accept a mode model hpc
    next hcheck =>
      cases h
      refine step_at i (fun j hj => view_setSubmission_of_ne hj _) ?_
      rw [view_setSubmission]
      refine .reject a mode model _ hpc ?_
      unfold checkSubmission at hcheck ⊢
      split_ifs at hcheck ⊢ with h₁ h₂ h₃
      · exact .inl rfl
      · exact .inl rfl
      · exact .inr ⟨_,rfl⟩
      · exact absurd rfl (hcheck _)
  | commit row =>
    simp only [advance] at h
    split at h
    next hasset =>
      cases h
      refine step_at i (fun j hj => ?_) ?_
      · simp [World.view,World.setSubmission,Db.insert,Function.update_of_ne hj]
      · have hview : ({ w.setSubmission i .refresh with db := w.db.insert i row hasset } : World).view i =
            { w.view i with submission := some .refresh, row := some row } := by
          simp [World.view,World.setSubmission,Db.insert]
        rw [hview]
        exact .insert row hpc
    next =>
      cases h
      refine step_at i (fun j hj => view_setSubmission_of_ne hj _) ?_
      rw [view_setSubmission]
      exact .drop row hpc
  | refresh =>
    cases h
    refine step_at i (fun j hj => view_setSubmission_of_ne hj _) ?_
    rw [view_setSubmission]
    cases hrow : w.db.rows i with
    | none => exact .vanished hpc hrow
    | some row => exact .refresh hpc
  | publish =>
    cases h
    refine step_at i (fun j hj => ?_) ?_
    · simp [World.view,World.setSubmission,World.setTask,hj]
    · have hview : ({ (w.setSubmission i .returned).setTask i ⟨.semaphore,.none⟩ with table := w.table ++ [i] } : World).view i =
          { w.view i with submission := some .returned, task := some ⟨.semaphore,.none⟩, tabled := True } := by
        simp [World.view,World.setSubmission,World.setTask]
      rw [hview]
      exact .register hpc
  | returned => cases h
  | refused n => cases h
  | raised => cases h

theorem run_view {i : AnalysisId} {content : String} (h : step settings (.run i content) w = some w') (j : AnalysisId) :
    Local.Step j (w.view j) (.run i content) (w'.view j) := by
  revert j
  simp only [step] at h
  split at h
  next task ht =>
    split at h
    · cases h
    next hs =>
      obtain ⟨⟨pc,write⟩,hresume,rfl⟩ := Option.map_eq_some_iff.mp h
      refine step_at i (fun j hj => ?_) ?_
      · cases write with
        | none => exact view_setTask_of_ne hj _
        | some write => simp [World.view,World.setTask,Db.write,Function.update_of_ne hj]
      · have hview : ({ w.setTask i { task with pc := pc } with db := write.elim w.db (w.db.write i) } : World).view i =
            { w.view i with task := some { task with pc := pc }, row := written (w.db.rows i) write } := by
          cases write with
          | none => exact view_setTask _
          | some write => simp [World.view,World.setTask,Db.write,written]
        rw [hview]
        exact .run w content task pc write ht hs rfl hresume
  · cases h

theorem called_view (h : step settings .shutdown w = some w') (j : AnalysisId) :
    Local.Step j (w.view j) .shutdown (w'.view j) := by
  simp only [step] at h
  split at h
  next hshutdown =>
    have hwatch : (w.view j).watch = .notCalled := by simp [World.view,hshutdown,Shutdown.watch]
    split at h
    · cases h
      exact .watch _ .returned (.absent _ hwatch (.inr rfl))
    · cases h
      by_cases hj : j ∈ w.table
      · have hview : ({ w with shutdown := .waiting w.table, tasks := fun i => if i ∈ w.table then (w.tasks i).map Task.cancel else w.tasks i } : World).view j =
            { w.view j with task := (w.view j).task.map Task.cancel, watch := .waiting } := by
          simp [World.view,Shutdown.watch,hj]
        rw [hview]
        exact .shutdown hwatch hj
      · have hview : ({ w with shutdown := .waiting w.table, tasks := fun i => if i ∈ w.table then (w.tasks i).map Task.cancel else w.tasks i } : World).view j =
            { w.view j with watch := .passed } := by
          simp [World.view,Shutdown.watch,hj]
        rw [hview]
        exact .watch _ .passed (.absent _ hwatch (.inl rfl))
  · cases h

theorem waited_view (h : step settings .waited w = some w') (j : AnalysisId) :
    Local.Step j (w.view j) .waited (w'.view j) := by
  simp only [step] at h
  split at h
  next pending hshutdown =>
    cases h
    apply shutdown_step
    have hnext := watch_next (i := j) (pending.filter w.marks)
    by_cases hj : j ∈ pending
    · have hwatch : (w.view j).watch = .waiting := by simp [World.view,hshutdown,Shutdown.watch,hj]
      right
      rcases hnext with ⟨-,hnext⟩ | ⟨hmarks,hnext⟩
      · rw [hnext]
        exact .marks hwatch
      · refine .ended _ hwatch (fun task ht => ?_) hnext
        have ht : w.tasks j = some task := ht
        have hmarks : w.marks j = false := by simpa [hj] using hmarks
        cases hpc : task.pc with
        | ended outcome =>
          refine ⟨outcome,rfl,?_⟩
          simpa [World.marks,ht,hpc] using hmarks
        | _ => simp [World.marks,ht,hpc] at hmarks
    · have hwatch : w.shutdown.watch j = .passed := by simp [hshutdown,Shutdown.watch,hj]
      rcases hnext with ⟨hmem,-⟩ | ⟨-,hnext | hnext⟩
      · exact absurd (List.mem_filter.mp hmem).1 hj
      · exact .inl (hnext.trans hwatch.symm)
      · rw [hnext]
        exact .inr (.returns hwatch)
  · cases h

theorem mark_view (h : step settings .mark w = some w') (j : AnalysisId) :
    Local.Step j (w.view j) .mark (w'.view j) := by
  simp only [step] at h
  split at h
  next i rest hshutdown =>
    have hskip (hsettled : Settled (w.db.rows i)) :
        (Shutdown.next rest).watch j = w.shutdown.watch j ∨ Watch.Moves (w.view j) ((Shutdown.next rest).watch j) := by
      by_cases hj : j ∈ i :: rest
      · have hwatch : w.shutdown.watch j = .marking := by rw [hshutdown]; exact if_pos hj
        rcases watch_next (i := j) rest with ⟨-,hnext⟩ | ⟨hrest,hnext⟩
        · exact .inl (hnext.trans hwatch.symm)
        · obtain rfl : j = i := (List.mem_cons.mp hj).resolve_right hrest
          exact .inr (.settled _ hwatch hsettled (.inr hnext))
      · have hwatch : w.shutdown.watch j = .passed := by rw [hshutdown]; exact if_neg hj
        rcases watch_next (i := j) rest with ⟨hrest,-⟩ | ⟨-,hnext | hnext⟩
        · exact absurd (List.mem_cons_of_mem i hrest) hj
        · exact .inl (hnext.trans hwatch.symm)
        · rw [hnext]
          exact .inr (.returns hwatch)
    split at h
    next hrow =>
      cases h
      exact shutdown_step (hskip (hrow ▸ rowIs_none _))
    next row hrow =>
      cases h
      apply shutdown_step
      split
      next hterminal => exact hskip (hrow ▸ rowIs_some.mpr hterminal)
      next hactive =>
        by_cases hj : j = i
        · subst hj
          have hwatch : (w.view j).watch = .marking := by simp [World.view,hshutdown,Shutdown.watch]
          have hnext : (Shutdown.writing j rest).watch j = .writing := by simp [Shutdown.watch]
          rw [hnext]
          exact .inr (.writes row hwatch hrow (by simpa using hactive))
        · refine .inl ?_
          rw [hshutdown]
          simp [Shutdown.watch,hj,Ne.symm hj]
  next i rest hshutdown =>
    split at h
    · cases h
      exact shutdown_step (.inr .cut)
    next row hrow =>
      cases h
      by_cases hj : j = i
      · subst hj
        have hwatch : (w.view j).watch = .writing := by simp [World.view,hshutdown,Shutdown.watch]
        have hview : ({ w with shutdown := .next rest, db := w.db.write j (.failed "vision_cancelled") } : World).view j =
            { w.view j with
              row := some ((Write.failed "vision_cancelled").apply row), watch := (Shutdown.next rest).watch j } := by
          simp [World.view,Db.write,hrow]
        rw [hview]
        refine .mark _ row hwatch hrow ?_
        rcases watch_next (i := j) rest with ⟨-,hnext⟩ | ⟨-,hnext⟩
        · exact .inl hnext
        · exact .inr hnext
      · have hview : ({ w with shutdown := .next rest, db := w.db.write i (.failed "vision_cancelled") } : World).view j =
            ({ w with shutdown := .next rest } : World).view j := by
          simp [World.view,Db.write,hj]
        rw [hview]
        apply shutdown_step
        have hwatch : w.shutdown.watch j = if j ∈ rest then .marking else .passed := by
          simp [hshutdown,Shutdown.watch,Ne.symm hj]
        rcases watch_next (i := j) rest with ⟨hrest,hnext⟩ | ⟨hrest,hnext | hnext⟩
        · rw [if_pos hrest] at hwatch
          exact .inl (hnext.trans hwatch.symm)
        · rw [if_neg hrest] at hwatch
          exact .inl (hnext.trans hwatch.symm)
        · rw [if_neg hrest] at hwatch
          rw [hnext]
          exact .inr (.returns hwatch)
  · cases h

/-- Every step of the service is, for each analysis, one of its own steps. -/
theorem step_view (h : step settings l w = some w') (j : AnalysisId) : Local.Step j (w.view j) l (w'.view j) := by
  cases l with
  | submit i a mode model =>
    simp only [step] at h
    split at h
    next hsub hrow =>
      cases h
      revert j
      refine step_at i (fun j hj => view_setSubmission_of_ne hj _) ?_
      rw [view_setSubmission]
      exact .submit a mode model hsub hrow
    · cases h
  | advance i =>
    obtain ⟨pc,hpc,hadvance⟩ := Option.bind_eq_some_iff.mp h
    exact advance_view hpc hadvance j
  | abort i =>
    simp only [step] at h
    revert j
    split at h
    case h_5 => cases h
    all_goals
      next hsub =>
        cases h
        refine step_at i (fun j hj => view_setSubmission_of_ne hj _) ?_
        rw [view_setSubmission]
        exact .abort _ hsub rfl
  | run i content => exact run_view h j
  | fail i errorCode =>
    simp only [step] at h
    revert j
    split at h
    next task ht =>
      split at h
      · cases h
      next hlive =>
        cases h
        obtain ⟨hs,hlive⟩ : task.signal ≠ .requested ∧ task.pc.isEnded = false := by simpa using hlive
        refine step_at i (fun j hj => view_setTask_of_ne hj _) ?_
        rw [view_setTask]
        exact .fail errorCode task ht hs hlive
    · cases h
  | cancel i =>
    simp only [step] at h
    revert j
    split at h
    next task ht =>
      split at h
      · cases h
      next hlive =>
        cases h
        obtain ⟨hs,hlive⟩ : task.signal ≠ .requested ∧ task.pc.isEnded = false := by simpa using hlive
        refine step_at i (fun j hj => view_setTask_of_ne hj _) ?_
        rw [view_setTask]
        exact .cancel task ht hs hlive
    · cases h
  | deliver i =>
    simp only [step] at h
    revert j
    split at h
    next task ht =>
      split at h
      next hs =>
        cases h
        refine step_at i (fun j hj => view_setTask_of_ne hj _) ?_
        rw [view_setTask]
        exact .deliver task ht hs
      · cases h
    · cases h
  | pop i =>
    simp only [step] at h
    split at h
    next hpop =>
      cases h
      revert j
      refine step_at i (fun j hj => ?_) ?_
      · simp [World.view,List.mem_erase_of_ne hj]
      · refine .pop (i ∈ w.table.erase i) List.mem_of_mem_erase fun task ht => ?_
        have ht : w.tasks i = some task := ht
        simpa [World.isLive,ht] using hpop.2
    · cases h
  | addAsset a =>
    cases h
    exact .stay _
  | deleteAsset a =>
    cases h
    exact .deleteAsset a
  | shutdown => exact called_view h j
  | waited => exact waited_view h j
  | mark => exact mark_view h j
  | abortShutdown =>
    simp only [step] at h
    split at h
    case h_4 => cases h
    all_goals
      cases h
      exact shutdown_step (.inr .cut)

end Step

end AgentGraph.Vision.Analysis
