import AgentGraph.Vision.AnalysisInvariant

/-! # The queue limit

A submission checks the length of the task table and enters its own task only after its row is
committed. The table is behind the submissions in between, and ahead of the tasks that have
ended but not yet left it.
-/
set_option autoImplicit false
namespace AgentGraph.Vision.Analysis
open Transition

/-- The submission gets as far as the check of the queue. -/
def Selects (settings : Settings) (w : World) (a : AssetId) (model : Option String) : Prop :=
  settings.visionEnabled = true ∧ w.db.assets a = true ∧ selected settings model = (settings.provider,settings.model)

/-- The limit on live tasks is kept, and a refused submission was right to be and has no row. -/
def Limited (settings : Settings) (w : World) : Prop :=
  w.liveTasks ≤ settings.maxQueue ∧
    ∀ i n, w.submissions i = some (.refused n) → settings.maxQueue ≤ n ∧ w.db.rows i = none

/-- A task is entered below the limit, and a full table is full of unfinished submissions. -/
def SubmitPc.EntersBelow (settings : Settings) (w : World) : SubmitPc → Prop
  | asset a _ model => Selects settings w a model → settings.maxQueue ≤ w.table.length → settings.maxQueue ≤ w.unfinished
  | publish => w.liveTasks < settings.maxQueue
  | commit _ | refresh | returned | refused _ | raised => True

def EntersBelow (settings : Settings) (l : Label) (w : World) : Prop :=
  match l with
  | .advance i => ∀ pc ∈ w.submissions i, pc.EntersBelow settings w
  | _ => True

/-- At the check of the queue the table and the unfinished submissions are on one side of the limit. -/
def TableCurrent (settings : Settings) (l : Label) (w : World) : Prop :=
  match l with
  | .advance i => ∀ a mode model, w.submissions i = some (.asset a mode model) → Selects settings w a model →
      (settings.maxQueue ≤ w.table.length ↔ settings.maxQueue ≤ w.unfinished)
  | _ => True

/-- The submission has passed the check of the queue and its task is not there yet. -/
def SubmitPc.isPending : SubmitPc → Bool
  | commit _ | refresh | publish => true
  | asset _ _ _ | returned | refused _ | raised => false

/-- No submission stands between its check and its entry, and no task in the table has ended. -/
structure TableSettled (w : World) : Prop where
  entered : ∀ i ∈ w.admitted, ∀ pc, w.submissions i = some pc → pc.isPending = false
  live : ∀ i ∈ w.table, w.isLive i = true

/-- The table is settled whenever a submission checks it. -/
def ChecksSettled (settings : Settings) (l : Label) (w : World) : Prop :=
  match l with
  | .advance i => ∀ a mode model, w.submissions i = some (.asset a mode model) → Selects settings w a model → TableSettled w
  | _ => True

variable {settings : Settings} {l : Label} {w w' : World} {i j : AnalysisId}

/-! ## Counting -/

/-- One more element of a list without repetitions is counted. -/
theorem countP_enter {α : Type*} {p q : α → Bool} {a : α} {xs : List α} (hxs : xs.Nodup) (ha : a ∈ xs) (hp : p a = false)
    (hq : q a = true) (hother : ∀ b, b ≠ a → q b = p b) : xs.countP q = xs.countP p + 1 := by
  induction xs with
  | nil => cases ha
  | cons b xs ih =>
    obtain ⟨hb,hxs⟩ := List.nodup_cons.mp hxs
    by_cases he : b = a
    · subst he
      have hrest : xs.countP q = xs.countP p := List.countP_congr fun c hc => by
        rw [hother c fun hcb => hb (hcb ▸ hc)]
      rw [List.countP_cons_of_pos hq,List.countP_cons_of_neg (by simp [hp]),hrest]
    · have ha : a ∈ xs := (List.mem_cons.mp ha).resolve_left (Ne.symm he)
      rw [List.countP_cons,List.countP_cons,hother b he,ih hxs ha]
      omega

/-! ## Live tasks and unfinished submissions -/

theorem isLive_iff : w.isLive i = true ↔ ∃ task, w.tasks i = some task ∧ task.pc.isEnded = false := by
  cases ht : w.tasks i <;> simp [World.isLive,ht]

/-- Only the registration of a task brings it to life. -/
theorem step_isLive (h : step settings l w = some w') (hlive : w'.isLive i = true) :
    w.isLive i = true ∨ l = .advance i ∧ w.submissions i = some .publish := by
  obtain ⟨task',ht',hended⟩ := isLive_iff.mp hlive
  have ht' : (w'.view i).task = some task' := ht'
  have hkept {task : Task} (ht : w.tasks i = some task) (hpc : task.pc.isEnded = false) :
      w.isLive i = true ∨ l = .advance i ∧ w.submissions i = some .publish := .inl (isLive_iff.mpr ⟨task,ht,hpc⟩)
  have hstep := step_view h i
  generalize w'.view i = s' at hstep ht'
  cases hstep with
  | register hs => exact .inr ⟨rfl,hs⟩
  | run v content task pc write ht hs hrow hresume =>
    refine hkept ht ?_
    cases hpc : task.pc with
    | ended outcome =>
      rw [hpc] at hresume
      cases hresume
    | _ => rfl
  | fail errorCode task ht hs hpc => exact hkept ht hpc
  | cancel task ht hs hpc => exact hkept ht hpc
  | deliver task ht hs =>
    refine hkept ht ?_
    cases hpc : task.pc with
    | ended outcome =>
      cases ht'
      rw [hpc] at hended
      cases hended
    | _ => rfl
  | shutdown hs ht =>
    obtain ⟨task,htask,rfl⟩ := Option.map_eq_some_iff.mp ht'
    rw [Task.cancel_pc] at hended
    exact hkept htask hended
  | stay | submit | accept | reject | insert | drop | refresh | vanished | abort | pop | deleteAsset | watch | mark =>
    exact hkept ht' hended

theorem isUnfinished_iff : w.isUnfinished i = true ↔
    (∃ pc, w.submissions i = some pc ∧ pc.isPending = true) ∨ w.isLive i = true := by
  cases hs : w.submissions i with
  | none => simp [World.isUnfinished,hs]
  | some pc => cases pc <;> simp [World.isUnfinished,hs,SubmitPc.isPending]

/-- Only an admission adds to the unfinished submissions. -/
theorem step_isUnfinished (hw : Inv w) (h : step settings l w = some w') (hadmitted : i ∈ w.admitted)
    (hnew : w'.isUnfinished i = true) : w.isUnfinished i = true := by
  have hsub := (hw.each i).submission
  unfold SubmissionOk at hsub
  rw [isUnfinished_iff]
  rcases isUnfinished_iff.mp hnew with ⟨pc',hs',hpending⟩ | hlive
  · have hkept (hs : (w.view i).submission = some pc') :
        (∃ pc, w.submissions i = some pc ∧ pc.isPending = true) ∨ w.isLive i = true := .inl ⟨pc',hs,hpending⟩
    have hs' : (w'.view i).submission = some pc' := hs'
    have hstep := step_view h i
    generalize w'.view i = s' at hstep hs'
    cases hstep with
    | accept a mode model hs =>
      simp only [hs] at hsub
      exact absurd hadmitted hsub.2.2
    | insert row hs => exact .inl ⟨_,hs,rfl⟩
    | refresh hs => exact .inl ⟨_,hs,rfl⟩
    | reject a mode model pc hs hpc =>
      cases hs'
      rcases hpc with rfl | ⟨n,rfl⟩ <;> cases hpending
    | submit | drop | vanished | register | abort =>
      cases hs'
      cases hpending
    | stay | run | fail | cancel | deliver | pop | deleteAsset | shutdown | watch | mark => exact hkept hs'
  · rcases step_isLive h hlive with hlive | ⟨-,hs⟩
    · exact .inr hlive
    · exact .inl ⟨_,hs,rfl⟩

/-- The submission that is admitted is not counted yet. -/
theorem Inv.not_live (hw : Inv w) (hi : i ∉ w.admitted) : w.isLive i = false := by
  refine Bool.eq_false_iff.mpr fun hlive => ?_
  obtain ⟨task,ht,-⟩ := isLive_iff.mp hlive
  exact hi ((hw.each i).submission.of_task ht).2

theorem Admits.fresh (hw : Inv w) (h : Admits settings l w i) : i ∉ w.admitted := by
  obtain ⟨-,a,mode,model,hs,-⟩ := h
  have hsub := (hw.each i).submission
  unfold SubmissionOk at hsub
  simp only [World.view, hs] at hsub
  exact hsub.2.2

theorem liveTasks_le (hw : Inv w) (h : step settings l w = some w')
    (hregister : ∀ i, l = .advance i → w.submissions i ≠ some .publish) : w'.liveTasks ≤ w.liveTasks := by
  have hold (j : AnalysisId) (hlive : w'.isLive j = true) : w.isLive j = true :=
    (step_isLive h hlive).resolve_right fun ⟨hl,hs⟩ => hregister j hl hs
  unfold World.liveTasks
  rcases step_admitted h with hsame | ⟨i,hadmits,hnew⟩
  · rw [hsame]
    exact List.countP_mono_left fun j _ => hold j
  · have hi : ¬w'.isLive i = true := fun hlive => by
      have hlive := hold i hlive
      rw [hw.not_live (hadmits.fresh hw)] at hlive
      cases hlive
    rw [hnew,List.countP_append,List.countP_singleton,if_neg hi]
    exact List.countP_mono_left fun j _ => hold j

theorem liveTasks_register (hw : Inv w) (hs : w.submissions i = some .publish)
    (h : step settings (.advance i) w = some w') : w'.liveTasks = w.liveTasks + 1 := by
  have hsub := (hw.each i).submission
  unfold SubmissionOk at hsub
  simp only [World.view, hs] at hsub
  simp only [step, hs, Option.bind_some, advance, Option.some.injEq] at h
  subst h
  refine countP_enter hw.nodup hsub.2.2 ?_ ?_ fun j hj => ?_
  · simp [World.isLive,hsub.1]
  · simp [World.isLive,World.setTask,TaskPc.isEnded]
  · simp [World.isLive,World.setTask,World.setSubmission,hj]

theorem unfinished_le (hw : Inv w) (h : step settings l w = some w') :
    w'.unfinished ≤ w.unfinished ∨ (∃ i, Admits settings l w i) ∧ w'.unfinished ≤ w.unfinished + 1 := by
  unfold World.unfinished
  rcases step_admitted h with hsame | ⟨i,hadmits,hnew⟩
  · rw [hsame]
    exact .inl (List.countP_mono_left fun j hj => step_isUnfinished hw h hj)
  · refine .inr ⟨⟨i,hadmits⟩,?_⟩
    rw [hnew,List.countP_append]
    exact Nat.add_le_add (List.countP_mono_left fun j hj => step_isUnfinished hw h hj) List.countP_le_length

theorem World.liveTasks_le_unfinished (w : World) : w.liveTasks ≤ w.unfinished :=
  List.countP_mono_left fun _ _ hlive => isUnfinished_iff.mpr (.inr hlive)

/-! ## Refusals -/

theorem checkSubmission_cases (settings : Settings) (w : World) (a : AssetId) (mode : VisionMode) (model : Option String) :
    (¬Selects settings w a model ∧ checkSubmission settings w a mode model = .raised) ∨
      Selects settings w a model ∧ settings.maxQueue ≤ w.table.length ∧
        checkSubmission settings w a mode model = .refused w.unfinished ∨
      Selects settings w a model ∧ ¬settings.maxQueue ≤ w.table.length ∧
        checkSubmission settings w a mode model = .commit (.queued a mode) := by
  unfold checkSubmission Selects
  split_ifs with hopen hselected hfull
  · refine .inl ⟨fun ⟨henabled,hasset,_⟩ => ?_,rfl⟩
    simp [henabled,hasset] at hopen
  · exact .inl ⟨fun h => hselected h.2.2,rfl⟩
  · exact .inr (.inl ⟨⟨by simp_all,by simp_all,not_not.mp hselected⟩,hfull,rfl⟩)
  · exact .inr (.inr ⟨⟨by simp_all,by simp_all,not_not.mp hselected⟩,hfull,rfl⟩)

/-- A submission is refused at its check. -/
theorem step_refused {n : ℕ} (h : step settings l w = some w') (hn : w'.submissions i = some (.refused n)) :
    w.submissions i = some (.refused n) ∨
      l = .advance i ∧ ∃ a mode model, w.submissions i = some (.asset a mode model) ∧ Selects settings w a model ∧
        settings.maxQueue ≤ w.table.length ∧ n = w.unfinished := by
  have hn' : (w'.view i).submission = some (.refused n) := hn
  have hstep := step_view h i
  generalize w'.view i = s' at hstep hn'
  cases hstep with
  | reject a mode model pc hs hpc =>
    refine .inr ⟨rfl,a,mode,model,hs,?_⟩
    have hs : w.submissions i = some (.asset a mode model) := hs
    simp only [step, hs, Option.bind_some, advance] at h
    rcases checkSubmission_cases settings w a mode model with ⟨-,hcheck⟩ | ⟨hselects,hfull,hcheck⟩ | ⟨-,-,hcheck⟩
    · rw [hcheck] at h
      cases h
      simp [World.setSubmission] at hn
    · rw [hcheck] at h
      cases h
      refine ⟨hselects,hfull,?_⟩
      simpa [World.setSubmission,eq_comm] using hn
    · rw [hcheck] at h
      cases h
      simp [World.setSubmission] at hn
  | submit | accept | insert | drop | refresh | vanished | register | abort => cases hn'
  | stay | run | fail | cancel | deliver | pop | deleteAsset | shutdown | watch | mark => exact .inl hn'

/-- A refused submission has no row. -/
theorem Inv.refused_row (hw : Inv w) {n : ℕ} (hn : w.submissions i = some (.refused n)) : w.db.rows i = none := by
  have hsub := (hw.each i).submission
  unfold SubmissionOk at hsub
  simp only [World.view, hn] at hsub
  exact hsub.2.1

/-! ## Every run -/

theorem limited_step (hw : Inv w) (hlimited : Limited settings w) (h : step settings l w = some w') :
    Limited settings w' ↔ EntersBelow settings l w := by
  constructor
  · rintro ⟨hlive,hrefused⟩
    cases l with
    | advance i =>
      intro pc hs
      have hs : w.submissions i = some pc := hs
      cases pc with
      | asset a mode model =>
        intro hselects hfull
        simp only [step, hs, Option.bind_some, advance] at h
        rcases checkSubmission_cases settings w a mode model with ⟨hnot,-⟩ | ⟨-,-,hcheck⟩ | ⟨-,hroom,-⟩
        · exact absurd hselects hnot
        · rw [hcheck] at h
          cases h
          exact (hrefused i w.unfinished (by simp [World.setSubmission])).1
        · exact absurd hfull hroom
      | publish =>
        have hnew := liveTasks_register hw hs h
        change w.liveTasks < settings.maxQueue
        omega
      | commit _ | refresh | returned | refused _ | raised => trivial
    | _ => trivial
  · intro hok
    refine ⟨?_,fun i n hn => ⟨?_,(inv_step hw h).refused_row hn⟩⟩
    · by_cases hregister : ∃ i, l = .advance i ∧ w.submissions i = some .publish
      · obtain ⟨i,rfl,hs⟩ := hregister
        have hnew := liveTasks_register hw hs h
        have hbelow : w.liveTasks < settings.maxQueue := hok _ hs
        omega
      · exact (liveTasks_le hw h fun i hl hs => hregister ⟨i,hl,hs⟩).trans hlimited.1
    · rcases step_refused h hn with hn | ⟨rfl,a,mode,model,hs,hselects,hfull,rfl⟩
      · exact (hlimited.2 i n hn).1
      · exact hok _ hs hselects hfull

/-- While the table is up to date at every check, the unfinished submissions keep the limit. -/
theorem unfinished_step (hw : Inv w) (hbound : w.unfinished ≤ settings.maxQueue)
    (hok : TableCurrent settings l w) (h : step settings l w = some w') : w'.unfinished ≤ settings.maxQueue := by
  rcases unfinished_le hw h with hle | ⟨⟨i,rfl,a,mode,model,hs,hcheck⟩,hle⟩
  · exact hle.trans hbound
  · rcases checkSubmission_cases settings w a mode model with ⟨-,hcheck'⟩ | ⟨-,-,hcheck'⟩ | ⟨hselects,hroom,-⟩
    · rw [hcheck] at hcheck'
      cases hcheck'
    · rw [hcheck] at hcheck'
      cases hcheck'
    · have hbelow := mt (hok a mode model hs hselects).mpr hroom
      omega

theorem limited_initial (settings : Settings) (db : Db) : Limited settings (initial db) :=
  ⟨Nat.zero_le _,fun _ _ h => (by cases h)⟩

/-- The limit holds throughout a run in which the table is up to date at every check. -/
theorem limited_of_current {db : Db} {ls : List Label} (hcurrent : ExecOk (step settings) (TableCurrent settings) ls (initial db)) :
    ExecAll (step settings) (Limited settings) ls (initial db) := by
  refine hcurrent.all (I := fun w => Inv w ∧ Limited settings w ∧ w.unfinished ≤ settings.maxQueue) ?_
    (fun _ hw => hw.2.1) ⟨inv_initial db,limited_initial settings db,Nat.zero_le _⟩
  rintro l w w' ⟨hw,hlimited,hbound⟩ hok hstep
  have hw' := inv_step hw hstep
  have hbound' := unfinished_step hw hbound hok hstep
  refine ⟨hw',⟨w'.liveTasks_le_unfinished.trans hbound',fun i n hn => ⟨?_,hw'.refused_row hn⟩⟩,hbound'⟩
  rcases step_refused hstep hn with hn | ⟨rfl,a,mode,model,hs,hselects,hfull,rfl⟩
  · exact (hlimited.2 i n hn).1
  · exact (hok a mode model hs hselects).mp hfull

/-- The queue limit holds throughout a run exactly if every task enters below it and every
refusal finds that many unfinished submissions, and so where the table is up to date at
every check. -/
theorem queue_limited_iff {db : Db} {ls : List Label} (h : exec (step settings) ls (initial db) = some w) :
    (ExecAll (step settings) (Limited settings) ls (initial db) ↔ ExecOk (step settings) (EntersBelow settings) ls (initial db)) ∧
      (ExecOk (step settings) (TableCurrent settings) ls (initial db) →
        ExecAll (step settings) (Limited settings) ls (initial db)) := by
  refine ⟨?_,limited_of_current⟩
  exact execAll_iff_execOk (fun l w w' => inv_step) (fun l w w' => limited_step) (inv_initial db) (limited_initial settings db) h

/-- The table holds the unfinished submissions, each once. -/
theorem TableSettled.unfinished (h : TableSettled w) (hw : Inv w) : w.table.length = w.unfinished := by
  have hsame : w.table.Perm (w.admitted.filter w.isUnfinished) := by
    refine (List.perm_ext_iff_of_nodup hw.entered (hw.nodup.filter _)).mpr ?_
    intro i
    rw [List.mem_filter, isUnfinished_iff]
    constructor
    · intro hi
      have hlive := h.live i hi
      obtain ⟨task,ht,-⟩ := isLive_iff.mp hlive
      exact ⟨((hw.each i).submission.of_task ht).2,.inr hlive⟩
    · rintro ⟨hadmitted,⟨pc,hs,hpending⟩ | hlive⟩
      · rw [h.entered i hadmitted pc hs] at hpending
        cases hpending
      · obtain ⟨task,ht,hended⟩ := isLive_iff.mp hlive
        exact ((hw.each i).task task ht).tabled hended
  rw [hsame.length_eq, World.unfinished, List.countP_eq_length_filter]

theorem ChecksSettled.current (hw : Inv w) (h : ChecksSettled settings l w) : TableCurrent settings l w := by
  cases l with
  | advance i =>
    intro a mode model hs hselects
    rw [(h a mode model hs hselects).unfinished hw]
  | _ => trivial

/-- The queue limit holds throughout a run in which no submission checks the table while another one has passed its check and not
entered its task, or while an ended task is still in the table. -/
theorem limited_of_settled {db : Db} {ls : List Label} (hsettled : ExecOk (step settings) (ChecksSettled settings) ls (initial db)) :
    ExecAll (step settings) (Limited settings) ls (initial db) := by
  apply limited_of_current
  exact hsettled.imp (I := Inv) (fun _ _ _ => inv_step) (fun _ _ hw hl => hl.current hw) (inv_initial db)

/-! ## Two submissions, one place -/

instance (settings : Settings) (w : World) (a : AssetId) (model : Option String) : Decidable (Selects settings w a model) :=
  inferInstanceAs (Decidable (_ ∧ _ ∧ _))

instance SubmitPc.EntersBelow.decidable (settings : Settings) (w : World) : ∀ pc : SubmitPc, Decidable (pc.EntersBelow settings w)
  | asset a _ model => inferInstanceAs (Decidable (Selects settings w a model → _ → _))
  | publish => inferInstanceAs (Decidable (_ < _))
  | commit _ | refresh | returned | refused _ | raised => .isTrue trivial

instance EntersBelow.decidable (settings : Settings) : ∀ (l : Label) (w : World), Decidable (EntersBelow settings l w)
  | .advance i, w => inferInstanceAs (Decidable (∀ pc ∈ w.submissions i, pc.EntersBelow settings w))
  | .submit _ _ _ _, _ | .abort _, _ | .run _ _, _ | .fail _ _, _ | .cancel _, _ | .deliver _, _ | .pop _, _
  | .addAsset _, _ | .deleteAsset _, _ | .shutdown, _ | .waited, _ | .mark, _ | .abortShutdown, _ => .isTrue trivial

/-- One analysis at a time. -/
def oneAnalysis : Settings := ⟨true,"local","pixtral",1⟩

/-- The second submission comes while the first one's task is live. -/
def serialSubmissions : List Label :=
  [.addAsset 0,.submit 0 0 .ocr none,.advance 0,.advance 0,.advance 0,.advance 0,.submit 1 0 .ui none,.advance 1]

/-- Both submissions check the queue before either has entered its task. -/
def racingSubmissions : List Label :=
  [.addAsset 0,.submit 0 0 .ocr none,.submit 1 0 .ui none,.advance 0,.advance 1,.advance 0,.advance 0,.advance 0,.advance 1,
    .advance 1,.advance 1]

theorem serialSubmissions_limited :
    ExecAll (step oneAnalysis) (Limited oneAnalysis) serialSubmissions (initial noAssets) :=
  (queue_limited_iff (exec_after (by decide +kernel))).1.mpr (by decide +kernel)

theorem racingSubmissions_over_limit :
    (exec (step oneAnalysis) racingSubmissions (initial noAssets)).map World.liveTasks = some 2 ∧
      ¬ ExecAll (step oneAnalysis) (Limited oneAnalysis) racingSubmissions (initial noAssets) := by
  have hrun : (exec (step oneAnalysis) racingSubmissions (initial noAssets)).map World.liveTasks = some 2 := by decide +kernel
  refine ⟨hrun,fun hall => ?_⟩
  obtain ⟨w,hw,hlive⟩ := Option.map_eq_some_iff.mp hrun
  have hle := (hall.last hw).1
  rw [hlive] at hle
  exact absurd hle (by decide)

end AgentGraph.Vision.Analysis
