import AgentGraph.Foundation.Transition
import AgentGraph.Models.Contracts
import Mathlib.Logic.Function.Basic

/-! # `VisionService`: analyses in one event loop

Submissions, analysis tasks, deletions of assets and a shutdown interleave at their awaits,
and a commit is one step. A task that has been asked to cancel raises at the await it is in
before it does anything else. A finished task stays in the table until its callback runs.
-/
set_option autoImplicit false
namespace AgentGraph.Vision.Analysis

abbrev AssetId := Nat
/-- An analysis is numbered by its submission. -/
abbrev AnalysisId := Nat

inductive VisionMode
  | describe | detailed | ocr | objects | grounding | ui | custom
deriving DecidableEq, Repr

/-- `VisionAnalysisStatus`. -/
inductive Status
  | queued | running | completed | failed
deriving DecidableEq, Repr

def Status.terminal : Status → Bool
  | completed | failed => true
  | queued | running => false

/-- `VisionAnalysisRecord`. -/
structure Row where
  assetId : AssetId
  mode : VisionMode
  status : Status
  rawText : Option String
  description : Option String
  ocrText : Option String
  errorCode : Option String
deriving DecidableEq

def Row.queued (assetId : AssetId) (mode : VisionMode) : Row := ⟨assetId,mode,.queued,none,none,none,none⟩

/-- The updates of an analysis row. -/
inductive Write
  | running
  | completed (content : String)
  | failed (errorCode : String)

def Write.apply (row : Row) : Write → Row
  | running => { row with status := .running }
  | completed content =>
    { row with
      status := .completed, rawText := some content,
      description := if row.mode ≠ .ocr then some content else none,
      ocrText := if row.mode = .ocr then some content else none }
  | failed errorCode => { row with status := .failed, errorCode := some errorCode }

def Write.status : Write → Status
  | running => .running
  | completed _ => .completed
  | failed _ => .failed

@[simp] theorem Write.apply_status (row : Row) (write : Write) : (write.apply row).status = write.status := by
  cases write <;> rfl

@[simp] theorem Write.apply_assetId (row : Row) (write : Write) : (write.apply row).assetId = row.assetId := by
  cases write <;> rfl

/-- The assets and the analyses, under the foreign key. -/
structure Db where
  assets : AssetId → Bool
  rows : AnalysisId → Option Row
  foreignKey : ∀ i row, rows i = some row → assets row.assetId = true

namespace Db

def insert (db : Db) (i : AnalysisId) (row : Row) (h : db.assets row.assetId = true) : Db where
  assets := db.assets
  rows := Function.update db.rows i (some row)
  foreignKey j row' hj := by
    by_cases he : j = i
    · subst he
      rw [Function.update_self] at hj
      cases hj
      exact h
    · rw [Function.update_of_ne he] at hj
      exact db.foreignKey j row' hj

/-- An `UPDATE` of the row of an analysis. -/
def write (db : Db) (i : AnalysisId) (update : Write) : Db where
  assets := db.assets
  rows := Function.update db.rows i ((db.rows i).map fun row => update.apply row)
  foreignKey j row' hj := by
    by_cases he : j = i
    · subst he
      rw [Function.update_self] at hj
      obtain ⟨row,hrow,rfl⟩ := Option.map_eq_some_iff.mp hj
      rw [Write.apply_assetId]
      exact db.foreignKey j row hrow
    · rw [Function.update_of_ne he] at hj
      exact db.foreignKey j row' hj

/-- The deletion of an asset takes its analyses along. -/
def deleteAsset (db : Db) (a : AssetId) : Db where
  assets := Function.update db.assets a false
  rows i := (db.rows i).filter fun row => row.assetId ≠ a
  foreignKey i row hi := by
    obtain ⟨hrow,hne⟩ := Option.filter_eq_some_iff.mp hi
    rw [Function.update_of_ne (by simpa using hne)]
    exact db.foreignKey i row hrow

def addAsset (db : Db) (a : AssetId) : Db where
  assets := Function.update db.assets a true
  rows := db.rows
  foreignKey i row hi := by
    by_cases he : row.assetId = a
    · rw [he,Function.update_self]
    · rw [Function.update_of_ne he]
      exact db.foreignKey i row hi

/-- `recover_stale_analyses`. -/
def recoverStale (db : Db) : Db where
  assets := db.assets
  rows i := (db.rows i).map fun row => if row.status.terminal then row else (Write.failed "vision_interrupted").apply row
  foreignKey i row' hi := by
    obtain ⟨row,hrow,rfl⟩ := Option.map_eq_some_iff.mp hi
    have hasset : (if row.status.terminal then row else (Write.failed "vision_interrupted").apply row).assetId = row.assetId := by
      split
      · rfl
      · exact Write.apply_assetId row _
    rw [hasset]
    exact db.foreignKey i row hrow

end Db

structure Settings where
  visionEnabled : Bool
  provider : String
  model : String
  maxQueue : Nat

/-! ## The calls and their awaits -/

/-- `submit_analysis`. -/
inductive SubmitPc
  | asset (assetId : AssetId) (mode : VisionMode) (model : Option String)
  | commit (row : Row)
  | refresh
  | publish
  | returned
  /-- `vision_queue_full`, with the number of submissions admitted and unfinished at that time. -/
  | refused (unfinished : Nat)
  | raised

/-- How `_mark_failed` is called: with an error code, and the cancellation raised again behind it. -/
structure Mark where
  errorCode : String
  reraise : Bool

inductive Outcome
  | returned | raised | cancelled
deriving DecidableEq

/-- `_execute_analysis`. -/
inductive TaskPc
  | semaphore
  | readAnalysis
  | readAsset (row : Row)
  | commitRunning (row : Row)
  | publishStarted (row : Row)
  | readFile (row : Row)
  | complete (row : Row)
  | readStatus (content : String)
  | commitCompleted (content : String)
  | publishCompleted
  | markRead (mark : Mark)
  | markCommit (mark : Mark)
  | publishFailed
  | ended (outcome : Outcome)

/-- The cancellation that a shutdown asks for. -/
inductive Signal
  | none | requested | delivered
deriving DecidableEq

structure Task where
  pc : TaskPc
  signal : Signal

inductive Shutdown
  | notCalled
  | waiting (pending : List AnalysisId)
  | marking (rest : List AnalysisId)
  /-- `_mark_failed` has read an active status and is about to commit. -/
  | writing (i : AnalysisId) (rest : List AnalysisId)
  | returned
  | raised

structure World where
  db : Db
  submissions : AnalysisId → Option SubmitPc
  tasks : AnalysisId → Option Task
  -- the keys of `_tasks`
  table : List AnalysisId
  -- the submissions that have passed the check of the queue
  admitted : List AnalysisId
  shutdown : Shutdown

namespace TaskPc

def isEnded : TaskPc → Bool
  | ended _ => true
  | _ => false

/-- The awaits inside the `try`. -/
def inTry : TaskPc → Bool
  | readFile _ | complete _ | readStatus _ | commitCompleted _ | publishCompleted => true
  | _ => false

/-- The awaits between the acquisition of the semaphore and its release. -/
def holdsSemaphore : TaskPc → Bool
  | semaphore | ended _ => false
  | _ => true

/-- What an exception at the await leads to. -/
def onError (pc : TaskPc) (errorCode : String) : TaskPc :=
  if pc.inTry then .markRead ⟨errorCode,false⟩ else .ended .raised

/-- What a cancellation at the await leads to. -/
def onCancel (pc : TaskPc) : TaskPc :=
  if pc.inTry then .markRead ⟨"vision_cancelled",true⟩ else .ended .cancelled

end TaskPc

/-- What follows `_mark_failed` in its handler. -/
def Mark.after (mark : Mark) : TaskPc := if mark.reraise then .ended .cancelled else .publishFailed

namespace World

def isLive (w : World) (i : AnalysisId) : Bool := (w.tasks i).any fun task => !task.pc.isEnded

/-- The submission is admitted and neither it nor its task is over. -/
def isUnfinished (w : World) (i : AnalysisId) : Bool :=
  match w.submissions i with
  | some (.commit _) | some .refresh | some .publish => true
  | _ => w.isLive i

/-- The number of live analysis tasks. -/
def liveTasks (w : World) : Nat := w.admitted.countP w.isLive

/-- The number of submissions admitted and unfinished. -/
def unfinished (w : World) : Nat := w.admitted.countP w.isUnfinished

def semaphoreFree (w : World) : Bool :=
  w.table.all fun i => (w.tasks i).all fun task => !task.pc.holdsSemaphore

def setSubmission (w : World) (i : AnalysisId) (pc : SubmitPc) : World :=
  { w with submissions := Function.update w.submissions i (some pc) }

def setTask (w : World) (i : AnalysisId) (task : Task) : World :=
  { w with tasks := Function.update w.tasks i (some task) }

end World

/-- The provider and the model that a submission selects. -/
def selected (settings : Settings) (model : Option String) : String × String :=
  let modelRef := (model.filter (· ≠ "")).getD (settings.provider ++ "://" ++ settings.model)
  match Models.partition Models.schemeSeparator modelRef.toList with
  | none => (modelRef,"")
  | some (provider,modelId) => (String.ofList provider,String.ofList modelId)

/-- `submit_analysis` behind `get_asset`, up to its next await. -/
def checkSubmission (settings : Settings) (w : World) (a : AssetId) (mode : VisionMode) (model : Option String) : SubmitPc :=
  if !settings.visionEnabled || !w.db.assets a then .raised
  else if selected settings model ≠ (settings.provider,settings.model) then .raised
  else if settings.maxQueue ≤ w.table.length then .refused w.unfinished
  else .commit (.queued a mode)

/-- The next await of a submission completes. -/
def advance (settings : Settings) (w : World) (i : AnalysisId) : SubmitPc → Option World
  | .asset a mode model =>
    match checkSubmission settings w a mode model with
    | .commit row => some { w.setSubmission i (.commit row) with admitted := w.admitted ++ [i] }
    | pc => some (w.setSubmission i pc)
  | .commit row =>
    if h : w.db.assets row.assetId = true then some { w.setSubmission i .refresh with db := w.db.insert i row h }
    else some (w.setSubmission i .raised)
  | .refresh => some (w.setSubmission i (if (w.db.rows i).isSome then .publish else .raised))
  -- `create_task` and the entry of the table
  | .publish => some { (w.setSubmission i .returned).setTask i ⟨.semaphore,.none⟩ with table := w.table ++ [i] }
  | .returned | .refused _ | .raised => none

/-- The next await of a task completes: where it is then, and what it has written. -/
def resume (w : World) (i : AnalysisId) (content : String) : TaskPc → Option (TaskPc × Option Write)
  | .semaphore => if w.semaphoreFree then some (.readAnalysis,none) else none
  | .readAnalysis =>
    match w.db.rows i with
    | none => some (.ended .returned,none)
    | some row => some (.readAsset row,none)
  | .readAsset row => some (if w.db.assets row.assetId then .commitRunning row else .ended .returned,none)
  | .commitRunning row =>
    match w.db.rows i with
    -- an `UPDATE` that matches no row raises
    | none => some (.ended .raised,none)
    | some _ => some (.publishStarted row,some .running)
  | .publishStarted row => some (.readFile row,none)
  | .readFile row => some (.complete row,none)
  | .complete _ => some (.readStatus content,none)
  | .readStatus content =>
    match w.db.rows i with
    | none => some (.ended .returned,none)
    | some row => some (if row.status = .running then .commitCompleted content else .ended .returned,none)
  | .commitCompleted content =>
    match w.db.rows i with
    | none => some (.markRead ⟨"vision_analysis_failed",false⟩,none)
    | some _ => some (.publishCompleted,some (.completed content))
  | .publishCompleted => some (.ended .returned,none)
  | .markRead mark =>
    match w.db.rows i with
    | none => some (mark.after,none)
    | some row => some (if row.status.terminal then mark.after else .markCommit mark,none)
  | .markCommit mark =>
    match w.db.rows i with
    | none => some (.ended .raised,none)
    | some _ => some (mark.after,some (.failed mark.errorCode))
  | .publishFailed => some (.ended .returned,none)
  | .ended _ => none

/-- What `shutdown` does to a task of the table. -/
def Task.cancel (task : Task) : Task :=
  if task.pc.isEnded || task.signal ≠ .none then task else { task with signal := .requested }

/-- The tasks that `shutdown` marks once its wait is over: those still running and those cancelled. -/
def World.marks (w : World) (i : AnalysisId) : Bool :=
  (w.tasks i).any fun task =>
    match task.pc with
    | .ended outcome => outcome = .cancelled
    | _ => true

def Shutdown.next (rest : List AnalysisId) : Shutdown := if rest = [] then .returned else .marking rest

inductive Label
  | submit (i : AnalysisId) (a : AssetId) (mode : VisionMode) (model : Option String)
  | advance (i : AnalysisId)
  /-- The submission is cancelled at its await, or a statement fails. -/
  | abort (i : AnalysisId)
  | run (i : AnalysisId) (content : String)
  /-- The await of the task raises, with the code that `_mark_failed` would be given. -/
  | fail (i : AnalysisId) (errorCode : String)
  /-- The task is cancelled at its await by something else than a shutdown. -/
  | cancel (i : AnalysisId)
  /-- The cancellation that a shutdown has asked for arrives. -/
  | deliver (i : AnalysisId)
  | pop (i : AnalysisId)
  | addAsset (a : AssetId)
  | deleteAsset (a : AssetId)
  | shutdown
  /-- The wait of the shutdown is over; its timeout may have passed. -/
  | waited
  | mark
  | abortShutdown

def step (settings : Settings) (l : Label) (w : World) : Option World :=
  match l with
  | .submit i a mode model =>
    match w.submissions i, w.db.rows i with
    | none, none => some (w.setSubmission i (.asset a mode model))
    | _, _ => none
  | .advance i => (w.submissions i).bind (advance settings w i)
  | .abort i =>
    match w.submissions i with
    | some (.asset _ _ _) | some (.commit _) | some .refresh | some .publish => some (w.setSubmission i .raised)
    | _ => none
  | .run i content =>
    match w.tasks i with
    | some task =>
      if task.signal = .requested then none
      else
        (resume w i content task.pc).map fun next =>
          { w.setTask i { task with pc := next.1 } with db := next.2.elim w.db (w.db.write i) }
    | none => none
  | .fail i errorCode =>
    match w.tasks i with
    | some task =>
      if task.signal = .requested || task.pc.isEnded then none
      else some (w.setTask i { task with pc := task.pc.onError errorCode })
    | none => none
  | .cancel i =>
    match w.tasks i with
    | some task =>
      if task.signal = .requested || task.pc.isEnded then none else some (w.setTask i { task with pc := task.pc.onCancel })
    | none => none
  | .deliver i =>
    match w.tasks i with
    | some task => if task.signal = .requested then some (w.setTask i ⟨task.pc.onCancel,.delivered⟩) else none
    | none => none
  | .pop i =>
    if i ∈ w.table ∧ !w.isLive i then some { w with table := w.table.erase i } else none
  | .addAsset a => some { w with db := w.db.addAsset a }
  | .deleteAsset a => some { w with db := w.db.deleteAsset a }
  | .shutdown =>
    match w.shutdown with
    | .notCalled =>
      if w.table = [] then some { w with shutdown := .returned }
      else
        some
          { w with
            shutdown := .waiting w.table,
            tasks := fun i => if i ∈ w.table then (w.tasks i).map Task.cancel else w.tasks i }
    | _ => none
  | .waited =>
    match w.shutdown with
    | .waiting pending => some { w with shutdown := .next (pending.filter w.marks) }
    | _ => none
  | .mark =>
    match w.shutdown with
    | .marking (i :: rest) =>
      match w.db.rows i with
      | none => some { w with shutdown := .next rest }
      | some row => some { w with shutdown := if row.status.terminal then .next rest else .writing i rest }
    | .writing i rest =>
      match w.db.rows i with
      | none => some { w with shutdown := .raised }
      | some _ => some { w with shutdown := .next rest, db := w.db.write i (.failed "vision_cancelled") }
    | _ => none
  | .abortShutdown =>
    match w.shutdown with
    | .waiting _ | .marking _ | .writing _ _ => some { w with shutdown := .raised }
    | _ => none

def noAssets : Db := ⟨fun _ => false,fun _ => none,fun _ _ h => by cases h⟩

/-- The service after its start, over the rows that an earlier process has left. -/
def initial (db : Db) : World := ⟨db.recoverStale,fun _ => none,fun _ => none,[],[],.notCalled⟩

end AgentGraph.Vision.Analysis
