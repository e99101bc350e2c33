import AgentGraph.Recovery.Ledger

/-! # The assessment of checkpoint rows with any contents

The state column of a checkpoint is read as it stands: any JSON value, or a text that does
not decode. `_checkpoint_is_valid` runs outside the handler of the database reads, and the
membership test of the run status raises on a list or an object, so the session of
`recover_stale_runs` is followed with an assessment that can raise.
-/
set_option autoImplicit false
namespace AgentGraph

/-- `hash(value)` does not raise. -/
def Json.hashable : Json → Bool
  | .arr _ | .obj _ => false
  | _ => true

namespace Recovery

/-- A `RunCheckpointRecord` as the database holds it; a state that is no JSON text is `none`. -/
structure StoredCheckpoint where
  id : CheckpointId
  runId : RunId
  sequence : Nat
  formatVersion : Int
  reason : CheckpointReason
  state : Option Json
  checksum : String

/-- The tables of `Database`, with the checkpoint rows as they are stored. -/
structure StoredDatabase where
  agents : AgentId → Option AgentRecord
  runs : RunId → Option RunRecord
  checkpoints : List StoredCheckpoint
  delegations : List DelegationRecord
  actions : List ActionRecord
  decisions : List DecisionRecord
  nextId : Nat

/-- The row `create_checkpoint` writes. -/
def storedRow (checkpoint : CheckpointRecord) : StoredCheckpoint :=
  { id := checkpoint.id, runId := checkpoint.runId, sequence := checkpoint.sequence,
    formatVersion := checkpoint.formatVersion, reason := checkpoint.reason,
    state := some (.obj checkpoint.state), checksum := checkpoint.checksum }

/-- A database all of whose checkpoints were written by the service. -/
def Database.stored (db : Database) : StoredDatabase :=
  { agents := db.store.agents, runs := db.store.runs, checkpoints := db.store.checkpoints.map storedRow,
    delegations := db.store.delegations, actions := db.actions, decisions := db.decisions,
    nextId := db.store.nextId }

/-- `value not in {status.value for status in RunStatus}`, which hashes the value first. -/
def notInRunStatuses (value : Json) : Except Exc Bool :=
  if value.hashable then .ok (!isRunStatus value) else .error (.other "TypeError")

/-- `_checkpoint_is_valid` behind its `isinstance` test. -/
def objectIsValid (cfg : Config) (r : RunId) (checkpoint : StoredCheckpoint) (state : JsonObject) : Except Exc Bool :=
  if checkpoint.formatVersion != (checkpointFormatVersion : Int) ||
      !(state.get "format_version").equalsInt checkpointFormatVersion then .ok false
  else if !(state.get "run_id").equalsStr (cfg.idText r) || (state.get "execution_spec").dict?.isNone then .ok false
  else do
    let unknown ← notInRunStatuses (state.get "run_status")
    if unknown then pure false else pure (checkpoint.checksum == cfg.checkpointChecksum state)

/-- `_checkpoint_is_valid` on a decoded state. -/
def storedIsValid (cfg : Config) (r : RunId) (checkpoint : StoredCheckpoint) (state : Json) : Except Exc Bool :=
  match state.dict? with
  | none => .ok false
  | some state => objectIsValid cfg r checkpoint state

/-- The part of `_recovery_outcome` behind the two tests of the checkpoint. -/
def ledgerOutcome (actions : List ActionRecord) : RecoveryOutcome × JsonObject :=
  let uncertain := (actions.filter fun entry => entry.status.unresolved).map ActionRecord.actionType
  if !uncertain.isEmpty then
    (.blockedUncertainAction,
      [("reason",.str "An external action may have occurred before the interruption."),
        ("uncertain_actions",.arr (uncertain.map .str))])
  else
    (.stoppedNoReplay,
      [("reason",.str "No uncertain action was recorded; automatic replay remains disabled.")])

namespace StoredDatabase

def checkpointsOf (db : StoredDatabase) (r : RunId) : List StoredCheckpoint :=
  db.checkpoints.filter fun c => c.runId == r

def actionsOf (db : StoredDatabase) (r : RunId) : List ActionRecord :=
  db.actions.filter fun entry => entry.runId == r

/-- The row `RecoveryRepository.latest_checkpoint` selects. -/
def latestCheckpoint (db : StoredDatabase) (r : RunId) : Option StoredCheckpoint :=
  (db.checkpointsOf r).argmax StoredCheckpoint.sequence

/-- `_assess_stale_run`: only the reads are inside its handler. -/
def assessStaleRun (cfg : Config) (db : StoredDatabase) (r : RunId) :
    Except Exc (Option StoredCheckpoint × RecoveryOutcome × JsonObject) :=
  match db.latestCheckpoint r with
  | none =>
    .ok (none,.blockedNoCheckpoint,[("reason",.str "No durable checkpoint exists for this interrupted run.")])
  | some checkpoint =>
    match checkpoint.state with
    | none =>
      .ok (none,.blockedCorruptCheckpoint,[("reason",.str "A checkpoint could not be decoded or validated.")])
    | some state => do
      let valid ← storedIsValid cfg r checkpoint state
      if !valid then
        pure (some checkpoint,.blockedCorruptCheckpoint,
          [("reason",.str "The latest checkpoint failed integrity validation.")])
      else pure (some checkpoint,ledgerOutcome (db.actionsOf r))

/-- The row of `create_lifecycle_checkpoint` in one turn. -/
def terminalCheckpoint (cfg : Config) (db : StoredDatabase) (r : RunId) (run : RunRecord) : CheckpointRecord :=
  let state := checkpointState cfg r (run.executionSpec.getD (.obj [])) .failed
  { id := db.nextId + 1, runId := r,
    sequence := (db.checkpointsOf r).foldl (fun m c => max m c.sequence) 0 + 1,
    formatVersion := checkpointFormatVersion, reason := .failed, state := state,
    checksum := cfg.checkpointChecksum state }

/-- One turn of the loop of `recover_stale_runs`. -/
def recoverRun (cfg : Config) (now : Instant) (db : StoredDatabase) (r : RunId) (run : RunRecord) :
    Except Exc (StoredDatabase × Recovered) := do
  let assessment ← db.assessStaleRun cfg r
  let terminal := db.terminalCheckpoint cfg r run
  let after : StoredDatabase := { db with
    decisions := db.decisions ++
      [⟨db.nextId,r,assessment.1.map StoredCheckpoint.id,assessment.2.1,assessment.2.2⟩]
    runs := Function.update db.runs r (some (interruptRun now run))
    agents := Function.update db.agents run.agentId
      ((db.agents run.agentId).map fun agent => { agent with status := .error })
    checkpoints := db.checkpoints ++ [storedRow terminal]
    nextId := db.nextId + 2 }
  pure (after,⟨r,assessment.2.1,some terminal⟩)

/-- The loop over the rows of `list_stale`, up to its commit. -/
def recoverLoop (cfg : Config) (clock : RunId → Instant) :
    List RunId → StoredDatabase → Except Exc (StoredDatabase × List Recovered)
  | [], db => .ok (db,[])
  | r :: rest, db =>
    match db.runs r with
    | none => recoverLoop cfg clock rest db
    | some run => do
      let turn ← db.recoverRun cfg (clock r) r run
      let result ← recoverLoop cfg clock rest turn.1
      pure (result.1,turn.2 :: result.2)

/-- `recover_stale_runs`: an exception rolls its session back. -/
def recoverStaleRuns (cfg : Config) (clock : RunId → Instant) (stale : List RunId) (db : StoredDatabase) :
    Except Exc Unit × StoredDatabase × List RecoveryEvent :=
  match recoverLoop cfg clock stale db with
  | .error error => (.error error,db,[])
  | .ok (committed,recovered) =>
    (.ok (),committed,if cfg.events then recovered.flatMap Recovered.publish else [])

end StoredDatabase

/-- The checks in front of the membership test pass on the row, whose state is `state`. -/
structure StoredCheckpoint.Addressed (cfg : Config) (r : RunId) (checkpoint : StoredCheckpoint) (state : JsonObject) :
    Prop where
  decoded : checkpoint.state = some (.obj state)
  version : checkpoint.formatVersion = (checkpointFormatVersion : Int)
  stateVersion : (state.get "format_version").equalsInt checkpointFormatVersion = true
  runId : state.get "run_id" = .str (cfg.idText r)
  executionSpec : ∃ spec, state.get "execution_spec" = .obj spec

/-- What a checkpoint of the run has to be. -/
structure StoredCheckpoint.WellFormed (cfg : Config) (r : RunId) (checkpoint : StoredCheckpoint) (state : JsonObject) :
    Prop extends checkpoint.Addressed cfg r state where
  runStatus : ∃ status : RunStatus, state.get "run_status" = .str status.value
  checksum : checkpoint.checksum = cfg.checkpointChecksum state

/-- An otherwise readable checkpoint whose run status is a list or an object. -/
def StoredCheckpoint.UnhashableStatus (cfg : Config) (r : RunId) (checkpoint : StoredCheckpoint) : Prop :=
  ∃ state, checkpoint.Addressed cfg r state ∧ (JsonObject.get state "run_status").hashable = false

theorem isRunStatus_iff {value : Json} :
    isRunStatus value = true ↔ ∃ status : RunStatus, value = .str status.value := by
  constructor
  · intro h
    cases value with
    | str text =>
      obtain ⟨status,-,hstatus⟩ := List.any_eq_true.mp h
      exact ⟨status,by rw [eq_of_beq hstatus]⟩
    | _ => cases h
  · rintro ⟨status,rfl⟩
    cases status <;> decide

section Validity
variable {cfg : Config} {r : RunId} {checkpoint : StoredCheckpoint} {state : JsonObject}

/-- The membership test is reached exactly on an addressed row. -/
theorem objectIsValid_of_addressed (h : checkpoint.Addressed cfg r state) :
    objectIsValid cfg r checkpoint state =
      (notInRunStatuses (state.get "run_status")).map fun unknown =>
        if unknown then false else checkpoint.checksum == cfg.checkpointChecksum state := by
  obtain ⟨spec,hspec⟩ := h.executionSpec
  have hrun : (state.get "run_id").equalsStr (cfg.idText r) = true := Json.equalsStr_iff.mpr h.runId
  simp only [objectIsValid, h.version, h.stateVersion, hrun, hspec, Json.dict?]
  cases hstatus : notInRunStatuses (state.get "run_status") with
  | error error => simp [Except.map, bind, Except.bind]
  | ok unknown => cases unknown <;> simp [Except.map, bind, Except.bind, pure, Except.pure]

/-- A row that passes the first two tests is addressed. -/
theorem addressed_of_checks (hdecoded : checkpoint.state = some (.obj state))
    (hversion : ¬ (checkpoint.formatVersion != (checkpointFormatVersion : Int) ||
      !(state.get "format_version").equalsInt checkpointFormatVersion) = true)
    (hrun : ¬ (!(state.get "run_id").equalsStr (cfg.idText r) || (state.get "execution_spec").dict?.isNone) = true) :
    checkpoint.Addressed cfg r state := by
  simp only [Bool.or_eq_true, bne_iff_ne, ne_eq, Bool.not_eq_true', not_or, not_not, Bool.not_eq_false] at hversion
  simp only [Bool.or_eq_true, Bool.not_eq_true', not_or, Bool.not_eq_false, Option.isNone_iff_eq_none] at hrun
  obtain ⟨spec,hspec⟩ := Option.ne_none_iff_exists'.mp hrun.2
  exact ⟨hdecoded,hversion.1,hversion.2,Json.equalsStr_iff.mp hrun.1,spec,Json.dict?_eq_some.mp hspec⟩

theorem objectIsValid_of_not_addressed (hdecoded : checkpoint.state = some (.obj state))
    (h : ¬ checkpoint.Addressed cfg r state) : objectIsValid cfg r checkpoint state = .ok false := by
  unfold objectIsValid
  by_cases hversion : checkpoint.formatVersion != (checkpointFormatVersion : Int) ||
      !(state.get "format_version").equalsInt checkpointFormatVersion
  · rw [if_pos hversion]
  · by_cases hrun : !(state.get "run_id").equalsStr (cfg.idText r) || (state.get "execution_spec").dict?.isNone
    · rw [if_neg hversion, if_pos hrun]
    · exact absurd (addressed_of_checks hdecoded hversion hrun) h

/-- A hashable run status makes the validation an ordinary test of the whole row. -/
theorem objectIsValid_eq (hdecoded : checkpoint.state = some (.obj state)) (h : ¬ checkpoint.UnhashableStatus cfg r) :
    ∃ valid, objectIsValid cfg r checkpoint state = .ok valid ∧
      (valid = true ↔ checkpoint.WellFormed cfg r state) := by
  by_cases haddressed : checkpoint.Addressed cfg r state
  · have hhash : (JsonObject.get state "run_status").hashable = true := by
      by_contra hn
      exact h ⟨state,haddressed,by simpa using hn⟩
    refine ⟨_,by rw [objectIsValid_of_addressed haddressed, notInRunStatuses, if_pos hhash, Except.map],?_⟩
    by_cases hstatus : isRunStatus (state.get "run_status") = true
    · rw [hstatus]
      constructor
      · intro hsum
        exact ⟨haddressed,isRunStatus_iff.mp hstatus,by simpa using hsum⟩
      · intro hform
        simpa using hform.checksum
    · rw [Bool.not_eq_true] at hstatus
      rw [hstatus]
      constructor
      · intro hsum
        simp at hsum
      · intro hform
        rw [isRunStatus_iff.mpr hform.runStatus] at hstatus
        cases hstatus
  · refine ⟨false,objectIsValid_of_not_addressed hdecoded haddressed,?_⟩
    constructor
    · intro hfalse
      cases hfalse
    · intro hform
      exact absurd hform.toAddressed haddressed

end Validity

/-- The assessment returns, calls a run safe to stop only on a whole checkpoint and a
settled ledger, and blocks on every other checkpoint. -/
def StoredDatabase.AssessesConservatively (cfg : Config) (db : StoredDatabase) (r : RunId) : Prop :=
  ∃ checkpoint outcome details, db.assessStaleRun cfg r = .ok (checkpoint,outcome,details) ∧
    (outcome = .stoppedNoReplay →
      (∃ row state, db.latestCheckpoint r = some row ∧ row.WellFormed cfg r state) ∧
        ∀ entry ∈ db.actionsOf r, entry.status.unresolved = false) ∧
    ∀ row, db.latestCheckpoint r = some row → (¬ ∃ state, row.WellFormed cfg r state) →
      outcome = .blockedCorruptCheckpoint

/-- The condition on the row a stale run is assessed from. -/
def StoredDatabase.StatusHashable (cfg : Config) (db : StoredDatabase) (r : RunId) : Prop :=
  ∀ row, db.latestCheckpoint r = some row → ¬ row.UnhashableStatus cfg r

section Assessment
variable {cfg : Config} {db : StoredDatabase} {r : RunId}

theorem ledgerOutcome_stopped {actions : List ActionRecord} (h : (ledgerOutcome actions).1 = .stoppedNoReplay) :
    ∀ entry ∈ actions, entry.status.unresolved = false := by
  intro entry hentry
  by_contra hunresolved
  have hmem : entry ∈ actions.filter fun entry => entry.status.unresolved :=
    List.mem_filter.mpr ⟨hentry,by simpa using hunresolved⟩
  have hne : ((actions.filter fun entry => entry.status.unresolved).map ActionRecord.actionType).isEmpty = false := by
    rw [List.isEmpty_eq_false_iff]
    exact List.ne_nil_of_mem (List.mem_map_of_mem hmem)
  simp only [ledgerOutcome, hne] at h
  cases h

theorem assessStaleRun_error {row : StoredCheckpoint} (hlatest : db.latestCheckpoint r = some row)
    (h : row.UnhashableStatus cfg r) : db.assessStaleRun cfg r = .error (.other "TypeError") := by
  obtain ⟨state,haddressed,hhash⟩ := h
  have hvalid : storedIsValid cfg r row (.obj state) = .error (.other "TypeError") := by
    simp only [storedIsValid, Json.dict?, objectIsValid_of_addressed haddressed, notInRunStatuses, hhash]
    rfl
  simp only [StoredDatabase.assessStaleRun, hlatest, haddressed.decoded, hvalid]
  rfl

/-- A row that is decoded and hashable is assessed by its validity. -/
theorem assessStaleRun_of_valid {row : StoredCheckpoint} {state : Json} {valid : Bool}
    (hlatest : db.latestCheckpoint r = some row) (hstate : row.state = some state)
    (hvalid : storedIsValid cfg r row state = .ok valid) : db.assessStaleRun cfg r =
      .ok (some row,if valid then ledgerOutcome (db.actionsOf r) else
        (.blockedCorruptCheckpoint,[("reason",.str "The latest checkpoint failed integrity validation.")])) := by
  simp only [StoredDatabase.assessStaleRun, hlatest, hstate, hvalid]
  cases valid <;> rfl

theorem storedIsValid_eq {row : StoredCheckpoint} {state : Json} (hstate : row.state = some state)
    (h : ¬ row.UnhashableStatus cfg r) :
    ∃ valid, storedIsValid cfg r row state = .ok valid ∧
      (valid = true ↔ ∃ fields, row.WellFormed cfg r fields) := by
  cases hdict : state.dict? with
  | none =>
    refine ⟨false,by simp only [storedIsValid, hdict],?_⟩
    constructor
    · intro hfalse
      cases hfalse
    · rintro ⟨fields,hform⟩
      rw [hform.decoded] at hstate
      obtain rfl := Option.some.inj hstate
      cases hdict
  | some fields =>
    obtain rfl := Json.dict?_eq_some.mp hdict
    obtain ⟨valid,hvalid,hiff⟩ := objectIsValid_eq hstate h
    refine ⟨valid,by simp only [storedIsValid, Json.dict?, hvalid],hiff.trans ?_⟩
    constructor
    · intro hform
      exact ⟨fields,hform⟩
    · rintro ⟨other,hform⟩
      have hsame := hform.decoded
      rw [hstate] at hsame
      obtain rfl : fields = other := by simpa using hsame
      exact hform

/-- One run is assessed conservatively exactly when its row has a hashable run status. -/
theorem assessesConservatively_iff : db.AssessesConservatively cfg r ↔ db.StatusHashable cfg r := by
  constructor
  · rintro ⟨checkpoint,outcome,details,hassess,-⟩ row hlatest hunhashable
    rw [assessStaleRun_error hlatest hunhashable] at hassess
    cases hassess
  · intro h
    cases hlatest : db.latestCheckpoint r with
    | none =>
      refine ⟨_,_,_,by simp only [StoredDatabase.assessStaleRun, hlatest]; rfl,?_,?_⟩
      · intro hout
        cases hout
      · intro row hrow
        simp [hlatest] at hrow
    | some row =>
      have hhash := h row hlatest
      cases hstate : row.state with
      | none =>
        refine ⟨_,_,_,by simp only [StoredDatabase.assessStaleRun, hlatest, hstate]; rfl,?_,fun _ _ _ => rfl⟩
        intro hout
        cases hout
      | some state =>
        obtain ⟨valid,hvalid,hiff⟩ := storedIsValid_eq hstate hhash
        have hassess := assessStaleRun_of_valid hlatest hstate hvalid
        cases valid with
        | true =>
          obtain ⟨fields,hform⟩ := hiff.mp rfl
          refine ⟨_,_,_,hassess,?_,?_⟩
          · intro hout
            exact ⟨⟨row,fields,hlatest,hform⟩,ledgerOutcome_stopped hout⟩
          · intro other hother hmalformed
            obtain rfl : row = other := by simpa [hlatest] using hother
            exact absurd ⟨fields,hform⟩ hmalformed
        | false =>
          refine ⟨_,_,_,hassess,?_,fun _ _ _ => rfl⟩
          intro hout
          cases hout

end Assessment

/-- The distinct rows `list_stale` returns. -/
structure StoredDatabase.ListsStale (db : StoredDatabase) (stale : List RunId) : Prop where
  nodup : stale.Nodup
  active : ∀ r ∈ stale, ∃ run, db.runs r = some run ∧ run.status.active = true

/-- Every listed run is stopped. -/
def StoredDatabase.AllFailed (db : StoredDatabase) (stale : List RunId) : Prop :=
  ∀ r ∈ stale, ∃ run, db.runs r = some run ∧ run.status = .failed

section Session
variable {cfg : Config} {clock : RunId → Instant} {db : StoredDatabase} {r : RunId} {run : RunRecord} {now : Instant}

theorem recoverRun_eq (now : Instant) (run : RunRecord)
    {assessment : Option StoredCheckpoint × RecoveryOutcome × JsonObject}
    (h : db.assessStaleRun cfg r = .ok assessment) :
    ∃ turn, db.recoverRun cfg now r run = .ok turn ∧
      turn.1.runs = Function.update db.runs r (some (interruptRun now run)) ∧
        turn.1.checkpoints = db.checkpoints ++ [storedRow (db.terminalCheckpoint cfg r run)] := by
  simp only [StoredDatabase.recoverRun, h]
  exact ⟨_,rfl,rfl,rfl⟩

/-- A turn leaves the checkpoint another run is assessed from. -/
theorem latestCheckpoint_of_append {after : StoredDatabase} {checkpoint : CheckpointRecord} {q : RunId}
    (h : after.checkpoints = db.checkpoints ++ [storedRow checkpoint]) (hq : checkpoint.runId ≠ q) :
    after.latestCheckpoint q = db.latestCheckpoint q := by
  have hrow : ((storedRow checkpoint).runId == q) = false := by simpa [storedRow] using hq
  simp only [StoredDatabase.latestCheckpoint, StoredDatabase.checkpointsOf, h, List.filter_append, List.filter_cons,
    hrow, Bool.false_eq_true, if_false, List.filter_nil, List.append_nil]

/-- After the turn of the first run the others are still listed, and assessed from the same
rows. -/
theorem StoredDatabase.ListsStale.turn (cfg : Config) {after : StoredDatabase} {checkpoint : CheckpointRecord} {stopped : RunRecord}
    {rest : List RunId} (lists : db.ListsStale (r :: rest)) (hruns : after.runs = Function.update db.runs r (some stopped))
    (hcheckpoints : after.checkpoints = db.checkpoints ++ [storedRow checkpoint]) (hr : checkpoint.runId = r) :
    after.ListsStale rest ∧ ∀ q ∈ rest, (after.StatusHashable cfg q ↔ db.StatusHashable cfg q) := by
  obtain ⟨hnew,hnodup⟩ := List.nodup_cons.mp lists.nodup
  have hother : ∀ q ∈ rest, q ≠ r := by
    intro q hq he
    exact hnew (he ▸ hq)
  refine ⟨⟨hnodup,fun q hq => ?_⟩,fun q hq => ?_⟩
  · rw [hruns, Function.update_of_ne (hother q hq)]
    exact lists.active q (List.mem_cons_of_mem _ hq)
  · rw [StoredDatabase.StatusHashable, StoredDatabase.StatusHashable,
      latestCheckpoint_of_append hcheckpoints (hr.symm ▸ (hother q hq).symm)]

theorem statusHashable_assess (h : db.StatusHashable cfg r) :
    ∃ assessment, db.assessStaleRun cfg r = .ok assessment := by
  obtain ⟨checkpoint,outcome,details,hassess,-⟩ := assessesConservatively_iff.mpr h
  exact ⟨_,hassess⟩

/-- The loop reaches its commit when every row it assesses is hashable, and stops every run. -/
theorem recoverLoop_stored (clock : RunId → Instant) {stale : List RunId} (lists : db.ListsStale stale)
    (h : ∀ r ∈ stale, db.StatusHashable cfg r) :
    ∃ result, StoredDatabase.recoverLoop cfg clock stale db = .ok result ∧ result.1.AllFailed stale ∧
      ∀ q, q ∉ stale → result.1.runs q = db.runs q := by
  induction stale generalizing db with
  | nil => exact ⟨_,rfl,by simp [StoredDatabase.AllFailed],fun _ _ => rfl⟩
  | cons r rest ih =>
    obtain ⟨run,hrow,hactive⟩ := lists.active r (by simp)
    have hr : r ∉ rest := (List.nodup_cons.mp lists.nodup).1
    obtain ⟨assessment,hassess⟩ := statusHashable_assess (h r (by simp))
    obtain ⟨turn,hturn,hruns,hcheckpoints⟩ := recoverRun_eq (clock r) run hassess
    obtain ⟨hlists,hsame⟩ := lists.turn cfg hruns hcheckpoints rfl
    have hhash : ∀ q ∈ rest, turn.1.StatusHashable cfg q :=
      fun q hq => (hsame q hq).mpr (h q (List.mem_cons_of_mem _ hq))
    obtain ⟨result,hresult,hfailed,hkept⟩ := ih hlists hhash
    refine ⟨(result.1,turn.2 :: result.2),by simp [StoredDatabase.recoverLoop, hrow, hturn, hresult, pure, Except.pure],
      ?_,fun q hq => ?_⟩
    · intro q hq
      rcases List.mem_cons.mp hq with rfl | hq
      · refine ⟨interruptRun (clock q) run,?_,rfl⟩
        rw [hkept q hr, hruns, Function.update_self]
      · exact hfailed q hq
    · simp only [List.mem_cons, not_or] at hq
      rw [hkept q hq.2, hruns, Function.update_of_ne hq.1]

/-- A loop that reaches its commit has assessed every row. -/
theorem recoverLoop_assessed {stale : List RunId} (lists : db.ListsStale stale)
    {result : StoredDatabase × List Recovered} (h : StoredDatabase.recoverLoop cfg clock stale db = .ok result) :
    ∀ r ∈ stale, db.StatusHashable cfg r := by
  induction stale generalizing db result with
  | nil => simp
  | cons r rest ih =>
    obtain ⟨run,hrow,hactive⟩ := lists.active r (by simp)
    simp only [StoredDatabase.recoverLoop, hrow, except_bind_eq_ok] at h
    obtain ⟨turn,hturn,inner,hinner,-⟩ := h
    have hfirst : db.StatusHashable cfg r := by
      intro row hlatest hunhashable
      rw [StoredDatabase.recoverRun, assessStaleRun_error hlatest hunhashable] at hturn
      cases hturn
    obtain ⟨assessment,hassess⟩ := statusHashable_assess hfirst
    obtain ⟨turn',hturn',hruns,hcheckpoints⟩ := recoverRun_eq (clock r) run hassess
    obtain rfl : turn' = turn := by simpa [hturn'] using hturn
    obtain ⟨hlists,hsame⟩ := lists.turn cfg hruns hcheckpoints rfl
    intro q hq
    rcases List.mem_cons.mp hq with rfl | hq
    · exact hfirst
    · exact (hsame q hq).mp (ih hlists hinner q hq)

theorem recoverStaleRuns_ok_iff {stale : List RunId} (lists : db.ListsStale stale) :
    (StoredDatabase.recoverStaleRuns cfg clock stale db).1 = .ok () ∧
      (StoredDatabase.recoverStaleRuns cfg clock stale db).2.1.AllFailed stale ↔
        ∀ r ∈ stale, db.StatusHashable cfg r := by
  constructor
  · rintro ⟨hok,-⟩
    cases hloop : StoredDatabase.recoverLoop cfg clock stale db with
    | error error => simp [StoredDatabase.recoverStaleRuns, hloop] at hok
    | ok result => exact recoverLoop_assessed lists hloop
  · intro h
    obtain ⟨result,hresult,hfailed,-⟩ := recoverLoop_stored clock lists h
    have hrun : StoredDatabase.recoverStaleRuns cfg clock stale db =
        (.ok (),result.1,if cfg.events then result.2.flatMap Recovered.publish else []) := by
      simp only [StoredDatabase.recoverStaleRuns, hresult]
    rw [hrun]
    exact ⟨rfl,hfailed⟩

end Session

section Written
variable {cfg : Config} {db : Database} {r : RunId} {run : RunRecord} {now : Instant}

theorem argmax_map {α β : Type} {f : α → β} {g : β → Nat} (xs : List α) :
    (xs.map f).argmax g = (xs.argmax (g ∘ f)).map f := by
  induction xs with
  | nil => rfl
  | cons x xs ih =>
    simp only [List.map_cons, List.argmax_cons, ih]
    cases xs.argmax (g ∘ f) with
    | none => rfl
    | some y =>
      simp only [Option.map_some, Function.comp_apply]
      split <;> rfl

theorem stored_checkpointsOf : db.stored.checkpointsOf r = (db.store.checkpointsOf r).map storedRow := by
  simp only [StoredDatabase.checkpointsOf, Database.stored, Store.checkpointsOf, List.filter_map]
  rfl

theorem stored_latestCheckpoint : db.stored.latestCheckpoint r = (latestCheckpoint db.store r).map storedRow := by
  rw [StoredDatabase.latestCheckpoint, stored_checkpointsOf, argmax_map]
  rfl

/-- On a row the service wrote, a hashable run status makes the two validations agree. -/
theorem objectIsValid_storedRow {checkpoint : CheckpointRecord} (h : ¬ (storedRow checkpoint).UnhashableStatus cfg r) :
    objectIsValid cfg r (storedRow checkpoint) checkpoint.state = .ok (checkpointIsValid cfg r checkpoint) := by
  have hversion : ((storedRow checkpoint).formatVersion != (checkpointFormatVersion : Int)) =
      (checkpoint.formatVersion != checkpointFormatVersion) := by
    rw [Bool.eq_iff_iff, bne_iff_ne, bne_iff_ne]
    exact not_congr Int.ofNat_inj
  have haddressed := @addressed_of_checks cfg r (storedRow checkpoint) checkpoint.state rfl
  unfold objectIsValid checkpointIsValid
  simp only [hversion] at haddressed ⊢
  by_cases hfirst : checkpoint.formatVersion != checkpointFormatVersion ||
      !(checkpoint.state.get "format_version").equalsInt checkpointFormatVersion
  · rw [if_pos hfirst, if_pos hfirst]
  · rw [if_neg hfirst, if_neg hfirst]
    by_cases hsecond : !(checkpoint.state.get "run_id").equalsStr (cfg.idText r) ||
        (checkpoint.state.get "execution_spec").dict?.isNone
    · rw [if_pos hsecond, if_pos hsecond]
    · have hhash : (JsonObject.get checkpoint.state "run_status").hashable = true := by
        by_contra hn
        exact h ⟨_,haddressed hfirst hsecond,by simpa using hn⟩
      rw [if_neg hsecond, if_neg hsecond, notInRunStatuses, if_pos hhash]
      cases isRunStatus (checkpoint.state.get "run_status") <;> rfl

/-- The assessment of a database the service wrote is the one of `Database`. -/
theorem stored_assessStaleRun (h : db.stored.StatusHashable cfg r) : db.stored.assessStaleRun cfg r =
    .ok ((assessStaleRun cfg db r).1.map storedRow,(assessStaleRun cfg db r).2) := by
  cases hlatest : latestCheckpoint db.store r with
  | none =>
    simp only [StoredDatabase.assessStaleRun, stored_latestCheckpoint, assessStaleRun, hlatest]
    rfl
  | some checkpoint =>
    have hrow : db.stored.latestCheckpoint r = some (storedRow checkpoint) := by
      rw [stored_latestCheckpoint, hlatest, Option.map_some]
    have hvalid := objectIsValid_storedRow (h _ hrow)
    have hstored : storedIsValid cfg r (storedRow checkpoint) (.obj checkpoint.state) =
        .ok (checkpointIsValid cfg r checkpoint) := by
      simp only [storedIsValid, Json.dict?, hvalid]
    rw [assessStaleRun_of_valid hrow rfl hstored]
    simp only [assessStaleRun, hlatest, recoveryOutcome, Option.map_some]
    cases checkpointIsValid cfg r checkpoint <;> rfl

/-- The service itself writes only rows that are assessed without an exception. -/
theorem storedRow_hashable {checkpoint : CheckpointRecord} {q : RunId} {spec : Json} {status : RunStatus}
    (h : checkpoint.state = checkpointState cfg q spec status) : ¬ (storedRow checkpoint).UnhashableStatus cfg r := by
  rintro ⟨state,haddressed,hhash⟩
  have hstate : checkpoint.state = state := by simpa [storedRow] using haddressed.decoded
  have hvalue : JsonObject.get state "run_status" = .str status.value := by
    rw [← hstate, h]
    rfl
  rw [hvalue] at hhash
  cases hhash

/-- The checkpoint of a turn is the one `createCheckpoint` appends. -/
theorem stored_terminalCheckpoint : (recoverRun cfg now db r run).1.store.checkpoints =
    db.store.checkpoints ++ [db.stored.terminalCheckpoint cfg r run] := by
  have hsequence : ((db.store.checkpointsOf r).map storedRow).foldl (fun m c => max m c.sequence) 0 =
      (db.store.checkpointsOf r).foldl (fun m c => max m c.sequence) 0 := by
    rw [List.foldl_map]
    rfl
  rw [StoredDatabase.terminalCheckpoint, stored_checkpointsOf, hsequence]
  rfl

/-- One turn on a database the service wrote is the turn of `Database`. -/
theorem stored_recoverRun (now : Instant) (hrow : db.store.runs r = some run) (h : db.stored.StatusHashable cfg r) :
    db.stored.recoverRun cfg now r run =
      .ok ((recoverRun cfg now db r run).1.stored,(recoverRun cfg now db r run).2) := by
  have hid : ((assessStaleRun cfg db r).1.map storedRow).map StoredCheckpoint.id =
      (assessStaleRun cfg db r).1.map CheckpointRecord.id := by
    rw [Option.map_map]
    rfl
  have hlast : (recoverRun cfg now db r run).2 =
      ⟨r,(assessStaleRun cfg db r).2.1,some (db.stored.terminalCheckpoint cfg r run)⟩ := by
    have hgetLast : (recoverRun cfg now db r run).2.terminalCheckpoint =
        (recoverRun cfg now db r run).1.store.checkpoints.getLast? := rfl
    rw [stored_terminalCheckpoint, List.getLast?_concat] at hgetLast
    rw [← hgetLast]
    rfl
  rw [hlast]
  simp only [StoredDatabase.recoverRun, stored_assessStaleRun h, bind, Except.bind, hid]
  simp only [Database.stored, stored_terminalCheckpoint, recoverRun_runs hrow, recoverRun_agents, List.map_append]
  rfl

/-- Recovery of a database the service wrote is the recovery of `Database`. -/
theorem stored_recoverStaleRuns {clock : RunId → Instant} {stale : List RunId} (lists : db.stored.ListsStale stale)
    (h : ∀ r ∈ stale, db.stored.StatusHashable cfg r) :
    StoredDatabase.recoverStaleRuns cfg clock stale db.stored =
      ((recoverStaleRuns cfg clock none stale db).1,(recoverStaleRuns cfg clock none stale db).2.1.stored,
        (recoverStaleRuns cfg clock none stale db).2.2) := by
  have hloop : ∃ result, recoverLoop cfg clock none stale db = .ok result ∧
      StoredDatabase.recoverLoop cfg clock stale db.stored = .ok (result.1.stored,result.2) := by
    induction stale generalizing db with
    | nil => exact ⟨_,rfl,rfl⟩
    | cons r rest ih =>
      obtain ⟨run,hrow,-⟩ := lists.active r (by simp)
      have hrow' : db.store.runs r = some run := hrow
      have hturn := stored_recoverRun (clock r) hrow' (h r (by simp))
      have happend : (recoverRun cfg (clock r) db r run).1.stored.checkpoints =
          db.stored.checkpoints ++ [storedRow (db.stored.terminalCheckpoint cfg r run)] := by
        simp only [Database.stored, stored_terminalCheckpoint, List.map_append, List.map_cons, List.map_nil]
      obtain ⟨hlists,hsame⟩ := lists.turn cfg (recoverRun_runs hrow') happend rfl
      obtain ⟨result,hresult,hstored⟩ := ih hlists fun q hq => (hsame q hq).mpr (h q (List.mem_cons_of_mem _ hq))
      refine ⟨(result.1,(recoverRun cfg (clock r) db r run).2 :: result.2),?_,?_⟩
      · simp only [recoverLoop, hrow', Option.map_none, hresult]
        rfl
      · simp only [StoredDatabase.recoverLoop, hrow, hturn, Except.bind, bind, hstored]
        rfl
  obtain ⟨result,hresult,hstored⟩ := hloop
  simp only [StoredDatabase.recoverStaleRuns, recoverStaleRuns, hresult, hstored]

end Written

/-- Startup recovery assesses each run conservatively, and gets through all of them, exactly
when no row it reads hides a list or an object behind the run status. -/
theorem recoverStaleRuns_survives_iff (cfg : Config) (clock : RunId → Instant) (db : StoredDatabase)
    (stale : List RunId) (lists : db.ListsStale stale) :
    (∀ r, db.AssessesConservatively cfg r ↔ db.StatusHashable cfg r) ∧
      ((StoredDatabase.recoverStaleRuns cfg clock stale db).1 = .ok () ∧
        (StoredDatabase.recoverStaleRuns cfg clock stale db).2.1.AllFailed stale ↔
          ∀ r ∈ stale, db.StatusHashable cfg r) :=
  ⟨fun _ => assessesConservatively_iff,recoverStaleRuns_ok_iff lists⟩

/-- Settings under which two runs named by their numbers are recovered. -/
def damagedConfig : Config :=
  { parseUuid := fun _ => none, idText := toString, sha256 := id, checkpointChecksum := fun _ => "sum",
    maxWorkers := 8, maxParallel := 2, maxDepth := 3, maxContextChars := 24000, runtimeDelay := false,
    recovery := true, events := true }

/-- A row whose run status is the given value. -/
def damagedRow (r : RunId) (runStatus : Json) : StoredCheckpoint :=
  { id := 10 + r, runId := r, sequence := 1, formatVersion := 1, reason := .running, checksum := "sum",
    state := some (.obj [("format_version",.int 1),("run_id",.str (toString r)),("execution_spec",.obj []),
      ("run_status",runStatus)]) }

/-- Two interrupted runs of agent 7; the checkpoint of the first has the given run status. -/
def damagedDatabase (runStatus : Json) : StoredDatabase :=
  { agents := fun _ => none,
    runs := fun r => if r = 1 ∨ r = 2 then some { queuedRun 7 "work" with status := .running } else none,
    checkpoints := [damagedRow 1 runStatus,damagedRow 2 (.str "running")], delegations := [], actions := [],
    decisions := [], nextId := 20 }

theorem damagedDatabase_lists (runStatus : Json) : (damagedDatabase runStatus).ListsStale [1,2] := by
  refine ⟨by decide,fun r hr => ?_⟩
  have hr' : r = 1 ∨ r = 2 := by simpa using hr
  exact ⟨_,if_pos hr',rfl⟩

/-- A run status that is a list stops the recovery of both runs. -/
theorem recoverStaleRuns_raises :
    (damagedDatabase (.arr [])).ListsStale [1,2] ∧
      (damagedDatabase (.arr [])).assessStaleRun damagedConfig 1 = .error (.other "TypeError") ∧
        ∀ clock, (StoredDatabase.recoverStaleRuns damagedConfig clock [1,2] (damagedDatabase (.arr []))).1 =
          .error (.other "TypeError") ∧
            (StoredDatabase.recoverStaleRuns damagedConfig clock [1,2] (damagedDatabase (.arr []))).2.1 =
              damagedDatabase (.arr []) :=
  ⟨damagedDatabase_lists _,rfl,fun _ => ⟨rfl,rfl⟩⟩

theorem recoverStaleRuns_survives_number :
    (∀ r, (damagedDatabase (.int 3)).AssessesConservatively damagedConfig r ↔
      (damagedDatabase (.int 3)).StatusHashable damagedConfig r) ∧
      ((StoredDatabase.recoverStaleRuns damagedConfig (fun _ => 0) [1,2] (damagedDatabase (.int 3))).1 = .ok () ∧
        (StoredDatabase.recoverStaleRuns damagedConfig (fun _ => 0) [1,2] (damagedDatabase (.int 3))).2.1.AllFailed
          [1,2] ↔ ∀ r ∈ [1,2], (damagedDatabase (.int 3)).StatusHashable damagedConfig r) :=
  recoverStaleRuns_survives_iff damagedConfig (fun _ => 0) (damagedDatabase (.int 3)) [1,2] (damagedDatabase_lists _)

end Recovery

end AgentGraph
