import AgentGraph.Recovery.Consistency
import Mathlib.Data.List.Range

/-! # The checkpoint chain of a run

With a recovery service every transaction that writes the status of a run also
appends a checkpoint of it. The chain of a run is therefore the history of its
status, numbered from one, and each entry passes the integrity check.
-/
set_option autoImplicit false
namespace AgentGraph.Recovery
open Transition

/-- The reason under which a status is recorded. -/
def statusReason : RunStatus → CheckpointReason
  | .queued => .created
  | .running => .running
  | .succeeded => .succeeded
  | .failed => .failed
  | .cancelled => .cancelled

/-- The statuses a run can have gone through. -/
inductive History : List RunStatus → Prop
  | queued : History [.queued]
  | running : History [.queued,.running]
  | stopped (status : RunStatus) (h : status.terminal = true) : History [.queued,status]
  | finished (status : RunStatus) (h : status.terminal = true) : History [.queued,.running,status]

theorem History.length_le {history : List RunStatus} (h : History history) : history.length ≤ 3 := by
  cases h <;> simp

/-- An active run has been queued and perhaps marked. -/
theorem History.of_active {history : List RunStatus} (h : History history) {status : RunStatus}
    (hlast : history.getLast? = some status) (hactive : status.active = true) :
    (status = .queued ∧ history = [.queued]) ∨ (status = .running ∧ history = [.queued,.running]) := by
  cases h with
  | queued => exact .inl ⟨(Option.some.inj hlast).symm,rfl⟩
  | running => exact .inr ⟨(Option.some.inj hlast).symm,rfl⟩
  | stopped last hl =>
    obtain rfl : last = status := Option.some.inj hlast
    rw [RunStatus.terminal_eq_false.mpr hactive] at hl
    cases hl
  | finished last hl =>
    obtain rfl : last = status := Option.some.inj hlast
    rw [RunStatus.terminal_eq_false.mpr hactive] at hl
    cases hl

/-- Ending an active run extends its history. -/
theorem History.close {history : List RunStatus} (h : History history) {status last : RunStatus}
    (hlast : history.getLast? = some status) (hactive : status.active = true)
    (hterminal : last.terminal = true) : History (history ++ [last]) := by
  rcases h.of_active hlast hactive with ⟨-,rfl⟩ | ⟨-,rfl⟩
  · exact .stopped last hterminal
  · exact .finished last hterminal

/-- The checkpoint that records a status after the given ones of the same run. -/
def nextCheckpoint (cfg : Config) (id : CheckpointId) (chain : List CheckpointRecord) (r : RunId) (spec : Json)
    (status : RunStatus) : CheckpointRecord :=
  { id := id, runId := r, sequence := chain.foldl (fun m c => max m c.sequence) 0 + 1,
    formatVersion := checkpointFormatVersion, reason := statusReason status,
    state := checkpointState cfg r spec status,
    checksum := cfg.checkpointChecksum (checkpointState cfg r spec status) }

/-- A checkpoint of the run with the given specification and status. -/
structure Records (cfg : Config) (r : RunId) (spec : Json) (c : CheckpointRecord) (status : RunStatus) :
    Prop where
  format : c.formatVersion = checkpointFormatVersion
  reason : c.reason = statusReason status
  state : c.state = checkpointState cfg r spec status
  checksum : c.checksum = cfg.checkpointChecksum c.state

/-- The chain of a run is the history of its status. -/
structure Chain (cfg : Config) (r : RunId) (chain : List CheckpointRecord) (spec : Option Json)
    (status : RunStatus) (history : List RunStatus) : Prop where
  recorded : ∃ fields, spec = some (.obj fields)
  permitted : History history
  last : history.getLast? = some status
  records : List.Forall₂ (Records cfg r (spec.getD (.obj []))) chain history
  sequences : chain.map CheckpointRecord.sequence = List.range' 1 history.length

section State
variable {cfg : Config} {r : RunId} {spec : Json} {status : RunStatus}

@[simp] theorem checkpointState_format :
    JsonObject.get (checkpointState cfg r spec status) "format_version" = .int checkpointFormatVersion := rfl
@[simp] theorem checkpointState_runId :
    JsonObject.get (checkpointState cfg r spec status) "run_id" = .str (cfg.idText r) := rfl
@[simp] theorem checkpointState_spec :
    JsonObject.get (checkpointState cfg r spec status) "execution_spec" = spec := rfl
@[simp] theorem checkpointState_status :
    JsonObject.get (checkpointState cfg r spec status) "run_status" = .str status.value := rfl

theorem isRunStatus_value : isRunStatus (.str status.value) = true := by
  cases status <;> decide

/-- A recorded status passes `_checkpoint_is_valid`. -/
theorem Records.valid {fields : JsonObject} {c : CheckpointRecord} (h : Records cfg r (.obj fields) c status) :
    checkpointIsValid cfg r c = true := by
  simp [checkpointIsValid, h.format, h.state, h.checksum, Json.equalsInt, Json.dict?, isRunStatus_value]

end State

theorem foldl_max_range' (n m : Nat) : (List.range' (m + 1) n).foldl max m = m + n := by
  induction n generalizing m with
  | zero => rfl
  | succ n ih =>
    rw [List.range'_succ, List.foldl_cons, Nat.max_eq_right (Nat.le_succ m), ih (m + 1)]
    omega

theorem Chain.maximum {cfg : Config} {r : RunId} {chain : List CheckpointRecord} {spec : Option Json}
    {status : RunStatus} {history : List RunStatus} (h : Chain cfg r chain spec status history) :
    chain.foldl (fun m c => max m c.sequence) 0 = history.length := by
  have hmap : chain.foldl (fun m c => max m c.sequence) 0 =
      (chain.map CheckpointRecord.sequence).foldl max 0 := by rw [List.foldl_map]
  rw [hmap, h.sequences, foldl_max_range' _ 0, Nat.zero_add]

/-- One more status of a run and its checkpoint. -/
theorem Chain.extend (id : CheckpointId) {cfg : Config} {r : RunId} {chain : List CheckpointRecord} {spec : Option Json}
    {status last : RunStatus} {history : List RunStatus}
    (h : Chain cfg r chain spec status history) (hhistory : History (history ++ [last])) :
    Chain cfg r (chain ++ [nextCheckpoint cfg id chain r (spec.getD (.obj [])) last]) spec last
      (history ++ [last]) := by
  refine ⟨h.recorded,hhistory,by simp,?_,?_⟩
  · exact List.rel_append h.records (.cons ⟨rfl,rfl,rfl,rfl⟩ .nil)
  · simp only [List.map_append, List.map_cons, List.map_nil, h.sequences, List.length_append,
      List.length_singleton, nextCheckpoint, h.maximum]
    rw [List.range'_concat]
    simp [Nat.add_comm]

theorem Chain.start (cfg : Config) (r : RunId) (id : CheckpointId) (fields : JsonObject) :
    Chain cfg r [nextCheckpoint cfg id [] r (.obj fields) .queued] (some (.obj fields)) .queued [.queued] :=
  ⟨⟨fields,rfl⟩,.queued,rfl,.cons ⟨rfl,rfl,rfl,rfl⟩ .nil,rfl⟩

theorem Chain.valid {cfg : Config} {r : RunId} {chain : List CheckpointRecord} {spec : Option Json}
    {status : RunStatus} {history : List RunStatus} (h : Chain cfg r chain spec status history)
    {c : CheckpointRecord} (hc : c ∈ chain) :
    checkpointIsValid cfg r c = true ∧ some (c.state.get "execution_spec") = spec := by
  obtain ⟨fields,rfl⟩ := h.recorded
  obtain ⟨i,hi,rfl⟩ := List.mem_iff_getElem.mp hc
  have hlen := h.records.length_eq
  have hrec := h.records.get hi (hlen ▸ hi)
  refine ⟨hrec.valid,?_⟩
  have hstate := hrec.state
  simp only [List.get_eq_getElem] at hstate
  rw [hstate]
  rfl

/-! ## What each transaction appends -/

section Appended
variable {cfg : Config} {store : Store} {r : RunId} {run : RunRecord} {now : Instant}

theorem createLifecycleCheckpoint_eq (reason : CheckpointReason) (hrec : cfg.recovery = true)
    (hrow : store.runs r = some run) (hreason : reason = statusReason run.status) :
    (createLifecycleCheckpoint cfg store r reason).checkpoints = store.checkpoints ++
      [nextCheckpoint cfg store.nextId (store.checkpointsOf r) r (run.executionSpec.getD (.obj [])) run.status] := by
  subst hreason
  simp only [createLifecycleCheckpoint, hrec, hrow]
  rfl

theorem statusReason_terminal (outcome : Terminal) : outcome.reason = statusReason outcome.status := by
  cases outcome <;> rfl

theorem markRunningTransaction_appends (hrec : cfg.recovery = true) (hrow : store.runs r = some run) :
    (markRunningTransaction cfg store r now).checkpoints = store.checkpoints ++
      [nextCheckpoint cfg store.nextId (store.checkpointsOf r) r (run.executionSpec.getD (.obj [])) .running] := by
  have hnew : (store.updateRun r fun run => { run with status := .running, startedAt := some now }).runs r =
      some { run with status := .running, startedAt := some now } := by simp [Store.updateRun, hrow]
  exact createLifecycleCheckpoint_eq .running hrec hnew rfl

theorem finishTransaction_appends (outcome : Terminal) (now : Instant) (hrec : cfg.recovery = true)
    (hrow : store.runs r = some run) :
    (finishTransaction cfg store r outcome now).checkpoints = store.checkpoints ++
      [nextCheckpoint cfg store.nextId (store.checkpointsOf r) r (run.executionSpec.getD (.obj []))
        outcome.status] := by
  have hnew : ((store.updateRun r (outcome.assign now)).updateAgent run.agentId
      fun agent => { agent with status := outcome.agentStatus }).runs r = some (outcome.assign now run) := by
    simp [Store.updateRun, hrow]
  have happ := createLifecycleCheckpoint_eq outcome.reason hrec hnew
    (by rw [Terminal.assign_status, statusReason_terminal])
  simp only [finishTransaction, hrow]
  rw [happ]
  simp [Store.checkpointsOf]

theorem recoverRun_appends {db : Database} :
    (recoverRun cfg now db r run).1.store.checkpoints = db.store.checkpoints ++
      [nextCheckpoint cfg (db.store.nextId + 1) (db.store.checkpointsOf r) r (run.executionSpec.getD (.obj []))
        .failed] := rfl

theorem checkpointsOf_append {cps : List CheckpointRecord} {c : CheckpointRecord}
    {store' : Store} (h : store'.checkpoints = cps ++ [c]) (q : RunId) :
    store'.checkpointsOf q = cps.filter (fun cp => cp.runId == q) ++ if c.runId = q then [c] else [] := by
  rw [Store.checkpointsOf, h, List.filter_append]
  by_cases hq : c.runId = q <;> simp [hq]

end Appended

/-! ## The chain in every reachable state -/

/-- The two outcomes that say a run has no usable checkpoint. -/
def RecoveryOutcome.lacksCheckpoint : RecoveryOutcome → Bool
  | .blockedNoCheckpoint | .blockedCorruptCheckpoint => true
  | .stoppedNoReplay | .blockedUncertainAction => false

theorem recoveryOutcome_of_valid {cfg : Config} {r : RunId} {c : CheckpointRecord}
    (hc : checkpointIsValid cfg r c = true) (actions : List ActionRecord) :
    (recoveryOutcome cfg r (some c) actions).1 =
      if (actions.any fun entry => entry.status.unresolved) = true then .blockedUncertainAction
      else .stoppedNoReplay := by
  by_cases hany : (actions.any fun entry => entry.status.unresolved) = true
  · have hne : ((actions.filter fun entry => entry.status.unresolved).map ActionRecord.actionType).isEmpty =
        false := by
      obtain ⟨entry,hentry,hun⟩ := List.any_eq_true.mp hany
      have hmem : entry ∈ actions.filter fun entry => entry.status.unresolved := List.mem_filter.mpr ⟨hentry,hun⟩
      simpa using ⟨entry,hentry,hun⟩
    simp only [recoveryOutcome, hc, hne, hany, Bool.not_true, Bool.not_false, Bool.false_eq_true, ↓reduceIte]
  · have hnil : ((actions.filter fun entry => entry.status.unresolved).map ActionRecord.actionType).isEmpty =
        true := by
      simpa using hany
    simp only [recoveryOutcome, hc, hnil, hany, Bool.not_true, Bool.false_eq_true, ↓reduceIte]

/-- The latest checkpoint of a chain exists and is valid. -/
theorem Chain.latest {cfg : Config} {store : Store} {r : RunId} {spec : Option Json} {status : RunStatus}
    {history : List RunStatus} (h : Chain cfg r (store.checkpointsOf r) spec status history) :
    ∃ c, latestCheckpoint store r = some c ∧ c ∈ store.checkpointsOf r ∧ checkpointIsValid cfg r c = true := by
  match hlatest : latestCheckpoint store r with
  | none =>
    have hnil : store.checkpointsOf r = [] := List.argmax_eq_none.mp hlatest
    have hlen := h.records.length_eq
    rw [hnil] at hlen
    have hlast := h.last
    rw [List.length_eq_zero_iff.mp hlen.symm] at hlast
    cases hlast
  | some c =>
    have hmem := List.argmax_mem hlatest
    exact ⟨c,rfl,hmem,(h.valid hmem).1⟩

theorem Chain.outcome {cfg : Config} {store : Store} {r : RunId} {spec : Option Json} {status : RunStatus}
    {history : List RunStatus} (h : Chain cfg r (store.checkpointsOf r) spec status history)
    (actions : List ActionRecord) :
    (recoveryOutcome cfg r (latestCheckpoint store r) actions).1.lacksCheckpoint = false := by
  obtain ⟨c,hlatest,-,hvalid⟩ := h.latest
  rw [hlatest, recoveryOutcome_of_valid hvalid]
  split <;> rfl

/-- Every run has its chain, and a task that has not marked its run finds it queued. -/
structure ChainSound (cfg : Config) (s : Sys) : Prop where
  chains : ∀ r run, s.db.store.runs r = some run →
    ∃ history, Chain cfg r (s.db.store.checkpointsOf r) run.executionSpec run.status history
  known : ∀ c ∈ s.db.store.checkpoints, (c.runId : Nat) < s.db.store.nextId
  created : ∀ r run, s.tasks r = some .created → s.db.store.runs r = some run → run.status ≠ .running
  decisions : ∀ d ∈ s.db.decisions, d.outcome.lacksCheckpoint = false

theorem ChainSound.initial {cfg : Config} : ChainSound cfg Sys.initial := by
  refine ⟨?_,?_,?_,?_⟩ <;> simp [Sys.initial]

/-- A transaction that writes one run row and appends the checkpoint of its status. -/
theorem ChainSound.append {cfg : Config} {s : Sys} (h : ChainSound cfg s) {t : Sys} {r : Nat}
    {run run' : RunRecord} {id : CheckpointId} (hrow : s.db.store.runs r = some run)
    (hlt : r < s.db.store.nextId)
    (hruns : t.db.store.runs = Function.update s.db.store.runs r (some run'))
    (hspec : run'.executionSpec = run.executionSpec)
    (happ : t.db.store.checkpoints = s.db.store.checkpoints ++
      [nextCheckpoint cfg id (s.db.store.checkpointsOf r) r (run.executionSpec.getD (.obj [])) run'.status])
    (hhistory : ∀ history, History history → history.getLast? = some run.status →
      History (history ++ [run'.status]))
    (hnext : s.db.store.nextId ≤ t.db.store.nextId)
    (htasks : ∀ q, t.tasks q = some .created → s.tasks q = some .created ∧ (q = r → run'.status ≠ .running))
    (hdecisions : ∀ d ∈ t.db.decisions, d.outcome.lacksCheckpoint = false) : ChainSound cfg t := by
  refine ⟨?_,?_,?_,hdecisions⟩
  · intro q row hq
    rw [hruns] at hq
    rw [checkpointsOf_append happ]
    by_cases hqr : q = r
    · subst hqr
      obtain rfl : run' = row := by simpa using hq
      obtain ⟨history,hchain⟩ := h.chains q run hrow
      have hext := hchain.extend id (hhistory history hchain.permitted hchain.last)
      rw [hspec]
      simp only [nextCheckpoint, ↓reduceIte]
      exact ⟨_,hext⟩
    · rw [Function.update_of_ne hqr] at hq
      obtain ⟨history,hchain⟩ := h.chains q row hq
      have hne : r ≠ q := fun he => hqr he.symm
      simp only [nextCheckpoint, hne, ↓reduceIte, List.append_nil]
      exact ⟨history,hchain⟩
  · intro c hc
    rw [happ] at hc
    rcases List.mem_append.mp hc with hc | hc
    · exact lt_of_lt_of_le (h.known c hc) hnext
    · obtain rfl := List.mem_singleton.mp hc
      exact lt_of_lt_of_le hlt hnext
  · intro q row htask hq
    obtain ⟨hold,hne⟩ := htasks q htask
    rw [hruns] at hq
    by_cases hqr : q = r
    · subst hqr
      obtain rfl : run' = row := by simpa using hq
      exact hne rfl
    · rw [Function.update_of_ne hqr] at hq
      exact h.created q row hold hq

/-- Sessions that write no run row and no checkpoint. -/
theorem ChainSound.frame {cfg : Config} {s t : Sys} (h : ChainSound cfg s)
    (hruns : t.db.store.runs = s.db.store.runs) (hcps : t.db.store.checkpoints = s.db.store.checkpoints)
    (hnext : s.db.store.nextId ≤ t.db.store.nextId)
    (htasks : ∀ q, t.tasks q = some .created → s.tasks q = some .created)
    (hdecisions : t.db.decisions = s.db.decisions) : ChainSound cfg t := by
  refine ⟨?_,?_,?_,?_⟩
  · intro r run hrow
    rw [hruns] at hrow
    obtain ⟨history,hchain⟩ := h.chains r run hrow
    refine ⟨history,?_⟩
    rwa [Store.checkpointsOf, hcps]
  · exact fun c hc => lt_of_lt_of_le (h.known c (hcps ▸ hc)) hnext
  · exact fun r run htask hrow => h.created r run (htasks r htask) (hruns ▸ hrow)
  · exact fun d hd => h.decisions d (hdecisions ▸ hd)

theorem ChainSound.delete {cfg : Config} {s : Sys} (h : ChainSound cfg s) (a : AgentId) :
    ChainSound cfg { s with db := deleteAgentRow s.db a } := by
  refine ⟨?_,?_,?_,?_⟩
  · intro r run hrow
    obtain ⟨hne,hrow⟩ := deleteAgentRow_runs hrow
    obtain ⟨history,hchain⟩ := h.chains r run hrow
    have hkept : ownedBy s.db.store a r = false := by
      rw [ownedBy_row hrow]
      simpa using hne
    have hsame : (deleteAgentRow s.db a).store.checkpointsOf r = s.db.store.checkpointsOf r := by
      simp only [deleteAgentRow, Store.checkpointsOf, List.filter_filter]
      refine List.filter_congr fun c _ => ?_
      by_cases hc : c.runId = r
      · simp [hc, hkept]
      · simp [hc]
    exact ⟨history,hsame ▸ hchain⟩
  · intro c hc
    exact h.known c (List.mem_of_mem_filter hc)
  · exact fun r run htask hrow => h.created r run htask (deleteAgentRow_runs hrow).2
  · intro d hd
    obtain ⟨old,hold,rfl⟩ := List.mem_map.mp hd
    exact h.decisions old (List.mem_of_mem_filter hold)

theorem ChainSound.start {cfg : Config} (hrec : cfg.recovery = true) {s : Sys} (h : ChainSound cfg s)
    {a : AgentId} {inputText : String} {link : Option DelegationLink} {store : Store}
    {r : Nat} {agent : AgentRecord} (started : Started cfg s.db.store store a inputText link r agent)
    {tasks : RunId → Option TaskPhase} (hother : ∀ q, q ≠ r → tasks q = s.tasks q) :
    ChainSound cfg { db := { s.db with store := store }, tasks := tasks } := by
  have hfresh : s.db.store.nextId = r := started.fresh
  have hlt := started.nextId
  have hnone : s.db.store.checkpointsOf r = [] := by
    refine List.filter_eq_nil_iff.mpr fun c hc => ?_
    have hne : c.runId ≠ r := (hfresh ▸ h.known c hc).ne
    simpa using hne
  have happ : store.checkpoints = s.db.store.checkpoints ++
      [nextCheckpoint cfg (r + 1) [] r (executionSpec cfg agent inputText) .queued] := by
    rw [started.checkpoints, hrec, hnone]
    rfl
  refine ⟨?_,?_,?_,h.decisions⟩
  · intro q run hrow
    change store.runs q = some run at hrow
    rw [started.runs] at hrow
    change ∃ history, Chain cfg q (store.checkpointsOf q) _ _ history
    rw [checkpointsOf_append happ]
    by_cases hq : q = r
    · subst hq
      obtain rfl : newRun cfg a agent inputText = run := by simpa using hrow
      have hnil : s.db.store.checkpoints.filter (fun cp => cp.runId == q) = [] := hnone
      rw [hnil, newRun_status]
      have hspec : (newRun cfg a agent inputText).executionSpec = some (executionSpec cfg agent inputText) := by
        simp [newRun, hrec]
      rw [hspec]
      simp only [nextCheckpoint, ↓reduceIte, List.nil_append]
      exact ⟨_,Chain.start cfg q (q + 1) _⟩
    · rw [Function.update_of_ne hq] at hrow
      obtain ⟨history,hchain⟩ := h.chains q run hrow
      have hne : r ≠ q := fun he => hq he.symm
      simp only [nextCheckpoint, hne, ↓reduceIte, List.append_nil]
      exact ⟨history,hchain⟩
  · intro c hc
    change c ∈ store.checkpoints at hc
    change (c.runId : Nat) < store.nextId
    rw [happ] at hc
    rcases List.mem_append.mp hc with hc | hc
    · exact (h.known c hc).trans hlt
    · obtain rfl := List.mem_singleton.mp hc
      exact hfresh ▸ hlt
  · intro q run htask hrow
    change store.runs q = some run at hrow
    rw [started.runs] at hrow
    by_cases hq : q = r
    · subst hq
      obtain rfl : newRun cfg a agent inputText = run := by simpa using hrow
      simp
    · rw [Function.update_of_ne hq] at hrow
      change tasks q = some .created at htask
      rw [hother q hq] at htask
      exact h.created q run htask hrow

theorem Session.chainSound {cfg : Config} (hrec : cfg.recovery = true) {s t : Sys} (h : ChainSound cfg s)
    (hsound : SysSound s) (hs : Session cfg s t) : ChainSound cfg t := by
  cases hs with
  | agentCreated modelRef graph => exact h.frame rfl rfl (Nat.le_succ _) (fun _ ht => ht) rfl
  | graphUpdated a graph => exact h.frame rfl rfl le_rfl (fun _ ht => ht) rfl
  | agentDeleted a idle => exact h.delete a
  | runStarted a inputText link spawned store r agent started =>
    refine h.start hrec started fun q hq => ?_
    split
    · exact Function.update_of_ne hq _ _
    · rfl
  | runMarked r run now task row active =>
    have hqueued : run.status = .queued := by
      have hne := h.created r run task row
      match hstatus : run.status with
      | .queued => rfl
      | .running => exact absurd hstatus hne
      | .succeeded | .failed | .cancelled =>
        rw [hstatus] at active
        cases active
    have hstep : ∀ history, History history → history.getLast? = some run.status →
        History (history ++ [.running]) := by
      intro history hh hlast
      rw [hqueued] at hlast
      rcases hh.of_active hlast rfl with ⟨-,rfl⟩ | ⟨hrun,-⟩
      · exact .running
      · cases hrun
    have hspec : RunRecord.executionSpec { run with status := .running, startedAt := some now } =
        run.executionSpec := rfl
    refine h.append row (hsound.bounded.lt row) (markRunningTransaction_runs_update cfg now row) hspec
      (markRunningTransaction_appends hrec row) hstep markRunningTransaction_nextId ?_ h.decisions
    intro q htask
    have hne : q ≠ r := by
      rintro rfl
      simp at htask
    change Function.update s.tasks r _ q = some .created at htask
    rw [Function.update_of_ne hne] at htask
    exact ⟨htask,fun he => absurd he hne⟩
  | runFinished r run outcome now row active may =>
    have happ := finishTransaction_appends outcome now hrec row
    have hclose : ∀ history, History history → history.getLast? = some run.status →
        History (history ++ [(outcome.assign now run).status]) := by
      intro history hh hlast
      rw [Terminal.assign_status]
      exact hh.close hlast active (by simp)
    rw [← Terminal.assign_status now outcome run] at happ
    refine h.append row (hsound.bounded.lt row) (finishTransaction_runs_update row) (by simp) happ hclose
      finishTransaction_nextId (fun q htask => ⟨htask,fun _ => ?_⟩) h.decisions
    rw [Terminal.assign_status]
    cases outcome <;> simp [Terminal.status]
  | actionRecorded entry row fresh intent => exact h.frame rfl rfl (Nat.le_succ _) (fun _ ht => ht) rfl
  | actionUpdated entry status now => exact h.frame rfl rfl le_rfl (fun _ ht => ht) rfl
  | recovered clock stale result recovery lists ok =>
    obtain ⟨hnodup,hactive,-⟩ := listsStale_iff lists
    have hboth : ChainSound cfg { s with db := result.1 } ∧ SysSound { s with db := result.1 } := by
      refine recoverLoop_induct (P := fun db => ChainSound cfg { s with db := db } ∧ SysSound { s with db := db })
        ?_ hnodup hactive ⟨h,hsound⟩ ok
      rintro db r run ⟨hchain,hdb⟩ hrow hrun
      refine ⟨?_,hdb.close _ (.failed interruptedError) hrow hrun rfl (recoverRun_runs hrow)
        recoverRun_agents (Nat.le_add_right _ 2)⟩
      refine hchain.append hrow (hdb.bounded.lt hrow) (recoverRun_runs hrow) rfl recoverRun_appends
        (fun history hh hlast => hh.close hlast hrun rfl) (Nat.le_add_right _ 2)
        (fun q htask => ⟨htask,fun _ => by simp⟩) ?_
      intro d hd
      rcases List.mem_append.mp hd with hd | hd
      · exact hchain.decisions d hd
      · obtain rfl := List.mem_singleton.mp hd
        obtain ⟨history,hc⟩ := hchain.chains r run hrow
        exact hc.outcome _
    exact hboth.1
  | raised => exact h
  | failedStale now stale recovery lists => rw [hrec] at recovery; cases recovery
  | restarted => exact h.frame rfl rfl le_rfl (fun _ ht => by cases ht) rfl

theorem Reachable.chainSound {cfg : Config} (hrec : cfg.recovery = true) {s : Sys} (h : Reachable cfg s) :
    ChainSound cfg s ∧ SysSound s :=
  h.invariant (I := fun u => ChainSound cfg u ∧ SysSound u)
    (fun _ _ _ hs _ he => ⟨(step_session he).chainSound hrec hs.1 hs.2,(step_session he).sysSound hs.2⟩)
    ⟨ChainSound.initial,SysSound.initial⟩

/-- The reasons of a history: CREATED, perhaps RUNNING, perhaps a terminal one. -/
theorem History.reasons {history : List RunStatus} (h : History history) :
    ∃ (marked : Bool) (last : Option CheckpointReason), (∀ reason ∈ last, reason.terminal = true) ∧
      history.map statusReason =
        [.created] ++ (if marked then [.running] else []) ++ last.toList := by
  have hreason : ∀ status : RunStatus, status.terminal = true → (statusReason status).terminal = true := by
    intro status hs
    cases status <;> first | rfl | cases hs
  cases h with
  | queued => exact ⟨false,none,by simp,rfl⟩
  | running => exact ⟨true,none,by simp,rfl⟩
  | stopped status hs => exact ⟨false,some (statusReason status),by simpa using hreason status hs,rfl⟩
  | finished status hs => exact ⟨true,some (statusReason status),by simpa using hreason status hs,rfl⟩

theorem Chain.reasons {cfg : Config} {r : RunId} {chain : List CheckpointRecord} {spec : Option Json}
    {status : RunStatus} {history : List RunStatus} (h : Chain cfg r chain spec status history) :
    chain.map CheckpointRecord.reason = history.map statusReason := by
  have hrecords := h.records
  clear h
  induction hrecords with
  | nil => rfl
  | cons hrec _ ih => rw [List.map_cons, List.map_cons, hrec.reason, ih]

/-- The last checkpoint carries the committed status. -/
theorem Chain.last_status {cfg : Config} {r : RunId} {chain : List CheckpointRecord} {spec : Option Json}
    {status : RunStatus} {history : List RunStatus} (h : Chain cfg r chain spec status history) :
    ∃ c, chain.getLast? = some c ∧ c.state.get "run_status" = .str status.value := by
  have hlast := h.last
  have hrecords := h.records
  clear h
  induction hrecords with
  | nil => cases hlast
  | @cons c first rest history hrec hrest ih =>
    match hrest with
    | .nil =>
      obtain rfl : first = status := by simpa using hlast
      refine ⟨c,rfl,?_⟩
      rw [hrec.state, checkpointState_status]
    | .cons hnext htail =>
      rw [List.getLast?_cons_cons] at hlast
      obtain ⟨last,hl,hstatus⟩ := ih hlast
      exact ⟨last,by rw [List.getLast?_cons_cons, hl],hstatus⟩

/-- With a recovery service the checkpoints of a run tell its history in every
reachable state, and no assessment finds them missing or corrupt. -/
theorem checkpoint_chain_truthful (cfg : Config) (hrec : cfg.recovery = true) (s : Sys) (h : Reachable cfg s)
    (r : RunId) (run : RunRecord) (hrow : s.db.store.runs r = some run) :
    (s.db.store.checkpointsOf r).map CheckpointRecord.sequence =
      List.range' 1 (s.db.store.checkpointsOf r).length ∧
    (s.db.store.checkpointsOf r).length ≤ 3 ∧
    (∃ (marked : Bool) (last : Option CheckpointReason), (∀ reason ∈ last, reason.terminal = true) ∧
      (s.db.store.checkpointsOf r).map CheckpointRecord.reason =
        [.created] ++ (if marked then [.running] else []) ++ last.toList) ∧
    (∃ c, (s.db.store.checkpointsOf r).getLast? = some c ∧
      c.state.get "run_status" = .str run.status.value) ∧
    (∀ c ∈ s.db.store.checkpointsOf r, some (c.state.get "execution_spec") = run.executionSpec ∧
      checkpointIsValid cfg r c = true) ∧
    (assessStaleRun cfg s.db r).2.1.lacksCheckpoint = false ∧
    ∀ decision ∈ s.db.decisionsOf r, decision.outcome.lacksCheckpoint = false := by
  obtain ⟨hchain,-⟩ := h.chainSound hrec
  obtain ⟨history,hc⟩ := hchain.chains r run hrow
  have hlen := hc.records.length_eq
  refine ⟨hlen ▸ hc.sequences,hlen ▸ hc.permitted.length_le,?_,hc.last_status,?_,hc.outcome _,?_⟩
  · rw [hc.reasons]
    exact hc.permitted.reasons
  · intro c hmem
    exact ⟨(hc.valid hmem).2,(hc.valid hmem).1⟩
  · intro decision hd
    exact hchain.decisions decision (List.mem_of_mem_filter hd)

theorem checkpoint_chain_truthful_interrupted :
    ∃ run, interrupted.db.store.runs 2 = some run ∧
      (interrupted.db.store.checkpointsOf 2).map CheckpointRecord.sequence = [1,2,3] ∧
      (assessStaleRun sampleConfig interrupted.db 2).2.1.lacksCheckpoint = false := by
  obtain ⟨run,hrow⟩ : ∃ run, interrupted.db.store.runs 2 = some run :=
    Option.isSome_iff_exists.mp (by decide)
  have h := checkpoint_chain_truthful sampleConfig rfl interrupted interrupted_reachable 2 run hrow
  exact ⟨run,hrow,h.1.trans (by decide),h.2.2.2.2.2.1⟩

end AgentGraph.Recovery
