import AgentGraph.Recovery.Sessions

/-! # Run and agent rows stay consistent

An agent has at most one active run and is RUNNING exactly while it has one, and
the nullable columns of a run say which status it is in. Every session block keeps
this, the recovery of stale runs because it closes one active run after another.
-/
set_option autoImplicit false
namespace AgentGraph.Recovery
open Transition

/-- The nullable columns of a run agree with its status. -/
structure RunColumns (run : RunRecord) : Prop where
  finished : run.finishedAt.isSome = true ↔ run.status.terminal = true
  output : run.outputText.isSome = true ↔ run.status = .succeeded
  error : run.error.isSome = true ↔ run.status = .failed
  started : run.status = .running ∨ run.status = .succeeded → run.startedAt.isSome = true

theorem activeStatus_queued : RunStatus.queued.active = true := rfl
theorem activeStatus_running : RunStatus.running.active = true := rfl

abbrev AgentTable := AgentId → Option AgentRecord
abbrev RunTable := RunId → Option RunRecord

/-- A run of the agent that is QUEUED or RUNNING. -/
def ActiveRun (runs : RunTable) (a : AgentId) (r : RunId) : Prop :=
  ∃ run, runs r = some run ∧ run.agentId = a ∧ run.status.active = true

/-- The run and agent tables agree. -/
structure Consistent (agents : AgentTable) (runs : RunTable) : Prop where
  unique : ∀ a r q, ActiveRun runs a r → ActiveRun runs a q → r = q
  running : ∀ a agent, agents a = some agent → (agent.status = .running ↔ ∃ r, ActiveRun runs a r)
  columns : ∀ r run, runs r = some run → RunColumns run

/-- Rows only use identifiers already given out, and a run has an agent. -/
structure Bounded (store : Store) : Prop where
  runs : ∀ r, store.nextId ≤ r → store.runs r = none
  agents : ∀ a, store.nextId ≤ a → store.agents a = none
  owner : ∀ r run, store.runs r = some run → (store.agents run.agentId).isSome = true

theorem Bounded.lt {store : Store} (h : Bounded store) {r : Nat} {run : RunRecord}
    (hr : store.runs r = some run) : r < store.nextId := by
  by_contra hle
  have hnone := h.runs r (by omega)
  rw [hnone] at hr
  cases hr

/-- `has_active_for_agent` finds every active run of the agent. -/
theorem Bounded.active_of_not {store : Store} (h : Bounded store) {a : AgentId}
    (hidle : store.hasActiveForAgent a = false) (r : RunId) : ¬ ActiveRun store.runs a r := by
  rintro ⟨run,hrow,hagent,hactive⟩
  have hlt : (r : Nat) < store.nextId := h.lt hrow
  have hfalse : store.hasActiveForAgent a = true := by
    refine List.any_eq_true.mpr ⟨r,List.mem_range.mpr hlt,?_⟩
    simp [hrow, hagent, hactive]
  rw [hidle] at hfalse
  cases hfalse

section Tables
variable {agents : AgentTable} {runs : RunTable}

theorem activeRun_update_ne {r q : RunId} {run : Option RunRecord} {a : AgentId} (h : q ≠ r) :
    ActiveRun (Function.update runs r run) a q ↔ ActiveRun runs a q := by
  simp [ActiveRun, Function.update_of_ne h]

/-- Ending an active run, with an agent status other than RUNNING. -/
theorem Consistent.close (h : Consistent agents runs) {r : RunId} {run run' : RunRecord}
    {status : AgentStatus} (hrow : runs r = some run) (hactive : run.status.active = true)
    (hterminal : run'.status.terminal = true) (hcolumns : RunColumns run') (hstatus : status ≠ .running) :
    Consistent
      (Function.update agents run.agentId ((agents run.agentId).map fun agent => { agent with status := status }))
      (Function.update runs r (some run')) := by
  have hended : ∀ a, ¬ ActiveRun (Function.update runs r (some run')) a r := by
    rintro a ⟨row,hr,-,hact⟩
    obtain rfl : run' = row := by simpa using hr
    rw [RunStatus.terminal_eq_false.mpr hact] at hterminal
    cases hterminal
  have hother : ∀ a q, ActiveRun (Function.update runs r (some run')) a q ↔ q ≠ r ∧ ActiveRun runs a q := by
    intro a q
    by_cases hq : q = r
    · subst hq
      exact iff_of_false (hended a) (by simp)
    · rw [activeRun_update_ne hq]
      simp [hq]
  refine ⟨?_,?_,?_⟩
  · intro a q p hq hp
    exact h.unique a q p ((hother a q).mp hq).2 ((hother a p).mp hp).2
  · intro a agent hagent
    by_cases ha : a = run.agentId
    · subst ha
      obtain ⟨old,hold,rfl⟩ : ∃ old, agents run.agentId = some old ∧ { old with status := status } = agent := by
        simpa using hagent
      refine iff_of_false hstatus ?_
      rintro ⟨q,hq⟩
      have hq := (hother _ q).mp hq
      exact hq.1 (h.unique _ q r hq.2 ⟨run,hrow,rfl,hactive⟩)
    · rw [Function.update_of_ne ha] at hagent
      rw [h.running a agent hagent]
      refine exists_congr fun q => ?_
      rw [hother, iff_and_self]
      rintro ⟨row,hr,hid,-⟩ rfl
      rw [hrow] at hr
      exact ha (hid ▸ (Option.some.inj hr) ▸ rfl)
  · intro q row hr
    by_cases hq : q = r
    · subst hq
      obtain rfl : run' = row := by simpa using hr
      exact hcolumns
    · rw [Function.update_of_ne hq] at hr
      exact h.columns q row hr

/-- Changes of an agent row that keep its status. -/
theorem Consistent.keep_status (h : Consistent agents runs) {a : AgentId} {f : AgentRecord → AgentRecord}
    (hf : ∀ agent, (f agent).status = agent.status) :
    Consistent (Function.update agents a ((agents a).map f)) runs := by
  refine ⟨h.unique,?_,h.columns⟩
  intro b agent hagent
  by_cases hb : b = a
  · subst hb
    obtain ⟨old,hold,rfl⟩ : ∃ old, agents b = some old ∧ f old = agent := by simpa using hagent
    rw [hf old]
    exact h.running b old hold
  · rw [Function.update_of_ne hb] at hagent
    exact h.running b agent hagent

/-- Marking an active run: it stays the active run of its agent. -/
theorem Consistent.mark (h : Consistent agents runs) (now : Instant) {r : RunId} {run : RunRecord}
    (hrow : runs r = some run) (hactive : run.status.active = true) :
    Consistent agents (Function.update runs r (some { run with status := .running, startedAt := some now })) := by
  have hsame : ∀ a q, ActiveRun
      (Function.update runs r (some { run with status := .running, startedAt := some now })) a q ↔
      ActiveRun runs a q := by
    intro a q
    by_cases hq : q = r
    · subst hq
      simp [ActiveRun, hrow, hactive, activeStatus_running]
    · exact activeRun_update_ne hq
  refine ⟨?_,?_,?_⟩
  · intro a q p hq hp
    exact h.unique a q p ((hsame a q).mp hq) ((hsame a p).mp hp)
  · intro a agent hagent
    rw [h.running a agent hagent]
    exact exists_congr fun q => (hsame a q).symm
  · intro q row hr
    by_cases hq : q = r
    · subst hq
      obtain rfl : { run with status := .running, startedAt := some now } = row := by simpa using hr
      have hold := h.columns q run hrow
      have hterm : run.status.terminal = false := by simpa using hactive
      have hfin : run.finishedAt.isSome = false := by simpa [hterm] using hold.finished
      have hout : run.outputText.isSome = false := by
        refine Bool.eq_false_iff.mpr fun hs => ?_
        rw [hold.output.mp hs] at hterm
        cases hterm
      have herr : run.error.isSome = false := by
        refine Bool.eq_false_iff.mpr fun hs => ?_
        rw [hold.error.mp hs] at hterm
        cases hterm
      constructor <;> simp [hfin, hout, herr, RunStatus.terminal]
    · rw [Function.update_of_ne hq] at hr
      exact h.columns q row hr

/-- A new QUEUED run of an agent without an active one. -/
theorem Consistent.start (h : Consistent agents runs) {a : AgentId} {agent : AgentRecord} {r : RunId}
    {run : RunRecord} (hagent : agents a = some agent) (hfree : runs r = none)
    (hidle : ∀ q, ¬ ActiveRun runs a q) (hid : run.agentId = a) (hstatus : run.status = .queued)
    (hcolumns : RunColumns run) :
    Consistent (Function.update agents a (some { agent with status := .running }))
      (Function.update runs r (some run)) := by
  have hmine : ∀ b, ActiveRun (Function.update runs r (some run)) b r ↔ b = a := by
    intro b
    simp only [ActiveRun, Function.update_self, Option.some.injEq, exists_eq_left', hid, hstatus,
      activeStatus_queued, and_true]
    exact eq_comm
  refine ⟨?_,?_,?_⟩
  · intro b q p hq hp
    by_cases hqr : q = r <;> by_cases hpr : p = r
    · rw [hqr, hpr]
    · subst hqr
      obtain rfl := (hmine b).mp hq
      exact absurd ((activeRun_update_ne hpr).mp hp) (hidle p)
    · subst hpr
      obtain rfl := (hmine b).mp hp
      exact absurd ((activeRun_update_ne hqr).mp hq) (hidle q)
    · exact h.unique b q p ((activeRun_update_ne hqr).mp hq) ((activeRun_update_ne hpr).mp hp)
  · intro b other hother
    by_cases hb : b = a
    · subst hb
      obtain rfl : { agent with status := .running } = other := by simpa using hother
      exact iff_of_true rfl ⟨r,(hmine b).mpr rfl⟩
    · rw [Function.update_of_ne hb] at hother
      rw [h.running b other hother]
      refine exists_congr fun q => ?_
      by_cases hq : q = r
      · subst hq
        rw [hmine]
        exact iff_of_false (by simp [ActiveRun, hfree]) hb
      · exact (activeRun_update_ne hq).symm
  · intro q row hr
    by_cases hq : q = r
    · subst hq
      obtain rfl : run = row := by simpa using hr
      exact hcolumns
    · rw [Function.update_of_ne hq] at hr
      exact h.columns q row hr

/-- A new IDLE agent, under an identifier no run uses. -/
theorem Consistent.create (h : Consistent agents runs) {a : AgentId} {agent : AgentRecord}
    (hidle : ∀ q, ¬ ActiveRun runs a q) (hstatus : agent.status ≠ .running) :
    Consistent (Function.update agents a (some agent)) runs := by
  refine ⟨h.unique,?_,h.columns⟩
  intro b other hother
  by_cases hb : b = a
  · subst hb
    obtain rfl : agent = other := by simpa using hother
    exact iff_of_false hstatus fun ⟨q,hq⟩ => hidle q hq
  · rw [Function.update_of_ne hb] at hother
    exact h.running b other hother

/-- Deleting an agent and its runs. -/
theorem Consistent.delete (h : Consistent agents runs) {a : AgentId} {gone : RunId → Bool}
    (hgone : ∀ r run, runs r = some run → gone r = (run.agentId == a)) :
    Consistent (Function.update agents a none) (fun r => if gone r then none else runs r) := by
  have hkept : ∀ b q, ActiveRun (fun r => if gone r then none else runs r) b q →
      b ≠ a ∧ ActiveRun runs b q := by
    rintro b q ⟨run,hr,hid,hactive⟩
    obtain ⟨hg,hr⟩ : gone q = false ∧ runs q = some run := by simpa using hr
    refine ⟨?_,run,hr,hid,hactive⟩
    rintro rfl
    have := hgone q run hr
    simp [hg, hid] at this
  refine ⟨?_,?_,?_⟩
  · intro b q p hq hp
    exact h.unique b q p (hkept b q hq).2 (hkept b p hp).2
  · intro b agent hagent
    have hb : b ≠ a := by
      rintro rfl
      simp at hagent
    rw [Function.update_of_ne hb] at hagent
    rw [h.running b agent hagent]
    refine exists_congr fun q => ⟨?_,fun hq => (hkept b q hq).2⟩
    rintro ⟨run,hr,hid,hactive⟩
    have hg : gone q = false := by
      rw [hgone q run hr, hid]
      simpa using hb
    exact ⟨run,by simp [hg, hr],hid,hactive⟩
  · intro q run hr
    obtain ⟨-,hr⟩ : gone q = false ∧ runs q = some run := by simpa using hr
    exact h.columns q run hr

end Tables

/-! ## Every session block keeps the tables consistent -/

theorem RunColumns.assign {run : RunRecord} (h : RunColumns run) (hactive : run.status.active = true)
    (outcome : Terminal) (now : Instant)
    (hstarted : ∀ response, outcome = .succeeded response → run.startedAt.isSome = true) :
    RunColumns (outcome.assign now run) := by
  have hterminal : run.status.terminal = false := by simpa using hactive
  have houtput : run.outputText.isSome = false := by
    refine Bool.eq_false_iff.mpr fun hs => ?_
    rw [h.output.mp hs] at hterminal
    cases hterminal
  have herror : run.error.isSome = false := by
    refine Bool.eq_false_iff.mpr fun hs => ?_
    rw [h.error.mp hs] at hterminal
    cases hterminal
  match outcome with
  | .succeeded response =>
    have hs := hstarted response rfl
    constructor <;> simp [Terminal.assign, RunStatus.terminal, herror, hs]
  | .cancelled => constructor <;> simp [Terminal.assign, RunStatus.terminal, houtput, herror]
  | .failed error => constructor <;> simp [Terminal.assign, RunStatus.terminal, houtput]

theorem finishTransaction_runs_update {cfg : Config} {store : Store} {r : RunId} {run : RunRecord}
    {outcome : Terminal} {now : Instant} (hrow : store.runs r = some run) :
    (finishTransaction cfg store r outcome now).runs =
      Function.update store.runs r (some (outcome.assign now run)) := by
  funext q
  rw [finishTransaction_runs]
  by_cases hq : q = r
  · subst hq
    simp [hrow]
  · simp [hq]

theorem finishTransaction_agents {cfg : Config} {store : Store} {r : RunId} {run : RunRecord}
    {outcome : Terminal} {now : Instant} (hrow : store.runs r = some run) :
    (finishTransaction cfg store r outcome now).agents = Function.update store.agents run.agentId
      ((store.agents run.agentId).map fun agent => { agent with status := outcome.agentStatus }) := by
  simp [finishTransaction, hrow, Store.updateAgent]

theorem markRunningTransaction_runs_update (cfg : Config) (now : Instant) {store : Store} {r : RunId}
    {run : RunRecord} (hrow : store.runs r = some run) :
    (markRunningTransaction cfg store r now).runs =
      Function.update store.runs r (some { run with status := .running, startedAt := some now }) := by
  funext q
  rw [markRunningTransaction_runs]
  by_cases hq : q = r
  · subst hq
    simp [hrow]
  · simp [hq]

/-- Writes of an existing run row and of columns of agent rows. -/
theorem Bounded.write {store store' : Store} (h : Bounded store) {r : Nat} {run run' : RunRecord}
    {a : AgentId} {f : AgentRecord → AgentRecord} (hrow : store.runs r = some run)
    (hid : run'.agentId = run.agentId) (hruns : store'.runs = Function.update store.runs r (some run'))
    (hagents : store'.agents = Function.update store.agents a ((store.agents a).map f))
    (hnext : store.nextId ≤ store'.nextId) : Bounded store' := by
  have hlt : (r : Nat) < store.nextId := h.lt hrow
  have hsome : ∀ b, (store'.agents b).isSome = (store.agents b).isSome := by
    intro b
    rw [hagents]
    by_cases hb : b = a
    · subst hb
      simp
    · rw [Function.update_of_ne hb]
  refine ⟨?_,?_,?_⟩
  · intro q hq
    have hne : q ≠ r := by
      rintro rfl
      omega
    rw [hruns, Function.update_of_ne hne]
    exact h.runs q (by omega)
  · intro b hb
    have hnone := h.agents b (by omega)
    have hb := hsome b
    rw [hnone] at hb
    simpa using hb
  · intro q row hr
    rw [hsome]
    by_cases hq : q = r
    · subst hq
      obtain rfl : run' = row := by simpa [hruns] using hr
      rw [hid]
      exact h.owner q run hrow
    · rw [hruns, Function.update_of_ne hq] at hr
      exact h.owner q row hr

theorem Bounded.create {store : Store} (h : Bounded store) (agent : AgentRecord) :
    Bounded { store with
      agents := Function.update store.agents store.nextId (some agent), nextId := store.nextId + 1 } := by
  refine ⟨fun r hr => h.runs r (Nat.le_of_succ_le hr),?_,?_⟩
  · intro a ha
    have hne : a ≠ store.nextId := (Nat.lt_of_succ_le ha).ne'
    change Function.update store.agents _ _ a = none
    rw [Function.update_of_ne hne]
    exact h.agents a (Nat.le_of_succ_le ha)
  · intro r run hrow
    change (Function.update store.agents _ _ run.agentId).isSome = true
    by_cases ha : run.agentId = store.nextId
    · rw [ha]
      simp
    · rw [Function.update_of_ne ha]
      exact h.owner r run hrow

theorem Bounded.regraph {store : Store} (h : Bounded store) (a : AgentId) (graph : JsonObject) :
    Bounded (updateGraphTransaction store a graph) := by
  refine ⟨h.runs,?_,?_⟩
  · intro b hb
    change Function.update store.agents _ _ b = none
    by_cases hba : b = a
    · subst hba
      simp [h.agents b hb]
    · rw [Function.update_of_ne hba]
      exact h.agents b hb
  · intro r run hrow
    have hsome := h.owner r run hrow
    change (Function.update store.agents _ _ run.agentId).isSome = true
    by_cases hba : run.agentId = a
    · rw [hba] at hsome ⊢
      simpa using hsome
    · rwa [Function.update_of_ne hba]

theorem ownedBy_row {store : Store} {a : AgentId} {r : RunId} {run : RunRecord}
    (hrow : store.runs r = some run) : ownedBy store a r = (run.agentId == a) := by
  simp [ownedBy, hrow]

/-- The rows left by a delete are those of other agents, as they were. -/
theorem deleteAgentRow_runs {db : Database} {a : AgentId} {r : RunId} {run : RunRecord}
    (hrow : (deleteAgentRow db a).store.runs r = some run) :
    run.agentId ≠ a ∧ db.store.runs r = some run := by
  obtain ⟨hgone,hrow⟩ : ownedBy db.store a r = false ∧ db.store.runs r = some run := by
    simpa [deleteAgentRow] using hrow
  rw [ownedBy_row hrow] at hgone
  exact ⟨by simpa using hgone,hrow⟩

theorem Bounded.delete {db : Database} (h : Bounded db.store) (a : AgentId) :
    Bounded (deleteAgentRow db a).store := by
  refine ⟨?_,?_,?_⟩
  · intro r hr
    have hnone : db.store.runs r = none := h.runs r hr
    simp [deleteAgentRow, hnone]
  · intro b hb
    change Function.update db.store.agents _ _ b = none
    by_cases hba : b = a
    · simp [hba]
    · rw [Function.update_of_ne hba]
      exact h.agents b hb
  · intro r run hrow
    obtain ⟨hne,hrow⟩ := deleteAgentRow_runs hrow
    change (Function.update db.store.agents _ _ run.agentId).isSome = true
    rw [Function.update_of_ne hne]
    exact h.owner r run hrow

theorem Bounded.start {cfg : Config} {store store' : Store} {a : AgentId} {inputText : String}
    {link : Option DelegationLink} {r : Nat} {agent : AgentRecord} (h : Bounded store)
    (started : Started cfg store store' a inputText link r agent) : Bounded store' := by
  have hfresh : store.nextId = r := started.fresh
  have hlt := started.nextId
  refine ⟨?_,?_,?_⟩
  · intro q hq
    have hne : q ≠ r := by
      rintro rfl
      omega
    rw [started.runs, Function.update_of_ne hne]
    exact h.runs q (by omega)
  · intro b hb
    have hnone := h.agents b (by omega)
    have hne : b ≠ a := by
      rintro rfl
      rw [started.agentRow] at hnone
      cases hnone
    rw [started.agents, Function.update_of_ne hne, hnone]
  · intro q run hrow
    rw [started.agents]
    by_cases ha : run.agentId = a
    · simp [ha]
    · rw [Function.update_of_ne ha]
      rw [started.runs] at hrow
      by_cases hq : q = r
      · subst hq
        obtain rfl : newRun cfg a agent inputText = run := by simpa using hrow
        exact absurd newRun_agentId ha
      · rw [Function.update_of_ne hq] at hrow
        exact h.owner q run hrow

theorem newRun_columns (cfg : Config) (a : AgentId) (agent : AgentRecord) (inputText : String) :
    RunColumns (newRun cfg a agent inputText) := by
  unfold newRun
  dsimp only
  split <;> constructor <;> simp [queuedRun, RunStatus.terminal]

/-- What holds of the whole server between two sessions. -/
structure SysSound (s : Sys) : Prop where
  bounded : Bounded s.db.store
  consistent : Consistent s.db.store.agents s.db.store.runs
  fresh : ∀ r, s.db.store.nextId ≤ r → s.tasks r = none
  started : ∀ r run, s.tasks r = some .marked → s.db.store.runs r = some run → run.startedAt.isSome = true

theorem SysSound.initial : SysSound Sys.initial := by
  refine ⟨⟨fun _ _ => rfl,fun _ _ => rfl,?_⟩,⟨?_,?_,?_⟩,fun _ _ => rfl,?_⟩ <;>
    simp [Sys.initial, ActiveRun]

/-- Ending an active run, whichever block does it. -/
theorem SysSound.close {s : Sys} (h : SysSound s) (db : Database) {r : RunId} {run : RunRecord}
    (outcome : Terminal) {now : Instant} (hrow : s.db.store.runs r = some run)
    (hactive : run.status.active = true) (hmay : mayFinish s r outcome = true)
    (hruns : db.store.runs = Function.update s.db.store.runs r (some (outcome.assign now run)))
    (hagents : db.store.agents = Function.update s.db.store.agents run.agentId
      ((s.db.store.agents run.agentId).map fun agent => { agent with status := outcome.agentStatus }))
    (hnext : s.db.store.nextId ≤ db.store.nextId) : SysSound { s with db := db } := by
  have hstarted : ∀ response, outcome = .succeeded response → run.startedAt.isSome = true := by
    rintro response rfl
    exact h.started r run (by simpa [mayFinish] using hmay) hrow
  refine ⟨?_,?_,?_,?_⟩
  · exact h.bounded.write hrow (outcome.assign_agentId now run) hruns hagents hnext
  · rw [hruns, hagents]
    refine h.consistent.close hrow hactive (by simp)
      ((h.consistent.columns r run hrow).assign hactive outcome now hstarted) ?_
    cases outcome <;> simp [Terminal.agentStatus]
  · exact fun q hq => h.fresh q (le_trans hnext hq)
  · intro q row htask hr
    by_cases hq : q = r
    · subst hq
      have hr : outcome.assign now run = row := by simpa [hruns] using hr
      have hold := h.started q run htask hrow
      rw [← hr]
      cases outcome <;> exact hold
    · change db.store.runs q = some row at hr
      rw [hruns, Function.update_of_ne hq] at hr
      exact h.started q row htask hr

theorem listsStale_iff {db : Database} {stale : List RunId} (h : listsStale db stale = true) :
    stale.Nodup ∧ (∀ r ∈ stale, ∃ run, db.store.runs r = some run ∧ run.status.active = true) ∧
      ∀ r, (r : Nat) < db.store.nextId → db.IsStale r → r ∈ stale := by
  simp only [listsStale, Bool.and_eq_true, decide_eq_true_eq, List.all_eq_true, Bool.or_eq_true,
    Bool.not_eq_true', List.contains_eq_mem, List.mem_range] at h
  refine ⟨h.1.1,fun r hr => activeRow_iff.mp (h.1.2 r hr),?_⟩
  intro r hlt hstale
  rcases h.2 r hlt with hno | hmem
  · rw [activeRow_iff.mpr hstale] at hno
    cases hno
  · exact hmem

/-- A started run: its task, if it was created, has not marked it. -/
theorem SysSound.start {cfg : Config} {s : Sys} (h : SysSound s) {a : AgentId} {inputText : String}
    {link : Option DelegationLink} {store : Store} {r : Nat} {agent : AgentRecord}
    (started : Started cfg s.db.store store a inputText link r agent) {tasks : RunId → Option TaskPhase}
    (hother : ∀ q, q ≠ r → tasks q = s.tasks q) (hnew : tasks r = s.tasks r ∨ tasks r = some .created) :
    SysSound { db := { s.db with store := store }, tasks := tasks } := by
  have hfresh : s.db.store.nextId = r := started.fresh
  have hlt := started.nextId
  have hnone : s.tasks r = none := h.fresh r hfresh.le
  refine ⟨h.bounded.start started,?_,?_,?_⟩
  · have hc := h.consistent.start (r := r) started.agentRow (h.bounded.runs r hfresh.le)
      (h.bounded.active_of_not started.idle) newRun_agentId newRun_status
      (newRun_columns cfg a agent inputText)
    change Consistent store.agents store.runs
    rw [started.runs, started.agents]
    exact hc
  · intro q hq
    change store.nextId ≤ q at hq
    have hne : q ≠ r := by
      rintro rfl
      omega
    change tasks q = none
    rw [hother q hne]
    exact h.fresh q (by omega)
  · intro q run htask hrow
    change tasks q = some .marked at htask
    have hne : q ≠ r := by
      rintro rfl
      rcases hnew with hn | hn <;> simp [hn, hnone] at htask
    change store.runs q = some run at hrow
    rw [started.runs, Function.update_of_ne hne] at hrow
    exact h.started q run (hother q hne ▸ htask) hrow

/-- The task of a run marks it. -/
theorem SysSound.mark {cfg : Config} {s : Sys} (h : SysSound s) {r : Nat} {run : RunRecord} {now : Instant}
    (row : s.db.store.runs r = some run) (active : run.status.active = true) :
    SysSound
      { db := { s.db with store := markRunningTransaction cfg s.db.store r now },
        tasks := Function.update s.tasks r (some .marked) } := by
  have hruns := markRunningTransaction_runs_update cfg now row
  have hagents : (markRunningTransaction cfg s.db.store r now).agents = s.db.store.agents :=
    markRunningTransaction_agents
  have hnext : s.db.store.nextId ≤ (markRunningTransaction cfg s.db.store r now).nextId :=
    markRunningTransaction_nextId
  have hlt : r < s.db.store.nextId := h.bounded.lt row
  refine ⟨?_,?_,?_,?_⟩
  · have hsame : (markRunningTransaction cfg s.db.store r now).agents =
        Function.update s.db.store.agents run.agentId ((s.db.store.agents run.agentId).map id) := by
      rw [hagents]
      simp
    have hb : Bounded (markRunningTransaction cfg s.db.store r now) := by
      refine h.bounded.write row ?_ hruns hsame hnext
      rfl
    exact hb
  · have hc := h.consistent.mark now row active
    change Consistent (markRunningTransaction cfg s.db.store r now).agents
      (markRunningTransaction cfg s.db.store r now).runs
    rwa [hagents, hruns]
  · intro q hq
    change (markRunningTransaction cfg s.db.store r now).nextId ≤ q at hq
    have hne : q ≠ r := by
      rintro rfl
      omega
    change Function.update s.tasks r _ q = none
    rw [Function.update_of_ne hne]
    exact h.fresh q (by omega)
  · intro q other htask hrow
    change (markRunningTransaction cfg s.db.store r now).runs q = some other at hrow
    rw [hruns] at hrow
    by_cases hq : q = r
    · subst hq
      obtain rfl : { run with status := .running, startedAt := some now } = other := by simpa using hrow
      rfl
    · rw [Function.update_of_ne hq] at hrow
      change Function.update s.tasks r _ q = some .marked at htask
      rw [Function.update_of_ne hq] at htask
      exact h.started q other htask hrow

theorem Session.sysSound {cfg : Config} {s t : Sys} (h : SysSound s) (hs : Session cfg s t) : SysSound t := by
  cases hs with
  | agentCreated modelRef graph =>
    have hnone : ∀ q, ¬ ActiveRun s.db.store.runs s.db.store.nextId q := by
      rintro q ⟨run,hrow,hid,-⟩
      have hsome := h.bounded.owner q run hrow
      rw [hid, h.bounded.agents _ le_rfl] at hsome
      cases hsome
    exact ⟨h.bounded.create _,h.consistent.create hnone (by simp),
      fun r hr => h.fresh r (Nat.le_of_succ_le hr),h.started⟩
  | graphUpdated a graph =>
    exact ⟨h.bounded.regraph a graph,h.consistent.keep_status (fun _ => rfl),h.fresh,h.started⟩
  | agentDeleted a idle =>
    refine ⟨h.bounded.delete a,h.consistent.delete (fun _ _ => ownedBy_row),h.fresh,?_⟩
    intro r run htask hrow
    exact h.started r run htask (deleteAgentRow_runs hrow).2
  | runStarted a inputText link spawned store r agent started =>
    refine h.start started ?_ ?_
    · intro q hq
      split
      · exact Function.update_of_ne hq _ _
      · rfl
    · split
      · exact .inr (Function.update_self _ _ _)
      · exact .inl rfl
  | runMarked r run now task row active => exact h.mark row active
  | runFinished r run outcome now row active may =>
    exact h.close _ outcome row active may (finishTransaction_runs_update row) (finishTransaction_agents row)
      finishTransaction_nextId
  | actionRecorded entry row fresh intent =>
    exact ⟨⟨fun r hr => h.bounded.runs r (Nat.le_of_succ_le hr),
      fun a ha => h.bounded.agents a (Nat.le_of_succ_le ha),h.bounded.owner⟩,h.consistent,
      fun r hr => h.fresh r (Nat.le_of_succ_le hr),h.started⟩
  | actionUpdated entry status now => exact ⟨h.bounded,h.consistent,h.fresh,h.started⟩
  | recovered clock stale result recovery lists ok =>
    obtain ⟨hnodup,hactive,-⟩ := listsStale_iff lists
    refine recoverLoop_induct (P := fun db => SysSound { s with db := db }) ?_ hnodup hactive h ok
    intro db r run hdb hrow hrun
    exact hdb.close _ (.failed interruptedError) hrow hrun rfl (recoverRun_runs hrow)
      recoverRun_agents (Nat.le_add_right _ 2)
  | raised => exact h
  | failedStale now stale recovery lists =>
    obtain ⟨hnodup,hactive,-⟩ := listsStale_iff lists
    refine failStaleRuns_induct (P := fun db => SysSound { s with db := db }) ?_ hnodup hactive h
    intro db r run hdb hrow hrun
    exact hdb.close { db with store := interruptRows db.store r run now } (.failed interruptedError) hrow hrun rfl (interruptRows_runs hrow) interruptRows_agents le_rfl
  | restarted =>
    exact ⟨h.bounded,h.consistent,fun _ _ => rfl,fun _ _ htask => by cases htask⟩

theorem Reachable.sysSound {cfg : Config} {s : Sys} (h : Reachable cfg s) : SysSound s :=
  h.invariant (fun _ _ _ hs _ he => (step_session he).sysSound hs) SysSound.initial

/-- In every reachable state an agent has at most one active run and is RUNNING
exactly while it has one, and the columns of every run agree with its status. -/
theorem run_and_agent_records_consistent (cfg : Config) (s : Sys) (h : Reachable cfg s) :
    (∀ a r q, ActiveRun s.db.store.runs a r → ActiveRun s.db.store.runs a q → r = q) ∧
    (∀ a agent, s.db.store.agents a = some agent →
      (agent.status = .running ↔ ∃ r, ActiveRun s.db.store.runs a r)) ∧
    ∀ r run, s.db.store.runs r = some run →
      (run.finishedAt.isSome = true ↔ run.status.terminal = true) ∧
      (run.outputText.isSome = true ↔ run.status = .succeeded) ∧
      (run.error.isSome = true ↔ run.status = .failed) ∧
      (run.status = .running ∨ run.status = .succeeded → run.startedAt.isSome = true) := by
  have hc := h.sysSound.consistent
  refine ⟨hc.unique,hc.running,?_⟩
  intro r run hrow
  have hcols := hc.columns r run hrow
  exact ⟨hcols.finished,hcols.output,hcols.error,hcols.started⟩

theorem run_and_agent_records_consistent_interrupted :
    (∀ agent, interrupted.db.store.agents 1 = some agent →
      (agent.status = .running ↔ ∃ r, ActiveRun interrupted.db.store.runs 1 r)) ∧
    (interrupted.db.store.agents 1).map AgentRecord.status = some .running :=
  ⟨(run_and_agent_records_consistent sampleConfig interrupted interrupted_reachable).2.1 1,by decide⟩

end AgentGraph.Recovery
