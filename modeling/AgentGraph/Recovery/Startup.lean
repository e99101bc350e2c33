import AgentGraph.Recovery.Checkpoints

/-! # Startup recovery is complete, exact, atomic and idempotent

The loop of `recover_stale_runs` is followed over the rows it has done so far: each
has gained its decision, made from the tables as they were before the loop, and its
FAILED checkpoint; no other row has changed.
-/
set_option autoImplicit false
namespace AgentGraph.Recovery
open Transition

/-- What recovery has done to one stale run and its agent. -/
structure RunRecovered (cfg : Config) (now : Instant) (before after : Database) (r : RunId) (run : RunRecord) :
    Prop where
  row : before.store.runs r = some run
  failed : after.store.runs r = some (interruptRun now run)
  agent : after.store.agents run.agentId =
    (before.store.agents run.agentId).map fun agent => { agent with status := .error }
  decision : ∃ decision, after.decisionsOf r = before.decisionsOf r ++ [decision] ∧
    decision.checkpointId = (latestCheckpoint before.store r).map CheckpointRecord.id ∧
    (decision.outcome,decision.details) =
      recoveryOutcome cfg r (latestCheckpoint before.store r) (before.actionsOf r)
  checkpoint : ∃ checkpoint, after.store.checkpointsOf r = before.store.checkpointsOf r ++ [checkpoint] ∧
    checkpoint.reason = .failed ∧
    checkpoint.sequence = (before.store.checkpointsOf r).foldl (fun m c => max m c.sequence) 0 + 1

/-- What recovery leaves alone, for the runs it has done. -/
structure OthersKept (before after : Database) (done : RunId → Prop) : Prop where
  runs : ∀ r, ¬ done r → after.store.runs r = before.store.runs r
  checkpoints : ∀ r, ¬ done r → after.store.checkpointsOf r = before.store.checkpointsOf r
  decisions : ∀ r, ¬ done r → after.decisionsOf r = before.decisionsOf r
  agents : ∀ a, (∀ r run, done r → before.store.runs r = some run → run.agentId ≠ a) →
    after.store.agents a = before.store.agents a
  actions : after.actions = before.actions
  delegations : after.store.delegations = before.store.delegations

theorem OthersKept.trans {before middle after : Database} {done done' : RunId → Prop}
    (h : OthersKept before middle done) (h' : OthersKept middle after done')
    (hrows : ∀ r, done' r → ¬ done r) : OthersKept before after fun r => done r ∨ done' r := by
  refine ⟨?_,?_,?_,?_,h'.actions.trans h.actions,h'.delegations.trans h.delegations⟩
  · intro r hr
    obtain ⟨hn,hn'⟩ := not_or.mp hr
    exact (h'.runs r hn').trans (h.runs r hn)
  · intro r hr
    obtain ⟨hn,hn'⟩ := not_or.mp hr
    exact (h'.checkpoints r hn').trans (h.checkpoints r hn)
  · intro r hr
    obtain ⟨hn,hn'⟩ := not_or.mp hr
    exact (h'.decisions r hn').trans (h.decisions r hn)
  · intro a ha
    have hmiddle := h.agents a fun r run hr => ha r run (.inl hr)
    refine (h'.agents a fun r run hr hrow => ?_).trans hmiddle
    rw [h.runs r (hrows r hr)] at hrow
    exact ha r run (.inr hr) hrow

section Turn
variable {cfg : Config} {db : Database} {r : RunId} {run : RunRecord} {now : Instant}

theorem recoverRun_decisionsOf (q : RunId) : (recoverRun cfg now db r run).1.decisionsOf q =
    db.decisionsOf q ++ if r = q then
      [⟨db.store.nextId,r,(latestCheckpoint db.store r).map CheckpointRecord.id,
        (recoveryOutcome cfg r (latestCheckpoint db.store r) (db.actionsOf r)).1,
        (recoveryOutcome cfg r (latestCheckpoint db.store r) (db.actionsOf r)).2⟩] else [] := by
  change (db.decisions ++ [_]).filter _ = _
  rw [List.filter_append]
  by_cases hq : r = q <;> simp [hq, Database.decisionsOf, assessStaleRun]

/-- One turn of the loop recovers its run. -/
theorem recoverRun_recovered (cfg : Config) (now : Instant) (hrow : db.store.runs r = some run) :
    RunRecovered cfg now db (recoverRun cfg now db r run).1 r run := by
  refine ⟨hrow,?_,?_,?_,?_⟩
  · rw [recoverRun_runs hrow, Function.update_self]
  · rw [recoverRun_agents, Function.update_self]
  · rw [recoverRun_decisionsOf, if_pos rfl]
    exact ⟨_,rfl,rfl,rfl⟩
  · rw [checkpointsOf_append recoverRun_appends]
    exact ⟨nextCheckpoint cfg (db.store.nextId + 1) (db.store.checkpointsOf r) r
      (run.executionSpec.getD (.obj [])) .failed,by simp [nextCheckpoint, Store.checkpointsOf],rfl,rfl⟩

/-- One turn of the loop writes the rows of its run and of its agent only. -/
theorem recoverRun_others (cfg : Config) (now : Instant) (hrow : db.store.runs r = some run) :
    OthersKept db (recoverRun cfg now db r run).1 fun q => q = r := by
  refine ⟨?_,?_,?_,?_,rfl,rfl⟩
  · intro q hq
    rw [recoverRun_runs hrow, Function.update_of_ne hq]
  · intro q hq
    have hne : r ≠ q := fun he => hq he.symm
    rw [checkpointsOf_append recoverRun_appends]
    simp [nextCheckpoint, hne, Store.checkpointsOf]
  · intro q hq
    have hne : r ≠ q := fun he => hq he.symm
    rw [recoverRun_decisionsOf]
    simp [hne]
  · intro a ha
    have hne : a ≠ run.agentId := fun he => ha r run rfl hrow he.symm
    rw [recoverRun_agents, Function.update_of_ne hne]

end Turn

/-- A run that is recovered after other turns was recovered from the tables as they
were before those turns. -/
theorem RunRecovered.of_later {cfg : Config} {now : Instant} {before middle after : Database}
    {done : RunId → Prop} {r : RunId} {run : RunRecord} (hkept : OthersKept before middle done)
    (hr : ¬ done r) (herror : middle.store.agents run.agentId = before.store.agents run.agentId ∨
      middle.store.agents run.agentId =
        (before.store.agents run.agentId).map fun agent => { agent with status := .error })
    (h : RunRecovered cfg now middle after r run) : RunRecovered cfg now before after r run := by
  have hcps := hkept.checkpoints r hr
  have hlatest : latestCheckpoint middle.store r = latestCheckpoint before.store r := by
    rw [latestCheckpoint, latestCheckpoint, hcps]
  have hactions : middle.actionsOf r = before.actionsOf r := by
    rw [Database.actionsOf, Database.actionsOf, hkept.actions]
  refine ⟨?_,h.failed,?_,?_,?_⟩
  · rw [← hkept.runs r hr]
    exact h.row
  · rw [h.agent]
    rcases herror with he | he
    · rw [he]
    · rw [he, Option.map_map]
      rfl
  · obtain ⟨decision,hd,hid,hout⟩ := h.decision
    rw [hkept.decisions r hr] at hd
    rw [hlatest] at hid hout
    rw [hactions] at hout
    exact ⟨decision,hd,hid,hout⟩
  · obtain ⟨checkpoint,hc,hreason,hseq⟩ := h.checkpoint
    rw [hcps] at hc hseq
    exact ⟨checkpoint,hc,hreason,hseq⟩

/-- A recovered run stays recovered through turns of other runs. -/
theorem RunRecovered.of_earlier {cfg : Config} {now : Instant} {before middle after : Database}
    {done : RunId → Prop} {r : RunId} {run : RunRecord} (h : RunRecovered cfg now before middle r run)
    (hkept : OthersKept middle after done) (hr : ¬ done r)
    (herror : after.store.agents run.agentId = middle.store.agents run.agentId ∨
      after.store.agents run.agentId =
        (middle.store.agents run.agentId).map fun agent => { agent with status := .error }) :
    RunRecovered cfg now before after r run := by
  refine ⟨h.row,?_,?_,?_,?_⟩
  · rw [hkept.runs r hr]
    exact h.failed
  · rcases herror with he | he
    · rw [he, h.agent]
    · rw [he, h.agent, Option.map_map]
      rfl
  · rw [hkept.decisions r hr]
    exact h.decision
  · rw [hkept.checkpoints r hr]
    exact h.checkpoint

/-- What the loop has done once it has come to its commit. -/
structure LoopDone (cfg : Config) (clock : RunId → Instant) (before after : Database) (stale : List RunId) :
    Prop where
  recovered : ∀ r ∈ stale, ∃ run, RunRecovered cfg (clock r) before after r run
  kept : OthersKept before after fun r => r ∈ stale
  agents : ∀ a, after.store.agents a = before.store.agents a ∨
    after.store.agents a = (before.store.agents a).map fun agent => { agent with status := .error }

theorem recoverLoop_done {cfg : Config} {clock : RunId → Instant} {stale : List RunId} {db : Database}
    {result : Database × List Recovered} (hnodup : stale.Nodup)
    (hrows : ∀ r ∈ stale, ∃ run, db.store.runs r = some run)
    (h : recoverLoop cfg clock none stale db = .ok result) : LoopDone cfg clock db result.1 stale := by
  induction stale generalizing db result with
  | nil =>
    obtain rfl : (db,[]) = result := Except.ok.inj h
    exact ⟨by simp,⟨fun _ _ => rfl,fun _ _ => rfl,fun _ _ => rfl,fun _ _ => rfl,rfl,rfl⟩,fun _ => .inl rfl⟩
  | cons r rest ih =>
    obtain ⟨run,hrow⟩ := hrows r (by simp)
    obtain ⟨hr,hnodup⟩ := List.nodup_cons.mp hnodup
    simp only [recoverLoop, hrow, Option.map_none, except_bind_eq_ok] at h
    obtain ⟨inner,hinner,hresult⟩ := h
    obtain rfl := Except.ok.inj hresult
    have hturn := recoverRun_recovered cfg (clock r) hrow
    have hothers := recoverRun_others cfg (clock r) hrow
    have hne : ∀ q ∈ rest, ¬ q = r := by
      rintro q hq rfl
      exact hr hq
    have hrest : ∀ q ∈ rest, ∃ other, (recoverRun cfg (clock r) db r run).1.store.runs q = some other := by
      intro q hq
      obtain ⟨other,hother⟩ := hrows q (by simp [hq])
      exact ⟨other,(hothers.runs q (hne q hq)).trans hother⟩
    have hdone := ih hnodup hrest hinner
    have hagent : ∀ a, (recoverRun cfg (clock r) db r run).1.store.agents a = db.store.agents a ∨
        (recoverRun cfg (clock r) db r run).1.store.agents a =
          (db.store.agents a).map fun agent => { agent with status := .error } := by
      intro a
      rw [recoverRun_agents]
      by_cases ha : a = run.agentId
      · subst ha
        exact .inr (Function.update_self _ _ _)
      · exact .inl (Function.update_of_ne ha _ _)
    refine ⟨?_,?_,?_⟩
    · intro q hq
      rcases List.mem_cons.mp hq with rfl | hq
      · exact ⟨run,hturn.of_earlier hdone.kept hr (hdone.agents run.agentId)⟩
      · obtain ⟨other,hother⟩ := hdone.recovered q hq
        exact ⟨other,hother.of_later hothers (hne q hq) (hagent other.agentId)⟩
    · have hkept := hothers.trans hdone.kept hne
      have hmem : (fun q => q ∈ r :: rest) = fun q => q = r ∨ q ∈ rest := by
        funext q
        simp
      rw [hmem]
      exact hkept
    · intro a
      rcases hdone.agents a with hd | hd <;> rcases hagent a with ha | ha
      · exact .inl (hd.trans ha)
      · exact .inr (hd.trans ha)
      · exact .inr (hd.trans (by rw [ha]))
      · refine .inr (hd.trans ?_)
        rw [ha, Option.map_map]
        rfl

/-- A database without stale rows: recovery does nothing. -/
theorem recoverStaleRuns_idle {cfg : Config} {clock : RunId → Instant} {fault : Fault} {stale : List RunId}
    {db : Database} (hlists : listsStale db stale = true) (hidle : ∀ r, ¬ db.IsStale r) :
    (recoverStaleRuns cfg clock fault stale db).2 = (db,[]) := by
  have hnil : stale = [] := by
    refine List.eq_nil_iff_forall_not_mem.mpr fun r hr => ?_
    exact hidle r ((listsStale_iff hlists).2.1 r hr)
  subst hnil
  match fault with
  | some (n,error) => simp only [recoverStaleRuns, recoverLoop_fault]
  | none =>
    simp only [recoverStaleRuns, recoverLoop]
    split <;> rfl

/-- In every reachable state a call of `recover_stale_runs` that returns has recovered
every stale run and changed nothing else, one that raises has changed nothing, and a
call after it, whatever order and faults it meets, changes and publishes nothing. -/
theorem recover_stale_runs_exact (cfg : Config) (s : Sys) (h : Reachable cfg s) (clock : RunId → Instant)
    (fault : Fault) (stale : List RunId) (hlists : listsStale s.db stale = true) (outcome : Except Exc Unit)
    (db : Database) (events : List RecoveryEvent)
    (hcall : recoverStaleRuns cfg clock fault stale s.db = (outcome,db,events)) :
    (outcome = .ok () →
      (∀ r, s.db.IsStale r → ∃ run, RunRecovered cfg (clock r) s.db db r run ∧
        (db.store.agents run.agentId).map AgentRecord.status = some .error) ∧
      OthersKept s.db db s.db.IsStale ∧
      (∀ a, db.store.agents a = s.db.store.agents a ∨
        db.store.agents a = (s.db.store.agents a).map fun agent => { agent with status := .error }) ∧
      ∀ clock' fault' stale', listsStale db stale' = true →
        (recoverStaleRuns cfg clock' fault' stale' db).2 = (db,[])) ∧
    (∀ error, outcome = .error error → db = s.db ∧ events = []) := by
  obtain ⟨hnodup,hactive,hall⟩ := listsStale_iff hlists
  have hmem : ∀ r, s.db.IsStale r ↔ r ∈ stale := by
    intro r
    refine ⟨fun hs => ?_,hactive r⟩
    obtain ⟨run,hrow,hact⟩ := hs
    exact hall r (h.sysSound.bounded.lt hrow) ⟨run,hrow,hact⟩
  unfold recoverStaleRuns at hcall
  match hloop : recoverLoop cfg clock fault stale s.db with
  | .error error =>
    rw [hloop] at hcall
    obtain ⟨rfl,hrest⟩ := Prod.mk.inj hcall
    obtain ⟨rfl,rfl⟩ := Prod.mk.inj hrest
    exact ⟨fun he => (by cases he),fun _ _ => ⟨rfl,rfl⟩⟩
  | .ok result =>
    rw [hloop] at hcall
    obtain ⟨rfl,hrest⟩ := Prod.mk.inj hcall
    obtain ⟨rfl,-⟩ := Prod.mk.inj hrest
    refine ⟨fun _ => ?_,fun error he => by cases he⟩
    obtain rfl : fault = none := by
      match fault with
      | none => rfl
      | some (n,error) =>
        rw [recoverLoop_fault] at hloop
        cases hloop
    have hrows : ∀ r ∈ stale, ∃ run, s.db.store.runs r = some run := by
      intro r hr
      obtain ⟨run,hrow,-⟩ := hactive r hr
      exact ⟨run,hrow⟩
    have hdone := recoverLoop_done hnodup hrows hloop
    have hsame : s.db.IsStale = fun r => r ∈ stale := funext fun r => propext (hmem r)
    refine ⟨?_,hsame ▸ hdone.kept,hdone.agents,?_⟩
    · intro r hr
      obtain ⟨run,hrun⟩ := hdone.recovered r ((hmem r).mp hr)
      obtain ⟨agent,hagent⟩ := Option.isSome_iff_exists.mp (h.sysSound.bounded.owner r run hrun.row)
      exact ⟨run,hrun,by rw [hrun.agent, hagent]; rfl⟩
    intro clock' fault' stale' hlists'
    refine recoverStaleRuns_idle hlists' fun r hr => ?_
    obtain ⟨row,hrow,hact⟩ := hr
    by_cases hr : r ∈ stale
    · obtain ⟨run,hrec⟩ := hdone.recovered r hr
      rw [hrec.failed] at hrow
      obtain rfl := Option.some.inj hrow
      cases hact
    · rw [hdone.kept.runs r hr] at hrow
      exact hr ((hmem r).mp ⟨row,hrow,hact⟩)

theorem recover_stale_runs_exact_interrupted :
    ∃ db events run, recoverStaleRuns sampleConfig (fun _ => 9) none [6] interrupted.db = (.ok (),db,events) ∧
      RunRecovered sampleConfig 9 interrupted.db db 6 run := by
  obtain ⟨result,hloop⟩ := recoverLoop_ok sampleConfig (fun _ => 9) [6] interrupted.db
  have hcall : recoverStaleRuns sampleConfig (fun _ => 9) none [6] interrupted.db =
      (.ok (),result.1,result.2.flatMap Recovered.publish) := by
    simp only [recoverStaleRuns, hloop]
    rfl
  have hstale : interrupted.db.IsStale 6 := activeRow_iff.mp (by decide)
  obtain ⟨run,hrun,-⟩ := ((recover_stale_runs_exact sampleConfig interrupted interrupted_reachable (fun _ => 9)
    none [6] (by decide) _ _ _ hcall).1 rfl).1 6 hstale
  exact ⟨_,_,run,hcall,hrun⟩

end AgentGraph.Recovery
