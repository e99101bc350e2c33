import AgentGraph.Tools.Steps

/-! # Recovery never calls an unresolved effect safe

The intent of a tool call is in the ledger before its body begins, and an entry of the
ledger disappears only with its run. At whatever commit the process stops, an
interrupted run whose bodies are not all CONFIRMED or FAILED therefore still has an
entry that the assessment counts as uncertain.
-/
set_option autoImplicit false
namespace AgentGraph.Tools
open Transition Recovery

/-- The entry of a run is in the ledger as long as the run is in the database. -/
structure Held (db : Database) (r : RunId) (entry : EntryId) : Prop where
  known : (r : Nat) < db.store.nextId
  kept : (db.store.runs r).isSome = true → ∃ action ∈ db.actions, action.id = entry ∧ action.runId = r

theorem ActionRecord.assign_id (status : ActionLedgerStatus) (now : Instant) (entry : ActionRecord) :
    (entry.assign status now).id = entry.id := by
  cases status <;> rfl

theorem ActionRecord.assign_runId (status : ActionLedgerStatus) (now : Instant) (entry : ActionRecord) :
    (entry.assign status now).runId = entry.runId := by
  cases status <;> rfl

/-- `update_action` keeps every entry, with its run. -/
theorem updateAction_keeps {db : Database} (entryId : EntryId) (status : ActionLedgerStatus) (now : Instant)
    {action : ActionRecord} (h : action ∈ db.actions) :
    ∃ action' ∈ (updateAction db entryId status now).actions,
      action'.id = action.id ∧ action'.runId = action.runId := by
  refine ⟨_,List.mem_map_of_mem h,?_⟩
  split
  · exact ⟨ActionRecord.assign_id status now action,ActionRecord.assign_runId status now action⟩
  · exact ⟨rfl,rfl⟩

/-- Every session of the server keeps the entries of the runs it keeps. -/
theorem Held.session {cfg : Config} {s t : Recovery.Sys} {r : Nat} {entry : EntryId}
    (h : Held s.db r entry) (hs : Session cfg s t) : Held t.db r entry := by
  have hknown : r < s.db.store.nextId := h.known
  cases hs with
  | agentCreated modelRef graph => exact ⟨Nat.lt_succ_of_lt h.known,h.kept⟩
  | graphUpdated a graph => exact ⟨h.known,h.kept⟩
  | agentDeleted a idle =>
    refine ⟨h.known,fun hrow => ?_⟩
    obtain ⟨run,hrow⟩ := Option.isSome_iff_exists.mp hrow
    obtain ⟨hne,hrow⟩ := deleteAgentRow_runs hrow
    obtain ⟨action,haction,hid,hr⟩ := h.kept (by simp [hrow])
    have hgone : ownedBy s.db.store a action.runId = false := by
      rw [hr, ownedBy_row hrow]
      simpa using hne
    exact ⟨action,List.mem_filter.mpr ⟨haction,by simp [hgone]⟩,hid,hr⟩
  | runStarted a inputText link spawned store q agent started =>
    have hne : r ≠ q := by
      rintro rfl
      have hfresh : s.db.store.nextId = r := started.fresh
      omega
    refine ⟨h.known.trans started.nextId,fun hrow => ?_⟩
    change (store.runs r).isSome = true at hrow
    rw [started.runs, Function.update_of_ne hne] at hrow
    exact h.kept hrow
  | runMarked q run now task row active =>
    refine ⟨lt_of_lt_of_le h.known markRunningTransaction_nextId,fun hrow => h.kept ?_⟩
    change ((markRunningTransaction cfg s.db.store q now).runs r).isSome = true at hrow
    rw [markRunningTransaction_runs] at hrow
    split at hrow
    next he => simp [he, row]
    · exact hrow
  | runFinished q run outcome now row active may =>
    refine ⟨lt_of_lt_of_le h.known finishTransaction_nextId,fun hrow => h.kept ?_⟩
    change ((finishTransaction cfg s.db.store q outcome now).runs r).isSome = true at hrow
    rw [finishTransaction_runs] at hrow
    split at hrow
    next he => simp [he, row]
    · exact hrow
  | actionRecorded action row fresh intent =>
    refine ⟨Nat.lt_succ_of_lt h.known,fun hrow => ?_⟩
    obtain ⟨old,hold,hid,hr⟩ := h.kept hrow
    exact ⟨old,List.mem_append_left _ hold,hid,hr⟩
  | actionUpdated entryId status now =>
    refine ⟨h.known,fun hrow => ?_⟩
    obtain ⟨old,hold,hid,hr⟩ := h.kept hrow
    obtain ⟨new,hnew,hid',hr'⟩ := updateAction_keeps entryId status now hold
    exact ⟨new,hnew,hid'.trans hid,hr'.trans hr⟩
  | recovered clock stale result recovery lists ok =>
    obtain ⟨hnodup,hactive,-⟩ := listsStale_iff lists
    refine recoverLoop_induct (P := fun db => Held db r entry) ?_ hnodup hactive h ok
    intro db q run hdb hrow _
    refine ⟨hdb.known.trans (by simp),fun hr => hdb.kept ?_⟩
    rw [recoverRun_runs hrow] at hr
    by_cases hq : r = q
    · simp [hq, hrow]
    · rwa [Function.update_of_ne hq] at hr
  | raised => exact h
  | failedStale now stale recovery lists =>
    obtain ⟨hnodup,hactive,-⟩ := listsStale_iff lists
    refine failStaleRuns_induct (P := fun db => Held db r entry) ?_ hnodup hactive h
    intro db q run hdb hrow _
    refine ⟨hdb.known,fun hr => hdb.kept ?_⟩
    change ((interruptRows db.store q run now).runs r).isSome = true at hr
    rw [interruptRows_runs hrow] at hr
    by_cases hq : r = q
    · simp [hq, hrow]
    · rwa [Function.update_of_ne hq] at hr
  | restarted => exact ⟨h.known,h.kept⟩

/-- The ledger entry a call works with, once it has one. -/
def Pc.heldEntry : Pc → Option EntryId
  | .recordStarted _ _ entry | .begin _ _ entry => some entry
  | _ => none

/-- Every body that has begun has its intent in the ledger, and so has every call that
is about to begin one. -/
structure LedgerSound (s : Sys) : Prop where
  bodies : ∀ c r entry, .bodyStarted c r entry ∈ s.log → Held s.server.db r entry
  calls : ∀ c call entry, s.calls c = some call → call.pc.heldEntry = some entry →
    Held s.server.db call.runId entry

theorem LedgerSound.initial (server : Recovery.Sys) : LedgerSound (Sys.initial server) := by
  constructor <;> simp [Sys.initial]

/-- A step that keeps the entries held, and begins bodies and takes up entries only
when they are held. -/
theorem LedgerSound.move {s t : Sys} (h : LedgerSound s)
    (hheld : ∀ r entry, Held s.server.db r entry → Held t.server.db r entry)
    (hlog : ∀ c r entry, .bodyStarted c r entry ∈ t.log →
      .bodyStarted c r entry ∈ s.log ∨ Held t.server.db r entry)
    (hcalls : ∀ c call entry, t.calls c = some call → call.pc.heldEntry = some entry →
      s.calls c = some call ∨ Held t.server.db call.runId entry) : LedgerSound t := by
  refine ⟨?_,?_⟩
  · intro c r entry he
    rcases hlog c r entry he with hold | hnew
    · exact hheld r entry (h.bodies c r entry hold)
    · exact hnew
  · intro c call entry hc he
    rcases hcalls c call entry hc he with hold | hnew
    · exact hheld call.runId entry (h.calls c call entry hold he)
    · exact hnew

theorem afterDecision_entry (call : Call) (invocation : InvocationId) (approval : ApprovalId)
    (status : ApprovalStatus) : (afterDecision call invocation approval status).heldEntry = none := by
  cases status <;> rfl

/-- A call that moves to a point without an entry. -/
theorem goto_entry {s : Sys} {c c' : CallId} {call call' : Call} {pc : Pc} {entry : EntryId}
    (hpc : pc.heldEntry = none) (hc : (s.goto c call pc).calls c' = some call') (he : call'.pc.heldEntry = some entry) :
    s.calls c' = some call' := by
  by_cases hcc : c' = c
  · subst hcc
    obtain rfl : { call with pc := pc } = call' := by simpa [Sys.goto, Sys.setCall] using hc
    rw [hpc] at he
    cases he
  · simpa [Sys.goto, Sys.setCall, Function.update_of_ne hcc] using hc

theorem leave_calls {s : Sys} {c c' : CallId} {call : Call} (h : (s.leave c).calls c' = some call) :
    s.calls c' = some call := by
  by_cases hcc : c' = c
  · subst hcc
    simp [Sys.leave] at h
  · simpa [Sys.leave, Function.update_of_ne hcc] using h

/-- A call that moves to a point with an entry that is held. -/
theorem goto_held {s : Sys} {db : Database} {c c' : CallId} {call call' : Call} {pc : Pc} {entry : EntryId}
    (hheld : ∀ e, pc.heldEntry = some e → Held db call.runId e) (hc : (s.goto c call pc).calls c' = some call')
    (he : call'.pc.heldEntry = some entry) : s.calls c' = some call' ∨ Held db call'.runId entry := by
  by_cases hcc : c' = c
  · subst hcc
    obtain rfl : { call with pc := pc } = call' := by simpa [Sys.goto, Sys.setCall] using hc
    exact .inr (hheld entry he)
  · exact .inl (by simpa [Sys.goto, Sys.setCall, Function.update_of_ne hcc] using hc)

/-- A step keeps every entry that is held. -/
theorem step_held {cfg : Config} {settings : Settings} {l : Label} {s t : Sys}
    (h : step cfg settings l s = some t) {r : RunId} {entry : EntryId} (hr : Held s.server.db r entry) :
    Held t.server.db r entry := by
  rcases step_server h with hsame | ⟨l',hl⟩
  · rwa [hsame]
  · exact hr.session (step_session hl)

theorem step_sysSound {cfg : Config} {settings : Settings} {l : Label} {s t : Sys}
    (h : step cfg settings l s = some t) (hsound : SysSound s.server) : SysSound t.server := by
  rcases step_server h with hsame | ⟨l',hl⟩
  · rwa [hsame]
  · exact (step_session hl).sysSound hsound

theorem step_ledgerSound {cfg : Config} {settings : Settings} {l : Label} {s t : Sys}
    (hsound : SysSound s.server) (h : LedgerSound s) (he : step cfg settings l s = some t) : LedgerSound t := by
  have hheld : ∀ r entry, Held s.server.db r entry → Held t.server.db r entry := fun _ _ => step_held he
  rcases step_next he with ⟨l',server,-,-,-,rfl⟩ | hn
  · exact h.move hheld (fun _ _ _ he => .inl he) (fun _ _ _ hc _ => .inl hc)
  cases hn with
  | refused r toolId arguments result =>
    exact h.move hheld (fun _ _ _ he => .inl (by simpa [Sys.note, Sys.enter] using he)) (fun _ _ _ hc _ => .inl hc)
  | entered r toolId arguments definition applicationId admitted =>
    refine h.move hheld (fun _ _ _ he => .inl (by simpa [Sys.setCall, Sys.enter] using he)) ?_
    intro c call entry hc he
    by_cases hcc : c = s.nextCall
    · subst hcc
      obtain rfl : _ = call := by simpa [Sys.setCall] using hc
      cases he
    · exact .inl (by simpa [Sys.setCall, Sys.enter, Function.update_of_ne hcc] using hc)
  | inserted c call row pc =>
    refine h.move hheld (fun _ _ _ he => .inl he) fun c' call' entry hc he => .inl ?_
    refine goto_entry ?_ hc he
    split <;> rfl
  | requested c call invocation request row pc undecided =>
    refine h.move hheld (fun _ _ _ he => .inl (List.mem_of_ne_of_mem (by simp) he))
      fun c' call' entry hc he => .inl ?_
    exact goto_entry rfl hc he
  | linked c call invocation approval f row pc =>
    exact h.move hheld (fun _ _ _ he => .inl he) fun c' call' entry hc he => .inl (goto_entry rfl hc he)
  | resolved c call invocation approval status row pc found =>
    refine h.move hheld (fun _ _ _ he => .inl he) fun c' call' entry hc he => .inl ?_
    exact goto_entry (afterDecision_entry call invocation approval status) hc he
  | finishedRefused c invocation f result =>
    refine h.move hheld (fun _ _ _ he => .inl (List.mem_of_ne_of_mem (by simp) he))
      fun c' call' entry hc he => .inl ?_
    exact leave_calls hc
  | intended c call invocation approval recorded row pc committed =>
    refine h.move hheld (fun _ _ _ he => .inl he) fun c' call' entry hc he => ?_
    refine goto_held ?_ hc he
    rintro e he'
    obtain rfl : recorded.2 = e := Option.some.inj he'
    simp only [recordActionIntent, Option.ite_none_right_eq_some, Option.some.injEq] at committed
    obtain ⟨hrow,rfl⟩ := committed
    obtain ⟨run,hrun⟩ := Option.isSome_iff_exists.mp hrow
    exact ⟨Nat.lt_succ_of_lt (hsound.bounded.lt hrun),
      fun _ => ⟨_,List.mem_append_right _ (List.mem_singleton_self _),rfl,rfl⟩⟩
  | started c call invocation approval entry now row pc =>
    have hcall := h.calls c call entry row (by rw [pc]; rfl)
    refine h.move hheld (fun _ _ _ he => .inl (List.mem_of_ne_of_mem (by simp) he))
      fun c' call' e hc he => ?_
    refine goto_held ?_ hc he
    rintro e he'
    obtain rfl : entry = e := Option.some.inj he'
    exact hheld _ _ hcall
  | startedMissing c call invocation approval entry now row pc missing =>
    have hcall := h.calls c call entry row (by rw [pc]; rfl)
    refine h.move hheld (fun _ _ _ he => .inl he) fun c' call' e hc he => ?_
    refine goto_held ?_ hc he
    rintro e he'
    obtain rfl : entry = e := Option.some.inj he'
    exact hheld _ _ hcall
  | bodyRaised c call invocation approval entry row pc =>
    have hcall := h.calls c call entry row (by rw [pc]; rfl)
    refine h.move hheld ?_ fun c' call' e hc he => .inl (leave_calls hc)
    intro c' r e he
    rcases List.mem_cons.mp he with heq | hold
    · obtain ⟨rfl,rfl,rfl⟩ := Event.bodyStarted.inj heq
      exact .inr hcall
    · exact .inl hold
  | bodyEntered c call invocation approval entry row pc =>
    have hcall := h.calls c call entry row (by rw [pc]; rfl)
    refine h.move hheld ?_ fun c' call' e hc he => .inl (goto_entry rfl hc he)
    intro c' r e he
    rcases List.mem_cons.mp he with heq | hold
    · obtain ⟨rfl,rfl,rfl⟩ := Event.bodyStarted.inj heq
      exact .inr hcall
    · exact .inl hold
  | bodyLaunched c call invocation approval entry vector row pc launch =>
    have hcall := h.calls c call entry row (by rw [pc]; rfl)
    refine h.move hheld ?_ fun c' call' e hc he => .inl (goto_entry rfl hc he)
    intro c' r e he
    rcases List.mem_cons.mp he with heq | he
    · cases heq
    rcases List.mem_cons.mp he with heq | hold
    · obtain ⟨rfl,rfl,rfl⟩ := Event.bodyStarted.inj heq
      exact .inr hcall
    · exact .inl hold
  | bodyEnded c call invocation approval entry result status row pc =>
    exact h.move hheld (fun _ _ _ he => .inl he) fun c' call' e hc he => .inl (goto_entry rfl hc he)
  | completed c call invocation f result entry status row pc =>
    exact h.move hheld (fun _ _ _ he => .inl he) fun c' call' e hc he => .inl (goto_entry rfl hc he)
  | settled c result entry status now =>
    refine h.move hheld (fun _ _ _ he => .inl (List.mem_of_ne_of_mem (by simp) he))
      fun c' call' e hc he => .inl ?_
    exact leave_calls hc
  | left c => exact h.move hheld (fun _ _ _ he => .inl he) fun c' call' e hc he => .inl (leave_calls hc)
  | expired c call invocation approval request row pc found =>
    refine h.move hheld (fun _ _ _ he => .inl he) fun c' call' e hc he => .inl ?_
    exact goto_entry (afterDecision_entry call invocation approval .expired) hc he
  | waitCancelled c approval request found =>
    exact h.move hheld (fun _ _ _ he => .inl he) fun c' call' e hc he => .inl (leave_calls hc)
  | approvalAdded request undecided =>
    exact h.move hheld (fun _ _ _ he => .inl he) fun _ _ _ hc _ => .inl hc
  | approvalDecided a request moved approved now found decided =>
    exact h.move hheld (fun _ _ _ he => .inl (List.mem_of_ne_of_mem (by simp) he))
      fun _ _ _ hc _ => .inl hc
  | approvalLapsed a request moved approved now found decided =>
    exact h.move hheld (fun _ _ _ he => .inl he) fun _ _ _ hc _ => .inl hc
  | approvalCancelled a request found =>
    exact h.move hheld (fun _ _ _ he => .inl he) fun _ _ _ hc _ => .inl hc
  | crashed => exact h.move hheld (fun _ _ _ he => .inl he) fun _ _ _ hc _ => by cases hc

theorem reaches_ledgerSound {cfg : Config} {settings : Settings} {s : Sys}
    (h : Reaches (step cfg settings) anyStep (Sys.initial Recovery.Sys.initial) s) :
    SysSound s.server ∧ LedgerSound s :=
  h.invariant (I := fun u => SysSound u.server ∧ LedgerSound u)
    (fun _ _ _ hs _ he => ⟨step_sysSound he hs.1,step_ledgerSound hs.1 hs.2 he⟩)
    ⟨SysSound.initial,LedgerSound.initial _⟩

/-- Every launch happens in a body that has begun. -/
theorem launched_in_body {cfg : Config} {settings : Settings} {s : Sys}
    (h : Reaches (step cfg settings) anyStep (Sys.initial Recovery.Sys.initial) s) :
    ∀ c vector, .launched c vector ∈ s.log → ∃ r entry, .bodyStarted c r entry ∈ s.log := by
  refine h.invariant (I := fun u => ∀ c vector, .launched c vector ∈ u.log →
    ∃ r entry, .bodyStarted c r entry ∈ u.log) ?_ (by simp [Sys.initial])
  intro l u v hu _ he
  have hkeep : ∀ new : List Event, v.log = new ++ u.log → (∀ c vector, .launched c vector ∉ new) →
      ∀ c vector, .launched c vector ∈ v.log → ∃ r entry, .bodyStarted c r entry ∈ v.log := by
    intro new hlog hnew c vector hl
    rw [hlog] at hl ⊢
    rcases List.mem_append.mp hl with hl | hl
    · exact absurd hl (hnew c vector)
    · obtain ⟨r,entry,hb⟩ := hu c vector hl
      exact ⟨r,entry,List.mem_append_right _ hb⟩
  rcases step_next he with ⟨l',server,-,-,-,rfl⟩ | hn
  · exact hkeep [] rfl (by simp)
  cases hn with
  | refused r toolId arguments result =>
    exact hkeep [.returned u.nextCall result,.executed u.nextCall r toolId arguments] rfl (by simp)
  | entered r toolId arguments definition applicationId admitted =>
    exact hkeep [.executed u.nextCall r toolId arguments] rfl (by simp)
  | requested c call invocation request row pc undecided =>
    exact hkeep [.approvalCreated c u.nextApproval] rfl (by simp)
  | finishedRefused c invocation f result => exact hkeep [.returned c result] rfl (by simp)
  | started c call invocation approval entry now row pc => exact hkeep [.actionStarted c entry] rfl (by simp)
  | bodyRaised c call invocation approval entry row pc =>
    exact hkeep [.bodyStarted c call.runId entry] rfl (by simp)
  | bodyEntered c call invocation approval entry row pc =>
    exact hkeep [.bodyStarted c call.runId entry] rfl (by simp)
  | bodyLaunched c call invocation approval entry vector row pc launch =>
    intro c' vector' hl
    rcases List.mem_cons.mp hl with heq | hl
    · obtain ⟨rfl,rfl⟩ := Event.launched.inj heq
      exact ⟨call.runId,entry,by simp [Sys.goto, Sys.setCall, Sys.note]⟩
    · have hl := List.mem_of_ne_of_mem (by simp) hl
      obtain ⟨r,e,hb⟩ := hu c' vector' hl
      exact ⟨r,e,List.mem_cons_of_mem _ (List.mem_cons_of_mem _ hb)⟩
  | settled c result entry status now => exact hkeep [.returned c result] rfl (by simp)
  | approvalDecided a request moved approved now found decided => exact hkeep [.decided a approved] rfl (by simp)
  | _ => exact hkeep [] rfl (by simp)

/-- The body has a committed outcome that says what became of it. -/
def Resolved (db : Database) (r : RunId) (entry : EntryId) : Prop :=
  ∃ action ∈ db.actions, action.id = entry ∧ action.runId = r ∧
    (action.status = .confirmed ∨ action.status = .failed)

theorem unresolved_or (status : ActionLedgerStatus) :
    status.unresolved = true ∨ status = .confirmed ∨ status = .failed := by
  cases status <;> simp [ActionLedgerStatus.unresolved]

/-- Wherever the process stops, the recovery of an interrupted run reports it as stopped
without uncertainty only if every tool body of the run that has begun, and so every launch,
is CONFIRMED or FAILED in the ledger; with a valid latest checkpoint a body without a
committed outcome blocks the run as uncertain. -/
theorem recovery_never_calls_unresolved_safe (cfg : Config) (settings : Settings) (s : Sys)
    (h : Reaches (step cfg settings) anyStep (Sys.initial Recovery.Sys.initial) s)
    (clock : RunId → Instant) (stale : List RunId) (hlists : listsStale s.server.db stale = true)
    (db : Database) (events : List RecoveryEvent)
    (hcall : recoverStaleRuns cfg clock none stale s.server.db = (.ok (),db,events))
    (r : RunId) (hstale : s.server.db.IsStale r) :
    (∀ c vector, .launched c vector ∈ s.log → ∃ q entry, .bodyStarted c q entry ∈ s.log) ∧
    ∃ decision, db.decisionsOf r = s.server.db.decisionsOf r ++ [decision] ∧
      (decision.outcome = .stoppedNoReplay →
        ∀ c entry, .bodyStarted c r entry ∈ s.log → Resolved s.server.db r entry ∧ Resolved db r entry) ∧
      (∀ checkpoint, latestCheckpoint s.server.db.store r = some checkpoint →
        checkpointIsValid cfg r checkpoint = true →
        (∃ c entry, .bodyStarted c r entry ∈ s.log ∧ ¬ Resolved s.server.db r entry) →
        decision.outcome = .blockedUncertainAction) := by
  obtain ⟨-,hledger⟩ := reaches_ledgerSound h
  have hserver : Recovery.Reachable cfg s.server := reaches_server h
  obtain ⟨hdone,hkept,-,-⟩ :=
    (recover_stale_runs_exact cfg s.server hserver clock none stale hlists _ db events hcall).1 rfl
  obtain ⟨run,hrun,-⟩ := hdone r hstale
  obtain ⟨decision,hd,-,hout⟩ := hrun.decision
  have hrow : (s.server.db.store.runs r).isSome = true := by simp [hrun.row]
  have hbody : ∀ c entry, .bodyStarted c r entry ∈ s.log →
      ∃ action ∈ s.server.db.actions, action.id = entry ∧ action.runId = r :=
    fun c entry he => (hledger.bodies c r entry he).kept hrow
  have houtcome : decision.outcome =
      (recoveryOutcome cfg r (latestCheckpoint s.server.db.store r) (s.server.db.actionsOf r)).1 :=
    congrArg Prod.fst hout
  refine ⟨launched_in_body h,decision,hd,?_,?_⟩
  · intro hstopped c entry he
    obtain ⟨action,haction,hid,hr⟩ := hbody c entry he
    have hresolved : action.status = .confirmed ∨ action.status = .failed := by
      rcases unresolved_or action.status with hu | hu
      · have hmem : action ∈ s.server.db.actionsOf r := List.mem_filter.mpr ⟨haction,by simp [hr]⟩
        have hany : ((s.server.db.actionsOf r).any fun entry => entry.status.unresolved) = true :=
          List.any_eq_true.mpr ⟨action,hmem,hu⟩
        rw [houtcome] at hstopped
        match hlatest : latestCheckpoint s.server.db.store r with
        | none =>
          rw [hlatest] at hstopped
          cases hstopped
        | some checkpoint =>
          rw [hlatest] at hstopped
          by_cases hvalid : checkpointIsValid cfg r checkpoint = true
          · rw [recoveryOutcome_of_valid hvalid, if_pos hany] at hstopped
            cases hstopped
          · simp only [recoveryOutcome, hvalid, Bool.not_false, ↓reduceIte, reduceCtorEq] at hstopped
      · exact hu
    have hkeep : Resolved s.server.db r entry := ⟨action,haction,hid,hr,hresolved⟩
    exact ⟨hkeep,by rw [Resolved, hkept.actions]; exact hkeep⟩
  · rintro checkpoint hlatest hvalid ⟨c,entry,he,hopen⟩
    obtain ⟨action,haction,hid,hr⟩ := hbody c entry he
    have hunresolved : action.status.unresolved = true := by
      rcases unresolved_or action.status with hu | hu
      · exact hu
      · exact absurd ⟨action,haction,hid,hr,hu⟩ hopen
    have hmem : action ∈ s.server.db.actionsOf r := List.mem_filter.mpr ⟨haction,by simp [hr]⟩
    have hany : ((s.server.db.actionsOf r).any fun entry => entry.status.unresolved) = true :=
      List.any_eq_true.mpr ⟨action,hmem,hunresolved⟩
    rw [houtcome, hlatest, recoveryOutcome_of_valid hvalid, if_pos hany]

/-- A run that launches the browser after an approval, and the end of the process while
the tool body runs. -/
def launchLabels : List Label :=
  [.manager (.createAgent "auto" []),.manager (.startRun 0 "open the browser" none true),
    .manager (.markRunning 1 5),
    .execute 1 "desktop.open_application" [("application_id",.str "browser")],
    .resume 0 6,.resume 0 6,.resume 0 6,.decide 0 true 7,.resume 0 8,.resume 0 8,.resume 0 8,.resume 0 8,.crash]

def sampleSettings : Settings :=
  { projectId := "project_local", toolsEnabled := true,
    applicationAllowlist := some (.obj [("browser",.arr [.str "safe-browser"])]), maxOutputChars := 4000 }

def crashedInBody : Sys :=
  after (step sampleConfig sampleSettings) launchLabels (Sys.initial Recovery.Sys.initial) (by decide)

theorem recovery_never_calls_unresolved_safe_crashed :
    .launched 0 ["safe-browser"] ∈ crashedInBody.log ∧
    ∃ db events decision,
      recoverStaleRuns sampleConfig (fun _ => 9) none [1] crashedInBody.server.db = (.ok (),db,events) ∧
      db.decisionsOf 1 = crashedInBody.server.db.decisionsOf 1 ++ [decision] ∧
      decision.outcome = .blockedUncertainAction := by
  obtain ⟨result,hloop⟩ := recoverLoop_ok sampleConfig (fun _ => 9) [1] crashedInBody.server.db
  have hcall : recoverStaleRuns sampleConfig (fun _ => 9) none [1] crashedInBody.server.db =
      (.ok (),result.1,result.2.flatMap Recovered.publish) := by
    simp only [recoverStaleRuns, hloop]
    rfl
  have hreach : Reaches (step sampleConfig sampleSettings) anyStep (Sys.initial Recovery.Sys.initial) crashedInBody :=
    after_reaches _ _ (execOk_anyStep _ _)
  have hlog : .bodyStarted 0 1 4 ∈ crashedInBody.log := by
    exact List.mem_cons_of_mem _ (List.mem_cons_self)
  obtain ⟨-,decision,hd,-,hblocked⟩ := recovery_never_calls_unresolved_safe sampleConfig sampleSettings
    crashedInBody hreach (fun _ => 9) [1] (by decide) _ _ hcall 1 (activeRow_iff.mp (by decide))
  obtain ⟨checkpoint,hlatest⟩ : ∃ checkpoint, latestCheckpoint crashedInBody.server.db.store 1 = some checkpoint :=
    Option.isSome_iff_exists.mp (by decide)
  have hvalid : checkpointIsValid sampleConfig 1 checkpoint = true := by
    have hall : (latestCheckpoint crashedInBody.server.db.store 1).all (checkpointIsValid sampleConfig 1) = true := by
      decide
    rw [hlatest] at hall
    simpa using hall
  have hopen : ¬ Resolved crashedInBody.server.db 1 4 := by
    have hnone : (crashedInBody.server.db.actions.all fun action => action.status == .started) = true := by decide
    rintro ⟨action,haction,-,-,hstatus⟩
    have hstarted := beq_iff_eq.mp (List.all_eq_true.mp hnone action haction)
    rw [hstarted] at hstatus
    rcases hstatus with hs | hs <;> cases hs
  exact ⟨List.mem_cons_self,_,_,decision,hcall,hd,hblocked checkpoint hlatest hvalid ⟨0,4,hlog,hopen⟩⟩

end AgentGraph.Tools
