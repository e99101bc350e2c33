import AgentGraph.Nodes.Enabled
import AgentGraph.Nodes.Turns

/-! # Which call a task is

A probe is a task that a call of `probe` has started, for ever: its node and the task id that
the caller may have given are those of this call, wherever the task is.
-/
set_option autoImplicit false
namespace AgentGraph.Nodes
open Transition

/-- A socket that has not proved which node it is. -/
def Pc.unproved : Pc → Bool
  | .hello _ | .enrollLock _ _ => true
  | _ => false

def AfterSweep.probing : AfterSweep → Bool
  | .probe _ _ _ => true
  | _ => false

def AfterDisconnect.probing : AfterDisconnect → Bool
  | .sweep _ k => k.probing
  | _ => false

/-- A probe that has not returned, or has with a result. -/
def Pc.probing : Pc → Bool
  | .sweepRead _ k | .sweepCommit _ k | .swept k => k.probing
  | .disconnect _ k | .offlineLock _ k | .offlineRead _ k | .offlineCommit _ _ k | .offlinePublish _ k => k.probing
  | .dispatch _ _ _ | .wait _ _ _ _ | .timedOut _ _ _ | .done (.probed _ _) => true
  | _ => false

/-- The task id of a call that has been given one; the empty one is as none. -/
def Named (given : Option TaskId) (id : TaskId) : Prop := given.getD "" ≠ "" → given = some id

def AfterSweep.Probes (n : NodeId) (given : Option TaskId) : AfterSweep → Prop
  | .probe n' _ given' => n' = n ∧ given' = given
  | _ => False

def AfterDisconnect.Probes (n : NodeId) (given : Option TaskId) : AfterDisconnect → Prop
  | .sweep _ k => k.Probes n given
  | _ => False

/-- A probe of node `n`, under the task id if one is given. -/
def Pc.Probes (n : NodeId) (given : Option TaskId) : Pc → Prop
  | .sweepRead _ k | .sweepCommit _ k | .swept k => k.Probes n given
  | .disconnect _ k | .offlineLock _ k | .offlineRead _ k | .offlineCommit _ _ k | .offlinePublish _ k => k.Probes n given
  | .dispatch n' _ id | .wait n' _ _ id | .timedOut n' _ id => n' = n ∧ Named given id
  | .done (.probed id _) => Named given id
  | _ => False

namespace NodeService

/-- Where the place of task `j` after a step comes from. -/
inductive Came (settings : Settings) (l : Label) (s t : NodeService) (j : TaskRef) : Pc → Prop
  | stayed {pc' : Pc} (same : s.pc? j = some pc') : Came settings l s t j pc'
  | opened (proof : Option String) (new : j = s.taskCount) (label : l = .openSocket proof) : Came settings l s t j (.hello proof)
  | swept (k : AfterSweep) (now : Instant) (new : j = s.taskCount) (label : l = .sweep k now) :
    Came settings l s t j (.sweepRead (now - settings.heartbeatTimeout) k)
  | enabling (n : NodeId) (enabled : Bool) (new : j = s.taskCount) (label : l = .setEnabled n enabled) :
    Came settings l s t j (.setEnabledLock n enabled)
  | greeted (hello : WorkerHello) (proof : Option String) (now : Instant) (label : l = .receive j (some (.hello hello)) now)
      (found : s.pc? j = some (.hello proof)) : Came settings l s t j (.enrollLock hello proof)
  | beat (n : NodeId) (capabilities : Option JsonObject) (now : Instant) :
    Came settings l s t j (.heartbeatLock n capabilities now)
  | dropped (n : NodeId) : Came settings l s t j (.disconnect n .socket)
  | ended (outcome : Outcome) (unanswered : (Pc.done outcome).answer = none) : Came settings l s t j (.done outcome)
  | timedOut (n : NodeId) (r : SessionRef) (f : FutureRef) (id : TaskId) (found : s.pc? j = some (.wait n r f id)) :
    Came settings l s t j (.timedOut n r id)
  | resumed {pc' : Pc} (now : Instant) (fresh : TaskId) (pc : Pc) (label : l = .run j now fresh) (found : s.pc? j = some pc)
      (resumed : s.Resumed settings j now fresh pc t) : Came settings l s t j pc'

variable {settings : Settings} {l : Label} {s t u : NodeService} {i j : TaskRef} {pc pc' : Pc}

theorem Advance.moves (h : s.Advance t i pc pc') (hpc : s.pc? i = some pc) :
    ∀ j, t.pc? j = if j = i then some pc' else s.pc? j := by
  intro j
  by_cases hj : j = i
  · subst hj
    rw [h.pc?_self hpc, if_pos rfl]
  · rw [h.pc?_other hj, if_neg hj]

/-- Only the task moves, and not to an enrolment that it has left. -/
theorem Effect.moves (h : s.Effect settings t i pc) (hpc : s.pc? i = some pc) :
    ∃ pc', (∀ j, t.pc? j = if j = i then some pc' else s.pc? j) ∧ (pc'.early = true → pc.early = true) ∧
      t.taskCount = s.taskCount := by
  cases h with
  | quiet safe h =>
    obtain ⟨pc',hadv,-⟩ := h
    exact ⟨pc',hadv.moves hpc,hadv.early,hadv.taskCount⟩
  | refused hello now at' taken h =>
    obtain ⟨pc',hadv,-⟩ := h
    exact ⟨pc',hadv.moves hpc,hadv.early,hadv.taskCount⟩
  | popped n k at' advance => exact ⟨_,advance.moves hpc,advance.early,advance.taskCount⟩
  | wrote n f at' pc' advance => exact ⟨_,advance.moves hpc,advance.early,advance.taskCount⟩
  | inserted hello now at' advance => exact ⟨_,advance.moves hpc,advance.early,advance.taskCount⟩
  | swept safe stale pc' advance => exact ⟨_,advance.moves hpc,advance.early,advance.taskCount⟩
  | connected n status at' tasks taskCount =>
    refine ⟨.register n status,fun j => ?_,fun h => (by cases h),taskCount⟩
    obtain ⟨task,htask,-⟩ := Option.map_eq_some_iff.mp hpc
    by_cases hj : j = i
    · subst hj
      rw [pc?, tasks, Function.update_self, htask, if_pos rfl]
      rfl
    · rw [pc?, tasks, Function.update_of_ne hj, if_neg hj]
      rfl

theorem goto_came {p : Pc} (hpc : s.pc? i = some pc) (htasks : u.tasks = s.tasks) (hj : (u.goto i p).pc? j = some pc') :
    s.pc? j = some pc' ∨ j = i ∧ p = pc' := by
  rw [pc?_goto_ite hpc htasks] at hj
  split at hj
  next hi => exact .inr ⟨hi,Option.some.inj hj⟩
  · exact .inl hj

theorem leave_came {p : Pc} {e : NodeError} (hpc : s.pc? i = some pc) (htasks : u.tasks = s.tasks)
    (hj : (u.leave i p e).pc? j = some pc') : Came settings l s t j pc' := by
  unfold NodeService.leave at hj
  split at hj
  · obtain hsame | ⟨-,rfl⟩ := goto_came (u := u.release i) hpc htasks hj
    · exact .stayed hsame
    · exact .dropped _
  · obtain hsame | ⟨-,rfl⟩ := goto_came (u := u.release i) hpc htasks hj
    · exact .stayed hsame
    · exact .ended _ rfl

theorem spawn_came {p : Pc} (hj : (s.spawn p).pc? j = some pc') : s.pc? j = some pc' ∨ j = s.taskCount ∧ p = pc' := by
  by_cases hlast : j = s.taskCount
  · subst hlast
    simp only [pc?, NodeService.spawn, Function.update_self, Option.map_some, Option.some.injEq] at hj
    exact .inr ⟨rfl,hj⟩
  · simp only [pc?, NodeService.spawn, Function.update_of_ne hlast] at hj
    exact .inl hj

theorem step_came (h : step settings l s = some t) (hj : t.pc? j = some pc') : Came settings l s t j pc' := by
  have hstay : t.tasks = s.tasks → Came settings l s t j pc' := fun htasks => .stayed (by rwa [pc?, htasks] at hj)
  cases l with
  | openSocket proof =>
    cases h
    obtain hsame | ⟨hnew,rfl⟩ := spawn_came hj
    · exact .stayed hsame
    · exact .opened proof hnew rfl
  | sweep k now =>
    cases h
    obtain hsame | ⟨hnew,rfl⟩ := spawn_came hj
    · exact .stayed hsame
    · exact .swept k now hnew rfl
  | setEnabled n enabled =>
    cases h
    obtain hsame | ⟨hnew,rfl⟩ := spawn_came hj
    · exact .stayed hsame
    · exact .enabling n enabled hnew rfl
  | receive i message now =>
    simp only [step] at h
    split at h
    next proof hello hpc =>
      cases h
      obtain hsame | ⟨rfl,rfl⟩ := goto_came hpc rfl hj
      · exact .stayed hsame
      · exact .greeted hello proof now rfl hpc
    next hpc =>
      cases h
      obtain hsame | ⟨-,rfl⟩ := goto_came hpc rfl hj
      · exact .stayed hsame
      · exact .ended _ rfl
    next hpc =>
      cases h
      obtain hsame | ⟨-,rfl⟩ := goto_came hpc rfl hj
      · exact .stayed hsame
      · exact .ended _ rfl
    next n message hpc =>
      cases h
      cases message with
      | heartbeat | capabilities =>
        obtain hsame | ⟨-,rfl⟩ := goto_came hpc rfl hj
        · exact .stayed hsame
        · exact .beat _ _ _
      | hello | cancel => exact hstay rfl
      | result id p => exact hstay (receiveResult_tasks n id _ _)
      | error id code text => exact hstay (receiveResult_tasks n id _ _)
    next n hpc =>
      cases h
      exact leave_came hpc rfl hj
    · cases h
  | deliver i =>
    simp only [step] at h
    split at h
    next n m r sent htask =>
      split at h
      · cases h
      next message rest hq =>
        cases h
        refine .stayed ?_
        by_cases hi : j = i
        · subst hi
          cases message <;> simpa [pc?, updateTask, NodeService.updateSession, htask] using hj
        · simpa [pc?, updateTask, NodeService.updateSession, hi] using hj
    · cases h
  | run i now fresh =>
    simp only [step] at h
    split at h
    next pc hpc =>
      by_cases hi : j = i
      · subst hi
        exact .resumed now fresh pc rfl hpc (resume_cases h)
      · obtain ⟨pc₁,hmoves,-⟩ := (resume_effect h).moves hpc
        rw [hmoves j, if_neg hi] at hj
        exact .stayed hj
    · cases h
  | timeout i =>
    simp only [step] at h
    split at h
    next n r f id hpc =>
      cases h
      obtain hsame | ⟨rfl,rfl⟩ := goto_came (u := s.settle _ _) hpc rfl hj
      · exact .stayed hsame
      · exact .timedOut n r f id hpc
    · cases h
  | fail i =>
    simp only [step] at h
    split at h
    · cases h
    · cases h
    next hpc =>
      cases h
      exact leave_came (u := s.settle _ _) hpc rfl hj
    next hpc =>
      cases h
      exact leave_came hpc rfl hj

/-- A step opens at most one task. -/
theorem step_taskCount (h : step settings l s = some t) : s.taskCount ≤ t.taskCount := by
  cases step_next h with
  | spawned pc label state =>
    rw [state]
    exact Nat.le_succ _
  | ran i now fresh pc label found effect =>
    obtain ⟨-,-,-,hcount⟩ := effect.moves found
    exact Nat.le_of_eq hcount.symm
  | other i pc label found quiet =>
    obtain ⟨_,hadv,-⟩ := quiet
    exact Nat.le_of_eq hadv.taskCount.symm

/-! ## Where a resumed task arrives -/

theorem disconnected_pc {n : NodeId} {k : AfterDisconnect} (hj : (u.disconnected i n k).pc? i = some pc') :
    pc'.unproved = false ∧ (pc'.probing = true → k.probing = true ∧ ∀ m given, k.Probes m given → pc'.Probes m given) := by
  cases k with
  | socket =>
    obtain rfl := pc?_goto hj
    exact ⟨rfl,fun hp => by cases hp⟩
  | sweep rest k =>
    obtain rfl := pc?_goto (u := u.note (.offline n)) hj
    cases rest with
    | nil => exact ⟨rfl,fun hp => ⟨hp,fun _ _ hk => hk⟩⟩
    | cons m ms => exact ⟨rfl,fun hp => ⟨hp,fun _ _ hk => hk⟩⟩
  | disabled record =>
    obtain rfl := pc?_goto (u := u.note (.disabled n)) hj
    exact ⟨rfl,fun hp => by cases hp⟩

theorem leave_pc {p : Pc} {e : NodeError} (hj : (u.leave i p e).pc? i = some pc') :
    pc'.unproved = false ∧ pc'.probing = false := by
  unfold NodeService.leave at hj
  split at hj
  · obtain rfl := pc?_goto (u := u.release i) hj
    exact ⟨rfl,rfl⟩
  · obtain rfl := pc?_goto (u := u.release i) hj
    exact ⟨rfl,rfl⟩

theorem dispatch_pc {n : NodeId} {timeout : Option ℤ} {id : TaskId} (hj : (s.dispatch settings i n timeout id).pc? i = some pc') :
    (∃ r f, pc' = .wait n r f id) ∨ ∃ e, pc' = .done (.raised e) := by
  unfold NodeService.dispatch at hj
  split at hj
  · exact .inr ⟨_,pc?_goto hj⟩
  · split at hj
    · exact .inr ⟨_,pc?_goto hj⟩
    · split at hj
      · exact .inr ⟨_,pc?_goto hj⟩
      · dsimp only at hj
        split at hj
        · exact .inr ⟨_,pc?_goto hj⟩
        · split at hj
          · exact .inr ⟨_,pc?_goto hj⟩
          · exact .inl ⟨_,_,pc?_goto hj⟩

theorem named_generated (given : Option TaskId) (fresh : TaskId) :
    Named given (if given.getD "" = "" then fresh else given.getD fresh) := by
  intro hgiven
  rw [if_neg hgiven]
  cases given with
  | none => exact absurd rfl hgiven
  | some id => rfl

theorem Resumed.unproved {now : Instant} {fresh : TaskId} (h : s.Resumed settings i now fresh pc t) (hj : t.pc? i = some pc') :
    pc'.unproved = false := by
  cases h with
  | locked locks =>
    obtain rfl := pc?_goto hj
    cases locks <;> rfl
  | went finds =>
    obtain rfl := pc?_goto hj
    cases finds <;> rfl
  | left | refused => exact (leave_pc hj).1
  | gone | published => exact (disconnected_pc hj).1
  | connected | registered =>
    rw [pc?_updateTask, Option.map_map] at hj
    obtain ⟨_,-,rfl⟩ := Option.map_eq_some_iff.mp hj
    rfl
  | swept stale k =>
    obtain rfl := pc?_goto hj
    cases stale <;> rfl
  | dispatched => obtain ⟨r,f,rfl⟩ | ⟨e,rfl⟩ := dispatch_pc hj <;> rfl
  | cancelled =>
    obtain rfl := pc?_goto (u := NodeService.note _ _) hj
    rfl
  | denied | inserted | enrolled | announced | beaten | popped | wentOffline | reported | switched | enabled | disabled | answered
  | failed =>
    obtain rfl := pc?_goto hj
    rfl

/-- A probe goes on as the probe that it was. -/
theorem Resumed.probes {now : Instant} {fresh : TaskId} (h : s.Resumed settings i now fresh pc t) (hj : t.pc? i = some pc')
    (hp : pc'.probing = true) : pc.probing = true ∧ ∀ n given, pc.Probes n given → pc'.Probes n given := by
  cases h with
  | locked locks =>
    obtain rfl := pc?_goto hj
    cases locks with
    | offline => exact ⟨hp,fun _ _ hk => hk⟩
    | enroll | heartbeat | setEnabled => cases hp
  | went finds =>
    obtain rfl := pc?_goto hj
    cases finds with
    | online | stale => exact ⟨hp,fun _ _ hk => hk⟩
    | probed n timeout given =>
      refine ⟨rfl,fun m given' hk => ?_⟩
      obtain ⟨rfl,rfl⟩ := hk
      exact ⟨rfl,named_generated given fresh⟩
    | unknown | known | beating | worker | crowded => cases hp
  | left | refused =>
    rw [(leave_pc hj).2] at hp
    cases hp
  | gone | published => exact (disconnected_pc hj).2 hp
  | connected | registered =>
    rw [pc?_updateTask, Option.map_map] at hj
    obtain ⟨_,-,rfl⟩ := Option.map_eq_some_iff.mp hj
    cases hp
  | swept stale k =>
    obtain rfl := pc?_goto hj
    cases stale <;> exact ⟨hp,fun _ _ hk => hk⟩
  | dispatched n timeout id =>
    obtain ⟨r,f,rfl⟩ | ⟨e,rfl⟩ := dispatch_pc hj
    · exact ⟨rfl,fun _ _ hk => hk⟩
    · cases hp
  | popped | wentOffline =>
    obtain rfl := pc?_goto hj
    exact ⟨hp,fun _ _ hk => hk⟩
  | answered =>
    obtain rfl := pc?_goto hj
    exact ⟨rfl,fun _ _ hk => hk.2⟩
  | reported k outcome unanswered =>
    obtain rfl := pc?_goto hj
    cases outcome with
    | probed => cases unanswered
    | closed | records | info | raised => cases hp
  | cancelled =>
    obtain rfl := pc?_goto (u := NodeService.note _ _) hj
    cases hp
  | denied | inserted | enrolled | announced | beaten | switched | enabled | disabled | failed =>
    obtain rfl := pc?_goto hj
    cases hp

/-! ## The call of a probe -/

/-- Task `i` is a call of `probe`. -/
def Calls (i : TaskRef) (n : NodeId) (given : Option TaskId) (l : Label) (s : NodeService) : Prop :=
  ∃ timeout now, l = .sweep (.probe n timeout given) now ∧ s.taskCount = i

section Run
variable {records : Table} {ls : List Label}

def Started (settings : Settings) (records : Table) (ls : List Label) (i : TaskRef) (n : NodeId) (given : Option TaskId) : Prop :=
  ExecAny (step settings) (Calls i n given) ls (initial records)

theorem Started.snoc {n : NodeId} {given : Option TaskId} (he : exec (step settings) ls (initial records) = some s)
    (h : Started settings records ls i n given) : Started settings records (ls ++ [l]) i n given :=
  (execAny_snoc he).mpr (.inl h)

/-- What is known of the calls after an execution. -/
structure Called (settings : Settings) (records : Table) (ls : List Label) (s : NodeService) : Prop where
  started : ∀ i pc, s.pc? i = some pc → pc.probing = true → ∃ n given, Started settings records ls i n given
  probes : ∀ i pc n given, s.pc? i = some pc → pc.probing = true → Started settings records ls i n given → pc.Probes n given
  old : ∀ i n given, Started settings records ls i n given → i < s.taskCount

theorem step_called (hc : Called settings records ls s) (he : exec (step settings) ls (initial records) = some s)
    (h : step settings l s = some t) : Called settings records (ls ++ [l]) t := by
  have hcount := step_taskCount h
  have hsound : s.Sound :=
    exec_induction (P := fun _ s => s.Sound) (sound_initial records) (fun _ _ _ _ _ hs ht => step_sound hs ht) he
  constructor
  · intro i pc' hj hp
    cases step_came h hj with
    | stayed same =>
      obtain ⟨n,given,hstarted⟩ := hc.started i pc' same hp
      exact ⟨n,given,hstarted.snoc he⟩
    | swept k now new label =>
      cases k with
      | probe n timeout given => exact ⟨n,given,(execAny_snoc he).mpr (.inr ⟨timeout,now,label,new.symm⟩)⟩
      | liveness | list | get => cases hp
    | timedOut n r f id found =>
      obtain ⟨n,given,hstarted⟩ := hc.started i _ found rfl
      exact ⟨n,given,hstarted.snoc he⟩
    | resumed now fresh pc label found resumed =>
      obtain ⟨n,given,hstarted⟩ := hc.started i pc found (resumed.probes hj hp).1
      exact ⟨n,given,hstarted.snoc he⟩
    | ended outcome unanswered =>
      cases outcome with
      | probed => cases unanswered
      | closed | records | info | raised => cases hp
    | opened | enabling | greeted | beat | dropped => cases hp
  · intro i pc' n given hj hp hstarted
    -- a task that runs was started before
    have hbefore : ∀ pc, s.pc? i = some pc → Started settings records ls i n given := by
      intro pc hpc
      obtain hold | ⟨timeout,now,-,hi⟩ := (execAny_snoc he).mp hstarted
      · exact hold
      · rw [pc?, hsound.fresh i (Nat.le_of_eq hi)] at hpc
        cases hpc
    cases step_came h hj with
    | stayed same => exact hc.probes i pc' n given same hp (hbefore pc' same)
    | swept k now new label =>
      obtain hold | ⟨timeout,now',hl,-⟩ := (execAny_snoc he).mp hstarted
      · exact absurd (new ▸ hc.old i n given hold) (Nat.lt_irrefl _)
      · rw [label] at hl
        cases hl
        exact ⟨rfl,rfl⟩
    | timedOut m r f id found => exact hc.probes i (.wait m r f id) n given found rfl (hbefore _ found)
    | resumed now fresh pc label found resumed =>
      obtain ⟨hp',hprobes⟩ := resumed.probes hj hp
      exact hprobes n given (hc.probes i pc n given found hp' (hbefore pc found))
    | ended outcome unanswered =>
      cases outcome with
      | probed => cases unanswered
      | closed | records | info | raised => cases hp
    | opened | enabling | greeted | beat | dropped => cases hp
  · intro i n given hstarted
    obtain hold | ⟨timeout,now,hl,hi⟩ := (execAny_snoc he).mp hstarted
    · exact Nat.lt_of_lt_of_le (hc.old i n given hold) hcount
    · subst hl
      cases h
      rw [← hi]
      exact Nat.lt_succ_self _

theorem initial_called (settings : Settings) (records : Table) : Called settings records [] (initial records) where
  started _ _ h := by cases h
  probes _ _ _ _ h := by cases h
  old _ _ _ h := h.elim

theorem called_exec (h : exec (step settings) ls (initial records) = some s) : Called settings records ls s :=
  exec_induction (P := fun ls s => Called settings records ls s) (initial_called settings records)
    (fun _ _ _ _ he hc hs => step_called hc he hs) h

/-- A task is one call. -/
theorem Started.unique {n n' : NodeId} {given given' : Option TaskId} (h : exec (step settings) ls (initial records) = some s)
    (hstarted : Started settings records ls i n given) (hstarted' : Started settings records ls i n' given') :
    n = n' ∧ given = given' := by
  revert hstarted hstarted'
  refine exec_induction (P := fun ls _ => Started settings records ls i n given → Started settings records ls i n' given' →
    n = n' ∧ given = given') (fun hstarted => hstarted.elim) (fun ls l u v he ih hv hstarted hstarted' => ?_) h
  have hold := (called_exec he).old i
  obtain hbefore | ⟨_,_,hl,hi⟩ := (execAny_snoc he).mp hstarted
  · obtain hbefore' | ⟨_,_,-,hi'⟩ := (execAny_snoc he).mp hstarted'
    · exact ih hbefore hbefore'
    · exact absurd hi' (Nat.ne_of_gt (hold n given hbefore))
  · obtain hbefore' | ⟨_,_,hl',-⟩ := (execAny_snoc he).mp hstarted'
    · exact absurd hi (Nat.ne_of_gt (hold n' given' hbefore'))
    · cases hl.symm.trans hl'
      exact ⟨rfl,rfl⟩

end Run
end NodeService

end AgentGraph.Nodes
