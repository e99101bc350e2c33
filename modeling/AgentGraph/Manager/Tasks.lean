import AgentGraph.Manager.Effects

/-! # Tasks across one step

A step moves one task, may create tasks and may request cancellations; every other
task stays where it is. `step_cases` opens the step function for the whole state
and `step_ctl` tells how a task came to be where it is after the step.
-/
set_option autoImplicit false
namespace AgentGraph.Manager
open Sys

variable {cfg : Config} {s t : Sys} {l : Label} {i j : TaskId} {p q : Point} {c : Ctl}

namespace Sys

/-- Where a task is, its cancellation apart. -/
def ctl? (s : Sys) (i : TaskId) : Option Ctl := (s.tasks i).map Task.ctl

theorem point?_eq_some : s.point? i = some p ↔ s.ctl? i = some (.waiting p) := by
  unfold point? ctl?
  rcases s.tasks i with _ | ⟨ctl,_,_⟩
  · simp
  · cases ctl <;> simp

theorem result?_eq_some {result : Result} : s.result? i = some result ↔ s.ctl? i = some (.done result) := by
  unfold result? ctl?
  rcases s.tasks i with _ | ⟨ctl,_,_⟩
  · simp
  · cases ctl <;> simp

theorem isDone_iff : s.isDone i = true ↔ ∃ result, s.ctl? i = some (.done result) := by
  unfold isDone
  rw [Option.isSome_iff_exists]
  exact exists_congr fun _ => result?_eq_some

theorem isSome_point?_of_not_done (h : s.tasks i ≠ none) (hd : ¬ s.isDone i = true) : (s.point? i).isSome = true := by
  unfold isDone result? at hd
  unfold point?
  rcases hx : s.tasks i with _ | ⟨ctl,_,_⟩
  · exact absurd hx h
  · cases ctl <;> simp_all

theorem ctl?_eq_none : s.ctl? i = none ↔ s.tasks i = none := by simp [ctl?]

/-- Two states agree on where the tasks are. -/
theorem point?_congr (h : s.ctl? = t.ctl?) : s.point? = t.point? := by
  funext i
  apply Option.ext
  intro p
  rw [point?_eq_some, point?_eq_some, h]

theorem result?_congr (h : s.ctl? = t.ctl?) : s.result? = t.result? := by
  funext i
  apply Option.ext
  intro result
  rw [result?_eq_some, result?_eq_some, h]

@[simp] theorem receiveCancel_ctl? (s : Sys) (i : TaskId) : (s.receiveCancel i).ctl? = s.ctl? := by
  funext j
  by_cases h : j = i
  · subst h
    simp only [receiveCancel, ctl?, Function.update_self, Option.map_map]
    rfl
  · simp [receiveCancel,ctl?,h]

@[simp] theorem requestCancel_ctl (x : Task) : x.requestCancel.ctl = x.ctl := by
  unfold Task.requestCancel
  cases h : x.ctl <;> simp [h]

@[simp] theorem requestCancels_ctl? (s : Sys) (targets : List TaskId) : (s.requestCancels targets).ctl? = s.ctl? := by
  funext j
  by_cases h : j ∈ targets
  · simp [requestCancels,ctl?,h,Option.map_map,Function.comp_def]
  · simp [requestCancels,ctl?,h]

theorem apply_ctl? (cfg : Config) (s : Sys) (i j : TaskId) (eff : Effect) :
    (s.apply cfg i eff).ctl? j =
      match eff.spawn.lookup j with
      | some p => some (.waiting p)
      | none => if j = i then (s.ctl? j).map fun _ => eff.next else s.ctl? j := by
  unfold apply ctl?
  dsimp only
  cases eff.spawn.lookup j with
  | some p => rfl
  | none =>
    by_cases hj : j = i <;> by_cases hc : j ∈ eff.cancel <;>
      simp [hj,hc,Option.map_map,Function.comp_def] <;> simp_all [Option.map_map,Function.comp_def]

/-! ### Flags -/

theorem requestCancel_mustCancel (x : Task) :
    x.requestCancel.mustCancel = true ↔ (∃ p, x.ctl = .waiting p) ∨ x.mustCancel = true := by
  unfold Task.requestCancel
  cases h : x.ctl <;> simp

theorem requestCancel_cancelRequested (x : Task) :
    x.requestCancel.cancelRequested = true ↔ (∃ p, x.ctl = .waiting p) ∨ x.cancelRequested = true := by
  unfold Task.requestCancel
  cases h : x.ctl <;> simp

theorem mustCancel_iff : s.mustCancel i = true ↔ ∃ x, s.tasks i = some x ∧ x.mustCancel = true := by
  unfold mustCancel
  cases s.tasks i <;> simp

theorem cancelRequested_iff : s.cancelRequested i = true ↔ ∃ x, s.tasks i = some x ∧ x.cancelRequested = true := by
  unfold cancelRequested
  cases s.tasks i <;> simp

theorem isSome_point? : (s.point? i).isSome = true ↔ ∃ x p, s.tasks i = some x ∧ x.ctl = .waiting p := by
  unfold point?
  rcases s.tasks i with _ | ⟨ctl,_,_⟩
  · simp
  · cases ctl <;> simp

theorem requestCancels_mustCancel {targets : List TaskId} :
    (s.requestCancels targets).mustCancel i = true ↔
      (i ∈ targets ∧ (s.point? i).isSome) ∨ s.mustCancel i = true := by
  rw [mustCancel_iff, isSome_point?, mustCancel_iff]
  unfold requestCancels
  by_cases h : i ∈ targets
  · cases hx : s.tasks i <;> simp [h,hx,requestCancel_mustCancel]
  · simp [h]

theorem requestCancels_cancelRequested {targets : List TaskId} :
    (s.requestCancels targets).cancelRequested i = true ↔
      (i ∈ targets ∧ (s.point? i).isSome) ∨ s.cancelRequested i = true := by
  rw [cancelRequested_iff, isSome_point?, cancelRequested_iff]
  unfold requestCancels
  by_cases h : i ∈ targets
  · cases hx : s.tasks i <;> simp [h,hx,requestCancel_cancelRequested]
  · simp [h]

theorem receiveCancel_mustCancel : (s.receiveCancel i).mustCancel j = true ↔ j ≠ i ∧ s.mustCancel j = true := by
  rw [mustCancel_iff, mustCancel_iff]
  by_cases h : j = i
  · subst h
    cases hx : s.tasks j <;> simp [receiveCancel,hx]
  · simp [receiveCancel,h]

theorem receiveCancel_cancelRequested : (s.receiveCancel i).cancelRequested j = true ↔ s.cancelRequested j = true := by
  rw [cancelRequested_iff, cancelRequested_iff]
  by_cases h : j = i
  · subst h
    cases hx : s.tasks j <;> simp [receiveCancel,hx]
  · simp [receiveCancel,h]

theorem apply_mustCancel {eff : Effect} (h : eff.spawn.lookup j = none) :
    (s.apply cfg i eff).mustCancel j = true ↔ (s.requestCancels eff.cancel).mustCancel j = true := by
  rw [mustCancel_iff, mustCancel_iff]
  unfold apply requestCancels
  dsimp only
  rw [h]
  dsimp only
  by_cases hj : j = i
  · simp only [hj, if_true]
    by_cases hc : i ∈ eff.cancel <;> cases hx : s.tasks i <;> simp [hc]
  · simp [hj]

theorem apply_cancelRequested {eff : Effect} (h : eff.spawn.lookup j = none) :
    (s.apply cfg i eff).cancelRequested j = true ↔ (s.requestCancels eff.cancel).cancelRequested j = true := by
  rw [cancelRequested_iff, cancelRequested_iff]
  unfold apply requestCancels
  dsimp only
  rw [h]
  dsimp only
  by_cases hj : j = i
  · simp only [hj, if_true]
    by_cases hc : i ∈ eff.cancel <;> cases hx : s.tasks i <;> simp [hc]
  · simp [hj]

theorem apply_spawned {eff : Effect} (h : eff.spawn.lookup j = some q) :
    (s.apply cfg i eff).tasks j = some (.new q) := by
  unfold apply
  dsimp only
  rw [h]

end Sys

/-! ## The step function -/

/-- A resumed task, or a task that receives its cancellation. -/
inductive Moved (cfg : Config) (s : Sys) (i : TaskId) (p : Point) (c : Ctl) (store : Store) : Prop
  | resumed (hm : s.mustCancel i = false) (hn : Next cfg s p c store)
  | delivered (hm : s.mustCancel i = true) (hd : Delivered s p c) (hs : store = s.store)

/-- The tasks created by a task that goes from `p` to `c`. -/
def spawned (p : Point) (c : Ctl) : List (TaskId × Point) :=
  (launched p c).toList.map (fun r => (.run r,.runBegin r)) ++ roundSpawn c

/-- Task `i` goes from `p` to `c`. -/
structure RunStep (cfg : Config) (s t : Sys) (i : TaskId) (p : Point) (c : Ctl) : Prop where
  point : s.point? i = some p
  moved : Moved cfg s i p c t.store
  ctl : ∀ j, t.ctl? j = match (spawned p c).lookup j with
    | some q => some (.waiting q)
    | none => if j = i then some c else s.ctl? j
  fresh : ∀ j q, (spawned p c).lookup j = some q → t.tasks j = some (.new q)
  mustCancel : ∀ j, (spawned p c).lookup j = none →
    (t.mustCancel j = true ↔ (j ∈ cancelled s c ∧ (s.point? j).isSome) ∨ (j ≠ i ∧ s.mustCancel j = true))
  cancelRequested : ∀ j, (spawned p c).lookup j = none →
    (t.cancelRequested j = true ↔ (j ∈ cancelled s c ∧ (s.point? j).isSome) ∨ s.cancelRequested j = true)
  terminalLock : t.terminalLock = assign s.terminalLock (lockChange i p c)
  registry : t.registry = updateRegistry s.registry (launched p c) (forgotten p c)
  contexts : t.contexts = assign s.contexts (contextChange p c)
  events : t.events.filter RuntimeEvent.terminal = s.events.filter RuntimeEvent.terminal ++
    if cfg.events && !s.mustCancel i then finalEvents s p else []
  calls : t.calls = s.calls
  nextNode : t.nextNode = s.nextNode + (roundSpawn c).length

/-- The three kinds of steps. -/
inductive StepCase (cfg : Config) (s : Sys) : Label → Sys → Prop
  | call (c : Call) : StepCase cfg s (.call c) (s.accept c)
  | cancel (k : Nat) : StepCase cfg s (.cancel k) (s.requestCancels (s.cancelTargets (.call k)))
  | run (i : TaskId) (ch : Choice) (now : Instant) (p : Point) (c : Ctl) (t : Sys) (h : RunStep cfg s t i p c) :
      StepCase cfg s (.run i ch now) t

theorem cancelled_congr (h : s.ctl? = t.ctl?) (c : Ctl) : cancelled s c = cancelled t c := by
  have hp := point?_congr h
  have hr := result?_congr h
  unfold cancelled cancelTargets gathered liveNodes isDone
  rw [hp, hr]

theorem delivered_congr (h : s.ctl? = t.ctl?) (hd : Delivered s p c) : Delivered t p c := by
  have ha : s.allDone = t.allDone := by
    unfold allDone isDone
    rw [result?_congr h]
  cases hd with
  | unwound _ hn hb => exact .unwound p hn hb
  | handler n c => exact .handler n c
  | raised _ r hb hr => exact .raised p r hb hr
  | absorbed r request => exact .absorbed r request
  | readyWait r T tasks => exact .readyWait r T tasks
  | readyGather r tasks e hd => exact .readyGather r tasks e (ha ▸ hd)
  | readyCleanup r tasks hd => exact .readyCleanup r tasks (ha ▸ hd)

theorem deliver_runStep {ch : Choice} {eff : Effect} (hp : s.point? i = some p) (hm : s.mustCancel i = true)
    (h : (s.receiveCancel i).deliver p ch = some eff) :
    RunStep cfg s ((s.receiveCancel i).apply cfg i eff) i p eff.next := by
  have he : Effects (s.receiveCancel i) i p [] eff := deliver_effects h
  have hs : eff.spawn = spawned p eff.next := he.spawn
  have hc : (s.receiveCancel i).ctl? = s.ctl? := receiveCancel_ctl? s i
  have hk : eff.cancel = cancelled s eff.next := by rw [he.cancel, cancelled_congr hc]
  refine ⟨hp,.delivered hm (delivered_congr hc (deliver_next h)) ?_,fun j => ?_,fun j q hj => ?_,fun j hj => ?_,
    fun j hj => ?_,?_,?_,?_,?_,rfl,he.nextNode⟩
  · simp [apply,deliver_commit h,receiveCancel]
  · rw [apply_ctl?, hs, hc]
    cases (spawned p eff.next).lookup j with
    | some q => rfl
    | none =>
      by_cases hj : j = i
      · simp [hj,point?_eq_some.mp hp]
      · simp [hj]
  · exact apply_spawned (by rw [hs, hj])
  · rw [apply_mustCancel (by rw [hs, hj]), requestCancels_mustCancel, receiveCancel_mustCancel, hk, point?_congr hc]
  · rw [apply_cancelRequested (by rw [hs, hj]), requestCancels_cancelRequested, receiveCancel_cancelRequested, hk,
      point?_congr hc]
  · simp [apply,he.terminalLock,receiveCancel]
  · simp [apply,he.register,he.forget,receiveCancel]
  · simp [apply,he.contexts,receiveCancel]
  · have := he.publish
    by_cases hv : cfg.events <;> simp [apply,hv,hm,this,receiveCancel]

theorem resume_runStep {ch : Choice} {now : Instant} {eff : Effect} (hp : s.point? i = some p)
    (hm : s.mustCancel i = false) (h : s.resume cfg i p ch now = some eff) :
    RunStep cfg s (s.apply cfg i eff) i p eff.next := by
  have he : Effects s i p (finalEvents s p) eff := resume_effects h
  have hs : eff.spawn = spawned p eff.next := he.spawn
  refine ⟨hp,.resumed hm (resume_next h),fun j => ?_,fun j q hj => ?_,fun j hj => ?_,fun j hj => ?_,?_,?_,?_,?_,rfl,
    he.nextNode⟩
  · rw [apply_ctl?, hs]
    cases (spawned p eff.next).lookup j with
    | some q => rfl
    | none =>
      by_cases hj : j = i
      · simp [hj,point?_eq_some.mp hp]
      · simp [hj]
  · exact apply_spawned (by rw [hs, hj])
  · rw [apply_mustCancel (by rw [hs, hj]), requestCancels_mustCancel, he.cancel]
    by_cases hj : j = i <;> simp [hj,hm]
  · rw [apply_cancelRequested (by rw [hs, hj]), requestCancels_cancelRequested, he.cancel]
  · simp [apply,he.terminalLock]
  · simp [apply,he.register,he.forget]
  · simp [apply,he.contexts]
  · have := he.publish
    by_cases hv : cfg.events <;> simp [apply,hv,hm,this]

theorem step_cases (h : step cfg l s = some t) : StepCase cfg s l t := by
  cases l with
  | call c => cases h; exact .call c
  | cancel k => cases h; exact .cancel k
  | run i ch now =>
    simp only [step] at h
    split at h
    next p r hx =>
      obtain ⟨eff,he,rfl⟩ := Option.map_eq_some_iff.mp h
      exact .run i ch now p _ _ (deliver_runStep (by simp [point?,hx]) (by simp [Sys.mustCancel,hx]) he)
    next p r hx =>
      obtain ⟨eff,he,rfl⟩ := Option.map_eq_some_iff.mp h
      exact .run i ch now p _ _ (resume_runStep (by simp [point?,hx]) (by simp [Sys.mustCancel,hx]) he)
    next => cases h

end AgentGraph.Manager
