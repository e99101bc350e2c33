import AgentGraph.Foundation.Transition
import Mathlib.Logic.Function.Basic

/-! # Calls that share a database with one writer

A call runs from one statement to the next. A statement outside a transaction sees the
last commit; the first one that writes takes the write lock, and from then on the call
sees its own writes until it publishes them or rolls them back. What lies outside the
database is changed at once.

An outline annotates the statements. It is valid if each of them keeps it, whatever the
other calls do in between, and then it holds along every run.
-/
set_option autoImplicit false
namespace AgentGraph.Database
open Transition

inductive Ctl (P R : Type) : Type
  | «at» (pc : P)
  | done (result : R)

/-- What a statement does to the transaction of its call. -/
inductive Action (D : Type) : Type
  | keep
  | write (db : D)
  | commit
  | rollback

structure Effect (D O P R : Type) : Type where
  next : Ctl P R
  action : Action D
  outside : O

/-- The statements of the calls. A call that ends has its transaction rolled back. -/
structure Program (D O Q E P R : Type) : Type where
  begin : O → Q → Ctl P R
  resume : Q → O → D → E → P → Option (Effect D O P R)
  /-- The await raises. -/
  abandon : Q → O → P → O × R
  restart : E → O → O

structure State (D O Q P R : Type) : Type where
  db : D
  working : D
  writer : Option ℕ
  outside : O
  tasks : ℕ → Option (Q × Ctl P R)
  count : ℕ

inductive Label (Q E : Type) : Type
  | call (q : Q)
  | run (i : ℕ) (e : E)
  | abort (i : ℕ)
  | restart (e : E)

variable {D O Q E P R : Type}

/-- The committed database after a statement of a call that sees `view`. -/
def Action.published (a : Action D) (db view : D) : D :=
  match a with
  | .commit => view
  | _ => db

theorem Action.published_of_ne {a : Action D} {db view : D} (ha : a ≠ .commit) : a.published db view = db := by
  cases a with
  | commit => exact absurd rfl ha
  | _ => rfl

@[simp] theorem Action.published_self (a : Action D) (db : D) : a.published db db = db := by
  cases a <;> rfl

namespace State

def initial (db : D) (outside : O) : State D O Q P R := ⟨db,db,none,outside,fun _ => none,0⟩

/-- No call is in progress. -/
def Idle (s : State D O Q P R) : Prop := ∀ i q pc, s.tasks i ≠ some (q,.at pc)

def view (s : State D O Q P R) (i : ℕ) : D := if s.writer = some i then s.working else s.db

def release (s : State D O Q P R) (i : ℕ) : State D O Q P R :=
  { s with writer := if s.writer = some i then none else s.writer }

def act (s : State D O Q P R) (i : ℕ) : Action D → Option (State D O Q P R)
  | .keep => some s
  | .write db => if s.writer = none ∨ s.writer = some i then some { s with writer := some i, working := db } else none
  | .commit => some ({ s with db := s.view i }.release i)
  | .rollback => some (s.release i)

def settle (s : State D O Q P R) (i : ℕ) : Ctl P R → State D O Q P R
  | .at _ => s
  | .done _ => s.release i

def apply (s : State D O Q P R) (i : ℕ) (q : Q) (e : Effect D O P R) : Option (State D O Q P R) :=
  (s.act i e.action).map fun t =>
    { t.settle i e.next with outside := e.outside, tasks := Function.update s.tasks i (some (q,e.next)) }

end State

/-- The effect of an await that raises. -/
def Program.abandoned (prog : Program D O Q E P R) (q : Q) (o : O) (pc : P) : Effect D O P R :=
  ⟨.done (prog.abandon q o pc).2,.rollback,(prog.abandon q o pc).1⟩

def step (prog : Program D O Q E P R) (l : Label Q E) (s : State D O Q P R) : Option (State D O Q P R) :=
  match l with
  | .call q =>
    some { s with tasks := Function.update s.tasks s.count (some (q,prog.begin s.outside q)), count := s.count + 1 }
  | .run i e =>
    match s.tasks i with
    | some (q,.at pc) => (prog.resume q s.outside (s.view i) e pc).bind (s.apply i q)
    | _ => none
  | .abort i =>
    match s.tasks i with
    | some (q,.at pc) => s.apply i q (prog.abandoned q s.outside pc)
    | _ => none
  | .restart e => some { s with writer := none, outside := prog.restart e s.outside, tasks := fun _ => none }

abbrev Run (prog : Program D O Q E P R) (ok : Label Q E → State D O Q P R → Prop) :
    State D O Q P R → State D O Q P R → Prop := Reaches (step prog) ok

section Steps
variable {prog : Program D O Q E P R} {s t : State D O Q P R} {l : Label Q E} {i j : ℕ} {q : Q} {pc : P}
  {e : Effect D O P R}

/-- Who holds the lock after a statement, and what it has written. -/
inductive Locked (s t : State D O Q P R) (i : ℕ) (e : Effect D O P R) : Prop
  | kept (writer : t.writer = s.writer) (working : t.working = s.working)
      (own : s.writer = some i → e.action = .keep ∧ ∃ pc, e.next = .at pc) (readonly : ∀ db, e.action ≠ .write db)
  | wrote (db : D) (action : e.action = .write db) (next : ∃ pc, e.next = .at pc)
      (lock : s.writer = none ∨ s.writer = some i) (writer : t.writer = some i) (working : t.working = db)
  | released (lock : s.writer = none ∨ s.writer = some i) (writer : t.writer = none)
      (ended : (∃ pc, e.next = .at pc) → e.action = .commit ∨ e.action = .rollback)

/-- One statement of call `i`, or the exception of its await. -/
structure Ran (prog : Program D O Q E P R) (s : State D O Q P R) (l : Label Q E) (i : ℕ) (q : Q) (pc : P)
    (e : Effect D O P R) (t : State D O Q P R) : Prop where
  label : (∃ env, l = .run i env ∧ prog.resume q s.outside (s.view i) env pc = some e) ∨
    l = .abort i ∧ e = prog.abandoned q s.outside pc
  task : s.tasks i = some (q,.at pc)
  tasks : t.tasks = Function.update s.tasks i (some (q,e.next))
  count : t.count = s.count
  outside : t.outside = e.outside
  db : t.db = e.action.published s.db (s.view i)
  lock : Locked s t i e

/-- What a step does. -/
inductive Moved (prog : Program D O Q E P R) (s : State D O Q P R) (l : Label Q E) (t : State D O Q P R) : Prop
  | called (q : Q) (label : l = .call q)
      (state : t = { s with
        tasks := Function.update s.tasks s.count (some (q,prog.begin s.outside q)), count := s.count + 1 })
  | ran (i : ℕ) (q : Q) (pc : P) (e : Effect D O P R) (h : Ran prog s l i q pc e t)
  | restarted (env : E) (label : l = .restart env)
      (state : t = { s with writer := none, outside := prog.restart env s.outside, tasks := fun _ => none })

theorem State.release_own (h : s.writer = some i) : (s.release i).writer = none := if_pos h

theorem State.release_other (h : s.writer ≠ some i) : s.release i = s := by
  unfold State.release
  rw [if_neg h]

/-- The lock of another call is not touched, and one's own is given up. -/
theorem State.release_locked (h : (∃ pc, e.next = .at pc) → e.action = .commit ∨ e.action = .rollback)
    (hw : ∀ db, e.action ≠ .write db) (ht : t.writer = (s.release i).writer) (hk : t.working = s.working) :
    Locked s t i e := by
  by_cases hi : s.writer = some i
  · exact .released (.inr hi) (ht.trans (State.release_own hi)) h
  · rw [State.release_other hi] at ht
    exact .kept ht hk (fun hi' => absurd hi' hi) hw

theorem State.apply_ran (h : s.apply i q e = some t) (ht : s.tasks i = some (q,.at pc))
    (hl : (∃ env, l = .run i env ∧ prog.resume q s.outside (s.view i) env pc = some e) ∨
      l = .abort i ∧ e = prog.abandoned q s.outside pc) : Ran prog s l i q pc e t := by
  obtain ⟨next,action,outside⟩ := e
  obtain ⟨u,hu,rfl⟩ := Option.map_eq_some_iff.mp h
  have hcommit (u : State D O Q P R) (c : Ctl P R) : (u.settle i c).db = u.db ∧ (u.settle i c).count = u.count := by
    cases c <;> exact ⟨rfl,rfl⟩
  cases action with
  | keep =>
    obtain rfl := Option.some.inj hu
    refine ⟨hl,ht,rfl,(hcommit s next).2,rfl,(hcommit s next).1,?_⟩
    cases next with
    | «at» pc' => exact .kept rfl rfl (fun _ => ⟨rfl,pc',rfl⟩) (by simp)
    | done r => exact State.release_locked (by simp) (by simp) rfl rfl
  | write db =>
    simp only [State.act, Option.ite_none_right_eq_some, Option.some.injEq] at hu
    obtain ⟨hlock,rfl⟩ := hu
    refine ⟨hl,ht,rfl,(hcommit _ next).2,rfl,(hcommit _ next).1,?_⟩
    cases next with
    | «at» pc' => exact .wrote db rfl ⟨pc',rfl⟩ hlock rfl rfl
    | done r => exact .released hlock (State.release_own rfl) (by simp)
  | commit =>
    obtain rfl := Option.some.inj hu
    refine ⟨hl,ht,rfl,(hcommit _ next).2,rfl,(hcommit _ next).1,?_⟩
    cases next with
    | «at» pc' => exact State.release_locked (fun _ => .inl rfl) (by simp) rfl rfl
    | done r =>
      refine State.release_locked (fun _ => .inl rfl) (by simp) ?_ rfl
      by_cases hi : s.writer = some i <;> simp [State.settle,State.release,hi]
  | rollback =>
    obtain rfl := Option.some.inj hu
    refine ⟨hl,ht,rfl,(hcommit _ next).2,rfl,(hcommit _ next).1,?_⟩
    cases next with
    | «at» pc' => exact State.release_locked (fun _ => .inr rfl) (by simp) rfl rfl
    | done r =>
      refine State.release_locked (fun _ => .inr rfl) (by simp) ?_ rfl
      by_cases hi : s.writer = some i <;> simp [State.settle,State.release,hi]

theorem step_moved (h : step prog l s = some t) : Moved prog s l t := by
  cases l with
  | call q => exact .called q rfl (Option.some.inj h).symm
  | run i env =>
    simp only [step] at h
    split at h
    next q pc ht =>
      obtain ⟨e,he,ha⟩ := Option.bind_eq_some_iff.mp h
      exact .ran i q pc e (State.apply_ran ha ht (.inl ⟨env,rfl,he⟩))
    · cases h
  | abort i =>
    simp only [step] at h
    split at h
    next q pc ht => exact .ran i q pc _ (State.apply_ran h ht (.inr ⟨rfl,rfl⟩))
    · cases h
  | restart env => exact .restarted env rfl (Option.some.inj h).symm

/-- The step of a call that runs. -/
theorem step_ran (h : step prog l s = some t) (hl : (∃ env, l = .run i env) ∨ l = .abort i) :
    ∃ q pc e, Ran prog s l i q pc e t := by
  cases step_moved h with
  | called q label state => obtain ⟨_,rfl⟩ | rfl := hl <;> cases label
  | restarted env label state => obtain ⟨_,rfl⟩ | rfl := hl <;> cases label
  | ran j q pc e h =>
    obtain rfl : i = j := by
      obtain ⟨_,rfl⟩ | rfl := hl <;> obtain ⟨_,hlabel,-⟩ | ⟨hlabel,-⟩ := h.label <;> cases hlabel <;> rfl
    exact ⟨q,pc,e,h⟩

/-- A call that is about to make a statement outside a transaction can make it. -/
theorem exists_ran (prog : Program D O Q E P R) (env : E) (ht : s.tasks i = some (q,.at pc)) (he : prog.resume q s.outside (s.view i) env pc = some e)
    (ha : e.action = .keep) : ∃ t, step prog (.run i env) s = some t ∧ Ran prog s (.run i env) i q pc e t := by
  obtain ⟨t,happly⟩ : ∃ t, s.apply i q e = some t := by simp [State.apply, State.act, ha]
  refine ⟨t,?_,State.apply_ran happly ht (.inl ⟨env,rfl,he⟩)⟩
  simp only [step, ht, he, Option.bind_some]
  exact happly

theorem update_cases {tasks : ℕ → Option (Q × Ctl P R)} {x y : Q × Ctl P R}
    (h : Function.update tasks i (some y) j = some x) : j = i ∧ x = y ∨ j ≠ i ∧ tasks j = some x := by
  by_cases hj : j = i
  · subst hj
    rw [Function.update_self] at h
    exact .inl ⟨rfl,(Option.some.inj h).symm⟩
  · rw [Function.update_of_ne hj] at h
    exact .inr ⟨hj,h⟩

theorem Ran.task_cases (h : Ran prog s l i q pc e t) {x : Q × Ctl P R} (hx : t.tasks j = some x) :
    j = i ∧ x = (q,e.next) ∨ j ≠ i ∧ s.tasks j = some x := by
  rw [h.tasks] at hx
  exact update_cases hx

theorem Ran.db_kept (h : Ran prog s l i q pc e t) (ha : e.action ≠ .commit) : t.db = s.db :=
  h.db.trans (Action.published_of_ne ha)

end Steps

/-! ## Calls without a transaction -/

/-- No transaction is open, and nothing is known under the numbers of the calls to come. -/
structure State.Quiet (s : State D O Q P R) : Prop where
  unlocked : s.writer = none
  fresh : ∀ i, s.count ≤ i → s.tasks i = none

theorem State.initial_quiet (db : D) (o : O) : (State.initial db o : State D O Q P R).Quiet := ⟨rfl,fun _ _ => rfl⟩

theorem State.Quiet.ne_count {s : State D O Q P R} {i : ℕ} {x : Q × Ctl P R} (hs : s.Quiet) (h : s.tasks i = some x) : i ≠ s.count := by
  rintro rfl
  rw [hs.fresh _ (Nat.le_refl _)] at h
  cases h

/-- No statement writes to the database. -/
def Program.Detached (prog : Program D O Q E P R) : Prop :=
  ∀ q o db env pc e, prog.resume q o db env pc = some e → e.action = .keep

theorem State.Quiet.step {prog : Program D O Q E P R} {s t : State D O Q P R} {l : Label Q E} (hprog : prog.Detached)
    (hs : s.Quiet) (h : Database.step prog l s = some t) : t.Quiet := by
  cases step_moved h with
  | called q label state =>
    rw [state]
    refine ⟨hs.unlocked,fun i hi => ?_⟩
    have hi : s.count + 1 ≤ i := hi
    exact (Function.update_of_ne (by omega) _ _).trans (hs.fresh i (by omega))
  | restarted env label state =>
    rw [state]
    exact ⟨rfl,fun _ _ => rfl⟩
  | ran i q pc e h =>
    have hwrites (db : D) : e.action ≠ .write db := by
      obtain ⟨env,-,he⟩ | ⟨-,rfl⟩ := h.label
      · rw [hprog _ _ _ _ _ _ he]
        simp
      · simp [Program.abandoned]
    refine ⟨?_,fun j hj => ?_⟩
    · cases h.lock with
      | kept writer working own readonly => exact writer.trans hs.unlocked
      | wrote db action next lock writer working => exact absurd action (hwrites db)
      | released lock writer ended => exact writer
    · rw [h.count] at hj
      rw [h.tasks,Function.update_of_ne]
      · exact hs.fresh j hj
      · rintro rfl
        have ht := h.task
        rw [hs.fresh _ hj] at ht
        cases ht

/-! ## A call by itself -/

/-- A call that nobody disturbs, with the database. -/
structure Solo (D O P R : Type) : Type where
  ctl : Ctl P R
  db : D
  working : D
  held : Bool
  outside : O

namespace Solo

def view (x : Solo D O P R) : D := if x.held then x.working else x.db

/-- The call after a statement. -/
def apply (x : Solo D O P R) (e : Effect D O P R) : Solo D O P R where
  ctl := e.next
  db := e.action.published x.db x.view
  working :=
    match e.action with
    | .write db => db
    | _ => x.working
  held :=
    match e.next, e.action with
    | .at _, .keep => x.held
    | .at _, .write _ => true
    | _, _ => false
  outside := e.outside

end Solo

/-- The call runs its next statements. -/
def Program.serve (prog : Program D O Q E P R) (q : Q) : List E → Solo D O P R → Option (Solo D O P R)
  | [], x => some x
  | env :: envs, x =>
    match x.ctl with
    | .at pc => (prog.resume q x.outside x.view env pc).bind fun e => prog.serve q envs (x.apply e)
    | .done _ => none

/-- The call `q` that starts in `s`, after it has run to `x`. -/
def State.alone (s : State D O Q P R) (q : Q) (x : Solo D O P R) : State D O Q P R :=
  ⟨x.db,x.working,if x.held then some s.count else none,x.outside,Function.update s.tasks s.count (some (q,x.ctl)),
    s.count + 1⟩

section Alone
variable {prog : Program D O Q E P R} {s : State D O Q P R} {q : Q} {pc : P} {e : Effect D O P R} {x : Solo D O P R}

theorem serve_cons {env : E} {envs : List E} (hx : x.ctl = .at pc) (he : prog.resume q x.outside x.view env pc = some e) :
    prog.serve q (env :: envs) x = prog.serve q envs (x.apply e) := by
  simp only [Program.serve, hx, he, Option.bind_some]

theorem alone_view : (s.alone q x).view s.count = x.view := by
  cases hx : x.held <;> simp [State.alone,State.view,Solo.view,hx]

theorem alone_apply : (s.alone q x).apply s.count q e = some (s.alone q (x.apply e)) := by
  obtain ⟨next,action,outside⟩ := e
  obtain ⟨ctl,db,working,held,o⟩ := x
  cases held <;> cases next <;> cases action <;>
    simp [State.apply,State.act,State.settle,State.release,State.view,State.alone,Solo.apply,Solo.view,Action.published]

theorem exec_alone (envs : List E) (x : Solo D O P R) :
    exec (step prog) (envs.map fun env => .run s.count env) (s.alone q x) = (prog.serve q envs x).map (s.alone q) := by
  induction envs generalizing x with
  | nil => rfl
  | cons env envs ih =>
    have htask : (s.alone q x).tasks s.count = some (q,x.ctl) := Function.update_self _ _ _
    simp only [List.map_cons, exec, step, htask, Program.serve]
    cases x.ctl with
    | done r => rfl
    | «at» pc =>
      simp only [alone_view, Option.bind_assoc, Option.map_bind]
      refine Option.bind_congr fun e _ => ?_
      rw [alone_apply]
      exact ih (x.apply e)

theorem step_alone {env : E} (hx : x.ctl = .at pc) (he : prog.resume q x.outside x.view env pc = some e) :
    step prog (.run s.count env) (s.alone q x) = some (s.alone q (x.apply e)) := by
  have htask : (s.alone q x).tasks s.count = some (q,.at pc) := by rw [← hx]; exact Function.update_self _ _ _
  simp only [step, htask, alone_view]
  rw [show (s.alone q x).outside = x.outside from rfl,he]
  exact alone_apply

/-- The statements take the call from `x` to `y`, and each of them meets the condition. -/
def Served (prog : Program D O Q E P R) (ok : Label Q E → State D O Q P R → Prop) (s : State D O Q P R) (q : Q)
    (envs : List E) (x y : Solo D O P R) : Prop :=
  prog.serve q envs x = some y ∧ ExecOk (step prog) ok (envs.map fun env => .run s.count env) (s.alone q x)

theorem Served.nil {ok : Label Q E → State D O Q P R → Prop} : Served prog ok s q [] x x := ⟨rfl,trivial⟩

theorem Served.cons {ok : Label Q E → State D O Q P R → Prop} {env : E} {envs : List E} {y : Solo D O P R}
    (hx : x.ctl = .at pc) (he : prog.resume q x.outside x.view env pc = some e)
    (hok : ok (.run s.count env) (s.alone q x)) (h : Served prog ok s q envs (x.apply e) y) :
    Served prog ok s q (env :: envs) x y := by
  refine ⟨(serve_cons hx he).trans h.1,hok,fun t ht => ?_⟩
  obtain rfl := Option.some.inj ((step_alone hx he).symm.trans ht)
  exact h.2

theorem Served.append {ok : Label Q E → State D O Q P R → Prop} {envs envs' : List E} {y z : Solo D O P R}
    (h : Served prog ok s q envs x y) (h' : Served prog ok s q envs' y z) : Served prog ok s q (envs ++ envs') x z := by
  obtain ⟨hserve,hok⟩ := h
  have hexec : exec (step prog) (envs.map fun env => .run s.count env) (s.alone q x) = some (s.alone q y) := by
    rw [exec_alone,hserve]
    rfl
  constructor
  · clear hok hexec
    induction envs generalizing x with
    | nil =>
      obtain rfl := Option.some.inj hserve
      exact h'.1
    | cons env envs ih =>
      simp only [Program.serve] at hserve
      split at hserve
      next pc hx =>
        obtain ⟨e,he,hserve⟩ := Option.bind_eq_some_iff.mp hserve
        exact (serve_cons hx he).trans (ih hserve)
      · cases hserve
  · rw [List.map_append,execOk_append]
    refine ⟨hok,fun t ht => ?_⟩
    obtain rfl := Option.some.inj (hexec.symm.trans ht)
    exact h'.2

/-- The await of the call raises. -/
theorem abort_alone (hx : x.ctl = .at pc) :
    step prog (.abort s.count) (s.alone q x) = some (s.alone q (x.apply (prog.abandoned q x.outside pc))) := by
  have htask : (s.alone q x).tasks s.count = some (q,.at pc) := by rw [← hx]; exact Function.update_self _ _ _
  simp only [step, htask]
  exact alone_apply

/-- A call that is served when no transaction is open. -/
theorem exec_call_alone (h : s.writer = none) (envs : List E) :
    exec (step prog) (.call q :: envs.map fun env => .run s.count env) s =
      (prog.serve q envs ⟨prog.begin s.outside q,s.db,s.working,false,s.outside⟩).map (s.alone q) := by
  rw [← exec_alone]
  simp only [exec, step, Option.bind_some, State.alone, h]
  rfl

theorem exec_call_served (h : s.writer = none) {envs : List E} {y : Solo D O P R}
    (hserve : prog.serve q envs ⟨prog.begin s.outside q,s.db,s.working,false,s.outside⟩ = some y) :
    exec (step prog) (.call q :: envs.map fun env => .run s.count env) s = some (s.alone q y) := by
  rw [exec_call_alone h,hserve]
  rfl

/-- The run of a call that is served when no transaction is open. -/
theorem Served.run {ok : Label Q E → State D O Q P R → Prop} {envs : List E} {y : Solo D O P R} (hw : s.writer = none)
    (hok : ok (.call q) s) (h : Served prog ok s q envs ⟨prog.begin s.outside q,s.db,s.working,false,s.outside⟩ y) :
    exec (step prog) (.call q :: envs.map fun env => .run s.count env) s = some (s.alone q y) ∧
      Run prog ok s (s.alone q y) := by
  have he := exec_call_served hw h.1
  have hall : ExecOk (step prog) ok (.call q :: envs.map fun env => .run s.count env) s := by
    refine ⟨hok,fun t ht => ?_⟩
    have ht : t = s.alone q ⟨prog.begin s.outside q,s.db,s.working,false,s.outside⟩ := by
      obtain rfl := Option.some.inj ht
      simp [State.alone,hw]
    rw [ht]
    exact h.2
  exact ⟨he,exec_reaches hall he⟩

end Alone

/-! ## Outlines -/

/-- What holds between the statements: of the committed database, of a call that reads,
of the one that writes, with its transaction, and of a call that has ended. -/
structure Outline (D O Q P R : Type) : Type where
  world : O → D → Prop
  /-- What the others may do to the committed database and to what lies outside. -/
  rely : O → D → O → D → Prop
  reading : ℕ → Q → O → D → P → Prop
  writing : ℕ → Q → O → D → D → P → Prop
  ended : ℕ → Q → O → D → R → Prop

namespace Outline

/-- What a statement owes that leaves `db` committed; `keep` is owed if it neither
writes nor ends the transaction. -/
structure Meets (A : Outline D O Q P R) (i : ℕ) (q : Q) (o : O) (db view : D) (keep : P → Prop) (e : Effect D O P R) :
    Prop where
  world : A.world e.outside (e.action.published db view)
  rely : A.rely o db e.outside (e.action.published db view)
  ended : ∀ r, e.next = .done r → A.ended i q e.outside (e.action.published db view) r
  keeps : ∀ pc, e.next = .at pc → e.action = .keep → keep pc
  writes : ∀ pc db', e.next = .at pc → e.action = .write db' → A.writing i q e.outside db db' pc
  releases : ∀ pc, e.next = .at pc → e.action = .commit ∨ e.action = .rollback →
    A.reading i q e.outside (e.action.published db view) pc

/-- Every statement keeps the outline, and it is stable under the statements of others. -/
structure Valid (A : Outline D O Q P R) (prog : Program D O Q E P R) : Prop where
  reading_stable : ∀ i q o db o' db' pc, A.rely o db o' db' → A.reading i q o db pc → A.reading i q o' db' pc
  writing_stable : ∀ i q o db o' working pc, A.rely o db o' db → A.writing i q o db working pc →
    A.writing i q o' db working pc
  ended_stable : ∀ i q o db o' db' r, A.rely o db o' db' → A.ended i q o db r → A.ended i q o' db' r
  begin : ∀ i q o db, A.world o db → (∀ pc, prog.begin o q = .at pc → A.reading i q o db pc) ∧
    ∀ r, prog.begin o q = .done r → A.ended i q o db r
  read : ∀ i q o db pc env e, A.world o db → A.reading i q o db pc → prog.resume q o db env pc = some e →
    A.Meets i q o db db (A.reading i q e.outside db) e
  write : ∀ i q o db working pc env e, A.world o db → A.writing i q o db working pc →
    prog.resume q o working env pc = some e → A.Meets i q o db working (A.writing i q e.outside db working) e
  abandon : ∀ i q o db pc, A.world o db → (A.reading i q o db pc ∨ ∃ working, A.writing i q o db working pc) →
    A.Meets i q o db db (A.reading i q (prog.abandon q o pc).1 db) (prog.abandoned q o pc)
  restart : ∀ env o db, A.world o db → A.world (prog.restart env o) db

/-- The outline holds in a state. -/
structure Holds (A : Outline D O Q P R) (s : State D O Q P R) : Prop where
  fresh : ∀ i, s.count ≤ i → s.tasks i = none
  world : A.world s.outside s.db
  reading : ∀ i q pc, s.tasks i = some (q,.at pc) → s.writer ≠ some i → A.reading i q s.outside s.db pc
  writing : ∀ i, s.writer = some i → ∃ q pc, s.tasks i = some (q,.at pc) ∧ A.writing i q s.outside s.db s.working pc
  ended : ∀ i q r, s.tasks i = some (q,.done r) → A.ended i q s.outside s.db r

section Rule
variable {A : Outline D O Q P R} {prog : Program D O Q E P R} {s t : State D O Q P R} {l : Label Q E} {i : ℕ} {q : Q}
  {pc : P} {e : Effect D O P R}

section Meets
variable {o o' : O} {db view : D} {keep : P → Prop}

/-- A statement that only reads. -/
theorem Meets.goto (hw : A.world o' db) (hr : A.rely o db o' db) (hk : keep pc) :
    A.Meets i q o db view keep ⟨.at pc,.keep,o'⟩ := by
  refine ⟨hw,hr,fun r hn => ?_,fun pc' hn _ => ?_,fun pc' db' _ ha => ?_,fun pc' _ ha => ?_⟩
  · cases hn
  · cases hn
    exact hk
  · cases ha
  · obtain ha | ha := ha <;> cases ha

/-- A statement that writes takes the lock, or has it. -/
theorem Meets.write {db' : D} (hw : A.world o' db) (hr : A.rely o db o' db) (hk : A.writing i q o' db db' pc) :
    A.Meets i q o db view keep ⟨.at pc,.write db',o'⟩ := by
  refine ⟨hw,hr,fun r hn => ?_,fun pc' _ ha => ?_,fun pc' db₁ hn ha => ?_,fun pc' _ ha => ?_⟩
  · cases hn
  · cases ha
  · cases hn
    cases ha
    exact hk
  · obtain ha | ha := ha <;> cases ha

/-- The call ends without a commit. -/
theorem Meets.finish {r : R} {a : Action D} (ha : a ≠ .commit) (hw : A.world o' db) (hr : A.rely o db o' db)
    (he : A.ended i q o' db r) : A.Meets i q o db view keep ⟨.done r,a,o'⟩ := by
  have hp : a.published db view = db := Action.published_of_ne ha
  refine ⟨?_,?_,fun r' hn => ?_,fun pc' hn _ => ?_,fun pc' db' hn _ => ?_,fun pc' hn _ => ?_⟩
  · rw [hp]
    exact hw
  · rw [hp]
    exact hr
  · cases hn
    rw [hp]
    exact he
  all_goals cases hn

/-- The call commits and ends. -/
theorem Meets.commit {r : R} (hw : A.world o' view) (hr : A.rely o db o' view) (he : A.ended i q o' view r) :
    A.Meets i q o db view keep ⟨.done r,.commit,o'⟩ := by
  refine ⟨hw,hr,fun r' hn => ?_,fun pc' hn _ => ?_,fun pc' db' hn _ => ?_,fun pc' hn _ => ?_⟩
  · cases hn
    exact he
  all_goals cases hn

/-- The transaction ends and the call goes on. -/
theorem Meets.release {a : Action D} (ha : a = .commit ∨ a = .rollback) (hw : A.world o' (a.published db view))
    (hr : A.rely o db o' (a.published db view)) (hk : A.reading i q o' (a.published db view) pc) :
    A.Meets i q o db view keep ⟨.at pc,a,o'⟩ := by
  refine ⟨hw,hr,fun r hn => ?_,fun pc' _ hkeep => ?_,fun pc' db' _ hwrite => ?_,fun pc' hn _ => ?_⟩
  · cases hn
  · obtain rfl | rfl := ha <;> cases hkeep
  · obtain rfl | rfl := ha <;> cases hwrite
  · cases hn
    exact hk

end Meets

theorem initial_holds {db : D} {o : O} (h : A.world o db) : A.Holds (State.initial db o) :=
  ⟨fun _ _ => rfl,h,fun _ _ _ ht => (nomatch ht),fun _ hw => (nomatch hw),fun _ _ _ ht => (nomatch ht)⟩

theorem Holds.unlocked (hs : A.Holds s) (hidle : s.Idle) : s.writer = none := by
  cases hw : s.writer with
  | none => rfl
  | some i =>
    obtain ⟨q,pc,ht,-⟩ := hs.writing i hw
    exact absurd ht (hidle i q pc)

/-- What holds of a call, and what it sees, by its transaction. -/
theorem Holds.seen (hs : A.Holds s) (ht : s.tasks i = some (q,.at pc)) :
    (s.writer = some i ∧ s.view i = s.working ∧ A.writing i q s.outside s.db s.working pc) ∨
      (s.writer ≠ some i ∧ s.view i = s.db ∧ A.reading i q s.outside s.db pc) := by
  by_cases hw : s.writer = some i
  · obtain ⟨q',pc',ht',hwriting⟩ := hs.writing i hw
    obtain ⟨rfl,hpc⟩ := Prod.mk.inj (Option.some.inj (ht.symm.trans ht'))
    cases hpc
    exact .inl ⟨hw,if_pos hw,hwriting⟩
  · exact .inr ⟨hw,if_neg hw,hs.reading i q pc ht hw⟩

/-- What the statement that has run owes, by its transaction. -/
theorem Holds.meets (hv : A.Valid prog) (hs : A.Holds s) (h : Ran prog s l i q pc e t) :
    (s.writer ≠ some i ∧ A.Meets i q s.outside s.db (s.view i) (A.reading i q e.outside s.db) e) ∨
      (s.writer = some i ∧ A.Meets i q s.outside s.db (s.view i) (A.writing i q e.outside s.db s.working) e) := by
  have habandon {keep : P → Prop} (hm : A.Meets i q s.outside s.db s.db (A.reading i q (prog.abandon q s.outside pc).1 s.db)
      (prog.abandoned q s.outside pc)) : A.Meets i q s.outside s.db (s.view i) keep (prog.abandoned q s.outside pc) :=
    ⟨hm.world,hm.rely,hm.ended,(fun _ h => by cases h),hm.writes,hm.releases⟩
  obtain ⟨hw,hview,hwriting⟩ | ⟨hw,hview,hreading⟩ := hs.seen h.task
  · refine .inr ⟨hw,?_⟩
    obtain ⟨env,-,he⟩ | ⟨-,rfl⟩ := h.label
    · rw [hview] at he ⊢
      exact hv.write i q _ _ _ pc env e hs.world hwriting he
    · exact habandon (hv.abandon i q _ _ pc hs.world (.inr ⟨_,hwriting⟩))
  · refine .inl ⟨hw,?_⟩
    obtain ⟨env,-,he⟩ | ⟨-,rfl⟩ := h.label
    · rw [hview] at he ⊢
      exact hv.read i q _ _ pc env e hs.world hreading he
    · exact habandon (hv.abandon i q _ _ pc hs.world (.inl hreading))

theorem Meets.toWorld {keep : P → Prop} {o : O} {db view : D} (h : A.Meets i q o db view keep e) :
    A.world e.outside (e.action.published db view) ∧ A.rely o db e.outside (e.action.published db view) :=
  ⟨h.world,h.rely⟩

/-- Only its holder gives the lock up or takes it. -/
theorem other_locked {j : ℕ} (h : Locked s t i e) (hj : j ≠ i) (hw : s.writer = some j) : t.writer = some j ∧ t.working = s.working := by
  have hne (hlock : s.writer = none ∨ s.writer = some i) : False := by
    rw [hw] at hlock
    obtain hnone | hi := hlock
    · cases hnone
    · exact hj (Option.some.inj hi)
  cases h with
  | kept writer working own readonly => exact ⟨writer.trans hw,working⟩
  | wrote db action next lock writer working => exact (hne lock).elim
  | released lock writer ended => exact (hne lock).elim

theorem Holds.ran (hv : A.Valid prog) (hs : A.Holds s) (h : Ran prog s l i q pc e t) :
    A.Holds t ∧ A.rely s.outside s.db t.outside t.db := by
  have hmeets := hs.meets hv h
  obtain ⟨hworld,hrely⟩ : A.world e.outside (e.action.published s.db (s.view i)) ∧
      A.rely s.outside s.db e.outside (e.action.published s.db (s.view i)) :=
    hmeets.elim (fun hm => hm.2.toWorld) fun hm => hm.2.toWorld
  rw [← h.outside,← h.db] at hworld hrely
  refine ⟨⟨fun j hj => ?_,hworld,fun j q' pc' ht hw => ?_,fun j hw => ?_,fun j q' r ht => ?_⟩,hrely⟩
  · rw [h.count] at hj
    rw [h.tasks,Function.update_of_ne]
    · exact hs.fresh j hj
    · rintro rfl
      have ht := h.task
      rw [hs.fresh _ hj] at ht
      cases ht
  · obtain ⟨rfl,hx⟩ | ⟨hj,ht⟩ := h.task_cases ht
    · obtain ⟨rfl,hnext⟩ := Prod.mk.inj hx
      rw [h.outside,h.db]
      cases h.lock with
      | kept writer working own readonly =>
        obtain ⟨-,hm⟩ | ⟨hw',-⟩ := hmeets
        · -- it read outside a transaction, or ended an empty one
          cases ha : e.action with
          | keep => exact hm.keeps pc' hnext.symm ha
          | write db => exact absurd ha (readonly db)
          | commit | rollback =>
            have hr := hm.releases pc' hnext.symm (by simp [ha])
            rwa [ha] at hr
        · exact absurd (writer.trans hw') hw
      | wrote db action next lock writer working => exact absurd writer hw
      | released lock writer ended =>
        have hreleases := hmeets.elim (fun hm => hm.2.releases) fun hm => hm.2.releases
        exact hreleases pc' hnext.symm (ended ⟨pc',hnext.symm⟩)
    · have hold : s.writer ≠ some j := fun hold => hw (other_locked h.lock hj hold).1
      exact hv.reading_stable j q' _ _ _ _ pc' hrely (hs.reading j q' pc' ht hold)
  · by_cases hj : j = i
    · subst hj
      rw [h.outside,h.db]
      cases h.lock with
      | kept writer working own readonly =>
        obtain ⟨hw',-⟩ | ⟨hw',hm⟩ := hmeets
        · exact absurd (writer.symm.trans hw) hw'
        · obtain ⟨ha,pc',hnext⟩ := own hw'
          rw [working,ha]
          exact ⟨q,pc',by rw [h.tasks,Function.update_self,hnext],hm.keeps pc' hnext ha⟩
      | wrote db action next lock writer working =>
        obtain ⟨pc',hnext⟩ := next
        have hwrites := hmeets.elim (fun hm => hm.2.writes) fun hm => hm.2.writes
        rw [working,action]
        exact ⟨q,pc',by rw [h.tasks,Function.update_self,hnext],hwrites pc' db hnext action⟩
      | released lock writer ended =>
        rw [writer] at hw
        cases hw
    · have hold : s.writer = some j := by
        cases h.lock with
        | kept writer working own readonly => exact writer.symm.trans hw
        | wrote db action next lock writer working => exact absurd (Option.some.inj (hw.symm.trans writer)) hj
        | released lock writer ended =>
          rw [writer] at hw
          cases hw
      obtain ⟨q',pc',ht,hwriting⟩ := hs.writing j hold
      -- a call without the lock publishes nothing
      have hdb : t.db = s.db := by
        have hview : s.view i = s.db := if_neg fun hi => hj (Option.some.inj (hold.symm.trans hi))
        rw [h.db,hview,Action.published_self]
      rw [hdb] at hrely
      rw [hdb,(other_locked h.lock hj hold).2]
      exact ⟨q',pc',by rw [h.tasks,Function.update_of_ne hj,ht],hv.writing_stable j q' _ _ _ _ pc' hrely hwriting⟩
  · obtain ⟨rfl,hx⟩ | ⟨-,ht⟩ := h.task_cases ht
    · obtain ⟨rfl,hnext⟩ := Prod.mk.inj hx
      have hended := hmeets.elim (fun hm => hm.2.ended) fun hm => hm.2.ended
      rw [h.outside,h.db]
      exact hended r hnext.symm
    · exact hv.ended_stable j q' _ _ _ _ r hrely (hs.ended j q' r ht)

theorem Holds.called (hv : A.Valid prog) (hs : A.Holds s) (q : Q) :
    A.Holds { s with
      tasks := Function.update s.tasks s.count (some (q,prog.begin s.outside q)), count := s.count + 1 } := by
  have hidle : s.writer ≠ some s.count := by
    intro hw
    obtain ⟨_,_,ht,-⟩ := hs.writing s.count hw
    rw [hs.fresh s.count (Nat.le_refl _)] at ht
    cases ht
  have hbegin := hv.begin s.count q s.outside s.db hs.world
  refine ⟨fun j hj => ?_,hs.world,fun j q' pc' ht hw => ?_,fun j hw => ?_,fun j q' r ht => ?_⟩
  · have hlt : s.count + 1 ≤ j := hj
    exact (Function.update_of_ne (by omega) _ _).trans (hs.fresh j (by omega))
  · obtain ⟨rfl,hx⟩ | ⟨-,ht⟩ := update_cases ht
    · obtain ⟨rfl,hpc⟩ := Prod.mk.inj hx
      exact hbegin.1 pc' hpc.symm
    · exact hs.reading j q' pc' ht hw
  · obtain ⟨q',pc',ht,hwriting⟩ := hs.writing j hw
    have hj : j ≠ s.count := fun hj => hidle (hj ▸ hw)
    exact ⟨q',pc',(Function.update_of_ne hj _ _).trans ht,hwriting⟩
  · obtain ⟨rfl,hx⟩ | ⟨-,ht⟩ := update_cases ht
    · obtain ⟨rfl,hr⟩ := Prod.mk.inj hx
      exact hbegin.2 r hr.symm
    · exact hs.ended j q' r ht

theorem Holds.step (hv : A.Valid prog) (hs : A.Holds s) (h : Database.step prog l s = some t) : A.Holds t := by
  cases step_moved h with
  | called q label state =>
    rw [state]
    exact hs.called hv q
  | ran i q pc e h => exact (hs.ran hv h).1
  | restarted env label state =>
    rw [state]
    exact ⟨fun _ _ => rfl,hv.restart env _ _ hs.world,fun _ _ _ ht => (nomatch ht),fun _ hw => (nomatch hw),
      fun _ _ _ ht => (nomatch ht)⟩

/-- A valid outline holds along every run. -/
theorem Holds.run {ok : Label Q E → State D O Q P R → Prop} (hv : A.Valid prog) (hs : A.Holds s)
    (h : Run prog ok s t) : A.Holds t :=
  Reaches.invariant (I := A.Holds) (fun _ _ _ hs _ hstep => hs.step hv hstep) h hs

end Rule

end Outline

end AgentGraph.Database
