import Mathlib.Data.List.Induction
import Mathlib.Data.Nat.Notation
import Mathlib.Logic.Relation

/-! # Executable labelled transition systems

A system is a partial function from a label and a state to the next state, so a
finite list of labels can be executed. Runs may be restricted by a condition on
each label and the state it is taken in; invariants are proved for one step and
then hold along every restricted run.
-/
set_option autoImplicit false
namespace AgentGraph.Transition

variable {S L : Type*}

/-- One step whose label and starting state meet the condition `ok`. -/
def Moves (step : L → S → Option S) (ok : L → S → Prop) (s t : S) : Prop :=
  ∃ l, ok l s ∧ step l s = some t

/-- Finite runs all of whose steps meet the condition `ok`. -/
abbrev Reaches (step : L → S → Option S) (ok : L → S → Prop) : S → S → Prop :=
  Relation.ReflTransGen (Moves step ok)

/-- The condition that restricts nothing. -/
def anyStep (_ : L) (_ : S) : Prop := True

variable {step : L → S → Option S} {ok : L → S → Prop}

/-- A property kept by every permitted step is kept by every permitted run. -/
theorem Reaches.invariant {I : S → Prop}
    (h : ∀ l s t, I s → ok l s → step l s = some t → I t)
    {s t : S} (hr : Reaches step ok s t) (hs : I s) : I t := by
  induction hr with
  | refl => exact hs
  | tail _ hm ih =>
    obtain ⟨l,hok,he⟩ := hm
    exact h l _ _ ih hok he

theorem Reaches.mono {ok' : L → S → Prop} (h : ∀ l s, ok l s → ok' l s) {s t : S}
    (hr : Reaches step ok s t) : Reaches step ok' s t :=
  Relation.ReflTransGen.mono (fun _ _ ⟨l,hok,he⟩ => ⟨l,h l _ hok,he⟩) _ _ hr

/-- Execute a list of labels, oldest first. -/
def exec (step : L → S → Option S) : List L → S → Option S
  | [], s => some s
  | l :: ls, s => (step l s).bind (exec step ls)

/-- Every label of the list meets the condition in the state it is taken in. -/
def ExecOk (step : L → S → Option S) (ok : L → S → Prop) : List L → S → Prop
  | [], _ => True
  | l :: ls, s => ok l s ∧ ∀ t ∈ step l s, ExecOk step ok ls t

instance ExecOk.decidable (step : L → S → Option S) (ok : L → S → Prop)
    [h : ∀ l s, Decidable (ok l s)] : ∀ ls s, Decidable (ExecOk step ok ls s)
  | [], _ => .isTrue trivial
  | l :: ls, s =>
    have : Decidable (∀ t ∈ step l s, ExecOk step ok ls t) :=
      match he : step l s with
      | none => .isTrue (by simp)
      | some t =>
        match ExecOk.decidable step ok ls t with
        | .isTrue ht => .isTrue (by rintro _ ⟨⟩; exact ht)
        | .isFalse ht => .isFalse (fun hall => ht (hall t rfl))
    inferInstanceAs (Decidable (_ ∧ _))

/-- An executed list whose labels meet the condition is a permitted run. -/
theorem exec_reaches {ls : List L} {s t : S} (hok : ExecOk step ok ls s)
    (he : exec step ls s = some t) : Reaches step ok s t := by
  induction ls generalizing s with
  | nil =>
    obtain rfl : s = t := by simpa [exec] using he
    exact .refl
  | cons l ls ih =>
    obtain ⟨u,hu,hrest⟩ := Option.bind_eq_some_iff.mp he
    exact .head ⟨l,hok.1,hu⟩ (ih (hok.2 u hu) hrest)

theorem exec_append (ls ls' : List L) (s : S) :
    exec step (ls ++ ls') s = (exec step ls s).bind (exec step ls') := by
  induction ls generalizing s with
  | nil => rfl
  | cons l ls ih =>
    simp only [List.cons_append, exec, Option.bind_assoc]
    exact Option.bind_congr fun t _ => ih t

theorem execOk_append {ls ls' : List L} {s : S} :
    ExecOk step ok (ls ++ ls') s ↔ ExecOk step ok ls s ∧ ∀ t ∈ exec step ls s, ExecOk step ok ls' t := by
  induction ls generalizing s with
  | nil => simp [ExecOk,exec]
  | cons l ls ih =>
    simp only [List.cons_append, ExecOk, exec, Option.mem_bind_iff, forall_exists_index, and_imp]
    constructor
    · rintro ⟨hl,hrest⟩
      exact ⟨⟨hl,fun t ht => (ih.mp (hrest t ht)).1⟩,fun u t ht hu => (ih.mp (hrest t ht)).2 u hu⟩
    · rintro ⟨⟨hl,hrest⟩,hu⟩
      exact ⟨hl,fun t ht => ih.mpr ⟨hrest t ht,fun u he => hu u t ht he⟩⟩

/-- One more label at the end of an execution that has reached `t`. -/
theorem execOk_snoc {ls : List L} {l : L} {s t : S} (h : exec step ls s = some t) :
    ExecOk step ok (ls ++ [l]) s ↔ ExecOk step ok ls s ∧ ok l t := by
  rw [execOk_append]
  simp [h,ExecOk]

/-- A system over more of the state that takes the same steps has the same executions. -/
theorem exec_map {T : Type*} {step' : L → T → Option T} {view : T → S}
    (h : ∀ l x, (step' l x).map view = step l (view x)) (ls : List L) (x : T) :
    (exec step' ls x).map view = exec step ls (view x) := by
  induction ls generalizing x with
  | nil => rfl
  | cons l ls ih =>
    simp only [exec, ← h l x]
    cases step' l x with
    | none => rfl
    | some y => exact ih y

/-- Induction on an execution, one step after another. -/
theorem exec_induction {P : List L → S → Prop} {s : S} (nil : P [] s)
    (snoc : ∀ ls l t u, exec step ls s = some t → P ls t → step l t = some u → P (ls ++ [l]) u)
    {ls : List L} {t : S} (h : exec step ls s = some t) : P ls t := by
  induction ls using List.reverseRecOn generalizing t with
  | nil => cases h; exact nil
  | append_singleton ls l ih =>
    rw [exec_append] at h
    obtain ⟨u,hu,ht⟩ := Option.bind_eq_some_iff.mp h
    exact snoc ls l u t hu (ih hu) (by simpa [exec] using ht)

/-- The state after an execution that is known to succeed. -/
def after (step : L → S → Option S) (ls : List L) (s : S) (h : (exec step ls s).isSome = true) : S :=
  (exec step ls s).get h

theorem exec_after {ls : List L} {s : S} (h : (exec step ls s).isSome = true) :
    exec step ls s = some (after step ls s h) := (Option.some_get h).symm

theorem step_after {l : L} {s : S} (h : (exec step [l] s).isSome = true) :
    step l s = some (after step [l] s h) := by
  rw [← exec_after h]
  simp [exec]

theorem after_reaches (ok : L → S → Prop) {ls : List L} {s : S} (h : (exec step ls s).isSome = true)
    (hok : ExecOk step ok ls s) : Reaches step ok s (after step ls s h) :=
  exec_reaches hok (exec_after h)

/-- A condition that every label of the list meets in every state. -/
theorem execOk_of_all {ls : List L} (h : ∀ l ∈ ls, ∀ s, ok l s) (s : S) : ExecOk step ok ls s := by
  induction ls generalizing s with
  | nil => trivial
  | cons l ls ih =>
    exact ⟨h l List.mem_cons_self s,fun t _ => ih (fun l' hl => h l' (List.mem_cons_of_mem _ hl)) t⟩

theorem execOk_anyStep (ls : List L) (s : S) : ExecOk step anyStep ls s :=
  execOk_of_all (fun _ _ _ => trivial) s

/-- The property holds in every state that the execution passes through. -/
def ExecAll (step : L → S → Option S) (P : S → Prop) : List L → S → Prop
  | [], s => P s
  | l :: ls, s => P s ∧ ∀ t ∈ step l s, ExecAll step P ls t

theorem ExecAll.head {P : S → Prop} {ls : List L} {s : S} (h : ExecAll step P ls s) : P s := by
  cases ls with
  | nil => exact h
  | cons l ls => exact h.1

theorem ExecAll.last {P : S → Prop} {ls : List L} {s t : S} (h : ExecAll step P ls s)
    (he : exec step ls s = some t) : P t := by
  induction ls generalizing s with
  | nil =>
    obtain rfl : s = t := by simpa [exec] using he
    exact h
  | cons l ls ih =>
    obtain ⟨u,hu,hrest⟩ := Option.bind_eq_some_iff.mp he
    exact ih (h.2 u hu) hrest

/-- What follows from an invariant that permitted steps keep holds all along a permitted execution. -/
theorem ExecOk.all {I P : S → Prop} (hI : ∀ l s t, I s → ok l s → step l s = some t → I t) (hP : ∀ s, I s → P s)
    {ls : List L} {s : S} (hs : I s) (hok : ExecOk step ok ls s) : ExecAll step P ls s := by
  induction ls generalizing s with
  | nil => exact hP s hs
  | cons l ls ih => exact ⟨hP s hs,fun t ht => ih (hI l s t hs hok.1 ht) (hok.2 t ht)⟩

/-- Some label of the execution is taken in a state with which it meets `P`. -/
def ExecAny (step : L → S → Option S) (P : L → S → Prop) : List L → S → Prop
  | [], _ => False
  | l :: ls, s => P l s ∨ ∃ t ∈ step l s, ExecAny step P ls t

theorem execAny_append {P : L → S → Prop} {ls ls' : List L} {s : S} (h : ExecAny step P ls s) : ExecAny step P (ls ++ ls') s := by
  induction ls generalizing s with
  | nil => exact h.elim
  | cons l ls ih =>
    obtain hnow | ⟨t,ht,hrest⟩ := h
    · exact .inl hnow
    · exact .inr ⟨t,ht,ih hrest⟩

theorem execAny_snoc {P : L → S → Prop} {ls : List L} {l : L} {s t : S} (h : exec step ls s = some t) :
    ExecAny step P (ls ++ [l]) s ↔ ExecAny step P ls s ∨ P l t := by
  induction ls generalizing s with
  | nil =>
    obtain rfl : s = t := by simpa [exec] using h
    simp [ExecAny]
  | cons l' ls ih =>
    obtain ⟨u,hu,hrest⟩ := Option.bind_eq_some_iff.mp h
    have hnext : (∃ v ∈ step l' s, ExecAny step P (ls ++ [l]) v) ↔ ExecAny step P (ls ++ [l]) u := by simp [hu]
    have hnext' : (∃ v ∈ step l' s, ExecAny step P ls v) ↔ ExecAny step P ls u := by simp [hu]
    simp only [List.cons_append, ExecAny, hnext, hnext', ih hrest, or_assoc]

/-- A condition on steps is exact for a property when a step from a state with the
property reaches one exactly if it meets the condition. Along an execution the property
then holds throughout if and only if every step meets it. The invariant may rest on
the property. -/
theorem execAll_iff_execOk_of {J P : S → Prop}
    (h : ∀ l s t, J s → P s → step l s = some t → (P t ↔ ok l s) ∧ (P t → J t)) {ls : List L} {s t : S} (hs : J s)
    (hp : P s) (he : exec step ls s = some t) : ExecAll step P ls s ↔ ExecOk step ok ls s := by
  induction ls generalizing s with
  | nil => exact iff_of_true hp trivial
  | cons l ls ih =>
    obtain ⟨u,hu,hrest⟩ := Option.bind_eq_some_iff.mp he
    obtain ⟨hstep,hJ⟩ := h l s u hs hp hu
    constructor
    · rintro ⟨-,hall⟩
      have hu' := hall u hu
      have hpu := hu'.head
      refine ⟨hstep.mp hpu,fun v hv => ?_⟩
      obtain rfl : u = v := Option.some.inj (hu.symm.trans hv)
      exact (ih (hJ hpu) hpu hrest).mp hu'
    · rintro ⟨hok,hall⟩
      have hpu := hstep.mpr hok
      refine ⟨hp,fun v hv => ?_⟩
      obtain rfl : u = v := Option.some.inj (hu.symm.trans hv)
      exact (ih (hJ hpu) hpu hrest).mpr (hall u hu)

theorem execAll_iff_execOk {I P : S → Prop} (hI : ∀ l s t, I s → step l s = some t → I t)
    (h : ∀ l s t, I s → P s → step l s = some t → (P t ↔ ok l s)) {ls : List L} {s t : S} (hs : I s) (hp : P s)
    (he : exec step ls s = some t) : ExecAll step P ls s ↔ ExecOk step ok ls s :=
  execAll_iff_execOk_of (fun l s t hs hp ht => ⟨h l s t hs hp ht,fun _ => hI l s t hs ht⟩) hs hp he

/-- Two conditions on steps that agree wherever an invariant holds, which may itself rest
on them. -/
theorem execOk_iff_execOk {I : S → Prop} {ok' : L → S → Prop}
    (h : ∀ l s t, I s → step l s = some t → (ok l s ↔ ok' l s) ∧ (ok l s → I t)) {ls : List L} {s t : S} (hs : I s)
    (he : exec step ls s = some t) : ExecOk step ok ls s ↔ ExecOk step ok' ls s := by
  induction ls generalizing s with
  | nil => exact Iff.rfl
  | cons l ls ih =>
    obtain ⟨u,hu,hrest⟩ := Option.bind_eq_some_iff.mp he
    obtain ⟨hiff,hI⟩ := h l s u hs hu
    have hnext : ok l s → ((∀ v ∈ step l s, ExecOk step ok ls v) ↔ ∀ v ∈ step l s, ExecOk step ok' ls v) := by
      intro hok
      simp only [hu, Option.mem_some_iff, forall_eq']
      exact ih (hI hok) hrest
    exact ⟨fun ⟨hok,hall⟩ => ⟨hiff.mp hok,(hnext hok).mp hall⟩,fun ⟨hok,hall⟩ => ⟨hiff.mpr hok,(hnext (hiff.mpr hok)).mpr hall⟩⟩

/-- A condition that follows from another one wherever an invariant holds. -/
theorem ExecOk.imp_of {I : S → Prop} {ok' : L → S → Prop} (hI : ∀ l s t, I s → ok l s → step l s = some t → I t)
    (h : ∀ l s, I s → ok l s → ok' l s) {ls : List L} {s : S} (hs : I s) (hok : ExecOk step ok ls s) :
    ExecOk step ok' ls s := by
  induction ls generalizing s with
  | nil => trivial
  | cons l ls ih => exact ⟨h l s hs hok.1,fun t ht => ih (hI l s t hs hok.1 ht) (hok.2 t ht)⟩

theorem ExecOk.imp {I : S → Prop} {ok' : L → S → Prop} (hI : ∀ l s t, I s → step l s = some t → I t)
    (h : ∀ l s, I s → ok l s → ok' l s) {ls : List L} {s : S} (hs : I s) (hok : ExecOk step ok ls s) :
    ExecOk step ok' ls s := hok.imp_of (fun l s t hs _ => hI l s t hs) h hs

/-- A measure that every step lowers bounds the length of every execution. -/
theorem exec_length_le {I : S → Prop} (m : S → ℕ)
    (hI : ∀ l s t, I s → step l s = some t → I t)
    (h : ∀ l s t, I s → step l s = some t → m t < m s)
    {ls : List L} {s t : S} (hs : I s) (he : exec step ls s = some t) :
    ls.length + m t ≤ m s := by
  induction ls generalizing s with
  | nil =>
    obtain rfl : s = t := by simpa [exec] using he
    simp
  | cons l ls ih =>
    obtain ⟨u,hu,hrest⟩ := Option.bind_eq_some_iff.mp he
    have hlt := h l s u hs hu
    have hle := ih (hI l s u hs hu) hrest
    simp only [List.length_cons]
    omega

end AgentGraph.Transition
