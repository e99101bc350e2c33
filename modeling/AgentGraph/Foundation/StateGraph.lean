import Mathlib.Data.Nat.Notation

/-! # State graphs under a recursion limit

A node updates the state or raises, and the edge behind it is chosen in the updated
state. The engine runs one node per superstep and gives up at its limit.
-/
set_option autoImplicit false
namespace AgentGraph.StateGraph

structure Graph (N S E : Type*) where
  entry : N
  body : N → S → Except E S
  -- no next node is the end
  edge : N → S → Option N

inductive Outcome (S E : Type*)
  | ended (s : S)
  | raised (e : E)
  | recursionLimit

variable {N S E : Type*}

/-- The run from a node that is due, with the supersteps that are left. -/
def Graph.runFrom (g : Graph N S E) : ℕ → N → S → Outcome S E
  | 0, _, _ => .recursionLimit
  | limit + 1, n, s =>
    match g.body n s with
    | .error e => .raised e
    | .ok s =>
      match g.edge n s with
      | none => .ended s
      | some n => g.runFrom limit n s

def Graph.invoke (g : Graph N S E) (limit : ℕ) (s : S) : Outcome S E := g.runFrom limit g.entry s

/-- From a node that is due the run ends as it should, or goes on with a lower rank. -/
def Graph.Advances (g : Graph N S E) (I : N → S → Prop) (P : S → Prop) (rank : N → S → ℕ) (n : N) (s : S) : Prop :=
  ∃ t, g.body n s = .ok t ∧ (g.edge n t = none ∧ P t ∨ ∃ m, g.edge n t = some m ∧ I m t ∧ rank m t < rank n s)

/-- A run whose rank is below the limit ends. -/
theorem Graph.runFrom_ends {g : Graph N S E} {I : N → S → Prop} {P : S → Prop} {rank : N → S → ℕ}
    (h : ∀ n s, I n s → g.Advances I P rank n s) {limit : ℕ} {n : N} {s : S} (hs : I n s) (hrank : rank n s < limit) :
    ∃ t, g.runFrom limit n s = .ended t ∧ P t := by
  induction limit generalizing n s with
  | zero => exact absurd hrank (Nat.not_lt_zero _)
  | succ limit ih =>
    obtain ⟨t,hbody,⟨hedge,hp⟩ | ⟨m,hedge,hm,hlt⟩⟩ := h n s hs
    · exact ⟨t,by simp [runFrom,hbody,hedge],hp⟩
    · obtain ⟨u,hrun,hp⟩ := ih hm (by omega)
      exact ⟨u,by simp [runFrom,hbody,hedge,hrun],hp⟩

end AgentGraph.StateGraph
