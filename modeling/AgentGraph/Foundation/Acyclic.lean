import Mathlib.Order.WellFounded
import Mathlib.Order.RelClasses
import Mathlib.Data.Fintype.EquivFin
import Mathlib.Data.Set.Finite.List

/-! # Acyclic finite relations

An edge relation given by successor lists is acyclic when every vertex is
accessible. On a finite set of vertices this gives a source inside every
nonempty subset, which is what a topological scheduler relies on.
-/
set_option autoImplicit false
namespace AgentGraph.Acyclic

variable {V : Type*}

/-- `edge a b` reads "there is an edge from `a` to `b`". -/
def Reachable (edge : V → V → Prop) : V → V → Prop := Relation.TransGen edge

/-- Every walk along the edges from `a` is finite. -/
abbrev Terminates (edge : V → V → Prop) (a : V) : Prop := Acc (fun b c => edge c b) a

theorem Terminates.irrefl {edge : V → V → Prop} {a : V} (h : Terminates edge a) :
    ¬ Reachable edge a a := by
  intro hc
  have ht : Acc (Relation.TransGen fun b c => edge c b) a := h.transGen
  have hs : Relation.TransGen (fun b c => edge c b) a a :=
    Relation.transGen_swap.mp hc
  exact ht.recOn (motive := fun x _ => ¬ Relation.TransGen (fun b c => edge c b) x x)
    (fun x _ ih hx => ih x hx hx) hs

/-- A list is in reverse topological order when the successors of each entry
occur strictly later in it. -/
def SinkOrder (succ : V → List V) : List V → Prop
  | [] => True
  | v :: rest => (∀ w ∈ succ v, w ∈ rest) ∧ SinkOrder succ rest

theorem SinkOrder.terminates {succ : V → List V} {xs : List V} (h : SinkOrder succ xs) :
    ∀ v ∈ xs, Terminates (fun a b => b ∈ succ a) v := by
  induction xs with
  | nil => simp
  | cons v rest ih =>
    obtain ⟨hv,hr⟩ := h
    have hrest := ih hr
    intro w hw
    rcases List.mem_cons.mp hw with rfl | hw
    · exact ⟨_,fun u hu => hrest u (hv u hu)⟩
    · exact hrest w hw

/-- In a finite acyclic relation every nonempty list of vertices has a member none
of whose predecessors is in the list. -/
theorem exists_source {edge : V → V → Prop} {xs : List V}
    (hacc : ∀ v ∈ xs, Terminates edge v) (hne : xs ≠ []) :
    ∃ v ∈ xs, ∀ u ∈ xs, ¬ edge u v := by
  let R : {v // v ∈ xs} → {v // v ∈ xs} → Prop := Relation.TransGen (fun a b => edge a.1 b.1)
  have hirr : ∀ a, ¬ R a a := by
    intro a ha
    exact (hacc a.1 a.2).irrefl (Relation.TransGen.lift Subtype.val (fun _ _ h => h) _ _ ha)
  have htr : IsTrans _ R := ⟨fun _ _ _ => Relation.TransGen.trans⟩
  have hir : Std.Irrefl R := ⟨hirr⟩
  have hfin : Finite {v // v ∈ xs} := xs.finite_toSet.to_subtype
  have hwf : WellFounded R := Finite.wellFounded_of_trans_of_irrefl R
  obtain ⟨a,ha⟩ := List.exists_mem_of_ne_nil xs hne
  let m := hwf.min Set.univ ⟨⟨a,ha⟩,trivial⟩
  refine ⟨m.1,m.2,fun u hu hedge => ?_⟩
  exact hwf.not_lt_min Set.univ (x := ⟨u,hu⟩) trivial (.single hedge)

end AgentGraph.Acyclic
