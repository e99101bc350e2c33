import Mathlib.Data.List.DropRight

/-! # A log whose last entries are remembered

A log rejects what is among its last `c` entries. Only these are kept, and two equal
entries of the log are then at least `c` others apart.
-/
set_option autoImplicit false
namespace AgentGraph.Window

variable {α : Type*} {c : ℕ} {log : List α} {x : α}

/-- The last entries are found from the ones kept so far. -/
theorem rtake_push (c : ℕ) (log : List α) (x : α) : (log.rtake c ++ [x]).rtake c = (log ++ [x]).rtake c := by
  cases c with
  | zero => simp
  | succ c => simp [List.rtake_eq_reverse_take_reverse,List.take_take]

theorem mem_rtake {before later : List α} (h : later.length < c) : x ∈ (before ++ x :: later).rtake c := by
  have hle : (before ++ x :: later).length - c ≤ before.length := by simp; omega
  rw [List.rtake,List.drop_append_of_le_length hle]
  simp

variable [DecidableEq α]

/-- Between two equal entries there are at least `c` others. -/
def Spaced (c : ℕ) (log : List α) : Prop :=
  ∀ before x between later, log = before ++ x :: (between ++ x :: later) → c ≤ (between.filter (· ≠ x)).length

/-- What is not among the last `c` entries has at least `c` others after it. -/
theorem le_of_not_mem_rtake {before later : List α} (h : x ∉ (before ++ x :: later).rtake c) :
    c ≤ (later.filter (· ≠ x)).length := by
  induction hn : later.length using Nat.strong_induction_on generalizing before later with
  | h n ih =>
    by_cases hmem : x ∈ later
    · -- a later occurrence leaves less to count
      obtain ⟨first,rest,rfl⟩ := List.append_of_mem hmem
      have hsplit : before ++ x :: (first ++ x :: rest) = (before ++ x :: first) ++ x :: rest := by simp
      rw [hsplit] at h
      have hrest := ih rest.length (by simp at hn; omega) h rfl
      simp only [List.filter_append, List.length_append]
      refine hrest.trans (le_trans ?_ (Nat.le_add_left _ _))
      exact ((List.sublist_cons_self x rest).filter _).length_le
    · have hall : later.filter (· ≠ x) = later :=
        List.filter_eq_self.mpr fun y hy => decide_eq_true fun heq => hmem (heq ▸ hy)
      rw [hall]
      exact Nat.le_of_not_lt fun hlt => h (mem_rtake hlt)

theorem Spaced.push (h : Spaced c log) (hx : x ∉ log.rtake c) : Spaced c (log ++ [x]) := by
  intro before y between later hsplit
  obtain rfl | ⟨later,last,rfl⟩ := List.eq_nil_or_concat later
  · -- the second of the two is the new entry
    have hsplit' : log ++ [x] = (before ++ y :: between) ++ [y] := by simpa using hsplit
    obtain ⟨rfl,hlast⟩ := List.append_inj' hsplit' rfl
    cases hlast
    exact le_of_not_mem_rtake hx
  · have hsplit' : log ++ [x] = (before ++ y :: (between ++ y :: later)) ++ [last] := by simpa using hsplit
    obtain ⟨rfl,-⟩ := List.append_inj' hsplit' rfl
    exact h before y between later rfl

theorem spaced_nil (c : ℕ) : Spaced c ([] : List α) := by
  intro before x between later h
  simp at h

end AgentGraph.Window
