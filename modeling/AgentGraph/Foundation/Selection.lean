import Mathlib.Algebra.BigOperators.Group.List.Basic
import Mathlib.Algebra.GroupWithZero.Nat
import Mathlib.Data.List.Nodup
import Mathlib.Data.List.Sort

/-! # Greedy selection under a count and a capacity

Ranked items are taken in order. An item that does not fit into the room that is
left is skipped, and the selection ends when the count or the room is used up.
-/
set_option autoImplicit false
namespace AgentGraph.Selection

variable {α : Type*} (size : α → ℕ)

/-- The sum of the sizes. -/
def load (items : List α) : ℕ := (items.map size).sum

@[simp] theorem load_nil : load size [] = 0 := rfl

@[simp] theorem load_cons (a : α) (items : List α) : load size (a :: items) = size a + load size items := by
  simp [load]

@[simp] theorem load_append (items items' : List α) :
    load size (items ++ items') = load size items + load size items' := by simp [load]

def pick : ℕ → ℕ → List α → List α
  | _, _, [] => []
  | count, room, a :: items =>
    if count = 0 ∨ room = 0 then []
    else if room < size a then pick count room items
    else a :: pick (count - 1) (room - size a) items

variable {size} {count room : ℕ} {items : List α}

theorem pick_sublist : (pick size count room items).Sublist items := by
  induction items generalizing count room with
  | nil => exact List.Sublist.refl _
  | cons a items ih =>
    rw [pick]
    split
    · exact List.nil_sublist _
    · split
      · exact ih.cons a
      · exact ih.cons_cons a

theorem pick_length_le : (pick size count room items).length ≤ count := by
  induction items generalizing count room with
  | nil => exact Nat.zero_le _
  | cons a items ih =>
    rw [pick]
    split
    · exact Nat.zero_le _
    next hopen =>
      split
      · exact ih
      · have hle : (pick size (count - 1) (room - size a) items).length ≤ count - 1 := ih
        simp only [List.length_cons]
        omega

theorem pick_load_le : load size (pick size count room items) ≤ room := by
  induction items generalizing count room with
  | nil => exact Nat.zero_le _
  | cons a items ih =>
    rw [pick]
    split
    · exact Nat.zero_le _
    · split
      · exact ih
      next hfit =>
        have hle : load size (pick size (count - 1) (room - size a) items) ≤ room - size a := ih
        rw [load_cons]
        omega

/-- What is left out of a ranked list did not fit behind the picked items that rank before it, or
ranks after them all when the count is used up. -/
theorem pick_greedy {before : α → α → Prop} [DecidableRel before] (hsize : ∀ a ∈ items, 0 < size a)
    (hranked : items.Pairwise before) {a : α} (ha : a ∈ items) (hout : a ∉ pick size count room items) :
    room < load size ((pick size count room items).filter fun b => before b a) + size a ∨
      (pick size count room items).length = count ∧ ∀ b ∈ pick size count room items, before b a := by
  induction items generalizing count room with
  | nil => cases ha
  | cons c items ih =>
    have hc := hsize c List.mem_cons_self
    have hrest := fun b hb => hsize b (List.mem_cons_of_mem c hb)
    obtain ⟨hfirst,hranked⟩ := List.pairwise_cons.mp hranked
    rw [pick] at hout ⊢
    split at hout
    next hclosed =>
      rw [if_pos hclosed]
      rcases hclosed with rfl | rfl
      · exact .inr ⟨rfl,fun b hb => by cases hb⟩
      · exact .inl (by simpa using hsize a ha)
    next hopen =>
      rw [if_neg hopen]
      split at hout
      next hlong =>
        rw [if_pos hlong]
        rcases List.mem_cons.mp ha with rfl | ha
        · exact .inl (by omega)
        · exact ih hrest hranked ha hout
      next hfit =>
        rw [if_neg hfit]
        simp only [List.mem_cons, not_or] at hout
        rcases List.mem_cons.mp ha with rfl | ha
        · exact absurd rfl hout.1
        have hca := hfirst a ha
        rcases ih hrest hranked ha hout.2 with hlong | ⟨hfull,hall⟩
        · left
          simp only [List.filter_cons, hca, decide_true, if_true, load_cons]
          omega
        · right
          refine ⟨by simp only [List.length_cons]; omega,fun b hb => ?_⟩
          rcases List.mem_cons.mp hb with rfl | hb
          · exact hca
          · exact hall b hb

/-! ## The first items under a key -/

section Keys
variable {κ : Type*} [LinearOrder κ] {key : α → κ}

theorem lt_of_sorted {l : List α} (hkeys : (l.map key).Nodup) (hsorted : l.Pairwise fun a b => key a ≤ key b) :
    l.Pairwise fun a b => key a < key b := by
  have hne : l.Pairwise fun a b => key a ≠ key b := List.pairwise_map.mp hkeys
  exact (hsorted.and hne).imp fun h => lt_of_le_of_ne h.1 h.2

theorem sort_strict {l : List α} (hkeys : (l.map key).Nodup) :
    (l.insertionSort fun a b => key a ≤ key b).Pairwise fun a b => key a < key b :=
  lt_of_sorted (((List.perm_insertionSort _ l).map key).nodup_iff.mpr hkeys)
    (List.pairwise_insertionSort _ l)

/-- Sorting forgets the order of the list when no two items share their key. -/
theorem sort_congr {l l' : List α} (hkeys : (l.map key).Nodup) (h : l.Perm l') :
    l.insertionSort (fun a b => key a ≤ key b) = l'.insertionSort fun a b => key a ≤ key b := by
  have hkeys' : (l'.map key).Nodup := (h.map key).nodup_iff.mp hkeys
  have hperm : (l.insertionSort fun a b => key a ≤ key b).Perm (l'.insertionSort fun a b => key a ≤ key b) :=
    ((List.perm_insertionSort _ l).trans h).trans (List.perm_insertionSort _ l').symm
  exact hperm.eq_of_pairwise (fun a b _ _ hab hba => absurd hba (lt_asymm hab)) (sort_strict hkeys) (sort_strict hkeys')

theorem mem_take_strict {l : List α} (hstrict : l.Pairwise fun a b => key a < key b) {n : ℕ} {a : α} :
    a ∈ l.take n ↔ a ∈ l ∧ (l.countP fun b => key b < key a) < n := by
  induction l generalizing n with
  | nil => simp
  | cons c l ih =>
    obtain ⟨hfirst,hstrict⟩ := List.pairwise_cons.mp hstrict
    cases n with
    | zero => simp
    | succ n =>
      rw [List.take_succ_cons,List.mem_cons,List.mem_cons,ih hstrict,List.countP_cons]
      constructor
      · rintro (rfl | ⟨ha,hcount⟩)
        · have hnone : l.countP (fun b => key b < key a) = 0 :=
            List.countP_eq_zero.mpr fun b hb => by simpa using (hfirst b hb).le
          exact ⟨.inl rfl,by rw [hnone]; simp⟩
        · exact ⟨.inr ha,by split <;> omega⟩
      · rintro ⟨rfl | ha,hcount⟩
        · exact .inl rfl
        · have hc : (decide (key c < key a)) = true := decide_eq_true (hfirst a ha)
          rw [if_pos hc] at hcount
          exact .inr ⟨ha,by omega⟩

/-- The first `n` items are those with fewer than `n` items before them. -/
theorem mem_take_sort {l : List α} (hkeys : (l.map key).Nodup) {n : ℕ} {a : α} :
    a ∈ (l.insertionSort fun a b => key a ≤ key b).take n ↔ a ∈ l ∧ (l.countP fun b => key b < key a) < n := by
  rw [mem_take_strict (sort_strict hkeys),(List.perm_insertionSort _ l).mem_iff,(List.perm_insertionSort _ l).countP_eq]

end Keys

end AgentGraph.Selection
