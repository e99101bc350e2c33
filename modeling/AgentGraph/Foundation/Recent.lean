import Mathlib.Data.List.Nodup

/-! # The most recent entries

A bounded list, the newest first, in which an entry replaces the one that has its key.
-/
set_option autoImplicit false
namespace AgentGraph.Recent

variable {α κ : Type*} [DecidableEq κ] (key : α → κ)

/-- The entries of other keys. -/
def others (k : κ) (entries : List α) : List α := entries.filter fun b => key b ≠ k

def push (limit : Nat) (a : α) (entries : List α) : List α := (a :: others key (key a) entries).take limit

/-- The first entry of each key. -/
def firsts : List α → List α
  | [] => []
  | a :: rest => a :: others key (key a) (firsts rest)

variable {key} {limit : Nat} {a : α} {k : κ} {entries : List α}

theorem mem_others : a ∈ others key k entries ↔ a ∈ entries ∧ key a ≠ k := by
  simp [others]

theorem others_cons_self (a : α) (entries : List α) : others key (key a) (a :: entries) = others key (key a) entries := by
  simp [others]

theorem others_cons_ne (h : key a ≠ k) (entries : List α) : others key k (a :: entries) = a :: others key k entries := by
  simp [others, h]

theorem others_eq_self (h : k ∉ entries.map key) : others key k entries = entries := by
  apply List.filter_eq_self.mpr
  intro b hb
  have hne : key b ≠ k := fun heq => h (heq ▸ List.mem_map_of_mem hb)
  simpa using hne

theorem others_nodup (k : κ) (h : (entries.map key).Nodup) : ((others key k entries).map key).Nodup :=
  h.sublist (List.filter_sublist.map key)

theorem mem_firsts (h : a ∈ firsts key entries) : a ∈ entries := by
  induction entries with
  | nil => cases h
  | cons b rest ih =>
    obtain rfl | hmem := List.mem_cons.mp h
    · exact List.mem_cons_self
    · exact List.mem_cons_of_mem _ (ih (mem_others.mp hmem).1)

theorem firsts_nodup (entries : List α) : ((firsts key entries).map key).Nodup := by
  induction entries with
  | nil => exact List.nodup_nil
  | cons b rest ih =>
    refine List.nodup_cons.mpr ⟨fun hmem => ?_,others_nodup (key b) ih⟩
    obtain ⟨c,hc,hkey⟩ := List.mem_map.mp hmem
    exact (mem_others.mp hc).2 hkey

theorem firsts_eq_self (h : (entries.map key).Nodup) : firsts key entries = entries := by
  induction entries with
  | nil => rfl
  | cons b rest ih =>
    obtain ⟨hb,hrest⟩ := List.nodup_cons.mp h
    rw [firsts, ih hrest, others_eq_self hb]

/-- At most one entry is taken out of the first `n + 1`, so the first `n` of the others are there. -/
theorem take_others_take (n : Nat) (h : (entries.map key).Nodup) :
    (others key k (entries.take (n + 1))).take n = (others key k entries).take n := by
  induction entries generalizing n with
  | nil => rfl
  | cons b rest ih =>
    obtain ⟨hb,hrest⟩ := List.nodup_cons.mp h
    rw [List.take_succ_cons]
    by_cases hk : key b = k
    · -- the entry is the head, and no other has its key
      subst hk
      have hnone : key b ∉ (rest.take n).map key := fun hmem => by
        obtain ⟨c,hc,hkey⟩ := List.mem_map.mp hmem
        exact hb (List.mem_map.mpr ⟨c,List.mem_of_mem_take hc,hkey⟩)
      rw [others_cons_self, others_cons_self, others_eq_self hb, others_eq_self hnone, List.take_take, Nat.min_self]
    · rw [others_cons_ne hk, others_cons_ne hk]
      cases n with
      | zero => rfl
      | succ n => rw [List.take_succ_cons, List.take_succ_cons, ih n hrest]

/-- The bound may be applied once, at the end. -/
theorem push_take (limit : Nat) (a : α) (h : (entries.map key).Nodup) :
    push key limit a (entries.take limit) = push key limit a entries := by
  cases limit with
  | zero => rfl
  | succ n => rw [push, push, List.take_succ_cons, List.take_succ_cons, take_others_take n h]

theorem push_firsts (limit : Nat) (a : α) (entries : List α) :
    push key limit a ((firsts key entries).take limit) = (firsts key (a :: entries)).take limit := by
  rw [push_take limit a (firsts_nodup entries)]
  rfl

end AgentGraph.Recent
