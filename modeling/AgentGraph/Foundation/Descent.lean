import Mathlib.Algebra.Group.Action.Defs
import Mathlib.Algebra.BigOperators.Intervals
import Mathlib.Algebra.Order.BigOperators.Group.List
import Mathlib.Logic.Relation

/-! # Descendants in a forest

Every element has finitely many children and at most one parent. The list of the
elements above one determines its level, and every chain of children that ends at
the element is a part of it.
-/
set_option autoImplicit false
namespace AgentGraph.Descent

variable {α : Type*} {children children' : α → List α} {a c r : α} {above above' chain : List α} {k n b : ℕ}

/-- No element has two parents. -/
def SingleParent (children : α → List α) : Prop := ∀ p q c, c ∈ children p → c ∈ children q → p = q

def IsRoot (children : α → List α) (a : α) : Prop := ∀ p, a ∉ children p

/-- The elements above `a`, from the root down. -/
inductive Above (children : α → List α) : α → List α → Prop
  | root (a : α) (h : IsRoot children a) : Above children a []
  | child (p a : α) (above : List α) (h : Above children p above) (ha : a ∈ children p) :
      Above children a (above ++ [p])

/-- `c` is `k` levels below `r`. -/
inductive Below (children : α → List α) (r : α) : ℕ → α → Prop
  | self : Below children r 0 r
  | child (k : ℕ) (p c : α) (h : Below children r k p) (hc : c ∈ children p) : Below children r (k + 1) c

/-! ## The elements above -/

/-- New children leave what is above an old element alone. -/
theorem Above.extend (h : Above children a above) (hsub : ∀ p c, c ∈ children p → c ∈ children' p)
    (hnew : ∀ p c, c ∈ children' p → c ∈ children p ∨ (c ≠ a ∧ c ∉ above)) : Above children' a above := by
  induction h with
  | root a h =>
    refine .root a fun p hp => ?_
    rcases hnew p a hp with hold | ⟨hne,-⟩
    · exact h p hold
    · exact hne rfl
  | child p a above h ha ih =>
    refine .child p a above (ih fun q c hc => ?_) (hsub p a ha)
    rcases hnew q c hc with hold | ⟨-,hfresh⟩
    · exact .inl hold
    · have hfresh : c ∉ above ∧ c ≠ p := by simpa using hfresh
      exact .inr hfresh.symm

theorem Above.unique (hs : SingleParent children) (h : Above children a above) (h' : Above children a above') :
    above = above' := by
  induction h generalizing above' with
  | root a h =>
    cases h' with
    | root _ _ => rfl
    | child p _ _ _ ha => exact absurd ha (h p)
  | child p a above h ha ih =>
    cases h' with
    | root _ hroot => exact absurd ha (hroot p)
    | child q _ above' h' ha' =>
      obtain rfl := hs p q a ha ha'
      rw [ih h']

/-- A chain of children that ends at `c` runs through the elements above `c`. -/
theorem Above.suffix (hs : SingleParent children) (h : Above children c above)
    (hc : (chain ++ [c]).IsChain fun p c => c ∈ children p) : chain <:+ above := by
  induction h generalizing chain with
  | root a h =>
    rcases List.eq_nil_or_concat' chain with rfl | ⟨init,p,rfl⟩
    · exact List.nil_suffix
    · have hlast := (List.isChain_append.mp hc).2.2 p (by simp) a (by simp)
      exact absurd hlast (h p)
  | child p a above h ha ih =>
    rcases List.eq_nil_or_concat' chain with rfl | ⟨init,q,rfl⟩
    · exact List.nil_suffix
    · obtain ⟨hinit,-,hlast⟩ := List.isChain_append.mp hc
      obtain rfl := hs p q a ha (hlast q (by simp) a (by simp))
      obtain ⟨pre,rfl⟩ := ih (by simpa using hinit)
      exact ⟨pre,by simp⟩

theorem Above.exists_root (h : Above children a above) : ∃ r, IsRoot children r ∧ Below children r above.length a := by
  induction h with
  | root a h => exact ⟨a,h,.self⟩
  | child p a above h ha ih =>
    obtain ⟨r,hr,hb⟩ := ih
    refine ⟨r,hr,?_⟩
    have hlen : (above ++ [p]).length = above.length + 1 := by simp
    rw [hlen]
    exact .child _ p a hb ha

/-! ## The elements below -/

theorem Below.le_above (hs : SingleParent children) (h : Below children r k c) (hc : Above children c above) :
    k ≤ above.length := by
  induction h generalizing above with
  | self => exact Nat.zero_le _
  | child k p c h hmem ih =>
    cases hc with
    | root _ hroot => exact absurd hmem (hroot p)
    | child q _ above hq hc =>
      obtain rfl := hs p q c hmem hc
      have hle := ih hq
      simp only [List.length_append, List.length_singleton]
      omega

theorem Below.eq_above (hs : SingleParent children) (hr : IsRoot children r) (h : Below children r k c)
    (hc : Above children c above) : k = above.length := by
  induction h generalizing above with
  | self =>
    cases hc with
    | root _ _ => rfl
    | child p _ _ _ hmem => exact absurd hmem (hr p)
  | child k p c h hmem ih =>
    cases hc with
    | root _ hroot => exact absurd hmem (hroot p)
    | child q _ above hq hc =>
      obtain rfl := hs p q c hmem hc
      have heq := ih hq
      simp only [List.length_append, List.length_singleton]
      omega

/-- The elements `k` levels below `r`. -/
def generation (children : α → List α) (r : α) : ℕ → List α
  | 0 => [r]
  | k + 1 => (generation children r k).flatMap children

theorem Below.mem_generation (h : Below children r k c) : c ∈ generation children r k := by
  induction h with
  | self => simp [generation]
  | child k p c h hmem ih => exact List.mem_flatMap.mpr ⟨p,ih,hmem⟩

theorem length_generation_le (h : ∀ a, (children a).length ≤ b) (r : α) (k : ℕ) :
    (generation children r k).length ≤ b ^ k := by
  induction k with
  | zero => simp [generation]
  | succ k ih =>
    have hlen : (generation children r (k + 1)).length ≤ (generation children r k).length * b := by
      have hsum := List.sum_le_card_nsmul ((generation children r k).map fun a => (children a).length) b
        (by simpa using fun a _ => h a)
      simpa only [generation, List.length_flatMap, List.length_map, smul_eq_mul] using hsum
    calc (generation children r (k + 1)).length
        ≤ (generation children r k).length * b := hlen
      _ ≤ b ^ k * b := Nat.mul_le_mul_right b ih
      _ = b ^ (k + 1) := (pow_succ b k).symm

/-- The elements below `r` down to `n` levels. -/
def descendants (children : α → List α) (r : α) : ℕ → List α
  | 0 => []
  | n + 1 => descendants children r n ++ generation children r (n + 1)

theorem Below.mem_descendants (h : Below children r (k + 1) c) (hk : k < n) : c ∈ descendants children r n := by
  induction n with
  | zero => omega
  | succ n ih =>
    by_cases hn : k = n
    · exact List.mem_append_right _ (hn ▸ h.mem_generation)
    · exact List.mem_append_left _ (ih (by omega))

theorem length_descendants_le (h : ∀ a, (children a).length ≤ b) (r : α) (n : ℕ) :
    (descendants children r n).length ≤ ∑ k ∈ Finset.range n, b ^ (k + 1) := by
  induction n with
  | zero => simp [descendants]
  | succ n ih =>
    have hlast := length_generation_le h r (n + 1)
    rw [Finset.sum_range_succ]
    simp only [descendants, List.length_append]
    omega

/-! ## A rank that children exceed -/

/-- Children have a greater rank than their parent. -/
def Ranked (rank : α → ℕ) (children : α → List α) : Prop := ∀ p c, c ∈ children p → rank p < rank c

section Ranks
variable {rank : α → ℕ}

/-- Every element has a finite line of elements above it. -/
theorem Ranked.exists_above (hr : Ranked rank children) (a : α) : ∃ above, Above children a above ∧ above.length ≤ rank a := by
  induction h : rank a using Nat.strong_induction_on generalizing a with
  | _ n ih =>
    by_cases hroot : IsRoot children a
    · exact ⟨[],.root a hroot,Nat.zero_le _⟩
    · obtain ⟨p,hp⟩ : ∃ p, a ∈ children p := by simpa [IsRoot] using hroot
      have hlt := hr p a hp
      obtain ⟨above,habove,hlen⟩ := ih (rank p) (h ▸ hlt) p rfl
      refine ⟨above ++ [p],.child p a above habove hp,?_⟩
      simp only [List.length_append, List.length_singleton]
      omega

theorem Below.rank_le (hr : Ranked rank children) (h : Below children r k c) : rank r + k ≤ rank c := by
  induction h with
  | self => exact le_rfl
  | child k p c h hc ih =>
    have hlt := hr p c hc
    omega

theorem Below.head (hc : c ∈ children r) (h : Below children c k a) : Below children r (k + 1) a := by
  induction h with
  | self => exact .child 0 r c .self hc
  | child k p b h hb ih => exact .child (k + 1) p b ih hb

theorem Below.exists_head (h : Below children r (k + 1) a) : ∃ c ∈ children r, Below children c k a := by
  induction k generalizing a with
  | zero =>
    cases h with
    | child _ p _ h hc =>
      cases h
      exact ⟨a,hc,.self⟩
  | succ k ih =>
    cases h with
    | child _ p _ h hc =>
      obtain ⟨c,hmem,hb⟩ := ih h
      exact ⟨c,hmem,.child k p a hb hc⟩

/-- The level of an element counts from any element above it. -/
theorem Below.level (hs : SingleParent children) (h : Below children r k c) (hr : Above children r above)
    (hc : Above children c above') : above'.length = above.length + k := by
  induction h generalizing above' with
  | self => rw [hr.unique hs hc,Nat.add_zero]
  | child k p c h hmem ih =>
    cases hc with
    | root _ hroot => exact absurd hmem (hroot p)
    | child q _ above'' hq hc =>
      obtain rfl := hs p q c hmem hc
      have heq := ih hq
      simp only [List.length_append, List.length_singleton]
      omega

theorem Below.inj (hs : SingleParent children) {r' : α} (h : Below children r k c) (h' : Below children r' k c) :
    r = r' := by
  induction h with
  | self =>
    cases h'
    rfl
  | child k p c h hmem ih =>
    cases h' with
    | child _ q _ h' hmem' =>
      obtain rfl := hs p q c hmem hmem'
      exact ih h'

/-- An element is below only one of two children of the same element. -/
theorem Below.child_unique (hs : SingleParent children) (hr : Ranked rank children) {p c c' : α} {k' : ℕ}
    (hc : c ∈ children p) (hc' : c' ∈ children p) (h : Below children c k a) (h' : Below children c' k' a) :
    c = c' := by
  obtain ⟨above,hp,-⟩ := hr.exists_above p
  obtain ⟨above',ha,-⟩ := hr.exists_above a
  have hlevel := h.level hs (.child p c above hp hc) ha
  have hlevel' := h'.level hs (.child p c' above hp hc') ha
  obtain rfl : k = k' := by
    simp only [List.length_append, List.length_singleton] at hlevel hlevel'
    omega
  exact h.inj hs h'

theorem Below.level_unique (hs : SingleParent children) (hr : Ranked rank children) {k' : ℕ}
    (h : Below children r k c) (h' : Below children r k' c) : k = k' := by
  obtain ⟨above,habove,-⟩ := hr.exists_above r
  obtain ⟨above',habove',-⟩ := hr.exists_above c
  have hlevel := h.level hs habove habove'
  have hlevel' := h'.level hs habove habove'
  omega

theorem Below.root_unique (hs : SingleParent children) (hr : Ranked rank children) {r' : α} {k' : ℕ}
    (hroot : IsRoot children r) (hroot' : IsRoot children r') (h : Below children r k c)
    (h' : Below children r' k' c) : r = r' := by
  obtain ⟨above,habove,-⟩ := hr.exists_above c
  have hk := h.eq_above hs hroot habove
  have hk' := h'.eq_above hs hroot' habove
  obtain rfl := hk.trans hk'.symm
  exact h.inj hs h'

/-! ## Preorder -/

/-- An element before what is below it, down to `n` levels. -/
def preorder (children : α → List α) : ℕ → α → List α
  | 0, _ => []
  | n + 1, a => a :: (children a).flatMap (preorder children n)

theorem mem_preorder : c ∈ preorder children n a ↔ ∃ k < n, Below children a k c := by
  induction n generalizing a with
  | zero => simp [preorder]
  | succ n ih =>
    simp only [preorder, List.mem_cons, List.mem_flatMap, ih]
    constructor
    · rintro (rfl | ⟨b,hb,k,hk,hbelow⟩)
      · exact ⟨0,Nat.succ_pos n,.self⟩
      · exact ⟨k + 1,Nat.succ_lt_succ hk,hbelow.head hb⟩
    · rintro ⟨k,hk,hbelow⟩
      cases k with
      | zero =>
        cases hbelow
        exact .inl rfl
      | succ k =>
        obtain ⟨b,hb,hbelow⟩ := hbelow.exists_head
        exact .inr ⟨b,hb,k,by omega,hbelow⟩

theorem nodup_preorder (hs : SingleParent children) (hr : Ranked rank children) (hn : ∀ a, (children a).Nodup)
    (n : ℕ) (a : α) : (preorder children n a).Nodup := by
  induction n generalizing a with
  | zero => exact List.nodup_nil
  | succ n ih =>
    refine List.nodup_cons.mpr ⟨fun hmem => ?_,List.nodup_flatMap.mpr ⟨fun c _ => ih c,?_⟩⟩
    · obtain ⟨c,hc,hbelow⟩ := List.mem_flatMap.mp hmem
      obtain ⟨k,-,hbelow⟩ := mem_preorder.mp hbelow
      have hle := hbelow.rank_le hr
      have hlt := hr a c hc
      omega
    · refine (hn a).pairwise_of_forall_ne fun c hc c' hc' hne => ?_
      intro x hx hx'
      obtain ⟨k,-,hbelow⟩ := mem_preorder.mp hx
      obtain ⟨k',-,hbelow'⟩ := mem_preorder.mp hx'
      exact hne (hbelow.child_unique hs hr hc hc' hbelow')

/-! ## Components -/

/-- Two elements of one tree. -/
def Connected (children : α → List α) : α → α → Prop := Relation.EqvGen fun p c => c ∈ children p

theorem Below.connected (h : Below children r k c) : Connected children r c := by
  induction h with
  | self => exact .refl r
  | child k p c _ hc ih => exact .trans _ _ _ ih (.rel p c hc)

/-- A root has the same elements below it as seen from any element it is connected to. -/
theorem Connected.below_iff (hs : SingleParent children) (hr : IsRoot children r) (h : Connected children a c) :
    (∃ k, Below children r k a) ↔ ∃ k, Below children r k c := by
  induction h with
  | rel p c hc =>
    constructor
    · rintro ⟨k,h⟩
      exact ⟨k + 1,.child k p c h hc⟩
    · rintro ⟨k,h⟩
      cases h with
      | self => exact absurd hc (hr p)
      | child k q _ h hmem =>
        obtain rfl := hs p q c hc hmem
        exact ⟨k,h⟩
  | refl => rfl
  | symm _ _ _ ih => exact ih.symm
  | trans _ _ _ _ _ ih ih' => exact ih.trans ih'

theorem connected_iff_below (hs : SingleParent children) (hr : IsRoot children r) (h : Below children r k a) :
    Connected children a c ↔ ∃ m, Below children r m c := by
  constructor
  · intro hc
    exact (hc.below_iff hs hr).mp ⟨k,h⟩
  · rintro ⟨m,hm⟩
    exact .trans _ _ _ (.symm _ _ h.connected) hm.connected

/-! ## The root of an element -/

/-- Follow `parent` up to an element that has none. -/
def climb (parent : α → Option α) : ℕ → α → Option α
  | 0, _ => none
  | n + 1, a =>
    match parent a with
    | none => some a
    | some p => climb parent n p

theorem Above.climb {parent : α → Option α} (hp : ∀ p c, parent c = some p ↔ c ∈ children p)
    (h : Above children a above) (hn : above.length < n) :
    ∃ r, climb parent n a = some r ∧ IsRoot children r ∧ Below children r above.length a := by
  induction h generalizing n with
  | root a hroot =>
    cases n with
    | zero => omega
    | succ n =>
      have hnone : parent a = none := by
        refine Option.eq_none_iff_forall_not_mem.mpr fun p hmem => ?_
        exact hroot p ((hp p a).mp hmem)
      exact ⟨a,by simp [Descent.climb,hnone],hroot,.self⟩
  | child p a above h ha ih =>
    cases n with
    | zero => omega
    | succ n =>
      simp only [List.length_append, List.length_singleton] at hn ⊢
      obtain ⟨r,hclimb,hroot,hbelow⟩ := ih (n := n) (by omega)
      refine ⟨r,?_,hroot,.child _ p a hbelow ha⟩
      simp [Descent.climb,(hp p a).mpr ha,hclimb]

end Ranks

end AgentGraph.Descent
