import AgentGraph.Foundation.Selection
import AgentGraph.Persistence.JsonColumn
import Mathlib.Data.List.Perm.Subperm

/-! # Equality of JSON values and the order of keys

Two JSON values are the same when they differ at most in the order of their objects' keys.
Sorting the keys picks one value of each class.
-/
set_option autoImplicit false
namespace AgentGraph
namespace Json

mutual
def same : Json → Json → Bool
  | .null, .null => true
  | .bool a, .bool b => a == b
  | .int a, .int b => a == b
  | .float a, .float b => decide (a = b)
  | .str a, .str b => a == b
  | .arr items, .arr others => sameItems items others
  | .obj fields, .obj others => fields.length == others.length && sameFields fields others
  | _, _ => false

def sameItems : List Json → List Json → Bool
  | [], [] => true
  | item :: rest, other :: others => same item other && sameItems rest others
  | _, _ => false

/-- Each key has the same value in the other object. -/
def sameFields : List (String × Json) → List (String × Json) → Bool
  | [], _ => true
  | (key,value) :: rest, others =>
    (match others.lookup key with
      | some other => same value other
      | none => false) && sameFields rest others
end

theorem sameFields_iff (fields others : List (String × Json)) :
    sameFields fields others = true ↔
      ∀ field ∈ fields, ∃ other, others.lookup field.1 = some other ∧ same field.2 other = true := by
  induction fields with
  | nil => simp [sameFields]
  | cons field rest ih =>
    obtain ⟨key,value⟩ := field
    rw [sameFields, Bool.and_eq_true, ih, List.forall_mem_cons]
    refine and_congr_left fun _ => ?_
    cases others.lookup key with
    | none => simp
    | some other => simp

theorem sortItems_eq (items : List Json) : sortItems items = items.map sortKeys := by
  induction items with
  | nil => rfl
  | cons item rest ih => rw [sortItems, ih, List.map_cons]

theorem sortFields_eq (fields : List (String × Json)) :
    sortFields fields = fields.map fun field => (field.1,sortKeys field.2) := by
  induction fields with
  | nil => rfl
  | cons field rest ih => rw [sortFields, ih, List.map_cons]

theorem keys_sortFields (fields : List (String × Json)) :
    (sortFields fields).map Prod.fst = fields.map Prod.fst := by
  rw [sortFields_eq]
  exact Entries.keys_map (fun _ => sortKeys) fields

/-- A property of the nodes that minds no order of keys holds everywhere or nowhere of both. -/
theorem everywhere_sortKeys {p : Json → Bool} (harr : ∀ items others, p (.arr items) = p (.arr others))
    (hobj : ∀ fields others : List (String × Json), (fields.map Prod.fst).Perm (others.map Prod.fst) →
      p (.obj fields) = p (.obj others)) (x : Json) :
    (sortKeys x).everywhere p = true ↔ x.everywhere p = true := by
  induction x using treeInduction with
  | null => exact Iff.rfl
  | bool b => exact Iff.rfl
  | int n => exact Iff.rfl
  | float x => exact Iff.rfl
  | str s => exact Iff.rfl
  | arr items ih =>
    rw [sortKeys, sortItems_eq, everywhere_arr, everywhere_arr, harr _ items, List.forall_mem_map]
    exact and_congr_right fun _ => forall₂_congr ih
  | obj fields ih =>
    have hperm := List.perm_insertionSort (fun a b : String × Json => a.1 ≤ b.1) (sortFields fields)
    have hkeys := hperm.map Prod.fst
    rw [keys_sortFields] at hkeys
    rw [sortKeys, everywhere_obj, everywhere_obj, hobj _ fields hkeys]
    simp only [hperm.mem_iff]
    rw [sortFields_eq, List.forall_mem_map]
    exact and_congr_right fun _ => forall₂_congr ih

theorem sameItems_iff {items others : List Json} {p : Json → Prop}
    (h : ∀ item ∈ items, ∀ other, p other → (same item other = true ↔ sortKeys item = sortKeys other))
    (hothers : ∀ other ∈ others, p other) :
    sameItems items others = true ↔ items.map sortKeys = others.map sortKeys := by
  induction items generalizing others with
  | nil => cases others <;> simp [sameItems]
  | cons item rest ih =>
    cases others with
    | nil => simp [sameItems]
    | cons other more =>
      rw [sameItems, Bool.and_eq_true, List.map_cons, List.map_cons, List.cons.injEq,
        h item List.mem_cons_self other (hothers other List.mem_cons_self),
        ih (fun item hitem => h item (.tail _ hitem)) fun other hother => hothers other (.tail _ hother)]

theorem same_obj_iff {fields others : List (String × Json)} {p : Json → Prop}
    (h : ∀ field ∈ fields, ∀ other, p other → (same field.2 other = true ↔ sortKeys field.2 = sortKeys other))
    (hothers : ∀ other ∈ others, p other.2) (hkeys : (fields.map Prod.fst).Nodup)
    (hkeys' : (others.map Prod.fst).Nodup) :
    same (.obj fields) (.obj others) = true ↔ sortKeys (.obj fields) = sortKeys (.obj others) := by
  have hsorted : ((sortFields fields).map Prod.fst).Nodup := (keys_sortFields fields).symm ▸ hkeys
  have hlength (l : List (String × Json)) : (sortFields l).length = l.length := by
    rw [sortFields_eq, List.length_map]
  rw [same, Bool.and_eq_true, beq_iff_eq, sameFields_iff, sortKeys, sortKeys, obj.injEq]
  constructor
  · rintro ⟨hlen,hall⟩
    have hsub : sortFields fields ⊆ sortFields others := by
      intro entry hentry
      rw [sortFields_eq] at hentry ⊢
      obtain ⟨field,hfield,rfl⟩ := List.mem_map.mp hentry
      obtain ⟨other,hlookup,hsame⟩ := hall field hfield
      have hmem := (Entries.lookup_eq_some_iff hkeys').mp hlookup
      exact List.mem_map.mpr ⟨_,hmem,Prod.ext rfl ((h field hfield other (hothers _ hmem)).mp hsame).symm⟩
    have hperm := (List.Nodup.subperm (List.Nodup.of_map _ hsorted) hsub).perm_of_length_le (by rw [hlength, hlength, hlen])
    exact Selection.sort_congr hsorted hperm
  · intro heq
    have hperm : (sortFields fields).Perm (sortFields others) := by
      have hleft := List.perm_insertionSort (fun a b : String × Json => a.1 ≤ b.1) (sortFields fields)
      rw [heq] at hleft
      exact hleft.symm.trans (List.perm_insertionSort _ _)
    refine ⟨by rw [← hlength, hperm.length_eq, hlength],fun field hfield => ?_⟩
    have hmem : (field.1,sortKeys field.2) ∈ sortFields others := by
      refine hperm.mem_iff.mp ?_
      rw [sortFields_eq]
      exact List.mem_map_of_mem hfield
    rw [sortFields_eq] at hmem
    obtain ⟨⟨key,other⟩,hother,hentry⟩ := List.mem_map.mp hmem
    obtain ⟨rfl,hvalue⟩ := Prod.mk.inj hentry
    exact ⟨other,(Entries.lookup_eq_some_iff hkeys').mpr hother,
      (h field hfield other (hothers _ hother)).mpr hvalue.symm⟩

/-- For values whose objects have distinct keys. -/
theorem same_iff {x y : Json} (hx : x.everywhere distinctKeys = true) (hy : y.everywhere distinctKeys = true) :
    same x y = true ↔ sortKeys x = sortKeys y := by
  induction x using treeInduction generalizing y with
  | null => cases y <;> simp [same, sortKeys]
  | bool b => cases y <;> simp [same, sortKeys]
  | int n => cases y <;> simp [same, sortKeys]
  | float x => cases y <;> simp [same, sortKeys]
  | str s => cases y <;> simp [same, sortKeys]
  | arr items ih =>
    cases y with
    | arr others =>
      rw [everywhere_arr] at hx hy
      rw [same, sortKeys, sortKeys, sortItems_eq, sortItems_eq, arr.injEq]
      exact sameItems_iff (fun item hitem other hother => ih item hitem (hx.2 item hitem) hother) hy.2
    | _ => simp [same, sortKeys]
  | obj fields ih =>
    cases y with
    | obj others =>
      rw [everywhere_obj, distinctKeys_obj] at hx hy
      exact same_obj_iff (fun field hfield other hother => ih field hfield (hx.2 field hfield) hother) hy.2 hx.1 hy.1
    | _ => simp [same, sortKeys]

end Json
end AgentGraph
