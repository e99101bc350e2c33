import Mathlib.Data.List.Nodup

/-! # Dicts as lists of entries

A dict is the list of its entries in the order their keys came first. A later value replaces
an earlier one of its key, in its place.
-/
set_option autoImplicit false
namespace Entries
variable {κ α β : Type}

theorem keys_map (g : κ → α → β) (fields : List (κ × α)) :
    (fields.map fun field => (field.1,g field.1 field.2)).map Prod.fst = fields.map Prod.fst := by
  rw [List.map_map]
  rfl

variable [DecidableEq κ]

/-- An entry set in a dict. -/
def put (fields : List (κ × α)) (entry : κ × α) : List (κ × α) :=
  if fields.any fun field => field.1 == entry.1 then
    fields.map fun field => if field.1 = entry.1 then entry else field
  else fields ++ [entry]

def ofList (entries : List (κ × α)) : List (κ × α) := entries.foldl put []

theorem any_key_iff {fields : List (κ × α)} {key : κ} :
    (fields.any fun field => field.1 == key) = true ↔ key ∈ fields.map Prod.fst := by
  simp only [List.any_eq_true, beq_iff_eq, List.mem_map]

theorem keys_put (fields : List (κ × α)) (entry : κ × α) :
    (put fields entry).map Prod.fst =
      if entry.1 ∈ fields.map Prod.fst then fields.map Prod.fst else fields.map Prod.fst ++ [entry.1] := by
  simp only [put, any_key_iff]
  split
  · rw [List.map_map]
    refine List.map_congr_left fun field _ => ?_
    dsimp only [Function.comp_apply]
    split
    next h => exact h.symm
    · rfl
  · rw [List.map_append]
    rfl

theorem nodup_ofList (entries : List (κ × α)) : ((ofList entries).map Prod.fst).Nodup := by
  have hkeep : ∀ fields : List (κ × α), (fields.map Prod.fst).Nodup →
      ((entries.foldl put fields).map Prod.fst).Nodup := by
    induction entries with
    | nil => exact fun _ h => h
    | cons entry rest ih =>
      refine fun fields h => ih _ ?_
      rw [keys_put]
      split
      · exact h
      next hnew =>
        refine List.nodup_append.mpr ⟨h,List.nodup_singleton _,fun key hkey new hmem heq => hnew ?_⟩
        rw [← List.mem_singleton.mp hmem, ← heq]
        exact hkey
  exact hkeep [] List.nodup_nil

theorem ofList_of_nodup {entries : List (κ × α)} (h : (entries.map Prod.fst).Nodup) : ofList entries = entries := by
  have hadd : ∀ fields : List (κ × α), ((fields ++ entries).map Prod.fst).Nodup →
      entries.foldl put fields = fields ++ entries := by
    clear h
    induction entries with
    | nil => exact fun fields _ => (List.append_nil fields).symm
    | cons entry rest ih =>
      intro fields h
      have hnew : entry.1 ∉ fields.map Prod.fst := by
        rw [List.map_append, List.nodup_append] at h
        exact fun hmem => h.2.2 entry.1 hmem entry.1 (by simp) rfl
      have hput : put fields entry = fields ++ [entry] := by
        rw [put, if_neg fun h => hnew (any_key_iff.mp h)]
      rw [List.foldl_cons, hput, ih _ (by simpa using h), List.append_assoc]
      rfl
  exact hadd [] h

theorem lookup_map (g : κ → α → β) (fields : List (κ × α)) (key : κ) :
    (fields.map fun field => (field.1,g field.1 field.2)).lookup key = (fields.lookup key).map (g key) := by
  induction fields with
  | nil => rfl
  | cons field rest ih =>
    obtain ⟨other,value⟩ := field
    simp only [List.map_cons, List.lookup_cons, ih]
    cases h : key == other with
    | true => rw [beq_iff_eq.mp h, Option.map_some]
    | false => rfl

theorem lookup_eq_some_iff {fields : List (κ × α)} (h : (fields.map Prod.fst).Nodup) {key : κ} {value : α} :
    fields.lookup key = some value ↔ (key,value) ∈ fields := by
  induction fields with
  | nil => simp
  | cons field rest ih =>
    obtain ⟨other,first⟩ := field
    rw [List.map_cons, List.nodup_cons] at h
    rw [List.lookup_cons, List.mem_cons, ← ih h.2]
    cases hk : key == other with
    | true =>
      have hkey : key = other := beq_iff_eq.mp hk
      subst hkey
      have hnew : rest.lookup key ≠ some value := fun hmem =>
        h.1 (List.mem_map.mpr ⟨_,(ih h.2).mp hmem,rfl⟩)
      simp [hnew, eq_comm]
    | false =>
      have hkey : key ≠ other := by simpa using hk
      simp [hkey]

/-- A dict comprehension that keeps the keys of its entries. -/
theorem ofList_map (g : κ → α → β) (entries : List (κ × α)) :
    ofList (entries.map fun entry => (entry.1,g entry.1 entry.2)) =
      (ofList entries).map fun entry => (entry.1,g entry.1 entry.2) := by
  have hput (fields : List (κ × α)) (entry : κ × α) :
      put (fields.map fun entry => (entry.1,g entry.1 entry.2)) (entry.1,g entry.1 entry.2) =
        (put fields entry).map fun entry => (entry.1,g entry.1 entry.2) := by
    simp only [put, any_key_iff, keys_map g]
    split
    · rw [List.map_map, List.map_map]
      refine List.map_congr_left fun field _ => ?_
      dsimp only [Function.comp_apply]
      split <;> rfl
    · rw [List.map_append]
      rfl
  have hfold : ∀ fields : List (κ × α),
      (entries.map fun entry => (entry.1,g entry.1 entry.2)).foldl put
        (fields.map fun entry => (entry.1,g entry.1 entry.2)) =
      (entries.foldl put fields).map fun entry => (entry.1,g entry.1 entry.2) := by
    induction entries with
    | nil => exact fun _ => rfl
    | cons entry rest ih =>
      intro fields
      rw [List.map_cons, List.foldl_cons, hput, ih, List.foldl_cons]
  exact hfold []

end Entries
