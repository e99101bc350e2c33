import Mathlib.Data.List.Lookmap
import Mathlib.Data.List.Nodup

/-! # Codecs of records in documents

A codec writes values as documents and validates documents back; what it writes validates
to what was written. Records are put together from groups of fields with keys of their
own, so that a record has the round trip of its fields.
-/
set_option autoImplicit false
namespace Document
variable {D α β γ : Type}

/-- Documents with a null, lists and objects that are read back as they were made. -/
structure Format (D : Type) where
  null : D
  arr : List D → D
  obj : List (String × D) → D
  isNull : D → Bool
  items : D → Option (List D)
  fields : D → Option (List (String × D))
  isNull_null : isNull null = true
  items_arr : ∀ ds, items (arr ds) = some ds
  fields_obj : ∀ fs, fields (obj fs) = some fs

/-- A writer and a validator, where what is written validates. -/
structure Codec (D α : Type) where
  dump : α → D
  validate : D → Option α
  validate_dump : ∀ a, validate (dump a) = some a

/-- The fields with these keys. They are written in the order of the keys and read by their keys. -/
structure Fields (D : Type) (keys : List String) (α : Type) where
  dump : α → List (String × D)
  read : (String → Option D) → Option α
  nodup : keys.Nodup
  dump_keys : ∀ a, ((dump a).map Prod.fst).Sublist keys
  read_dump : ∀ a look, (∀ key ∈ keys, look key = (dump a).lookup key) → read look = some a

attribute [simp] Codec.validate_dump Format.items_arr Format.fields_obj Format.isNull_null

namespace Codec

/-- Only the values with a property are accepted. -/
def refine (c : Codec D α) (p : α → Prop) [DecidablePred p] : Codec D {a : α // p a} where
  dump a := c.dump a.val
  validate d := (c.validate d).bind fun a => if h : p a then some ⟨a,h⟩ else none
  validate_dump := by
    intro a
    simp [a.property]

def list (F : Format D) (c : Codec D α) : Codec D (List α) where
  dump as := F.arr (as.map c.dump)
  validate d := (F.items d).bind fun ds => ds.mapM c.validate
  validate_dump := by
    intro as
    rw [F.items_arr, Option.bind_some]
    induction as with
    | nil => rfl
    | cons a as ih => simp [ih]

/-- Two items of a list of exactly two. -/
def pair (F : Format D) (c : Codec D α) (c' : Codec D β) : Codec D (α × β) where
  dump p := F.arr [c.dump p.1,c'.dump p.2]
  validate d := (F.items d).bind fun ds =>
    match ds with
    | [d₁,d₂] => (c.validate d₁).bind fun a => (c'.validate d₂).map fun b => (a,b)
    | _ => none
  validate_dump := by
    intro p
    simp

def nullable (F : Format D) (c : Codec D α) (h : ∀ a, F.isNull (c.dump a) = false) : Codec D (Option α) where
  dump o := (o.map c.dump).getD F.null
  validate d := if F.isNull d then some none else (c.validate d).map some
  validate_dump := by
    intro o
    cases o with
    | none => simp
    | some a => simp [h a]

/-- No document is accepted by both, so that it does not matter which is tried first. -/
def Disjoint (c : Codec D α) (c' : Codec D β) : Prop := ∀ d, c.validate d = none ∨ c'.validate d = none

def union (c : Codec D α) (c' : Codec D β) (h : c.Disjoint c') : Codec D (α ⊕ β) where
  dump
    | .inl a => c.dump a
    | .inr b => c'.dump b
  validate d := ((c.validate d).map Sum.inl).or ((c'.validate d).map Sum.inr)
  validate_dump := by
    intro s
    cases s with
    | inl a => simp
    | inr b =>
      have hb := h (c'.dump b)
      rw [c'.validate_dump] at hb
      obtain hnone | hnone := hb
      · simp [hnone]
      · cases hnone

theorem disjoint_union {c : Codec D α} {c' : Codec D β} {c'' : Codec D γ} (h₁ : c.Disjoint c') (h₂ : c.Disjoint c'')
    (h : c'.Disjoint c'') : c.Disjoint (c'.union c'' h) := by
  intro d
  obtain hnone | hnone := h₁ d
  · exact .inl hnone
  · obtain hnone' | hnone' := h₂ d
    · exact .inl hnone'
    · exact .inr (by simp [union, hnone, hnone'])

/-- A union whose members are told apart by a tag. -/
def tagged {ι : Type} {α : ι → Type} (tag : D → Option ι) (c : ∀ i, Codec D (α i))
    (h : ∀ i a, tag ((c i).dump a) = some i) : Codec D (Σ i, α i) where
  dump s := (c s.1).dump s.2
  validate d := (tag d).bind fun i => ((c i).validate d).map (Sigma.mk i)
  validate_dump := by
    intro s
    simp [h]

end Codec

namespace Fields
variable {keys keys' : List String}

theorem mem_keys (f : Fields D keys α) {a : α} {field : String × D} (h : field ∈ f.dump a) : field.1 ∈ keys :=
  (f.dump_keys a).subset (List.mem_map_of_mem h)

theorem lookup_eq_none (f : Fields D keys α) {a : α} {key : String} (h : key ∉ keys) : (f.dump a).lookup key = none := by
  rw [List.lookup_eq_none_iff]
  intro field hfield
  have hne : key ≠ field.1 := fun heq => h (heq ▸ f.mem_keys hfield)
  simpa using hne

/-- A required field. -/
def required (key : String) (c : Codec D α) : Fields D [key] α where
  dump a := [(key,c.dump a)]
  read look := (look key).bind c.validate
  nodup := List.nodup_singleton key
  dump_keys := by
    intro a
    simp
  read_dump := by
    intro a look h
    simp [h key List.mem_cons_self]

/-- A field with a default, which is written all the same. -/
def defaulted (key : String) (c : Codec D α) (default : α) : Fields D [key] α where
  dump a := [(key,c.dump a)]
  read look :=
    match look key with
    | none => some default
    | some d => c.validate d
  nodup := List.nodup_singleton key
  dump_keys := by
    intro a
    simp
  read_dump := by
    intro a look h
    simp [h key List.mem_cons_self]

/-- A field that may be missing or null, and is left out where there is no value. -/
def optional (F : Format D) (key : String) (c : Codec D α) (hnull : ∀ a, F.isNull (c.dump a) = false) :
    Fields D [key] (Option α) where
  dump o := (o.map fun a => (key,c.dump a)).toList
  read look :=
    match look key with
    | none => some none
    | some d => (c.nullable F hnull).validate d
  nodup := List.nodup_singleton key
  dump_keys := by
    intro o
    cases o <;> simp
  read_dump := by
    intro o look h
    have hkey := h key List.mem_cons_self
    cases o with
    | none => simp [hkey]
    | some a =>
      have hval := (c.nullable F hnull).validate_dump (some a)
      simpa [hkey, Codec.nullable] using hval

/-- Two groups of fields with different keys. -/
def pair (f : Fields D keys α) (g : Fields D keys' β) (h : ∀ key ∈ keys, key ∉ keys' := by decide) :
    Fields D (keys ++ keys') (α × β) where
  dump p := f.dump p.1 ++ g.dump p.2
  read look := (f.read look).bind fun a => (g.read look).map fun b => (a,b)
  nodup := List.nodup_append'.mpr ⟨f.nodup,g.nodup,fun _ hf hg => h _ hf hg⟩
  dump_keys := by
    intro p
    rw [List.map_append]
    exact (f.dump_keys p.1).append (g.dump_keys p.2)
  read_dump := by
    intro p look hlook
    have hf : f.read look = some p.1 := by
      apply f.read_dump
      intro key hkey
      rw [hlook key (List.mem_append_left _ hkey), List.lookup_append, g.lookup_eq_none (h key hkey), Option.or_none]
    have hg : g.read look = some p.2 := by
      apply g.read_dump
      intro key hkey
      have hnot : key ∉ keys := fun hmem => h key hmem hkey
      rw [hlook key (List.mem_append_right _ hkey), List.lookup_append, f.lookup_eq_none hnot, Option.none_or]
    rw [hf, hg]
    rfl

/-- The fields of a record by another name. -/
def iso (f : Fields D keys α) (pack : α → β) (unpack : β → α) (h : ∀ b, pack (unpack b) = b) : Fields D keys β where
  dump b := f.dump (unpack b)
  read look := (f.read look).map pack
  nodup := f.nodup
  dump_keys b := f.dump_keys (unpack b)
  read_dump := by
    intro b look hlook
    rw [f.read_dump (unpack b) look hlook, Option.map_some, h]

/-- The group is not read without this field. -/
def Requires (f : Fields D keys α) (key : String) : Prop := ∀ look, look key = none → f.read look = none

theorem requires_required (key : String) (c : Codec D α) : (required key c).Requires key := by
  intro look h
  simp [required, h]

theorem Requires.right {f : Fields D keys α} {g : Fields D keys' β} {key : String} (hg : g.Requires key)
    (h : ∀ key ∈ keys, key ∉ keys') : (f.pair g h).Requires key := by
  intro look hnone
  simp [pair, hg look hnone]

theorem Requires.iso {f : Fields D keys α} {pack : α → β} {unpack : β → α} {key : String} (hf : f.Requires key)
    (h : ∀ b, pack (unpack b) = b) : (f.iso pack unpack h).Requires key := by
  intro look hnone
  simp [Fields.iso, hf look hnone]

/-- An object with no fields but these. -/
def record (F : Format D) (f : Fields D keys α) : Codec D α where
  dump a := F.obj (f.dump a)
  validate d := (F.fields d).bind fun fields =>
    if fields.all fun field => keys.contains field.1 then f.read fun key => fields.lookup key else none
  validate_dump := by
    intro a
    have hkeys : ((f.dump a).all fun field => keys.contains field.1) = true := by
      rw [List.all_eq_true]
      intro field hfield
      exact List.contains_iff_mem.mpr (f.mem_keys hfield)
    rw [F.fields_obj, Option.bind_some, if_pos hkeys]
    exact f.read_dump a _ fun _ _ => rfl

/-- A record with a field that another must not have. -/
theorem disjoint_record (F : Format D) {f : Fields D keys α} {g : Fields D keys' β} {key : String} (hf : f.Requires key)
    (hkey : key ∉ keys') : (f.record F).Disjoint (g.record F) := by
  intro d
  cases hd : F.fields d with
  | none => exact .inl (by simp [record, hd])
  | some fields =>
    by_cases hall : (fields.all fun field => keys'.contains field.1) = true
    · have hnone : fields.lookup key = none := by
        rw [List.lookup_eq_none_iff]
        intro field hfield
        have hmem := List.contains_iff_mem.mp (List.all_eq_true.mp hall field hfield)
        have hne : key ≠ field.1 := fun heq => hkey (heq ▸ hmem)
        simpa using hne
      apply Or.inl
      simp only [record, hd, Option.bind_some]
      split
      · exact hf _ hnone
      · rfl
    · apply Or.inr
      simp only [record, hd, Option.bind_some, if_neg hall]

end Fields

end Document
