import Mathlib.Logic.Function.Basic
import Mathlib.Data.Nat.Notation

/-! # A file under one name

The name can be created exclusively, looked up and removed. What has been opened stays
readable and writable when the name stands for another file, or for none.
-/
set_option autoImplicit false
namespace AgentGraph

/-- The files that the name has stood for, numbered by their creation, with their contents. -/
structure NamedFile (β : Type) where
  named : Option ℕ
  content : ℕ → List β
  count : ℕ
  named_lt : ∀ file, named = some file → file < count

namespace NamedFile
variable {β : Type}

def absent : NamedFile β := ⟨none,fun _ => [],0,fun _ h => (by cases h)⟩

/-- An exclusive creation, which fails if the name is taken. -/
def create (f : NamedFile β) : Option (NamedFile β × ℕ) :=
  match f.named with
  | some _ => none
  | none =>
    some (⟨some f.count,Function.update f.content f.count [],f.count + 1,fun _ h => (by cases h; exact Nat.lt_succ_self _)⟩,f.count)

/-- The first write to a file that was created empty. -/
def write (f : NamedFile β) (file : ℕ) (bytes : List β) : NamedFile β :=
  { f with content := Function.update f.content file bytes }

def unlink (f : NamedFile β) : NamedFile β := { f with named := none, named_lt := fun _ h => (by cases h) }

/-- The file of the name holds `bytes`. -/
def Holds (f : NamedFile β) (bytes : List β) : Prop := ∃ file, f.named = some file ∧ f.content file = bytes

theorem create_taken {f : NamedFile β} {file : ℕ} (h : f.named = some file) : f.create = none := by
  unfold create
  rw [h]

theorem create_isSome {f : NamedFile β} (h : f.named = none) : ∃ f', f.create = some (f',f.count) := by
  unfold create
  rw [h]
  exact ⟨_,rfl⟩

/-- A new file is empty, and the others stay as they are. -/
theorem create_eq_some {f f' : NamedFile β} {file : ℕ} (h : f.create = some (f',file)) :
    f.named = none ∧ file = f.count ∧ f'.named = some file ∧ f'.content = Function.update f.content file [] ∧ f'.count = f.count + 1 := by
  unfold create at h
  split at h
  · cases h
  next hnamed =>
    cases h
    exact ⟨hnamed,rfl,rfl,rfl,rfl⟩

@[simp] theorem write_named (f : NamedFile β) (file : ℕ) (bytes : List β) : (f.write file bytes).named = f.named := rfl

@[simp] theorem write_count (f : NamedFile β) (file : ℕ) (bytes : List β) : (f.write file bytes).count = f.count := rfl

@[simp] theorem write_content_self (f : NamedFile β) (file : ℕ) (bytes : List β) : (f.write file bytes).content file = bytes :=
  Function.update_self _ _ _

theorem write_content_of_ne (f : NamedFile β) {file other : ℕ} (h : other ≠ file) (bytes : List β) :
    (f.write file bytes).content other = f.content other :=
  Function.update_of_ne h _ _

@[simp] theorem unlink_named (f : NamedFile β) : f.unlink.named = none := rfl

@[simp] theorem unlink_content (f : NamedFile β) : f.unlink.content = f.content := rfl

theorem Holds.unique {f : NamedFile β} {a b : List β} (ha : f.Holds a) (hb : f.Holds b) : a = b := by
  obtain ⟨file,hfile,rfl⟩ := ha
  obtain ⟨other,hother,rfl⟩ := hb
  rw [Option.some.inj (hfile.symm.trans hother)]

end NamedFile

end AgentGraph
