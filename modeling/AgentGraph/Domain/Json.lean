import Mathlib.Data.Rat.Defs

/-! # JSON values as the server holds them

Request bodies and JSON columns are Python values built by `json.loads`. A dict is
an association list read by its first entry for a key, and a missing key reads as
`None`, as `dict.get` does.
-/
set_option autoImplicit false
namespace AgentGraph

/-- A float parsed by `json.loads`, which also admits the three non-finite values. -/
inductive JsonFloat
  | finite (q : ℚ)
  | nan
  | infinity (negative : Bool)
deriving DecidableEq

inductive Json
  | null
  | bool (b : Bool)
  | int (n : ℤ)
  | float (x : JsonFloat)
  | str (s : String)
  | arr (items : List Json)
  | obj (fields : List (String × Json))

abbrev JsonObject := List (String × Json)

namespace Json

/-- `isinstance(value, str)`. -/
def str? : Json → Option String
  | .str s => some s
  | _ => none

/-- `isinstance(value, str) and value`. -/
def nonemptyStr? : Json → Option String
  | .str s => if s = "" then none else some s
  | _ => none

/-- `isinstance(value, list)`. -/
def list? : Json → Option (List Json)
  | .arr items => some items
  | _ => none

/-- `isinstance(value, dict)`. -/
def dict? : Json → Option JsonObject
  | .obj fields => some fields
  | _ => none

/-- `value == text`. -/
def equalsStr (text : String) : Json → Bool
  | .str s => s == text
  | _ => false

/-- `value == number`, where booleans and floats compare by their numeric value. -/
def equalsInt (number : ℤ) : Json → Bool
  | .int n => n == number
  | .bool b => (if b then 1 else 0) == number
  | .float (.finite q) => q == (number : ℚ)
  | _ => false

@[simp] theorem str?_eq_some {value : Json} {s : String} : value.str? = some s ↔ value = .str s := by
  cases value <;> simp [str?]

@[simp] theorem nonemptyStr?_eq_some {value : Json} {s : String} :
    value.nonemptyStr? = some s ↔ value = .str s ∧ s ≠ "" := by
  cases value <;> simp [nonemptyStr?]
  exact ⟨fun ⟨hne,he⟩ => ⟨he,he ▸ hne⟩,fun ⟨he,hne⟩ => ⟨he ▸ hne,he⟩⟩

@[simp] theorem list?_eq_some {value : Json} {items : List Json} :
    value.list? = some items ↔ value = .arr items := by
  cases value <;> simp [list?]

@[simp] theorem dict?_eq_some {value : Json} {fields : JsonObject} :
    value.dict? = some fields ↔ value = .obj fields := by
  cases value <;> simp [dict?]

@[simp] theorem equalsStr_iff {value : Json} {text : String} :
    value.equalsStr text = true ↔ value = .str text := by
  cases value <;> simp [equalsStr]

/-- Induction over the items of lists and the values of objects. -/
@[elab_as_elim]
theorem treeInduction {motive : Json → Prop} (null : motive .null) (bool : ∀ b, motive (.bool b))
    (int : ∀ n, motive (.int n)) (float : ∀ x, motive (.float x)) (str : ∀ s, motive (.str s))
    (arr : ∀ items, (∀ item ∈ items, motive item) → motive (.arr items))
    (obj : ∀ fields, (∀ field ∈ fields, motive field.2) → motive (.obj fields)) (value : Json) : motive value :=
  @Json.rec motive (fun items => ∀ item ∈ items, motive item) (fun fields => ∀ field ∈ fields, motive field.2)
    (fun field => motive field.2) null bool int float str arr obj (by simp)
    (fun _ _ hitem hrest => List.forall_mem_cons.mpr ⟨hitem,hrest⟩) (by simp)
    (fun _ _ hfield hrest => List.forall_mem_cons.mpr ⟨hfield,hrest⟩) (fun _ _ hvalue => hvalue) value

mutual
/-- The value and all values inside it. -/
def everywhere (p : Json → Bool) : Json → Bool
  | .arr items => p (.arr items) && everywhereItems p items
  | .obj fields => p (.obj fields) && everywhereFields p fields
  | value => p value

def everywhereItems (p : Json → Bool) : List Json → Bool
  | [] => true
  | item :: rest => everywhere p item && everywhereItems p rest

def everywhereFields (p : Json → Bool) : List (String × Json) → Bool
  | [] => true
  | (_,value) :: rest => everywhere p value && everywhereFields p rest
end

theorem everywhereItems_eq (p : Json → Bool) (items : List Json) :
    everywhereItems p items = items.all fun item => everywhere p item := by
  induction items with
  | nil => rfl
  | cons item rest ih => rw [everywhereItems, ih, List.all_cons]

theorem everywhereFields_eq (p : Json → Bool) (fields : List (String × Json)) :
    everywhereFields p fields = fields.all fun field => everywhere p field.2 := by
  induction fields with
  | nil => rfl
  | cons field rest ih => rw [everywhereFields, ih, List.all_cons]

@[simp] theorem everywhere_arr (p : Json → Bool) (items : List Json) :
    everywhere p (.arr items) = true ↔ p (.arr items) = true ∧ ∀ item ∈ items, everywhere p item = true := by
  rw [everywhere, everywhereItems_eq, Bool.and_eq_true, List.all_eq_true]

@[simp] theorem everywhere_obj (p : Json → Bool) (fields : List (String × Json)) :
    everywhere p (.obj fields) = true ↔
      p (.obj fields) = true ∧ ∀ field ∈ fields, everywhere p field.2 = true := by
  rw [everywhere, everywhereFields_eq, Bool.and_eq_true, List.all_eq_true]

theorem everywhere_self {p : Json → Bool} {x : Json} (h : x.everywhere p = true) : p x = true := by
  cases x with
  | arr items => exact ((everywhere_arr p items).mp h).1
  | obj fields => exact ((everywhere_obj p fields).mp h).1
  | null => exact h
  | bool b => exact h
  | int n => exact h
  | float x => exact h
  | str s => exact h

theorem everywhere_mono {p q : Json → Bool} (h : ∀ x, p x = true → q x = true) {x : Json}
    (hx : x.everywhere p = true) : x.everywhere q = true := by
  induction x using treeInduction with
  | null => exact h _ hx
  | bool b => exact h _ hx
  | int n => exact h _ hx
  | float x => exact h _ hx
  | str s => exact h _ hx
  | arr items ih =>
    rw [everywhere_arr] at hx ⊢
    exact ⟨h _ hx.1,fun item hitem => ih item hitem (hx.2 item hitem)⟩
  | obj fields ih =>
    rw [everywhere_obj] at hx ⊢
    exact ⟨h _ hx.1,fun field hfield => ih field hfield (hx.2 field hfield)⟩

/-- An object's keys are distinct, as those of a dict are. -/
def distinctKeys : Json → Bool
  | .obj fields => decide (fields.map Prod.fst).Nodup
  | _ => true

@[simp] theorem distinctKeys_obj (fields : List (String × Json)) :
    distinctKeys (.obj fields) = true ↔ (fields.map Prod.fst).Nodup := decide_eq_true_iff

end Json

namespace JsonObject

/-- `graph.get(key)`. -/
def get (fields : JsonObject) (key : String) : Json := (fields.lookup key).getD .null

/-- `graph.get(key, default)`. -/
def getD (fields : JsonObject) (key : String) (default : Json) : Json := (fields.lookup key).getD default

/-- `not (set(graph) - allowed)`. -/
def onlyKeys (allowed : List String) (fields : JsonObject) : Bool :=
  fields.all fun field => allowed.contains field.1

theorem onlyKeys_iff {allowed : List String} {fields : JsonObject} :
    fields.onlyKeys allowed = true ↔ ∀ field ∈ fields, field.1 ∈ allowed := by
  simp [onlyKeys]

end JsonObject

/-- A JSON object whose keys, and those of every object inside it, are distinct. -/
structure JsonDict where
  fields : JsonObject
  distinct : (Json.obj fields).everywhere Json.distinctKeys = true

end AgentGraph
