import AgentGraph.Persistence.Models

/-! # Databases under the revisions

A database is upgraded and downgraded by any revisions, and rows are written in between. No
revision fails, whatever the rows; at the last one the tables are those of the models.
-/
set_option autoImplicit false
namespace AgentGraph.Persistence.Migrations

open SchemaChange

/-- A value of the type of the model can be kept in the column. -/
def ColumnType.holds : ColumnType → ColumnType → Bool
  | .string length, .enumeration values => values.all fun value => decide (value.length ≤ length)
  | type, type' => decide (type = type')

def columnType (models : Schema (Option ColumnType)) (column : Column (Option ColumnType)) : Option ColumnType :=
  match column.type with
  | some type => some type
  | none => do
    let reference ← column.references
    let model ← models.find reference.table
    let target ← model.columns.find? fun target => target.name == reference.column
    target.type

def sameColumn (models : Schema (Option ColumnType)) (column : Column ColumnType) (model : Column (Option ColumnType)) : Bool :=
  column.name == model.name && column.nullable == model.nullable && column.primaryKey == model.primaryKey &&
    decide (column.references = model.references) && (columnType models model).any column.type.holds

/-- The sets of columns whose values are unique, by a constraint or by a unique index on all rows. -/
def uniqueKeys {T : Type} (table : TableSchema T) : List (List String) :=
  table.uniques ++ ((table.columns.filter Column.unique).map fun column => [column.name]) ++
    (table.indexes.filter fun index => index.unique && index.condition.isNone).map Index.columns

/-- An index of the name on the columns; whether values are unique is compared apart. -/
def indexed {T : Type} (table : TableSchema T) (index : Index) : Bool :=
  table.indexes.any fun other =>
    other.name == index.name && other.columns == index.columns && other.condition == index.condition

def sameTable (models : Schema (Option ColumnType)) (table : TableSchema ColumnType) (model : TableSchema (Option ColumnType)) : Bool :=
  table.columns.length == model.columns.length && (table.columns.zip model.columns).all (fun (column,other) => sameColumn models column other) &&
    (uniqueKeys table).all (uniqueKeys model).contains && (uniqueKeys model).all (uniqueKeys table).contains &&
    model.indexes.all (indexed table)

/-- The tables have the columns and the unique keys of the models, and the indexes that these declare. -/
def agrees (tables : Schema ColumnType) (models : Schema (Option ColumnType)) : Bool :=
  tables.length == models.length &&
    models.all fun model => (tables.find model.name).any fun table => sameTable models table model

theorem revisions_sound : sound revisions [] = true := by decide +kernel

theorem head_agrees : ((climb revisions []).any fun tables => agrees tables Models.models) = true := by decide +kernel

/-- Every upgrade and downgrade of a database succeeds. An upgrade keeps every row, and its downgrade gives back the
database that there was; a downgrade loses only the tables and columns that its schema does not have. -/
theorem migrations_walk {V : Type} {state : Versioned ColumnType V}
    (h : Transition.Reaches (step revisions) Transition.anyStep empty state) :
    (∀ target, state.version ≤ target → target ≤ revisions.length →
      ∃ upgraded, state.upgrade revisions target = some upgraded ∧ upgraded.db.rows = state.db.rows ∧
        upgraded.downgrade revisions state.version = some state) ∧
    (∀ target, target ≤ state.version →
      ∃ downgraded, state.downgrade revisions target = some downgraded ∧
        downgraded.db.rows = restrict downgraded.db.schema.layout state.db.rows) ∧
    (state.version = revisions.length → agrees state.db.schema Models.models = true) := by
  have hok : state.Ok revisions := run_ok revisions_sound h
  refine ⟨?_,?_,?_⟩
  · intro target hle htarget
    obtain ⟨upgraded,hup,-,-,hrows,hdown⟩ := hok.upgrade revisions_sound hle htarget
    exact ⟨upgraded,hup,hrows,hdown⟩
  · intro target hle
    obtain ⟨downgraded,hdown,-,-,hrows⟩ := hok.downgrade revisions_sound hle
    exact ⟨downgraded,hdown,hrows⟩
  · intro hhead
    have hclimb := hok.climb
    rw [hhead, List.take_length] at hclimb
    have hagrees := head_agrees
    rwa [hclimb, Option.any_some] at hagrees

theorem migrations_walk_empty :
    ((empty : Versioned ColumnType ℕ).version ≤ 3 ∧ 3 ≤ revisions.length) ∧
      ∃ upgraded, (empty : Versioned ColumnType ℕ).upgrade revisions 3 = some upgraded ∧
        upgraded.downgrade revisions 0 = some empty := by
  refine ⟨⟨by decide,by decide⟩,?_⟩
  obtain ⟨upgraded,hup,-,hdown⟩ :=
    (migrations_walk (.refl : Transition.Reaches (step revisions) Transition.anyStep (empty : Versioned ColumnType ℕ) empty)).1 3
      (by decide) (by decide)
  exact ⟨upgraded,hup,hdown⟩

end AgentGraph.Persistence.Migrations
