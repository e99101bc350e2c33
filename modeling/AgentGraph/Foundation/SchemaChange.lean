import AgentGraph.Foundation.Transition
import Mathlib.Logic.Function.Basic
import Mathlib.Data.List.Basic

/-! # Schemas that change under their rows

A change of a schema acts on the rows of every database that has it. The rows are kept by name,
so a table that is missing has none and a column that is missing is null everywhere: a change
restricts the rows to what the new schema has, and one that only adds leaves them as they are.
-/
set_option autoImplicit false
namespace AgentGraph.SchemaChange

inductive OnDelete
  | cascade | setNull | restrict
deriving DecidableEq

structure Reference where
  table : String
  column : String
  onDelete : OnDelete
deriving DecidableEq

structure Column (T : Type) where
  name : String
  type : T
  nullable : Bool
  primaryKey : Bool
  unique : Bool
  references : Option Reference
deriving DecidableEq

/-- A partial index has the rows in which a column has one of some values. -/
structure Index where
  name : String
  columns : List String
  unique : Bool
  condition : Option (String × List String)
deriving DecidableEq

structure TableSchema (T : Type) where
  name : String
  columns : List (Column T)
  uniques : List (List String)
  indexes : List Index
deriving DecidableEq

abbrev Schema (T : Type) := List (TableSchema T)

inductive Change (T : Type)
  | createTable (name : String) (columns : List (Column T)) (uniques : List (List String))
  | dropTable (name : String)
  | addColumn (table : String) (column : Column T)
  | dropColumn (table column : String)
  | createIndex (table : String) (index : Index)
  | dropIndex (name : String)

def Index.mentions (index : Index) : List String := index.columns ++ (index.condition.map Prod.fst).toList

namespace TableSchema
variable {T : Type}

def columnNames (table : TableSchema T) : List String := table.columns.map Column.name

/-- The column is bound by a key or an index. -/
def binds (table : TableSchema T) (column : String) : Bool :=
  (table.columns.any fun c => c.name == column && (c.primaryKey || c.unique || c.references.isSome)) ||
    (table.uniques.any fun unique => unique.contains column) || table.indexes.any fun index => index.mentions.contains column

end TableSchema

namespace Schema
variable {T : Type}

def find (schema : Schema T) (name : String) : Option (TableSchema T) := schema.find? fun table => table.name == name

def update (schema : Schema T) (name : String) (f : TableSchema T → TableSchema T) : Schema T :=
  schema.map fun table => if table.name = name then f table else table

/-- A column of another table, or of the table that is created, refers to the table. -/
def refersTo (columns : List (Column T)) (name : String) : Bool :=
  columns.any fun column => column.references.any fun reference => reference.table == name

/-- Each reference is to a primary key. -/
def closed (schema : Schema T) (columns : List (Column T)) : Bool :=
  columns.all fun column => column.references.all fun reference =>
    (schema.find reference.table).any fun table =>
      table.columns.any fun target => target.name == reference.column && target.primaryKey

end Schema

/-- The statement of a change; it fails where it cannot be executed or would touch another table. -/
def Change.schema {T : Type} (change : Change T) (schema : Schema T) : Option (Schema T) :=
  match change with
  | .createTable name columns uniques =>
    if (schema.find name).isSome || !decide (columns.map Column.name).Nodup || !schema.closed columns then none
    else some (schema ++ [⟨name,columns,uniques,[]⟩])
  | .dropTable name =>
    if (schema.find name).isNone ||
        schema.any fun table => table.name != name && Schema.refersTo table.columns name then none
    else some (schema.filter fun table => table.name != name)
  | .addColumn name column =>
    match schema.find name with
    | none => none
    | some table =>
      if table.columnNames.contains column.name || !column.nullable || column.primaryKey || column.unique ||
          column.references.isSome then none
      else some (schema.update name fun table => { table with columns := table.columns ++ [column] })
  | .dropColumn name column =>
    match schema.find name with
    | none => none
    | some table =>
      if !table.columnNames.contains column || table.binds column then none
      else some (schema.update name fun table => { table with columns := table.columns.filter fun c => c.name != column })
  | .createIndex name index =>
    match schema.find name with
    | none => none
    | some table =>
      if (schema.any fun table => table.indexes.any fun other => other.name == index.name) ||
          !(index.mentions.all fun column => table.columnNames.contains column) then none
      else some (schema.update name fun table => { table with indexes := table.indexes ++ [index] })
  | .dropIndex name =>
    if schema.any fun table => table.indexes.any fun index => index.name == name then
      some (schema.map fun table => { table with indexes := table.indexes.filter fun index => index.name != name })
    else none

def schemaAll {T : Type} : List (Change T) → Schema T → Option (Schema T)
  | [], schema => some schema
  | change :: rest, schema => (change.schema schema).bind (schemaAll rest)

/-! ## Rows -/

/-- The values of a row by column; `none` is null. -/
abbrev Row (V : Type) := String → Option V

abbrev Rows (V : Type) := String → List (Row V)

structure Database (T V : Type) where
  schema : Schema T
  rows : Rows V

section Rows
variable {T V : Type}

def Change.rows (change : Change T) (rows : Rows V) : Rows V :=
  match change with
  | .createTable name _ _ | .dropTable name => Function.update rows name []
  | .addColumn name column => Function.update rows name ((rows name).map fun row => Function.update row column.name none)
  | .dropColumn name column => Function.update rows name ((rows name).map fun row => Function.update row column none)
  | .createIndex _ _ | .dropIndex _ => rows

/-- The rows of the table may violate a unique index, unless there are none. -/
def Change.refused (change : Change T) (rows : Rows V) : Bool :=
  match change with
  | .createIndex name index => index.unique && !(rows name).isEmpty
  | _ => false

def Change.apply (change : Change T) (db : Database T V) : Option (Database T V) :=
  if change.refused db.rows then none else (change.schema db.schema).map fun schema => ⟨schema,change.rows db.rows⟩

def applyAll : List (Change T) → Database T V → Option (Database T V)
  | [], db => some db
  | change :: rest, db => (change.apply db).bind (applyAll rest)

end Rows

/-! ## Layouts -/

/-- The columns of each table that there is. -/
abbrev Layout := String → Option (List String)

def Schema.layout {T : Type} (schema : Schema T) : Layout := fun name => (schema.find name).map TableSchema.columnNames

section Layout
variable {V : Type} {layout layout' : Layout} {rows : Rows V}

def keep (columns : List String) (row : Row V) : Row V := fun column => if column ∈ columns then row column else none

def restrict (layout : Layout) (rows : Rows V) : Rows V := fun name =>
  match layout name with
  | none => []
  | some columns => (rows name).map (keep columns)

/-- There are no rows and no values but those that the layout has room for. -/
def Fits (layout : Layout) (rows : Rows V) : Prop := restrict layout rows = rows

/-- Every table and column of the one is one of the other. -/
def Layout.Sub (layout layout' : Layout) : Prop :=
  ∀ name columns, layout name = some columns → ∃ columns', layout' name = some columns' ∧ columns ⊆ columns'

theorem Layout.Sub.refl (layout : Layout) : layout.Sub layout := fun _ columns h => ⟨columns,h,fun _ hc => hc⟩

theorem Layout.Sub.trans {layout'' : Layout} (h : layout.Sub layout') (h' : layout'.Sub layout'') : layout.Sub layout'' := by
  intro name columns hcolumns
  obtain ⟨columns',hcolumns',hsub⟩ := h name columns hcolumns
  obtain ⟨columns'',hcolumns'',hsub'⟩ := h' name columns' hcolumns'
  exact ⟨columns'',hcolumns'',fun c hc => hsub' (hsub hc)⟩

theorem restrict_restrict (h : layout.Sub layout') (rows : Rows V) : restrict layout (restrict layout' rows) = restrict layout rows := by
  funext name
  unfold restrict
  cases hcolumns : layout name with
  | none => rfl
  | some columns =>
    obtain ⟨columns',hcolumns',hsub⟩ := h name columns hcolumns
    simp only [hcolumns', List.map_map]
    apply List.map_congr_left
    intro row _
    funext column
    simp only [Function.comp_apply, keep]
    by_cases hc : column ∈ columns
    · simp [hc, hsub hc]
    · simp [hc]

theorem fits_restrict (layout : Layout) (rows : Rows V) : Fits layout (restrict layout rows) :=
  restrict_restrict (Layout.Sub.refl layout) rows

theorem Fits.absent (h : Fits layout rows) {name : String} (hname : layout name = none) : rows name = [] := by
  rw [← h, restrict, hname]

theorem Fits.row (h : Fits layout rows) {name : String} {columns : List String} (hname : layout name = some columns) {row : Row V}
    (hrow : row ∈ rows name) : keep columns row = row := by
  rw [← h, restrict, hname] at hrow
  obtain ⟨original,-,rfl⟩ := List.mem_map.mp hrow
  funext column
  simp only [keep]
  split <;> rfl

/-- One table takes another layout. -/
theorem restrict_update (h : Fits layout rows) (name : String) (columns : Option (List String)) :
    restrict (Function.update layout name columns) rows =
      Function.update rows name (match columns with
        | none => []
        | some columns => (rows name).map (keep columns)) := by
  funext other
  by_cases hother : other = name
  · subst hother
    rw [Function.update_self, restrict, Function.update_self]
  · rw [Function.update_of_ne hother, restrict, Function.update_of_ne hother]
    exact congrFun h other

end Layout

/-! ## What a change does to the layout -/

section Changes
variable {T V : Type} {schema schema' : Schema T} {name : String} {change : Change T} {rows : Rows V}

theorem find_update {f : TableSchema T → TableSchema T} (hf : ∀ table, (f table).name = table.name) (other : String) :
    (schema.update name f).find other = (schema.find other).map fun table => if other = name then f table else table := by
  unfold Schema.find Schema.update
  induction schema with
  | nil => rfl
  | cons table rest ih =>
    have hname : (if table.name = name then f table else table).name = table.name := by split <;> simp [hf]
    simp only [List.map_cons, List.find?_cons, hname]
    by_cases hother : table.name = other
    · simp [hother]
    · simp [beq_eq_false_iff_ne.mpr hother, ih]

theorem layout_update {f : TableSchema T → TableSchema T} {columns : List String} {table : TableSchema T}
    (hf : ∀ table, (f table).name = table.name) (htable : schema.find name = some table)
    (hcolumns : (f table).columnNames = columns) :
    (schema.update name f).layout = Function.update schema.layout name (some columns) := by
  funext other
  unfold Schema.layout
  rw [find_update hf]
  by_cases hother : other = name
  · subst hother
    simp [htable, hcolumns]
  · rw [Function.update_of_ne hother]
    cases schema.find other <;> simp [hother]

theorem layout_append {table : TableSchema T} (h : schema.find table.name = none) :
    (schema ++ [table]).layout = Function.update schema.layout table.name (some table.columnNames) := by
  funext other
  unfold Schema.layout Schema.find at *
  rw [List.find?_append]
  by_cases hother : other = table.name
  · subst hother
    rw [h, Function.update_self]
    simp
  · rw [Function.update_of_ne hother]
    simp [beq_eq_false_iff_ne.mpr (Ne.symm hother)]

theorem layout_filter (schema : Schema T) (name : String) :
    Schema.layout (schema.filter fun table => table.name != name) = Function.update schema.layout name none := by
  funext other
  unfold Schema.layout Schema.find
  rw [List.find?_filter]
  by_cases hother : other = name
  · subst hother
    rw [Function.update_self]
    rw [Option.map_eq_none_iff, List.find?_eq_none]
    intro table _
    simp
  · rw [Function.update_of_ne hother]
    congr 2
    funext table
    by_cases htable : table.name = other
    · simp [htable, hother]
    · simp [htable]

theorem layout_map {f : TableSchema T → TableSchema T} (hname : ∀ table, (f table).name = table.name)
    (hcolumns : ∀ table, (f table).columns = table.columns) : Schema.layout (schema.map f) = schema.layout := by
  funext other
  unfold Schema.layout Schema.find
  induction schema with
  | nil => rfl
  | cons table rest ih =>
    simp only [List.map_cons, List.find?_cons, hname]
    split
    · simp [TableSchema.columnNames, hcolumns]
    · exact ih

end Changes

/-! ## One change

What a change does to the layout of its schema is said once, and the rows are judged by that.
-/

section OneChange
variable {T V : Type} {schema schema' : Schema T} {change : Change T} {rows : Rows V}

def Change.layout (change : Change T) (layout : Layout) : Layout :=
  match change with
  | .createTable name columns _ => Function.update layout name (some (columns.map Column.name))
  | .dropTable name => Function.update layout name none
  | .addColumn name column => Function.update layout name ((layout name).map fun columns => columns ++ [column.name])
  | .dropColumn name column => Function.update layout name ((layout name).map fun columns => columns.filter (· != column))
  | .createIndex _ _ | .dropIndex _ => layout

variable {layout : Layout}

/-- What is added was not there. -/
def Change.New (change : Change T) (layout : Layout) : Prop :=
  match change with
  | .createTable name _ _ => layout name = none
  | .addColumn name column => ∃ columns, layout name = some columns ∧ column.name ∉ columns
  | .dropColumn name _ => ∃ columns, layout name = some columns
  | .dropTable _ | .createIndex _ _ | .dropIndex _ => True

theorem Change.schema_cases (h : change.schema schema = some schema') :
    change.New schema.layout ∧ schema'.layout = change.layout schema.layout := by
  cases change with
  | createTable name columns uniques =>
    simp only [Change.schema] at h
    split at h <;> cases h
    next hok =>
      have hnone : schema.find name = none := by
        cases hfind : schema.find name with
        | none => rfl
        | some table => simp [hfind] at hok
      constructor
      · rw [Change.New, Schema.layout, hnone, Option.map_none]
      · exact @layout_append T schema ⟨name,columns,uniques,[]⟩ hnone
  | dropTable name =>
    simp only [Change.schema] at h
    split at h <;> cases h
    exact ⟨trivial,layout_filter schema name⟩
  | addColumn name column =>
    simp only [Change.schema] at h
    split at h
    · cases h
    next table htable =>
      split at h <;> cases h
      next hok =>
        have hcolumns : schema.layout name = some table.columnNames := by rw [Schema.layout, htable, Option.map_some]
        constructor
        · refine ⟨table.columnNames,hcolumns,?_⟩
          intro hmem
          simp [hmem] at hok
        · rw [Change.layout, hcolumns, Option.map_some]
          exact layout_update (fun _ => rfl) htable (by simp [TableSchema.columnNames])
  | dropColumn name column =>
    simp only [Change.schema] at h
    split at h
    · cases h
    next table htable =>
      split at h <;> cases h
      have hcolumns : schema.layout name = some table.columnNames := by rw [Schema.layout, htable, Option.map_some]
      constructor
      · exact ⟨table.columnNames,hcolumns⟩
      · rw [Change.layout, hcolumns, Option.map_some]
        exact layout_update (fun _ => rfl) htable (by simp [TableSchema.columnNames, List.filter_map, Function.comp_def])
  | createIndex name index =>
    simp only [Change.schema] at h
    split at h
    · cases h
    next table htable =>
      split at h <;> cases h
      constructor
      · trivial
      · unfold Schema.update
        apply layout_map
        · intro other
          split <;> rfl
        · intro other
          split <;> rfl
  | dropIndex name =>
    simp only [Change.schema] at h
    split at h <;> cases h
    exact ⟨trivial,layout_map (fun _ => rfl) fun _ => rfl⟩

/-- The rows are restricted to the new layout. -/
theorem Change.rows_eq_restrict (hnew : change.New layout) (h : Fits layout rows) :
    change.rows rows = restrict (change.layout layout) rows := by
  cases change with
  | createTable name columns uniques =>
    rw [Change.layout, restrict_update h, Change.rows, h.absent hnew]
    rfl
  | dropTable name => rw [Change.layout, restrict_update h, Change.rows]
  | addColumn name column =>
    obtain ⟨columns,hcolumns,hcolumn⟩ := hnew
    rw [Change.layout, hcolumns, Option.map_some, restrict_update h, Change.rows]
    congr 1
    apply List.map_congr_left
    intro row hrow
    funext c
    have hvalue := congrFun (h.row hcolumns hrow) c
    simp only [keep] at hvalue ⊢
    by_cases hc : c = column.name
    · subst hc
      simpa [hcolumn] using hvalue
    · simpa [hc] using hvalue.symm
  | dropColumn name column =>
    obtain ⟨columns,hcolumns⟩ := hnew
    rw [Change.layout, hcolumns, Option.map_some, restrict_update h, Change.rows]
    congr 1
    apply List.map_congr_left
    intro row hrow
    funext c
    have hvalue := congrFun (h.row hcolumns hrow) c
    simp only [keep] at hvalue ⊢
    by_cases hc : c = column
    · subst hc
      simp
    · simpa [hc] using hvalue.symm
  | createIndex _ _ => exact h.symm
  | dropIndex _ => exact h.symm

def Change.grows : Change T → Bool
  | .createTable _ _ _ | .addColumn _ _ | .createIndex _ _ => true
  | .dropTable _ | .dropColumn _ _ | .dropIndex _ => false

theorem Layout.sub_update {name : String} {columns : List String}
    (h : ∀ old, layout name = some old → old ⊆ columns) : layout.Sub (Function.update layout name (some columns)) := by
  intro other old hother
  by_cases hname : other = name
  · subst hname
    exact ⟨columns,Function.update_self ..,h old hother⟩
  · exact ⟨old,by rw [Function.update_of_ne hname, hother],List.Subset.refl old⟩

theorem Layout.update_sub {name : String} {columns : Option (List String)}
    (h : ∀ new, columns = some new → ∃ old, layout name = some old ∧ new ⊆ old) :
    (Layout.Sub (Function.update layout name columns) layout) := by
  intro other new hother
  by_cases hname : other = name
  · subst hname
    rw [Function.update_self] at hother
    exact h new hother
  · rw [Function.update_of_ne hname] at hother
    exact ⟨new,hother,List.Subset.refl new⟩

theorem Change.sub_of_grows (hnew : change.New layout) (hgrows : change.grows) : layout.Sub (change.layout layout) := by
  cases change with
  | createTable name columns uniques =>
    apply Layout.sub_update
    intro old hold
    rw [show layout name = none from hnew] at hold
    cases hold
  | addColumn name column =>
    obtain ⟨columns,hcolumns,-⟩ := hnew
    rw [Change.layout, hcolumns, Option.map_some]
    apply Layout.sub_update
    intro old hold
    rw [hcolumns] at hold
    cases hold
    exact List.subset_append_left columns [column.name]
  | createIndex _ _ => exact Layout.Sub.refl layout
  | dropTable _ => cases hgrows
  | dropColumn _ _ => cases hgrows
  | dropIndex _ => cases hgrows

theorem Change.sub_of_not_grows (hnew : change.New layout) (hgrows : change.grows = false) :
    (change.layout layout).Sub layout := by
  cases change with
  | dropTable name =>
    apply Layout.update_sub
    intro new h
    cases h
  | dropColumn name column =>
    obtain ⟨columns,hcolumns⟩ := hnew
    rw [Change.layout, hcolumns, Option.map_some]
    apply Layout.update_sub
    intro new h
    cases h
    exact ⟨columns,hcolumns,List.filter_subset_self columns⟩
  | dropIndex _ => exact Layout.Sub.refl layout
  | createTable _ _ _ => cases hgrows
  | addColumn _ _ => cases hgrows
  | createIndex _ _ => cases hgrows

end OneChange

/-! ## Lists of changes -/

section Changes
variable {T V : Type} {schema schema' : Schema T} {rows : Rows V} {changes : List (Change T)}

theorem schemaAll_cons {change : Change T} (h : schemaAll (change :: changes) schema = some schema') :
    ∃ between, change.schema schema = some between ∧ schemaAll changes between = some schema' :=
  Option.bind_eq_some_iff.mp h

/-- A unique index is on a table that the schema does not have yet. -/
def Change.fresh (schema : Schema T) : Change T → Bool
  | .createIndex name index => !index.unique || (schema.find name).isNone
  | _ => true

theorem Change.not_refused {change : Change T} (h : change.fresh schema) (hfits : Fits schema.layout rows) :
    change.refused rows = false := by
  cases change with
  | createIndex name index =>
    simp only [Change.fresh, Bool.or_eq_true, Bool.not_eq_true', Option.isNone_iff_eq_none] at h
    rw [Change.refused]
    cases h with
    | inl hplain => rw [hplain, Bool.false_and]
    | inr hnone =>
      have habsent : rows name = [] := hfits.absent (by rw [Schema.layout, hnone, Option.map_none])
      rw [habsent, List.isEmpty_nil, Bool.not_true, Bool.and_false]
  | _ => rfl

theorem fits_mono {layout layout' : Layout} (h : Fits layout rows) (hsub : layout.Sub layout') : Fits layout' rows := by
  funext name
  rw [restrict]
  cases hcolumns' : layout' name with
  | none =>
    cases hcolumns : layout name with
    | none => exact (h.absent hcolumns).symm
    | some columns =>
      obtain ⟨columns',hsome,-⟩ := hsub name columns hcolumns
      rw [hsome] at hcolumns'
      cases hcolumns'
  | some columns' =>
    cases hcolumns : layout name with
    | none =>
      rw [h.absent hcolumns]
      rfl
    | some columns =>
      obtain ⟨bigger,hsome,hcs⟩ := hsub name columns hcolumns
      have hsame : bigger = columns' := Option.some.inj (hsome.symm.trans hcolumns')
      subst hsame
      calc (rows name).map (keep bigger)
        _ = (rows name).map id := by
          apply List.map_congr_left
          intro row hrow
          funext c
          have hvalue := congrFun (h.row hcolumns hrow) c
          simp only [keep] at hvalue ⊢
          by_cases hc : c ∈ columns
          · rw [if_pos (hcs hc), id]
          · rw [if_neg hc] at hvalue
            rw [← hvalue, id, ← hvalue, ite_self]
        _ = rows name := List.map_id _

/-- Changes that add leave every row as it is. -/
theorem applyAll_grows (h : schemaAll changes schema = some schema') (hgrows : ∀ change ∈ changes, change.grows)
    (hfits : Fits schema.layout rows) (hnot : ∀ change ∈ changes, change.refused rows = false) :
    applyAll changes ⟨schema,rows⟩ = some ⟨schema',rows⟩ ∧ schema.layout.Sub schema'.layout := by
  induction changes generalizing schema with
  | nil =>
    cases h
    exact ⟨rfl,Layout.Sub.refl _⟩
  | cons change rest ih =>
    obtain ⟨between,hchange,hrest⟩ := schemaAll_cons h
    obtain ⟨hnew,hlayout⟩ := Change.schema_cases hchange
    have hsub : schema.layout.Sub between.layout := by
      rw [hlayout]
      exact Change.sub_of_grows hnew (hgrows change List.mem_cons_self)
    have hfits' : Fits between.layout rows := fits_mono hfits hsub
    have hrows : change.rows rows = rows := by
      rw [Change.rows_eq_restrict hnew hfits, ← hlayout]
      exact hfits'
    obtain ⟨hall,hsub'⟩ := ih hrest (fun c hc => hgrows c (List.mem_cons_of_mem _ hc)) hfits'
      fun c hc => hnot c (List.mem_cons_of_mem _ hc)
    constructor
    · rw [applyAll, Change.apply, hnot change List.mem_cons_self, hchange]
      simpa [hrows] using hall
    · exact hsub.trans hsub'

/-- Changes that take away restrict the rows to what is left. -/
theorem applyAll_shrinks (h : schemaAll changes schema = some schema') (hshrinks : ∀ change ∈ changes, change.grows = false)
    (hfits : Fits schema.layout rows) :
    applyAll changes ⟨schema,rows⟩ = some ⟨schema',restrict schema'.layout rows⟩ ∧ schema'.layout.Sub schema.layout := by
  induction changes generalizing schema rows with
  | nil =>
    obtain rfl : schema = schema' := Option.some.inj h
    have hrows : restrict schema.layout rows = rows := hfits
    constructor
    · rw [hrows]
      rfl
    · exact Layout.Sub.refl _
  | cons change rest ih =>
    obtain ⟨between,hchange,hrest⟩ := schemaAll_cons h
    obtain ⟨hnew,hlayout⟩ := Change.schema_cases hchange
    have hshrink := hshrinks change List.mem_cons_self
    have hsub : between.layout.Sub schema.layout := by
      rw [hlayout]
      exact Change.sub_of_not_grows hnew hshrink
    have hrows : change.rows rows = restrict between.layout rows := by
      rw [hlayout]
      exact Change.rows_eq_restrict hnew hfits
    have hnot : change.refused rows = false := by
      cases change with
      | createIndex _ _ => cases hshrink
      | _ => rfl
    obtain ⟨hall,hsub'⟩ := ih hrest (fun c hc => hshrinks c (List.mem_cons_of_mem _ hc)) (fits_restrict between.layout rows)
    rw [restrict_restrict hsub'] at hall
    constructor
    · rw [applyAll, Change.apply, hnot, hchange]
      simpa [hrows] using hall
    · exact hsub'.trans hsub

end Changes

/-! ## Revisions

The revisions of a schema are in a line: each one is upgraded to from the one before it, and
downgraded from to it.
-/

structure Revision (T : Type) where
  upgrade : List (Change T)
  downgrade : List (Change T)

section Revisions
variable {T V : Type}

/-- The schema after the upgrades, in their order. -/
def climb : List (Revision T) → Schema T → Option (Schema T)
  | [], schema => some schema
  | revision :: rest, schema => (schemaAll revision.upgrade schema).bind (climb rest)

/-- Upgrades only add, a downgrade gives back the schema before the upgrade, and none fails. -/
def sound [DecidableEq T] : List (Revision T) → Schema T → Bool
  | [], _ => true
  | revision :: rest, schema =>
    match schemaAll revision.upgrade schema with
    | none => false
    | some schema' =>
      revision.upgrade.all (fun change => change.grows && change.fresh schema) &&
        revision.downgrade.all (fun change => !change.grows) &&
        decide (schemaAll revision.downgrade schema' = some schema) && sound rest schema'

def upgradeAll : List (Revision T) → Database T V → Option (Database T V)
  | [], db => some db
  | revision :: rest, db => (applyAll revision.upgrade db).bind (upgradeAll rest)

/-- The last revision is the first that is left. -/
def downgradeAll : List (Revision T) → Database T V → Option (Database T V)
  | [], db => some db
  | revision :: rest, db => (downgradeAll rest db).bind (applyAll revision.downgrade)

/-- A database that knows how many of the revisions it has. -/
structure Versioned (T V : Type) where
  version : ℕ
  db : Database T V

def Versioned.upgrade (revisions : List (Revision T)) (target : ℕ) (state : Versioned T V) : Option (Versioned T V) :=
  if target ≤ revisions.length then
    (upgradeAll ((revisions.take target).drop state.version) state.db).map fun db => ⟨max state.version target,db⟩
  else none

def Versioned.downgrade (revisions : List (Revision T)) (target : ℕ) (state : Versioned T V) : Option (Versioned T V) :=
  if target ≤ state.version then
    (downgradeAll ((revisions.take state.version).drop target) state.db).map fun db => ⟨target,db⟩
  else none

inductive Label (V : Type)
  | upgrade (target : ℕ)
  | downgrade (target : ℕ)
  | write (rows : Rows V)

/-- What is written has the tables and columns that there are. -/
def step (revisions : List (Revision T)) : Label V → Versioned T V → Option (Versioned T V)
  | .upgrade target, state => state.upgrade revisions target
  | .downgrade target, state => state.downgrade revisions target
  | .write rows, state => some { state with db := ⟨state.db.schema,restrict state.db.schema.layout rows⟩ }

def empty : Versioned T V := ⟨0,⟨[],fun _ => []⟩⟩

variable {revisions : List (Revision T)} {schema schema' : Schema T} {rows : Rows V}

theorem climb_append (before after : List (Revision T)) (schema : Schema T) :
    climb (before ++ after) schema = (climb before schema).bind (climb after) := by
  induction before generalizing schema with
  | nil => rfl
  | cons revision rest ih =>
    rw [List.cons_append, climb, climb, Option.bind_assoc]
    apply Option.bind_congr
    intro between _
    exact ih between

section Sound
variable [DecidableEq T]

structure SoundRevision (revision : Revision T) (schema schema' : Schema T) : Prop where
  upgrade : schemaAll revision.upgrade schema = some schema'
  downgrade : schemaAll revision.downgrade schema' = some schema
  grows : ∀ change ∈ revision.upgrade, change.grows
  fresh : ∀ change ∈ revision.upgrade, change.fresh schema
  shrinks : ∀ change ∈ revision.downgrade, change.grows = false

theorem sound_cons {revision : Revision T} {rest : List (Revision T)} (h : sound (revision :: rest) schema) :
    ∃ schema', SoundRevision revision schema schema' ∧ sound rest schema' := by
  rw [sound] at h
  split at h
  · cases h
  next schema' hup =>
    simp only [Bool.and_eq_true, List.all_eq_true, decide_eq_true_eq, Bool.not_eq_true'] at h
    obtain ⟨⟨⟨hadds,hdrops⟩,hdown⟩,hrest⟩ := h
    exact ⟨schema',⟨hup,hdown,fun c hc => (hadds c hc).1,fun c hc => (hadds c hc).2,hdrops⟩,hrest⟩

theorem sound_append {before after : List (Revision T)} (h : sound (before ++ after) schema) :
    sound before schema ∧ ∃ schema', climb before schema = some schema' ∧ sound after schema' := by
  induction before generalizing schema with
  | nil => exact ⟨rfl,schema,rfl,h⟩
  | cons revision rest ih =>
    obtain ⟨between,hrevision,hrest⟩ := sound_cons h
    obtain ⟨hsound,schema',hclimb,hafter⟩ := ih hrest
    constructor
    · simp only [sound, hrevision.upgrade, Bool.and_eq_true, List.all_eq_true, decide_eq_true_eq, Bool.not_eq_true']
      exact ⟨⟨⟨fun c hc => ⟨hrevision.grows c hc,hrevision.fresh c hc⟩,hrevision.shrinks⟩,hrevision.downgrade⟩,hsound⟩
    · exact ⟨schema',by rw [climb, hrevision.upgrade, Option.bind_some, hclimb],hafter⟩

theorem upgradeAll_sound (h : sound revisions schema) (hfits : Fits schema.layout rows) :
    ∃ schema', climb revisions schema = some schema' ∧ upgradeAll revisions ⟨schema,rows⟩ = some ⟨schema',rows⟩ ∧
      schema.layout.Sub schema'.layout := by
  induction revisions generalizing schema with
  | nil => exact ⟨schema,rfl,rfl,Layout.Sub.refl _⟩
  | cons revision rest ih =>
    obtain ⟨between,hrevision,hrest⟩ := sound_cons h
    obtain ⟨hall,hsub⟩ := applyAll_grows hrevision.upgrade hrevision.grows hfits
      fun c hc => Change.not_refused (hrevision.fresh c hc) hfits
    obtain ⟨schema',hclimb,hup,hsub'⟩ := ih hrest (fits_mono hfits hsub)
    refine ⟨schema',?_,?_,hsub.trans hsub'⟩
    · rw [climb, hrevision.upgrade, Option.bind_some, hclimb]
    · rw [upgradeAll, hall, Option.bind_some, hup]

theorem downgradeAll_sound (h : sound revisions schema) (hclimb : climb revisions schema = some schema')
    (hfits : Fits schema'.layout rows) :
    downgradeAll revisions ⟨schema',rows⟩ = some ⟨schema,restrict schema.layout rows⟩ ∧
      schema.layout.Sub schema'.layout := by
  induction revisions generalizing schema with
  | nil =>
    obtain rfl : schema = schema' := Option.some.inj hclimb
    have hrows : restrict schema.layout rows = rows := hfits
    rw [hrows]
    exact ⟨rfl,Layout.Sub.refl _⟩
  | cons revision rest ih =>
    obtain ⟨between,hrevision,hrest⟩ := sound_cons h
    rw [climb, hrevision.upgrade, Option.bind_some] at hclimb
    obtain ⟨hdown,hsub⟩ := ih hrest hclimb
    obtain ⟨hall,hsub'⟩ := applyAll_shrinks hrevision.downgrade hrevision.shrinks (fits_restrict between.layout rows)
    constructor
    · rw [downgradeAll, hdown, Option.bind_some, hall, restrict_restrict hsub']
    · exact hsub'.trans hsub

/-- The schema is that of the version, and the rows have room in it. -/
structure Versioned.Ok (revisions : List (Revision T)) (state : Versioned T V) : Prop where
  version_le : state.version ≤ revisions.length
  climb : SchemaChange.climb (revisions.take state.version) [] = some state.db.schema
  fits : Fits state.db.schema.layout state.db.rows

omit [DecidableEq T] in
theorem empty_ok : (empty : Versioned T V).Ok revisions where
  version_le := Nat.zero_le _
  climb := rfl
  fits := rfl

/-- Two versions, and the revisions between them. -/
theorem sound_between {low high : ℕ} (h : sound revisions []) (hle : low ≤ high) :
    ∃ schema schema', climb (revisions.take low) [] = some schema ∧ climb (revisions.take high) [] = some schema' ∧
      sound ((revisions.take high).drop low) schema ∧ climb ((revisions.take high).drop low) schema = some schema' := by
  have htake : revisions.take low ++ (revisions.take high).drop low = revisions.take high := by
    have h := List.take_append_drop low (revisions.take high)
    rwa [List.take_take, Nat.min_eq_left hle] at h
  have hsound : sound (revisions.take high) [] := by
    rw [← List.take_append_drop high revisions] at h
    exact (sound_append h).1
  rw [← htake] at hsound
  obtain ⟨-,schema,hclimb,hbetween⟩ := sound_append hsound
  obtain ⟨schema',hclimb',-⟩ := upgradeAll_sound hbetween (fits_restrict schema.layout fun _ => ([] : List (Row Unit)))
  exact ⟨schema,schema',hclimb,by rw [← htake, climb_append, hclimb, Option.bind_some, hclimb'],hbetween,hclimb'⟩

/-- An upgrade leaves the rows, and the downgrade from it gives back the database. -/
theorem Versioned.Ok.upgrade {state : Versioned T V} (h : state.Ok revisions) (hsound : sound revisions []) {target : ℕ}
    (hle : state.version ≤ target) (htarget : target ≤ revisions.length) :
    ∃ state', state.upgrade revisions target = some state' ∧ state'.Ok revisions ∧ state'.version = target ∧
      state'.db.rows = state.db.rows ∧ state'.downgrade revisions state.version = some state := by
  obtain ⟨version,schema,rows⟩ := state
  obtain ⟨low,high,hlow,hhigh,hbetween,hclimb⟩ := sound_between hsound hle
  obtain rfl : schema = low := Option.some.inj (h.climb.symm.trans hlow)
  obtain ⟨reached,hreached,hup,hsub⟩ := upgradeAll_sound hbetween h.fits
  obtain rfl : reached = high := Option.some.inj (hreached.symm.trans hclimb)
  have hfits : Fits reached.layout rows := fits_mono h.fits hsub
  refine ⟨⟨target,reached,rows⟩,?_,⟨htarget,hhigh,hfits⟩,rfl,rfl,?_⟩
  · rw [Versioned.upgrade, if_pos htarget, hup, Option.map_some, Nat.max_eq_right hle]
  · obtain ⟨hdown,-⟩ := downgradeAll_sound hbetween hclimb hfits
    have hrows : restrict schema.layout rows = rows := h.fits
    rw [Versioned.downgrade, if_pos hle, hdown, Option.map_some, hrows]

/-- A downgrade keeps what its schema has room for. -/
theorem Versioned.Ok.downgrade {state : Versioned T V} (h : state.Ok revisions) (hsound : sound revisions []) {target : ℕ}
    (hle : target ≤ state.version) :
    ∃ state', state.downgrade revisions target = some state' ∧ state'.Ok revisions ∧ state'.version = target ∧
      state'.db.rows = restrict state'.db.schema.layout state.db.rows := by
  obtain ⟨version,schema,rows⟩ := state
  obtain ⟨low,high,hlow,hhigh,hbetween,hclimb⟩ := sound_between hsound hle
  obtain rfl : schema = high := Option.some.inj (h.climb.symm.trans hhigh)
  obtain ⟨hdown,-⟩ := downgradeAll_sound hbetween hclimb h.fits
  refine ⟨⟨target,low,restrict low.layout rows⟩,?_,⟨Nat.le_trans hle h.version_le,hlow,fits_restrict low.layout rows⟩,rfl,rfl⟩
  rw [Versioned.downgrade, if_pos hle, hdown, Option.map_some]

theorem step_ok (hsound : sound revisions []) {label : Label V} {state state' : Versioned T V}
    (h : state.Ok revisions) (hstep : step revisions label state = some state') : state'.Ok revisions := by
  cases label with
  | upgrade target =>
    by_cases htarget : target ≤ revisions.length
    · by_cases hle : state.version ≤ target
      · obtain ⟨after,hafter,hok,-⟩ := h.upgrade hsound hle htarget
        obtain rfl : after = state' := Option.some.inj (hafter.symm.trans hstep)
        exact hok
      · have hnone : (revisions.take target).drop state.version = [] := by
          apply List.drop_eq_nil_of_le
          rw [List.length_take]
          omega
        rw [step, Versioned.upgrade, if_pos htarget, hnone, upgradeAll, Option.map_some, Nat.max_eq_left (by omega)] at hstep
        cases hstep
        exact h
    · rw [step, Versioned.upgrade, if_neg htarget] at hstep
      cases hstep
  | downgrade target =>
    by_cases hle : target ≤ state.version
    · obtain ⟨after,hafter,hok,-⟩ := h.downgrade hsound hle
      obtain rfl : after = state' := Option.some.inj (hafter.symm.trans hstep)
      exact hok
    · rw [step, Versioned.downgrade, if_neg hle] at hstep
      cases hstep
  | write rows =>
    cases hstep
    exact ⟨h.version_le,h.climb,fits_restrict state.db.schema.layout rows⟩

theorem run_ok (hsound : sound revisions []) {state : Versioned T V}
    (h : Transition.Reaches (step revisions) Transition.anyStep empty state) : state.Ok revisions :=
  h.invariant (fun _ _ _ hok _ hstep => step_ok hsound hok hstep) empty_ok

end Sound
end Revisions

end AgentGraph.SchemaChange
