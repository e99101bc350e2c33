import AgentGraph.Domain.Text
import Mathlib.Data.List.Nodup
import Mathlib.Data.List.Sort
import Mathlib.Data.Prod.Lex

/-! # Memory records and their repository

A record is scoped by its project and agent. Its `updated_at` is the naive wall clock,
in microseconds, that the column gives back, and identifiers are numbered in the order
of their texts.
-/
set_option autoImplicit false
namespace AgentGraph.Memory

abbrev MemoryId := ℕ
abbrev AgentId := ℕ
abbrev RunId := ℕ

inductive MemoryKind
  | fact | preference | note | summary
deriving DecidableEq, Repr

/-- `MemoryError`. -/
structure MemoryError where
  code : String
  message : String
deriving DecidableEq

structure Settings where
  memoryEnabled : Bool
  maxContentChars : ℕ
  maxTags : ℕ
  maxTagChars : ℕ
  maxResults : ℕ
  maxContextChars : ℕ
  maxResults_pos : 0 < maxResults
  maxContextChars_pos : 0 < maxContextChars

structure Scope where
  projectId : String
  agentId : AgentId
deriving DecidableEq

structure MemoryRecord where
  id : MemoryId
  scope : Scope
  kind : MemoryKind
  content : String
  tags : List String
  createdAt : ℤ
  updatedAt : ℤ
  deletedAt : Option ℤ
  content_pos : 0 < content.length
deriving DecidableEq

/-- The table of memory records, under its primary key. -/
structure MemoryDb where
  records : List MemoryRecord
  ids : (records.map MemoryRecord.id).Nodup

def MemoryRecord.inScope (scope : Scope) (record : MemoryRecord) : Bool :=
  record.scope == scope && record.deletedAt.isNone

/-- The order of `list_for_scope` is descending in this key. -/
def MemoryRecord.recency (record : MemoryRecord) : ℤ ×ₗ ℕ := toLex (record.updatedAt,record.id)

namespace MemoryDb

def live (db : MemoryDb) (scope : Scope) : List MemoryRecord := db.records.filter (MemoryRecord.inScope scope)

/-- `list_for_scope`. -/
def listForScope (db : MemoryDb) (scope : Scope) (limit : Option ℕ) : List MemoryRecord :=
  let records := (db.live scope).insertionSort fun a b => b.recency ≤ a.recency
  match limit with
  | none => records
  | some limit => records.take limit

/-- `get_for_scope`. -/
def getForScope (db : MemoryDb) (memoryId : MemoryId) (scope : Scope) : Option MemoryRecord :=
  db.records.find? fun record => record.id == memoryId && record.inScope scope

/-- `INSERT` of a record under a fresh identifier. -/
def insert (db : MemoryDb) (record : MemoryRecord) (h : ∀ other ∈ db.records, other.id ≠ record.id) : MemoryDb where
  records := db.records ++ [record]
  ids := by
    rw [List.map_append,List.nodup_append]
    refine ⟨db.ids,List.nodup_singleton _,fun a ha b hb => ?_⟩
    obtain ⟨other,hother,rfl⟩ := List.mem_map.mp ha
    obtain rfl : b = record.id := by simpa using hb
    exact h other hother

/-- The `UPDATE` of `delete`; the column `updated_at` follows each update. -/
def markDeleted (db : MemoryDb) (memoryId : MemoryId) (deletedAt updatedAt : ℤ) : MemoryDb where
  records := db.records.map fun record =>
    if record.id = memoryId then { record with deletedAt := some deletedAt, updatedAt := updatedAt } else record
  ids := by
    rw [List.map_map]
    refine (congrArg List.Nodup (List.map_congr_left fun record _ => ?_)).mp db.ids
    dsimp only [Function.comp]
    split <;> rfl

variable {db : MemoryDb} {scope : Scope}

theorem mem_live {record : MemoryRecord} :
    record ∈ db.live scope ↔ record ∈ db.records ∧ record.scope = scope ∧ record.deletedAt = none := by
  simp [live,MemoryRecord.inScope]

theorem live_ids (db : MemoryDb) (scope : Scope) : ((db.live scope).map MemoryRecord.id).Nodup :=
  db.ids.sublist (List.filter_sublist.map _)

theorem getForScope_isSome {memoryId : MemoryId} :
    (db.getForScope memoryId scope).isSome = true ↔ ∃ record ∈ db.live scope, record.id = memoryId := by
  simp only [getForScope, List.find?_isSome, Bool.and_eq_true, beq_iff_eq, live, List.mem_filter]
  exact ⟨fun ⟨r,hr,hid,hin⟩ => ⟨r,⟨hr,hin⟩,hid⟩,fun ⟨r,⟨hr,hin⟩,hid⟩ => ⟨r,hr,hid,hin⟩⟩

theorem getForScope_some {memoryId : MemoryId} {record : MemoryRecord} (h : db.getForScope memoryId scope = some record) :
    record ∈ db.live scope ∧ record.id = memoryId := by
  have hmem := List.mem_of_find?_eq_some h
  have hp := List.find?_some h
  simp only [Bool.and_eq_true, beq_iff_eq] at hp
  exact ⟨List.mem_filter.mpr ⟨hmem,hp.2⟩,hp.1⟩

end MemoryDb

/-! ## `MemoryService.create` -/

/-- `_normalize_tags` from the tags that are left and those that are kept. -/
def normalizeTagsFrom (settings : Settings) : List String → List String → Except MemoryError (List String)
  | [], normalized => .ok normalized
  | tag :: tags, normalized =>
    let value := strip tag
    if value = "" ∨ settings.maxTagChars < value.length then .error ⟨"memory_invalid","Memory tag is invalid"⟩
    else normalizeTagsFrom settings tags (if value ∈ normalized then normalized else normalized ++ [value])

def normalizeTags (settings : Settings) (tags : List String) : Except MemoryError (List String) :=
  if settings.maxTags < tags.length then .error ⟨"memory_invalid","Too many memory tags"⟩
  else normalizeTagsFrom settings tags []

def requireEnabled (settings : Settings) : Except MemoryError Unit :=
  if settings.memoryEnabled then .ok () else .error ⟨"memory_disabled","Memory is disabled by server configuration"⟩

/-- The record that `create` inserts, under the identifier and at the time it draws. -/
def create (settings : Settings) (scope : Scope) (kind : MemoryKind) (content : String) (tags : List String)
    (newId : MemoryId) (now : ℤ) : Except MemoryError MemoryRecord :=
  let normalized := strip content
  match requireEnabled settings with
  | .error e => .error e
  | .ok () =>
    if h : normalized.length = 0 then .error ⟨"memory_invalid","Memory content must not be empty"⟩
    else if settings.maxContentChars < normalized.length then
      .error ⟨"memory_too_large","Memory content exceeds the configured limit"⟩
    else
      match normalizeTags settings tags with
      | .error e => .error e
      | .ok tags => .ok ⟨newId,scope,kind,normalized,tags,now,now,none,Nat.pos_of_ne_zero h⟩

end AgentGraph.Memory
