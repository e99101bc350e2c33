import AgentGraph.Foundation.Selection
import AgentGraph.Memory.Records
import Mathlib.Data.List.Infix
import Mathlib.Data.Rat.Cast.Order

/-! # `MemoryService.search`

The newest live records of the scope are scored by the terms of the query that they
contain, sorted, and collected greedily. `str.casefold` and `datetime.timestamp`, which
depend on the Unicode tables and on the local time zone, are those of the host.
-/
set_option autoImplicit false
namespace AgentGraph.Memory
open Selection

structure Host where
  casefold : String → String
  casefold_empty : casefold "" = ""
  -- `timestamp()` of a naive datetime
  timestamp : ℤ → ℚ

structure MemoryMatch where
  record : MemoryRecord
  rank : ℕ
  score : ℕ
deriving DecidableEq

/-- `str.split()` from the letters of a word and the text behind them. -/
def splitFrom : List Char → List Char → List (List Char)
  | [], [] => []
  | word, [] => [word.reverse]
  | word, c :: text =>
    if isSpace c then if word.isEmpty then splitFrom [] text else word.reverse :: splitFrom [] text
    else splitFrom (c :: word) text

def split (text : String) : List String := (splitFrom [] text.toList).map String.ofList

/-- `term in text`. -/
def occursIn (term text : String) : Bool := decide (term.toList <:+: text.toList)

variable (host : Host)

/-- The terms of a normalized query. -/
def termsOf (query : String) : List String := (split (host.casefold query)).filter fun term => term ≠ ""

def haystack (record : MemoryRecord) : String :=
  host.casefold (record.content ++ " " ++ " ".intercalate record.tags)

/-- `_score`. -/
def score (record : MemoryRecord) (terms : List String) : ℕ := terms.countP fun term => occursIn term (haystack host record)

abbrev Scored := MemoryRecord × ℕ

/-- The key of a scored record when `time` tells instants apart. -/
def sortKey (time : ℤ → ℚ) (item : Scored) : ℤ ×ₗ ℚ ×ₗ ℕ :=
  toLex (-(item.2 : ℤ),toLex (-time item.1.updatedAt,item.1.id))

variable (settings : Settings)

/-- The loop of `search` from the matches found so far and the length of their contents. -/
def collect : List Scored → List MemoryMatch → ℕ → List MemoryMatch
  | [], found, _ => found
  | (record,score) :: scored, found, contextChars =>
    if settings.maxResults ≤ found.length then found
    else
      let remaining : ℤ := (settings.maxContextChars : ℤ) - contextChars
      if remaining ≤ 0 then found
      else if remaining < record.content.length then collect scored found contextChars
      else collect scored (found ++ [⟨record,found.length + 1,score⟩]) (contextChars + record.content.length)

/-- The records that the repository returns. -/
def candidates (db : MemoryDb) (scope : Scope) : List MemoryRecord :=
  db.listForScope scope (some (settings.maxResults * 4))

/-- The candidates with their scores, without those that no term occurs in. -/
def scored (db : MemoryDb) (scope : Scope) (terms : List String) : List Scored :=
  let all := (candidates settings db scope).map fun record => (record,score host record terms)
  if terms.isEmpty then all else all.filter fun item => 0 < item.2

/-- The scored candidates in the order of `scored.sort`. -/
def ranking (db : MemoryDb) (scope : Scope) (terms : List String) : List Scored :=
  (scored host settings db scope terms).insertionSort fun a b => sortKey host.timestamp a ≤ sortKey host.timestamp b

def search (db : MemoryDb) (scope : Scope) (query : String) : Except MemoryError (List MemoryMatch) :=
  match requireEnabled settings with
  | .error e => .error e
  | .ok () =>
    let normalized := strip query
    if settings.maxContentChars < normalized.length then
      .error ⟨"memory_invalid","Memory query exceeds the configured limit"⟩
    else .ok (collect settings (ranking host settings db scope (termsOf host normalized)) [] 0)

/-! ## The loop as a selection -/

def Scored.chars (item : Scored) : ℕ := item.1.content.length

/-- Matches numbered on from a rank. -/
def numbered : ℕ → List Scored → List MemoryMatch
  | _, [] => []
  | rank, (record,score) :: items => ⟨record,rank,score⟩ :: numbered (rank + 1) items

def MemoryMatch.item (found : MemoryMatch) : Scored := (found.record,found.score)

theorem numbered_item (rank : ℕ) (items : List Scored) : (numbered rank items).map MemoryMatch.item = items := by
  induction items generalizing rank with
  | nil => rfl
  | cons item items ih => exact congrArg (item :: ·) (ih (rank + 1))

theorem numbered_rank (rank : ℕ) (items : List Scored) :
    (numbered rank items).map MemoryMatch.rank = List.range' rank items.length := by
  induction items generalizing rank with
  | nil => rfl
  | cons item items ih => exact congrArg (rank :: ·) (ih (rank + 1))

variable {host settings}

/-- The loop picks what fits into the count and the room that its accumulators leave. -/
theorem collect_eq (items : List Scored) (found : List MemoryMatch) (contextChars : ℕ)
    (hcount : found.length ≤ settings.maxResults) (hroom : contextChars ≤ settings.maxContextChars) :
    collect settings items found contextChars =
      found ++ numbered (found.length + 1)
        (pick Scored.chars (settings.maxResults - found.length) (settings.maxContextChars - contextChars) items) := by
  induction items generalizing found contextChars with
  | nil => simp [collect,pick,numbered]
  | cons item items ih =>
    obtain ⟨record,score⟩ := item
    have hsize : Scored.chars (record,score) = record.content.length := rfl
    rw [collect,pick]
    by_cases hfull : settings.maxResults ≤ found.length
    · have hclosed : settings.maxResults - found.length = 0 ∨ settings.maxContextChars - contextChars = 0 := by omega
      rw [if_pos hfull,if_pos hclosed]
      exact (List.append_nil found).symm
    · rw [if_neg hfull]
      dsimp only
      by_cases hempty : (settings.maxContextChars : ℤ) - contextChars ≤ 0
      · have hclosed : settings.maxResults - found.length = 0 ∨ settings.maxContextChars - contextChars = 0 := by omega
        rw [if_pos hempty,if_pos hclosed]
        exact (List.append_nil found).symm
      · have hopen : ¬(settings.maxResults - found.length = 0 ∨ settings.maxContextChars - contextChars = 0) := by omega
        rw [if_neg hempty,if_neg hopen]
        by_cases hlong : (settings.maxContextChars : ℤ) - contextChars < record.content.length
        · have hskip : settings.maxContextChars - contextChars < Scored.chars (record,score) := by omega
          rw [if_pos hlong,if_pos hskip]
          exact ih found contextChars hcount hroom
        · have hfit : ¬ settings.maxContextChars - contextChars < Scored.chars (record,score) := by omega
          rw [if_neg hlong,if_neg hfit,
            ih _ _ (by simp only [List.length_append, List.length_singleton]; omega) (by omega)]
          simp only [List.length_append, List.length_singleton, List.append_assoc, List.singleton_append, numbered,
            hsize, Nat.sub_add_eq]

/-- The ranked candidates that the loop takes. -/
def chosen (host : Host) (settings : Settings) (db : MemoryDb) (scope : Scope) (query : String) : List Scored :=
  pick Scored.chars settings.maxResults settings.maxContextChars
    (ranking host settings db scope (termsOf host (strip query)))

theorem search_ok {db : MemoryDb} {scope : Scope} {query : String} {found : List MemoryMatch}
    (h : search host settings db scope query = .ok found) :
    found = numbered 1 (chosen host settings db scope query) := by
  unfold search at h
  cases hon : requireEnabled settings with
  | error e => rw [hon] at h; cases h
  | ok u =>
    rw [hon] at h
    dsimp only at h
    split at h
    · cases h
    · rw [collect_eq _ _ _ (Nat.zero_le _) (Nat.zero_le _)] at h
      cases h
      simp [chosen]

end AgentGraph.Memory
