import AgentGraph.Memory.Ranking

/-! # What a search can miss

Only the newest records of a scope are scored. Among them nothing that matches and fits
is passed over for a worse match; an older record is not found however well it matches.
-/
set_option autoImplicit false
namespace AgentGraph.Memory
open Selection

/-- The records that `eligible` picks and that fit the context are found, and the first match
is no worse than any of them. -/
structure Finds (host : Host) (settings : Settings) (eligible : MemoryRecord → Prop) (terms : List String)
    (found : List MemoryMatch) : Prop where
  nonempty : (∃ record, eligible record ∧ record.content.length ≤ settings.maxContextChars ∧
    ∃ term ∈ terms, occursIn term (haystack host record) = true) → found ≠ []
  best : ∀ first ∈ found.head?, ∀ record, eligible record → record.content.length ≤ settings.maxContextChars →
    score host record terms ≤ first.score

variable {host : Host} {settings : Settings} {db : MemoryDb} {scope : Scope}

theorem score_le_of_key {time : ℤ → ℚ} {a b : Scored} (h : sortKey time a < sortKey time b) : b.2 ≤ a.2 := by
  rcases Prod.Lex.toLex_lt_toLex.mp h with hlt | ⟨heq,-⟩
  · have hlt : -(a.2 : ℤ) < -(b.2 : ℤ) := hlt
    omega
  · have heq : -(a.2 : ℤ) = -(b.2 : ℤ) := heq
    omega

/-- A candidate that matches and fits is shown, or a match with no lower score is. -/
theorem Shows.exists_score_ge {time : ℤ → ℚ} {terms : List String} {found : List MemoryMatch}
    (h : Shows host settings time db scope terms found) {record : MemoryRecord}
    (hnew : Newest db scope (settings.maxResults * 4) record) (hfits : record.content.length ≤ settings.maxContextChars)
    (hpos : 0 < score host record terms) : ∃ m ∈ found, score host record terms ≤ m.score := by
  by_cases hshown : ∃ m ∈ found, ¬ m.record ≠ record
  · obtain ⟨m,hm,hr⟩ := hshown
    exact ⟨m,hm,by rw [h.scores m hm,not_not.mp hr]⟩
  · push Not at hshown
    have hbefore : ∃ m ∈ found, sortKey time m.item < sortKey time (record,score host record terms) := by
      rcases h.greedy record hnew (.inr (score_pos.mp hpos)) hshown with hlong | ⟨hfull,hall⟩
      · by_contra hnone
        push Not at hnone
        rw [List.filter_eq_nil_iff.mpr fun m hm => by simpa using hnone m hm,load_nil] at hlong
        omega
      · cases found with
        | nil => exact absurd hfull settings.maxResults_pos.ne
        | cons m found => exact ⟨m,List.mem_cons_self,hall m List.mem_cons_self⟩
    obtain ⟨m,hm,hlt⟩ := hbefore
    exact ⟨m,hm,score_le_of_key hlt⟩

theorem Shows.score_le_first {time : ℤ → ℚ} {terms : List String} {first : MemoryMatch} {rest : List MemoryMatch}
    (h : Shows host settings time db scope terms (first :: rest)) {m : MemoryMatch} (hm : m ∈ first :: rest) :
    m.score ≤ first.score := by
  rcases List.mem_cons.mp hm with rfl | hm
  · exact Nat.le_refl _
  · exact score_le_of_key (List.rel_of_pairwise_cons h.ordered hm)

/-- Every search is complete over the newest records of the scope. -/
theorem search_complete (host : Host) (settings : Settings) (db : MemoryDb) (scope : Scope) (query : String)
    (found : List MemoryMatch) (h : search host settings db scope query = .ok found) :
    Finds host settings (Newest db scope (settings.maxResults * 4)) (termsOf host (strip query)) found := by
  have hshows := search_shows h
  refine ⟨fun ⟨record,hnew,hfits,hterm⟩ hempty => ?_,fun first hfirst record hnew hfits => ?_⟩
  · obtain ⟨m,hm,-⟩ := hshows.exists_score_ge hnew hfits (score_pos.mpr hterm)
    rw [hempty] at hm
    cases hm
  · rcases Nat.eq_zero_or_pos (score host record (termsOf host (strip query))) with hzero | hpos
    · rw [hzero]
      exact Nat.zero_le _
    · obtain ⟨m,hm,hle⟩ := hshows.exists_score_ge hnew hfits hpos
      obtain ⟨rest,rfl⟩ := List.head?_eq_some_iff.mp hfirst
      exact hle.trans (hshows.score_le_first hm)

/-! ### An older record behind newer ones -/

/-- One result, out of the four newest records. -/
def single : Settings := { defaults with maxResults := 1, maxResults_pos := Nat.one_pos }

/-- The oldest of five notes is about apples. -/
def busyDb : MemoryDb := ⟨[note 1 1,note 2 2,note 3 3,note 4 4,shoppingNote],by decide⟩

theorem search_complete_apples :
    Finds server single (Newest ⟨[shoppingNote],by decide⟩ localScope 4) ["apples"]
      [⟨shoppingNote,1,1⟩] :=
  search_complete server single ⟨[shoppingNote],by decide⟩ localScope "apples" _ (by decide +kernel)

/-- The note that matches the query is not found. -/
theorem search_misses_apples :
    search server single busyDb localScope "apples" = .ok [] ∧
      ¬ Finds server single (fun record => record ∈ busyDb.live localScope) (termsOf server (strip "apples")) [] := by
  refine ⟨by decide +kernel,fun h => h.nonempty ⟨shoppingNote,?_,by decide,"apples",?_⟩ rfl⟩
  · exact MemoryDb.mem_live.mpr ⟨by simp [busyDb],rfl,rfl⟩
  · decide +kernel

end AgentGraph.Memory
