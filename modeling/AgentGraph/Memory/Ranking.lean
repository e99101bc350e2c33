import AgentGraph.Memory.Search
import Mathlib.Data.Int.ConditionallyCompleteOrder
import Mathlib.Order.Monotone.Defs

/-! # What a search shows

The matches of a search are specified relative to a clock that orders the instants of
`updated_at`. The search meets the specification for the `timestamp()` of the host, and
it meets it for the stored instants exactly when `timestamp()` keeps their order.
-/
set_option autoImplicit false
namespace AgentGraph.Memory
open Selection

/-- Instants as they are stored. -/
def stored (t : ℤ) : ℚ := t

variable (host : Host) (settings : Settings)

/-- The record is among the `n` newest live ones of its scope. -/
def Newest (db : MemoryDb) (scope : Scope) (n : ℕ) (record : MemoryRecord) : Prop :=
  record ∈ db.live scope ∧ ((db.live scope).countP fun other => record.recency < other.recency) < n

/-- A query without terms matches every record. -/
def Matches (terms : List String) (record : MemoryRecord) : Prop :=
  terms = [] ∨ ∃ term ∈ terms, occursIn term (haystack host record) = true

def MemoryMatch.chars (found : MemoryMatch) : ℕ := found.record.content.length

/-- What `search` promises for the terms of a query, where `time` orders the instants. -/
structure Shows (time : ℤ → ℚ) (db : MemoryDb) (scope : Scope) (terms : List String) (found : List MemoryMatch) : Prop where
  count : found.length ≤ settings.maxResults
  chars : load MemoryMatch.chars found ≤ settings.maxContextChars
  inScope : ∀ m ∈ found, m.record ∈ db.live scope
  matching : ∀ m ∈ found, Matches host terms m.record
  scores : ∀ m ∈ found, m.score = score host m.record terms
  ranks : found.map MemoryMatch.rank = List.range' 1 found.length
  ordered : found.Pairwise fun a b => sortKey time a.item < sortKey time b.item
  greedy : ∀ record, Newest db scope (settings.maxResults * 4) record → Matches host terms record →
    (∀ m ∈ found, m.record ≠ record) →
      settings.maxContextChars < load MemoryMatch.chars
          (found.filter fun m => sortKey time m.item < sortKey time (record,score host record terms)) +
        record.content.length ∨
      found.length = settings.maxResults ∧
        ∀ m ∈ found, sortKey time m.item < sortKey time (record,score host record terms)

variable {host settings} {db : MemoryDb} {scope : Scope} {terms : List String}

/-! ## The candidates -/

theorem live_recency (db : MemoryDb) (scope : Scope) :
    ((db.live scope).map fun record => OrderDual.toDual record.recency).Nodup := by
  refine List.Nodup.of_map (fun key => (ofLex (OrderDual.ofDual key)).2) ?_
  rw [List.map_map]
  exact db.live_ids scope

theorem mem_candidates {record : MemoryRecord} :
    record ∈ candidates settings db scope ↔ Newest db scope (settings.maxResults * 4) record :=
  mem_take_sort (live_recency db scope)

theorem candidates_ids : ((candidates settings db scope).map MemoryRecord.id).Nodup :=
  (((List.perm_insertionSort _ (db.live scope)).map MemoryRecord.id).nodup_iff.mpr (db.live_ids scope)).sublist
    ((List.take_sublist _ _).map _)

theorem score_pos {record : MemoryRecord} :
    0 < score host record terms ↔ ∃ term ∈ terms, occursIn term (haystack host record) = true := by
  rw [score,List.countP_pos_iff]

theorem mem_scored {item : Scored} :
    item ∈ scored host settings db scope terms ↔
      item.2 = score host item.1 terms ∧ Newest db scope (settings.maxResults * 4) item.1 ∧ Matches host terms item.1 := by
  obtain ⟨record,n⟩ := item
  have hall : (record,n) ∈ (candidates settings db scope).map (fun r => (r,score host r terms)) ↔
      n = score host record terms ∧ Newest db scope (settings.maxResults * 4) record := by
    rw [List.mem_map,← mem_candidates]
    constructor
    · rintro ⟨r,hr,h⟩
      cases h
      exact ⟨rfl,hr⟩
    · rintro ⟨rfl,hr⟩
      exact ⟨record,hr,rfl⟩
  unfold scored Matches
  cases terms with
  | nil => simpa using hall
  | cons term terms =>
    simp only [List.isEmpty_cons, Bool.false_eq_true, if_false, List.mem_filter, decide_eq_true_eq, hall, and_assoc,
      reduceCtorEq, false_or]
    constructor
    · rintro ⟨rfl,hnew,hpos⟩
      exact ⟨rfl,hnew,score_pos.mp hpos⟩
    · rintro ⟨rfl,hnew,hmatch⟩
      exact ⟨rfl,hnew,score_pos.mpr hmatch⟩

theorem scored_ids : ((scored host settings db scope terms).map fun item => item.1.id).Nodup := by
  have hall : (((candidates settings db scope).map fun r => (r,score host r terms)).map fun item => item.1.id).Nodup := by
    rw [List.map_map]
    exact candidates_ids
  unfold scored
  dsimp only
  split
  · exact hall
  · exact hall.sublist (List.filter_sublist.map _)

theorem scored_keys (time : ℤ → ℚ) : ((scored host settings db scope terms).map (sortKey time)).Nodup := by
  refine List.Nodup.of_map (fun key => (ofLex (ofLex key).2).2) ?_
  rw [List.map_map]
  exact scored_ids

theorem ranking_strict : (ranking host settings db scope terms).Pairwise fun a b =>
    sortKey host.timestamp a < sortKey host.timestamp b :=
  sort_strict (scored_keys host.timestamp)

theorem mem_ranking {item : Scored} :
    item ∈ ranking host settings db scope terms ↔ item ∈ scored host settings db scope terms :=
  (List.perm_insertionSort _ _).mem_iff

/-! ## The matches -/

/-- A statement about the items of the matches is one about the matches. -/
theorem load_item (found : List MemoryMatch) : load MemoryMatch.chars found = load Scored.chars (found.map MemoryMatch.item) := by
  simp only [load, List.map_map]
  rfl

theorem shows_of_items {time : ℤ → ℚ} {found : List MemoryMatch} (hitems : ∀ item ∈ found.map MemoryMatch.item,
      item ∈ scored host settings db scope terms)
    (hranks : found.map MemoryMatch.rank = List.range' 1 found.length) (hcount : found.length ≤ settings.maxResults)
    (hchars : load Scored.chars (found.map MemoryMatch.item) ≤ settings.maxContextChars)
    (hordered : (found.map MemoryMatch.item).Pairwise fun a b => sortKey time a < sortKey time b)
    (hgreedy : ∀ item ∈ scored host settings db scope terms, item ∉ found.map MemoryMatch.item →
      settings.maxContextChars < load Scored.chars
          ((found.map MemoryMatch.item).filter fun other => sortKey time other < sortKey time item) + Scored.chars item ∨
      found.length = settings.maxResults ∧ ∀ other ∈ found.map MemoryMatch.item, sortKey time other < sortKey time item) :
    Shows host settings time db scope terms found := by
  have hmem := fun m hm => mem_scored.mp (hitems (MemoryMatch.item m) (List.mem_map_of_mem hm))
  refine ⟨hcount,load_item found ▸ hchars,fun m hm => (hmem m hm).2.1.1,fun m hm => (hmem m hm).2.2,fun m hm => (hmem m hm).1,
    hranks,by simpa only [List.pairwise_map] using hordered,fun record hnew hmatch hout => ?_⟩
  have hscored : (record,score host record terms) ∈ scored host settings db scope terms := mem_scored.mpr ⟨rfl,hnew,hmatch⟩
  have hmissing : (record,score host record terms) ∉ found.map MemoryMatch.item := by
    intro h
    obtain ⟨m,hm,he⟩ := List.mem_map.mp h
    exact hout m hm (congrArg Prod.fst he)
  rw [load_item]
  rcases hgreedy _ hscored hmissing with hlong | ⟨hfull,hall⟩
  · left
    rw [List.filter_map] at hlong
    exact hlong
  · exact .inr ⟨hfull,fun m hm => hall _ (List.mem_map_of_mem hm)⟩

/-- The order of a search is that of its host's clock. -/
theorem search_shows {query : String} {found : List MemoryMatch} (h : search host settings db scope query = .ok found) :
    Shows host settings host.timestamp db scope (termsOf host (strip query)) found := by
  obtain rfl := search_ok h
  have hsub : (chosen host settings db scope query).Sublist (ranking host settings db scope (termsOf host (strip query))) :=
    pick_sublist
  have hlen : (numbered 1 (chosen host settings db scope query)).length = (chosen host settings db scope query).length := by
    rw [← numbered_item 1 (chosen host settings db scope query),List.length_map,numbered_item]
  apply shows_of_items
  · rw [numbered_item]
    exact fun item hitem => mem_ranking.mp (hsub.subset hitem)
  · rw [numbered_rank,hlen]
  · rw [hlen]
    exact pick_length_le
  · rw [numbered_item]
    exact pick_load_le
  · rw [numbered_item]
    exact ranking_strict.sublist hsub
  · rw [numbered_item,hlen]
    exact fun item hitem hout =>
      pick_greedy (fun other _ => other.1.content_pos) ranking_strict (mem_ranking.mpr hitem) hout

/-- The host's clock tells the instants of the live records apart, in their order. -/
def KeepsOrder (host : Host) (db : MemoryDb) (scope : Scope) : Prop :=
  StrictMonoOn host.timestamp {t | ∃ record ∈ db.live scope, record.updatedAt = t}

theorem sortKey_lt_iff (hkeeps : KeepsOrder host db scope) {a b : Scored} (ha : a.1 ∈ db.live scope)
    (hb : b.1 ∈ db.live scope) :
    sortKey host.timestamp a < sortKey host.timestamp b ↔ sortKey stored a < sortKey stored b := by
  have hta : a.1.updatedAt ∈ {t | ∃ record ∈ db.live scope, record.updatedAt = t} := ⟨_,ha,rfl⟩
  have htb : b.1.updatedAt ∈ {t | ∃ record ∈ db.live scope, record.updatedAt = t} := ⟨_,hb,rfl⟩
  have hlt : -host.timestamp a.1.updatedAt < -host.timestamp b.1.updatedAt ↔
      -stored a.1.updatedAt < -stored b.1.updatedAt := by
    rw [neg_lt_neg_iff,neg_lt_neg_iff,hkeeps.lt_iff_lt htb hta]
    exact Int.cast_lt.symm
  have heq : -host.timestamp a.1.updatedAt = -host.timestamp b.1.updatedAt ↔
      -stored a.1.updatedAt = -stored b.1.updatedAt := by
    rw [neg_inj,neg_inj,hkeeps.injOn.eq_iff hta htb]
    exact Int.cast_inj.symm
  simp only [sortKey, Prod.Lex.toLex_lt_toLex, hlt, heq]

theorem Shows.of_keepsOrder (hkeeps : KeepsOrder host db scope) {found : List MemoryMatch}
    (h : Shows host settings host.timestamp db scope terms found) : Shows host settings stored db scope terms found where
  count := h.count
  chars := h.chars
  inScope := h.inScope
  matching := h.matching
  scores := h.scores
  ranks := h.ranks
  ordered := h.ordered.imp_of_mem fun ha hb => (sortKey_lt_iff hkeeps (h.inScope _ ha) (h.inScope _ hb)).mp
  greedy := by
    intro record hnew hmatch hout
    have hiff := fun m hm => sortKey_lt_iff (a := MemoryMatch.item m) (b := (record,score host record terms)) hkeeps
      (h.inScope m hm) hnew.1
    have hbefore : found.filter (fun m => sortKey stored m.item < sortKey stored (record,score host record terms)) =
        found.filter fun m => sortKey host.timestamp m.item < sortKey host.timestamp (record,score host record terms) :=
      List.filter_congr fun m hm => decide_eq_decide.mpr (hiff m hm).symm
    rw [hbefore]
    rcases h.greedy record hnew hmatch hout with hlong | ⟨hfull,hall⟩
    · exact .inl hlong
    · exact .inr ⟨hfull,fun m hm => (hiff m hm).mp (hall m hm)⟩

/-- Deleted records and records of other scopes have no influence. -/
theorem search_congr {db' : MemoryDb} (h : ∀ record, record ∈ db.live scope ↔ record ∈ db'.live scope) (query : String) :
    search host settings db scope query = search host settings db' scope query := by
  have hperm : (db.live scope).Perm (db'.live scope) :=
    (List.perm_ext_iff_of_nodup (List.Nodup.of_map _ (db.live_ids scope)) (List.Nodup.of_map _ (db'.live_ids scope))).mpr h
  have hlist : candidates settings db scope = candidates settings db' scope :=
    congrArg (List.take (settings.maxResults * 4)) (sort_congr (live_recency db scope) hperm)
  unfold search ranking scored
  rw [hlist]

/-- A candidate that nothing shown ranks before, and that fits the context, is shown. -/
theorem Shows.exists_of_first {time : ℤ → ℚ} {found : List MemoryMatch} (h : Shows host settings time db scope terms found)
    {record : MemoryRecord} (hnew : Newest db scope (settings.maxResults * 4) record) (hmatch : Matches host terms record)
    (hfits : record.content.length ≤ settings.maxContextChars)
    (hfirst : ∀ m ∈ found, ¬ sortKey time m.item < sortKey time (record,score host record terms)) :
    ∃ m ∈ found, m.record = record := by
  by_contra hout
  push Not at hout
  rcases h.greedy record hnew hmatch hout with hlong | ⟨hfull,hall⟩
  · rw [List.filter_eq_nil_iff.mpr fun m hm => by simpa using hfirst m hm,load_nil] at hlong
    omega
  · cases found with
    | nil => exact absurd hfull (settings.maxResults_pos.ne)
    | cons m found => exact hfirst m List.mem_cons_self (hall m List.mem_cons_self)

/-! ## The local time of a host -/

def localScope : Scope := ⟨"project_local",0⟩

def note (id : MemoryId) (updatedAt : ℤ) : MemoryRecord :=
  ⟨id,localScope,.note,"x",[],updatedAt,updatedAt,none,by decide⟩

/-- Two records that differ in nothing but their age; the older one has the smaller
identifier. -/
def pairDb (older newer : ℤ) : MemoryDb where
  records := [note 0 older,note 1 newer]
  ids := by
    change [0,1].Nodup
    decide

theorem mem_pairDb {older newer : ℤ} {record : MemoryRecord} :
    record ∈ (pairDb older newer).live localScope ↔ record = note 0 older ∨ record = note 1 newer := by
  simp only [MemoryDb.mem_live, pairDb, List.mem_cons, List.not_mem_nil, or_false]
  constructor
  · exact And.left
  · rintro (rfl | rfl)
    · exact ⟨.inl rfl,rfl,rfl⟩
    · exact ⟨.inr rfl,rfl,rfl⟩

theorem newest_pairDb {older newer : ℤ} {record : MemoryRecord} (h : record ∈ (pairDb older newer).live localScope) :
    Newest (pairDb older newer) localScope (settings.maxResults * 4) record := by
  have hle := List.countP_le_length (p := fun other => decide (record.recency < other.recency))
    (l := (pairDb older newer).live localScope)
  have htwo : ((pairDb older newer).live localScope).length = 2 := rfl
  have hpos := settings.maxResults_pos
  exact ⟨h,by omega⟩

/-- The first of the pair under a clock is shown before the other one. -/
theorem shows_pairDb {time : ℤ → ℚ} {older newer : ℤ} {found : List MemoryMatch}
    (h : Shows host settings time (pairDb older newer) localScope [] found) {a b : MemoryRecord}
    (ha : a ∈ (pairDb older newer).live localScope) (hab : ∀ r ∈ (pairDb older newer).live localScope, r = a ∨ r = b)
    (hfirst : sortKey time (a,0) < sortKey time (b,0)) : ∃ m ∈ found, m.record = a := by
  have hfits : a.content.length ≤ settings.maxContextChars := by
    have hcontent : a.content = "x" := by rcases mem_pairDb.mp ha with rfl | rfl <;> rfl
    have hlen : "x".length = 1 := by decide
    rw [hcontent,hlen]
    exact settings.maxContextChars_pos
  refine h.exists_of_first (newest_pairDb ha) (.inl rfl) hfits fun m hm hlt => ?_
  have hitem : m.item = (m.record,0) := congrArg (Prod.mk m.record) (h.scores m hm)
  rw [hitem] at hlt
  rcases hab m.record (h.inScope m hm) with he | he
  · rw [he] at hlt
    exact lt_irrefl _ hlt
  · rw [he] at hlt
    exact lt_asymm hlt hfirst

/-- A search that shows everything ranks the pair by the clock of the host. -/
theorem pair_misranked {older newer : ℤ} (hlt : older < newer) (hclock : host.timestamp newer ≤ host.timestamp older)
    {found : List MemoryMatch} (h : Shows host settings host.timestamp (pairDb older newer) localScope [] found) :
    ¬ Shows host settings stored (pairDb older newer) localScope [] found := by
  intro hstored
  have hhost : sortKey host.timestamp (note 0 older,0) < sortKey host.timestamp (note 1 newer,0) := by
    rcases hclock.lt_or_eq with hlt | heq
    · exact Prod.Lex.toLex_lt_toLex.mpr (.inr ⟨rfl,Prod.Lex.toLex_lt_toLex.mpr (.inl (neg_lt_neg hlt))⟩)
    · exact Prod.Lex.toLex_lt_toLex.mpr
        (.inr ⟨rfl,Prod.Lex.toLex_lt_toLex.mpr (.inr ⟨congrArg Neg.neg heq.symm,Nat.zero_lt_one⟩)⟩)
  have hwall : sortKey stored (note 1 newer,0) < sortKey stored (note 0 older,0) :=
    Prod.Lex.toLex_lt_toLex.mpr (.inr ⟨rfl,Prod.Lex.toLex_lt_toLex.mpr (.inl (neg_lt_neg (Int.cast_lt.mpr hlt)))⟩)
  obtain ⟨m,hm,hmr⟩ := shows_pairDb h (mem_pairDb.mpr (.inl rfl)) (fun r hr => mem_pairDb.mp hr) hhost
  obtain ⟨m',hm',hmr'⟩ := shows_pairDb hstored (mem_pairDb.mpr (.inr rfl)) (fun r hr => (mem_pairDb.mp hr).symm) hwall
  have hitem : m.item = (note 0 older,0) := Prod.ext hmr (h.scores m hm)
  have hitem' : m'.item = (note 1 newer,0) := Prod.ext hmr' (h.scores m' hm')
  have hne : m ≠ m' := by
    rintro rfl
    exact Nat.zero_ne_one (congrArg MemoryRecord.id (hmr.symm.trans hmr'))
  let together (x y : MemoryMatch) : Prop :=
    sortKey host.timestamp x.item < sortKey host.timestamp y.item ∧ sortKey stored x.item < sortKey stored y.item
  have hordered : found.Pairwise together := h.ordered.and hstored.ordered
  have hboth := List.Pairwise.forall_of_forall_of_flip (R := fun x y => x ≠ y → together x y ∨ together y x)
    (fun _ _ hx => absurd rfl hx) (hordered.imp fun hxy _ => .inl hxy) (hordered.imp fun hxy _ => .inr hxy)
  rcases hboth hm hm' hne with ⟨-,hlt⟩ | ⟨hlt,-⟩
  · rw [hitem,hitem'] at hlt
    exact lt_asymm hlt hwall
  · rw [hitem,hitem'] at hlt
    exact lt_asymm hlt hhost

/-- The promise of `search` over every database, scope and query. -/
def Answers (host : Host) (settings : Settings) : Prop :=
  ∀ db scope query found, search host settings db scope query = .ok found →
    Shows host settings stored db scope (termsOf host (strip query)) found ∧
      ∀ db' : MemoryDb, (∀ record, record ∈ db.live scope ↔ record ∈ db'.live scope) →
        search host settings db' scope query = .ok found

/-- On a database whose live records the host's clock keeps in order the search does what it
promises, and on every database exactly if the clock keeps the order of all instants. -/
theorem search_ranked_iff (host : Host) (settings : Settings) :
    (∀ db scope query found, search host settings db scope query = .ok found → KeepsOrder host db scope →
      Shows host settings stored db scope (termsOf host (strip query)) found) ∧
    (Answers host settings ↔ (settings.memoryEnabled = true → StrictMono host.timestamp)) := by
  have hkept (db : MemoryDb) (scope : Scope) (query : String) (found : List MemoryMatch)
      (h : search host settings db scope query = .ok found) (hkeeps : KeepsOrder host db scope) :=
    (search_shows h).of_keepsOrder hkeeps
  refine ⟨hkept,fun hanswers hon => ?_,fun hmono db scope query found h => ?_⟩
  · intro older newer hlt
    by_contra hclock
    have hfound : ∃ found, search host settings (pairDb older newer) localScope "" = .ok found := by
      have hempty : ¬ settings.maxContentChars < (strip "").length := Nat.not_lt_zero _
      unfold search requireEnabled
      rw [if_pos hon]
      dsimp only
      rw [if_neg hempty]
      exact ⟨_,rfl⟩
    obtain ⟨found,hfound⟩ := hfound
    have hterms : termsOf host (strip "") = [] := by
      have hstrip : strip "" = "" := by decide
      rw [hstrip,termsOf,host.casefold_empty]
      rfl
    have hhost := search_shows hfound
    have hstored := (hanswers _ _ _ _ hfound).1
    rw [hterms] at hhost hstored
    exact pair_misranked hlt (not_lt.mp hclock) hhost hstored
  · have hon : settings.memoryEnabled = true := by
      by_contra hoff
      unfold search requireEnabled at h
      rw [if_neg hoff] at h
      cases h
    refine ⟨hkept db scope query found h fun t _ u _ => fun htu => hmono hon htu,fun db' hlive => ?_⟩
    rw [← search_congr hlive,h]

/-! ### A host in a zone with daylight saving -/

/-- `_mktime` of a naive datetime in seconds, where `local_` is the local time of the host. -/
def mktime (local_ : ℤ → ℤ) (t : ℤ) : ℤ :=
  let a := local_ t - t
  let u1 := t - a
  let t1 := local_ u1
  if t1 = t then
    let b := local_ (u1 - 86400) - (u1 - 86400)
    if a = b then u1
    else if local_ (t - b) = t then t - b
    else u1
  else
    let b := t1 - u1
    let u2 := t - b
    -- a time that the change of the clock skips has no solution
    if local_ u2 = t then u2 else max u1 u2

/-- `timestamp()` of a naive datetime in microseconds. -/
def naiveTimestamp (local_ : ℤ → ℤ) (t : ℤ) : ℚ := mktime local_ (t / 1000000) + (t % 1000000 : ℤ) / 1000000

/-- Central European time around the change of 2026-03-29 01:00:00 UTC. -/
def centralEurope (t : ℤ) : ℤ := if t < 1774746000 then t + 3600 else t + 7200

def desktop : Host := ⟨id,rfl,naiveTimestamp centralEurope⟩

/-- A host on UTC. -/
def server : Host := ⟨id,rfl,stored⟩

def defaults : Settings := ⟨true,10000,16,64,8,6000,by decide,by decide⟩

def shoppingNote : MemoryRecord := ⟨5,localScope,.note,"buy apples",[],0,0,none,by decide⟩

/-- Of two records written at 02:30 and 03:10 UTC the older one is ranked first. -/
theorem search_ranks_older_first :
    ∃ found, search desktop defaults (pairDb 1774751400000000 1774753800000000) localScope "" = .ok found ∧
      found.map MemoryMatch.record = [note 0 1774751400000000,note 1 1774753800000000] ∧
      ¬ Shows desktop defaults stored (pairDb 1774751400000000 1774753800000000) localScope
        (termsOf desktop (strip "")) found := by
  have hfound : search desktop defaults (pairDb 1774751400000000 1774753800000000) localScope "" =
      .ok [⟨note 0 1774751400000000,1,0⟩,⟨note 1 1774753800000000,2,0⟩] := by
    decide +kernel
  refine ⟨_,hfound,rfl,fun h => ?_⟩
  have hordered := List.rel_of_pairwise_cons h.ordered (List.mem_singleton_self _)
  exact absurd hordered (by decide +kernel)

end AgentGraph.Memory
