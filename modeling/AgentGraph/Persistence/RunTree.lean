import AgentGraph.Persistence.Delegations
import Mathlib.Data.List.Sort

/-! # The tree of a run

`get_run_tree` climbs to the root, reads the delegations level by level and builds the
tree from what it has read. Its loops and its recursion take a bound here, and running
out of it is an error of its own.
-/
set_option autoImplicit false
namespace AgentGraph
open Descent

/-- `RunTreeNode`, whose run is the identifier and the row. -/
inductive RunTreeNode
  | node (nodeId : Option String) (depth : Nat) (runId : RunId) (run : RunRecord) (children : List RunTreeNode)

inductive RunTreeError
  | runNotFound
  /-- A `KeyError` of `records`. -/
  | missingRecord
  | exhausted

namespace RunTreeNode

def nodeId : RunTreeNode → Option String
  | .node nodeId _ _ _ _ => nodeId

def depth : RunTreeNode → Nat
  | .node _ depth _ _ _ => depth

def runId : RunTreeNode → RunId
  | .node _ _ r _ _ => r

mutual
/-- The runs of a tree, a run before its children. -/
def runs : RunTreeNode → List (RunId × RunRecord)
  | .node _ _ r run children => (r,run) :: runsList children

def runsList : List RunTreeNode → List (RunId × RunRecord)
  | [] => []
  | tree :: rest => tree.runs ++ runsList rest
end

mutual
/-- Each node that is not the root, with its parent: parent, node, depth and run. -/
def edges : RunTreeNode → List (RunId × Option String × Nat × RunId)
  | .node _ _ r _ children => edgesList r children

def edgesList (p : RunId) : List RunTreeNode → List (RunId × Option String × Nat × RunId)
  | [] => []
  | tree :: rest => (p,tree.nodeId,tree.depth,tree.runId) :: (tree.edges ++ edgesList p rest)
end

end RunTreeNode

namespace Store

/-- `RunDelegationRepository.list_for_child`. -/
def listForChild (store : Store) (r : RunId) : List DelegationRecord :=
  store.delegations.filter fun d => d.childRunId == r

section Reading
variable (store : Store) (createdAt : RunId → Instant)

/-- `RunDelegationRepository.list_for_parents`, ordered by the creation of the rows. -/
def listForParents (runIds : List RunId) : List DelegationRecord :=
  (store.delegations.filter fun d => runIds.contains d.parentRunId).mergeSort fun d d' =>
    decide (createdAt d.childRunId ≤ createdAt d'.childRunId)

/-- The loop to the root. -/
def rootOf : Nat → RunId → Option RunId := climb fun r => (store.listForChild r).head?.map DelegationRecord.parentRunId

/-- The loop over the frontier, with the relations and the records so far. -/
def readTree : Nat → List RunId → List DelegationRecord → (RunId → Option RunRecord) →
    Except RunTreeError (List DelegationRecord × (RunId → Option RunRecord))
  | 0, _, _, _ => .error .exhausted
  | fuel + 1, frontier, relations, records =>
    match frontier with
    | [] => .ok (relations,records)
    | _ :: _ =>
      let batch := store.listForParents createdAt frontier
      let childIds := batch.map DelegationRecord.childRunId
      readTree fuel childIds (relations ++ batch) fun r =>
        if childIds.contains r then (store.runs r).or (records r) else records r

end Reading

/-- `by_parent.get(current_id, [])`. -/
def byParent (relations : List DelegationRecord) (r : RunId) : List DelegationRecord :=
  relations.filter fun d => d.parentRunId == r

/-- `build`. -/
def buildTree (relations : List DelegationRecord) (records : RunId → Option RunRecord) :
    Nat → RunId → Option String → Nat → Except RunTreeError RunTreeNode
  | 0, _, _, _ => .error .exhausted
  | fuel + 1, current, nodeId, depth => do
    let children ← (byParent relations current).mapM fun d =>
      buildTree relations records fuel d.childRunId (some d.nodeId) d.depth
    match records current with
    | none => .error .missingRecord
    | some run => .ok (.node nodeId depth current run children)

/-- `get_run_tree`. -/
def getRunTree (store : Store) (createdAt : RunId → Instant) (fuel : Nat) (r : RunId) :
    Except RunTreeError RunTreeNode :=
  match store.rootOf fuel r with
  | none => .error .exhausted
  | some root =>
    match store.runs root with
    | none => .error .runNotFound
    | some run =>
      match store.readTree createdAt fuel [root] [] (Function.update (fun _ => none) root (some run)) with
      | .error error => .error error
      | .ok (relations,records) => buildTree relations records fuel root none 0

end Store

/-! ## What `build` returns -/

section Building
variable {relations : List DelegationRecord} {records : RunId → Option RunRecord} {fuel depth : Nat} {r : RunId}
  {nodeId : Option String} {tree : RunTreeNode}

theorem mapM_ok {α β ε : Type} {f : α → Except ε β} {R : α → β → Prop} {xs : List α}
    (h : ∀ x ∈ xs, ∃ y, f x = .ok y ∧ R x y) : ∃ ys, xs.mapM f = .ok ys ∧ List.Forall₂ R xs ys := by
  induction xs with
  | nil => exact ⟨[],rfl,.nil⟩
  | cons x xs ih =>
    obtain ⟨y,hy,hR⟩ := h x List.mem_cons_self
    obtain ⟨ys,hys,hrest⟩ := ih fun z hz => h z (List.mem_cons_of_mem x hz)
    refine ⟨y :: ys,?_,.cons hR hrest⟩
    simp only [List.mapM_cons, hy, hys]
    rfl

/-- The children as `build` finds them. -/
def kids (relations : List DelegationRecord) (r : RunId) : List RunId :=
  (Store.byParent relations r).map DelegationRecord.childRunId

/-- The delegation as an edge of a tree. -/
def DelegationRecord.edge (d : DelegationRecord) : RunId × Option String × Nat × RunId :=
  (d.parentRunId,some d.nodeId,d.depth,d.childRunId)

/-- The tree shows the relations and records below `r`. -/
structure Spells (relations : List DelegationRecord) (records : RunId → Option RunRecord) (fuel : Nat) (r : RunId)
    (nodeId : Option String) (depth : Nat) (tree : RunTreeNode) : Prop where
  nodeId : tree.nodeId = nodeId
  depth : tree.depth = depth
  runId : tree.runId = r
  runs : tree.runs.map Prod.fst = preorder (kids relations) fuel r
  rows : ∀ row ∈ tree.runs, records row.1 = some row.2
  edges : ∀ e, e ∈ tree.edges ↔ ∃ k p, Below (kids relations) r k p ∧ ∃ d ∈ Store.byParent relations p, e = d.edge

/-- A child of the node under construction, as its relation says. -/
abbrev SpellsChild (relations : List DelegationRecord) (records : RunId → Option RunRecord) (fuel : Nat)
    (d : DelegationRecord) (tree : RunTreeNode) : Prop :=
  Spells relations records fuel d.childRunId (some d.nodeId) d.depth tree

section Children
variable {ds : List DelegationRecord} {children : List RunTreeNode}

theorem runsList_runs (h : List.Forall₂ (SpellsChild relations records fuel) ds children) :
    (RunTreeNode.runsList children).map Prod.fst =
      (ds.map DelegationRecord.childRunId).flatMap (preorder (kids relations) fuel) := by
  induction h with
  | nil => rfl
  | cons hfirst _ ih => simp [RunTreeNode.runsList,hfirst.runs,ih]

theorem runsList_rows (h : List.Forall₂ (SpellsChild relations records fuel) ds children) :
    ∀ row ∈ RunTreeNode.runsList children, records row.1 = some row.2 := by
  induction h with
  | nil => exact fun row hrow => by cases hrow
  | cons hfirst _ ih =>
    intro row hrow
    obtain hrow | hrow := List.mem_append.mp hrow
    · exact hfirst.rows row hrow
    · exact ih row hrow

theorem mem_edgesList (h : List.Forall₂ (SpellsChild relations records fuel) ds children)
    (hparent : ∀ d ∈ ds, d.parentRunId = r) (e : RunId × Option String × Nat × RunId) :
    e ∈ RunTreeNode.edgesList r children ↔ ∃ d ∈ ds, e = d.edge ∨
      ∃ k p, Below (kids relations) d.childRunId k p ∧ ∃ d' ∈ Store.byParent relations p, e = d'.edge := by
  induction h with
  | nil => simp [RunTreeNode.edgesList]
  | @cons d tree _ _ hfirst _ ih =>
    have hedge : (r,tree.nodeId,tree.depth,tree.runId) = d.edge := by
      rw [hfirst.nodeId,hfirst.depth,hfirst.runId,DelegationRecord.edge,hparent d List.mem_cons_self]
    have ih := ih fun d' hd' => hparent d' (List.mem_cons_of_mem d hd')
    simp only [RunTreeNode.edgesList, hedge, List.mem_cons, List.mem_append, hfirst.edges, ih, or_assoc,
      exists_eq_or_imp]

end Children

theorem mem_byParent {d : DelegationRecord} : d ∈ Store.byParent relations r ↔ d ∈ relations ∧ d.parentRunId = r := by
  simp [Store.byParent]

/-- `build` returns where every record has been read and the recursion is deep enough. -/
theorem buildTree_ok (hrecords : ∀ k x, Below (kids relations) r k x → (records x).isSome)
    (hfuel : ∀ k x, Below (kids relations) r k x → k < fuel) (nodeId : Option String) (depth : Nat) :
    ∃ tree, Store.buildTree relations records fuel r nodeId depth = .ok tree ∧
      Spells relations records fuel r nodeId depth tree := by
  induction fuel generalizing r nodeId depth with
  | zero => exact absurd (hfuel 0 r .self) (Nat.not_lt_zero 0)
  | succ fuel ih =>
    have hchild : ∀ d ∈ Store.byParent relations r, ∃ tree,
        Store.buildTree relations records fuel d.childRunId (some d.nodeId) d.depth = .ok tree ∧
          SpellsChild relations records fuel d tree := by
      intro d hd
      have hmem : d.childRunId ∈ kids relations r := List.mem_map_of_mem hd
      refine ih (fun k x hx => hrecords (k + 1) x (hx.head hmem)) (fun k x hx => ?_) _ _
      have hlt := hfuel (k + 1) x (hx.head hmem)
      omega
    obtain ⟨children,hchildren,hspells⟩ := mapM_ok hchild
    obtain ⟨run,hrun⟩ := Option.isSome_iff_exists.mp (hrecords 0 r .self)
    refine ⟨.node nodeId depth r run children,?_,rfl,rfl,rfl,?_,?_,fun e => ?_⟩
    · simp only [Store.buildTree, hchildren, hrun]
      rfl
    · simp only [RunTreeNode.runs, List.map_cons, runsList_runs hspells]
      rfl
    · intro row hrow
      obtain rfl | hrow := List.mem_cons.mp hrow
      · exact hrun
      · exact runsList_rows hspells row hrow
    · rw [RunTreeNode.edges,mem_edgesList hspells fun d hd => (mem_byParent.mp hd).2]
      constructor
      · rintro ⟨d,hd,rfl | ⟨k,p,hp,hedge⟩⟩
        · exact ⟨0,r,.self,d,hd,rfl⟩
        · exact ⟨k + 1,p,hp.head (List.mem_map_of_mem hd),hedge⟩
      · rintro ⟨k,p,hp,d,hd,rfl⟩
        cases k with
        | zero =>
          cases hp
          exact ⟨d,hd,.inl rfl⟩
        | succ k =>
          obtain ⟨c,hc,hp⟩ := hp.exists_head
          obtain ⟨d',hd',rfl⟩ := List.mem_map.mp hc
          exact ⟨d',hd',.inr ⟨k,p,hp,d,hd,rfl⟩⟩

end Building

/-! ## What the loops read -/

namespace Store

/-- Sound tables in which no run is delegated twice. -/
structure Linked (store : Store) : Prop where
  sound : store.Sound
  children : (store.delegations.map DelegationRecord.childRunId).Nodup

section Loops
variable {store : Store} {createdAt : RunId → Instant} {root : RunId}

theorem Linked.ranked (hl : store.Linked) : Ranked (fun r : RunId => (r : Nat)) store.childrenOf := by
  intro p c hc
  obtain ⟨d,hd,rfl,rfl⟩ := mem_childrenOf.mp hc
  exact (hl.sound.delegations d hd).2.2

theorem Linked.below_isSome (hl : store.Linked) {k : Nat} {r x : RunId} (h : Below store.childrenOf r k x)
    (hr : (store.runs r).isSome) : (store.runs x).isSome := by
  cases h with
  | self => exact hr
  | child k p _ _ hc =>
    obtain ⟨d,hd,-,rfl⟩ := mem_childrenOf.mp hc
    exact (hl.sound.delegations d hd).2.1

theorem Linked.level_lt (hl : store.Linked) {k : Nat} {r x : RunId} (h : Below store.childrenOf r k x)
    (hr : (store.runs r).isSome) : k < store.nextId := by
  have hle := h.rank_le hl.ranked
  have hlt := hl.sound.lt (hl.below_isSome h hr)
  omega

theorem byParent_append (relations batch : List DelegationRecord) (p : RunId) :
    byParent (relations ++ batch) p = byParent relations p ++ byParent batch p := List.filter_append ..

/-- A batch holds all delegations of the runs it was asked for. -/
theorem byParent_listForParents {ids : List RunId} {p : RunId} (hp : p ∈ ids) :
    (byParent (store.listForParents createdAt ids) p).Perm (byParent store.delegations p) := by
  refine ((List.mergeSort_perm _ _).filter _).trans ?_
  rw [List.filter_filter]
  refine List.Perm.of_eq (List.filter_congr fun d _ => ?_)
  by_cases hd : d.parentRunId = p
  · simp [hd,hp]
  · simp [hd]

theorem byParent_listForParents_nil {ids : List RunId} {p : RunId} (hp : p ∉ ids) :
    byParent (store.listForParents createdAt ids) p = [] := by
  refine List.filter_eq_nil_iff.mpr fun d hd => ?_
  have hd := (List.mem_filter.mp (List.mem_mergeSort.mp hd)).2
  have hmem : d.parentRunId ∈ ids := by simpa using hd
  simpa using fun he : d.parentRunId = p => hp (he ▸ hmem)

theorem mem_frontier (createdAt : RunId → Instant) {ids : List RunId} {c : RunId} :
    c ∈ (store.listForParents createdAt ids).map DelegationRecord.childRunId ↔ ∃ p ∈ ids, c ∈ store.childrenOf p := by
  simp only [listForParents, List.mem_map, List.mem_mergeSort, List.mem_filter, List.contains_iff_mem, mem_childrenOf]
  constructor
  · rintro ⟨d,⟨hd,hp⟩,rfl⟩
    exact ⟨d.parentRunId,hp,d,hd,rfl,rfl⟩
  · rintro ⟨p,hp,d,hd,rfl,rfl⟩
    exact ⟨d,⟨hd,hp⟩,rfl⟩

/-- The relations hold the delegations of the runs above level `k`, and the records the
runs down to it. -/
structure Read (store : Store) (root : RunId) (k : Nat) (relations : List DelegationRecord)
    (records : RunId → Option RunRecord) : Prop where
  read : ∀ j p, j < k → Below store.childrenOf root j p →
    (byParent relations p).Perm (byParent store.delegations p)
  unread : ∀ p, (∀ j < k, ¬ Below store.childrenOf root j p) → byParent relations p = []
  records : ∀ j x, j ≤ k → Below store.childrenOf root j x → records x = store.runs x

/-- The next batch reads one more level. -/
theorem Read.next (hl : store.Linked) (hr : (store.runs root).isSome) {k : Nat}
    {relations : List DelegationRecord} {records : RunId → Option RunRecord} {frontier : List RunId}
    (h : store.Read root k relations records) (hfrontier : ∀ x, x ∈ frontier ↔ Below store.childrenOf root k x) :
    store.Read root (k + 1) (relations ++ store.listForParents createdAt frontier) (fun r =>
      if ((store.listForParents createdAt frontier).map DelegationRecord.childRunId).contains r then
        (store.runs r).or (records r) else records r) := by
  have hlevel : ∀ {j j' x}, Below store.childrenOf root j x → Below store.childrenOf root j' x → j = j' :=
    fun h h' => h.level_unique hl.sound.singleParent hl.ranked h'
  refine ⟨fun j p hj hp => ?_,fun p hp => ?_,fun j x hj hx => ?_⟩
  · rw [byParent_append]
    by_cases hk : j = k
    · subst hk
      have hnil := h.unread p fun j' hj' hp' => absurd (hlevel hp hp') (Nat.ne_of_gt hj')
      rw [hnil,List.nil_append]
      exact byParent_listForParents ((hfrontier p).mpr hp)
    · have hnot : p ∉ frontier := fun hmem => hk (hlevel hp ((hfrontier p).mp hmem))
      rw [byParent_listForParents_nil hnot,List.append_nil]
      exact h.read j p (by omega) hp
  · have hnot : p ∉ frontier := fun hmem => hp k (Nat.lt_succ_self k) ((hfrontier p).mp hmem)
    rw [byParent_append,byParent_listForParents_nil hnot,List.append_nil]
    exact h.unread p fun j hj => hp j (by omega)
  · obtain ⟨run,hrun⟩ := Option.isSome_iff_exists.mp (hl.below_isSome hx hr)
    by_cases hk : j = k + 1
    · subst hk
      cases hx with
      | child _ p _ hp hc =>
        have hmem := (mem_frontier createdAt).mpr ⟨p,(hfrontier p).mpr hp,hc⟩
        rw [if_pos (by simpa using hmem),hrun,Option.some_or]
    · rw [h.records j x (by omega) hx,hrun]
      split <;> rfl

/-- The loop over the frontier ends with everything below the root read. -/
theorem readTree_ok (createdAt : RunId → Instant) (hl : store.Linked) (hr : (store.runs root).isSome) {fuel k : Nat}
    {relations : List DelegationRecord} {records : RunId → Option RunRecord} {frontier : List RunId}
    (hfuel : store.nextId < k + fuel) (hk : k ≤ store.nextId) (h : store.Read root k relations records)
    (hfrontier : ∀ x, x ∈ frontier ↔ Below store.childrenOf root k x) :
    ∃ n relations' records', store.readTree createdAt fuel frontier relations records = .ok (relations',records') ∧
      store.Read root n relations' records' ∧ ∀ j x, Below store.childrenOf root j x → j < n := by
  induction fuel generalizing k relations records frontier with
  | zero => omega
  | succ fuel ih =>
    cases frontier with
    | nil =>
      -- no run at this level, so none further down
      have hempty : ∀ j x, k ≤ j → ¬ Below store.childrenOf root j x := by
        intro j
        induction j with
        | zero =>
          intro x hj hx
          obtain rfl : k = 0 := by omega
          exact absurd ((hfrontier x).mpr hx) (by simp)
        | succ j ihj =>
          intro x hj hx
          by_cases he : k = j + 1
          · exact absurd ((hfrontier x).mpr (he ▸ hx)) (by simp)
          · cases hx with
            | child _ p _ hp _ => exact ihj p (by omega) hp
      refine ⟨k,relations,records,rfl,h,fun j x hx => ?_⟩
      by_contra hj
      exact hempty j x (by omega) hx
    | cons x rest =>
      have hlt := hl.level_lt ((hfrontier x).mp List.mem_cons_self) hr
      refine ih (k := k + 1) (by omega) hlt (h.next hl hr hfrontier) fun c => ?_
      rw [mem_frontier]
      constructor
      · rintro ⟨p,hp,hc⟩
        exact .child k p c ((hfrontier p).mp hp) hc
      · intro hc
        cases hc with
        | child _ p _ hp hc => exact ⟨p,(hfrontier p).mpr hp,hc⟩

theorem Linked.parent_iff (hl : store.Linked) (p c : RunId) :
    (store.listForChild c).head?.map DelegationRecord.parentRunId = some p ↔ c ∈ store.childrenOf p := by
  rw [mem_childrenOf]
  constructor
  · intro h
    obtain ⟨d,hd,rfl⟩ := Option.map_eq_some_iff.mp h
    obtain ⟨hd,hc⟩ := List.mem_filter.mp (List.mem_of_head? hd)
    exact ⟨d,hd,rfl,by simpa using hc⟩
  · rintro ⟨d,hd,rfl,rfl⟩
    have hmem : d ∈ store.listForChild d.childRunId := List.mem_filter.mpr ⟨hd,by simp⟩
    cases hlist : store.listForChild d.childRunId with
    | nil =>
      rw [hlist] at hmem
      cases hmem
    | cons d' rest =>
      have hd' : d' ∈ store.listForChild d.childRunId := by simp [hlist]
      obtain ⟨hd',hc⟩ := List.mem_filter.mp hd'
      rw [hl.sound.parent d' hd' d hd (by simpa using hc)]
      rfl

/-- The loop to the root finds the root of the component. -/
theorem rootOf_ok (hl : store.Linked) {fuel : Nat} {r : RunId} (hr : (store.runs r).isSome)
    (hfuel : store.nextId < fuel) : ∃ root k, store.rootOf fuel r = some root ∧ IsRoot store.childrenOf root ∧
      Below store.childrenOf root k r := by
  obtain ⟨above,habove,hlen⟩ := hl.ranked.exists_above r
  have hlt := hl.sound.lt hr
  obtain ⟨root,hclimb,hroot,hbelow⟩ := habove.climb hl.parent_iff (n := fuel) (by omega)
  exact ⟨root,_,hclimb,hroot,hbelow⟩

theorem Linked.root_isSome (hl : store.Linked) {k : Nat} {r : RunId} (h : Below store.childrenOf root k r)
    (hr : (store.runs r).isSome) : (store.runs root).isSome := by
  cases k with
  | zero =>
    cases h
    exact hr
  | succ k =>
    obtain ⟨c,hc,-⟩ := h.exists_head
    obtain ⟨d,hd,rfl,-⟩ := mem_childrenOf.mp hc
    exact (hl.sound.delegations d hd).1

/-- What has been read below the root is the part of the forest below it. -/
theorem Read.below_iff {n k : Nat} {relations : List DelegationRecord} {records : RunId → Option RunRecord} {x : RunId}
    (h : store.Read root n relations records) (hall : ∀ j x, Below store.childrenOf root j x → j < n) :
    Below (kids relations) root k x ↔ Below store.childrenOf root k x := by
  constructor
  · intro hx
    induction hx with
    | self => exact .self
    | child k p c _ hc ih => exact .child k p c ih (((h.read k p (hall k p ih) ih).map _).mem_iff.mp hc)
  · intro hx
    induction hx with
    | self => exact .self
    | child k p c hp hc ih => exact .child k p c ih (((h.read k p (hall k p hp) hp).map _).mem_iff.mpr hc)

theorem Read.kids_cases {n : Nat} {relations : List DelegationRecord} {records : RunId → Option RunRecord}
    (h : store.Read root n relations records) (p : RunId) :
    (kids relations p).Perm (store.childrenOf p) ∨ kids relations p = [] := by
  by_cases hp : ∃ j < n, Below store.childrenOf root j p
  · obtain ⟨j,hj,hp⟩ := hp
    exact .inl ((h.read j p hj hp).map _)
  · refine .inr ?_
    rw [kids,h.unread p fun j hj hp' => hp ⟨j,hj,hp'⟩,List.map_nil]

theorem Read.nodup_preorder (hl : store.Linked) {n : Nat} {relations : List DelegationRecord}
    {records : RunId → Option RunRecord} (h : store.Read root n relations records) (fuel : Nat) (r : RunId) :
    (preorder (kids relations) fuel r).Nodup := by
  have hsub : ∀ p c, c ∈ kids relations p → c ∈ store.childrenOf p := by
    intro p c hc
    obtain hperm | hnil := h.kids_cases p
    · exact hperm.mem_iff.mp hc
    · rw [hnil] at hc
      cases hc
  refine Descent.nodup_preorder (fun p q c hp hq => hl.sound.singleParent p q c (hsub p c hp) (hsub q c hq))
    (fun p c hc => hl.ranked p c (hsub p c hc)) (fun p => ?_) fuel r
  obtain hperm | hnil := h.kids_cases p
  · exact hperm.nodup_iff.mpr (hl.children.sublist (List.filter_sublist.map _))
  · rw [hnil]
    exact List.nodup_nil

/-- The tree of a run is its component: every run of it once, with its row, and every
delegation between them as an edge. It does not depend on the run it is asked for. -/
theorem getRunTree_ok (hl : store.Linked) (createdAt : RunId → Instant) {fuel : Nat} {r : RunId}
    (hr : (store.runs r).isSome) (hfuel : store.nextId < fuel) :
    ∃ tree, (∀ q, Connected store.childrenOf r q → store.getRunTree createdAt fuel q = .ok tree) ∧
      (tree.runs.map Prod.fst).Nodup ∧
      (∀ row, row ∈ tree.runs ↔ Connected store.childrenOf r row.1 ∧ store.runs row.1 = some row.2) ∧
      (∀ e, e ∈ tree.edges ↔ ∃ d ∈ store.delegations, Connected store.childrenOf r d.childRunId ∧ e = d.edge) ∧
      tree.nodeId = none ∧ tree.depth = 0 ∧ ∀ d ∈ store.delegations, d.childRunId ≠ tree.runId := by
  have hs := hl.sound.singleParent
  obtain ⟨root,k,-,hroot,hbelow⟩ := rootOf_ok hl hr hfuel
  have hrootrow := hl.root_isSome hbelow hr
  obtain ⟨run,hrun⟩ := Option.isSome_iff_exists.mp hrootrow
  have hconn : ∀ q, Connected store.childrenOf r q ↔ ∃ m, Below store.childrenOf root m q :=
    fun q => connected_iff_below hs hroot hbelow
  have hstart : store.Read root 0 [] (Function.update (fun _ => none) root (some run)) := by
    refine ⟨fun j p hj _ => absurd hj (Nat.not_lt_zero j),fun p _ => rfl,fun j x hj hx => ?_⟩
    obtain rfl : j = 0 := by omega
    cases hx
    rw [Function.update_self,hrun]
  have hfrontier : ∀ x, x ∈ [root] ↔ Below store.childrenOf root 0 x := by
    intro x
    rw [List.mem_singleton]
    constructor
    · rintro rfl
      exact .self
    · intro hx
      cases hx
      rfl
  have hbound : store.nextId < 0 + fuel := by omega
  obtain ⟨n,relations,records,hread,hfinal,hall⟩ :=
    readTree_ok createdAt hl hrootrow hbound (Nat.zero_le _) hstart hfrontier
  have hiff : ∀ {k x}, Below (kids relations) root k x ↔ Below store.childrenOf root k x := hfinal.below_iff hall
  have hrecords : ∀ k x, Below store.childrenOf root k x → records x = store.runs x :=
    fun k x hx => hfinal.records k x (Nat.le_of_lt (hall k x hx)) hx
  have hsome : ∀ k x, Below (kids relations) root k x → (records x).isSome := by
    intro k x hx
    rw [hrecords k x (hiff.mp hx)]
    exact hl.below_isSome (hiff.mp hx) hrootrow
  have hdeep : ∀ k x, Below (kids relations) root k x → k < fuel := fun k x hx =>
    (hl.level_lt (hiff.mp hx) hrootrow).trans hfuel
  obtain ⟨tree,hbuild,hspells⟩ := buildTree_ok hsome hdeep none 0
  have hmem : ∀ x, x ∈ tree.runs.map Prod.fst ↔ ∃ m, Below store.childrenOf root m x := by
    intro x
    rw [hspells.runs,mem_preorder]
    constructor
    · rintro ⟨m,-,hx⟩
      exact ⟨m,hiff.mp hx⟩
    · rintro ⟨m,hx⟩
      exact ⟨m,(hl.level_lt hx hrootrow).trans hfuel,hiff.mpr hx⟩
  refine ⟨tree,fun q hq => ?_,?_,fun row => ?_,fun e => ?_,hspells.nodeId,hspells.depth,fun d hd he => ?_⟩
  · obtain ⟨m,hm⟩ := (hconn q).mp hq
    obtain ⟨root',k',hrootq,hroot',hbelow'⟩ := rootOf_ok hl (hl.below_isSome hm hrootrow) hfuel
    obtain rfl := hm.root_unique hs hl.ranked hroot hroot' hbelow'
    simp only [getRunTree, hrootq, hrun, hread, hbuild]
  · rw [hspells.runs]
    exact hfinal.nodup_preorder hl fuel root
  · constructor
    · intro hrow
      obtain ⟨m,hm⟩ := (hmem row.1).mp (List.mem_map_of_mem hrow)
      exact ⟨(hconn row.1).mpr ⟨m,hm⟩,(hrecords m row.1 hm).symm.trans (hspells.rows row hrow)⟩
    · rintro ⟨hc,hrow⟩
      obtain ⟨m,hm⟩ := (hconn row.1).mp hc
      obtain ⟨row',hrow',hfst⟩ := List.mem_map.mp ((hmem row.1).mpr ⟨m,hm⟩)
      have hsnd := hspells.rows row' hrow'
      rw [hfst,hrecords m row.1 hm,hrow] at hsnd
      obtain rfl : row' = row := Prod.ext hfst (Option.some.inj hsnd).symm
      exact hrow'
  · rw [hspells.edges]
    constructor
    · rintro ⟨m,p,hp,d,hd,rfl⟩
      have hp := hiff.mp hp
      obtain ⟨hrow,rfl⟩ := mem_byParent.mp ((hfinal.read m p (hall m p hp) hp).mem_iff.mp hd)
      exact ⟨d,hrow,(hconn _).mpr ⟨m + 1,.child m _ _ hp (mem_childrenOf.mpr ⟨d,hrow,rfl,rfl⟩)⟩,rfl⟩
    · rintro ⟨d,hd,hc,rfl⟩
      have hchild : d.childRunId ∈ store.childrenOf d.parentRunId := mem_childrenOf.mpr ⟨d,hd,rfl,rfl⟩
      obtain ⟨m,hm⟩ := (hconn _).mp hc
      cases hm with
      | self => exact absurd hchild (hroot _)
      | child m p _ hp hmemp =>
        obtain rfl := hs p d.parentRunId _ hmemp hchild
        exact ⟨m,_,hiff.mpr hp,d,(hfinal.read m _ (hall m _ hp) hp).mem_iff.mpr (mem_byParent.mpr ⟨hd,rfl⟩),rfl⟩
  · rw [hspells.runId] at he
    exact hroot d.parentRunId (he ▸ mem_childrenOf.mpr ⟨d,hd,rfl,rfl⟩)

end Loops

end Store

end AgentGraph
