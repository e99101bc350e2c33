import AgentGraph.Foundation.Descent
import AgentGraph.Persistence.Transactions

/-! # The forest of delegated runs

The delegation rows make a forest: a child is new when its row is committed, and no
row is added above a committed run any more. The context a run is given therefore
keeps naming the agents of all runs above it.
-/
set_option autoImplicit false
namespace AgentGraph
open Descent

variable {cfg : Config} {store store' : Store} {r p c : RunId} {a : AgentId} {context : DelegationContext}
variable {above runs : List RunId} {inputText : String} {link : Option DelegationLink} {agent : AgentRecord}

namespace Store

/-- The agent a run belongs to. -/
def agent? (store : Store) (r : RunId) : Option AgentId := (store.runs r).map RunRecord.agentId

theorem mem_childrenOf :
    c ∈ store.childrenOf p ↔ ∃ d ∈ store.delegations, d.parentRunId = p ∧ d.childRunId = c := by
  simp [childrenOf,and_assoc]

theorem Sound.singleParent (hs : store.Sound) : SingleParent store.childrenOf := by
  intro p q c hp hq
  obtain ⟨d,hd,rfl,rfl⟩ := mem_childrenOf.mp hp
  obtain ⟨d',hd',rfl,he⟩ := mem_childrenOf.mp hq
  rw [hs.parent d hd d' hd' he.symm]

theorem Sound.above_isSome (hs : store.Sound) (h : Above store.childrenOf r above) :
    ∀ b ∈ above, (store.runs b).isSome := by
  induction h with
  | root r h => simp
  | child p r above h hr ih =>
    intro b hb
    rcases List.mem_append.mp hb with hb | hb
    · exact ih b hb
    · obtain rfl := List.mem_singleton.mp hb
      obtain ⟨d,hd,rfl,-⟩ := mem_childrenOf.mp hr
      exact (hs.delegations d hd).1

theorem Sound.line_isSome (hs : store.Sound) (h : Above store.childrenOf r above) (hr : (store.runs r).isSome) :
    ∀ b ∈ above ++ [r], (store.runs b).isSome := by
  intro b hb
  rcases List.mem_append.mp hb with hb | hb
  · exact hs.above_isSome h b hb
  · exact List.mem_singleton.mp hb ▸ hr

theorem Grows.agent? (h : store.Grows store') (hr : (store.runs r).isSome) : store'.agent? r = store.agent? r := by
  obtain ⟨run,hr⟩ := Option.isSome_iff_exists.mp hr
  obtain ⟨run',hr',ha,-⟩ := h.runs r run hr
  simp [Store.agent?,hr,hr',ha]

theorem Grows.children (h : store.Grows store') (hc : c ∈ store.childrenOf p) : c ∈ store'.childrenOf p := by
  obtain ⟨d,hd,he⟩ := mem_childrenOf.mp hc
  exact mem_childrenOf.mpr ⟨d,h.delegations d hd,he⟩

theorem Grows.map_agent? (h : store.Grows store') (hr : ∀ b ∈ runs, (store.runs b).isSome) :
    runs.map store'.agent? = runs.map store.agent? :=
  List.map_congr_left fun b hb => h.agent? (hr b hb)

/-! ## Contexts -/

/-- `context` stands `runs.length` levels below the root and names the agents of `runs`. -/
structure Names (store : Store) (runs : List RunId) (context : DelegationContext) : Prop where
  depth : context.depth = runs.length
  ancestry : context.ancestry.map some = runs.map store.agent?

/-- `context` is the context of run `r`. -/
structure ContextOf (store : Store) (r : RunId) (context : DelegationContext) : Prop where
  run : (store.runs r).isSome
  above : ∃ above, Above store.childrenOf r above ∧ store.Names above context

/-- `context` is the context of a run that run `p` delegates. -/
structure ChildContextOf (store : Store) (p : RunId) (context : DelegationContext) : Prop where
  run : (store.runs p).isSome
  above : ∃ above, Above store.childrenOf p above ∧ store.Names (above ++ [p]) context

theorem ContextOf.child {context' : DelegationContext} (h : store.ContextOf p context) (ha : store.agent? p = some a)
    (hd : context'.depth = context.depth + 1) (hn : context'.ancestry = context.ancestry ++ [a]) :
    store.ChildContextOf p context' := by
  obtain ⟨above,habove,hnames⟩ := h.above
  refine ⟨h.run,above,habove,?_,?_⟩
  · simp [hd,hnames.depth]
  · simp [hn,hnames.ancestry,ha]

/-- A run without a delegation row stands at depth zero. -/
theorem ContextOf.root {parent root : Option RunId} (hr : (store.runs r).isSome) (h : IsRoot store.childrenOf r) :
    store.ContextOf r ⟨parent,root,0,[]⟩ :=
  ⟨hr,[],.root r h,rfl,rfl⟩

end Store

open Store

/-! ## Commits -/

theorem Started.children (h : Started cfg store store' a inputText link r agent) :
    c ∈ store'.childrenOf p ↔ c ∈ store.childrenOf p ∨ ∃ l, link = some l ∧ l.parentRunId = p ∧ c = r := by
  simp only [mem_childrenOf, h.delegations, List.mem_append]
  cases link with
  | none => simp
  | some l =>
    constructor
    · rintro ⟨d,hd | hd,hp,hc⟩
      · exact .inl ⟨d,hd,hp,hc⟩
      · obtain rfl : d = _ := by simpa using hd
        exact .inr ⟨l,rfl,hp,hc.symm⟩
    · rintro (⟨d,hd,hp,hc⟩ | ⟨l',hl,hp,rfl⟩)
      · exact ⟨d,.inl hd,hp,hc⟩
      · cases hl
        exact ⟨⟨l.parentRunId,c,l.nodeId,l.depth⟩,.inr (by simp),hp,rfl⟩

/-- A child that a commit adds did not exist before. -/
theorem Commit.children (hs : store.Sound) (h : Commit cfg store store') (hc : c ∈ store'.childrenOf p) :
    c ∈ store.childrenOf p ∨ ¬ (store.runs c).isSome := by
  cases h with
  | none => exact .inl hc
  | update a graph => exact .inl hc
  | mark r now => exact .inl (by simpa [mem_childrenOf] using hc)
  | finish r outcome now => exact .inl (by simpa [mem_childrenOf] using hc)
  | start a inputText link _ r h =>
    obtain ⟨agent,h⟩ := startTransaction_started h
    rcases h.children.mp hc with hc | ⟨l,-,-,rfl⟩
    · exact .inl hc
    · exact .inr (by simp [hs.runs c h.fresh.le])

theorem Commit.isRoot (hs : store.Sound) (h : Commit cfg store store') (hr : (store.runs r).isSome)
    (hroot : IsRoot store.childrenOf r) : IsRoot store'.childrenOf r := by
  intro p hp
  rcases h.children hs hp with hold | hnew
  · exact hroot p hold
  · exact hnew hr

theorem Commit.keepsAbove (hs : store.Sound) (h : Commit cfg store store') (hr : (store.runs r).isSome)
    (ha : Above store.childrenOf r above) : Above store'.childrenOf r above := by
  have hg := h.grows hs
  refine ha.extend (fun p c hc => hg.children hc) fun p c hc => ?_
  rcases h.children hs hc with hold | hnew
  · exact .inl hold
  · refine .inr ⟨?_,fun hmem => hnew (hs.above_isSome ha c hmem)⟩
    rintro rfl
    exact hnew hr

theorem Commit.names (hs : store.Sound) (h : Commit cfg store store') (hr : ∀ b ∈ runs, (store.runs b).isSome)
    (hn : store.Names runs context) : store'.Names runs context :=
  ⟨hn.depth,hn.ancestry.trans ((h.grows hs).map_agent? hr).symm⟩

theorem Commit.contextOf (hs : store.Sound) (h : Commit cfg store store') (hc : store.ContextOf r context) :
    store'.ContextOf r context := by
  obtain ⟨above,habove,hnames⟩ := hc.above
  exact ⟨(h.grows hs).isSome hc.run,above,h.keepsAbove hs hc.run habove,h.names hs (hs.above_isSome habove) hnames⟩

theorem Commit.childContextOf (hs : store.Sound) (h : Commit cfg store store') (hc : store.ChildContextOf p context) :
    store'.ChildContextOf p context := by
  obtain ⟨above,habove,hnames⟩ := hc.above
  exact ⟨(h.grows hs).isSome hc.run,above,h.keepsAbove hs hc.run habove,
    h.names hs (hs.line_isSome habove hc.run) hnames⟩

theorem Started.commit (h : startTransaction cfg store a inputText link = .ok (store',r)) :
    Commit cfg store store' :=
  .start a inputText link store' r h

theorem Started.isSome (h : Started cfg store store' a inputText link r agent) : (store'.runs r).isSome := by
  simp [h.runs]

theorem Started.agent? (h : Started cfg store store' a inputText link r agent) : store'.agent? r = some a := by
  simp [Store.agent?,h.runs]

/-- A run that is started without a parent is a root. -/
theorem Started.isRoot (hs : store.Sound) (h : Started cfg store store' a inputText none r agent) :
    IsRoot store'.childrenOf r := by
  intro p hp
  rcases h.children.mp hp with hold | ⟨l,hl,-⟩
  · obtain ⟨d,hd,-,rfl⟩ := mem_childrenOf.mp hold
    have hrow := (hs.delegations d hd).2.1
    rw [hs.runs _ h.fresh.le] at hrow
    cases hrow
  · cases hl

/-- A delegated run has the context that its parent made for it. -/
theorem Started.contextOf {l : DelegationLink} (hs : store.Sound) (hcommit : Commit cfg store store')
    (h : Started cfg store store' a inputText (some l) r agent) (hc : store.ChildContextOf l.parentRunId context) :
    store'.ContextOf r context := by
  obtain ⟨above,habove,hnames⟩ := (hcommit.childContextOf hs hc).above
  exact ⟨h.isSome,_,.child l.parentRunId r above habove (h.children.mpr (.inr ⟨l,rfl,rfl,rfl⟩)),hnames⟩

/-! ## Bounded delegation -/

/-- No agent occurs twice above the run and at it. -/
def Store.Line (store : Store) (r : RunId) : Prop :=
  ∃ above, Above store.childrenOf r above ∧ ((above ++ [r]).map store.agent?).Nodup

/-- No agent occurs twice in a line of delegations, a delegation records its depth,
which is bounded, and a run delegates each of its nodes once. -/
structure Store.Bounded (cfg : Config) (store : Store) : Prop where
  lines : ∀ r, (store.runs r).isSome → store.Line r
  depths : ∀ d ∈ store.delegations, d.depth ≤ cfg.maxDepth ∧
    ∃ above, Above store.childrenOf d.childRunId above ∧ d.depth = above.length
  nodes : (store.delegations.map fun d => (d.parentRunId,d.nodeId)).Nodup

theorem Commit.line (hs : store.Sound) (h : Commit cfg store store') (hr : (store.runs r).isSome)
    (hl : store.Line r) : store'.Line r := by
  obtain ⟨above,habove,hnodup⟩ := hl
  refine ⟨above,h.keepsAbove hs hr habove,?_⟩
  rw [(h.grows hs).map_agent? (hs.line_isSome habove hr)]
  exact hnodup

namespace Store.Bounded

theorem commit_depths (hb : store.Bounded cfg) (hs : store.Sound) (h : Commit cfg store store') :
    ∀ d ∈ store.delegations, d.depth ≤ cfg.maxDepth ∧
      ∃ above, Above store'.childrenOf d.childRunId above ∧ d.depth = above.length := by
  intro d hd
  obtain ⟨hle,above,habove,hlen⟩ := hb.depths d hd
  exact ⟨hle,above,h.keepsAbove hs (hs.delegations d hd).2.1 habove,hlen⟩

/-- A commit that starts no run. -/
theorem same (hb : store.Bounded cfg) (hs : store.Sound) (h : Commit cfg store store')
    (hd : store'.delegations = store.delegations) (hr : ∀ r, (store'.runs r).isSome → (store.runs r).isSome) :
    store'.Bounded cfg := by
  refine ⟨fun r hrow => h.line hs (hr r hrow) (hb.lines r (hr r hrow)),?_,hd ▸ hb.nodes⟩
  rw [hd]
  exact hb.commit_depths hs h

/-- A commit that starts a run whose context has passed the two checks of `run_child`. -/
theorem started (hb : store.Bounded cfg) (hs : store.Sound) (hcommit : Commit cfg store store')
    (h : Started cfg store store' a inputText link r agent)
    (hlink : ∀ l, link = some l → ∃ context, store.ChildContextOf l.parentRunId context ∧ l.depth = context.depth ∧
      context.depth ≤ cfg.maxDepth ∧ a ∉ context.ancestry) : store'.Bounded cfg := by
  have hold : ∀ q, q ≠ r → (store'.runs q).isSome → (store.runs q).isSome := by
    intro q hq hrow
    simpa [h.runs,hq] using hrow
  cases link with
  | none =>
    have hd : store'.delegations = store.delegations := by simp [h.delegations]
    refine ⟨fun q hrow => ?_,hd ▸ hb.commit_depths hs hcommit,hd ▸ hb.nodes⟩
    by_cases hq : q = r
    · subst hq
      exact ⟨[],.root q (h.isRoot hs),by simp⟩
    · exact hcommit.line hs (hold q hq hrow) (hb.lines q (hold q hq hrow))
  | some l =>
    obtain ⟨context,hc,hdepth,hle,hagent⟩ := hlink l rfl
    have hd : store'.delegations = store.delegations ++ [⟨l.parentRunId,r,l.nodeId,l.depth⟩] := by
      simp [h.delegations]
    obtain ⟨above,habove,hnames⟩ := hc.above
    obtain ⟨above',habove',hnodup⟩ := hb.lines l.parentRunId hc.run
    obtain rfl := habove.unique hs.singleParent habove'
    have hnew : Above store'.childrenOf r (above ++ [l.parentRunId]) :=
      .child l.parentRunId r above (hcommit.keepsAbove hs hc.run habove) (h.children.mpr (.inr ⟨l,rfl,rfl,rfl⟩))
    refine ⟨fun q hrow => ?_,fun d hmem => ?_,?_⟩
    · by_cases hq : q = r
      · subst hq
        refine ⟨_,hnew,?_⟩
        have hmap : (above ++ [l.parentRunId]).map store'.agent? = context.ancestry.map some := by
          rw [(hcommit.grows hs).map_agent? (hs.line_isSome habove hc.run), hnames.ancestry]
        rw [List.map_append, hmap, List.map_singleton, h.agent?]
        rw [← hnames.ancestry] at hnodup
        exact List.nodup_append.mpr ⟨hnodup,by simp,by simpa using fun b hb (he : b = a) => hagent (he ▸ hb)⟩
      · exact hcommit.line hs (hold q hq hrow) (hb.lines q (hold q hq hrow))
    · rw [hd] at hmem
      rcases List.mem_append.mp hmem with hmem | hmem
      · exact hb.commit_depths hs hcommit d hmem
      · obtain rfl := List.mem_singleton.mp hmem
        exact ⟨by simpa [hdepth] using hle,_,hnew,hdepth.trans hnames.depth⟩
    · have hfree := h.allowed l rfl
      simp only [linkAllowed, Bool.and_eq_true, Bool.not_eq_true', List.any_eq_false, beq_iff_eq] at hfree
      rw [hd, List.map_append, List.map_singleton]
      refine List.nodup_append.mpr ⟨hb.nodes,by simp,?_⟩
      simpa using hfree.2

/-- A run has at most one child for each of its nodes. -/
theorem length_childrenOf_le (hb : store.Bounded cfg) {ids : List String}
    (h : ∀ d ∈ store.delegations, d.parentRunId = p → d.nodeId ∈ ids) : (store.childrenOf p).length ≤ ids.length := by
  have hrows := (List.filter_sublist (p := fun d : DelegationRecord => d.parentRunId == p) (l := store.delegations)).map
    (fun d => (d.parentRunId,d.nodeId)) |>.nodup hb.nodes
  have hparent : ∀ d ∈ store.delegations.filter fun d => d.parentRunId == p, d.parentRunId = p := by
    intro d hd
    simpa using (List.mem_filter.mp hd).2
  have hids : ((store.delegations.filter fun d => d.parentRunId == p).map DelegationRecord.nodeId).Nodup := by
    refine hrows.of_map.map_on fun d hd d' hd' he => ?_
    exact List.inj_on_of_nodup_map hrows hd hd' (by simp [hparent d hd,hparent d' hd',he])
  have hsub : ((store.delegations.filter fun d => d.parentRunId == p).map DelegationRecord.nodeId) ⊆ ids := by
    intro id hid
    obtain ⟨d,hd,rfl⟩ := List.mem_map.mp hid
    exact h d (List.mem_filter.mp hd).1 (hparent d hd)
  simpa [Store.childrenOf] using (hids.subperm hsub).length_le

/-- A chain of delegations is part of the line of its last run. -/
theorem chain (hs : store.Sound) (hb : store.Bounded cfg) {chain : List RunId}
    (h : chain.IsChain fun p c => c ∈ store.childrenOf p) : (chain.map store.agent?).Nodup := by
  rcases List.eq_nil_or_concat' chain with rfl | ⟨init,c,rfl⟩
  · exact List.nodup_nil
  by_cases hrow : (store.runs c).isSome
  · obtain ⟨above,habove,hnodup⟩ := hb.lines c hrow
    obtain ⟨pre,rfl⟩ := habove.suffix hs.singleParent h
    have hsub : (init ++ [c]).Sublist (pre ++ init ++ [c]) := by
      rw [List.append_assoc]
      exact List.sublist_append_right pre (init ++ [c])
    exact (hsub.map store.agent?).nodup hnodup
  · rcases List.eq_nil_or_concat' init with rfl | ⟨init,p,rfl⟩
    · simp
    · have hc := (List.isChain_append.mp h).2.2 p (by simp) c (by simp)
      obtain ⟨d,hd,-,rfl⟩ := mem_childrenOf.mp hc
      exact absurd (hs.delegations d hd).2.1 hrow

theorem level_lt (hs : store.Sound) (hb : store.Bounded cfg) {k : Nat} {c : RunId}
    (h : Below store.childrenOf r (k + 1) c) : k < cfg.maxDepth := by
  have hc : ∃ p, c ∈ store.childrenOf p := by
    cases h with
    | child _ p _ _ hc => exact ⟨p,hc⟩
  obtain ⟨p,hc⟩ := hc
  obtain ⟨d,hd,-,rfl⟩ := mem_childrenOf.mp hc
  obtain ⟨hle,above,habove,hlen⟩ := hb.depths d hd
  have hlevel := h.le_above hs.singleParent habove
  omega

end Store.Bounded

end AgentGraph
