import AgentGraph.Manager.Lifecycle
import AgentGraph.Manager.Orphans

/-! # A required child that does not succeed fails its parent

The task of a child that is cancelled ends with `CancelledError`, and the handler of
`run_child` cannot tell that from a cancellation of its own task. As long as no node
task of a team run makes this mistake, the team run fails with the error of a child.
-/
set_option autoImplicit false
namespace AgentGraph.Manager
open Sys Transition Store

variable {cfg : Config} {s t : Sys} {l : Label} {i j : TaskId} {p q : Point} {c : Ctl} {store : Store} {r : RunId}
variable {x : NodeCall × RunId} {ch : Choice} {now : Instant} {agents : AgentId → Option AgentRecord} {e : Exc}

/-! ## The condition -/

/-- The task of run `r` has never been asked to cancel, and nobody else is about to
write the end of the run: it is neither stopped nor shut down. -/
def spares (r : RunId) (l : Label) (s : Sys) : Bool :=
  !s.cancelRequested (.run r) &&
    match l with
    | .run i _ _ =>
      match s.point? i with
      | some (.finishWrite q _ _) => q != r || i == .run r
      | _ => true
    | _ => true

def Point.scheduling : Point → Bool
  | .readyWait _ _ _ => true
  | _ => false

/-- A node task of run `r` that is not cancelled takes the cancellation of its child for
its own while `r` waits for the round. -/
def mistakes (r : RunId) (l : Label) (s : Sys) : Bool :=
  match l with
  | .run i _ _ =>
    match s.point? i with
    | some (.childWait n c) =>
      n.parent == r && !s.mustCancel i && s.result? (.run c) == some (.raised .cancelled) &&
        (s.point? (.run r)).any Point.scheduling
    | _ => false
  | _ => false

/-- No await raises `CancelledError` of its own accord. -/
def Label.genuine : Label → Bool
  | .run _ ch _ => ch != .fail .cancelled
  | _ => true

def tellsApart (r : RunId) (l : Label) (s : Sys) : Prop :=
  markSafe l s ∧ l.genuine = true ∧ spares r l s = true ∧ mistakes r l s = false

instance (r : RunId) : ∀ l s, Decidable (tellsApart r l s) := fun l s =>
  inferInstanceAs (Decidable (markSafe l s ∧ l.genuine = true ∧ spares r l s = true ∧ mistakes r l s = false))

/-! ## How a node task ends -/

/-- The exception with which a node task ends that stands at an await and is not
cancelled: the error for a child that did not succeed, that of a timeout, or what was
raised while the child was still being started. -/
inductive Blames (s : Sys) : Point → Exc → Prop
  | unsuccessful (n : NodeCall) (c : RunId) (run : RunRecord) (h : s.store.runs c = some run)
      (hs : ¬ (run.status = .succeeded ∧ run.outputText.isSome)) :
      Blames s (.childRead n c)
        (workerFailed (if run.status = .cancelled then "CHILD_CANCELLED" else "CHILD_FAILED") n.node)
  | timedOut (p : Point) (n : NodeCall) (c b : RunId) (h : p.stop? = some (.child n c childTimeout,b)) :
      Blames s p childTimeout
  | notStarted (p : Point) (e : Exc) (h : p.joined? = none) : Blames s p e

theorem startTransaction_error {a : AgentId} {inputText : String} {link : Option DelegationLink}
    (h : startTransaction cfg store a inputText link = .error e) : e ≠ .cancelled := by
  unfold startTransaction at h
  split at h
  · cases h; simp
  split at h
  next error he =>
    cases h
    obtain ⟨code,message,rfl⟩ := validateTeamGraph_error he
    simp
  split at h
  · cases h; simp
  split at h
  · cases h
  · cases h; simp

theorem resumeStart_cancelled {eff : Effect} (h : s.resumeStart cfg i p ch = some eff)
    (hd : eff.next = .done (.raised .cancelled)) : ch = .fail .cancelled := by
  unfold resumeStart at h
  split at h
  next a => split at h <;> cases h; cases hd
  next a =>
    split at h <;> cases h
    next e he =>
      exact absurd (by simpa using hd) (startTransaction_error he)
    · cases hd
  next a r cp => cases h; cases hd
  next a r cp => cases h; cases hd
  next a r cp =>
    cases h
    cases hc : a.child with
    | none => simp [hc,startReturn,Effect.done] at hd
    | some n => by_cases hr : r ∈ s.registry <;> simp [hc,startReturn,hr,Effect.goto,endNode,childStartFailed] at hd
  next a e => cases h; rw [show e = .cancelled by simpa using hd]
  next a r cp e => cases h; rw [show e = .cancelled by simpa using hd]
  next a r cp e => cases h; rw [show e = .cancelled by simpa using hd]
  next a r cp e => cases h; rw [show e = .cancelled by simpa using hd]
  next => cases h

/-- A stop in progress was in progress before, or a handler of `run_child` has begun. -/
theorem Moved.stopBack {y : Root × RunId} (h : Moved cfg s i p (.waiting q) store) (hq : q.stop? = some y) :
    p.stop? = some y ∨ ∃ n c e, p = .childWait n c ∧ y = (.child n c e,c) ∧ (s.mustCancel i = true ∨
      (s.mustCancel i = false ∧ s.result? (.run c) = some (.raised .cancelled)) ∨ e = childTimeout) := by
  cases h with
  | delivered hm hd hs =>
    cases hd
    case handler n c => cases hq; exact .inr ⟨n,c,_,rfl,rfl,.inl hm⟩
    all_goals cases hq
  | resumed hm hn =>
    cases hn
    case continued h => exact .inl (h.stop.symm.trans hq)
    case invoked hq' => rw [hq'.stop.1] at hq; cases hq
    case roundDone hq' => rw [hq'.stop.1] at hq; cases hq
    case childCancelled n c hres => cases hq; exact .inr ⟨n,c,_,rfl,rfl,.inr (.inl ⟨hm,hres⟩)⟩
    case childTimeout n c hd => cases hq; exact .inr ⟨n,c,_,rfl,rfl,.inr (.inr rfl)⟩
    all_goals exact .inl hq

/-- A node task ends with the output of its child or with an exception. -/
theorem Moved.nodeDone {result : Result} (h : Moved cfg s i p (.done result) store) (hp : p.parent? = some r) :
    (∃ n c run text, p = .childRead n c ∧ s.store.runs c = some run ∧ run.status = .succeeded ∧
      result = .output text) ∨ ∃ e, result = .raised e := by
  cases h with
  | delivered hm hd hs => cases hd; exact .inr ⟨_,rfl⟩
  | resumed hm hn =>
    cases hn
    case startReturned a _ cp hc => simp [Point.parent?,Point.child?,hc] at hp
    case childSucceeded n c run text hrun ht hs => exact .inl ⟨n,c,run,text,rfl,hrun,ht,rfl⟩
    case updateWrite => cases hp
    case continued hc =>
      have hx : ∃ x, p.child? = some x := by
        have hmap : p.parent? = p.child?.map fun x => x.1.parent := by cases hc <;> rfl
        obtain ⟨x,hx,-⟩ := Option.map_eq_some_iff.mp (hmap.symm.trans hp)
        exact ⟨x,hx⟩
      obtain ⟨x,hx⟩ := hx
      cases hc
      case finishSkip hs hc =>
        cases hc with
        | returned => cases hx
        | reraised e => exact .inr ⟨_,rfl⟩
        | shutdown rest c h => cases hx
        | stopFailed k c h => cases h <;> exact .inr ⟨_,rfl⟩
      case finishPublish hc =>
        cases hc with
        | returned => cases hx
        | reraised e => exact .inr ⟨_,rfl⟩
        | shutdown rest c h => cases hx
        | stopFailed k c h => cases h <;> exact .inr ⟨_,rfl⟩
      case stopTerminal hc => cases hc <;> exact .inr ⟨_,rfl⟩
      case stopTimeout hc => cases hc <;> exact .inr ⟨_,rfl⟩
      case stopReadBack hc =>
        cases hc with
        | call => cases hx
        | child n e => exact .inr ⟨_,rfl⟩
      case shutdownWait => cases hx
    all_goals exact .inr ⟨_,rfl⟩

/-- A node task that is not cancelled and handles at most a timeout ends with an
exception only when its child or its start is to blame. -/
theorem RunStep.blames (hi : Joined s) (hstep : step cfg (.run i ch now) s = some t)
    (h : RunStep cfg s t i p (.done (.raised e))) (hp : p.parent? = some r) (hm : s.mustCancel i = false)
    (hg : ch ≠ .fail .cancelled)
    (ht : ∀ n c e b, p.stop? = some (.child n c e,b) → e = childTimeout) : e ≠ .cancelled ∧ Blames s p e := by
  have hw := hi.completed.wellFormed
  have hpoint := h.point
  have hrow : ∀ r ∈ p.visits, s.store.runs r ≠ none := fun r hr hn => by
    have := hi.visited i p hpoint r hr
    rw [hn] at this
    cases this
  have hhandler : ∀ n c b, p.stop? = some (.child n c e,b) → e ≠ .cancelled ∧ Blames s p e := by
    intro n c b hs
    obtain rfl := ht n c e b hs
    exact ⟨by simp [childTimeout],.timedOut p n c b hs⟩
  have hchild : p.parent? = p.child?.map (fun x => x.1.parent) → ∃ x, p.child? = some x := by
    intro hmap
    obtain ⟨x,hx,-⟩ := Option.map_eq_some_iff.mp (hmap.symm.trans hp)
    exact ⟨x,hx⟩
  cases h.moved with
  | delivered hm' hd hs => rw [hm] at hm'; cases hm'
  | resumed hm hn =>
    obtain ⟨eff,he,hnext⟩ := step_resumed hw hstep h hm
    generalize t.store = store at hn
    have hstart : p.started?.isSome → e ≠ .cancelled := by
      rintro hs rfl
      obtain ⟨a,hs⟩ := Option.isSome_iff_exists.mp hs
      have hres : s.resume cfg i p ch now = s.resumeStart cfg i p ch := by cases p <;> first | rfl | cases hs
      exact hg (resumeStart_cancelled (hres ▸ he) hnext)
    cases hn
    case startRefused a h => exact ⟨hstart rfl,.notStarted _ _ rfl⟩
    case startRaised a h =>
      refine ⟨hstart (by simp [h]),.notStarted _ _ ?_⟩
      cases p <;> first | rfl | cases h
    case childLost a r cp n hc hr => exact ⟨by simp [childStartFailed],.notStarted _ _ rfl⟩
    case nodeKeyError T node h => exact ⟨by simp,.notStarted _ _ rfl⟩
    case nodeRefused n h => exact ⟨h,.notStarted _ _ rfl⟩
    case childRaised n c hres hne =>
      rcases (hi.completed.result c _ hres).1 with h | h
      · cases h
      · cases h; exact absurd rfl hne
    case childMissing n c hnone => exact absurd hnone (hrow c List.mem_cons_self)
    case childUnsuccessful n c run hrun hs => exact ⟨by simp [workerFailed],.unsuccessful n c run hrun hs⟩
    case stopMissing r k hnone =>
      obtain ⟨x,hx⟩ := hchild rfl
      exact absurd hnone (hrow r (root_mem_visits hx))
    case backMissing r k hnone => exact absurd hnone (hrow r List.mem_cons_self)
    case descMissing c rest k hnone => exact absurd hnone (hrow c List.mem_cons_self)
    case updateRefused => cases hp
    case continued hc =>
      obtain ⟨x,hx⟩ := hchild (by cases hc <;> rfl)
      cases hc
      case finishSkip r outcome k hs hc =>
        cases hc with
        | reraised e => cases hx
        | shutdown rest c h => cases hx
        | stopFailed k c h =>
          cases h with
          | call => cases hx
          | child n e => exact hhandler n r _ rfl
      case finishPublish r outcome cp k hc =>
        cases hc with
        | reraised e => cases hx
        | shutdown rest c h => cases hx
        | stopFailed k c h =>
          cases h with
          | call => cases hx
          | child n e => exact hhandler n r _ rfl
      case stopTerminal r k run hrun hs hc =>
        cases hc with
        | call => cases hx
        | child n e => exact hhandler n r _ rfl
      case stopTimeout r k hd hc =>
        cases hc with
        | call => cases hx
        | child n e => exact hhandler n r _ rfl
      case stopReadBack r k run hrun hc =>
        cases hc with
        | child n e => exact hhandler n r _ rfl
      case shutdownWait => cases hx

/-! ## The invariant -/

/-- A node task of run `r` has ended with `e`, and a child or a start was to blame. -/
def RaisedBy (cfg : Config) (agents : AgentId → Option AgentRecord) (r : RunId) (e : Exc) (s : Sys) : Prop :=
  ∃ u l v k p, Run cfg (tellsApart r) (initial agents) u ∧ step cfg l u = some v ∧ Run cfg (tellsApart r) v s ∧
    u.point? (.node k) = some p ∧ p.parent? = some r ∧ v.result? (.node k) = some (.raised e) ∧ Blames u p e

/-- A node task of a round that nobody has cancelled. -/
structure CalmNode (cfg : Config) (agents : AgentId → Option AgentRecord) (r : RunId) (s : Sys) (k : Nat) : Prop where
  spared : s.mustCancel (.node k) = false
  handles : ∀ p n c e b, s.point? (.node k) = some p → p.stop? = some (.child n c e,b) → e = childTimeout
  raised : ∀ e, s.result? (.node k) = some (.raised e) → e ≠ .cancelled ∧ RaisedBy cfg agents r e s

/-- What is known at the awaits of `_run_ready`. -/
def Point.Stage (cfg : Config) (agents : AgentId → Option AgentRecord) (r : RunId) (s : Sys) : Point → Prop
  | .readyWait _ _ tasks => ∀ k ∈ tasks.map Prod.snd, CalmNode cfg agents r s k
  | .readyGather _ _ e => e ≠ .cancelled ∧ RaisedBy cfg agents r e s
  | .readyCleanup _ _ => False
  | _ => True

/-- The error that the task of a run is about to write. -/
def Point.fails? : Point → Option String
  | .finishLock _ (.failed error) (.exec none) | .finishRead _ (.failed error) (.exec none)
  | .finishWrite _ (.failed error) (.exec none) => some error
  | _ => none

/-- The run has failed, or cannot end otherwise. -/
inductive Doomed (cfg : Config) (agents : AgentId → Option AgentRecord) (r : RunId) (s : Sys) : Prop
  | round (q : RunId) (T : TeamState) (tasks : List (TeamNode × Nat)) (k : Nat) (e : Exc)
      (hp : s.point? (.run r) = some (.readyWait q T tasks)) (hk : k ∈ tasks.map Prod.snd)
      (he : s.result? (.node k) = some (.raised e))
  | gather (q : RunId) (tasks : List (TeamNode × Nat)) (e : Exc) (hp : s.point? (.run r) = some (.readyGather q tasks e))
  | finish (p : Point) (e : Exc) (he : RaisedBy cfg agents r e s) (hp : s.point? (.run r) = some p)
      (hf : p.fails? = some (roundError e).runError)
  | failed (run : RunRecord) (e : Exc) (he : RaisedBy cfg agents r e s) (hr : s.store.runs r = some run)
      (hs : run.status = .failed) (herror : run.error = some (roundError e).runError)

/-- A node task of run `r` still has to end for the child. -/
def Sys.AwaitedBy (s : Sys) (r child : RunId) : Prop :=
  ∃ k p n, s.point? (.node k) = some p ∧ p.child? = some (n,child) ∧ n.parent = r

/-- A run with a child that is neither awaited nor successful is bound to fail. -/
structure Fated (cfg : Config) (agents : AgentId → Option AgentRecord) (r : RunId) (s : Sys) : Prop where
  run : Run cfg (tellsApart r) (initial agents) s
  joined : Joined s
  lifecycle : Lifecycle cfg s
  hosted : Hosted s
  assigned : s.Assigned
  stage : ∀ p, s.point? (.run r) = some p → p.Stage cfg agents r s
  finished : s.Ended r → s.tasks (.run r) ≠ none ∧
    ∀ p, s.point? (.run r) = some p → ∃ outcome cp k, p = .finishPublish r outcome cp k
  children : ∀ child ∈ s.store.childrenOf r,
    s.AwaitedBy r child ∨ s.status? child = some .succeeded ∨ Doomed cfg agents r s

theorem RaisedBy.step (h : RaisedBy cfg agents r e s) (hok : tellsApart r l s) (hs : step cfg l s = some t) :
    RaisedBy cfg agents r e t := by
  obtain ⟨u,l',v,k,p,hu,hv,hrun,hrest⟩ := h
  exact ⟨u,l',v,k,p,hu,hv,hrun.tail ⟨l,hok,hs⟩,hrest⟩

/-! ### What the condition says about a step -/

theorem tellsApart_spared (hc : Completed s) (hok : tellsApart r l s) : s.mustCancel (.run r) = false := by
  obtain ⟨-,-,hs,-⟩ := hok
  simp only [spares, Bool.and_eq_true, Bool.not_eq_true'] at hs
  by_contra hm
  have := hc.requested (.run r) (by simpa using hm)
  rw [hs.1] at this
  cases this

theorem tellsApart_own {outcome : Terminal} {k : FinishCont} (hok : tellsApart r (.run i ch now) s)
    (hp : s.point? i = some (.finishWrite r outcome k)) : i = .run r := by
  obtain ⟨-,-,hs,-⟩ := hok
  simp only [spares, hp, Bool.and_eq_true] at hs
  simpa using hs.2

theorem tellsApart_apart {n : NodeCall} {child q : RunId} {T : TeamState} {tasks : List (TeamNode × Nat)}
    (hok : tellsApart r (.run i ch now) s) (hp : s.point? i = some (.childWait n child)) (hn : n.parent = r)
    (hm : s.mustCancel i = false) (hr : s.point? (.run r) = some (.readyWait q T tasks)) :
    s.result? (.run child) ≠ some (.raised .cancelled) := by
  obtain ⟨-,-,-,hs⟩ := hok
  intro hres
  simp [mistakes,hp,hn,hm,hres,hr,Point.scheduling] at hs

/-! ### The node tasks of the round -/

theorem Fated.calm {q : RunId} {T : TeamState} {tasks : List (TeamNode × Nat)} {k : Nat} (hi : Fated cfg agents r s)
    (hstep : step cfg (.run i ch now) s = some t) (h : RunStep cfg s t i p c) (hok : tellsApart r (.run i ch now) s)
    (hne : i ≠ .run r) (hp : s.point? (.run r) = some (.readyWait q T tasks)) (hk : k ∈ tasks.map Prod.snd)
    (hc : CalmNode cfg agents r s k) : CalmNode cfg agents r t k := by
  have hw := hi.joined.completed.wellFormed
  obtain ⟨hex,hpar⟩ := hi.assigned r _ tasks hp rfl k hk
  have hnot : ∀ p', s.point? (.node k) = some p' → .node k ∉ cancelled s c := by
    intro p' hp' hmem
    obtain ⟨q',P,tasks',hP,hround,hk',hcase⟩ := h.cancelledNode hw hmem
    have hpar' := (hi.assigned q' P tasks' hP hround k hk').2 p' hp'
    obtain rfl : q' = r := Option.some.inj (hpar'.symm.trans (hpar p' hp'))
    rw [hp] at hP
    cases hP
    rcases hcase with he | hall
    · exact hne he
    · exact hall _ _ _ rfl
  refine ⟨by_contra fun hm => ?_,fun p' n child e b hp' hs => ?_,fun e he => ?_⟩
  · rcases (h.mustCancel _ (h.not_spawned hw hex)).mp (by simpa using hm) with ⟨hmem,hsome⟩ | ⟨-,hm⟩
    · obtain ⟨p',hp'⟩ := Option.isSome_iff_exists.mp hsome
      exact hnot p' hp' hmem
    · rw [hc.spared] at hm
      cases hm
  · rcases h.back hw (point?_eq_some.mp hp') with ⟨rfl,rfl⟩ | ⟨_,hold⟩ | ⟨hn,_⟩
    · rcases h.moved.stopBack hs with hold | ⟨n',child',e',rfl,hy,hcase⟩
      · exact hc.handles p n child e b h.point hold
      · cases hy
        rcases hcase with hm | ⟨hm,hres⟩ | he
        · rw [hc.spared] at hm
          cases hm
        · have hn : n.parent = r := Option.some.inj (hpar _ h.point)
          exact absurd hres (tellsApart_apart hok h.point hn hm hp)
        · exact he
    · exact hc.handles p' n child e b (point?_eq_some.mpr hold) hs
    · exact absurd hn hex
  · rcases h.back hw (result?_eq_some.mp he) with ⟨rfl,rfl⟩ | ⟨_,hold⟩ | ⟨hn,_⟩
    · have hg : ch ≠ .fail .cancelled := by simpa [Label.genuine] using hok.2.1
      obtain ⟨hne',hb⟩ := h.blames hi.joined hstep (hpar p h.point) hc.spared hg
        (fun n child e b hs => hc.handles p n child e b h.point hs)
      exact ⟨hne',s,_,t,k,p,hi.run,hstep,.refl,h.point,hpar p h.point,he,hb⟩
    · obtain ⟨hne',hr⟩ := hc.raised e (result?_eq_some.mpr hold)
      exact ⟨hne',hr.step hok hstep⟩
    · exact absurd hn hex

/-! ### The task of the run -/

theorem Moved.readyGather {tasks : List (TeamNode × Nat)} {q : RunId}
    (h : Moved cfg s i p (.waiting (.readyGather q tasks e)) store) :
    ∃ T k, p = .readyWait q T tasks ∧ k ∈ tasks.map Prod.snd ∧ s.result? (.node k) = some (.raised e) := by
  cases h with
  | delivered hm hd hs => cases hd
  | resumed hm hn =>
    cases hn
    case continued h => exact Bool.noConfusion h.continues
    case invoked hq => exact Bool.noConfusion hq.runs
    case roundDone hq => exact Bool.noConfusion hq.runs
    case roundFailed T y ht hw he => exact ⟨T,y.2,rfl,List.mem_map_of_mem ht,he⟩

theorem Moved.readyCleanup {tasks : List (TeamNode × Nat)} {q : RunId}
    (h : Moved cfg s i p (.waiting (.readyCleanup q tasks)) store) (hm : s.mustCancel i = false) :
    p = .readyGather q tasks .cancelled := by
  cases h with
  | delivered hm' hd hs => rw [hm] at hm'; cases hm'
  | resumed hm hn =>
    cases hn
    case continued h => exact Bool.noConfusion h.continues
    case invoked hq => exact Bool.noConfusion hq.runs
    case roundDone hq => exact Bool.noConfusion hq.runs
    case gatherCancelled hd => rfl

theorem Point.fails_eq {error : String} (h : p.fails? = some error) : ∃ q,
    p = .finishLock q (.failed error) (.exec none) ∨ p = .finishRead q (.failed error) (.exec none) ∨
      p = .finishWrite q (.failed error) (.exec none) := by
  unfold Point.fails? at h
  split at h <;> cases h
  · exact ⟨_,.inl rfl⟩
  · exact ⟨_,.inr (.inl rfl)⟩
  · exact ⟨_,.inr (.inr rfl)⟩

/-- A run that is about to write an error goes on to do so unless it has ended. -/
theorem Moved.fails {error : String} (h : Moved cfg s i p c store) (hp : p.fails? = some error)
    (hm : s.mustCancel i = false) : (∃ q, c = .waiting q ∧ q.fails? = some error) ∨
      (∃ q, p.owner = .run q ∧ ∀ run, s.store.runs q = some run → run.status.terminal = true) ∨
      ∃ q now, p.owner = .run q ∧ store = finishTransaction cfg s.store q (.failed error) now := by
  cases h with
  | delivered hm' hd hs => rw [hm] at hm'; cases hm'
  | resumed hm hn =>
    obtain ⟨q,rfl | rfl | rfl⟩ := Point.fails_eq hp
    · cases hn
      case continued hc => cases hc
      case startRaised hs => cases hs
      case finishLock => exact .inl ⟨_,rfl,rfl⟩
    · cases hn
      case continued hc => cases hc with | finishSkip _ _ _ _ hs hc => exact .inr (.inl ⟨q,rfl,hs⟩)
      case startRaised hs => cases hs
      case finishRead => exact .inl ⟨_,rfl,rfl⟩
    · cases hn
      case continued hc => cases hc
      case startRaised hs => cases hs
      case finishWrite now => exact .inr (.inr ⟨q,now,rfl,rfl⟩)

namespace Fated

variable (hi : Fated cfg agents r s) (hstep : step cfg (.run i ch now) s = some t) (h : RunStep cfg s t i p c)
variable (hok : tellsApart r (.run i ch now) s)
include hi h hok

theorem step_finished (he : t.Ended r) : t.tasks (.run r) ≠ none ∧
    ∀ q, t.point? (.run r) = some q → ∃ outcome cp k, q = .finishPublish r outcome cp k := by
  have hw := hi.joined.completed.wellFormed
  by_cases hs : s.Ended r
  · obtain ⟨hex,hall⟩ := hi.finished hs
    refine ⟨h.tasks_mono hw hex,fun q hq => ?_⟩
    rcases h.back hw (point?_eq_some.mp hq) with ⟨rfl,rfl⟩ | ⟨_,hold⟩ | ⟨hn,_⟩
    · obtain ⟨outcome,cp,k,rfl⟩ := hall p h.point
      obtain ⟨-,e,rfl⟩ := FinishCont.owner_eq (hw.owner _ _ h.point)
      have hmoved := h.moved
      generalize t.store = store at hmoved
      cases hmoved with
      | delivered hm hd hs => cases hd; contradiction
      | resumed hm hn =>
        cases hn
        case continued hc => cases hc with | finishPublish _ _ _ _ _ hc => cases hc.exec
    · exact hall q (point?_eq_some.mpr hold)
    · exact absurd hn hex
  · have hwrite : ∃ outcome k, p = .finishWrite r outcome k ∧ s.mustCancel i = false := by
      obtain ⟨run,hrun,ht⟩ := he
      cases h.row hi.lifecycle r with
      | same hrow hc => exact absurd ⟨run,hrow ▸ hrun,ht⟩ hs
      | started row hnone hrow hq hc =>
        rw [hrow] at hrun
        cases hrun
        rw [hq] at ht
        cases ht
      | marked row now hold ha hrow hc =>
        rw [hrow] at hrun
        cases hrun
        cases ht
      | finished row outcome k now hm hp hold ha hrow hc => exact ⟨outcome,k,hp,hm⟩
    obtain ⟨outcome,k,rfl,hm⟩ := hwrite
    obtain rfl := tellsApart_own hok h.point
    refine ⟨h.tasks_mono hw (WellFormed.exists_of_point h.point),fun q hq => ?_⟩
    have hc := h.mover hw
    rw [point?_eq_some.mp hq] at hc
    cases hc
    have hmoved := h.moved
    generalize t.store = store at hmoved
    cases hmoved with
    | delivered hm' hd hs => rw [hm] at hm'; cases hm'
    | resumed hm hn =>
      cases hn
      case continued hc => cases hc
      case finishWrite => exact ⟨_,_,_,rfl⟩

include hstep

theorem step_stage (hq : t.point? (.run r) = some q) : q.Stage cfg agents r t := by
  have hw := hi.joined.completed.wellFormed
  have hspared := tellsApart_spared hi.joined.completed hok
  rcases h.back hw (point?_eq_some.mp hq) with ⟨rfl,rfl⟩ | ⟨hne,hold⟩ | ⟨_,q',hq',hl⟩
  · have hstage := hi.stage p h.point
    cases q
    case readyWait q T tasks =>
      intro k hk
      obtain ⟨node,hnode⟩ := h.newRound hk
      have hpoint := point?_new hnode
      refine ⟨by simp [Sys.mustCancel,hnode,Task.new],fun p n child e b hp hs => ?_,fun e he => ?_⟩
      · rw [hpoint] at hp
        cases hp
        cases hs
      · rw [result?_eq_some, point?_eq_some.mp hpoint] at he
        cases he
    case readyGather q tasks e =>
      obtain ⟨T,k,rfl,hk,he⟩ := h.moved.readyGather
      obtain ⟨hne,hr⟩ := (hstage k hk).raised e he
      exact ⟨hne,hr.step hok hstep⟩
    case readyCleanup q tasks =>
      obtain rfl := h.moved.readyCleanup hspared
      exact absurd rfl hstage.1
    all_goals exact trivial
  · have hp := point?_eq_some.mpr hold
    have hstage := hi.stage q hp
    cases q
    case readyWait q T tasks =>
      intro k hk
      exact hi.calm hstep h hok (Ne.symm hne) hp hk (hstage k hk)
    case readyGather q tasks e => exact ⟨hstage.1,hstage.2.step hok hstep⟩
    case readyCleanup q tasks => exact hstage
    all_goals exact trivial
  · cases hq'
    rcases lookup_spawned hl with ⟨_,_,_,_,_,_,_,rfl⟩ | ⟨_,_,_,_,_,_,_,rfl⟩ <;> exact trivial

/-- A run that is bound to fail stays so. -/
theorem step_doomed (hd : Doomed cfg agents r s) : Doomed cfg agents r t := by
  have hw := hi.joined.completed.wellFormed
  have hspared := tellsApart_spared hi.joined.completed hok
  have hstays : i ≠ .run r → ∀ p', s.point? (.run r) = some p' → t.point? (.run r) = some p' := fun hne p' hp' =>
    point?_eq_some.mpr ((h.stays hw (Ne.symm hne) (WellFormed.exists_of_point hp')).trans (point?_eq_some.mp hp'))
  have hmove : ∀ q, i = .run r → c = .waiting q → t.point? (.run r) = some q := fun q he hc =>
    point?_eq_some.mpr (he ▸ hc ▸ h.mover hw)
  have hmoved := h.moved
  cases hd with
  | round q T tasks k e hp hk he =>
    by_cases hne : i = .run r
    · subst hne
      obtain rfl : p = .readyWait q T tasks := Option.some.inj (h.point.symm.trans hp)
      generalize t.store = store at hmoved
      cases hmoved with
      | delivered hm hd hs => rw [hspared] at hm; cases hm
      | resumed hm hn =>
        cases hn
        case continued hc => cases hc
        case startRaised hs => cases hs
        case roundDone hd hf hq =>
          obtain ⟨y,hy,rfl⟩ := List.mem_map.mp hk
          have hfalse := List.any_eq_false.mp hf y hy
          simp [he] at hfalse
        case roundFailed y e' hy he' hw' => exact .gather q tasks e' (hmove _ rfl rfl)
    · have hke : .node k ≠ i := by
        rintro rfl
        rw [result?_eq_some, point?_eq_some.mp h.point] at he
        cases he
      have hex : s.tasks (.node k) ≠ none := tasks_of_done (Sys.isDone_iff.mpr ⟨_,result?_eq_some.mp he⟩)
      have hres := (h.stays hw hke hex).trans (result?_eq_some.mp he)
      exact .round q T tasks k e (hstays hne _ hp) hk (result?_eq_some.mpr hres)
  | gather q tasks e hp =>
    by_cases hne : i = .run r
    · subst hne
      obtain rfl : p = .readyGather q tasks e := Option.some.inj (h.point.symm.trans hp)
      obtain ⟨hne,hraised⟩ := hi.stage _ hp
      generalize t.store = store at hmoved
      cases hmoved with
      | delivered hm hd hs => rw [hspared] at hm; cases hm
      | resumed hm hn =>
        cases hn
        case continued hc => cases hc
        case startRaised hs => cases hs
        case gatherCancelled => exact absurd rfl hne
        case gatherFailed he hd => exact .finish _ e (hraised.step hok hstep) (hmove _ rfl rfl) rfl
    · exact .gather q tasks e (hstays hne _ hp)
  | finish p' e he hp hf =>
    have he := he.step hok hstep
    by_cases hne : i = .run r
    · subst hne
      obtain rfl : p = p' := Option.some.inj (h.point.symm.trans hp)
      have hrow := hw.run r (WellFormed.exists_of_point h.point)
      obtain ⟨run,hrun⟩ := Option.isSome_iff_exists.mp hrow
      have hown : ∀ q, p.owner = .run q → q = r := fun q ho => by
        have := (hw.owner _ p h.point).symm.trans ho
        cases this
        rfl
      rcases hmoved.fails hf hspared with ⟨q,rfl,hf⟩ | ⟨q,ho,hs⟩ | ⟨q,now,ho,hst⟩
      · exact .finish q e he (hmove q rfl rfl) hf
      · obtain rfl := hown q ho
        obtain ⟨outcome,cp,k,rfl⟩ := (hi.finished ⟨run,hrun,hs run hrun⟩).2 p h.point
        cases hf
      · obtain rfl := hown q ho
        refine .failed ((Terminal.failed (roundError e).runError).assign now run) e he ?_ rfl rfl
        rw [hst, finishTransaction_runs]
        simp [hrun]
    · exact .finish p' e he (hstays hne _ hp) hf
  | failed run e he hr hs herror =>
    have hrow := (h.row hi.lifecycle r).ended hr (by rw [hs]; rfl)
    exact .failed run e (he.step hok hstep) hrow hs herror

/-- A node task of the run ends because its child has succeeded, or dooms the run. -/
theorem step_ends {k : Nat} {result : Result} (hk : i = .node k) (hc : c = .done result) (hp : p.parent? = some r) :
    (∃ n child, p = .childRead n child ∧ s.status? child = some .succeeded) ∨ Doomed cfg agents r t := by
  subst hk hc
  have hw := hi.joined.completed.wellFormed
  rcases h.moved.nodeDone hp with ⟨n,child,run,text,rfl,hrun,hs,-⟩ | ⟨e,rfl⟩
  · exact .inl ⟨n,child,rfl,by simp [status?,hrun,hs]⟩
  · obtain ⟨q,hq,p',tasks,hp',hround,hmem⟩ := hi.hosted.hosted k p h.point
    obtain rfl : r = q := Option.some.inj (hp.symm.trans hq)
    have hstay := (h.stays hw (by simp) (WellFormed.exists_of_point hp')).trans (point?_eq_some.mp hp')
    have hres := result?_eq_some.mpr (h.mover hw)
    refine .inr ?_
    cases p' <;> cases hround
    case inr.readyWait.refl q T => exact .round q T tasks k e (point?_eq_some.mpr hstay) hmem hres
    case inr.readyGather.refl q e' => exact .gather q tasks e' (point?_eq_some.mpr hstay)
    case inr.readyCleanup.refl q => exact (hi.stage _ hp').elim

theorem step_children {child : RunId} (hc : child ∈ t.store.childrenOf r) :
    t.AwaitedBy r child ∨ t.status? child = some .succeeded ∨ Doomed cfg agents r t := by
  have hw := hi.joined.completed.wellFormed
  have hkeep : s.status? child = some .succeeded → t.status? child = some .succeeded := by
    intro hs
    obtain ⟨run,hrun,hstatus⟩ := Option.map_eq_some_iff.mp hs
    simp [status?,(h.row hi.lifecycle child).ended hrun (by rw [hstatus]; rfl),hstatus]
  by_cases hrow : (s.store.runs child).isSome
  · have hold := (h.moved.commit.children hw.sound hc).resolve_right (not_not_intro hrow)
    rcases hi.children child hold with ⟨k,p',n,hp',hx,hpar⟩ | hs | hd
    · by_cases hk : i = .node k
      · obtain rfl : p = p' := Option.some.inj (h.point.symm.trans (hk ▸ hp'))
        cases c with
        | waiting q => exact .inl ⟨k,q,n,point?_eq_some.mpr (hk ▸ h.mover hw),h.moved.child hx,hpar⟩
        | done result =>
          rcases hi.step_ends hstep h hok hk rfl (hpar ▸ Point.parent_of_child hx) with ⟨n',child',rfl,hs⟩ | hd
          · cases hx
            exact .inr (.inl (hkeep hs))
          · exact .inr (.inr hd)
      · have hstay := h.stays hw (Ne.symm hk) (WellFormed.exists_of_point hp')
        exact .inl ⟨k,p',n,point?_eq_some.mpr (hstay.trans (point?_eq_some.mp hp')),hx,hpar⟩
    · exact .inr (.inl (hkeep hs))
    · exact .inr (.inr (hi.step_doomed hstep h hok hd))
  · obtain ⟨a,n,cp,rfl,hn,hpar,rfl⟩ := h.moved.newChild hw.sound hc hrow
    have ho : ∃ k, i = .node k := by
      have ho := hw.owner i _ h.point
      simp only [Point.owner, StartCall.owner, hn, Option.isSome_some, if_true] at ho
      cases i <;> cases ho
      exact ⟨_,rfl⟩
    obtain ⟨k,rfl⟩ := ho
    exact .inl ⟨k,_,n,point?_eq_some.mpr (h.mover hw),by simp [Point.child?,hn],hpar⟩

end Fated

theorem Doomed.idle (hd : Doomed cfg agents r s) (hok : tellsApart r l s) (hstep : step cfg l s = some t)
    (hsame : ∀ j, j.owner ≠ .call → t.tasks j = s.tasks j) (hstore : t.store = s.store) : Doomed cfg agents r t := by
  have hpoint : ∀ {p}, s.point? (.run r) = some p → t.point? (.run r) = some p := fun hp => by
    rw [point?, hsame _ (by simp [TaskId.owner])]
    exact hp
  cases hd with
  | round q T tasks k e hp hk he =>
    refine .round q T tasks k e (hpoint hp) hk ?_
    rw [result?, hsame _ (by simp [TaskId.owner])]
    exact he
  | gather q tasks e hp => exact .gather q tasks e (hpoint hp)
  | finish p e he hp hf => exact .finish p e (he.step hok hstep) (hpoint hp) hf
  | failed run e he hr hs herror => exact .failed run e (he.step hok hstep) (by rw [hstore, hr]) hs herror

/-- A step that runs no task changes nothing but the requests. -/
theorem Fated.idle (hi : Fated cfg agents r s) (hok : tellsApart r l s) (hstep : step cfg l s = some t)
    (hsame : ∀ j, j.owner ≠ .call → t.tasks j = s.tasks j) (hstore : t.store = s.store) : Fated cfg agents r t := by
  have hw := hi.joined.completed.wellFormed
  have hpoint : ∀ j, j.owner ≠ .call → t.point? j = s.point? j := fun j hj => by
    unfold point?
    rw [hsame j hj]
  have hresult : ∀ j, j.owner ≠ .call → t.result? j = s.result? j := fun j hj => by
    unfold result?
    rw [hsame j hj]
  have hstage : ∀ p : Point, p.Stage cfg agents r s → p.Stage cfg agents r t := by
    intro p hp
    cases p
    case readyWait q T tasks =>
      intro k hk
      have hc := hp k hk
      refine ⟨?_,?_,fun e he => ?_⟩
      · unfold Sys.mustCancel
        rw [hsame _ (by simp [TaskId.owner])]
        exact hc.spared
      · rw [hpoint _ (by simp [TaskId.owner])]
        exact hc.handles
      · rw [hresult _ (by simp [TaskId.owner])] at he
        exact ⟨(hc.raised e he).1,(hc.raised e he).2.step hok hstep⟩
    case readyGather q tasks e => exact ⟨hp.1,hp.2.step hok hstep⟩
    all_goals exact hp
  refine ⟨hi.run.tail ⟨l,hok,hstep⟩,step_joined hi.joined hstep,step_lifecycle hi.lifecycle hok.1 hstep,
    step_hosted hw hi.hosted hstep,step_assigned hw hi.hosted hi.assigned hstep,fun p hp => ?_,fun he => ?_,
    fun child hc => ?_⟩
  · rw [hpoint _ (by simp [TaskId.owner])] at hp
    exact hstage p (hi.stage p hp)
  · have he' : s.Ended r := by
      unfold Sys.Ended at he ⊢
      rwa [hstore] at he
    rw [hsame _ (by simp [TaskId.owner]), hpoint _ (by simp [TaskId.owner])]
    exact hi.finished he'
  · rw [hstore] at hc
    rcases hi.children child hc with ⟨k,p,n,hp,hx⟩ | hs | hd
    · exact .inl ⟨k,p,n,(hpoint _ (by simp [TaskId.owner])).trans hp,hx⟩
    · unfold status? at hs ⊢
      rw [hstore]
      exact .inr (.inl hs)
    · exact .inr (.inr (hd.idle hok hstep hsame hstore))

/-- A step runs a task, or it changes nothing but the requests. -/
theorem step_runs_or_idle (hw : WellFormed s) (h : step cfg l s = some t) :
    (∃ i ch now p c, l = .run i ch now ∧ RunStep cfg s t i p c) ∨
      (∀ j, j.owner ≠ .call → t.tasks j = s.tasks j) ∧ t.store = s.store := by
  cases step_cases h with
  | run i ch now p c t hr => exact .inl ⟨i,ch,now,p,c,rfl,hr⟩
  | call k =>
    refine .inr ⟨fun j hj => ?_,rfl⟩
    rw [accept_tasks, if_neg]
    rintro rfl
    exact hj rfl
  | cancel k =>
    have hg : s.gathered (.call k) = [] := by
      unfold gathered
      split
      next hp => cases hw.owner _ _ hp
      next hp => cases hw.owner _ _ hp
      next => rfl
    refine .inr ⟨fun j hj => ?_,rfl⟩
    have hnot : j ∉ s.cancelTargets (.call k) := by
      rw [cancelTargets, hg]
      rintro hmem
      obtain rfl := List.mem_singleton.mp hmem
      exact hj rfl
    simp [requestCancels,hnot]

theorem step_fated (hi : Fated cfg agents r s) (hok : tellsApart r l s) (h : step cfg l s = some t) :
    Fated cfg agents r t := by
  have hw := hi.joined.completed.wellFormed
  rcases step_runs_or_idle hw h with ⟨i,ch,now,p,c,rfl,hr⟩ | ⟨hsame,hstore⟩
  · exact ⟨hi.run.tail ⟨_,hok,h⟩,step_joined hi.joined h,step_lifecycle hi.lifecycle hok.1 h,
      step_hosted hw hi.hosted h,step_assigned hw hi.hosted hi.assigned h,fun _ hq => hi.step_stage h hr hok hq,
      fun he => hi.step_finished hr hok he,fun _ hc => hi.step_children h hr hok hc⟩
  · exact hi.idle hok h hsame hstore

theorem initial_fated : Fated cfg agents r (initial agents) where
  run := .refl
  joined := initial_joined agents
  lifecycle := initial_lifecycle agents
  hosted := initial_hosted agents
  assigned := initial_assigned agents
  stage := by simp [initial,point?]
  finished := by simp [initial,Sys.Ended]
  children := by simp [initial,mem_childrenOf]

theorem Run.fated (h : Run cfg (tellsApart r) (initial agents) s) : Fated cfg agents r s :=
  Reaches.invariant (I := Fated cfg agents r) (fun _ _ _ hi hok he => step_fated hi hok he) h initial_fated

/-! ## The fate of the parent -/

/-- A required child of run `r` has ended without success, or has exceeded its timeout. -/
inductive Sys.ChildFailed (s : Sys) (r : RunId) : Prop
  | ended (child : RunId) (run : RunRecord) (hc : child ∈ s.store.childrenOf r) (hr : s.store.runs child = some run)
      (ht : run.status.terminal = true) (hs : run.status ≠ .succeeded)
  | timedOut (k : Nat) (p : Point) (n : NodeCall) (child b : RunId) (hp : s.point? (.node k) = some p)
      (hstop : p.stop? = some (.child n child childTimeout,b)) (hn : n.parent = r)

theorem Point.child_of_stop {n : NodeCall} {child b : RunId} (h : p.stop? = some (.child n child e,b)) :
    p.child? = some (n,child) := by
  have hj : p.joined? = some (n,child) := by
    cases p <;> first | cases h | simp [Point.joined?,h,Root.child?]
  cases p <;> first | exact hj | cases h

/-- A failed child stays one, or its node task has passed the failure on. -/
theorem Fated.step_failed (hi : Fated cfg agents r s) (hok : tellsApart r l s) (hstep : step cfg l s = some t)
    (hf : s.ChildFailed r) : t.ChildFailed r ∨ Doomed cfg agents r t := by
  have hw := hi.joined.completed.wellFormed
  cases hf with
  | ended child run hc hr ht hs =>
    have hrow := step_ended hi.lifecycle hstep hr ht
    refine .inl (.ended child run ?_ hrow ht hs)
    rcases step_runs_or_idle hw hstep with ⟨i,ch,now,p,c,rfl,h⟩ | ⟨-,hstore⟩
    · exact (h.moved.commit.grows hw.sound).children hc
    · rwa [hstore]
  | timedOut k p n child b hp hstop hn =>
    rcases step_runs_or_idle hw hstep with ⟨i,ch,now,p',c,rfl,h⟩ | ⟨hsame,-⟩
    · by_cases hk : i = .node k
      · subst hk
        obtain rfl : p' = p := Option.some.inj (h.point.symm.trans hp)
        cases c with
        | waiting q => exact .inl (.timedOut k q n child b (point?_eq_some.mpr (h.mover hw)) (h.moved.stop hstop) hn)
        | done result =>
          have hpar := Point.parent_of_child (Point.child_of_stop hstop)
          rcases hi.step_ends hstep h hok rfl rfl (hn ▸ hpar) with ⟨n',child',rfl,-⟩ | hd
          · cases hstop
          · exact .inr hd
      · have hstay := h.stays hw (Ne.symm hk) (WellFormed.exists_of_point hp)
        exact .inl (.timedOut k p n child b (point?_eq_some.mpr (hstay.trans (point?_eq_some.mp hp))) hstop hn)
    · refine .inl (.timedOut k p n child b ?_ hstop hn)
      rw [point?, hsame _ (by simp [TaskId.owner])]
      exact hp

theorem Fated.doomed_step (hi : Fated cfg agents r s) (hok : tellsApart r l s) (hstep : step cfg l s = some t)
    (hd : Doomed cfg agents r s) : Doomed cfg agents r t := by
  rcases step_runs_or_idle hi.joined.completed.wellFormed hstep with ⟨i,ch,now,p,c,rfl,h⟩ | ⟨hsame,hstore⟩
  · exact hi.step_doomed hstep h hok hd
  · exact hd.idle hok hstep hsame hstore

/-- The task of a run that has ended has no node task left. -/
theorem Fated.not_hosting (hi : Fated cfg agents r s) (he : s.Ended r) {k : Nat} (hp : s.point? (.node k) = some p) :
    p.parent? ≠ some r := by
  intro hpar
  obtain ⟨q,hq,p',tasks,hp',hround,-⟩ := hi.hosted.hosted k p hp
  obtain rfl : r = q := Option.some.inj (hpar.symm.trans hq)
  obtain ⟨outcome,cp,k',rfl⟩ := (hi.finished he).2 p' hp'
  cases hround

theorem Fated.failed (hi : Fated cfg agents r s) (he : s.Ended r) (hd : Doomed cfg agents r s) :
    ∃ run e, s.store.runs r = some run ∧ run.status = .failed ∧ run.error = some (roundError e).runError ∧
      RaisedBy cfg agents r e s := by
  have hfinish := (hi.finished he).2
  cases hd with
  | round q T tasks k e hp hk hres =>
    obtain ⟨outcome,cp,k',h⟩ := hfinish _ hp
    cases h
  | gather q tasks e hp =>
    obtain ⟨outcome,cp,k',h⟩ := hfinish _ hp
    cases h
  | finish p e hr hp hf =>
    obtain ⟨outcome,cp,k',rfl⟩ := hfinish _ hp
    cases hf
  | failed run e hr hrun hs herror => exact ⟨run,e,hrun,hs,herror,hr⟩

/-- A child that has failed is no longer awaited once its parent has ended. -/
theorem Fated.doomed (hi : Fated cfg agents r s) (he : s.Ended r) (hf : s.ChildFailed r) : Doomed cfg agents r s := by
  cases hf with
  | ended child run hc hr ht hs =>
    rcases hi.children child hc with ⟨k,p,n,hp,hx,hn⟩ | hsucc | hd
    · exact absurd (hn ▸ Point.parent_of_child hx) (hi.not_hosting he hp)
    · simp [status?,hr] at hsucc
      exact absurd hsucc hs
    · exact hd
  | timedOut k p n child b hp hstop hn =>
    exact absurd (hn ▸ Point.parent_of_child (Point.child_of_stop hstop)) (hi.not_hosting he hp)

/-- A required child that does not succeed fails its parent: a run one of whose children
has ended without success or has exceeded its timeout can only end FAILED, with the
error of a child that is to blame. -/
theorem child_failure_fails_parent (hs : Run cfg (tellsApart r) (initial agents) s) (ht : Run cfg (tellsApart r) s t)
    (hf : s.ChildFailed r) (he : t.Ended r) :
    ∃ run e, t.store.runs r = some run ∧ run.status = .failed ∧ run.error = some (roundError e).runError ∧
      RaisedBy cfg agents r e t := by
  have hall : Fated cfg agents r t ∧ (t.ChildFailed r ∨ Doomed cfg agents r t) :=
    Reaches.invariant (I := fun u => Fated cfg agents r u ∧ (u.ChildFailed r ∨ Doomed cfg agents r u))
      (fun _ _ _ ⟨hi,hu⟩ hok hstep => ⟨step_fated hi hok hstep,
        hu.elim (hi.step_failed hok hstep) fun hd => .inr (hi.doomed_step hok hstep hd)⟩) ht ⟨hs.fated,.inl hf⟩
  obtain ⟨hi,hf | hd⟩ := hall
  · exact hi.failed he (hi.doomed he hf)
  · exact hi.failed he hd

/-- The model call of the worker fails, then its team has failed. -/
def failedWorker : Sys :=
  after (step sampleConfig) ([.run (.run 3) (.fail (.other "ProviderError")) 0] ++ resumes (.run 3) 4) waitingTeam
    (by decide)

def failedTeam : Sys :=
  after (step sampleConfig) (resumes (.node 0) 2 ++ [.run (.run 0) (.pick 0) 0] ++ resumes (.run 0) 5) failedWorker
    (by decide)

theorem child_failure_fails_parent_failed :
    failedWorker.ChildFailed 0 ∧ failedTeam.Ended 0 ∧
      ∃ run e, failedTeam.store.runs 0 = some run ∧ run.status = .failed ∧ run.error = some (roundError e).runError ∧
        RaisedBy sampleConfig pairAgents 0 e failedTeam := by
  have hwait : Run sampleConfig (tellsApart 0) (initial pairAgents) waitingTeam :=
    after_reaches (tellsApart 0) _ (by decide)
  have hworker : Run sampleConfig (tellsApart 0) waitingTeam failedWorker := after_reaches (tellsApart 0) _ (by decide)
  have hteam : Run sampleConfig (tellsApart 0) failedWorker failedTeam := after_reaches (tellsApart 0) _ (by decide)
  have hchild : failedWorker.ChildFailed 0 :=
    .ended 3 ((failedWorker.store.runs 3).get (by decide)) (by decide) (Option.some_get _).symm (by decide) (by decide)
  have hend : failedTeam.Ended 0 := ⟨(failedTeam.store.runs 0).get (by decide),(Option.some_get _).symm,by decide⟩
  exact ⟨hchild,hend,child_failure_fails_parent (hwait.trans hworker) hteam hchild hend⟩

/-- `stop_run` is called for the worker and cancels its task. -/
def stoppedWorker : Sys :=
  after (step sampleConfig) ([.call (.stopRun 3)] ++ resumes (.call 1) 2 ++ resumes (.run 3) 5) waitingTeam (by decide)

/-- The handler of `run_child` takes that for a cancellation of its own task. -/
def cancelledTeam : Sys :=
  after (step sampleConfig) (resumes (.node 0) 3 ++ [.run (.run 0) (.pick 0) 0] ++ resumes (.run 0) 6) stoppedWorker
    (by decide)

/-- The condition of the theorem without the mistake of the node task. -/
def untouched (r : RunId) (l : Label) (s : Sys) : Prop := markSafe l s ∧ l.genuine = true ∧ spares r l s = true

instance (r : RunId) : ∀ l s, Decidable (untouched r l s) := fun l s =>
  inferInstanceAs (Decidable (markSafe l s ∧ l.genuine = true ∧ spares r l s = true))

/-- The worker is stopped and ends CANCELLED, and so does its team, which nobody has
stopped. -/
theorem stopped_child_cancels_parent :
    ∃ s t, Run sampleConfig (untouched 0) (initial pairAgents) s ∧ Run sampleConfig (untouched 0) s t ∧
      s.ChildFailed 0 ∧ s.status? 3 = some .cancelled ∧ t.calls = [.startRun 4 "hello",.stopRun 3] ∧
      t.cancelRequested (.run 0) = false ∧ t.status? 0 = some .cancelled := by
  have hwait : Run sampleConfig (untouched 0) (initial pairAgents) waitingTeam :=
    after_reaches (untouched 0) _ (by decide)
  have hworker : Run sampleConfig (untouched 0) waitingTeam stoppedWorker := after_reaches (untouched 0) _ (by decide)
  have hteam : Run sampleConfig (untouched 0) stoppedWorker cancelledTeam := after_reaches (untouched 0) _ (by decide)
  have hchild : stoppedWorker.ChildFailed 0 :=
    .ended 3 ((stoppedWorker.store.runs 3).get (by decide)) (by decide) (Option.some_get _).symm (by decide) (by decide)
  exact ⟨stoppedWorker,cancelledTeam,hwait.trans hworker,hteam,hchild,by decide,rfl,by decide,by decide⟩

end AgentGraph.Manager
