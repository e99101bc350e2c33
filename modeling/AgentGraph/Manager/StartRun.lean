import AgentGraph.Manager.Completion

/-! # Starting a run is all or nothing, except for two awaits

`_start_run` commits the run and creates its task after two more awaits: the
refresh of the row and the end of the session. A call that is interrupted there
leaves a queued run that nobody executes. Everywhere else an interrupted call has
written nothing, or the task of its run exists and is registered.
-/
set_option autoImplicit false
namespace AgentGraph.Manager
open Sys Transition

variable {cfg : Config} {s t u : Sys} {l : Label} {i j : TaskId} {p q : Point} {c : Ctl} {store : Store} {r : RunId}

/-- The call of `_start_run` in progress. -/
def Point.starts? : Point → Option StartCall
  | .startLock a | .startWrite a | .startRefresh a _ _ | .startClose a _ _ | .startPublish a _ _ => some a
  | _ => none

/-- The run the call has committed. -/
def Point.committed? : Point → Option RunId
  | .startRefresh _ r _ | .startClose _ r _ | .startPublish _ r _ => some r
  | _ => none

/-- The awaits of a task up to the commit of its `_start_run`. -/
def Point.beforeCommit : Point → Bool
  | .nodeBegin _ _ | .nodeAcquire _ | .startLock _ | .startWrite _ => true
  | _ => false

/-- A step of task `i` commits nothing. -/
def keepsStore (cfg : Config) (i : TaskId) (l : Label) (s : Sys) : Prop :=
  ∀ ch now t, l = .run i ch now → step cfg l s = some t → t.store = s.store

/-- The task of the run exists, is registered until it ends, and does not end
before the run has a terminal status, unless it is cancelled. -/
structure Sys.Driven (cfg : Config) (s : Sys) (r : RunId) : Prop where
  task : s.tasks (.run r) ≠ none
  registered : r ∈ s.registry ∨ s.isDone (.run r) = true
  ends : ∀ t, Run cfg anyStep s t → t.isDone (.run r) = true → t.cancelRequested (.run r) = false → t.Ended r

/-! ## Exits -/

theorem Point.committed_cases (h : p.committed? = some r) :
    p.starting? = some r ∨ ∃ a cp, p = .startPublish a r cp := by
  cases p <;> cases h
  case startRefresh => exact .inl rfl
  case startClose => exact .inl rfl
  case startPublish a cp => exact .inr ⟨a,cp,rfl⟩

theorem Point.starts_cases {a : StartCall} (h : p.starts? = some a) :
    p.beforeCommit = true ∨ ∃ r, p.committed? = some r := by
  cases p <;> cases h
  case startLock => exact .inl rfl
  case startWrite => exact .inl rfl
  all_goals exact .inr ⟨_,rfl⟩

/-- A call that ends commits nothing while it does. -/
theorem Moved.startExit {a : StartCall} {result : Result} (h : Moved cfg s i p (.done result) store)
    (ha : p.starts? = some a) : store = s.store := by
  cases h with
  | delivered hm hd hs => exact hs
  | resumed hm hn =>
    cases hn
    case updateWrite => cases ha
    all_goals rfl

/-! ## What the task of a call has committed -/

/-- Up to its commit, a task comes from awaits that commit nothing. -/
theorem Moved.beforeCommit (h : Moved cfg s i p (.waiting q) store) (hq : q.beforeCommit = true) :
    p.beforeCommit = true ∧ store = s.store := by
  have hapart : q.continues = false ∧ q.runs = false := by
    cases q <;> first | exact ⟨rfl,rfl⟩ | cases hq
  cases h with
  | delivered hm hd hs => cases hd <;> cases hq
  | resumed hm hn =>
    cases hn
    case continued h => exact Bool.noConfusion (hapart.1.symm.trans h.continues)
    case invoked h => exact Bool.noConfusion (hapart.2.symm.trans h.runs)
    case roundDone h => exact Bool.noConfusion (hapart.2.symm.trans h.runs)
    case startLock => exact ⟨rfl,rfl⟩
    case nodeBegin => exact ⟨rfl,rfl⟩
    case nodeAcquire => exact ⟨rfl,rfl⟩
    all_goals cases hq

theorem Moved.startPublish {a : StartCall} {cp : Option CheckpointRecord}
    (h : Moved cfg s i p (.waiting (.startPublish a r cp)) store) : p = .startClose a r cp := by
  cases h with
  | delivered hm hd hs => cases hd
  | resumed hm hn =>
    cases hn
    case continued h => exact Bool.noConfusion h.continues
    case invoked hq => exact Bool.noConfusion hq.runs
    case roundDone hq => exact Bool.noConfusion hq.runs
    case startClose => rfl

theorem Moved.committed (h : Moved cfg s i p (.waiting q) store) (hq : q.committed? = some r) :
    p.committed? = some r ∨ store ≠ s.store := by
  cases q <;> cases hq
  case startRefresh =>
    obtain ⟨_,ha⟩ := h.startRefresh
    obtain ⟨agent,ha⟩ := startTransaction_started ha
    exact .inr fun he => Nat.ne_of_lt ha.nextId (he ▸ rfl)
  case startClose => obtain ⟨rfl,_⟩ := h.startClose; exact .inl rfl
  case startPublish => obtain rfl := h.startPublish; exact .inl rfl

/-- Task `i` has committed exactly when it is past the commit of its `_start_run`. -/
structure Silent (cfg : Config) (i : TaskId) (start : Sys) (ls : List Label) (s : Sys) : Prop where
  reached : exec (step cfg) ls start = some s
  wellFormed : WellFormed s
  fresh : s.tasks i = none → ExecOk (step cfg) (keepsStore cfg i) ls start
  before : ∀ p, s.point? i = some p → p.beforeCommit = true → ExecOk (step cfg) (keepsStore cfg i) ls start
  after : ∀ p r, s.point? i = some p → p.committed? = some r → ¬ ExecOk (step cfg) (keepsStore cfg i) ls start

theorem keepsStore_other (h : ∀ ch now, l ≠ .run i ch now) : keepsStore cfg i l s :=
  fun ch now _ he => absurd he (h ch now)

theorem Silent.other {start : Sys} {ls : List Label} (hi : Silent cfg i start ls s) (hl : ∀ ch now, l ≠ .run i ch now) :
    ExecOk (step cfg) (keepsStore cfg i) (ls ++ [l]) start ↔ ExecOk (step cfg) (keepsStore cfg i) ls start := by
  rw [execOk_snoc hi.reached]
  exact and_iff_left (keepsStore_other hl)

theorem Silent.own {start : Sys} {ls : List Label} {ch : Choice} {now : Instant} (hi : Silent cfg i start ls s)
    (h : step cfg (.run i ch now) s = some t) :
    ExecOk (step cfg) (keepsStore cfg i) (ls ++ [.run i ch now]) start ↔
      ExecOk (step cfg) (keepsStore cfg i) ls start ∧ t.store = s.store := by
  rw [execOk_snoc hi.reached]
  refine and_congr_right fun _ => ⟨fun hk => hk ch now t rfl h,fun hs ch' now' t' hl ht => ?_⟩
  rw [h] at ht
  cases ht
  exact hs

theorem Silent.move {start : Sys} {ls : List Label} {ch : Choice} {now : Instant} (hi : Silent cfg i start ls s)
    (hstep : step cfg (.run j ch now) s = some t) (h : RunStep cfg s t j p c) :
    Silent cfg i start (ls ++ [.run j ch now]) t := by
  have hw := hi.wellFormed
  have hreach : exec (step cfg) (ls ++ [.run j ch now]) start = some t := by
    rw [exec_append, hi.reached]
    simpa [exec] using hstep
  by_cases hj : j = i
  · subst hj
    refine ⟨hreach,h.wellFormed hw,fun hn => ?_,fun q hq hb => ?_,fun q r hq hc => ?_⟩
    · exact absurd hn (h.tasks_mono hw (WellFormed.exists_of_point h.point))
    all_goals
      rw [hi.own hstep]
      have hqc := h.mover hw
      rw [point?_eq_some.mp hq] at hqc
      cases hqc
    · obtain ⟨hp,hs⟩ := h.moved.beforeCommit hb
      exact ⟨hi.before p h.point hp,hs⟩
    · rintro ⟨hok,hs⟩
      rcases h.moved.committed hc with hp | hne
      · exact hi.after p r h.point hp hok
      · exact hne hs
  · have hl : ∀ ch' now', Label.run j ch now ≠ .run i ch' now' := fun _ _ he => hj (by cases he; rfl)
    refine ⟨hreach,h.wellFormed hw,fun hn => ?_,fun q hq hb => ?_,fun q r hq hc => ?_⟩
    all_goals rw [hi.other hl]
    · exact hi.fresh (by_contra fun hs => h.tasks_mono hw hs hn)
    · rcases h.back hw (point?_eq_some.mp hq) with ⟨he,_⟩ | ⟨_,hs⟩ | ⟨hn,_⟩
      · exact absurd he.symm hj
      · exact hi.before q (point?_eq_some.mpr hs) hb
      · exact hi.fresh hn
    · rcases h.back hw (point?_eq_some.mp hq) with ⟨he,_⟩ | ⟨_,hs⟩ | ⟨_,q',hq',hsp⟩
      · exact absurd he.symm hj
      · exact hi.after q r (point?_eq_some.mpr hs) hc
      · cases hq'
        rcases lookup_spawned hsp with ⟨_,_,_,_,_,_,_,rfl⟩ | ⟨_,_,_,_,_,_,_,rfl⟩ <;> cases hc

theorem Silent.step {start : Sys} {ls : List Label} (hi : Silent cfg i start ls s)
    (h : AgentGraph.Manager.step cfg l s = some t) : Silent cfg i start (ls ++ [l]) t := by
  have hw := hi.wellFormed
  have hreach : exec (AgentGraph.Manager.step cfg) (ls ++ [l]) start = some t := by
    rw [exec_append, hi.reached]
    simpa [exec] using h
  have hwt := step_wellFormed hw h
  cases step_cases h with
  | run j ch now p c t hr => exact hi.move h hr
  | cancel k =>
    have hc := requestCancels_ctl? s (s.cancelTargets (.call k))
    refine ⟨hreach,hwt,?_,?_,?_⟩
    all_goals rw [hi.other (by simp)]
    · exact fun hn => hi.fresh (ctl?_eq_none.mp (by rw [← hc]; exact ctl?_eq_none.mpr hn))
    · rw [point?_congr hc]; exact hi.before
    · rw [point?_congr hc]; exact hi.after
  | call k =>
    refine ⟨hreach,hwt,fun hn => ?_,fun p hp hb => ?_,fun p r hp hc => ?_⟩
    all_goals rw [hi.other (by simp)]
    · rw [accept_tasks] at hn
      split at hn
      · cases hn
      · exact hi.fresh hn
    · rcases accept_point? hp with ⟨rfl,_⟩ | hp
      · exact hi.fresh (hw.call _ le_rfl)
      · exact hi.before p hp hb
    · rcases accept_point? hp with ⟨_,rfl⟩ | hp
      · cases k <;> cases hc
      · exact hi.after p r hp hc

theorem silent_initial (agents : AgentId → Option AgentRecord) : Silent cfg i (initial agents) [] (initial agents) :=
  ⟨rfl,initial_wellFormed agents,fun _ => trivial,fun _ _ _ => trivial,fun p r hp => by simp [initial,point?] at hp⟩

theorem exec_silent {agents : AgentId → Option AgentRecord} {ls : List Label}
    (h : exec (step cfg) ls (initial agents) = some s) (i : TaskId) : Silent cfg i (initial agents) ls s :=
  exec_induction (P := fun ls s => Silent cfg i (initial agents) ls s) (silent_initial agents)
    (fun _ _ _ _ _ hi he => hi.step he) h

/-! ## Registered tasks -/

/-- A run whose task is running is registered, and a published run has a task. -/
structure Registered (s : Sys) : Prop where
  wellFormed : WellFormed s
  live : ∀ r p, s.point? (.run r) = some p → r ∈ s.registry
  published : ∀ i a r cp, s.point? i = some (.startPublish a r cp) → s.tasks (.run r) ≠ none

theorem updateRegistry_register {registry : List RunId} (r : RunId) (forget : Option RunId) :
    r ∈ updateRegistry registry (some r) forget := by
  unfold updateRegistry
  dsimp only
  split
  next h => simpa using h
  next => simp

theorem updateRegistry_mono {registry : List RunId} {register forget : Option RunId} (hr : r ∈ registry)
    (hf : forget ≠ some r) : r ∈ updateRegistry registry register forget := by
  unfold updateRegistry
  split
  · split
    · exact hr
    · exact List.mem_append_left _ hr
  · exact List.mem_filter.mpr ⟨hr,by simpa using fun he => hf (congrArg some he.symm)⟩
  · exact hr

theorem RunStep.registered (hi : Registered s) (h : RunStep cfg s t i p c) : Registered t where
  wellFormed := h.wellFormed hi.wellFormed
  live := by
    intro r q hq
    rw [h.registry]
    have hforget : forgotten p c ≠ some r := by
      intro hf
      obtain ⟨rfl,result,rfl⟩ := forgotten_own hi.wellFormed h hf
      have := h.mover hi.wellFormed
      rw [point?_eq_some.mp hq] at this
      cases this
    rcases h.back hi.wellFormed (point?_eq_some.mp hq) with ⟨rfl,rfl⟩ | ⟨_,hs⟩ | ⟨_,q',hq',hl⟩
    · exact updateRegistry_mono (hi.live r p h.point) hforget
    · exact updateRegistry_mono (hi.live r q (point?_eq_some.mpr hs)) hforget
    · rcases lookup_spawned hl with ⟨a,r',cp,q',rfl,rfl,he,_⟩ | ⟨_,_,_,_,_,_,he,_⟩ <;> cases he
      exact updateRegistry_register r _
  published := by
    intro j a r cp hq
    rcases h.back hi.wellFormed (point?_eq_some.mp hq) with ⟨rfl,rfl⟩ | ⟨_,hs⟩ | ⟨_,q',hq',hl⟩
    · obtain rfl := h.moved.startPublish
      rw [h.fresh _ _ (launched_lookup rfl)]
      simp
    · exact h.tasks_mono hi.wellFormed (hi.published j a r cp (point?_eq_some.mpr hs))
    · cases hq'
      rcases lookup_spawned hl with ⟨_,_,_,_,_,_,_,he⟩ | ⟨_,_,_,_,_,_,_,he⟩ <;> cases he

theorem step_registered (hi : Registered s) (h : step cfg l s = some t) : Registered t := by
  have hwt := step_wellFormed hi.wellFormed h
  cases step_cases h with
  | run i ch now p c t h => exact h.registered hi
  | cancel k =>
    have hc := requestCancels_ctl? s (s.cancelTargets (.call k))
    refine ⟨hwt,by rw [point?_congr hc]; exact hi.live,?_⟩
    rw [point?_congr hc]
    exact fun i a r cp hp hn => hi.published i a r cp hp (ctl?_eq_none.mp (by rw [← hc]; exact ctl?_eq_none.mpr hn))
  | call k =>
    refine ⟨hwt,fun r p hp => ?_,fun i a r cp hp hn => ?_⟩
    · rcases accept_point? hp with ⟨he,_⟩ | hp
      · cases he
      · exact hi.live r p hp
    · rcases accept_point? hp with ⟨_,he⟩ | hp
      · cases k <;> cases he
      · rw [accept_tasks, if_neg (by simp)] at hn
        exact hi.published i a r cp hp hn

theorem Run.registered {ok : Label → Sys → Prop} {agents : AgentId → Option AgentRecord}
    (h : Run cfg ok (initial agents) s) : Registered s :=
  Reaches.invariant (I := Registered) (fun _ _ _ hi _ he => step_registered hi he) h
    ⟨initial_wellFormed agents,by simp [initial,point?],by simp [initial,point?]⟩

/-- A task that exists is driven to the end of its run. -/
theorem Run.driven {agents : AgentId → Option AgentRecord} (h : Run cfg anyStep (initial agents) s)
    (hr : s.tasks (.run r) ≠ none) : s.Driven cfg r := by
  refine ⟨hr,?_,fun t ht hd hc => ?_⟩
  · by_cases hd : s.isDone (.run r) = true
    · exact .inr hd
    · obtain ⟨p,hp⟩ := Option.isSome_iff_exists.mp (isSome_point?_of_not_done hr hd)
      exact .inl (h.registered.live r p hp)
  · obtain ⟨result,hres⟩ := Option.isSome_iff_exists.mp hd
    obtain ⟨_,he | ⟨_,hcr⟩⟩ := (Run.completed (h.trans ht)).result r result hres
    · exact he
    · rw [hc] at hcr
      cases hcr

/-! ## The calls -/

/-- A call of `_start_run` that raises has either committed nothing or left a run
whose task is registered and drives it, exactly when it was not interrupted between
its commit and the creation of the task. -/
theorem startRun_all_or_nothing {agents : AgentId → Option AgentRecord} {ls : List Label} {ch : Choice}
    {now : Instant} {a : StartCall} {e : Exc} (hs : exec (step cfg) ls (initial agents) = some s)
    (hp : s.point? i = some p) (ha : p.starts? = some a) (ht : step cfg (.run i ch now) s = some t)
    (he : t.result? i = some (.raised e)) :
    (ExecOk (step cfg) (keepsStore cfg i) (ls ++ [.run i ch now]) (initial agents) ∨
        ∃ r, p.committed? = some r ∧ t.Driven cfg r) ↔
      p.starting? = none := by
  have hsil := exec_silent hs i
  have hw := hsil.wellFormed
  have hrun : Run cfg anyStep (initial agents) t :=
    (exec_reaches (execOk_anyStep _ _) hs).tail ⟨_,trivial,ht⟩
  rw [hsil.own ht]
  obtain ⟨c,hstep⟩ : ∃ c, RunStep cfg s t i p c := by
    cases step_cases ht with
    | run _ _ _ q c _ h =>
      obtain rfl : q = p := by
        have := h.point
        rw [hp] at this
        exact (Option.some.inj this).symm
      exact ⟨c,h⟩
  obtain rfl : c = .done (.raised e) := by
    have := hstep.mover hw
    rw [result?_eq_some.mp he] at this
    exact (Option.some.inj this).symm
  have hstore := hstep.moved.startExit ha
  constructor
  · intro h
    by_contra hne
    obtain ⟨r,hr⟩ := Option.ne_none_iff_exists'.mp hne
    have hcr : p.committed? = some r := by cases p <;> cases hr <;> rfl
    rcases h with ⟨hok,_⟩ | ⟨r',hr',hd⟩
    · exact hsil.after p r hp hcr hok
    · rw [hcr] at hr'
      cases hr'
      exact hd.task (hstep.run_none (hw.starting i p r hp hr).1 (by cases p <;> cases hr <;> simp [launched]))
  · intro hn
    rcases Point.starts_cases ha with hb | ⟨r,hr⟩
    · exact .inl ⟨hsil.before p hp hb,hstore⟩
    · rcases Point.committed_cases hr with hst | ⟨a,cp,rfl⟩
      · rw [hn] at hst
        cases hst
      · have hex := (Run.registered (exec_reaches (execOk_anyStep _ _) hs)).published i a r cp hp
        exact .inr ⟨r,rfl,hrun.driven (hstep.tasks_mono hw hex)⟩

/-- A started run whose request is cancelled at the await `n` steps after its
arrival. -/
def interruptedStart (n : Nat) : List Label :=
  [.call (.startRun 0 "hello")] ++ resumes (.call 0) n ++ [.cancel 0]

def publishingStart : Sys := after (step sampleConfig) (interruptedStart 4) (initial soloAgents) (by decide)

def publishedStart : Sys := after (step sampleConfig) (resumes (.call 0) 1) publishingStart (by decide)

theorem startRun_all_or_nothing_published :
    ExecOk (step sampleConfig) (keepsStore sampleConfig (.call 0)) (interruptedStart 4 ++ resumes (.call 0) 1)
        (initial soloAgents) ∨ publishedStart.Driven sampleConfig 0 := by
  have hs : exec (step sampleConfig) (interruptedStart 4) (initial soloAgents) = some publishingStart := exec_after _
  have ht : step sampleConfig (.run (.call 0) .resume 0) publishingStart = some publishedStart := step_after _
  rcases (startRun_all_or_nothing (a := ⟨0,"hello",none⟩) (e := .cancelled) hs rfl rfl ht (by decide)).mpr rfl
    with h | ⟨r,hr,h⟩
  · exact .inl h
  · cases hr
    exact .inr h

def refreshingStart : Sys := after (step sampleConfig) (interruptedStart 2) (initial soloAgents) (by decide)

/-- The request is cancelled at the refresh after the commit. -/
def leakedStart : Sys := after (step sampleConfig) (resumes (.call 0) 1) refreshingStart (by decide)

/-- The call has raised, its run is committed and queued, and no task executes it. -/
theorem cancelled_start_leaks_queued_run :
    ∃ ls s, exec (step sampleConfig) ls (initial soloAgents) = some s ∧
      s.result? (.call 0) = some (.raised .cancelled) ∧ s.status? 0 = some .queued ∧ s.registry = [] ∧
      ¬ (ExecOk (step sampleConfig) (keepsStore sampleConfig (.call 0)) ls (initial soloAgents) ∨
        s.Driven sampleConfig 0) := by
  have hs : exec (step sampleConfig) (interruptedStart 2) (initial soloAgents) = some refreshingStart :=
    exec_after _
  have ht : step sampleConfig (.run (.call 0) .resume 0) refreshingStart = some leakedStart := step_after _
  refine ⟨interruptedStart 2 ++ [.run (.call 0) .resume 0],leakedStart,?_,by decide,by decide,by decide,?_⟩
  · rw [exec_append, hs]
    simpa [exec] using ht
  · rintro (hok | hd)
    · exact (exec_silent hs (.call 0)).after _ 0 rfl rfl (((exec_silent hs (.call 0)).own ht).mp hok).1
    · exact hd.task (Option.isNone_iff_eq_none.mp (by decide))

end AgentGraph.Manager
