import AgentGraph.Nodes.Calls

/-! # Where the result of a probe comes from

A probe waits on a future that is entered in the session of its node. Only a message
from a socket of that node gives it a result, and a session belongs to one node for ever.
-/
set_option autoImplicit false
namespace AgentGraph.Nodes
open Transition

def AfterSweep.probeOf : AfterSweep → Option NodeId
  | .probe n _ _ => some n
  | _ => none

def AfterDisconnect.probeOf : AfterDisconnect → Option NodeId
  | .sweep _ k => k.probeOf
  | _ => none

/-- The node of a probe that has not returned. -/
def Pc.probeOf : Pc → Option NodeId
  | .sweepRead _ k | .sweepCommit _ k | .swept k => k.probeOf
  | .disconnect _ k | .offlineLock _ k | .offlineRead _ k | .offlineCommit _ _ k | .offlinePublish _ k => k.probeOf
  | .dispatch n _ _ | .wait n _ _ _ | .timedOut n _ _ => some n
  | _ => none

/-- A message that may carry an answer. -/
def ClientMessage.answers : ClientMessage → Bool
  | .result _ _ | .error _ _ _ => true
  | _ => false

namespace NodeService

/-! ## Executions -/

section History
variable (settings : Settings) (records : Table) (ls : List Label)

/-- Socket `j` has proved to be node `n`. -/
def Authenticated (j : TaskRef) (n : NodeId) : Prop :=
  ExecAny (step settings) (Authenticates settings j n) ls (initial records)

/-- Probe `i` has been dispatched to node `n` under the task id. -/
def Dispatched (i : TaskRef) (n : NodeId) (id : TaskId) : Prop :=
  ExecAny (step settings) (fun l s => ∃ now fresh timeout, l = .run i now fresh ∧
    s.pc? i = some (.dispatch n timeout id)) ls (initial records)

/-- After the dispatch of probe `i`, a socket that has proved to be `n` delivered the
result under the task id, and this completed the future that the probe was waiting on. -/
structure Answered (i : TaskRef) (n : NodeId) (id : TaskId) (p : JsonObject) : Prop where
  delivery : ∃ earlier later j now u v r f, ls = earlier ++ .receive j (some (.result id p)) now :: later ∧
    exec (step settings) earlier (initial records) = some u ∧
    step settings (.receive j (some (.result id p)) now) u = some v ∧
    Dispatched settings records earlier i n id ∧ Authenticated settings records earlier j n ∧
    u.pc? j = some (.serving n) ∧ u.pc? i = some (.wait n r f id) ∧ u.futures f = .pending ∧ v.futures f = .result p

/-- What is known of the probes after an execution. -/
structure Probing (s : NodeService) : Prop where
  enrolled : ∀ j pc n, s.pc? j = some pc → pc.enrolledAs = some n → Authenticated settings records ls j n
  sessions : ∀ n r, (n,r) ∈ s.connections → r < s.sessionCount
  owner : ∀ n n' r, (n,r) ∈ s.connections → (n',r) ∈ s.connections → n = n'
  entries : ∀ r e, e ∈ (s.sessions r).pending → e.2 < s.futureCount
  futures : ∀ i n r f id, s.pc? i = some (.wait n r f id) → f < s.futureCount ∧ r < s.sessionCount
  session : ∀ i n r f id n', s.pc? i = some (.wait n r f id) → (n',r) ∈ s.connections → n' = n
  entry : ∀ i n r f id r' id', s.pc? i = some (.wait n r f id) → (id',f) ∈ (s.sessions r').pending → r' = r ∧ id' = id
  single : ∀ i i' pc pc' f, s.pc? i = some pc → s.pc? i' = some pc' → pc.awaits = some f → pc'.awaits = some f → i = i'
  dispatched : ∀ i n r f id, s.pc? i = some (.wait n r f id) → Dispatched settings records ls i n id
  answered : ∀ i n r f id p, s.pc? i = some (.wait n r f id) → s.futures f = .result p →
    Answered settings records ls i n id p
  probed : ∀ i id p, s.pc? i = some (.done (.probed id p)) → ∃ n, Answered settings records ls i n id p

end History

section Runs
variable {settings : Settings} {records : Table} {ls : List Label} {l : Label} {s t : NodeService} {i j : TaskRef}
  {n : NodeId} {id : TaskId} {p : JsonObject}

theorem Authenticated.snoc (he : exec (step settings) ls (initial records) = some s)
    (h : Authenticated settings records ls j n) : Authenticated settings records (ls ++ [l]) j n :=
  (execAny_snoc he).mpr (.inl h)

theorem Dispatched.snoc (he : exec (step settings) ls (initial records) = some s)
    (h : Dispatched settings records ls i n id) : Dispatched settings records (ls ++ [l]) i n id :=
  (execAny_snoc he).mpr (.inl h)

theorem Answered.snoc (h : Answered settings records ls i n id p) : Answered settings records (ls ++ [l]) i n id p := by
  obtain ⟨earlier,later,j,now,u,v,r,f,hls,h⟩ := h.delivery
  exact ⟨earlier,later ++ [l],j,now,u,v,r,f,by rw [hls]; simp,h⟩

theorem mem_of_lookup {α β : Type} [BEq α] [LawfulBEq α] {entries : List (α × β)} {a : α} {b : β}
    (h : entries.lookup a = some b) : (a,b) ∈ entries := by
  obtain ⟨before,later,rfl,-⟩ := List.lookup_eq_some_iff.mp h
  simp

theorem pc_cases {pc' pc₁ : Pc} {P : Prop} [Decidable P] {o : Option Pc} (h : (if P then some pc' else o) = some pc₁) :
    P ∧ pc' = pc₁ ∨ o = some pc₁ := by
  split at h
  next hp => exact .inl ⟨hp,Option.some.inj h⟩
  · exact .inr h

/-- Where a task is after a step: where it was, or at a place that its step has led it to. -/
structure Turned (settings : Settings) (l : Label) (s t : NodeService) (j : TaskRef) (pc : Pc) : Prop where
  waits : pc.awaits = none ∨ ∃ n r id, pc = .wait n r s.futureCount id ∧ t.futures s.futureCount = .pending
  enrolled : ∀ n, pc.enrolledAs = some n →
    (∃ pc₁, s.pc? j = some pc₁ ∧ pc₁.enrolledAs = some n) ∨ Authenticates settings j n l s
  answers : ∀ id p, pc.answer = some (id,p) → ∃ n r f, s.pc? j = some (.wait n r f id) ∧ s.futures f = .result p

theorem Turn.place {pc : Pc} (h : Turn settings l s t) (hj : t.pc? j = some pc) : s.pc? j = some pc ∨ Turned settings l s t j pc := by
  cases h with
  | spawned pc₁ enrolled idle unanswered state =>
    subst state
    obtain ⟨task,htask,rfl⟩ := Option.map_eq_some_iff.mp hj
    obtain rfl | htask := spawn_task htask
    · exact .inr ⟨.inl idle,by simp [enrolled],by simp [unanswered]⟩
    · exact .inl (by rw [pc?,htask]; rfl)
  | moved i pc₁ pc' found tasks adds enrolled idle answers =>
    rw [tasks] at hj
    obtain ⟨rfl,rfl⟩ | hj := pc_cases hj
    · refine .inr ⟨.inl idle,fun n hn => (enrolled n hn).imp_left fun hn => ⟨_,found,hn⟩,fun id p ha => ?_⟩
      obtain ⟨n,r,f,rfl,hr⟩ := answers id p ha
      exact ⟨n,r,f,found,hr⟩
    · exact .inl hj
  | connected i m status found tasks =>
    rw [tasks] at hj
    obtain ⟨rfl,rfl⟩ | hj := pc_cases hj
    · exact .inr ⟨.inl rfl,fun n hn => .inl ⟨_,found,hn⟩,fun _ _ ha => by cases ha⟩
    · exact .inl hj
  | registered i m timeout id r pc' label found current tasks waits futures =>
    rw [tasks] at hj
    obtain ⟨rfl,rfl⟩ | hj := pc_cases hj
    · obtain rfl | ⟨e,rfl⟩ := waits
      · have hpending : t.futures s.futureCount = .pending := by rw [futures,Function.update_self]
        exact .inr ⟨.inr ⟨m,r,id,rfl,hpending⟩,(fun _ hn => by cases hn),fun _ _ ha => by cases ha⟩
      · exact .inr ⟨.inl rfl,(fun _ hn => by cases hn),fun _ _ ha => by cases ha⟩
    · exact .inl hj
  | delivered j' m id p now r f label found tasks => exact .inl (by rwa [pc?,tasks] at hj)

/-- A result that a future has after a step it had before, or the session of a node has received it under its entry. -/
theorem Turn.result {f : FutureRef} {p : JsonObject} (h : Turn settings l s t) (hf : t.futures f = .result p) :
    s.futures f = .result p ∨ ∃ j n id now r, l = .receive j (some (.result id p)) now ∧ s.pc? j = some (.serving n) ∧
      s.connections.lookup n = some r ∧ (s.sessions r).pending.lookup id = some f := by
  cases h with
  | spawned pc₁ enrolled idle unanswered state =>
    subst state
    exact .inl hf
  | moved i pc₁ pc' found tasks adds => exact .inl (adds.results f p hf)
  | connected i m status found tasks results => exact .inl (results f p hf)
  | registered i m timeout id r pc' label found current tasks waits futures =>
    rw [futures,Function.update_apply] at hf
    split at hf
    · cases hf
    · exact .inl hf
  | delivered j m id p' now r f' label found tasks current entry undone futures =>
    rw [futures,Function.update_apply] at hf
    split at hf
    next hff =>
      cases hf
      subst hff
      exact .inr ⟨j,m,id,now,r,label,found,current,entry⟩
    · exact .inl hf

/-- A step that enters no future keeps what is known, once the new place of its task, a
new session and a new result are accounted for. -/
theorem Probing.keep (hp : Probing settings records ls s) (he : exec (step settings) ls (initial records) = some s)
    (ht : ∀ j pc, t.pc? j = some pc → s.pc? j = some pc ∨ pc.awaits = none ∧
      (∀ n, pc.enrolledAs = some n → Authenticated settings records (ls ++ [l]) j n) ∧
      ∀ id p, pc.answer = some (id,p) → ∃ n, Answered settings records (ls ++ [l]) j n id p)
    (hresults : ∀ i n r f id p, s.pc? i = some (.wait n r f id) → t.futures f = .result p →
      s.futures f = .result p ∨ Answered settings records (ls ++ [l]) i n id p)
    (hfutures : t.futureCount = s.futureCount) (hpending : ∀ r e, e ∈ (t.sessions r).pending → e ∈ (s.sessions r).pending)
    (hconnections : ∀ e ∈ t.connections, e ∈ s.connections ∨ e = (n,s.sessionCount) ∧ s.sessionCount < t.sessionCount)
    (hcount : s.sessionCount ≤ t.sessionCount) : Probing settings records (ls ++ [l]) t := by
  have hold {i pc f} (h : t.pc? i = some pc) (hf : pc.awaits = some f) : s.pc? i = some pc := by
    obtain hsame | ⟨hnone,-⟩ := ht i pc h
    · exact hsame
    · rw [hf] at hnone
      cases hnone
  refine ⟨fun j pc n hpc hn => ?_,fun n r hc => ?_,fun n n' r hc hc' => ?_,fun r e h => ?_,fun i n r f id hpc => ?_,
    fun i n r f id n' hpc hc => ?_,fun i n r f id r' id' hpc h => ?_,fun i i' pc pc' f hpc hpc' hf hf' => ?_,
    fun i n r f id hpc => ?_,fun i n r f id p hpc hr => ?_,fun i id p hpc => ?_⟩
  · obtain hsame | ⟨-,henrolled,-⟩ := ht j pc hpc
    · exact (hp.enrolled j pc n hsame hn).snoc he
    · exact henrolled n hn
  · obtain hc | ⟨hnew,hlt⟩ := hconnections _ hc
    · exact Nat.lt_of_lt_of_le (hp.sessions n r hc) hcount
    · cases hnew
      exact hlt
  · obtain hc | ⟨hnew,-⟩ := hconnections _ hc
    · obtain hc' | ⟨hnew',-⟩ := hconnections _ hc'
      · exact hp.owner n n' r hc hc'
      · cases hnew'
        exact absurd (hp.sessions n _ hc) (Nat.lt_irrefl _)
    · obtain hc' | ⟨hnew',-⟩ := hconnections _ hc'
      · cases hnew
        exact absurd (hp.sessions n' _ hc') (Nat.lt_irrefl _)
      · cases hnew
        cases hnew'
        rfl
  · rw [hfutures]
    exact hp.entries r e (hpending r e h)
  · obtain ⟨hf,hr⟩ := hp.futures i n r f id (hold hpc rfl)
    rw [hfutures]
    exact ⟨hf,Nat.lt_of_lt_of_le hr hcount⟩
  · obtain hc | ⟨hnew,-⟩ := hconnections _ hc
    · exact hp.session i n r f id n' (hold hpc rfl) hc
    · cases hnew
      exact absurd (hp.futures i n _ f id (hold hpc rfl)).2 (Nat.lt_irrefl _)
  · exact hp.entry i n r f id r' id' (hold hpc rfl) (hpending r' _ h)
  · exact hp.single i i' pc pc' f (hold hpc hf) (hold hpc' hf') hf hf'
  · exact (hp.dispatched i n r f id (hold hpc rfl)).snoc he
  · obtain hr | ha := hresults i n r f id p (hold hpc rfl) hr
    · exact (hp.answered i n r f id p (hold hpc rfl) hr).snoc
    · exact ha
  · obtain hsame | ⟨-,-,hanswer⟩ := ht i _ hpc
    · obtain ⟨n,ha⟩ := hp.probed i id p hsame
      exact ⟨n,ha.snoc⟩
    · exact hanswer id p rfl

theorem Probing.adds (hp : Probing settings records ls s) (he : exec (step settings) ls (initial records) = some s)
    (ht : ∀ j pc, t.pc? j = some pc → s.pc? j = some pc ∨ pc.awaits = none ∧
      (∀ n, pc.enrolledAs = some n → Authenticated settings records (ls ++ [l]) j n) ∧
      ∀ id p, pc.answer = some (id,p) → ∃ n, Answered settings records (ls ++ [l]) j n id p)
    (hadds : s.AddsNothing t) : Probing settings records (ls ++ [l]) t :=
  hp.keep (n := "") he ht (fun _ _ _ f _ p _ h => .inl (hadds.results f p h)) hadds.futureCount hadds.pending
    (fun e h => .inl (hadds.connections e h)) (Nat.le_of_eq hadds.sessionCount.symm)

/-- The future of a dispatched probe is a new one. -/
theorem Probing.register (hp : Probing settings records ls s) (he : exec (step settings) ls (initial records) = some s)
    {r : SessionRef} {pc' : Pc} (hdispatched : Dispatched settings records (ls ++ [l]) i n id)
    (hcurrent : s.connections.lookup n = some r) (htasks : ∀ j, t.pc? j = if j = i then some pc' else s.pc? j)
    (hwaits : pc' = .wait n r s.futureCount id ∨ ∃ e, pc' = .done (.raised e))
    (hfutures : t.futures = Function.update s.futures s.futureCount .pending)
    (hcount : t.futureCount = s.futureCount + 1)
    (hpending : ∀ r' e, e ∈ (t.sessions r').pending → e ∈ (s.sessions r').pending ∨ r' = r ∧ e = (id,s.futureCount))
    (hconnections : t.connections = s.connections) (hsessions : t.sessionCount = s.sessionCount) :
    Probing settings records (ls ++ [l]) t := by
  have hr := mem_of_lookup hcurrent
  -- a probe that waits is an old one, or the one that is dispatched
  have hold {j pc f} (h : t.pc? j = some pc) (hf : pc.awaits = some f) :
      s.pc? j = some pc ∨ j = i ∧ pc = .wait n r s.futureCount id := by
    rw [htasks] at h
    obtain ⟨rfl,rfl⟩ | h := pc_cases h
    · obtain rfl | ⟨e,rfl⟩ := hwaits
      · exact .inr ⟨rfl,rfl⟩
      · cases hf
    · exact .inl h
  refine ⟨fun j pc m hpc hm => ?_,fun m r' hc => ?_,fun m m' r' hc hc' => ?_,fun r' e h => ?_,fun j m r' f id' hpc => ?_,
    fun j m r' f id' m' hpc hc => ?_,fun j m r' f id' r'' id'' hpc h => ?_,fun j j' pc₁ pc₂ f hpc hpc' hf hf' => ?_,
    fun j m r' f id' hpc => ?_,fun j m r' f id' p hpc hf => ?_,fun j id' p hpc => ?_⟩
  · rw [htasks] at hpc
    obtain ⟨-,rfl⟩ | hpc := pc_cases hpc
    · obtain rfl | ⟨e,rfl⟩ := hwaits <;> cases hm
    · exact (hp.enrolled j pc m hpc hm).snoc he
  · rw [hconnections] at hc
    rw [hsessions]
    exact hp.sessions m r' hc
  · rw [hconnections] at hc hc'
    exact hp.owner m m' r' hc hc'
  · rw [hcount]
    obtain h | ⟨-,rfl⟩ := hpending r' e h
    · exact Nat.lt_succ_of_lt (hp.entries r' e h)
    · exact Nat.lt_succ_self _
  · rw [hcount,hsessions]
    obtain hpc | ⟨-,hpc⟩ := hold hpc rfl
    · obtain ⟨hf,hr'⟩ := hp.futures j m r' f id' hpc
      exact ⟨Nat.lt_succ_of_lt hf,hr'⟩
    · cases hpc
      exact ⟨Nat.lt_succ_self _,hp.sessions n r hr⟩
  · rw [hconnections] at hc
    obtain hpc | ⟨-,hpc⟩ := hold hpc rfl
    · exact hp.session j m r' f id' m' hpc hc
    · cases hpc
      exact hp.owner m' n r hc hr
  · obtain hpc | ⟨-,hpc⟩ := hold hpc rfl
    · obtain h | ⟨rfl,hnew⟩ := hpending r'' _ h
      · exact hp.entry j m r' f id' r'' id'' hpc h
      · cases hnew
        exact absurd (hp.futures j m r' _ id' hpc).1 (Nat.lt_irrefl _)
    · cases hpc
      obtain h | ⟨rfl,hnew⟩ := hpending r'' _ h
      · exact absurd (hp.entries r'' _ h) (Nat.lt_irrefl _)
      · cases hnew
        exact ⟨rfl,rfl⟩
  · have hnew {j pc f} (hpc : s.pc? j = some pc) (hf : pc.awaits = some f) : f ≠ s.futureCount := by
      cases pc <;> cases hf
      exact Nat.ne_of_lt (hp.futures j _ _ _ _ hpc).1
    obtain hpc | ⟨rfl,rfl⟩ := hold hpc hf
    · obtain hpc' | ⟨rfl,rfl⟩ := hold hpc' hf'
      · exact hp.single j j' pc₁ pc₂ f hpc hpc' hf hf'
      · cases hf'
        exact absurd rfl (hnew hpc hf)
    · obtain hpc' | ⟨rfl,-⟩ := hold hpc' hf'
      · cases hf
        exact absurd rfl (hnew hpc' hf')
      · rfl
  · obtain hpc | ⟨rfl,hpc⟩ := hold hpc rfl
    · exact (hp.dispatched j m r' f id' hpc).snoc he
    · cases hpc
      exact hdispatched
  · rw [hfutures] at hf
    obtain hpc | ⟨-,hpc⟩ := hold hpc rfl
    · rw [Function.update_of_ne (Nat.ne_of_lt (hp.futures j m r' f id' hpc).1)] at hf
      exact (hp.answered j m r' f id' p hpc hf).snoc
    · cases hpc
      rw [Function.update_self] at hf
      cases hf
  · rw [htasks] at hpc
    obtain ⟨-,rfl⟩ | hpc := pc_cases hpc
    · obtain hw | ⟨e,hw⟩ := hwaits <;> cases hw
    · obtain ⟨m,ha⟩ := hp.probed j id' p hpc
      exact ⟨m,ha.snoc⟩

theorem step_probing (hp : Probing settings records ls s) (he : exec (step settings) ls (initial records) = some s)
    (h : step settings l s = some t) : Probing settings records (ls ++ [l]) t := by
  cases step_turn h with
  | spawned pc enrolled idle unanswered state =>
    subst state
    refine hp.adds he (fun j pc₁ hpc => ?_) (.of_eq rfl rfl rfl rfl rfl)
    obtain ⟨task,htask,rfl⟩ := Option.map_eq_some_iff.mp hpc
    obtain rfl | htask := spawn_task htask
    · exact .inr ⟨idle,by simp [enrolled],by simp [unanswered]⟩
    · exact .inl (by rw [pc?,htask]; rfl)
  | moved i pc pc' found tasks adds enrolled idle answers =>
    refine hp.adds he (fun j pc₁ hpc => ?_) adds
    rw [tasks] at hpc
    obtain ⟨rfl,rfl⟩ | hpc := pc_cases hpc
    · refine .inr ⟨idle,fun n hn => ?_,fun id p ha => ?_⟩
      · obtain hn | hauth := enrolled n hn
        · exact (hp.enrolled j pc n found hn).snoc he
        · exact (execAny_snoc he).mpr (.inr hauth)
      · obtain ⟨n,r,f,rfl,hr⟩ := answers id p ha
        exact ⟨n,(hp.answered j n r f id p found hr).snoc⟩
    · exact .inl hpc
  | connected i n status found tasks results futureCount pending connections sessionCount =>
    refine hp.keep he (fun j pc₁ hpc => ?_) (fun _ _ _ f _ p _ h => .inl (results f p h)) futureCount pending
      (fun e he => (connections e he).imp_right fun hnew => ⟨hnew,?_⟩) ?_
    · rw [tasks] at hpc
      obtain ⟨rfl,rfl⟩ | hpc := pc_cases hpc
      · refine .inr ⟨rfl,fun m hm => ?_,fun id p ha => ?_⟩
        · exact (hp.enrolled j _ m found hm).snoc he
        · cases ha
      · exact .inl hpc
    · omega
    · omega
  | registered i n timeout id r pc' label found current tasks waits futures futureCount pending connections sessionCount =>
    obtain ⟨now,fresh,rfl⟩ := label
    exact hp.register he ((execAny_snoc he).mpr (.inr ⟨now,fresh,timeout,rfl,found⟩)) current tasks waits futures
      futureCount pending connections sessionCount
  | delivered j n id p now r f label found tasks current entry undone futures futureCount pending connections sessionCount =>
    subst label
    refine hp.keep (n := n) he (fun k pc₁ hpc => .inl ?_) (fun i m r' f' id' p' hpc hr => ?_) futureCount pending
      (fun e he => .inl ?_) (Nat.le_of_eq sessionCount.symm)
    · rwa [pc?,tasks] at hpc
    · by_cases hf : f' = f
      · -- the future of the probe is entered in its own session, under its own task id
        subst hf
        obtain ⟨rfl,rfl⟩ := hp.entry i m r' f' id' r id hpc (mem_of_lookup entry)
        obtain rfl := hp.session i m r f' id n hpc (mem_of_lookup current)
        rw [futures,Function.update_self] at hr
        cases hr
        refine .inr ⟨ls,[],j,now,s,t,r,f',by simp,he,h,?_,?_,found,hpc,undone,?_⟩
        · exact hp.dispatched i n r f' id hpc
        · exact hp.enrolled j _ n found rfl
        · rw [futures,Function.update_self]
      · rw [futures,Function.update_of_ne hf] at hr
        exact .inl hr
    · rwa [connections] at he

theorem initial_probing (settings : Settings) (records : Table) : Probing settings records [] (initial records) where
  enrolled := fun _ _ _ h => nomatch h
  sessions := fun _ _ h => nomatch h
  owner := fun _ _ _ h => nomatch h
  entries := fun _ _ h => nomatch h
  futures := fun _ _ _ _ _ h => nomatch h
  session := fun _ _ _ _ _ _ h => nomatch h
  entry := fun _ _ _ _ _ _ _ h => nomatch h
  single := fun _ _ _ _ _ h => nomatch h
  dispatched := fun _ _ _ _ _ h => nomatch h
  answered := fun _ _ _ _ _ _ h => nomatch h
  probed := fun _ _ _ h => nomatch h

theorem probing_exec (h : exec (step settings) ls (initial records) = some s) : Probing settings records ls s :=
  exec_induction (P := fun ls s => Probing settings records ls s) (initial_probing settings records)
    (fun _ _ _ _ he hp hs => step_probing hp he hs) h

end Runs

/-! ## Messages of another node -/

/-- The states differ at most in the current session of `m` and in one future that is
entered there. -/
structure Beside (s t : NodeService) (m : NodeId) : Prop where
  records : t.records = s.records
  connections : t.connections = s.connections
  recentTasks : t.recentTasks = s.recentTasks
  databaseLock : t.databaseLock = s.databaseLock
  tasks : t.tasks = s.tasks
  futureCount : t.futureCount = s.futureCount
  sessions : ∀ r, s.connections.lookup m ≠ some r → t.sessions r = s.sessions r
  futures : ∃ f, (∀ f', f' ≠ f → t.futures f' = s.futures f') ∧
    (t.futures f = s.futures f ∨ ∃ r id, s.connections.lookup m = some r ∧ (id,f) ∈ (s.sessions r).pending)

section Messages
variable {settings : Settings} {s t : NodeService} {i j : TaskRef} {n m : NodeId} {id : TaskId} {outcome : Future}

theorem Received.beside (h : Received s t m id outcome) : Beside s t m := by
  have hforget (r : SessionRef) (hcur : s.connections.lookup m = some r) :
      ∀ r', s.connections.lookup m ≠ some r' → (s.forget r id).sessions r' = s.sessions r' :=
    fun r' hr => Function.update_of_ne (by rintro rfl; exact hr hcur) _ _
  cases h with
  | lost state =>
    subst state
    exact ⟨rfl,rfl,rfl,rfl,rfl,rfl,fun _ _ => rfl,0,fun _ _ => rfl,.inl rfl⟩
  | late r current state =>
    subst state
    exact ⟨rfl,rfl,rfl,rfl,rfl,rfl,hforget r current,0,fun _ _ => rfl,.inl rfl⟩
  | settled r f events current entry undone state =>
    subst state
    exact ⟨rfl,rfl,rfl,rfl,rfl,rfl,hforget r current,f,fun f' hf => Function.update_of_ne hf _ _,
      .inr ⟨r,id,current,mem_of_lookup entry⟩⟩

theorem goto_pc? (u : NodeService) (i : TaskRef) (pc : Pc) : (u.goto i pc).pc? i = (u.tasks i).map fun _ => pc := by
  simp only [pc?, goto, updateTask, Function.update_self, Option.map_map]
  rfl

theorem disconnected_pc? {u v : NodeService} (h : u.tasks = v.tasks) (k : AfterDisconnect) (n : NodeId) :
    (u.disconnected i n k).pc? i = (v.disconnected i n k).pc? i := by
  cases k with
  | socket => simp [disconnected,goto_pc?,h]
  | sweep rest k => simp [disconnected,goto_pc?,note,h]
  | disabled record => simp [disconnected,goto_pc?,note,h]

theorem leave_pc? {u v : NodeService} (h : u.tasks = v.tasks) (pc : Pc) (e : NodeError) :
    (u.leave i pc e).pc? i = (v.leave i pc e).pc? i := by
  unfold NodeService.leave
  split <;> simp [goto_pc?,release,h]

/-- A probe of another node goes on as it would have. -/
theorem Beside.dispatch (h : Beside s t m) (howner : ∀ r, s.connections.lookup n = some r → t.sessions r = s.sessions r)
    (timeout : Option ℤ) (id : TaskId) :
    (t.dispatch settings i n timeout id).pc? i = (s.dispatch settings i n timeout id).pc? i := by
  unfold NodeService.dispatch
  rw [h.recentTasks,h.connections,h.futureCount]
  split
  · simp [goto_pc?,h.tasks]
  · split
    · simp [goto_pc?,h.tasks]
    next r hcur =>
      rw [howner r hcur]
      split
      · simp [goto_pc?,h.tasks]
      · dsimp only
        split
        · simp [goto_pc?,register,forget,updateSession,h.tasks]
        · split <;> simp [goto_pc?,register,forget,updateSession,enqueue,note,h.tasks]

theorem Beside.resume (h : Beside s t m) {pc : Pc} {now : Instant} {fresh : TaskId}
    (howner : ∀ r, s.connections.lookup n = some r → t.sessions r = s.sessions r)
    (hfuture : ∀ n r f id, pc = .wait n r f id → t.futures f = s.futures f) (hn : pc.probeOf = some n) :
    (t.resume settings i now fresh pc).bind (fun u => u.pc? i) =
      (s.resume settings i now fresh pc).bind (fun u => u.pc? i) := by
  have hlock {pc' : Pc} : (t.acquire i pc').bind (fun u => u.pc? i) = (s.acquire i pc').bind (fun u => u.pc? i) := by
    unfold NodeService.acquire
    rw [h.databaseLock]
    split <;> simp [goto_pc?,h.tasks]
  cases pc with
  | sweepRead cutoff k => simp [NodeService.resume,goto_pc?,h.tasks,h.records]
  | sweepCommit stale k => simp [NodeService.resume,goto_pc?,markOffline,h.tasks]
  | swept k =>
    cases k with
    | probe n' timeout id =>
      simp only [NodeService.resume, afterSweep, h.records]
      split
      · simp [goto_pc?,h.tasks]
      · split
        · simp [goto_pc?,h.tasks]
        · split <;> simp [goto_pc?,h.tasks]
    | _ => cases hn
  | disconnect n' k =>
    simp [NodeService.resume,goto_pc?,(popConnection_frame t n' _).1,(popConnection_frame s n' _).1,h.tasks]
  | offlineLock n' k => exact hlock
  | offlineRead n' k =>
    simp only [NodeService.resume, h.records]
    split
    · exact disconnected_pc? (u := t.release i) (v := s.release i) h.tasks k n'
    · split
      · exact disconnected_pc? (u := t.release i) (v := s.release i) h.tasks k n'
      · simp [goto_pc?,h.tasks]
  | offlineCommit n' read k => simp [NodeService.resume,goto_pc?,update,h.tasks]
  | offlinePublish n' k =>
    exact disconnected_pc? (u := (t.note (.offline n')).release i) (v := (s.note (.offline n')).release i) h.tasks k n'
  | dispatch n' timeout id =>
    cases hn
    exact h.dispatch howner timeout id
  | wait n' r f id =>
    simp only [NodeService.resume, hfuture n' r f id rfl]
    split <;> simp [goto_pc?,note,h.tasks]
  | timedOut n' r id =>
    have hcancel (u : NodeService) : (u.cancelProbe settings i n' r id).pc? i =
        (u.tasks i).map fun _ => Pc.done (.raised .timeout) := by
      unfold cancelProbe
      rw [goto_pc?]
      dsimp only [note]
      split <;> rfl
    simp [NodeService.resume,hcancel,h.tasks]
  | _ => cases hn

/-- What the probe of `n` that task `i` is does next, with and without a message for `m`. -/
theorem Beside.next (h : Beside s t m) {pc : Pc} {l : Label}
    (howner : ∀ r, s.connections.lookup n = some r → t.sessions r = s.sessions r)
    (hfuture : ∀ n r f id, pc = .wait n r f id → t.futures f = s.futures f) (hpc : s.pc? i = some pc)
    (hn : pc.probeOf = some n) (hl : (∃ now fresh, l = .run i now fresh) ∨ l = .timeout i ∨ l = .fail i) :
    (step settings l t).bind (fun u => u.pc? i) = (step settings l s).bind (fun u => u.pc? i) := by
  have hpct : t.pc? i = some pc := by rw [pc?,h.tasks,← hpc]; rfl
  obtain ⟨now,fresh,rfl⟩ | rfl | rfl := hl
  · simp only [step, hpct, hpc]
    exact h.resume howner hfuture hn
  · simp only [step, hpct, hpc]
    split <;> simp [goto_pc?,settle,h.tasks]
  · simp only [step, hpct, hpc]
    split
    · rfl
    · rfl
    · exact leave_pc? (u := t.settle _ _) (v := s.settle _ _) h.tasks _ _
    · exact leave_pc? h.tasks _ _

theorem handle_beside {message : ClientMessage} (h : message.answers = true) (now : Instant) :
    Beside s (s.handle j m now message) m := by
  cases message with
  | result id p => exact (receiveResult_received s m id (.result p) none).beside
  | error id code message =>
    exact (receiveResult_received s m id (.exception (.failed message)) (some (.taskFailed m id code))).beside
  | _ => cases h

/-- A message settles one future at most. -/
theorem receive_futures {message : Option ClientMessage} {now : Instant}
    (h : step settings (.receive j message now) s = some t) : ∃ f, ∀ f', f' ≠ f → t.futures f' = s.futures f' := by
  have hsame (h : t.futures = s.futures) : ∃ f, ∀ f', f' ≠ f → t.futures f' = s.futures f' := ⟨0,fun f' _ => congrFun h f'⟩
  simp only [step] at h
  split at h
  · cases h
    exact hsame rfl
  · cases h
    exact hsame rfl
  · cases h
    exact hsame rfl
  next m message _ =>
    cases h
    cases hanswers : message.answers with
    | true =>
      obtain ⟨f,hf,-⟩ := (handle_beside (s := s) (j := j) (m := m) hanswers now).futures
      exact ⟨f,hf⟩
    | false => cases message <;> first | exact hsame rfl | cases hanswers
  · cases h
    exact hsame rfl
  · cases h

end Messages

/-- An answered probe is the call that its task was started by. -/
theorem Answered.called {settings : Settings} {records : Table} {ls : List Label} {s : NodeService} {i : TaskRef} {n : NodeId}
    {id : TaskId} {p : JsonObject} (h : exec (step settings) ls (initial records) = some s)
    (ha : Answered settings records ls i n id p) :
    (∃ given, Started settings records ls i n given) ∧
      ∀ m given, Started settings records ls i m given → m = n ∧ Named given id := by
  obtain ⟨earlier,later,j,now,u,v,r,f,hls,hu,-,-,-,-,hwait,-⟩ := ha.delivery
  have hcalled := called_exec hu
  obtain ⟨m,given,hstarted⟩ := hcalled.started i _ hwait rfl
  obtain ⟨rfl,hnamed⟩ := hcalled.probes i _ m given hwait rfl hstarted
  have hall : Started settings records ls i n given := by
    rw [hls]
    exact execAny_append hstarted
  refine ⟨⟨given,hall⟩,fun m given' hstarted' => ?_⟩
  obtain ⟨rfl,rfl⟩ := hstarted'.unique h hall
  exact ⟨rfl,hnamed⟩

/-- A task that has returned a payload is a call of `probe`, and the payload was delivered for the node
and under the task id of this call, after its dispatch and by a socket that has proved to be the
node. A message completes at most one probe, and one that arrives for another node changes neither
the state of a probe nor what it does next. -/
theorem probe_result_authentic (settings : Settings) (records : Table) {ls : List Label} {s : NodeService}
    (h : exec (step settings) ls (initial records) = some s) :
    (∀ i id p, s.pc? i = some (.done (.probed id p)) → (∃ n given, Started settings records ls i n given) ∧
      ∀ n given, Started settings records ls i n given → Named given id ∧ Answered settings records ls i n id p) ∧
      ∀ j message now t, step settings (.receive j message now) s = some t →
        (∀ i i' pc pc' f f', s.pc? i = some pc → s.pc? i' = some pc' → pc.awaits = some f → pc'.awaits = some f' →
          t.futures f ≠ s.futures f → t.futures f' ≠ s.futures f' → i = i') ∧
        ∀ m answer, s.pc? j = some (.serving m) → message = some answer → answer.answers = true →
          ∀ i pc n, s.pc? i = some pc → pc.probeOf = some n → n ≠ m →
            t.pc? i = some pc ∧ (∀ f, pc.awaits = some f → t.futures f = s.futures f) ∧
              ∀ l, (∃ now fresh, l = .run i now fresh) ∨ l = .timeout i ∨ l = .fail i →
                (step settings l t).bind (fun u => u.pc? i) = (step settings l s).bind (fun u => u.pc? i) := by
  have hp := probing_exec h
  refine ⟨fun i id p hpc => ?_,fun j message now t ht => ⟨fun i i' pc pc' f f' hpc hpc' hf hf' hne hne' => ?_,?_⟩⟩
  · obtain ⟨n,ha⟩ := hp.probed i id p hpc
    obtain ⟨⟨given,hstarted⟩,hcall⟩ := ha.called h
    refine ⟨⟨n,given,hstarted⟩,fun m given' hstarted' => ?_⟩
    obtain ⟨rfl,hnamed⟩ := hcall m given' hstarted'
    exact ⟨hnamed,ha⟩
  · obtain ⟨g,hg⟩ := receive_futures ht
    have hfg : f = g := by_contra fun hfg => hne (hg f hfg)
    have hfg' : f' = g := by_contra fun hfg => hne' (hg f' hfg)
    exact hp.single i i' pc pc' f hpc hpc' hf (hf'.trans (by rw [hfg,hfg']))
  · rintro m answer hserving rfl hanswers i pc n hpc hn hne
    simp only [step, hserving, Option.some.injEq] at ht
    subst ht
    have hbeside := handle_beside (s := s) (j := j) (m := m) hanswers now
    -- the session of `n` is not the session of `m`
    have hother : ∀ r, s.connections.lookup n = some r → s.connections.lookup m ≠ some r := fun r hr hm =>
      hne (hp.owner n m r (mem_of_lookup hr) (mem_of_lookup hm))
    have hfuture : ∀ n r f id, pc = .wait n r f id → (s.handle j m now answer).futures f = s.futures f := by
      rintro n' r f id rfl
      cases hn
      obtain ⟨g,hg,hsame | ⟨r',id',hm,hentry⟩⟩ := hbeside.futures
      · by_cases hf : f = g
        · rw [hf]
          exact hsame
        · exact hg f hf
      · refine hg f fun hf => ?_
        subst hf
        obtain ⟨rfl,-⟩ := hp.entry i n r f id r' id' hpc hentry
        exact hne (hp.session i n r' f id m hpc (mem_of_lookup hm)).symm
    refine ⟨by rw [pc?,hbeside.tasks,← hpc]; rfl,fun f hf => ?_,fun l hl => ?_⟩
    · cases pc <;> cases hf
      exact hfuture _ _ f _ rfl
    · exact hbeside.next (fun r hr => hbeside.sessions r (hother r hr)) hfuture hpc hn hl

/-- The worker answers the probe that it has been sent. -/
def probeLabels : List Label :=
  socketLabels 0 ++ [.run 0 0 "",.sweep (.probe "node_0001" none (some "tsk_00001")) 0,.run 1 0 "",.run 1 0 "",.run 1 0 "",
    .run 1 0 "",.receive 0 (some (.result "tsk_00001" [])) 0,.run 1 0 ""]

theorem probeLabels_call : Started sampleSettings [] probeLabels 1 "node_0001" (some "tsk_00001") := by
  have hcount : (exec (step sampleSettings) (socketLabels 0 ++ [.run 0 0 ""]) (initial [])).map (·.taskCount) = some 1 := by
    decide +kernel
  obtain ⟨s,hs,hone⟩ := Option.map_eq_some_iff.mp hcount
  have hcall : Calls 1 "node_0001" (some "tsk_00001") (.sweep (.probe "node_0001" none (some "tsk_00001")) 0) s :=
    ⟨none,0,rfl,hone⟩
  have hstarted := (execAny_snoc hs).mpr (.inr hcall)
  have hlabels : probeLabels = (socketLabels 0 ++ [.run 0 0 ""] ++ [.sweep (.probe "node_0001" none (some "tsk_00001")) 0]) ++
      probeLabels.drop 9 := rfl
  rw [hlabels]
  exact execAny_append hstarted

theorem probe_result_authentic_probed : Answered sampleSettings [] probeLabels 1 "node_0001" "tsk_00001" [] := by
  let s := after (step sampleSettings) probeLabels (initial []) (by decide +kernel)
  have hexec : exec (step sampleSettings) probeLabels (initial []) = some s := exec_after _
  obtain ⟨⟨n,given,hstarted⟩,hcall⟩ := (probe_result_authentic sampleSettings [] hexec).1 1 _ _ rfl
  exact (hcall "node_0001" (some "tsk_00001") probeLabels_call).2

end NodeService

end AgentGraph.Nodes
