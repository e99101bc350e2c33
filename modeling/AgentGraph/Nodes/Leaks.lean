import AgentGraph.Nodes.Slots

/-! # Slots that are not given back

A probe that has entered its future returns in one of several ways. After a result, a
disconnect, a timeout or a full queue its entry is gone. A request that does not validate
and a caller that is cancelled leave it behind.
-/
set_option autoImplicit false
namespace AgentGraph.Nodes
open Transition

/-- The service, and for each future the probe that has made it. -/
structure Tracked where
  service : NodeService
  maker : FutureRef → TaskRef

namespace Tracked
open NodeService

def start (records : Table) : Tracked := ⟨initial records,fun _ => 0⟩

/-- A future that the step may make is the next one. -/
def makers (l : Label) (x : Tracked) : FutureRef → TaskRef :=
  match l with
  | .run i _ _ => Function.update x.maker x.service.futureCount i
  | _ => x.maker

def step (settings : Settings) (l : Label) (x : Tracked) : Option Tracked :=
  (NodeService.step settings l x.service).map fun t => ⟨t,makers l x⟩

/-- Every slot is held by a probe in progress, and every probe that waits holds its slot.
Then a session on which no probe is in progress has room for one. -/
structure SlotsHeld (settings : Settings) (x : Tracked) : Prop where
  entries : ∀ r id f, (id,f) ∈ x.service.pendingOf r → ∃ n, x.service.pc? (x.maker f) = some (.wait n r f id) ∨
    x.service.pc? (x.maker f) = some (.timedOut n r id) ∧ x.service.futures f ≠ .pending
  waiting : ∀ i n r f id, x.service.pc? i = some (.wait n r f id) →
    ((id,f) ∈ x.service.pendingOf r ↔ x.service.futures f = .pending)
  tasks : ∀ r, (x.service.pendingOf r).length ≤ settings.maxTasks
  connections : x.service.connections.length ≤ settings.maxConnections
  accepts : ∀ i n r timeout id message now fresh, x.service.pc? i = some (.dispatch n timeout id) →
    x.service.connections.lookup n = some r → (∀ j pc id', x.service.pc? j = some pc → pc.slot ≠ some (r,id')) →
    id ∉ x.service.recentTasks → taskRequest id (orDefault timeout settings.taskTimeout) = some message →
    (x.service.sessions r).queue.length < settings.maxMessages →
    ∃ t f, NodeService.step settings (.run i now fresh) x.service = some t ∧ t.pc? i = some (.wait n r f id)

/-- The step leaves an entry without its probe, or takes out the entry of another probe. -/
inductive Loses (settings : Settings) (l : Label) (x : Tracked) : Prop
  -- the request does not validate
  | invalid (i : TaskRef) (n : NodeId) (r : SessionRef) (timeout : Option ℤ) (id : TaskId)
      (enters : Enters settings l x.service i n r timeout id)
      (request : taskRequest id (orDefault timeout settings.taskTimeout) = none)
  -- another probe waits under the task id
  | reused (i : TaskRef) (n : NodeId) (r : SessionRef) (timeout : Option ℤ) (id : TaskId) (f : FutureRef)
      (enters : Enters settings l x.service i n r timeout id) (entry : (id,f) ∈ x.service.pendingOf r)
      (undone : x.service.futures f = .pending)
  | withdrawn (i : TaskRef) (n : NodeId) (r : SessionRef) (id : TaskId) (f : FutureRef)
      (label : ∃ now fresh, l = .run i now fresh) (found : x.service.pc? i = some (.timedOut n r id))
      (entry : (id,f) ∈ x.service.pendingOf r) (undone : x.service.futures f = .pending)
  -- the caller is cancelled
  | cancelled (i : TaskRef) (n : NodeId) (r : SessionRef) (f : FutureRef) (id : TaskId) (label : l = .fail i)
      (found : x.service.pc? i = some (.wait n r f id)) (entry : (id,f) ∈ x.service.pendingOf r)
  | abandoned (i : TaskRef) (n : NodeId) (r : SessionRef) (f : FutureRef) (id : TaskId) (label : l = .fail i)
      (found : x.service.pc? i = some (.timedOut n r id)) (entry : (id,f) ∈ x.service.pendingOf r) (own : x.maker f = i)

section Runs
variable {settings : Settings} {records : Table} {l : Label} {x y : Tracked} {t : NodeService} {i j : TaskRef} {n : NodeId}
  {r : SessionRef} {f : FutureRef} {id : TaskId}

/-- Every run of the service is a run with the makers. -/
theorem exec_service (settings : Settings) (ls : List Label) (x : Tracked) :
    (exec (step settings) ls x).map service = exec (NodeService.step settings) ls x.service := by
  refine exec_map (fun l x => ?_) ls x
  rw [step,Option.map_map]
  exact Option.map_id'

theorem makers_of_lt (h : f < x.service.futureCount) (l : Label) : makers l x f = x.maker f := by
  unfold makers
  split
  · exact Function.update_of_ne (Nat.ne_of_lt h) _ _
  · rfl

/-- The slots are bounded, and a probe waits on a future that it has made. -/
structure Sound (settings : Settings) (records : Table) (x : Tracked) : Prop where
  bounded : SlotsBounded settings records x.service
  maker : ∀ i n r f id, x.service.pc? i = some (.wait n r f id) → x.maker f = i

theorem Sound.unique (hx : Sound settings records x) {n' : NodeId} {r' : SessionRef} {id' : TaskId}
    (hi : x.service.pc? i = some (.wait n r f id)) (hj : x.service.pc? j = some (.wait n' r' f id')) : i = j :=
  (hx.maker i n r f id hi).symm.trans (hx.maker j n' r' f id' hj)

/-- What the claim on the sessions needs of the entries. -/
theorem SlotsHeld.of_entries (hx : Sound settings records x) (hpos : 0 < settings.maxTasks)
    (hentries : ∀ r id f, (id,f) ∈ x.service.pendingOf r → ∃ n, x.service.pc? (x.maker f) = some (.wait n r f id) ∨
      x.service.pc? (x.maker f) = some (.timedOut n r id) ∧ x.service.futures f ≠ .pending)
    (hwaiting : ∀ i n r f id, x.service.pc? i = some (.wait n r f id) →
      ((id,f) ∈ x.service.pendingOf r ↔ x.service.futures f = .pending)) : SlotsHeld settings x := by
  refine ⟨hentries,hwaiting,hx.bounded.tasks,hx.bounded.connections,
    fun i n r timeout id message now fresh hpc hcur hnone hnew hmessage hqueue => ?_⟩
  -- an entry would have a probe in progress
  have hempty : x.service.pendingOf r = [] := by
    refine List.eq_nil_iff_forall_not_mem.mpr fun ⟨id',f⟩ hmem => ?_
    obtain ⟨m,hwait | ⟨htimed,-⟩⟩ := hentries r id' f hmem
    · exact hnone _ _ id' hwait rfl
    · exact hnone _ _ id' htimed rfl
  have hroom : (x.service.pendingOf r).length < settings.maxTasks := by rw [hempty]; exact hpos
  have hstep : NodeService.step settings (.run i now fresh) x.service = some (x.service.dispatch settings i n timeout id) := by
    simp only [NodeService.step, hpc, resume]
  refine ⟨_,x.service.futureCount,hstep,?_⟩
  have henters : Enters settings (.run i now fresh) x.service i n r timeout id := ⟨⟨now,fresh,rfl⟩,hpc,hnew,hcur,hroom⟩
  obtain ⟨hinvalid,-⟩ | ⟨-,hfull,-⟩ | ⟨message',-,hstate⟩ := henters.dispatch hstep
  · simp [hmessage] at hinvalid
  · exact absurd hqueue (Nat.not_lt.mpr hfull)
  · rw [hstate]
    exact pc?_goto_self hpc rfl

/-- A step that loses a slot ends the property. -/
theorem Loses.not_held (h : Loses settings l x) (hx : Sound settings records x) (hheld : SlotsHeld settings x)
    (ht : NodeService.step settings l x.service = some t) : ¬ SlotsHeld settings ⟨t,makers l x⟩ := by
  obtain ⟨ls,hp⟩ := hx.bounded.probing
  intro hheld'
  cases h with
  | invalid i n r timeout id enters request =>
    obtain ⟨-,hstate⟩ | ⟨hmessage,-⟩ | ⟨message,hmessage,-⟩ := enters.dispatch ht
    · subst hstate
      -- the new entry is there, and its probe has returned
      have hentry : (id,x.service.futureCount) ∈ (x.service.register r id).pendingOf r :=
        mem_pendingOf_register.mpr (.inr ⟨rfl,rfl,rfl⟩)
      have hmaker : makers l x x.service.futureCount = i := by
        obtain ⟨now,fresh,rfl⟩ := enters.label
        exact Function.update_self _ _ _
      obtain ⟨m,hpc⟩ := hheld'.entries r id x.service.futureCount hentry
      dsimp only at hpc
      rw [hmaker,pc?_goto_self (u := x.service.register r id) enters.found rfl] at hpc
      simp at hpc
    · simp [request] at hmessage
    · simp [request] at hmessage
  | reused i n r timeout id f enters entry undone =>
    obtain ⟨m,hwait | ⟨-,hdone⟩⟩ := hheld.entries r id f entry
    · -- the probe that waits under the task id has lost its entry
      have hlt := (hp.futures _ m r f id hwait).1
      have hne : x.maker f ≠ i := by
        rintro hi
        rw [hi,enters.found] at hwait
        cases hwait
      have hlost {u : NodeService} {pc : Pc} (hstate : t = u.goto i pc) (htasks : u.tasks = x.service.tasks)
          (hfutures : u.futures f = .pending) (hgone : (id,f) ∉ u.pendingOf r) : False := by
        subst hstate
        have hwait' : (u.goto i pc).pc? (x.maker f) = some (.wait m r f id) :=
          (pc?_goto_other enters.found htasks hne).trans hwait
        exact hgone ((hheld'.waiting _ m r f id hwait').mpr hfutures)
      have hfutures : (x.service.register r id).futures f = .pending :=
        (Function.update_of_ne (Nat.ne_of_lt hlt) _ _).trans undone
      have hgone : (id,f) ∉ (x.service.register r id).pendingOf r := by
        simp [mem_pendingOf_register,Nat.ne_of_lt hlt]
      obtain ⟨-,hstate⟩ | ⟨-,-,hstate⟩ | ⟨message,-,hstate⟩ := enters.dispatch ht
      · exact hlost hstate rfl hfutures hgone
      · exact hlost hstate rfl hfutures fun hmem => hgone (mem_pendingOf_forget.mp hmem).1
      · refine hlost hstate rfl hfutures fun hmem => hgone ?_
        rwa [← pendingOf_requested settings]
    · exact hdone undone
  | withdrawn i n r id f label found entry undone =>
    obtain ⟨now,fresh,rfl⟩ := label
    simp only [NodeService.step, found, resume, Option.some.injEq] at ht
    obtain ⟨m,hwait | ⟨-,hdone⟩⟩ := hheld.entries r id f entry
    · have hne : x.maker f ≠ i := by
        rintro hi
        rw [hi,found] at hwait
        cases hwait
      obtain ⟨u,htasks,hstill,hstate⟩ := cancelProbe_still settings x.service i n r id
      obtain rfl := ht.symm.trans hstate
      have hwait' : (u.goto i (.done (.raised .timeout))).pc? (x.maker f) = some (.wait m r f id) :=
        (pc?_goto_other found htasks hne).trans hwait
      have hundone : u.futures f = .pending := (congrFun hstill.futures f).trans undone
      have hmem : (id,f) ∈ u.pendingOf r := (hheld'.waiting _ m r f id hwait').mpr hundone
      rw [hstill.pending,mem_pendingOf_forget] at hmem
      exact hmem.2 ⟨rfl,rfl⟩
    · exact hdone undone
  | cancelled i n r f id label found entry =>
    subst label
    simp only [NodeService.step, found, Option.some.injEq] at ht
    subst ht
    -- the entry is still there, and its probe has returned
    obtain ⟨m,hpc⟩ := hheld'.entries r id f entry
    dsimp only at hpc
    have hmaker : makers (.fail i) x f = i := hx.maker i n r f id found
    have hdone : ((x.service.settle f .cancelled).leave i (.wait n r f id) .cancelled).pc? i =
        some (.done (.raised .cancelled)) :=
      pc?_goto_self (u := (x.service.settle f .cancelled).release i) found rfl
    rw [hmaker,hdone] at hpc
    simp at hpc
  | abandoned i n r f id label found entry own =>
    subst label
    simp only [NodeService.step, found, Option.some.injEq] at ht
    subst ht
    obtain ⟨m,hpc⟩ := hheld'.entries r id f entry
    dsimp only at hpc
    have hmaker : makers (.fail i) x f = i := own
    have hdone : (x.service.leave i (.timedOut n r id) .cancelled).pc? i = some (.done (.raised .cancelled)) :=
      pc?_goto_self (u := x.service.release i) found rfl
    rw [hmaker,hdone] at hpc
    simp at hpc

/-- The entries, each with its probe, and the probes that wait, each with its entry. -/
def Matched (s : NodeService) (maker : FutureRef → TaskRef) : Prop :=
  (∀ r id f, (id,f) ∈ s.pendingOf r → ∃ n, s.pc? (maker f) = some (.wait n r f id) ∨
    s.pc? (maker f) = some (.timedOut n r id) ∧ s.futures f ≠ .pending) ∧
  ∀ i n r f id, s.pc? i = some (.wait n r f id) → ((id,f) ∈ s.pendingOf r ↔ s.futures f = .pending)

theorem Freed.matched (hx : Sound settings records x) (hheld : SlotsHeld settings x) (hfreed : x.service.Freed t)
    (hslots : ∀ j pc, pc.slot ≠ none → (t.pc? j = some pc ↔ x.service.pc? j = some pc)) : Matched t (makers l x) := by
  obtain ⟨ls,hp⟩ := hx.bounded.probing
  refine ⟨fun r id f hmem => ?_,fun i n r f id hpc => ?_⟩
  · have hmem' := (hfreed.sublist r).subset hmem
    rw [makers_of_lt (hp.entries r (id,f) hmem') l]
    obtain ⟨n,hwait | ⟨htimed,hdone⟩⟩ := hheld.entries r id f hmem'
    · exact ⟨n,.inl ((hslots _ _ (by simp [Pc.slot])).mpr hwait)⟩
    · refine ⟨n,.inr ⟨(hslots _ _ (by simp [Pc.slot])).mpr htimed,?_⟩⟩
      obtain hsame | ⟨hsettled,-⟩ := hfreed.futures f
      · rwa [hsame]
      · exact hsettled
  · have hpc' := (hslots _ _ (by simp [Pc.slot])).mp hpc
    refine ⟨fun hmem => ?_,fun hundone => ?_⟩
    · have hmem' := (hfreed.sublist r).subset hmem
      obtain hsame | ⟨-,r',id',hentry,hgone⟩ := hfreed.futures f
      · rw [hsame]
        exact (hheld.waiting i n r f id hpc').mp hmem'
      · -- the future is entered once
        obtain ⟨rfl,rfl⟩ := hp.entry i n r f id r' id' hpc' hentry
        exact absurd hmem hgone
    · obtain hsame | ⟨hsettled,-⟩ := hfreed.futures f
      · obtain hmem | hsettled := hfreed.kept r _ ((hheld.waiting i n r f id hpc').mpr (hsame ▸ hundone))
        · exact hmem
        · exact absurd hundone hsettled
      · exact absurd hundone hsettled

/-- Task `i` moves, with its own future and its own entry only. -/
theorem goto_matched (hx : Sound settings records x) (hheld : SlotsHeld settings x) {u : NodeService} {pc p : Pc}
    (hpc : x.service.pc? i = some pc) (htasks : u.tasks = x.service.tasks)
    (hentries : ∀ r id f, (id,f) ∈ u.pendingOf r → (id,f) ∈ x.service.pendingOf r ∧ x.maker f ≠ i ∨
      makers l x f = i ∧ ∃ n, p = .wait n r f id ∨ p = .timedOut n r id ∧ u.futures f ≠ .pending)
    (hfutures : ∀ f, f < x.service.futureCount → x.maker f ≠ i → u.futures f = x.service.futures f)
    (hkept : ∀ r id f, (id,f) ∈ x.service.pendingOf r → x.maker f ≠ i → x.service.futures f = .pending →
      (id,f) ∈ u.pendingOf r)
    (hwait : ∀ n r f id, p = .wait n r f id → (id,f) ∈ u.pendingOf r ∧ u.futures f = .pending) :
    Matched (u.goto i p) (makers l x) := by
  obtain ⟨ls,hp⟩ := hx.bounded.probing
  refine ⟨fun r id f hmem => ?_,fun j n r f id hj => ?_⟩
  · obtain ⟨hold,hne⟩ | ⟨hown,n,hplace⟩ := hentries r id f hmem
    · have hlt : f < x.service.futureCount := hp.entries r (id,f) hold
      obtain ⟨n,hwait | ⟨htimed,hdone⟩⟩ := hheld.entries r id f hold
      · rw [makers_of_lt hlt,pc?_goto_other hpc htasks hne]
        exact ⟨n,.inl hwait⟩
      · rw [makers_of_lt hlt,pc?_goto_other hpc htasks hne]
        exact ⟨n,.inr ⟨htimed,fun hundone => hdone ((hfutures f hlt hne).symm.trans hundone)⟩⟩
    · rw [hown,pc?_goto_self hpc htasks]
      exact ⟨n,hplace.imp (congrArg some) (And.imp_left (congrArg some))⟩
  · by_cases hji : j = i
    · subst hji
      rw [pc?_goto_self hpc htasks] at hj
      obtain ⟨hmem,hundone⟩ := hwait n r f id (Option.some.inj hj)
      exact iff_of_true hmem hundone
    · rw [pc?_goto_other hpc htasks hji] at hj
      have hmaker := hx.maker j n r f id hj
      have hlt := (hp.futures j n r f id hj).1
      have hne : x.maker f ≠ i := hmaker ▸ hji
      have hsame := hfutures f hlt hne
      refine ⟨fun hmem => ?_,fun hundone => ?_⟩
      · obtain ⟨hold,-⟩ | ⟨hown,-⟩ := hentries r id f hmem
        · exact hsame.trans ((hheld.waiting j n r f id hj).mp hold)
        · exact absurd ((makers_of_lt hlt l).symm.trans hown) hne
      · have hundone' := hsame.symm.trans hundone
        exact hkept r id f ((hheld.waiting j n r f id hj).mpr hundone') hne hundone'

/-- A step that loses no slot keeps them matched. -/
theorem step_matched (hx : Sound settings records x) (hheld : SlotsHeld settings x) (hsafe : ¬ Loses settings l x)
    (ht : NodeService.step settings l x.service = some t) : Matched t (makers l x) := by
  obtain ⟨ls,hp⟩ := hx.bounded.probing
  -- the entries of a probe that moves are under its own task id
  have hown {i : TaskRef} {pc : Pc} {r : SessionRef} {id : TaskId} {f : FutureRef} (hpc : x.service.pc? i = some pc)
      (hmem : (id,f) ∈ x.service.pendingOf r) (hmaker : x.maker f = i) :
      ∃ n, pc = .wait n r f id ∨ pc = .timedOut n r id ∧ x.service.futures f ≠ .pending := by
    obtain ⟨n,hplace⟩ := hheld.entries r id f hmem
    rw [hmaker,hpc] at hplace
    exact ⟨n,hplace.imp Option.some.inj (And.imp_left Option.some.inj)⟩
  cases hx.bounded.slots ht with
  | freed freed slots => exact Freed.matched hx hheld freed slots
  | dispatched i n timeout id now fresh label found dispatch =>
    -- a probe that is about to be dispatched has made no future
    have hnone (f : FutureRef) (r : SessionRef) (id : TaskId) (hmem : (id,f) ∈ x.service.pendingOf r) : x.maker f ≠ i := by
      intro hmaker
      obtain ⟨m,hwait | ⟨htimed,-⟩⟩ := hown found hmem hmaker
      · cases hwait
      · cases htimed
    cases dispatch with
    | refused e guard state =>
      subst state
      exact Freed.matched hx hheld (Still.freed (.of_eq (fun _ => rfl) rfl rfl rfl rfl rfl)) (goto_slots found rfl rfl rfl)
    | invalid r new current room request =>
      exact absurd (.invalid i n r timeout id ⟨⟨now,fresh,label⟩,found,new,current,room⟩ request) hsafe
    | full r message new current room request queue state =>
      subst state
      refine goto_matched hx hheld (u := (x.service.register r id).forget r id) found rfl (fun r' id' f hmem => .inl ?_)
        (fun f hf _ => Function.update_of_ne (Nat.ne_of_lt hf) _ _) (fun r' id' f hmem _ hundone => ?_) (by simp)
      · rw [pendingOf_register_forget,mem_pendingOf_forget] at hmem
        exact ⟨hmem.1,hnone f r' id' hmem.1⟩
      · rw [pendingOf_register_forget,mem_pendingOf_forget]
        refine ⟨hmem,?_⟩
        rintro ⟨rfl,rfl⟩
        exact hsafe (.reused i n r' timeout id' f ⟨⟨now,fresh,label⟩,found,new,current,room⟩ hmem hundone)
    | enqueued r message new current room request queue state =>
      subst state
      have hpending (r' : SessionRef) := pendingOf_requested settings x.service n r r' id message
      refine goto_matched hx hheld (p := .wait n r x.service.futureCount id) found rfl (fun r' id' f hmem => ?_)
        (fun f hf _ => Function.update_of_ne (Nat.ne_of_lt hf) _ _) (fun r' id' f hmem _ hundone => ?_)
        (fun n' r' f id' hwait => ?_)
      · obtain ⟨hold,-⟩ | ⟨rfl,rfl,rfl⟩ := mem_pendingOf_register.mp (hpending r' ▸ hmem)
        · exact .inl ⟨hold,hnone f r' id' hold⟩
        · refine .inr ⟨?_,n,.inl rfl⟩
          subst label
          exact Function.update_self _ _ _
      · refine hpending r' ▸ mem_pendingOf_register.mpr (.inl ⟨hmem,?_⟩)
        rintro ⟨rfl,rfl⟩
        exact hsafe (.reused i n r' timeout id' f ⟨⟨now,fresh,label⟩,found,new,current,room⟩ hmem hundone)
      · cases hwait
        exact ⟨hpending r ▸ mem_pendingOf_register.mpr (.inr ⟨rfl,rfl,rfl⟩),Function.update_self _ _ _⟩
  | expired i n r f id label found state =>
    subst state
    have hmaker := hx.maker i n r f id found
    refine goto_matched hx hheld (u := x.service.settle f .cancelled) found rfl (fun r' id' f' hmem => ?_) (fun f' _ hne => ?_)
      (fun r' id' f' hmem _ _ => hmem) (by simp)
    · by_cases hi : x.maker f' = i
      · obtain ⟨m,hwait | ⟨htimed,-⟩⟩ := hown found hmem hi
        · cases hwait
          refine .inr ⟨?_,n,.inr ⟨rfl,settle_self x.service f (by simp)⟩⟩
          subst label
          exact hi
        · cases htimed
      · exact .inl ⟨hmem,hi⟩
    · exact settle_other x.service (fun hf => hne ((congrArg x.maker hf).trans hmaker)) _
  | returned i n r f id outcome now fresh label found settled u tasks still state =>
    subst state
    refine goto_matched hx hheld found tasks (fun r' id' f' hmem => .inl ?_) (fun f' _ _ => congrFun still.futures f')
      (fun r' id' f' hmem _ _ => by rwa [still.pending]) (by simp)
    rw [still.pending] at hmem
    refine ⟨hmem,fun hmaker => ?_⟩
    obtain ⟨m,hwait | ⟨htimed,-⟩⟩ := hown found hmem hmaker
    · cases hwait
      exact settled ((hheld.waiting i n r f id found).mp hmem)
    · cases htimed
  | withdrawn i n r id now fresh label found u tasks still state =>
    subst state
    refine goto_matched hx hheld found tasks (fun r' id' f' hmem => .inl ?_) (fun f' _ _ => congrFun still.futures f')
      (fun r' id' f' hmem _ hundone => ?_) (by simp)
    · rw [still.pending,mem_pendingOf_forget] at hmem
      obtain ⟨hold,hother⟩ := hmem
      refine ⟨hold,fun hmaker => ?_⟩
      obtain ⟨m,hwait | ⟨htimed,-⟩⟩ := hown found hold hmaker
      · cases hwait
      · cases htimed
        exact hother ⟨rfl,rfl⟩
    · rw [still.pending,mem_pendingOf_forget]
      refine ⟨hmem,?_⟩
      rintro ⟨rfl,rfl⟩
      exact hsafe (.withdrawn i n r' id' f' ⟨now,fresh,label⟩ found hmem hundone)
  | cancelled i n r f id label found u tasks still state =>
    subst state
    have hmaker := hx.maker i n r f id found
    refine goto_matched hx hheld found tasks (fun r' id' f' hmem => .inl ?_) (fun f' _ hne => ?_)
      (fun r' id' f' hmem _ _ => by rw [still.pending]; exact hmem) (by simp)
    · rw [still.pending] at hmem
      refine ⟨hmem,fun hi => ?_⟩
      obtain ⟨m,hwait | ⟨htimed,-⟩⟩ := hown found hmem hi
      · cases hwait
        exact hsafe (.cancelled i n r f id label found hmem)
      · cases htimed
    · rw [still.futures]
      exact settle_other x.service (fun hf => hne ((congrArg x.maker hf).trans hmaker)) _
  | abandoned i n r id label found u tasks still state =>
    subst state
    refine goto_matched hx hheld found tasks (fun r' id' f' hmem => .inl ?_) (fun f' _ _ => congrFun still.futures f')
      (fun r' id' f' hmem _ _ => by rwa [still.pending]) (by simp)
    rw [still.pending] at hmem
    refine ⟨hmem,fun hi => ?_⟩
    obtain ⟨m,hwait | ⟨htimed,-⟩⟩ := hown found hmem hi
    · cases hwait
    · cases htimed
      exact hsafe (.abandoned i n r f' id label found hmem hi)

theorem step_sound (hx : Sound settings records x) (ht : NodeService.step settings l x.service = some t) :
    Sound settings records ⟨t,makers l x⟩ := by
  obtain ⟨ls,hp⟩ := hx.bounded.probing
  refine ⟨step_slotsBounded hx.bounded ht,fun i n r f id hpc => ?_⟩
  obtain hold | ⟨timeout,hrequests,rfl⟩ := (hx.bounded.slots ht).waits hpc
  · exact (makers_of_lt (hp.futures i n r f id hold).1 l).trans (hx.maker i n r f id hold)
  · obtain ⟨now,fresh,rfl⟩ := hrequests.label
    exact Function.update_self _ _ _

theorem step_slotsHeld_iff (hpos : 0 < settings.maxTasks) (hx : Sound settings records x) (hheld : SlotsHeld settings x)
    (h : step settings l x = some y) : SlotsHeld settings y ↔ ¬ Loses settings l x := by
  obtain ⟨t,ht,rfl⟩ := Option.map_eq_some_iff.mp h
  refine ⟨fun hheld' hloses => hloses.not_held hx hheld ht hheld',fun hsafe => ?_⟩
  obtain ⟨hentries,hwaiting⟩ := step_matched hx hheld hsafe ht
  exact .of_entries (step_sound hx ht) hpos hentries hwaiting

theorem start_sound (settings : Settings) (records : Table) : Sound settings records (start records) :=
  ⟨slotsBounded_initial settings records,fun _ _ _ _ _ h => by cases h⟩

theorem start_slotsHeld (hpos : 0 < settings.maxTasks) (records : Table) : SlotsHeld settings (start records) :=
  .of_entries (start_sound settings records) hpos (fun _ _ _ h => by cases h) fun _ _ _ _ _ h => by cases h

end Runs

/-- Throughout a run the pending maps hold the probes that wait, no more of them and no
more sessions than the limits allow, exactly if no request fails to validate after its
future has been entered, no caller is cancelled while its entry is there, and no task id
is used under which another probe waits. -/
theorem slots_held_iff (settings : Settings) (records : Table) (hpos : 0 < settings.maxTasks) {ls : List Label}
    {x : Tracked} (h : exec (step settings) ls (start records) = some x) :
    ExecAll (step settings) (SlotsHeld settings) ls (start records) ↔
      ExecOk (step settings) (fun l x => ¬ Loses settings l x) ls (start records) := by
  refine execAll_iff_execOk (I := Sound settings records) (fun l x y hx hstep => ?_)
    (fun _ _ _ hx hheld hstep => step_slotsHeld_iff hpos hx hheld hstep) (start_sound settings records)
    (start_slotsHeld hpos records) h
  obtain ⟨t,ht,rfl⟩ := Option.map_eq_some_iff.mp hstep
  exact step_sound hx ht

/-- Nobody is cancelled and no timer fires, and a request that is built validates on a session
without entries. -/
def undisturbed (l : Label) (x : Tracked) : Bool :=
  match l with
  | .run i _ _ =>
    match x.service.pc? i with
    | some (.dispatch _ timeout id) => (taskRequest id (orDefault timeout sampleSettings.taskTimeout)).isSome &&
        x.service.connections.all fun entry => (x.service.pendingOf entry.2).isEmpty
    | some (.timedOut _ _ _) => false
    | _ => true
  | .fail _ => false
  | _ => true

/-- A probe that is answered gives its slot back. -/
theorem slots_held_iff_probed : ExecAll (step sampleSettings) (SlotsHeld sampleSettings) probeLabels (start []) := by
  refine (slots_held_iff sampleSettings [] (by decide)
    (x := after (step sampleSettings) probeLabels (start []) (by decide +kernel)) (exec_after _)).mpr ?_
  have hundisturbed : ExecOk (step sampleSettings) (fun l x => undisturbed l x = true) probeLabels (start []) := by decide +kernel
  refine hundisturbed.imp (I := fun _ => True) (fun _ _ _ _ _ => trivial) (fun l x _ hl hloses => ?_) trivial
  cases hloses with
  | invalid i n r timeout id enters request =>
    obtain ⟨⟨now,fresh,rfl⟩,found,-⟩ := enters
    simp [undisturbed,found,request] at hl
  | reused i n r timeout id f enters entry undone =>
    obtain ⟨⟨now,fresh,rfl⟩,found,new,current,room⟩ := enters
    simp only [undisturbed, found, Bool.and_eq_true, List.all_eq_true] at hl
    have hempty := hl.2 (n,r) (mem_of_lookup current)
    rw [List.isEmpty_iff.mp hempty] at entry
    cases entry
  | withdrawn i n r id f label found entry undone =>
    obtain ⟨now,fresh,rfl⟩ := label
    simp [undisturbed,found] at hl
  | cancelled i n r f id label | abandoned i n r f id label =>
    subst label
    cases hl

/-- Two probes under task ids that are too short. -/
def shortLabels : List Label :=
  socketLabels 0 ++ [.run 0 0 "",.sweep (.probe "node_0001" none (some "a")) 0,.run 1 0 "",.run 1 0 "",.run 1 0 "",
    .run 1 0 "",.sweep (.probe "node_0001" none (some "b")) 0,.run 2 0 "",.run 2 0 "",.run 2 0 "",.run 2 0 ""]

/-- The exception that the task has ended with. -/
def raised (x : Tracked) (i : TaskRef) : Option NodeError :=
  match x.service.pc? i with
  | some (.done (.raised e)) => some e
  | _ => none

/-- Both have returned, both slots are taken for good, and a third probe finds no room. -/
theorem short_task_ids_take_slots : ¬ ExecAll (step sampleSettings) (SlotsHeld sampleSettings) shortLabels (start []) ∧
    (exec (step sampleSettings) shortLabels (start [])).map (fun x => (x.raised 1,x.raised 2,x.service.pendingOf 0)) =
      some (some .validation,some .validation,[("a",0),("b",1)]) ∧
    (exec (step sampleSettings) (shortLabels ++ [.sweep (.probe "node_0001" none (some "tsk_00001")) 0,.run 3 0 "",
      .run 3 0 "",.run 3 0 "",.run 3 0 ""]) (start [])).map (fun x => x.raised 3) =
      some (some (.unavailable "Worker task limit reached")) := by
  refine ⟨fun hall => ?_,by decide +kernel,by decide +kernel⟩
  have hend : (exec (step sampleSettings) shortLabels (start [])).map
      (fun x => (x.raised 1,x.maker 0,x.service.pendingOf 0)) = some (some .validation,1,[("a",0),("b",1)]) := by decide +kernel
  obtain ⟨x,hexec,hx⟩ := Option.map_eq_some_iff.mp hend
  simp only [Prod.mk.injEq] at hx
  obtain ⟨hraised,hmaker,hpending⟩ := hx
  obtain ⟨n,hwait | ⟨htimed,-⟩⟩ := (hall.last hexec).entries 0 "a" 0 (by simp [hpending])
  · rw [hmaker] at hwait
    simp [raised,hwait] at hraised
  · rw [hmaker] at htimed
    simp [raised,htimed] at hraised

end Tracked

end AgentGraph.Nodes
