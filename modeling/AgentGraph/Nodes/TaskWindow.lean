import AgentGraph.Foundation.Window
import AgentGraph.Nodes.Slots

/-! # Task ids that have been dispatched

The service remembers the task ids of its last dispatches and refuses those. A probe may
still wait when its id is forgotten, and the next probe of its session under that id then
takes its place in the map.
-/
set_option autoImplicit false
namespace AgentGraph.Nodes
open Transition

namespace NodeService

/-- An entry whose future is pending has given way to another under the same task id. -/
def Replaces (s t : NodeService) : Prop :=
  ∃ r id f f', (id,f) ∈ s.pendingOf r ∧ (id,f') ∈ t.pendingOf r ∧ f ≠ f' ∧ t.futures f = .pending

/-- No two probes wait on one session under the same task id. -/
def PendingOnce (s : NodeService) : Prop :=
  ∀ i j n m r f g id, s.pc? i = some (.wait n r f id) → s.pc? j = some (.wait m r g id) → s.futures f = .pending →
    s.futures g = .pending → i = j

/-- A task id that has been forgotten is used while a probe of the session waits under it. -/
inductive Reuses (settings : Settings) (l : Label) (s : NodeService) : Prop
  -- its entry is there
  | entered (i : TaskRef) (n : NodeId) (r : SessionRef) (timeout : Option ℤ) (id : TaskId) (f : FutureRef)
      (enters : Enters settings l s i n r timeout id)
      (stays : taskRequest id (orDefault timeout settings.taskTimeout) = none ∨
        (s.sessions r).queue.length < settings.maxMessages)
      (entry : (id,f) ∈ s.pendingOf r) (undone : s.futures f = .pending)
  -- its entry has been taken out by another probe
  | waiting (i : TaskRef) (n : NodeId) (r : SessionRef) (timeout : Option ℤ) (id : TaskId) (j : TaskRef) (m : NodeId)
      (f : FutureRef) (requests : Requests settings l s i n r timeout id) (waits : s.pc? j = some (.wait m r f id))
      (undone : s.futures f = .pending)

section Steps
variable {settings : Settings} {records : Table} {l : Label} {s t : NodeService} {i : TaskRef} {n : NodeId} {r : SessionRef}
  {timeout : Option ℤ} {id : TaskId} {f : FutureRef}

/-- What is requested, and what is remembered of it. -/
theorem SlotStep.requests (h : SlotStep settings l s t) : t.requests = s.requests ∧ t.recentTasks = s.recentTasks ∨
    ∃ id, id ∉ s.recentTasks ∧ t.requests = s.requests ++ [id] ∧
      t.recentTasks = (s.recentTasks ++ [id]).rtake (settings.maxTasks * settings.maxConnections) := by
  cases h with
  | freed freed => exact .inl ⟨freed.requests,freed.recentTasks⟩
  | dispatched i n timeout id now fresh label found dispatch =>
    cases dispatch with
    | refused e guard state =>
      subst state
      exact .inl ⟨rfl,rfl⟩
    | invalid r new current room request state =>
      subst state
      exact .inl ⟨rfl,rfl⟩
    | full r message new current room request queue state =>
      subst state
      exact .inl ⟨rfl,rfl⟩
    | enqueued r message new current room request queue state =>
      subst state
      have hnote : (s.events ++ [NodeEvent.taskRequested n id]).filterMap NodeEvent.request = s.requests ++ [id] := by
        simp [NodeService.requests,NodeEvent.request]
      exact .inr ⟨id,new,hnote,rfl⟩
  | expired i n r f id label found state =>
    subst state
    exact .inl ⟨rfl,rfl⟩
  | returned i n r f id outcome now fresh label found settled u tasks still state =>
    subst state
    exact .inl ⟨still.requests,still.recentTasks⟩
  | withdrawn i n r id now fresh label found u tasks still state =>
    subst state
    exact .inl ⟨still.requests,still.recentTasks⟩
  | cancelled i n r f id label found u tasks still state =>
    subst state
    exact .inl ⟨still.requests,still.recentTasks⟩
  | abandoned i n r id label found u tasks still state =>
    subst state
    exact .inl ⟨still.requests,still.recentTasks⟩

/-- A future that is pending after the step has been pending before, if there was one. -/
theorem SlotStep.undone (h : SlotStep settings l s t) (hlt : f < s.futureCount) (hundone : t.futures f = .pending) :
    s.futures f = .pending := by
  have hsettle {f' : FutureRef} (hundone : (s.settle f' .cancelled).futures f = .pending) : s.futures f = .pending := by
    by_cases hf : f = f'
    · exact absurd hundone (hf ▸ settle_self s f' (by simp))
    · exact (settle_other s hf .cancelled).symm.trans hundone
  have hnew : Function.update s.futures s.futureCount .pending f = s.futures f :=
    Function.update_of_ne (Nat.ne_of_lt hlt) _ _
  cases h with
  | freed freed =>
    obtain hsame | ⟨hsettled,-⟩ := freed.futures f
    · exact hsame.symm.trans hundone
    · exact absurd hundone hsettled
  | dispatched i n timeout id now fresh label found dispatch =>
    cases dispatch with
    | refused e guard state =>
      subst state
      exact hundone
    | invalid r new current room request state =>
      subst state
      exact hnew.symm.trans hundone
    | full r message new current room request queue state =>
      subst state
      exact hnew.symm.trans hundone
    | enqueued r message new current room request queue state =>
      subst state
      exact hnew.symm.trans hundone
  | expired i n r f' id label found state =>
    subst state
    exact hsettle hundone
  | returned i n r f' id outcome now fresh label found settled u tasks still state =>
    subst state
    exact (congrFun still.futures f).symm.trans hundone
  | withdrawn i n r id now fresh label found u tasks still state =>
    subst state
    exact (congrFun still.futures f).symm.trans hundone
  | cancelled i n r f' id label found u tasks still state =>
    subst state
    exact hsettle ((congrFun still.futures f).symm.trans hundone)
  | abandoned i n r id label found u tasks still state =>
    subst state
    exact (congrFun still.futures f).symm.trans hundone

/-- A step that reuses no task id replaces no entry. -/
theorem not_replaces (hs : SlotsBounded settings records s) (hsafe : ¬ Reuses settings l s) (ht : step settings l s = some t) :
    ¬ s.Replaces t := by
  rintro ⟨r,id,f,f',hold,hnew,hne,hundone⟩
  obtain ⟨ls,hp⟩ := hs.probing
  have hundone' := (hs.slots ht).undone (hp.entries r (id,f) hold) hundone
  have hkey (hmem : (id,f') ∈ s.pendingOf r) : False :=
    hne (Prod.mk.inj (List.inj_on_of_nodup_map (hs.keys r) hold hmem rfl)).2
  obtain ⟨-,hsub | ⟨i,n,r',timeout,id',henters,hstays,hpending⟩⟩ := (hs.slots ht).entries
  · exact hkey ((hsub r).subset hnew)
  · rw [hpending,mem_pendingOf_register] at hnew
    obtain ⟨hmem,-⟩ | ⟨rfl,rfl,-⟩ := hnew
    · exact hkey hmem
    · exact hsafe (.entered i n r timeout id f henters hstays hold hundone')

/-- Nor does it let two probes wait under one. -/
theorem step_pendingOnce (hs : SlotsBounded settings records s) (honce : s.PendingOnce) (hsafe : ¬ Reuses settings l s)
    (ht : step settings l s = some t) : t.PendingOnce := by
  intro i j n m r f g id hi hj hf hg
  obtain ⟨ls,hp⟩ := hs.probing
  have hslots := hs.slots ht
  obtain hi | ⟨timeout,hrequests,rfl⟩ := hslots.waits hi
  · have hf := hslots.undone (hp.futures i n r f id hi).1 hf
    obtain hj | ⟨timeout,hrequests,rfl⟩ := hslots.waits hj
    · exact honce i j n m r f g id hi hj hf (hslots.undone (hp.futures j m r g id hj).1 hg)
    · exact absurd (.waiting j m r timeout id i n f hrequests hi hf) hsafe
  · obtain hj | ⟨timeout',hrequests',rfl⟩ := hslots.waits hj
    · have hg := hslots.undone (hp.futures j m r g id hj).1 hg
      exact absurd (.waiting i n r timeout id j m g hrequests hj hg) hsafe
    · obtain ⟨now,fresh,rfl⟩ := hrequests.label
      obtain ⟨now',fresh',heq⟩ := hrequests'.label
      cases heq
      rfl

/-- A step that reuses a task id does one or the other. -/
theorem Reuses.not_once (h : Reuses settings l s) (hs : SlotsBounded settings records s) (ht : step settings l s = some t)
    (hreplaces : ¬ s.Replaces t) : ¬ t.PendingOnce := by
  obtain ⟨ls,hp⟩ := hs.probing
  cases h with
  | entered i n r timeout id f enters stays entry undone =>
    have hlt : f < s.futureCount := hp.entries r (id,f) entry
    have hnew : (id,s.futureCount) ∈ (s.register r id).pendingOf r := mem_pendingOf_register.mpr (.inr ⟨rfl,rfl,rfl⟩)
    have hundone : (s.register r id).futures f = .pending :=
      (Function.update_of_ne (Nat.ne_of_lt hlt) _ _).trans undone
    obtain ⟨-,hstate⟩ | ⟨hrequest,hfull,-⟩ | ⟨message,-,hstate⟩ := enters.dispatch ht
    · subst hstate
      exact absurd ⟨r,id,f,s.futureCount,entry,hnew,Nat.ne_of_lt hlt,hundone⟩ hreplaces
    · obtain hnone | hqueue := stays
      · simp [hnone] at hrequest
      · exact absurd hqueue (Nat.not_lt.mpr hfull)
    · subst hstate
      have hnew' : (id,s.futureCount) ∈ (s.requested settings n r id message).pendingOf r := by
        rwa [pendingOf_requested settings]
      exact absurd ⟨r,id,f,s.futureCount,entry,hnew',Nat.ne_of_lt hlt,hundone⟩ hreplaces
  | waiting i n r timeout id j m f requests waits undone =>
    intro honce
    have hlt := (hp.futures j m r f id waits).1
    have hji : j ≠ i := by
      rintro rfl
      rw [requests.found] at waits
      cases waits
    obtain ⟨hnone,-⟩ | ⟨-,hfull,-⟩ | ⟨message,-,hstate⟩ := requests.toEnters.dispatch ht
    · have hrequest := requests.request
      simp [hnone] at hrequest
    · exact absurd requests.queue (Nat.not_lt.mpr hfull)
    · subst hstate
      -- both wait now
      refine hji (honce j i m n r f s.futureCount id ?_ (pc?_goto_self requests.found rfl) ?_ (Function.update_self _ _ _))
      · exact (pc?_goto_other requests.found rfl hji).trans waits
      · exact (Function.update_of_ne (Nat.ne_of_lt hlt) _ _).trans undone

theorem step_once_iff (hs : SlotsBounded settings records s) (honce : s.PendingOnce) (ht : step settings l s = some t) :
    ¬ s.Replaces t ∧ t.PendingOnce ↔ ¬ Reuses settings l s :=
  ⟨fun ⟨hreplaces,honce'⟩ hreuses => hreuses.not_once hs ht hreplaces honce',
    fun hsafe => ⟨not_replaces hs hsafe ht,step_pendingOnce hs honce hsafe ht⟩⟩

/-- The ids that are remembered are the last that were requested, so requests of one id
are as far apart as the window is long. -/
structure Windowed (settings : Settings) (s : NodeService) : Prop where
  recent : s.recentTasks = s.requests.rtake (settings.maxTasks * settings.maxConnections)
  spaced : Window.Spaced (settings.maxTasks * settings.maxConnections) s.requests

theorem step_windowed (hs : SlotsBounded settings records s) (hwindowed : Windowed settings s) (ht : step settings l s = some t) :
    Windowed settings t := by
  obtain ⟨hrequests,hrecent⟩ | ⟨id,hnew,hrequests,hrecent⟩ := (hs.slots ht).requests
  · exact ⟨by rw [hrequests,hrecent,hwindowed.recent],by rw [hrequests]; exact hwindowed.spaced⟩
  · rw [hwindowed.recent] at hnew hrecent
    exact ⟨by rw [hrequests,hrecent,Window.rtake_push],by rw [hrequests]; exact hwindowed.spaced.push hnew⟩

end Steps

/-- Between two requests of one task id there are as many of others as the window is long.
No probe takes the place of one that is pending, and no two wait under one id on one
session, exactly if no probe uses an id that has been forgotten while another still waits
under it on the session. -/
theorem task_ids_once_iff (settings : Settings) (records : Table) {ls : List Label} {s : NodeService}
    (h : exec (step settings) ls (initial records) = some s) :
    Window.Spaced (settings.maxTasks * settings.maxConnections) s.requests ∧
    (ExecOk (step settings) (fun l s => ∀ t ∈ step settings l s, ¬ s.Replaces t ∧ t.PendingOnce) ls (initial records) ↔
      ExecOk (step settings) (fun l s => ¬ Reuses settings l s) ls (initial records)) := by
  refine ⟨?_,execOk_iff_execOk (I := fun s => SlotsBounded settings records s ∧ s.PendingOnce) (fun l s t hs ht => ⟨?_,fun hok => ?_⟩)
    ⟨slotsBounded_initial settings records,fun _ _ _ _ _ _ _ _ h => by cases h⟩ h⟩
  · have hwindowed : SlotsBounded settings records s ∧ Windowed settings s :=
      exec_induction (P := fun _ s => SlotsBounded settings records s ∧ Windowed settings s)
        ⟨slotsBounded_initial settings records,⟨by simp [initial,requests],Window.spaced_nil _⟩⟩
        (fun _ _ _ _ _ hs ht => ⟨step_slotsBounded hs.1 ht,step_windowed hs.1 hs.2 ht⟩) h
    exact hwindowed.2.spaced
  · simp only [ht, Option.mem_some_iff, forall_eq']
    exact step_once_iff hs.1 hs.2 ht
  · exact ⟨step_slotsBounded hs.1 ht,(hok t ht).2⟩

/-- A dispatch finds sessions without entries and nobody waiting. -/
def idle (l : Label) (s : NodeService) : Bool :=
  match l with
  | .run i _ _ =>
    match s.pc? i with
    | some (.dispatch _ _ _) => (s.connections.all fun entry => (s.pendingOf entry.2).isEmpty) &&
        (List.range s.taskCount).all fun j => ((s.pc? j).bind Pc.slot).isNone
    | _ => true
  | _ => true

/-- One probe that is answered. -/
theorem task_ids_once_iff_probed :
    ExecOk (step sampleSettings) (fun l s => ∀ t ∈ step sampleSettings l s, ¬ s.Replaces t ∧ t.PendingOnce) probeLabels
      (initial []) := by
  refine (task_ids_once_iff sampleSettings []
    (s := after (step sampleSettings) probeLabels (initial []) (by decide +kernel)) (exec_after _)).2.mpr ?_
  have hidle : ExecOk (step sampleSettings) (fun l s => idle l s = true) probeLabels (initial []) := by decide +kernel
  refine hidle.imp (I := Sound) (fun _ _ _ hs ht => step_sound hs ht) (fun l s hs hl hreuses => ?_) (sound_initial [])
  cases hreuses with
  | entered i n r timeout id f enters stays entry undone =>
    obtain ⟨⟨now,fresh,rfl⟩,found,new,current,room⟩ := enters
    simp only [idle, found, Bool.and_eq_true, List.all_eq_true] at hl
    have hempty := hl.1 (n,r) (mem_of_lookup current)
    rw [List.isEmpty_iff.mp hempty] at entry
    cases entry
  | waiting i n r timeout id j m f requests waits undone =>
    obtain ⟨⟨⟨now,fresh,rfl⟩,found,-⟩,-⟩ := requests
    simp only [idle, found, Bool.and_eq_true, List.all_eq_true] at hl
    have hj : j < s.taskCount := by
      refine Nat.lt_of_not_le fun hle => ?_
      simp [pc?,hs.fresh j hle] at waits
    have hnone := hl.2 j (List.mem_range.mpr hj)
    simp [waits,Pc.slot] at hnone

/-- Task `i` probes under the task id, up to its dispatch. -/
def dispatchLabels (i : TaskRef) (id : TaskId) : List Label :=
  [.sweep (.probe "node_0001" none (some id)) 0,.run i 0 "",.run i 0 "",.run i 0 "",.run i 0 ""]

/-- Task `i` probes and the worker answers. -/
def answeredLabels (i : TaskRef) (id : TaskId) : List Label :=
  dispatchLabels i id ++ [.deliver 0,.receive 0 (some (.result id [])) 0]

/-- The first probe waits while four others are answered, and another one takes its id. -/
def forgottenLabels : List Label :=
  socketLabels 0 ++ [.run 0 0 ""] ++ dispatchLabels 1 "tsk_00001" ++ [.deliver 0] ++ answeredLabels 2 "tsk_00002" ++
    answeredLabels 3 "tsk_00003" ++ answeredLabels 4 "tsk_00004" ++ answeredLabels 5 "tsk_00005" ++
    [.sweep (.probe "node_0001" none (some "tsk_00001")) 0,.run 6 0 "",.run 6 0 "",.run 6 0 ""]

theorem forgotten_task_id_replaces :
    ¬ ExecOk (step sampleSettings) (fun l s => ∀ t ∈ step sampleSettings l s, ¬ s.Replaces t ∧ t.PendingOnce)
      (forgottenLabels ++ [.run 6 0 ""]) (initial []) ∧
    (exec (step sampleSettings) (forgottenLabels ++ [.run 6 0 ""]) (initial [])).map (fun t =>
      ((t.pc? 1).bind Pc.slot,(t.pc? 6).bind Pc.slot,t.pendingOf 0)) =
        some (some (0,"tsk_00001"),some (0,"tsk_00001"),[("tsk_00001",5)]) := by
  refine ⟨fun hok => ?_,by decide +kernel⟩
  have hlast : (exec (step sampleSettings) forgottenLabels (initial [])).bind (fun s =>
      (step sampleSettings (.run 6 0 "") s).map fun t => (s.pendingOf 0,t.pendingOf 0,(t.futures 0).done)) =
        some ([("tsk_00001",0)],[("tsk_00001",5)],false) := by decide +kernel
  obtain ⟨s,hs,hstep⟩ := Option.bind_eq_some_iff.mp hlast
  obtain ⟨t,ht,hpending⟩ := Option.map_eq_some_iff.mp hstep
  simp only [Prod.mk.injEq] at hpending
  obtain ⟨hbefore,hafter,hundone⟩ := hpending
  refine (((execOk_snoc hs).mp hok).2 t ht).1 ⟨0,"tsk_00001",0,5,by simp [hbefore],by simp [hafter],by decide,?_⟩
  by_contra hsettled
  rw [done_iff.mpr hsettled] at hundone
  cases hundone

end NodeService

end AgentGraph.Nodes
