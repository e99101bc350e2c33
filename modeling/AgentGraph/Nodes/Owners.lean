import AgentGraph.Nodes.Commands
import AgentGraph.Nodes.Probes

/-! # Sockets whose other end is known

Some sockets have an owner, a node that speaks over them; the proofs of all others verify
for no node. A socket that has enrolled is then one of its owner, and a probe succeeds with
a report that the owner of its node has handed over.
-/
set_option autoImplicit false
namespace AgentGraph.Nodes
open Transition

namespace NodeService
variable {settings : Settings} {l : Label} {s t : NodeService} {i j : TaskRef} {pc pc' : Pc}

/-- How a task comes to prove its node: as a new socket, or with a hello. -/
theorem step_unproved (h : step settings l s = some t) (hj : t.pc? j = some pc') (hu : pc'.unproved = true) :
    s.pc? j = some pc' ∨ (∃ proof, l = .openSocket proof ∧ pc' = .hello proof ∧ j = s.taskCount) ∨
      ∃ hello proof now, l = .receive j (some (.hello hello)) now ∧ pc' = .enrollLock hello proof ∧
        s.pc? j = some (.hello proof) := by
  cases step_came h hj with
  | stayed same => exact .inl same
  | opened proof new label => exact .inr (.inl ⟨proof,label,rfl,new⟩)
  | greeted hello proof now label found => exact .inr (.inr ⟨hello,proof,now,label,rfl,found⟩)
  | resumed now fresh pc label found resumed =>
    rw [resumed.unproved hj] at hu
    cases hu
  | swept | enabling | beat | dropped | ended | timedOut => cases hu

/-! ## Owners -/

/-- What a message over a socket of node `n` may say: that it is `n`, or what `n` has reported. -/
def HandedOver (reports : NodeId → TaskId → JsonObject → Prop) (n : NodeId) : ClientMessage → Prop
  | .hello hello => hello.nodeId = n
  | .result id p => reports n id p
  | .error _ _ _ => False
  | .heartbeat | .capabilities _ | .cancel _ => True

section Owned
variable (settings : Settings) (records : Table)

/-- No proof of a socket without an owner verifies. -/
def Unproven (proof : Option String) : Prop := ∀ n, settings.verifyEnrollment n proof = false

/-- After these labels: who has enrolled over which socket, and where results come from. -/
structure Owned (history : List Label) (owner : TaskRef → Option NodeId) (reports : NodeId → TaskId → JsonObject → Prop)
    (s : NodeService) : Prop where
  run : exec (step settings) history (initial records) = some s
  commands : s.CommandsValid
  unborn : ∀ j, s.taskCount ≤ j → owner j = none
  hello : ∀ j proof, owner j = none → s.pc? j = some (.hello proof) → Unproven settings proof
  enrolling : ∀ j hello proof, s.pc? j = some (.enrollLock hello proof) →
    (owner j = none → Unproven settings proof) ∧ ∀ n, owner j = some n → hello.nodeId = n
  enrolled : ∀ j pc n, s.pc? j = some pc → pc.enrolledAs = some n → owner j = some n
  waiting : ∀ i n r f id p, s.pc? i = some (.wait n r f id) → s.futures f = .result p → reports n id p
  probed : ∀ i id p, s.pc? i = some (.done (.probed id p)) →
    ∃ n, Answered settings records history i n id p ∧ reports n id p

end Owned

section OwnedSteps
variable {records : Table} {history : List Label} {owner owner' : TaskRef → Option NodeId}
  {reports reports' : NodeId → TaskId → JsonObject → Prop}

theorem Owned.mono (hs : Owned settings records history owner reports s) (h : ∀ n id p, reports n id p → reports' n id p) :
    Owned settings records history owner reports' s := by
  refine { hs with waiting := fun i n r f id p hpc hr => ?_, probed := fun i id p hpc => ?_ }
  · exact h n id p (hs.waiting i n r f id p hpc hr)
  · obtain ⟨n,hanswered,hreports⟩ := hs.probed i id p hpc
    exact ⟨n,hanswered,h n id p hreports⟩

theorem Owned.sound (hs : Owned settings records history owner reports s) : s.Sound :=
  exec_induction (P := fun _ s => s.Sound) (sound_initial records) (fun _ _ _ _ _ hs ht => step_sound hs ht) hs.run

theorem Owned.lt_taskCount (hs : Owned settings records history owner reports s) (h : s.pc? j = some pc) :
    j < s.taskCount := by
  rw [← Nat.not_le]
  intro hle
  rw [pc?, hs.sound.fresh j hle] at h
  cases h

/-- A step keeps the account: what a socket of an owner is handed comes from the owner, and a
new socket without an owner has no proof. -/
theorem Owned.step (hs : Owned settings records history owner reports s) (h : NodeService.step settings l s = some t)
    (howner : ∀ j, j ≠ s.taskCount → owner' j = owner j) (hnew : t.taskCount = s.taskCount → owner' = owner)
    (hopen : ∀ proof, l = .openSocket proof → owner' s.taskCount = none → Unproven settings proof)
    (hreceive : ∀ j message now n, l = .receive j (some message) now → owner j = some n → HandedOver reports n message) :
    Owned settings records (history ++ [l]) owner' reports t := by
  have hprobing := probing_exec hs.run
  have hrun : exec (NodeService.step settings) (history ++ [l]) (initial records) = some t := by
    rw [exec_append, hs.run]
    simp [exec, h]
  have hkept : ∀ {j pc}, s.pc? j = some pc → owner' j = owner j := by
    intro j pc hj
    exact howner j (Nat.ne_of_lt (hs.lt_taskCount hj))
  have hreports : ¬ ReportsError l s := by
    rintro ⟨j,n,id,code,message,now,hl,hpc⟩
    exact hreceive j _ now n hl (hs.enrolled j _ n hpc rfl)
  refine ⟨hrun,hs.commands.step hreports h,fun j hj => ?_,fun j proof hnone hj => ?_,fun j hello proof hj => ?_,
    fun j pc n hj hn => ?_,fun i n r f id p hi hr => ?_,fun i id p hi => ?_⟩
  · have hle := step_taskCount h
    by_cases hcount : t.taskCount = s.taskCount
    · rw [hnew hcount]
      exact hs.unborn j (hcount ▸ hj)
    · rw [howner j (by omega)]
      exact hs.unborn j (Nat.le_trans hle hj)
  · obtain hsame | ⟨proof',hl,hpc,rfl⟩ | ⟨_,_,_,-,hpc,-⟩ := step_unproved h hj rfl
    · exact hs.hello j proof (hkept hsame ▸ hnone) hsame
    · cases hpc
      exact hopen proof hl hnone
    · cases hpc
  · obtain hsame | ⟨_,-,hpc,-⟩ | ⟨hello',proof',now,hl,hpc,hbefore⟩ := step_unproved h hj rfl
    · rw [hkept hsame]
      exact hs.enrolling j hello proof hsame
    · cases hpc
    · cases hpc
      rw [hkept hbefore]
      exact ⟨fun hnone => hs.hello j proof hnone hbefore,fun n hn => hreceive j _ now n hl hn⟩
  · obtain hsame | hturned := (step_turn h).place hj
    · rw [hkept hsame]
      exact hs.enrolled j pc n hsame hn
    · obtain ⟨pc₁,hpc,hn⟩ | ⟨now,fresh,hello,proof,-,hlock,hname,hverify⟩ := hturned.enrolled n hn
      · rw [hkept hpc]
        exact hs.enrolled j pc₁ n hpc hn
      · -- the proof verifies, so the socket has an owner
        rw [hkept hlock]
        obtain ⟨hnone,hsome⟩ := hs.enrolling j hello proof hlock
        cases howned : owner j with
        | none =>
          rw [hnone howned n] at hverify
          cases hverify
        | some m => rw [← hname, hsome m howned]
  · obtain hsame | hturned := (step_turn h).place hi
    · obtain hold | ⟨j,m,id',now,r',label,found,current,entry⟩ := (step_turn h).result hr
      · exact hs.waiting i n r f id p hsame hold
      · -- the future of the probe is entered in its own session, under its own task id
        obtain ⟨rfl,rfl⟩ := hprobing.entry i n r f id r' id' hsame (mem_of_lookup entry)
        obtain rfl := hprobing.session i n r' f id' m hsame (mem_of_lookup current)
        exact hreceive j _ now m label (hs.enrolled j _ m found rfl)
    · obtain hidle | ⟨m,r',id',hpc,hpending⟩ := hturned.waits
      · cases hidle
      · -- the new future has no result
        cases hpc
        rw [hpending] at hr
        cases hr
  · obtain hsame | hturned := (step_turn h).place hi
    · obtain ⟨n,hanswered,hreported⟩ := hs.probed i id p hsame
      exact ⟨n,hanswered.snoc,hreported⟩
    · obtain ⟨n,r,f,found,hr⟩ := hturned.answers id p rfl
      exact ⟨n,(hprobing.answered i n r f id p found hr).snoc,hs.waiting i n r f id p found hr⟩

theorem owned_initial (settings : Settings) (records : Table) (reports : NodeId → TaskId → JsonObject → Prop) :
    Owned settings records [] (fun _ => none) reports (initial records) where
  run := rfl
  commands := commandsValid_initial records
  unborn := fun _ _ => rfl
  hello := fun _ _ _ h => nomatch h
  enrolling := fun _ _ _ h => nomatch h
  enrolled := fun _ _ _ h => nomatch h
  waiting := fun _ _ _ _ _ _ h => nomatch h
  probed := fun _ _ _ h => nomatch h

end OwnedSteps

end NodeService

end AgentGraph.Nodes
