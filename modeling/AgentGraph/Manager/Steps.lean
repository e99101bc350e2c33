import AgentGraph.Manager.Control

/-! # What one step of the manager does

The step function is opened once here: the control flow of resumed and cancelled
tasks, the effects that only particular awaits have, and what a step does to the
tasks it does not run.
-/
set_option autoImplicit false
namespace AgentGraph.Manager
open Sys

variable {cfg : Config} {s t : Sys} {i j : TaskId} {p q : Point} {ch : Choice} {now : Instant} {eff : Effect}

/-! ## Control flow -/

theorem resumeStart_next (h : s.resumeStart cfg i p ch = some eff) :
    Next cfg s p eff.next (eff.commit.getD s.store) := by
  unfold resumeStart at h
  split at h
  next a =>
    split at h
    next hl => cases h; exact .startLock a (by simpa using hl)
    next => cases h
  next a =>
    split at h
    next e he =>
      cases h
      simpa [(s.failStart_regular a e).commit] using Next.startRefused a e he
    next store r hs => cases h; exact .startCommit a store r hs
  next a r cp => cases h; exact .startRefresh a r cp
  next a r cp => cases h; exact .startClose a r cp
  next a r cp =>
    cases h
    cases hc : a.child with
    | none => exact .startReturned a r cp hc
    | some n =>
      by_cases hr : r ∈ s.registry
      · simpa [startReturn,hr,Effect.goto] using Next.childStarted a r cp n hc hr
      · simpa [startReturn,hr,endNode] using Next.childLost a r cp n hc hr
  next a e =>
    cases h
    simpa [(s.failStart_regular a e).commit] using Next.startRaised (.startWrite a) a e rfl
  next a r cp e =>
    cases h
    simpa [(s.failStart_regular a e).commit] using Next.startRaised (.startRefresh a r cp) a e rfl
  next a r cp e =>
    cases h
    simpa [(s.failStart_regular a e).commit] using Next.startRaised (.startClose a r cp) a e rfl
  next a r cp e =>
    cases h
    simpa [(s.failStart_regular a e).commit] using Next.startRaised (.startPublish a r cp) a e rfl
  next => cases h

theorem resumeNode_next (h : s.resumeNode cfg p ch = some eff) :
    Next cfg s p eff.next (eff.commit.getD s.store) := by
  unfold resumeNode at h
  split at h
  next T node =>
    split at h
    next ht => cases h; exact .nodeKeyError T node ht
    next text ht => cases h; exact .nodeBegin T node text ht
  next n =>
    split at h
    · cases h
    split at h
    · cases h; exact .nodeRefused n _ (by simp)
    split at h
    · cases h; exact .nodeRefused n _ (by simp)
    next hp hd ha => cases h; exact .nodeAcquire n hp (by omega) (by simpa using ha)
  next n c =>
    split at h
    · cases h
    next hr => cases h; exact .childCancelled n c hr
    next e hne hr => cases h; exact .childRaised n c e hr (fun he => hne (by rw [he]))
    next result _ hne hr => cases h; exact .childDone n c result hr (fun e he => hne e he)
  next n c =>
    split at h
    · cases h
    next hd => cases h; exact .childTimeout n c (by simpa using hd)
  next n c =>
    split at h
    next hc => cases h; exact .childMissing n c hc
    next run hc =>
      split at h
      next text hs ht => cases h; exact .childSucceeded n c run text hc hs ht
      next hne =>
        cases h
        refine .childUnsuccessful n c run hc ?_
        rintro ⟨hs,ht⟩
        obtain ⟨text,ht⟩ := Option.isSome_iff_exists.mp ht
        exact hne text hs ht
  next => cases h

theorem resumeRun_next (h : s.resumeRun cfg p ch now = some eff) :
    Next cfg s p eff.next (eff.commit.getD s.store) := by
  unfold resumeRun at h
  split at h
  next r => cases h; exact .runBegin r
  next r =>
    split at h
    next hr => cases h; exact .markMissing r hr
    next run hr =>
      split at h
      next hs => cases h; exact .markRead r run hr hs
      next hs => cases h; exact .markRefused r run hr (by simpa using hs)
  next r run => cases h; exact .markWrite r run now
  next r run cp =>
    cases h
    cases hd : cfg.runtimeDelay with
    | true => exact .markDelay r run cp
    | false => exact .markPublish r run cp
  next r run => cases h; exact .delay r run
  next r run =>
    split at h
    next ha => cases h; exact .agentMissing r run ha
    next agent ha => cases h; exact .readAgent r run agent ha
  next r run agent =>
    split at h
    next e he =>
      cases h
      obtain ⟨code,message,rfl⟩ := validateTeamGraph_error he
      exact .invalid r run agent _ (by simp) he
    next he =>
      cases h
      obtain ⟨q,hq,hn⟩ := s.invokeRuntime_next cfg r (s.executionRequest r run agent)
      rw [hq, (s.invokeRuntime_regular cfg r _).commit]
      exact .invoked r run agent q he hn
  next r request response => cases h; exact .responded r request response
  next r request e =>
    split at h
    · cases h
    next he =>
      cases h
      rw [execRaise_next r he, (s.execRaise_regular r e).commit]
      exact .runFailed r request e he
  next r T content response => cases h; exact .synthesized r T content response
  next r T content e =>
    split at h
    · cases h
    · cases h; exact .synthesisFailed r T content
  next => cases h

theorem resumeReady_next (h : s.resumeReady cfg p ch = some eff) :
    Next cfg s p eff.next (eff.commit.getD s.store) := by
  unfold resumeReady at h
  split at h
  next r T tasks =>
    split at h
    next hd =>
      cases h
      simp only [Bool.and_eq_true, Bool.not_eq_true'] at hd
      obtain ⟨q,hq,hn⟩ := s.runGraph_next cfg r (T.recordResults (s.taskResults tasks))
      rw [hq, (s.runGraph_regular cfg r _).commit]
      exact .roundDone r T tasks q hd.1 hd.2 hn
    next => cases h
  next r T tasks k =>
    split at h
    next hw =>
      split at h
      next e he =>
        cases h
        simp only [Bool.and_eq_true, Bool.or_eq_true, List.any_eq_true, beq_iff_eq] at hw
        obtain ⟨hw,⟨t,ht,rfl⟩⟩ := hw
        exact .roundFailed r T tasks t e ht he hw
      next => cases h
    next => cases h
  next r tasks e =>
    split at h
    next hd =>
      split at h
      · cases h; exact .gatherCancelled r tasks hd
      next code message => cases h; exact .gatherFailed r tasks _ hd (by simp)
      next hne hne' =>
        cases h
        have he : roundError e = .orchestration "CHILD_FAILED" "A required worker failed" := by
          cases e <;> first | rfl | exact (hne' _ _ rfl).elim
        simpa [he,execRaise,finishFailed,Effect.goto] using Next.gatherFailed r tasks e hd (fun h => hne h)
    next => cases h
  next r tasks =>
    split at h
    next hd => cases h; exact .cleanup r tasks hd
    next => cases h
  next => cases h

theorem resumeFinish_next (h : s.resumeFinish cfg i p ch now = some eff) :
    Next cfg s p eff.next (eff.commit.getD s.store) := by
  unfold resumeFinish at h
  split at h
  next r outcome k =>
    split at h
    next hl => cases h; exact .finishLock r outcome k (by simpa using hl)
    next => cases h
  next r outcome k =>
    have hn := s.finishReturn_next r k
    have hq := (s.finishReturn_regular r k).commit
    split at h
    next hr => cases h; simpa [hq] using Next.continued _ _ <| Continued.finishSkip r outcome k _ (by simp [hr]) hn
    next run hr =>
      split at h
      next hs => cases h; simpa [hq] using Next.continued _ _ <| Continued.finishSkip r outcome k _ (by simp [hr,hs]) hn
      next hs => cases h; exact .finishRead r outcome k run hr (by simpa using hs)
  next r outcome k => cases h; exact .finishWrite r outcome k now
  next r outcome cp k =>
    cases h
    have hq := (s.finishReturn_regular r k).commit
    simpa [hq] using Next.continued _ _ <| Continued.finishPublish r outcome cp k _ (s.finishReturn_next r k)
  next => cases h

theorem resumeStop_next (h : s.resumeStop p ch = some eff) :
    Next cfg s p eff.next (eff.commit.getD s.store) := by
  unfold resumeStop at h
  split at h
  next r k =>
    split at h
    next hr => cases h; simpa [(s.abort_regular _ _).commit] using Next.stopMissing r k hr
    next run hr =>
      split at h
      next hs =>
        cases h
        simpa [(s.stopConflict_regular _ k).commit] using Next.continued _ _ <| Continued.stopTerminal r k run _ hr hs (s.stopConflict_next _ k)
      next hs => cases h; exact .stopRead r k run hr (by simpa using hs)
  next r k =>
    split at h
    next hd => cases h; exact .stopWait r k hd
    next => cases h
  next r k =>
    split at h
    next => cases h
    next hd =>
      cases h
      simpa [(s.stopConflict_regular _ k).commit] using
        Next.continued _ _ <| Continued.stopTimeout r k _ (by simpa using hd) (s.stopConflict_next _ k)
  next r k =>
    split at h
    next hr => cases h; simpa [(s.abort_regular _ _).commit] using Next.backMissing r k hr
    next run hr =>
      cases h
      simpa [(s.stopReturn_regular k).commit] using Next.continued _ _ <| Continued.stopReadBack r k run _ hr (s.stopReturn_next k)
  next k =>
    cases h
    obtain ⟨q,hq,hn⟩ := s.descLoop_next (s.store.childrenOf k.target) k
    simpa [hq,(s.descLoop_regular _ k).commit] using Next.continued _ _ <| Continued.descList k q hn
  next c rest k =>
    split at h
    next hr => cases h; simpa [(s.abort_regular _ _).commit] using Next.descMissing c rest k hr
    next run hr =>
      split at h
      next hs =>
        cases h
        obtain ⟨q,hq,hn⟩ := s.descLoop_next rest k
        simpa [hq,(s.descLoop_regular _ k).commit] using Next.continued _ _ <| Continued.descSkip c rest k run q hr hs hn
      next hs => cases h; exact .descRead c rest k run hr (by simpa using hs)
  next => cases h

theorem resumeOther_next (h : s.resumeOther cfg i p ch = some eff) :
    Next cfg s p eff.next (eff.commit.getD s.store) := by
  unfold resumeOther at h
  split at h
  · cases h; exact .shutdownBegin
  next runs =>
    split at h
    next hd =>
      cases h
      simpa [(s.shutdownLoop_regular _).commit] using Next.continued _ _ <| Continued.shutdownWait runs _ _ (by simp) (shutdownLoop_next _)
    next => cases h
  next runs =>
    split at h
    next => cases h
    next =>
      cases h
      rw [(s.shutdownLoop_regular _).commit]
      refine Next.continued _ _ <| .shutdownWait runs _ _ (fun o ho => ?_) (shutdownLoop_next _)
      simp only [List.mem_append, List.mem_map, List.mem_filter] at ho
      rcases ho with ⟨r,⟨hr,_⟩,rfl⟩ | ⟨r,⟨hr,_⟩,rfl⟩ <;> exact hr
  next a graph =>
    split at h
    next hl => cases h; exact .updateLock a graph (by simpa using hl)
    next => cases h
  next a graph =>
    split at h
    next => cases h; exact .updateRefused a graph _
    next =>
      split at h
      next => cases h; exact .updateRefused a graph _
      next hv => cases h; exact .updateRead a graph hv
  next a graph => cases h; exact .updateWrite a graph
  next => cases h

theorem resume_next (h : s.resume cfg i p ch now = some eff) :
    Next cfg s p eff.next (eff.commit.getD s.store) := by
  unfold resume at h
  split at h
  iterate 5 exact resumeStart_next h
  iterate 4 exact resumeNode_next h
  iterate 9 exact resumeRun_next h
  iterate 3 exact resumeReady_next h
  iterate 4 exact resumeFinish_next h
  iterate 5 exact resumeStop_next h
  iterate 5 exact resumeOther_next h

/-- An effect that ends the task with the cancellation. -/
theorem unwound_next (hn : ∀ n c, p ≠ .childWait n c) (hb : p.body? = none)
    (he : eff.next = .done (.raised .cancelled)) : Delivered s p eff.next := by
  rw [he]
  exact .unwound p hn hb

theorem deliver_next (h : s.deliver p ch = some eff) : Delivered s p eff.next := by
  cases p
  case childWait n c => cases h; exact .handler n c
  case invoke r request =>
    simp only [deliver] at h
    split at h
    · cases h; exact .absorbed r request
    · cases h; exact .raised _ r rfl rfl
  case readyWait r T tasks => cases h; exact .readyWait r T tasks
  case readyGather r tasks e =>
    simp only [deliver] at h
    split at h
    next hd => cases h; exact .readyGather r tasks e hd
    next => cases h
  case readyCleanup r tasks =>
    simp only [deliver] at h
    split at h
    next hd => cases h; exact .readyCleanup r tasks hd
    next => cases h
  case markRead r | markWrite r _ | markPublish r _ _ | delay r _ | readAgent r _ | validate r _ _
      | synthesize r _ _ => cases h; exact .raised _ r rfl rfl
  all_goals
    cases h
    exact unwound_next (by simp) rfl (by simp [Effect.done])

end AgentGraph.Manager
