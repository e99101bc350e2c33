import AgentGraph.Nodes.WorkerNetwork

/-! # Probes from end to end

Whatever the sockets, the workers and the other clients do, a probe that succeeds was run
by a worker of the node that it was sent to, and neither side ever gets a message that it
cannot read.
-/
set_option autoImplicit false
namespace AgentGraph.Nodes
open Transition Document Protocol

/-! ## The core's documents are read by the worker -/

theorem request_of_sendable {id : TaskId} {timeout : ℤ} (h : (ServerMessage.taskRequest id timeout).Sendable) (lax : Lax) :
    ∃ request : TaskRequest, request.taskId.val = id ∧ request.timeoutSeconds.val = seconds timeout ∧
      serverDocument (.taskRequest id timeout) = (serverMessageAdapter lax).dump (.inr (.inl request)) := by
  have hchecked : Nodes.taskRequest id timeout = some (.taskRequest id timeout) := h
  unfold Nodes.taskRequest at hchecked
  split at hchecked
  next hvalid =>
    obtain ⟨hlow,hhigh,hchars,hpos,hmax⟩ := hvalid
    have hid : isIdentifier 8 100 id = true := by
      simp only [isIdentifier, Bool.and_eq_true, decide_eq_true_eq]
      exact ⟨⟨hlow,hhigh⟩,hchars⟩
    have hpos' : (0 : ℚ) < timeout := by exact_mod_cast hpos
    have hmax' : (timeout : ℚ) ≤ 60000 := by exact_mod_cast hmax
    have hwithin : within 0 60 (seconds timeout) = true := by
      simp only [within, seconds, Bool.and_eq_true, decide_eq_true_eq]
      constructor
      · positivity
      · linarith
    have hne : seconds timeout ≠ .finite 0 := by
      intro heq
      have hzero : (timeout : ℚ) / 1000 = 0 := JsonFloat.finite.inj heq
      linarith
    exact ⟨⟨⟨id,hid⟩,⟨seconds timeout,hwithin,hne⟩⟩,rfl,rfl,rfl⟩
  · cases hchecked

/-- The worker reads a request of the core as this request. -/
theorem request_readable (lax : Lax) {m : ServerMessage} (h : m.Sendable) :
    ∃ id timeout request, m = .taskRequest id timeout ∧
      (serverMessageAdapter lax).validate (serverDocument m) = some (.inr (.inl request)) ∧
      request.taskId.val = id ∧ request.timeoutSeconds.val = seconds timeout := by
  cases m with
  | taskRequest id timeout =>
    obtain ⟨request,hid,htimeout,hdump⟩ := request_of_sendable h lax
    refine ⟨id,timeout,request,rfl,?_,hid,htimeout⟩
    rw [hdump]
    exact (serverMessageAdapter lax).validate_dump _
  | registered | taskCancel => exact h.elim

theorem registration_readable (lax : Lax) (n : NodeId) (status : NodeStatus) :
    (serverMessageAdapter lax).validate (serverDocument (.registered n status)) = some (.inl ⟨n,status⟩) := by
  have hdump : serverDocument (.registered n status) = (serverMessageAdapter lax).dump (.inl ⟨n,status⟩) := rfl
  rw [hdump]
  exact (serverMessageAdapter lax).validate_dump _

namespace Network
variable (lax : Lax) (settings : Settings) (tooLong : Json → Bool) (records : Table)

/-- Worker `w` has run the probe, and this was its report. -/
def Made (s : Network) (w : Nat) (id : TaskId) (p : JsonObject) : Prop :=
  ∃ resources, (id,resources) ∈ (s.process w).executed ∧ p = probeReport lax (s.process w).client.nodeId.val resources

/-- A worker of node `n` has made the report. -/
def Reported (s : Network) (n : NodeId) (id : TaskId) (p : JsonObject) : Prop :=
  ∃ w, (s.process w).client.nodeId.val = n ∧ s.Made lax w id p

/-- What worker `w` may have sent. -/
def Says (s : Network) (w : Nat) : Protocol.ClientMessage → Prop
  | ⟨.hello,m⟩ => m.nodeId = (s.process w).client.nodeId
  | ⟨.heartbeat,_⟩ => True
  | ⟨.result,m⟩ => s.Made lax w m.taskId.val m.result
  | _ => False

def owner (s : Network) (i : TaskRef) : Option NodeId :=
  (s.link i).map fun link => (s.process link.worker).client.nodeId.val

/-- What holds of the core, the wires and the memories of the workers. -/
structure Sound (s : Network) : Prop where
  owned : NodeService.Owned settings records s.history s.owner (s.Reported lax) s.core
  wires : ∀ i link, s.link i = some link → ∀ value ∈ link.up, ∃ m, value = document lax m ∧ s.Says lax link.worker m
  memory : ∀ w, ∀ entry ∈ (s.process w).client.completed,
    entry.2.taskId.val = entry.1 ∧ s.Made lax w entry.1 entry.2.result
  first : ∀ i link proof, s.link i = some link → s.core.pc? i = some (.hello proof) →
    ∃ m up, link.up = document lax ⟨.hello,m⟩ :: up
  dialled : ∀ w i, (s.process w).socket = some i → (s.link i).map Link.worker = some w

variable {lax settings tooLong records} {s t : Network} {w : Nat} {i : TaskRef} {l : Label}

/-- A process goes on as the same node, and forgets no probe that it has run. -/
structure Continues (s t : Network) : Prop where
  nodeId : ∀ w, (t.process w).client.nodeId = (s.process w).client.nodeId
  executed : ∀ w, ∀ entry ∈ (s.process w).executed, entry ∈ (t.process w).executed

theorem Continues.refl (s : Network) : s.Continues s := ⟨fun _ => rfl,fun _ _ h => h⟩

theorem Continues.trans {u : Network} (h : s.Continues t) (h' : t.Continues u) : s.Continues u :=
  ⟨fun w => (h'.nodeId w).trans (h.nodeId w),fun w entry he => h'.executed w entry (h.executed w entry he)⟩

theorem Continues.of_process (h : t.process = s.process) : s.Continues t := by
  refine ⟨fun w => by rw [h],fun w entry hentry => ?_⟩
  rwa [h]

theorem Continues.setProcess {p : Process} (hnode : p.client.nodeId = (s.process w).client.nodeId)
    (hexecuted : ∀ entry ∈ (s.process w).executed, entry ∈ p.executed) : s.Continues (s.setProcess w p) := by
  refine ⟨fun w' => ?_,fun w' entry hentry => ?_⟩
  · by_cases hw : w' = w
    · subst hw
      simp only [Network.setProcess, Function.update_self]
      exact hnode
    · simp only [Network.setProcess, Function.update_of_ne hw]
  · by_cases hw : w' = w
    · subst hw
      simp only [Network.setProcess, Function.update_self]
      exact hexecuted entry hentry
    · simpa only [Network.setProcess, Function.update_of_ne hw] using hentry

theorem Continues.made (h : s.Continues t) {id : TaskId} {p : JsonObject} (hm : s.Made lax w id p) : t.Made lax w id p := by
  obtain ⟨resources,hmem,hp⟩ := hm
  refine ⟨resources,h.executed w _ hmem,?_⟩
  rw [hp, h.nodeId w]

theorem Continues.reported (h : s.Continues t) {n : NodeId} {id : TaskId} {p : JsonObject} (hr : s.Reported lax n id p) :
    t.Reported lax n id p := by
  obtain ⟨w,hn,hm⟩ := hr
  exact ⟨w,by rw [h.nodeId w]; exact hn,h.made hm⟩

theorem Continues.said (h : s.Continues t) {m : Protocol.ClientMessage} (hs : s.Says lax w m) : t.Says lax w m := by
  obtain ⟨type,m⟩ := m
  cases type with
  | hello => exact Eq.trans hs (h.nodeId w).symm
  | heartbeat => trivial
  | result => exact h.made hs
  | capabilities | error | cancel => exact hs.elim

theorem Continues.owner (h : s.Continues t) (hlink : (t.link i).map Link.worker = (s.link i).map Link.worker) :
    t.owner i = s.owner i := by
  have howner : ∀ u : Network, u.owner i = ((u.link i).map Link.worker).map fun w => (u.process w).client.nodeId.val := by
    intro u
    rw [Network.owner, Option.map_map]
    rfl
  rw [howner, howner, hlink]
  simp only [h.nodeId]

/-- What the workers have sent meanwhile. -/
def Wired (lax : Lax) (s t : Network) : Prop :=
  ∀ i, s.link i = none ∧ t.link i = none ∨ ∃ link more, s.link i = some link ∧
    t.link i = some ⟨link.worker,link.up ++ more⟩ ∧ ∀ value ∈ more, ∃ m, value = document lax m ∧ t.Says lax link.worker m

theorem Wired.of_link (h : t.link = s.link) : Wired lax s t := by
  intro i
  rw [h]
  cases hi : s.link i with
  | none => exact .inl ⟨rfl,rfl⟩
  | some link => exact .inr ⟨link,[],rfl,by rw [List.append_nil],fun _ hv => nomatch hv⟩

/-- A worker goes on without a step of the core. -/
theorem Sound.work (hs : Sound lax settings records s) (h : s.Continues t) (hcore : t.core = s.core)
    (hhistory : t.history = s.history) (hwired : Wired lax s t) (hmemory : ∀ w, ∀ entry ∈ (t.process w).client.completed,
      entry.2.taskId.val = entry.1 ∧ t.Made lax w entry.1 entry.2.result)
    (hsocket : ∀ w i, (t.process w).socket = some i → (s.process w).socket = some i) : Sound lax settings records t := by
  have howner : t.owner = s.owner := by
    funext i
    apply h.owner
    obtain ⟨hnone,hnone'⟩ | ⟨link,more,hlink,hlink',-⟩ := hwired i
    · rw [hnone, hnone']
    · rw [hlink, hlink']
      rfl
  refine ⟨?_,fun i link' hi value hvalue => ?_,hmemory,fun i link' proof hi hpc => ?_,fun w i hi => ?_⟩
  · rw [hcore, hhistory, howner]
    exact hs.owned.mono fun n id p hr => h.reported hr
  · obtain ⟨-,hnone⟩ | ⟨link,more,hlink,hlink',hmore⟩ := hwired i
    · rw [hi] at hnone
      cases hnone
    · cases hlink'.symm.trans hi
      obtain hvalue | hvalue := List.mem_append.mp hvalue
      · obtain ⟨m,hm,hsaid⟩ := hs.wires i link hlink value hvalue
        exact ⟨m,hm,h.said hsaid⟩
      · exact hmore value hvalue
  · obtain ⟨-,hnone⟩ | ⟨link,more,hlink,hlink',-⟩ := hwired i
    · rw [hi] at hnone
      cases hnone
    · cases hlink'.symm.trans hi
      obtain ⟨m,up,hfirst⟩ := hs.first i link proof hlink (by rw [← hcore]; exact hpc)
      exact ⟨m,up ++ more,by rw [hfirst, List.cons_append]⟩
  · have hworker := hs.dialled w i (hsocket w i hi)
    obtain ⟨hnone,-⟩ | ⟨link,more,hlink,hlink',-⟩ := hwired i
    · rw [hnone] at hworker
      cases hworker
    · rw [hlink] at hworker
      rw [hlink']
      exact hworker

/-- What an arriving document says is what its worker may say. -/
theorem arrived_document {tooLong : Json → Bool} {m : Protocol.ClientMessage} :
    arrived lax tooLong (document lax m) = if tooLong (document lax m) then none else some (handled lax m) := by
  unfold arrived
  split
  · rfl
  · rw [document, (clientMessageAdapter lax).validate_dump, Option.map_some]

theorem Says.handedOver {m : Protocol.ClientMessage} (h : s.Says lax w m) :
    NodeService.HandedOver (s.Reported lax) (s.process w).client.nodeId.val (handled lax m) := by
  obtain ⟨type,m⟩ := m
  cases type with
  | hello => exact congrArg Subtype.val h
  | heartbeat => trivial
  | result => exact ⟨w,rfl,h⟩
  | capabilities | error | cancel => exact h.elim

theorem Sound.unborn (hs : Sound lax settings records s) : s.link s.core.taskCount = none := by
  have hnone := hs.owned.unborn s.core.taskCount (Nat.le_refl _)
  exact Option.map_eq_none_iff.mp hnone

/-- A step of the core: the links of its old sockets stay, and their wires lose at most their heads. -/
theorem Sound.act (hs : Sound lax settings records s) {core : NodeService} (hcore : NodeService.step settings l s.core = some core)
    (ht : t.core = core) (hhistory : t.history = s.history ++ [l]) (hprocess : s.Continues t)
    (hclient : ∀ w, (t.process w).client = (s.process w).client)
    (hold : ∀ i, i ≠ s.core.taskCount → (t.link i).map Link.worker = (s.link i).map Link.worker)
    (hnew : core.taskCount = s.core.taskCount → t.link s.core.taskCount = none)
    (hopen : ∀ proof, l = .openSocket proof → t.link s.core.taskCount = none → NodeService.Unproven settings proof)
    (hreceive : ∀ j message now link, l = .receive j (some message) now → s.link j = some link →
      NodeService.HandedOver (s.Reported lax) (s.process link.worker).client.nodeId.val message)
    (hwires : ∀ i link, t.link i = some link → ∀ value ∈ link.up, ∃ m, value = document lax m ∧ s.Says lax link.worker m)
    (hfirst : ∀ i link proof, t.link i = some link → core.pc? i = some (.hello proof) →
      ∃ m up, link.up = document lax ⟨.hello,m⟩ :: up)
    (hsocket : ∀ w i, (t.process w).socket = some i →
      (s.process w).socket = some i ∨ (t.link i).map Link.worker = some w) : Sound lax settings records t := by
  have howned : NodeService.Owned settings records (s.history ++ [l]) t.owner (s.Reported lax) core := by
    apply hs.owned.step hcore
    · intro j hj
      exact hprocess.owner (hold j hj)
    · intro hcount
      funext j
      apply hprocess.owner
      by_cases hj : j = s.core.taskCount
      · rw [hj, hnew hcount, hs.unborn]
      · exact hold j hj
    · intro proof hl hnone
      exact hopen proof hl (Option.map_eq_none_iff.mp hnone)
    · intro j message now n hl hn
      obtain ⟨link,hlink,rfl⟩ := Option.map_eq_some_iff.mp hn
      exact hreceive j message now link hl hlink
  refine ⟨?_,fun i link hi value hvalue => ?_,fun w entry hentry => ?_,fun i link proof hi hpc => ?_,fun w i hi => ?_⟩
  · rw [ht, hhistory]
    exact howned.mono fun n id p hr => hprocess.reported hr
  · obtain ⟨m,hm,hsaid⟩ := hwires i link hi value hvalue
    exact ⟨m,hm,hprocess.said hsaid⟩
  · rw [hclient] at hentry
    obtain ⟨hid,hmade⟩ := hs.memory w entry hentry
    exact ⟨hid,hprocess.made hmade⟩
  · exact hfirst i link proof hi (by rw [← ht]; exact hpc)
  · obtain hbefore | hnew := hsocket w i hi
    · have hworker := hs.dialled w i hbefore
      have hne : i ≠ s.core.taskCount := by
        rintro rfl
        rw [hs.unborn] at hworker
        cases hworker
      rw [hold i hne]
      exact hworker
    · exact hnew

theorem enact_eq (h : s.enact settings l = some t) : ∃ core, NodeService.step settings l s.core = some core ∧
    t = { s with core := core, history := s.history ++ [l] } := by
  obtain ⟨core,hcore,rfl⟩ := Option.map_eq_some_iff.mp h
  exact ⟨core,hcore,rfl⟩

/-- A socket that is before its hello was so already, or is new. -/
theorem hello_before {core : NodeService} (hcore : NodeService.step settings l s.core = some core) {proof : Option String}
    (hpc : core.pc? i = some (.hello proof)) (hi : i ≠ s.core.taskCount) : s.core.pc? i = some (.hello proof) := by
  obtain hsame | ⟨_,-,-,hnew⟩ | ⟨_,_,_,-,hpc',-⟩ := NodeService.step_unproved hcore hpc rfl
  · exact hsame
  · exact absurd hnew hi
  · cases hpc'

/-- The first text that a socket receives is its hello or its end. -/
theorem receive_hello {core core' : NodeService} {message : Option ClientMessage} {now : Instant} {proof proof' : Option String}
    (h : NodeService.step settings (.receive i message now) core = some core') (hpc : core.pc? i = some (.hello proof)) :
    core'.pc? i ≠ some (.hello proof') := by
  intro hpc'
  have hgoto : ∀ pc : Pc, pc.unproved = false ∨ (∃ hello, pc = .enrollLock hello proof) → core' ≠ core.goto i pc := by
    rintro pc hp rfl
    obtain rfl := NodeService.pc?_goto hpc'
    obtain hp | ⟨hello,hp⟩ := hp <;> cases hp
  simp only [NodeService.step, hpc] at h
  cases message with
  | none => exact hgoto _ (.inl rfl) (Option.some.inj h).symm
  | some m =>
    cases m with
    | hello hello => exact hgoto _ (.inr ⟨hello,rfl⟩) (Option.some.inj h).symm
    | _ => exact hgoto _ (.inl rfl) (Option.some.inj h).symm

/-- A step of the core that reads from no worker. -/
theorem Sound.core (hs : Sound lax settings records s) (h : s.enact settings l = some t)
    (hopen : ∀ proof, l = .openSocket proof → NodeService.Unproven settings proof)
    (hreceive : ∀ j message now link, l = .receive j message now → s.link j ≠ some link) : Sound lax settings records t := by
  obtain ⟨core,hcore,rfl⟩ := enact_eq h
  refine hs.act hcore rfl rfl (.of_process rfl) (fun _ => rfl) (fun _ _ => rfl) (fun _ => hs.unborn)
    (fun proof hl _ => hopen proof hl) (fun j message now link hl hlink => absurd hlink (hreceive j _ now link hl))
    hs.wires (fun i link proof hi hpc => ?_) fun _ _ h => .inl h
  have hne : i ≠ s.core.taskCount := by
    rintro rfl
    rw [hs.unborn] at hi
    cases hi
  exact hs.first i link proof hi (hello_before hcore hpc hne)

theorem Sound.dial (hs : Sound lax settings records s) {capabilities : WorkerCapabilities} {tooLong : Json → Bool}
    (h : step lax settings tooLong (.dial w capabilities) s = some t) : Sound lax settings records t := by
  simp only [step] at h
  split at h
  · cases h
  · obtain ⟨u,hu,rfl⟩ := Option.map_eq_some_iff.mp h
    obtain ⟨core,hcore,rfl⟩ := enact_eq hu
    have hprocess : s.Continues ((setProcess w
        { s.process w with socket := some s.core.taskCount, received := 0 }
        { s with core := core, history := s.history ++ [.openSocket (some (proof settings (s.process w)))] }).setLink
          s.core.taskCount ⟨w,[document lax ⟨.hello,⟨(s.process w).client.nodeId,(s.process w).nodeName,capabilities⟩⟩]⟩) :=
      (Continues.setProcess (s := s) (w := w) (p := { s.process w with socket := some s.core.taskCount, received := 0 })
        rfl fun _ he => he).trans (.of_process rfl)
    have hcount : core.taskCount = s.core.taskCount + 1 := by
      cases hcore
      rfl
    refine hs.act hcore rfl rfl hprocess (fun w' => ?_) (fun i hi => ?_) (fun heq => ?_) (fun proof _ hnone => ?_)
      (fun j message now link hl => ?_) (fun i link hi value hvalue => ?_) (fun i link proof hi hpc => ?_) fun w' i hi => ?_
    · by_cases hw : w' = w
      · subst hw
        simp only [Network.setLink, Network.setProcess, Function.update_self]
      · simp only [Network.setLink, Network.setProcess, Function.update_of_ne hw]
    · simp only [Network.setLink, Network.setProcess, Function.update_of_ne hi]
    · omega
    · simp only [Network.setLink, Function.update_self] at hnone
      cases hnone
    · cases hl
    · simp only [Network.setLink, Network.setProcess] at hi
      by_cases hnew : i = s.core.taskCount
      · subst hnew
        rw [Function.update_self] at hi
        cases hi
        cases List.mem_singleton.mp hvalue
        exact ⟨_,rfl,rfl⟩
      · rw [Function.update_of_ne hnew] at hi
        exact hs.wires i link hi value hvalue
    · simp only [Network.setLink, Network.setProcess] at hi
      by_cases hnew : i = s.core.taskCount
      · subst hnew
        rw [Function.update_self] at hi
        cases hi
        exact ⟨_,_,rfl⟩
      · rw [Function.update_of_ne hnew] at hi
        exact hs.first i link proof hi (hello_before hcore hpc hnew)
    · simp only [Network.setLink, Network.setProcess] at hi
      by_cases hw : w' = w
      · subst hw
        rw [Function.update_self] at hi
        cases hi
        exact .inr (by simp only [Network.setLink, Function.update_self, Option.map_some])
      · rw [Function.update_of_ne hw] at hi
        exact .inl hi

theorem Sound.carry (hs : Sound lax settings records s) {now : Instant} {tooLong : Json → Bool}
    (h : step lax settings tooLong (.carry i now) s = some t) : Sound lax settings records t := by
  simp only [step] at h
  split at h
  next w value up hlink =>
    obtain ⟨u,hu,rfl⟩ := Option.map_eq_some_iff.mp h
    obtain ⟨core,hcore,rfl⟩ := enact_eq hu
    have hi : i ≠ s.core.taskCount := by
      rintro rfl
      rw [hs.unborn] at hlink
      cases hlink
    obtain ⟨m,rfl,hsaid⟩ := hs.wires i _ hlink value List.mem_cons_self
    refine hs.act hcore rfl rfl (.of_process rfl) (fun _ => rfl) (fun j _ => ?_) (fun _ => ?_) (fun proof hl => ?_)
      (fun j message now link hl hj => ?_) (fun j link hj value hvalue => ?_) (fun j link proof hj hpc => ?_) fun _ _ h => .inl h
    · by_cases hji : j = i
      · subst hji
        simp only [Network.setLink, Function.update_self, hlink, Option.map_some]
      · simp only [Network.setLink, Function.update_of_ne hji]
    · simp only [Network.setLink, Function.update_of_ne hi.symm]
      exact hs.unborn
    · cases hl
    · obtain ⟨rfl,harrived,-⟩ := Label.receive.inj hl
      cases hlink.symm.trans hj
      rw [arrived_document] at harrived
      split at harrived
      · cases harrived
      · cases harrived
        exact hsaid.handedOver
    · simp only [Network.setLink] at hj
      by_cases hji : j = i
      · subst hji
        rw [Function.update_self] at hj
        cases hj
        exact hs.wires j _ hlink value (List.mem_cons_of_mem _ hvalue)
      · rw [Function.update_of_ne hji] at hj
        exact hs.wires j link hj value hvalue
    · have hne : j ≠ s.core.taskCount := by
        rintro rfl
        simp only [Network.setLink, Function.update_of_ne hi.symm, hs.unborn] at hj
        cases hj
      have hbefore := hello_before hcore hpc hne
      by_cases hji : j = i
      · subst hji
        exact absurd hpc (receive_hello hcore hbefore)
      · simp only [Network.setLink, Function.update_of_ne hji] at hj
        exact hs.first j link proof hj hbefore
  · cases h

/-- A worker notes something about its connection. -/
theorem Sound.note (hs : Sound lax settings records s) {p : Process} (hclient : p.client = (s.process w).client)
    (hexecuted : p.executed = (s.process w).executed) (hsocket : p.socket = none ∨ p.socket = (s.process w).socket) :
    Sound lax settings records (s.setProcess w p) := by
  have hcontinues : s.Continues (s.setProcess w p) := by
    apply Continues.setProcess
    · rw [hclient]
    · intro entry hentry
      rwa [hexecuted]
  refine hs.work hcontinues rfl rfl (.of_link rfl) (fun w' entry hentry => ?_) fun w' i hi => ?_
  · have hbefore : entry ∈ (s.process w').client.completed := by
      by_cases hw : w' = w
      · subst hw
        simpa only [Network.setProcess, Function.update_self, hclient] using hentry
      · simpa only [Network.setProcess, Function.update_of_ne hw] using hentry
    obtain ⟨hid,hmade⟩ := hs.memory w' entry hbefore
    exact ⟨hid,hcontinues.made hmade⟩
  · by_cases hw : w' = w
    · subst hw
      simp only [Network.setProcess, Function.update_self] at hi
      obtain hnone | hsame := hsocket
      · rw [hnone] at hi
        cases hi
      · rwa [hsame] at hi
    · simpa only [Network.setProcess, Function.update_of_ne hw] using hi

theorem Sound.hangUp (hs : Sound lax settings records s) (w : Nat) : Sound lax settings records (s.hangUp w) :=
  hs.note rfl rfl (.inl rfl)

theorem Sound.advance (hs : Sound lax settings records s) (w : Nat) : Sound lax settings records (s.advance w) :=
  hs.note rfl rfl (.inr rfl)

/-- What a worker sends over its connection. -/
theorem Wired.send {m : Protocol.ClientMessage} (h : ∀ link, s.link i = some link → Says lax (s.send i (document lax m)) link.worker m) :
    Wired lax s (s.send i (document lax m)) := by
  intro j
  by_cases hj : j = i
  · subst hj
    cases hlink : s.link j with
    | none => exact .inl ⟨rfl,by simp only [Network.send, Function.update_self, hlink, Option.map_none]⟩
    | some link =>
      refine .inr ⟨link,[document lax m],rfl,by simp only [Network.send, Function.update_self, hlink, Option.map_some],?_⟩
      intro value hvalue
      cases List.mem_singleton.mp hvalue
      exact ⟨m,rfl,h link hlink⟩
  · cases hlink : s.link j with
    | none => exact .inl ⟨rfl,by simp only [Network.send, Function.update_of_ne hj, hlink]⟩
    | some link =>
      refine .inr ⟨link,[],rfl,?_,fun _ hv => nomatch hv⟩
      simp only [Network.send, Function.update_of_ne hj, hlink, List.append_nil]

theorem Sound.beat (hs : Sound lax settings records s) (i : TaskRef) (resources : ResourceSnapshot) :
    Sound lax settings records (s.send i (document lax ⟨.heartbeat,resources⟩)) :=
  hs.work (.of_process rfl) rfl rfl (.send fun _ _ => trivial) hs.memory fun _ _ h => h

/-- The process after an execution knows every result in its memory. -/
theorem Sound.remembers (hs : Sound lax settings records s) (work : Work) {t : Network}
    (hnode : (t.process w).client = ((s.process w).client.execute lax work).2)
    (hexecuted : (t.process w).executed =
      (s.process w).executed ++ ((s.process w).client.computes lax work).map fun entry => (entry.1,work.2))
    (hcontinues : s.Continues t) :
    (∀ entry ∈ (t.process w).client.completed, entry.2.taskId.val = entry.1 ∧ t.Made lax w entry.1 entry.2.result) ∧
      ∃ result, ((s.process w).client.execute lax work).1 = .inl result ∧ t.Made lax w result.taskId.val result.result := by
  cases hfound : (s.process w).client.completed.lookup work.1.taskId.val with
  | some result =>
    obtain ⟨hexecute,-⟩ := WorkerClient.execute_hit lax hfound
    rw [hnode, hexecute]
    have hmem : (work.1.taskId.val,result) ∈ (s.process w).client.completed := NodeService.mem_of_lookup hfound
    have hold : ∀ entry ∈ (s.process w).client.completed,
        entry.2.taskId.val = entry.1 ∧ t.Made lax w entry.1 entry.2.result := by
      intro entry hentry
      obtain ⟨hid,hmade⟩ := hs.memory w entry hentry
      exact ⟨hid,hcontinues.made hmade⟩
    refine ⟨hold,result,rfl,?_⟩
    obtain ⟨hid,hmade⟩ := hold _ hmem
    rw [hid]
    exact hmade
  | none =>
    obtain ⟨hexecute,hcomputes⟩ := WorkerClient.execute_miss lax hfound
    have hmade : t.Made lax w work.1.taskId.val ((s.process w).client.compute lax work).result := by
      refine ⟨work.2,?_,?_⟩
      · rw [hexecuted, hcomputes]
        exact List.mem_append_right _ List.mem_cons_self
      · rw [hcontinues.nodeId w]
        rfl
    rw [hnode, hexecute]
    refine ⟨fun entry hentry => ?_,_,rfl,hmade⟩
    obtain hentry | hentry := List.mem_append.mp (List.mem_of_mem_drop hentry)
    · obtain ⟨hid,hbefore⟩ := hs.memory w entry (List.mem_filter.mp hentry).1
      exact ⟨hid,hcontinues.made hbefore⟩
    · cases List.mem_singleton.mp hentry
      exact ⟨rfl,hmade⟩

theorem Sound.answer (hs : Sound lax settings records s) (hsocket : (s.process w).socket = some i) (work : Work) :
    Sound lax settings records (s.answer lax w i work) := by
  have hcontinues : s.Continues (s.answer lax w i work) := by
    refine (Continues.setProcess (w := w) ?_ fun entry hentry => List.mem_append_left _ hentry).trans (.of_process rfl)
    simp only [WorkerClient.execute]
    split
    · rfl
    · split <;> rfl
  have hprocess : ∀ w', w' ≠ w → (s.answer lax w i work).process w' = s.process w' := by
    intro w' hw
    simp only [Network.answer, Network.execute, Network.send, Network.setProcess, Function.update_of_ne hw]
  obtain ⟨hmemory,result,hresult,hmade⟩ := hs.remembers (w := w) work (t := s.answer lax w i work)
    (by simp only [Network.answer, Network.execute, Network.send, Network.setProcess, Function.update_self])
    (by simp only [Network.answer, Network.execute, Network.send, Network.setProcess, Function.update_self]) hcontinues
  refine hs.work hcontinues rfl rfl ?_ (fun w' entry hentry => ?_) fun w' j hj => ?_
  · have hsaid : ∀ link, s.link i = some link →
        (s.answer lax w i work).Says lax link.worker (replyMessage ((s.process w).client.execute lax work).1) := by
      intro link hlink
      have hworker := hs.dialled w i hsocket
      rw [hlink] at hworker
      cases hworker
      rw [hresult]
      exact hmade
    exact Wired.send (s := s.execute lax w work) hsaid
  · by_cases hw : w' = w
    · subst hw
      exact hmemory entry hentry
    · rw [hprocess w' hw] at hentry
      obtain ⟨hid,hbefore⟩ := hs.memory w' entry hentry
      exact ⟨hid,hcontinues.made hbefore⟩
  · by_cases hw : w' = w
    · subst hw
      simpa only [Network.answer, Network.execute, Network.send, Network.setProcess, Function.update_self] using hj
    · rwa [hprocess w' hw] at hj

theorem Sound.takeMessage (hs : Sound lax settings records s) (hsocket : (s.process w).socket = some i) {tooLong : Json → Bool}
    (m : ServerMessage) (resources : ResourceSnapshot) :
    Sound lax settings records (s.takeMessage lax tooLong w i m resources) := by
  unfold Network.takeMessage
  split
  · exact hs.advance w
  · split
    · exact hs.hangUp w
    · split
      · exact hs.hangUp w
      · exact hs.answer hsocket _
      · exact hs.advance w

theorem Sound.restart (hs : Sound lax settings records s) (w : Nat) :
    Sound lax settings records (s.setProcess w { s.process w with
      client := .fresh (s.process w).client.nodeId (s.process w).client.maxTasks, socket := none }) := by
  have hcontinues : s.Continues (s.setProcess w { s.process w with
      client := .fresh (s.process w).client.nodeId (s.process w).client.maxTasks, socket := none }) :=
    .setProcess rfl fun _ he => he
  refine hs.work hcontinues rfl rfl (.of_link rfl) (fun w' entry hentry => ?_) fun w' i hi => ?_
  · by_cases hw : w' = w
    · subst hw
      simp only [Network.setProcess, Function.update_self] at hentry
      cases hentry
    · simp only [Network.setProcess, Function.update_of_ne hw] at hentry
      obtain ⟨hid,hmade⟩ := hs.memory w' entry hentry
      exact ⟨hid,hcontinues.made hmade⟩
  · by_cases hw : w' = w
    · subst hw
      simp only [Network.setProcess, Function.update_self] at hi
      cases hi
    · simpa only [Network.setProcess, Function.update_of_ne hw] using hi

/-- A client that is no worker has no proof that verifies. -/
def Outside (settings : Settings) (l : NetworkLabel) : Prop :=
  ∀ proof, l = .core (.openSocket proof) → NodeService.Unproven settings proof

theorem Sound.step {tooLong : Json → Bool} {l : NetworkLabel} (hs : Sound lax settings records s) (hl : Outside settings l)
    (h : Network.step lax settings tooLong l s = some t) : Sound lax settings records t := by
  cases l with
  | core l =>
    cases l with
    | receive i message now =>
      simp only [Network.step] at h
      split at h
      · cases h
      next hnone =>
        refine hs.core h (fun _ hl => by cases hl) fun j message now link hl hlink => hnone ?_
        cases hl
        rw [hlink]
        rfl
    | openSocket proof =>
      refine hs.core h (fun proof' hl' => ?_) fun _ _ _ _ hl' => by cases hl'
      cases hl'
      exact hl proof rfl
    | deliver | sweep | setEnabled | run | timeout | fail =>
      exact hs.core h (fun _ hl' => by cases hl') fun _ _ _ _ hl' => by cases hl'
  | dial w capabilities => exact hs.dial h
  | carry i now => exact hs.carry h
  | read w resources =>
    simp only [Network.step] at h
    split at h
    · cases h
    next i hsocket =>
      split at h <;> cases h
      exact hs.takeMessage hsocket _ resources
  | beat w resources =>
    simp only [Network.step] at h
    split at h
    · cases h
    next i hsocket =>
      split at h <;> cases h
      exact hs.beat i resources
  | hangUp w =>
    cases h
    exact hs.hangUp w
  | restart w =>
    cases h
    exact hs.restart w

theorem sound_initial (lax : Lax) (settings : Settings) (records : Table) {workers : Nat → Process}
    (hfresh : ∀ w, (workers w).Fresh) : Sound lax settings records (initial records workers) where
  owned := NodeService.owned_initial settings records _
  wires := fun _ _ h => nomatch h
  memory := by
    intro w entry hentry
    have hnone : entry ∈ ((workers w).client.completed) := hentry
    rw [(hfresh w).completed] at hnone
    cases hnone
  first := fun _ _ _ h => nomatch h
  dialled := by
    intro w i hi
    have hnone : (workers w).socket = some i := hi
    rw [(hfresh w).socket] at hnone
    cases hnone

theorem Sound.run {tooLong : Json → Bool} {ls : List NetworkLabel} (hs : Sound lax settings records s)
    (hls : ∀ l ∈ ls, Outside settings l) (h : exec (Network.step lax settings tooLong) ls s = some t) :
    Sound lax settings records t := by
  induction ls generalizing s with
  | nil =>
    cases h
    exact hs
  | cons l ls ih =>
    obtain ⟨u,hu,hrest⟩ := Option.bind_eq_some_iff.mp h
    exact ih (hs.step (hls l List.mem_cons_self) hu) (fun l' hl' => hls l' (List.mem_cons_of_mem _ hl')) hrest

section Results
variable (lax : Lax) (settings : Settings) (tooLong : Json → Bool) (records : Table) {workers : Nat → Process}
  {ls : List NetworkLabel} {s : Network}

theorem sound_exec (hfresh : ∀ w, (workers w).Fresh) (houtside : ∀ l ∈ ls, Outside settings l)
    (h : exec (Network.step lax settings tooLong) ls (initial records workers) = some s) : Sound lax settings records s :=
  (sound_initial lax settings records hfresh).run houtside h

/-- However the sockets, the workers and other clients take their turns: a probe that succeeds was
dispatched to the node that its caller has named, under the id that the caller has given if any, a
worker process of this node has run it, and its result is the report that this worker made. -/
theorem probe_end_to_end (hfresh : ∀ w, (workers w).Fresh) (houtside : ∀ l ∈ ls, Outside settings l)
    (h : exec (Network.step lax settings tooLong) ls (initial records workers) = some s) {i : TaskRef} {id : TaskId}
    {p : JsonObject} (hprobed : s.core.pc? i = some (.done (.probed id p))) :
    exec (NodeService.step settings) s.history (.initial records) = some s.core ∧
      (∃ n given, NodeService.Started settings records s.history i n given) ∧
      ∀ n given, NodeService.Started settings records s.history i n given → Named given id ∧
        ∃ w resources, NodeService.Answered settings records s.history i n id p ∧ (s.process w).client.nodeId.val = n ∧
          (id,resources) ∈ (s.process w).executed ∧ p = probeReport lax n resources := by
  have hs := sound_exec lax settings tooLong records hfresh houtside h
  obtain ⟨n,hanswered,w,rfl,resources,hmem,hp⟩ := hs.owned.probed i id p hprobed
  obtain ⟨⟨given,hstarted⟩,hcall⟩ := hanswered.called hs.owned.run
  refine ⟨hs.owned.run,⟨_,given,hstarted⟩,fun n given' hstarted' => ?_⟩
  obtain ⟨rfl,hnamed⟩ := hcall n given' hstarted'
  exact ⟨hnamed,w,resources,hanswered,rfl,hmem,hp⟩

end Results

def sampleResources : ResourceSnapshot := ⟨⟨4,by decide⟩,none,none,none⟩

def sampleCapabilities : WorkerCapabilities :=
  ⟨⟨"Linux",by decide⟩,⟨"x86_64",by decide⟩,⟨"0.1.0",by decide⟩,defaultFeatures,sampleResources⟩

/-- Workers of one node, with the secret of the core. -/
def sampleWorkers (_ : Nat) : Process :=
  ⟨.fresh ⟨"node_0001",by decide⟩ 2,"key",⟨"worker",by decide⟩,none,0,[]⟩

theorem sampleWorkers_fresh (w : Nat) : (sampleWorkers w).Fresh := ⟨rfl,rfl,rfl⟩

/-- Worker 0 connects, is probed and answers. -/
def sampleLabels : List NetworkLabel :=
  [.dial 0 sampleCapabilities,.carry 0 0] ++ List.replicate 6 (.core (.run 0 0 "")) ++
    [.read 0 sampleResources,.core (.sweep (.probe "node_0001" none (some "tsk_00001")) 0)] ++
    List.replicate 4 (.core (.run 1 0 "")) ++
    [.core (.deliver 0),.read 0 sampleResources,.carry 0 0,.core (.run 1 0 "")]

theorem sampleLabels_outside : ∀ l ∈ sampleLabels, Outside NodeService.sampleSettings l := by
  rintro l hl proof rfl
  simp [sampleLabels] at hl

abbrev sampleStep := step plainLax NodeService.sampleSettings fun _ => false

theorem sampleLabels_run : (exec sampleStep sampleLabels (initial [] sampleWorkers)).isSome = true := by decide +kernel

def sampleEnd (s : Network) : Bool :=
  match s.core.pc? 1 with
  | some (.done (.probed id _)) => id == "tsk_00001"
  | _ => false

theorem probe_end_to_end_sample : ∃ s n given w resources p, exec sampleStep sampleLabels (initial [] sampleWorkers) = some s ∧
    NodeService.Started NodeService.sampleSettings [] s.history 1 n given ∧
    NodeService.Answered NodeService.sampleSettings [] s.history 1 n "tsk_00001" p ∧ (s.process w).client.nodeId.val = n ∧
      ("tsk_00001",resources) ∈ (s.process w).executed ∧ p = probeReport plainLax n resources := by
  have hend : sampleEnd (after sampleStep sampleLabels (initial [] sampleWorkers) sampleLabels_run) = true := by decide +kernel
  unfold sampleEnd at hend
  split at hend
  next id p hpc =>
    obtain rfl := eq_of_beq hend
    obtain ⟨-,⟨n,given,hstarted⟩,hcall⟩ := probe_end_to_end plainLax NodeService.sampleSettings (fun _ => false) []
      sampleWorkers_fresh sampleLabels_outside (exec_after sampleLabels_run) hpc
    obtain ⟨-,w,resources,hrest⟩ := hcall n given hstarted
    exact ⟨_,n,given,w,resources,p,exec_after sampleLabels_run,hstarted,hrest⟩
  · cases hend

section Results
variable (lax : Lax) (settings : Settings) (tooLong : Json → Bool) (records : Table) {workers : Nat → Process}
  {ls : List NetworkLabel} {s : Network}

/-- Messages are read as what they are: by the core, which gets a worker's hello first and never a
task error, unless a message is too long; and by a worker, which gets the registration once and
first and then only requests. No probe fails with a message of a worker. -/
theorem messages_understood (hfresh : ∀ w, (workers w).Fresh) (houtside : ∀ l ∈ ls, Outside settings l)
    (h : exec (Network.step lax settings tooLong) ls (initial records workers) = some s) :
    (∀ i link, s.link i = some link → ∀ value ∈ link.up, ∃ m, value = document lax m ∧ m.1 ≠ .error ∧
      (tooLong value = true ∨ arrived lax tooLong value = some (handled lax m))) ∧
    (∀ i link proof, s.link i = some link → s.core.pc? i = some (.hello proof) →
      ∃ hello up, link.up = document lax ⟨.hello,hello⟩ :: up) ∧
    (∀ i task, s.core.tasks i = some task → task.sent = [] ∨ ∃ n status commands,
      task.sent = .registered n status :: commands ∧
      (serverMessageAdapter lax).validate (serverDocument (.registered n status)) = some (.inl ⟨n,status⟩) ∧
      ∀ m ∈ commands, ∃ id timeout request, m = .taskRequest id timeout ∧
        (serverMessageAdapter lax).validate (serverDocument m) = some (.inr (.inl request)) ∧
        request.taskId.val = id ∧ request.timeoutSeconds.val = seconds timeout) ∧
    ∀ i text, s.core.pc? i ≠ some (.done (.raised (.failed text))) := by
  have hs := sound_exec lax settings tooLong records hfresh houtside h
  refine ⟨fun i link hi value hvalue => ?_,fun i link proof hi hpc => hs.first i link proof hi hpc,fun i task hi => ?_,
    fun i text hpc => ?_⟩
  · obtain ⟨m,rfl,hsaid⟩ := hs.wires i link hi value hvalue
    refine ⟨m,rfl,fun herror => ?_,?_⟩
    · obtain ⟨type,m⟩ := m
      cases herror
      exact hsaid
    · rw [arrived_document]
      split
      next hlong => exact .inl hlong
      · exact .inr rfl
  · have hsent := (hs.owned.commands.sent i task hi).always
    cases hmessages : task.sent with
    | nil => exact .inl rfl
    | cons first commands =>
      rw [hmessages] at hsent
      obtain hnil | hannounced := hsent
      · cases hnil
      · cases first with
        | registered n status =>
          exact .inr ⟨n,status,commands,rfl,registration_readable lax n status,fun m hm => request_readable lax (hannounced m hm)⟩
        | taskRequest | taskCancel => exact hannounced.elim
  · have hreported := hs.owned.commands.outcomes i _ hpc
    cases hreported

end Results

/-- The probe of the sample has reached the socket of the worker, after its registration. -/
def sampleSent (s : Network) : Bool :=
  match s.core.tasks 0 with
  | some task => task.sent.length == 2
  | none => false

theorem messages_understood_sample : ∃ s task n status m id timeout request,
    exec sampleStep sampleLabels (initial [] sampleWorkers) = some s ∧ s.core.tasks 0 = some task ∧
      task.sent = [.registered n status,m] ∧ m = .taskRequest id timeout ∧
      (serverMessageAdapter plainLax).validate (serverDocument m) = some (.inr (.inl request)) ∧ request.taskId.val = id := by
  have hsent : sampleSent (after sampleStep sampleLabels (initial [] sampleWorkers) sampleLabels_run) = true := by decide +kernel
  obtain ⟨-,-,hdown,-⟩ := messages_understood plainLax NodeService.sampleSettings (fun _ => false) [] sampleWorkers_fresh
    sampleLabels_outside (exec_after sampleLabels_run)
  unfold sampleSent at hsent
  split at hsent
  next task htask =>
    have hlength : task.sent.length = 2 := eq_of_beq hsent
    obtain hnil | ⟨n,status,commands,heq,-,hcommands⟩ := hdown 0 task htask
    · rw [hnil] at hlength
      cases hlength
    · rw [heq] at hlength
      obtain ⟨m,rfl⟩ := List.length_eq_one_iff.mp (Nat.succ.inj hlength)
      obtain ⟨id,timeout,request,hm,hread,hid,-⟩ := hcommands m List.mem_cons_self
      exact ⟨_,task,n,status,m,id,timeout,request,exec_after sampleLabels_run,htask,heq,hm,hread,hid⟩
  · cases hsent

end Network

end AgentGraph.Nodes
