import AgentGraph.Tools.CrashSafety

/-! # No desktop launch without its own approval

The gates of `execute` are spread over the call: the checks before the first commit,
the future of the approval that the call itself creates, and the two ledger commits.
What each program point has behind it is an invariant of the call; a launch adds that
nothing of it was missing.
-/
set_option autoImplicit false
namespace AgentGraph.Tools
open Transition Recovery

/-- No agent is deleted, so the rows of runs and ledger entries stay. -/
def keepsAgents (l : Label) (_ : Sys) : Prop := ∀ a, l ≠ .manager (.deleteAgent a)

/-- What must have happened before a call launches a vector. -/
structure Justified (settings : Settings) (earlier : List Event) (c : CallId) (vector : List String) : Prop where
  enabled : settings.toolsEnabled = true
  executed : ∃ r arguments applicationId, .executed c r "desktop.open_application" arguments ∈ earlier ∧
    (∀ field ∈ arguments, field.1 = "application_id") ∧ arguments.get "application_id" = .str applicationId ∧
    (allowlist settings).lookup applicationId = some vector
  approved : ∃ a, .approvalCreated c a ∈ earlier ∧ .decided a true ∈ earlier
  started : ∃ entry, .actionStarted c entry ∈ earlier
  once : ∀ other, .launched c other ∉ earlier

/-- Every launch of the log is justified by what precedes it. -/
def LaunchesJustified (settings : Settings) : List Event → Prop
  | [] => True
  | .launched c vector :: earlier => Justified settings earlier c vector ∧ LaunchesJustified settings earlier
  | _ :: earlier => LaunchesJustified settings earlier

theorem LaunchesJustified.of_mem {settings : Settings} {later earlier : List Event} {c : CallId}
    {vector : List String} (h : LaunchesJustified settings (later ++ .launched c vector :: earlier)) :
    Justified settings earlier c vector := by
  induction later with
  | nil => exact h.1
  | cons event later ih =>
    match event with
    | .launched _ _ => exact ih h.2
    | .executed _ _ _ _ | .returned _ _ | .approvalCreated _ _ | .decided _ _ | .actionStarted _ _
    | .bodyStarted _ _ _ => exact ih h

/-- Events other than launches need no justification. -/
theorem LaunchesJustified.append {settings : Settings} {new earlier : List Event}
    (h : LaunchesJustified settings earlier) (hnew : ∀ c vector, .launched c vector ∉ new) :
    LaunchesJustified settings (new ++ earlier) := by
  induction new with
  | nil => exact h
  | cons event new ih =>
    have hrest := ih fun c vector hmem => hnew c vector (List.mem_cons_of_mem _ hmem)
    match event with
    | .launched c vector => exact absurd (List.mem_cons_self) (hnew c vector)
    | .executed _ _ _ _ | .returned _ _ | .approvalCreated _ _ | .decided _ _ | .actionStarted _ _
    | .bodyStarted _ _ _ => exact hrest

/-- A call whose tool needs an approval has one of its own that was approved. -/
def OwnApproval (log : List Event) (c : CallId) (definition : ToolDefinition) : Prop :=
  definition.requiresApproval = true → ∃ a, .approvalCreated c a ∈ log ∧ .decided a true ∈ log

/-- What lies behind each point of a call. -/
def PointSound (log : List Event) (actions : List ActionRecord) (c : CallId) (definition : ToolDefinition) : Pc → Prop
  | .insertInvocation | .createApproval _ | .refuse _ _ => True
  | .linkApproval _ a | .waitForDecision _ a => .approvalCreated c a ∈ log
  | .recordIntent _ _ => OwnApproval log c definition
  | .recordStarted _ _ entry => OwnApproval log c definition ∧ ∃ action ∈ actions, action.id = entry
  | .begin _ _ entry => OwnApproval log c definition ∧ .actionStarted c entry ∈ log
  | .body _ _ _ | .complete _ _ _ _ | .settle _ _ _ => True

/-- The points after the body has begun. -/
def Pc.begun : Pc → Bool
  | .body _ _ _ | .complete _ _ _ _ | .settle _ _ _ => true
  | _ => false

/-- A call in progress has passed its checks and launched nothing before its body. -/
structure CallSound (settings : Settings) (log : List Event) (actions : List ActionRecord) (c : CallId)
    (call : Call) : Prop where
  executed : .executed c call.runId call.toolId call.arguments ∈ log
  admitted : admission settings call.toolId call.arguments = .ok (call.definition,call.applicationId)
  point : PointSound log actions c call.definition call.pc
  unlaunched : call.pc.begun = false → ∀ vector, .launched c vector ∉ log

/-- The future of a request says APPROVED only after a decision to approve it. -/
structure RequestSound (log : List Event) (a : ApprovalId) (request : Approval) : Prop where
  approved : request.decision = some .approved → .decided a true ∈ log
  decided : request.decision ≠ some .pending

/-- What holds between two steps of the tool service. -/
structure Authorized (settings : Settings) (s : Sys) : Prop where
  requests : ∀ a request, s.approvals a = some request → RequestSound s.log a request
  calls : ∀ c call, s.calls c = some call → CallSound settings s.log s.server.db.actions c call
  known : ∀ c call, s.calls c = some call → c < s.nextCall
  launches : ∀ c vector, .launched c vector ∈ s.log → c < s.nextCall
  justified : LaunchesJustified settings s.log

theorem Authorized.initial (settings : Settings) (server : Recovery.Sys) :
    Authorized settings (Sys.initial server) := by
  constructor <;> simp [Sys.initial, LaunchesJustified]

section Growth
variable {settings : Settings} {log log' : List Event} {actions actions' : List ActionRecord} {c : CallId}

theorem OwnApproval.mono {definition : ToolDefinition} (hlog : ∀ e ∈ log, e ∈ log')
    (h : OwnApproval log c definition) : OwnApproval log' c definition := by
  intro hneeds
  obtain ⟨a,hcreated,hdecided⟩ := h hneeds
  exact ⟨a,hlog _ hcreated,hlog _ hdecided⟩

theorem PointSound.mono {definition : ToolDefinition} {pc : Pc} (hlog : ∀ e ∈ log, e ∈ log')
    (hactions : ∀ action ∈ actions, ∃ action' ∈ actions', action'.id = action.id)
    (h : PointSound log actions c definition pc) : PointSound log' actions' c definition pc := by
  match pc with
  | .insertInvocation | .createApproval _ | .refuse _ _ | .body _ _ _ | .complete _ _ _ _ | .settle _ _ _ => trivial
  | .linkApproval _ _ | .waitForDecision _ _ => exact hlog _ h
  | .recordIntent _ _ => exact OwnApproval.mono hlog h
  | .recordStarted _ _ entry =>
    obtain ⟨action,haction,hid⟩ := h.2
    obtain ⟨action',haction',hid'⟩ := hactions action haction
    exact ⟨OwnApproval.mono hlog h.1,action',haction',hid'.trans hid⟩
  | .begin _ _ _ => exact ⟨OwnApproval.mono hlog h.1,hlog _ h.2⟩

/-- A call is sound after anything that launches nothing for it. -/
theorem CallSound.mono {call : Call} (hlog : ∀ e ∈ log, e ∈ log')
    (hlaunch : ∀ vector, .launched c vector ∈ log' → .launched c vector ∈ log)
    (hactions : ∀ action ∈ actions, ∃ action' ∈ actions', action'.id = action.id)
    (h : CallSound settings log actions c call) : CallSound settings log' actions' c call :=
  ⟨hlog _ h.executed,h.admitted,h.point.mono hlog hactions,
    fun hpc vector hl => h.unlaunched hpc vector (hlaunch vector hl)⟩

theorem RequestSound.mono {a : ApprovalId} {request : Approval} (hlog : ∀ e ∈ log, e ∈ log')
    (h : RequestSound log a request) : RequestSound log' a request :=
  ⟨fun hd => hlog _ (h.approved hd),h.decided⟩

end Growth

/-- A step that launches nothing: the requests and the calls it writes are sound, and
the other ones are as before. -/
theorem Authorized.quiet {settings : Settings} {s t : Sys} (h : Authorized settings s) (new : List Event)
    (hlog : t.log = new ++ s.log) (hquiet : ∀ c vector, .launched c vector ∉ new)
    (hactions : ∀ action ∈ s.server.db.actions, ∃ action' ∈ t.server.db.actions, action'.id = action.id)
    (hrequests : ∀ a request, t.approvals a = some request →
      s.approvals a = some request ∨ RequestSound t.log a request)
    (hcalls : ∀ c call, t.calls c = some call → s.calls c = some call ∨
      c < t.nextCall ∧ CallSound settings t.log t.server.db.actions c call)
    (hnext : s.nextCall ≤ t.nextCall) : Authorized settings t := by
  have hgrow : ∀ e ∈ s.log, e ∈ t.log := by
    intro e he
    rw [hlog]
    exact List.mem_append_right _ he
  have hsame : ∀ c vector, .launched c vector ∈ t.log → .launched c vector ∈ s.log := by
    intro c vector hl
    rw [hlog] at hl
    exact (List.mem_append.mp hl).resolve_left (hquiet c vector)
  refine ⟨?_,?_,?_,?_,?_⟩
  · intro a request ha
    rcases hrequests a request ha with hold | hnew
    · exact (h.requests a request hold).mono hgrow
    · exact hnew
  · intro c call hc
    rcases hcalls c call hc with hold | ⟨-,hnew⟩
    · exact (h.calls c call hold).mono hgrow (hsame c) hactions
    · exact hnew
  · intro c call hc
    rcases hcalls c call hc with hold | ⟨hlt,-⟩
    · exact lt_of_lt_of_le (h.known c call hold) hnext
    · exact hlt
  · intro c vector hl
    exact lt_of_lt_of_le (h.launches c vector (hsame c vector hl)) hnext
  · rw [hlog]
    exact h.justified.append hquiet

/-! ## The gates -/

/-- The checks before the first commit, for the tool that launches. -/
theorem admit_desktop {settings : Settings} {toolId : String} {arguments : JsonObject}
    {definition : ToolDefinition} {applicationId : String} {vector : List String}
    (h : admission settings toolId arguments = .ok (definition,applicationId))
    (htool : toolId ≠ "system.current_time") (hlookup : (allowlist settings).lookup applicationId = some vector) :
    settings.toolsEnabled = true ∧ toolId = "desktop.open_application" ∧ definition.requiresApproval = true ∧
      (∀ field ∈ arguments, field.1 = "application_id") ∧ arguments.get "application_id" = .str applicationId := by
  unfold admission at h
  by_cases henabled : settings.toolsEnabled = true
  swap
  · simp [henabled] at h
  simp only [henabled, Bool.not_true, Bool.false_eq_true, ↓reduceIte] at h
  have hdefinition : ∀ d, definitions.find? (fun definition => definition.id == toolId) = some d →
      toolId = "desktop.open_application" ∧ d.requiresApproval = true := by
    intro d hd
    have hmem := List.mem_of_find?_eq_some hd
    have hid : d.id = toolId := by simpa using List.find?_some hd
    rcases List.mem_cons.mp hmem with rfl | hmem
    · exact absurd hid.symm htool
    · obtain rfl := List.mem_singleton.mp hmem
      exact ⟨hid.symm,rfl⟩
  split at h
  · cases h
  next d hd =>
    obtain ⟨hid,hneeds⟩ := hdefinition d hd
    split at h
    · cases h
    next validated hvalidated =>
      split at h
      · cases h
      obtain ⟨rfl,rfl⟩ := Prod.mk.inj (Except.ok.inj h)
      refine ⟨henabled,hid,hneeds,?_⟩
      unfold validateArguments at hvalidated
      rw [if_neg htool] at hvalidated
      split at hvalidated
      next hkeys =>
        split at hvalidated
        next text htext =>
          simp only [Option.ite_none_right_eq_some, Option.some.injEq] at hvalidated
          obtain ⟨-,rfl⟩ := hvalidated
          refine ⟨?_,htext⟩
          intro field hfield
          simpa using JsonObject.onlyKeys_iff.mp hkeys field hfield
        · cases hvalidated
      · cases hvalidated

theorem enterBody_launch {settings : Settings} {call : Call} {vector : List String}
    (h : enterBody settings call = .ok (some vector)) :
    call.toolId ≠ "system.current_time" ∧ (allowlist settings).lookup call.applicationId = some vector := by
  unfold enterBody at h
  split at h
  · cases h
  next htool =>
    split at h
    next found hfound =>
      obtain rfl := Option.some.inj (Except.ok.inj h)
      exact ⟨htool,hfound⟩
    · cases h

theorem Approval.resolve_sound {log : List Event} {a : ApprovalId} {request : Approval} {status : ApprovalStatus}
    (h : RequestSound log a request) (hstatus : status ≠ .pending)
    (happroved : status = .approved → .decided a true ∈ log) : RequestSound log a (request.resolve status) := by
  match hdecision : request.decision with
  | none =>
    refine ⟨fun he => happroved ?_,fun he => hstatus ?_⟩ <;> simpa [Approval.resolve, hdecision] using he
  | some old =>
    have hold : (request.resolve status).decision = request.decision := by simp [Approval.resolve, hdecision]
    exact ⟨fun he => h.approved (hold ▸ he),fun he => h.decided (hold ▸ he)⟩

theorem Approval.decide_sound {log : List Event} {a : ApprovalId} {request moved : Approval} {approved done : Bool}
    {now : Instant} (h : RequestSound log a request) (hdecide : request.decide approved now = some (moved,done)) :
    RequestSound (if done then .decided a approved :: log else log) a moved := by
  unfold Approval.decide at hdecide
  split at hdecide
  · cases hdecide
  split at hdecide
  · obtain ⟨rfl,rfl⟩ := Prod.mk.inj (Option.some.inj hdecide)
    exact ⟨h.approved,h.decided⟩
  · obtain ⟨rfl,rfl⟩ := Prod.mk.inj (Option.some.inj hdecide)
    refine Approval.resolve_sound (h.mono fun e he => List.mem_cons_of_mem _ he) ?_ ?_
    · cases approved <;> simp
    · cases approved <;> simp

theorem Approval.cancel_sound {log : List Event} {a : ApprovalId} {request : Approval}
    (h : RequestSound log a request) : RequestSound log a request.cancel := by
  unfold Approval.cancel
  split
  · exact Approval.resolve_sound h (by simp) (by simp)
  · exact h

theorem Approval.expire_sound {log : List Event} {a : ApprovalId} {request : Approval}
    (h : RequestSound log a request) : RequestSound log a request.expire := by
  unfold Approval.expire
  split
  · exact ⟨h.approved,h.decided⟩
  · exact h

/-- The sessions of the manager that keep the agents leave the ledger alone. -/
theorem manager_actions {cfg : Config} {l : Recovery.Label} {s t : Recovery.Sys}
    (hmanager : ofManager l = true) (hkeeps : ∀ a, l ≠ .deleteAgent a) (h : Recovery.step cfg l s = some t) :
    t.db.actions = s.db.actions := by
  cases l with
  | createAgent | updateAgentGraph | startRun =>
    obtain ⟨_,-,rfl⟩ := Option.map_eq_some_iff.mp h
    rfl
  | deleteAgent a => exact absurd rfl (hkeeps a)
  | markRunning | finish =>
    simp only [Recovery.step, Option.ite_none_right_eq_some, Option.some.injEq] at h
    obtain ⟨-,rfl⟩ := h
    rfl
  | recordActionIntent | updateAction | restart => cases hmanager
  | recover clock fault stale =>
    simp only [Recovery.step, Option.ite_none_right_eq_some, Option.some.injEq] at h
    obtain ⟨⟨-,hlists⟩,rfl⟩ := h
    obtain ⟨hnodup,hactive,-⟩ := listsStale_iff hlists
    unfold recoverStaleRuns
    cases hloop : recoverLoop cfg clock fault stale s.db with
    | error _ => rfl
    | ok result =>
      cases fault with
      | some fault =>
        rw [recoverLoop_fault] at hloop
        cases hloop
      | none =>
        exact recoverLoop_induct (P := fun db => db.actions = s.db.actions) (fun _ _ _ hdb _ _ => hdb) hnodup
          hactive rfl hloop
  | failStale now stale =>
    simp only [Recovery.step, Option.ite_none_right_eq_some, Option.some.injEq] at h
    obtain ⟨⟨-,hlists⟩,rfl⟩ := h
    obtain ⟨hnodup,hactive,-⟩ := listsStale_iff hlists
    exact failStaleRuns_induct (P := fun db => db.actions = s.db.actions) (fun _ _ _ hdb _ _ => hdb) hnodup
      hactive rfl

/-- A call moves on, with whatever its session has written: `u` is the state in which
only the program point of the call is still the old one. -/
theorem Authorized.moved {settings : Settings} {s : Sys} (h : Authorized settings s) (u : Sys) (new : List Event)
    (hcalls : u.calls = s.calls) (hnext : u.nextCall = s.nextCall) (hlog : u.log = new ++ s.log)
    (hquiet : ∀ c vector, .launched c vector ∉ new)
    (hactions : ∀ action ∈ s.server.db.actions, ∃ action' ∈ u.server.db.actions, action'.id = action.id)
    (hrequests : ∀ a request, u.approvals a = some request →
      s.approvals a = some request ∨ RequestSound u.log a request)
    {c : CallId} {call : Call} (row : s.calls c = some call) {pc : Pc}
    (hpoint : PointSound u.log u.server.db.actions c call.definition pc)
    (hbegun : pc.begun = true ∨ call.pc.begun = false) : Authorized settings (u.goto c call pc) := by
  refine h.quiet new hlog hquiet hactions hrequests ?_ hnext.ge
  intro c' call' hc
  by_cases hcc : c' = c
  · subst hcc
    obtain rfl : { call with pc := pc } = call' := by simpa [Sys.goto, Sys.setCall] using hc
    have hold := h.calls c' call row
    have hgrow : ∀ e ∈ s.log, e ∈ u.log := by
      intro e he
      rw [hlog]
      exact List.mem_append_right _ he
    refine .inr ⟨lt_of_lt_of_eq (h.known c' call row) hnext.symm,hgrow _ hold.executed,hold.admitted,hpoint,?_⟩
    intro hpc vector hl
    rcases hbegun with hb | hb
    · rw [hb] at hpc
      cases hpc
    · change .launched c' vector ∈ u.log at hl
      rw [hlog] at hl
      exact hold.unlaunched hb vector ((List.mem_append.mp hl).resolve_left (hquiet c' vector))
  · exact .inl (by simpa [Sys.goto, Sys.setCall, Function.update_of_ne hcc, hcalls] using hc)

/-- A call is over. -/
theorem Authorized.over {settings : Settings} {s : Sys} (h : Authorized settings s) (t : Sys) (new : List Event)
    (c : CallId) (hcalls : t.calls = (s.leave c).calls) (hnext : t.nextCall = s.nextCall) (hlog : t.log = new ++ s.log)
    (hquiet : ∀ c vector, .launched c vector ∉ new)
    (hactions : ∀ action ∈ s.server.db.actions, ∃ action' ∈ t.server.db.actions, action'.id = action.id)
    (hrequests : ∀ a request, t.approvals a = some request →
      s.approvals a = some request ∨ RequestSound t.log a request) : Authorized settings t := by
  refine h.quiet new hlog hquiet hactions hrequests ?_ hnext.ge
  intro c' call' hc
  rw [hcalls] at hc
  exact .inl (leave_calls hc)

theorem requests_setApproval {s : Sys} {log : List Event} {a : ApprovalId} {moved : Approval}
    (h : RequestSound log a moved) : ∀ b request, (s.setApproval a moved).approvals b = some request →
      s.approvals b = some request ∨ RequestSound log b request := by
  intro b request hb
  by_cases hba : b = a
  · subst hba
    obtain rfl : moved = request := by simpa [Sys.setApproval] using hb
    exact .inr h
  · exact .inl (by simpa [Sys.setApproval, Function.update_of_ne hba] using hb)

theorem requests_addApproval {s : Sys} {log : List Event} {request : Approval} (h : request.decision = none) :
    ∀ b other, (s.addApproval request).approvals b = some other →
      s.approvals b = some other ∨ RequestSound log b other := by
  intro b other hb
  by_cases hba : b = s.nextApproval
  · subst hba
    obtain rfl : request = other := by simpa [Sys.addApproval] using hb
    exact .inr ⟨by simp [h],by simp [h]⟩
  · exact .inl (by simpa [Sys.addApproval, Function.update_of_ne hba] using hb)

theorem recordActionIntent_adds {db : Database} {r : RunId} {invocation : Option InvocationId} {actionType : String}
    {recorded : Database × EntryId} (h : recordActionIntent db r invocation actionType = some recorded) :
    (∀ action ∈ db.actions, action ∈ recorded.1.actions) ∧ ∃ action ∈ recorded.1.actions, action.id = recorded.2 := by
  simp only [recordActionIntent, Option.ite_none_right_eq_some, Option.some.injEq] at h
  obtain ⟨-,rfl⟩ := h
  exact ⟨fun action haction => List.mem_append_left _ haction,
    _,List.mem_append_right _ (List.mem_singleton_self _),rfl⟩

theorem point_afterDecision {log : List Event} {actions : List ActionRecord} {c : CallId} {call : Call}
    {invocation : InvocationId} {a : ApprovalId} {status : ApprovalStatus} (hcreated : .approvalCreated c a ∈ log)
    (happroved : status = .approved → .decided a true ∈ log) (hpending : status ≠ .pending) :
    PointSound log actions c call.definition (afterDecision call invocation a status) := by
  match status with
  | .rejected | .expired | .cancelled => trivial
  | .pending => exact absurd rfl hpending
  | .approved => exact fun _ => ⟨a,hcreated,happroved rfl⟩

/-- A call goes into its body and launches. -/
theorem Authorized.launch {settings : Settings} {s : Sys} (h : Authorized settings s) {c : CallId} {call : Call}
    {invocation : InvocationId} {approval : Option ApprovalId} {entry : EntryId} {vector : List String}
    (row : s.calls c = some call) (pc : call.pc = .begin invocation approval entry)
    (launch : enterBody settings call = .ok (some vector)) :
    Authorized settings (((s.note (.bodyStarted c call.runId entry)).note (.launched c vector)).goto c call
      (.body invocation approval entry)) := by
  have hcall := h.calls c call row
  obtain ⟨htool,hlookup⟩ := enterBody_launch launch
  obtain ⟨henabled,hid,hneeds,hkeys,harguments⟩ := admit_desktop hcall.admitted htool hlookup
  have hpoint := hcall.point
  rw [pc] at hpoint
  obtain ⟨a,hcreated,hdecided⟩ := hpoint.1 hneeds
  have hunlaunched := hcall.unlaunched (by rw [pc]; rfl)
  have hjustified : Justified settings (.bodyStarted c call.runId entry :: s.log) c vector := by
    refine ⟨henabled,⟨call.runId,call.arguments,call.applicationId,?_,hkeys,harguments,hlookup⟩,
      ⟨a,List.mem_cons_of_mem _ hcreated,List.mem_cons_of_mem _ hdecided⟩,
      ⟨entry,List.mem_cons_of_mem _ hpoint.2⟩,?_⟩
    · rw [← hid]
      exact List.mem_cons_of_mem _ hcall.executed
    · intro other hl
      exact hunlaunched other (List.mem_of_ne_of_mem (by simp) hl)
  have hgrow : ∀ e ∈ s.log, e ∈ .launched c vector :: .bodyStarted c call.runId entry :: s.log :=
    fun e he => List.mem_cons_of_mem _ (List.mem_cons_of_mem _ he)
  refine ⟨?_,?_,?_,?_,⟨hjustified,h.justified⟩⟩
  · intro b request hb
    exact (h.requests b request hb).mono hgrow
  · intro c' call' hc
    by_cases hcc : c' = c
    · subst hcc
      obtain rfl : { call with pc := .body invocation approval entry } = call' := by
        simpa [Sys.goto, Sys.setCall] using hc
      exact ⟨hgrow _ hcall.executed,hcall.admitted,trivial,fun hpc => by cases hpc⟩
    · have hold : s.calls c' = some call' := by
        simpa [Sys.goto, Sys.setCall, Sys.note, Function.update_of_ne hcc] using hc
      refine (h.calls c' call' hold).mono hgrow ?_ fun action haction => ⟨action,haction,rfl⟩
      intro other hl
      rcases List.mem_cons.mp hl with heq | hl
      · exact absurd (Event.launched.inj heq).1 hcc
      · exact List.mem_of_ne_of_mem (by simp) hl
  · intro c' call' hc
    by_cases hcc : c' = c
    · subst hcc
      exact h.known c' call row
    · exact h.known c' call' (by simpa [Sys.goto, Sys.setCall, Sys.note, Function.update_of_ne hcc] using hc)
  · intro c' other hl
    rcases List.mem_cons.mp hl with heq | hl
    · rw [(Event.launched.inj heq).1]
      exact h.known c call row
    · exact h.launches c' other (List.mem_of_ne_of_mem (by simp) hl)

theorem step_authorized {cfg : Config} {settings : Settings} {l : Label} {s t : Sys} (h : Authorized settings s)
    (hkeeps : keepsAgents l s) (he : step cfg settings l s = some t) : Authorized settings t := by
  have hid : ∀ action ∈ s.server.db.actions, ∃ action' ∈ s.server.db.actions, action'.id = action.id :=
    fun action haction => ⟨action,haction,rfl⟩
  have hupdate : ∀ entry status now, ∀ action ∈ s.server.db.actions,
      ∃ action' ∈ (updateAction s.server.db entry status now).actions, action'.id = action.id := by
    intro entry status now action haction
    obtain ⟨action',haction',hid',-⟩ := updateAction_keeps entry status now haction
    exact ⟨action',haction',hid'⟩
  rcases step_next he with ⟨l',server,rfl,hmanager,hran,rfl⟩ | hn
  · have hsame := manager_actions hmanager (fun a ha => hkeeps a (congrArg _ ha)) hran
    refine h.quiet [] rfl (by simp) ?_ (fun _ _ ha => .inl ha) (fun _ _ hc => .inl hc) le_rfl
    intro action haction
    exact ⟨action,hsame ▸ haction,rfl⟩
  cases hn with
  | refused r toolId arguments result =>
    exact h.quiet [.returned s.nextCall result,.executed s.nextCall r toolId arguments] rfl (by simp) hid
      (fun _ _ ha => .inl ha) (fun _ _ hc => .inl hc) (Nat.le_succ _)
  | entered r toolId arguments definition applicationId admitted =>
    refine h.quiet [.executed s.nextCall r toolId arguments] rfl (by simp) hid (fun _ _ ha => .inl ha) ?_
      (Nat.le_succ _)
    intro c call hc
    by_cases hcc : c = s.nextCall
    · subst hcc
      obtain rfl : _ = call := by simpa [Sys.setCall] using hc
      refine .inr ⟨Nat.lt_succ_self _,List.mem_cons_self,admitted,trivial,fun _ vector hl => ?_⟩
      exact absurd (h.launches _ vector (List.mem_of_ne_of_mem (by simp) hl)) (lt_irrefl _)
    · exact .inl (by simpa [Sys.setCall, Sys.enter, Function.update_of_ne hcc] using hc)
  | inserted c call row pc =>
    refine h.moved (s.addInvocation (newInvocation call)) [] rfl rfl rfl (by simp) hid (fun _ _ ha => .inl ha) row
      ?_ (.inr (by rw [pc]; rfl))
    split
    · trivial
    next hneeds => exact fun hn => absurd hn hneeds
  | requested c call invocation request row pc undecided =>
    exact h.moved ((s.addApproval request).note (.approvalCreated c s.nextApproval))
      [.approvalCreated c s.nextApproval] rfl rfl rfl (by simp) hid (requests_addApproval undecided) row
      (List.mem_cons_self) (.inr (by rw [pc]; rfl))
  | linked c call invocation approval f row pc =>
    have hpoint := (h.calls c call row).point
    rw [pc] at hpoint
    exact h.moved (s.updateInvocation invocation f) [] rfl rfl rfl (by simp) hid (fun _ _ ha => .inl ha) row hpoint
      (.inr (by rw [pc]; rfl))
  | resolved c call invocation approval status row pc found =>
    have hpoint := (h.calls c call row).point
    rw [pc] at hpoint
    refine h.moved s [] rfl rfl rfl (by simp) hid (fun _ _ ha => .inl ha) row
      (point_afterDecision hpoint ?_ ?_) (.inr (by rw [pc]; rfl))
    · rintro rfl
      rcases found with hc | ⟨request,hrequest,hdecision⟩
      · cases hc
      · exact (h.requests approval request hrequest).approved hdecision
    · rintro rfl
      rcases found with hc | ⟨request,hrequest,hdecision⟩
      · cases hc
      · exact (h.requests approval request hrequest).decided hdecision
  | finishedRefused c invocation f result =>
    exact h.over _ [.returned c result] c rfl rfl rfl (by simp) hid fun _ _ ha => .inl ha
  | intended c call invocation approval recorded row pc committed =>
    have hpoint := (h.calls c call row).point
    rw [pc] at hpoint
    obtain ⟨hold,hnew⟩ := recordActionIntent_adds committed
    exact h.moved (s.setDb recorded.1) [] rfl rfl rfl (by simp) (fun action haction => ⟨action,hold action haction,rfl⟩)
      (fun _ _ ha => .inl ha) row ⟨hpoint,hnew⟩ (.inr (by rw [pc]; rfl))
  | started c call invocation approval entry now row pc =>
    have hpoint := (h.calls c call row).point
    rw [pc] at hpoint
    exact h.moved ((s.setDb (updateAction s.server.db entry .started now)).note (.actionStarted c entry))
      [.actionStarted c entry] rfl rfl rfl (by simp) (hupdate entry .started now) (fun _ _ ha => .inl ha) row
      ⟨OwnApproval.mono (fun e he => List.mem_cons_of_mem _ he) hpoint.1,List.mem_cons_self⟩
      (.inr (by rw [pc]; rfl))
  | startedMissing c call invocation approval entry now row pc missing =>
    have hpoint := (h.calls c call row).point
    rw [pc] at hpoint
    obtain ⟨action,haction,hentry⟩ := hpoint.2
    exact absurd hentry (missing action haction)
  | bodyRaised c call invocation approval entry row pc =>
    exact h.over _ [.bodyStarted c call.runId entry] c rfl rfl rfl (by simp) hid fun _ _ ha => .inl ha
  | bodyEntered c call invocation approval entry row pc =>
    exact h.moved (s.note (.bodyStarted c call.runId entry)) [.bodyStarted c call.runId entry] rfl rfl rfl (by simp)
      hid (fun _ _ ha => .inl ha) row trivial (.inl rfl)
  | bodyLaunched c call invocation approval entry vector row pc launch => exact h.launch row pc launch
  | bodyEnded c call invocation approval entry result status row pc =>
    exact h.moved s [] rfl rfl rfl (by simp) hid (fun _ _ ha => .inl ha) row trivial (.inl rfl)
  | completed c call invocation f result entry status row pc =>
    exact h.moved (s.updateInvocation invocation f) [] rfl rfl rfl (by simp) hid (fun _ _ ha => .inl ha) row trivial
      (.inl rfl)
  | settled c result entry status now =>
    exact h.over _ [.returned c result] c rfl rfl rfl (by simp) (hupdate entry status now) fun _ _ ha => .inl ha
  | left c => exact h.over _ [] c rfl rfl rfl (by simp) hid fun _ _ ha => .inl ha
  | expired c call invocation approval request row pc found =>
    have hpoint := (h.calls c call row).point
    rw [pc] at hpoint
    exact h.moved (s.setApproval approval request.expire) [] rfl rfl rfl (by simp) hid
      (requests_setApproval (Approval.expire_sound (h.requests approval request found))) row
      (point_afterDecision hpoint (by simp) (by simp)) (.inr (by rw [pc]; rfl))
  | waitCancelled c approval request found =>
    exact h.over _ [] c rfl rfl rfl (by simp) hid
      (requests_setApproval (Approval.cancel_sound (h.requests approval request found)))
  | approvalAdded request undecided =>
    exact h.quiet [] rfl (by simp) hid (requests_addApproval undecided) (fun _ _ hc => .inl hc) le_rfl
  | approvalDecided a request moved approved now found decided =>
    exact h.quiet [.decided a approved] rfl (by simp) hid
      (requests_setApproval (Approval.decide_sound (h.requests a request found) decided))
      (fun _ _ hc => .inl hc) le_rfl
  | approvalLapsed a request moved approved now found decided =>
    exact h.quiet [] rfl (by simp) hid
      (requests_setApproval (Approval.decide_sound (h.requests a request found) decided))
      (fun _ _ hc => .inl hc) le_rfl
  | approvalCancelled a request found =>
    exact h.quiet [] rfl (by simp) hid
      (requests_setApproval (Approval.cancel_sound (h.requests a request found)))
      (fun _ _ hc => .inl hc) le_rfl
  | crashed => exact h.quiet [] rfl (by simp) hid (fun _ _ ha => by cases ha) (fun _ _ hc => by cases hc) le_rfl

/-- Every launch has its own approval, given beforehand by a decision, a STARTED entry
committed beforehand, the configured vector of an allowlisted alias, and is the only one
of its call, under every interleaving of calls, decisions, cancellations and timeouts. -/
theorem launch_authorized (cfg : Config) (settings : Settings) (server : Recovery.Sys) (s : Sys)
    (h : Reaches (step cfg settings) keepsAgents (Sys.initial server) s)
    (later earlier : List Event) (c : CallId) (vector : List String)
    (hlog : s.log = later ++ .launched c vector :: earlier) : Justified settings earlier c vector := by
  have hauthorized : Authorized settings s :=
    h.invariant (I := fun u => Authorized settings u) (fun _ _ _ hs hok he => step_authorized hs hok he)
      (Authorized.initial settings server)
  have hjustified := hauthorized.justified
  rw [hlog] at hjustified
  exact hjustified.of_mem

theorem launch_authorized_browser :
    ∃ earlier, crashedInBody.log = [] ++ .launched 0 ["safe-browser"] :: earlier ∧
      Justified sampleSettings earlier 0 ["safe-browser"] := by
  have hok : ExecOk (step sampleConfig sampleSettings) (fun l s => keepsAgents l s) launchLabels
      (Sys.initial Recovery.Sys.initial) := by
    refine execOk_of_all (fun l hl s a he => ?_) _
    subst he
    simp [launchLabels] at hl
  exact ⟨_,rfl,launch_authorized sampleConfig sampleSettings Recovery.Sys.initial crashedInBody
    (after_reaches _ _ hok) [] _ 0 ["safe-browser"] rfl⟩

end AgentGraph.Tools
