import AgentGraph.Providers.OpenCode

/-! # No session is left behind

Whatever the client and the cancellations do, the second cleanup of the `finally` makes up for
one that was cut short.
-/
set_option autoImplicit false
namespace AgentGraph.OpenCode
open Models Transition

variable {call : Call} {l : Label} {s t : State} {id : Json}

/-! ## Deletion -/

/-- A cleanup in an exception clause may still be cut short before it deletes the session. -/
def Deleting (s : State) : Prop :=
  match s.pc with
  | .session => s.session = none
  | .message session => s.session = session
  | .cleaning id task _ site => s.session = some id ∧
      (.delete id ∈ s.issued ∨ (∃ raises, site = .clause raises) ∧ (task = .aborting ∨ ∃ e, task = .done (some e)))
  | .exited _ => ∀ id, s.session = some id → .delete id ∈ s.issued

namespace Deleting

theorem exit (h : ∀ id, s.session = some id → .delete id ∈ s.issued) (result : Except Exc Models.ModelResponse) :
    Deleting (s.exit result) := h

theorem conclude (h : ∀ id, s.session = some id → .delete id ∈ s.issued) (call : Call) (pending : Pending) :
    Deleting (s.conclude call pending) := by
  cases pending with
  | error e => exact exit h _
  | ok message => exact exit h _

theorem clean (h : s.session = some id) (abort : Bool) (raises : Exc) : Deleting (s.clean id abort (.clause raises)) := by
  cases abort with
  | true => exact ⟨h,.inr ⟨⟨raises,rfl⟩,.inl rfl⟩⟩
  | false => exact ⟨h,.inl (List.mem_append_right _ List.mem_cons_self)⟩

theorem finish (call : Call) (pending : Pending) : Deleting (s.finish call s.session pending) := by
  unfold State.finish
  split
  next id hid => exact ⟨hid,.inl (List.mem_append_right _ List.mem_cons_self)⟩
  next hnone => exact conclude (fun id hid => (by rw [hnone] at hid; cases hid)) call pending

theorem handle (call : Call) (messageStarted : Bool) (e : Exc) : Deleting (s.handle call s.session messageStarted e) := by
  unfold State.handle
  split
  next abort raises id hclause hid => exact clean hid abort raises
  next raises hclause hnone =>
    have hfinish := finish (s := s) call (.error raises)
    rw [hnone] at hfinish
    exact hfinish
  · exact finish call _

/-- A cleanup that returns has deleted the session, and so has one in the `finally`. -/
theorem leave (h : s.session = some id) (site : Site) (raised : Option Exc)
    (hdeleted : raised = none ∨ (∃ pending, site = .final pending) → .delete id ∈ s.issued) :
    Deleting (s.leave call id site raised) := by
  have hall (hid : .delete id ∈ s.issued) : ∀ id', s.session = some id' → .delete id' ∈ s.issued := fun id' hid' => by
    obtain rfl : id = id' := Option.some.inj (h.symm.trans hid')
    exact hid
  cases site with
  | clause raises =>
    cases raised with
    | none => exact exit (hall (hdeleted (.inl rfl))) _
    | some e =>
      have hfinish := finish (s := s) call (.error e)
      rw [h] at hfinish
      exact hfinish
  | final pending =>
    cases raised with
    | none => exact conclude (hall (hdeleted (.inl rfl))) call pending
    | some e => exact exit (hall (hdeleted (.inr ⟨pending,rfl⟩))) _

theorem proceed {task task' : Cleanup} {result : Except Exc Unit} {site : Site} (hid : s.session = some id)
    (h : .delete id ∈ s.issued ∨ (∃ raises, site = .clause raises) ∧ (task = .aborting ∨ ∃ e, task = .done (some e)))
    (hp : task.proceed result = some task') (direct : Bool) : Deleting (s.proceed id direct site task') := by
  cases task with
  | aborting =>
    have hcut (e : Exc) : Deleting (s.proceed id direct site (.done (some e))) :=
      ⟨hid,h.imp_right fun ⟨hsite,_⟩ => ⟨hsite,.inr ⟨e,rfl⟩⟩⟩
    have hdelete : Deleting (s.proceed id direct site .deleting) := ⟨hid,.inl (List.mem_append_right _ List.mem_cons_self)⟩
    cases result with
    | ok =>
      cases hp
      exact hdelete
    | error e =>
      cases hp
      split
      · exact hdelete
      · exact hcut e
  | deleting =>
    have hissued : .delete id ∈ s.issued := by
      rcases h with h | ⟨-,h | ⟨e,h⟩⟩
      · exact h
      · cases h
      · cases h
    cases result <;> cases hp <;> exact ⟨hid,.inl hissued⟩
  | done raised => cases hp

end Deleting

theorem deleting_start (call : Call) : Deleting (start call) := by
  unfold start
  split
  · exact fun id hid => (by cases hid)
  · rfl

theorem deleting_step (hs : Deleting s) (h : step call l s = some t) : Deleting t := by
  unfold Deleting at hs
  unfold step at h
  split at h
  next outcome hpc =>
    simp only [hpc] at hs
    split at h
    next e he =>
      cases h
      exact hs ▸ Deleting.handle call false e
    next id he =>
      cases h
      rfl
  next outcome session hpc =>
    simp only [hpc] at hs
    split at h
    next e he =>
      cases h
      exact hs ▸ Deleting.handle call true e
    next message he =>
      cases h
      exact hs ▸ Deleting.finish call (.ok message)
  next hpc =>
    simp only [hpc] at hs
    cases h
    exact hs ▸ Deleting.handle call false .cancelled
  next session hpc =>
    simp only [hpc] at hs
    cases h
    exact hs ▸ Deleting.handle call true .cancelled
  next session raised site hpc =>
    simp only [hpc] at hs
    cases h
    refine Deleting.leave hs.1 site _ ?_
    rintro (hnone | ⟨pending,rfl⟩)
    · cases hnone
    · exact hs.2.resolve_right fun ⟨⟨raises,hsite⟩,_⟩ => (by cases hsite)
  next session task site hpc =>
    simp only [hpc] at hs
    cases h
    exact hs
  next session raised site hpc =>
    simp only [hpc] at hs
    cases h
    refine Deleting.leave hs.1 site _ ?_
    rintro (hnone | ⟨pending,rfl⟩)
    · cases hnone
    · exact hs.2.resolve_right fun ⟨⟨raises,hsite⟩,_⟩ => (by cases hsite)
  next session task site hpc =>
    simp only [hpc] at hs
    cases h
    exact ⟨hs.1,hs.2.imp_right fun ⟨hsite,_⟩ => ⟨hsite,.inr ⟨_,rfl⟩⟩⟩
  next outcome session task direct site hpc =>
    simp only [hpc] at hs
    obtain ⟨task',hp,rfl⟩ := Option.map_eq_some_iff.mp h
    exact Deleting.proceed hs.1 hs.2 hp direct
  next session task direct site hpc =>
    simp only [hpc] at hs
    obtain ⟨task',hp,rfl⟩ := Option.map_eq_some_iff.mp h
    exact Deleting.proceed hs.1 hs.2 hp direct
  next session raised direct site hpc =>
    simp only [hpc] at hs
    cases h
    refine Deleting.leave hs.1 site _ ?_
    rintro (hnone | ⟨pending,rfl⟩)
    · refine hs.2.resolve_right fun ⟨_,hcut⟩ => ?_
      rcases hcut with hcut | ⟨e,hcut⟩
      · cases hcut
      · cases hcut
        cases direct <;> cases hnone
    · exact hs.2.resolve_right fun ⟨⟨raises,hsite⟩,_⟩ => (by cases hsite)
  · cases h

/-! ## The exceptions of a reply -/

/-- A reading that some clause of `complete` catches, if it raises. -/
def Caught {α : Type} (x : Except Exc α) : Prop := x ≠ .error (.failure .other)

theorem Caught.bind {α β : Type} {x : Except Exc α} {f : α → Except Exc β} (hx : Caught x) (hf : ∀ a, Caught (f a)) :
    Caught (x >>= f) := by
  cases x with
  | error e => exact fun h => hx (by cases h; rfl)
  | ok a => exact hf a

theorem caught_ok {α : Type} (a : α) : Caught (.ok a : Except Exc α) := fun h => (by cases h)

theorem caught_valueError {α : Type} : Caught (valueError : Except Exc α) := fun h => (by cases h)

theorem caught_raiseStatus (reply : Response) : Caught reply.raiseStatus := by
  unfold Response.raiseStatus Response.raiseForStatus
  split_ifs <;> exact fun h => (by cases h)

theorem caught_decode {reply : Response} (h : reply.json ≠ .error .other) : Caught reply.decode := by
  unfold Response.decode
  cases hjson : reply.json with
  | ok json => exact caught_ok json
  | error failure => exact fun hf => h (by cases hf; exact hjson)

theorem caught_subscript (value : Json) (key : String) : Caught (subscript value key) := by
  unfold subscript
  split
  next fields =>
    cases fields.lookup key with
    | none => exact caught_valueError
    | some value => exact caught_ok value
  · exact caught_valueError

theorem caught_messageError (host : Host) (error : Json) : messageError host error ≠ .failure .other := by
  simp only [messageError, routerError]
  split_ifs <;> exact fun h => (by cases h)

theorem caught_message {reply : Response} (host : Host) (h : reply.json ≠ .error .other) : Caught (reply.message host) := by
  refine (caught_raiseStatus reply).bind fun _ => (caught_decode h).bind fun payload =>
    (caught_subscript payload "info").bind fun info => (caught_subscript payload "parts").bind fun parts => ?_
  split
  · split
    · exact caught_valueError
    · split
      · exact fun he => caught_messageError host _ (Except.error.inj he)
      · dsimp only
        split
        · exact caught_valueError
        · split
          · exact caught_valueError
          · exact caught_ok _
  · exact caught_valueError

theorem Outcome.Caught.bind {α : Type} {outcome : Outcome} {read : Response → Except Exc α} (h : outcome.Caught)
    (hread : ∀ reply : Response, reply.json ≠ .error .other → OpenCode.Caught (read reply)) : OpenCode.Caught (outcome.bind read) := by
  cases outcome with
  | raised failure => exact fun he => h (by cases he; rfl)
  | response reply => exact hread reply h

/-! ## Aborts and exceptions -/

/-- What callers expect to be raised. -/
def Exc.Regular (e : Exc) : Prop := e = .cancelled ∨ ∃ error, e = .router error

def Site.Regular : Site → Prop
  | clause raises => raises.Regular
  | final pending => ∀ e, pending = .error e → e.Regular

def Settled (id : Json) (s : State) : Prop := s.answered = true ∨ AbortedFirst id s.issued

/-- Every cleanup belongs to an answered message or has been preceded by an abort. -/
def Orderly (s : State) : Prop :=
  match s.pc with
  | .session => s.session = none ∧ ∀ id, .delete id ∉ s.issued
  | .message session => s.session = session ∧ ∀ id, .delete id ∉ s.issued
  | .cleaning id task _ site =>
    s.session = some id ∧ Settled id s ∧ (∀ e, task = .done (some e) → e.Regular) ∧ site.Regular
  | .exited result => (∀ id, s.session = some id → Settled id s) ∧ ∀ e, result = .error e → e.Regular

theorem AbortedFirst.append {issued : List Request} (h : AbortedFirst id issued) (more : List Request) :
    AbortedFirst id (issued ++ more) := by
  obtain ⟨before,after,rfl,hbefore⟩ := h
  exact ⟨before,after ++ more,by simp,hbefore⟩

theorem clauseOf_regular {messageStarted abort : Bool} {e raises : Exc} (h : State.clauseOf messageStarted e = some (abort,raises)) :
    raises.Regular ∧ (messageStarted = true → abort = true) := by
  cases e with
  | cancelled =>
    cases h
    exact ⟨.inl rfl,fun _ => rfl⟩
  | router error =>
    cases h
    exact ⟨.inr ⟨error,rfl⟩,id⟩
  | failure failure =>
    cases failure with
    | other => cases h
    | timeout | http | value =>
      cases h
      exact ⟨.inr ⟨_,rfl⟩,id⟩

namespace Orderly

theorem conclude {pending : Pending} (h : ∀ id, s.session = some id → Settled id s)
    (hpending : ∀ e, pending = .error e → e.Regular) (call : Call) : Orderly (s.conclude call pending) := by
  cases pending with
  | error e => exact ⟨h,fun e' he => Except.error.inj he ▸ hpending e rfl⟩
  | ok message =>
    refine ⟨h,fun e he => ?_⟩
    cases hresponse : call.response message with
    | ok response =>
      rw [hresponse] at he
      cases he
    | error error =>
      rw [hresponse] at he
      cases he
      exact .inr ⟨error,rfl⟩

theorem finish {pending : Pending} (h : ∀ id, s.session = some id → Settled id s)
    (hpending : ∀ e, pending = .error e → e.Regular) (call : Call) : Orderly (s.finish call s.session pending) := by
  unfold State.finish
  split
  next id hid =>
    exact ⟨hid,(h id hid).imp_right fun haborted => haborted.append _,fun e he => (by cases he),hpending⟩
  · exact conclude h hpending call

/-- An exception that a clause catches leaves the `try` before anything was deleted. -/
theorem handle {messageStarted : Bool} {e : Exc} (he : e ≠ .failure .other) (hstarted : s.session ≠ none → messageStarted = true)
    (hissued : s.session ≠ none → ∀ id, .delete id ∉ s.issued) (call : Call) :
    Orderly (s.handle call s.session messageStarted e) := by
  unfold State.handle
  split
  next abort raises id hclause hid =>
    obtain ⟨hregular,habort⟩ := clauseOf_regular hclause
    have hsome : s.session ≠ none := by simp [hid]
    rw [habort (hstarted hsome)]
    exact ⟨hid,.inr ⟨s.issued,[],rfl,hissued hsome id⟩,fun e he => (by cases he),hregular⟩
  next raises hclause hnone =>
    exact conclude (fun id hid => (by rw [hnone] at hid; cases hid))
      (fun e' he' => Except.error.inj he' ▸ (clauseOf_regular hclause).1) call
  next hclause =>
    cases e with
    | cancelled => cases hclause
    | router error => cases hclause
    | failure failure =>
      cases failure with
      | other => exact absurd rfl he
      | timeout | http | value => cases hclause

theorem leave {site : Site} {raised : Option Exc} (hid : s.session = some id) (hsettled : Settled id s) (hsite : site.Regular)
    (hraised : ∀ e, raised = some e → e.Regular) (call : Call) : Orderly (s.leave call id site raised) := by
  have hall : ∀ id', s.session = some id' → Settled id' s := fun id' hid' => by
    obtain rfl : id = id' := Option.some.inj (hid.symm.trans hid')
    exact hsettled
  cases site with
  | clause raises =>
    cases raised with
    | none => exact conclude hall (fun e he => Except.error.inj he ▸ hsite) call
    | some e =>
      have hpending : ∀ e', (.error e : Pending) = .error e' → e'.Regular := fun e' he => Except.error.inj he ▸ hraised e rfl
      have hfinish := finish hall hpending call
      rw [hid] at hfinish
      exact hfinish
  | final pending =>
    cases raised with
    | none => exact conclude hall hsite call
    | some e => exact ⟨hall,fun e' he => Except.error.inj he ▸ hraised e rfl⟩

theorem proceed {task task' : Cleanup} {result : Except Exc Unit} {site : Site} (hid : s.session = some id)
    (hsettled : Settled id s) (hsite : site.Regular) (hresult : ∀ e, result = .error e → e.swallowed = true)
    (hp : task.proceed result = some task') (direct : Bool) : Orderly (s.proceed id direct site task') := by
  have hdelete : Orderly (s.proceed id direct site .deleting) :=
    ⟨hid,hsettled.imp_right fun haborted => haborted.append _,fun e he => (by cases he),hsite⟩
  have hdone : Orderly (s.proceed id direct site (.done none)) := ⟨hid,hsettled,fun e he => (by cases he),hsite⟩
  cases task with
  | aborting =>
    cases result with
    | ok =>
      cases hp
      exact hdelete
    | error e =>
      simp only [Cleanup.proceed, hresult e rfl, if_true] at hp
      cases hp
      exact hdelete
  | deleting =>
    cases result with
    | ok =>
      cases hp
      exact hdone
    | error e =>
      simp only [Cleanup.proceed, hresult e rfl, if_true] at hp
      cases hp
      exact hdone
  | done raised => cases hp

end Orderly

theorem orderly_start (call : Call) : Orderly (start call) := by
  unfold start
  split
  · exact ⟨fun id hid => (by cases hid),fun e he => Except.error.inj he ▸ .inr ⟨_,rfl⟩⟩
  · exact ⟨rfl,fun id hid => (by simp at hid)⟩

theorem raiseForStatus_swallowed {reply : Response} {e : Exc} (h : reply.raiseForStatus = .error e) : e.swallowed = true := by
  unfold Response.raiseForStatus at h
  split at h <;> cases h
  rfl

theorem orderly_step (hs : Orderly s) (hok : Ordinary call l s) (h : step call l s = some t) : Orderly t := by
  unfold Orderly at hs
  unfold step at h
  split at h
  next outcome hpc =>
    simp only [hpc] at hs
    obtain ⟨hnone,hissued⟩ := hs
    have hcaught : Caught (outcome.bind Response.sessionId) := hok.1.bind fun reply hjson =>
      (caught_raiseStatus reply).bind fun _ => (caught_decode hjson).bind fun json => caught_subscript json "id"
    split at h
    next e he =>
      cases h
      rw [← hnone]
      exact Orderly.handle (fun hother => hcaught (he.trans (by rw [hother]))) (fun hne => absurd hnone hne)
        (fun _ => hissued) call
    next id he =>
      cases h
      exact ⟨rfl,fun id' hid' => hissued id' (by simpa using hid')⟩
  next outcome session hpc =>
    simp only [hpc] at hs
    obtain ⟨rfl,hissued⟩ := hs
    have hcaught : Caught (outcome.bind (Response.message call.host)) := hok.1.bind fun reply => caught_message call.host
    split at h
    next e he =>
      cases h
      exact Orderly.handle (fun hother => hcaught (he.trans (by rw [hother]))) (fun _ => rfl) (fun _ => hissued) call
    next message he =>
      cases h
      have hanswered := hok.2 message he
      exact Orderly.finish (s := { s with answered := (call.response message).isOk }) (fun id _ => .inl hanswered)
        (fun e he' => (by cases he')) call
  next hpc =>
    simp only [hpc] at hs
    obtain ⟨hnone,hissued⟩ := hs
    cases h
    rw [← hnone]
    exact Orderly.handle (fun he => (by cases he)) (fun hne => absurd hnone hne) (fun _ => hissued) call
  next session hpc =>
    simp only [hpc] at hs
    obtain ⟨rfl,hissued⟩ := hs
    cases h
    exact Orderly.handle (fun he => (by cases he)) (fun _ => rfl) (fun _ => hissued) call
  next session raised site hpc =>
    simp only [hpc] at hs
    obtain ⟨hid,hsettled,htask,hsite⟩ := hs
    cases h
    refine Orderly.leave hid hsettled hsite (fun e he => ?_) call
    cases raised with
    | none => exact .inl (Option.some.inj he).symm
    | some raised => exact Option.some.inj he ▸ htask raised rfl
  next session task site hpc =>
    simp only [hpc] at hs
    cases h
    exact hs
  next session raised site hpc =>
    simp only [hpc] at hs
    obtain ⟨hid,hsettled,-,hsite⟩ := hs
    cases h
    exact Orderly.leave hid hsettled hsite (fun e he => .inl (Option.some.inj he).symm) call
  next session task site hpc =>
    simp only [hpc] at hs
    obtain ⟨hid,hsettled,-,hsite⟩ := hs
    cases h
    refine ⟨hid,hsettled,fun e he => ?_,hsite⟩
    cases he
    exact .inl rfl
  next outcome session task direct site hpc =>
    simp only [hpc] at hs
    obtain ⟨hid,hsettled,-,hsite⟩ := hs
    obtain ⟨task',hp,rfl⟩ := Option.map_eq_some_iff.mp h
    refine Orderly.proceed hid hsettled hsite (fun e he => ?_) hp direct
    cases outcome with
    | response reply => exact raiseForStatus_swallowed he
    | raised failure =>
      cases he
      rcases hok with rfl | rfl <;> rfl
  next session task direct site hpc =>
    simp only [hpc] at hs
    obtain ⟨hid,hsettled,-,hsite⟩ := hs
    obtain ⟨task',hp,rfl⟩ := Option.map_eq_some_iff.mp h
    refine Orderly.proceed hid hsettled hsite (fun e he => ?_) hp direct
    cases he
    rfl
  next session raised direct site hpc =>
    simp only [hpc] at hs
    obtain ⟨hid,hsettled,htask,hsite⟩ := hs
    cases h
    refine Orderly.leave hid hsettled hsite (fun e he => ?_) call
    cases raised with
    | none =>
      cases direct with
      | true => exact .inl (Option.some.inj he).symm
      | false => cases he
    | some raised =>
      refine htask e ?_
      cases direct <;> rw [← he] <;> rfl
  · cases h

/-! ## Every run -/

/-- However often the caller is cancelled and however its requests end, a session that was
obtained is deleted. Where the requests raise only what is caught, a message without an
answer is aborted first, and `complete` raises only what callers expect. -/
theorem session_cleaned (call : Call) (ls : List Label) :
    ExecAll (step call) Deleted ls (start call) ∧
      (ExecOk (step call) (Ordinary call) ls (start call) → ExecAll (step call) ExitsAsExpected ls (start call)) := by
  constructor
  · refine (execOk_anyStep ls (start call)).all (I := Deleting) (fun l s t hs _ h => deleting_step hs h) ?_ (deleting_start call)
    intro s hs result id hpc hid
    unfold Deleting at hs
    rw [hpc] at hs
    exact hs id hid
  · refine fun hok => hok.all (I := Orderly) (fun l s t hs hl h => orderly_step hs hl h) ?_ (orderly_start call)
    intro s hs result hpc
    unfold Orderly at hs
    rw [hpc] at hs
    refine ⟨fun id hid _ hanswered => (hs.1 id hid).resolve_left (by simp [hanswered]),hs.2⟩

/-! ## A call cancelled five times, and a session id that is no part of a URL -/

def sampleCall : Call :=
  ⟨⟨fun _ => "",fun text => text⟩,⟨⟨"opencode","openai/gpt-5"⟩,[⟨"user","hello",[]⟩]⟩,0⟩

def opened (id : String) : Label := .respond (.response ⟨200,.ok (.obj [("id",.str id)])⟩)

/-- The second and third cancellation end the first cleanup at its abort. -/
def cancelledCall : List Label := [opened "ses_cancel",.cancel,.cancel,.cancel,.resume,.cancel,.cancel,.resume]

def Pc.raised : Pc → Option Exc
  | exited (.error e) => some e
  | _ => none

theorem Pc.raised_eq {pc : Pc} {e : Exc} (h : pc.raised = some e) : pc = .exited (.error e) := by
  unfold raised at h
  split at h <;> cases h
  rfl

theorem cancelledCall_cleaned :
    (exec (step sampleCall) cancelledCall (start sampleCall)).map (fun s => (s.pc.raised,s.issued.length)) =
        some (some .cancelled,4) ∧
      ExecAll (step sampleCall) Deleted cancelledCall (start sampleCall) ∧
      ExecAll (step sampleCall) ExitsAsExpected cancelledCall (start sampleCall) := by
  refine ⟨by decide +kernel,(session_cleaned sampleCall cancelledCall).1,(session_cleaned sampleCall cancelledCall).2 ?_⟩
  refine execOk_of_all (fun l hl s => ?_) _
  have hl : l = opened "ses_cancel" ∨ l = .cancel ∨ l = .resume := by
    simp only [cancelledCall, List.mem_cons, List.not_mem_nil] at hl
    grind
  rcases hl with rfl | rfl | rfl
  · refine ⟨fun h => (by cases h),fun message h => ?_⟩
    have hinfo : (Outcome.response ⟨200,.ok (.obj [("id",.str "ses_cancel")])⟩).bind (Response.message sampleCall.host) =
        valueError := rfl
    rw [hinfo] at h
    cases h
  · trivial
  · trivial

/-- The client refuses to build a URL from the session id. -/
def unusableSession : List Label := [opened "ses\ntest",.respond (.raised .other),.cleaned (.raised .other),.resume]

theorem unusableSession_exits_unexpected :
    ¬ ExecAll (step sampleCall) ExitsAsExpected unusableSession (start sampleCall) := by
  have hrun : (exec (step sampleCall) unusableSession (start sampleCall)).map (fun s => s.pc.raised) =
      some (some (.failure .other)) := by decide +kernel
  obtain ⟨t,ht,hraised⟩ := Option.map_eq_some_iff.mp hrun
  intro hall
  rcases (hall.last ht _ (Pc.raised_eq hraised)).2 _ rfl with h | ⟨error,h⟩ <;> cases h

end AgentGraph.OpenCode
