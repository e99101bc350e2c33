import AgentGraph.Api.Forgery
import AgentGraph.Security.Failures

/-! # Replies to requests that fail

The routes catch what their services raise, but for a name or a credential that is taken, for
texts that `compare_digest` does not take and for deadlines that were read back without their
offset. A request that has failed leaves nothing behind but the audit row of its denial or the
expiry of an approval.
-/
set_option autoImplicit false
namespace AgentGraph.Api.Gateway
open Security hiding Settings Label step require
open Security.Operations hiding Label step
open Transition

variable {settings : Settings} {chance : Chance} {db : SecurityDb} {request : HttpRequest} {principal : Option SessionPrincipal}
  {p : SessionPrincipal} {operation : Option Operation} {stage : Stage}

/-- The stored deadlines that a request has compared with the clock. -/
inductive Compares (settings : Settings) (db : SecurityDb) (request : HttpRequest) : Security.Instant → Prop
  | session (row : SessionRecord Security.Instant) (hrow : row ∈ db.accounts.sessions)
      (hcookie : row.tokenHash = settings.tokenHash (request.cookie.getD "")) (hlive : row.revokedAt = none) :
    Compares settings db request row.expiresAt
  | registration (challenge : ChallengeId) (verification : Verification (String × Nat)) (record : ChallengeRecord Security.Instant)
      (h : request.endpoint = .passkeyRegistrationVerify challenge verification) (hrecord : db.accounts.challenges challenge = some record)
      (hunused : record.consumedAt = none) : Compares settings db request record.expiresAt
  | authentication (challenge : ChallengeId) (rawId : Option String) (verification : Verification Nat)
      (record : ChallengeRecord Security.Instant) (h : request.endpoint = .passkeyAuthenticationVerify challenge rawId verification)
      (hrecord : db.accounts.challenges challenge = some record) (hunused : record.consumedAt = none) :
    Compares settings db request record.expiresAt
  | approval (approval : ApprovalId) (decision : SecurityApprovalDecision) (record : ApprovalRecord Security.Instant)
      (h : request.endpoint = .decideApproval approval decision) (hrecord : db.approvals approval = some record) :
    Compares settings db request record.expiresAt

/-- What no route catches. -/
inductive Breaks (settings : Settings) (db : SecurityDb) (request : HttpRequest) : Prop
  | naive (expiresAt now : Security.Instant) (hcompared : Compares settings db request expiresAt) (h : settings.le? expiresAt now = none)
  | library (now : Security.Instant) (h : request.endpoint.raises settings db now = true)
  | csrf (csrf : String) (horigin : request.origin ∈ settings.allowedOrigins) (h : request.csrf = some csrf) (hforeign : isAscii csrf = false)
  | bootstrapSecret (username bootstrapSecret deviceName : String) (file : SecretFile)
      (h : request.endpoint = .bootstrap username bootstrapSecret deviceName file)
      (hforeign : isAscii bootstrapSecret = false ∨ ∃ text, file = some text ∧ isAscii (strip text) = false)
  | passkeyTaken (challenge : ChallengeId) (credentialId : String) (signCount : Nat)
      (h : request.endpoint = .passkeyRegistrationVerify challenge (.verified (credentialId,signCount)))
      (htaken : (db.accounts.passkeys.any fun row => row.credentialId == credentialId) = true)
  | nameTaken (name credentialType secret : String) (h : request.endpoint = .createVaultCredential name credentialType secret)
      (htaken : (db.vault.any fun row => row.name == name) = true)

/-! ## What the routes catch -/

/-- A route has a clause for the failure. -/
def Endpoint.Catches (endpoint : Endpoint) (e : Failure) : Prop := (endpoint.clauses.findSome? fun clause => clause.catches e).isSome = true

/-- The operation that the guard leads to, for the principal that it has found. -/
def Guard.Calls (principal : Option SessionPrincipal) (operation : Option Operation) : Guard → Prop
  | .nothing operation' => operation = operation'
  | .cookie operation' => operation = some operation'
  | .session _ _ operation' => ∃ p, principal = some p ∧ operation = operation' p
  | .permission _ => operation = none

/-- A failure of a route's operation is caught, but for the cases above. -/
theorem effect_failing {operation : Operation} (hfresh : Fresh settings chance db)
    (hcalls : request.endpoint.guard.Calls principal (some operation)) (hknown : ∀ p, principal = some p → (db.user p.userId).isSome) :
    Failing settings (fun e => request.endpoint.Catches e ∨ Breaks settings db request) db chance.now (operation.effect settings chance db) := by
  obtain ⟨page,endpoint,origin,cookie,csrf,loopback⟩ := request
  cases endpoint with
  | bootstrap username bootstrapSecret deviceName file =>
    cases hcalls
    refine bootstrap_failing (fun _ => .inl rfl) hfresh (fun _ => .inl rfl) ?_
    exact fun hforeign => .inr (.bootstrapSecret username bootstrapSecret deviceName file rfl hforeign)
  | passkeyRegistrationOptions deviceName =>
    obtain ⟨p,-,⟨⟩⟩ := hcalls
    exact beginPasskeyRegistration_failing (fun _ => .inl rfl) hfresh
  | passkeyRegistrationVerify challenge verification =>
    cases hcalls
    apply finishPasskeyRegistration_failing (fun _ => .inl rfl) hfresh
    · intro record hrecord hunused hnone
      exact .inr (.naive _ _ (.registration challenge verification record rfl hrecord hunused) hnone)
    · exact fun _ => .inl rfl
    · intro credentialId signCount hverified htaken
      cases verification with
      | verified value =>
        cases hverified
        exact .inr (.passkeyTaken challenge credentialId signCount rfl htaken)
      | refused => cases hverified
      | raised => cases hverified
  | passkeyAuthenticationOptions username =>
    cases hcalls
    exact beginPasskeyAuthentication_failing (fun _ => .inl rfl) hfresh
  | passkeyAuthenticationVerify challenge rawId verification =>
    cases hcalls
    apply finishPasskeyAuthentication_failing (fun _ => .inl rfl) hfresh
    · intro record hrecord hunused hnone
      exact .inr (.naive _ _ (.authentication challenge rawId verification record rfl hrecord hunused) hnone)
    · exact fun _ => .inl rfl
  | currentSession =>
    obtain ⟨p,-,⟨⟩⟩ := hcalls
  | logout =>
    obtain ⟨p,-,⟨⟩⟩ := hcalls
    exact logout_failing
  | beginTotpEnrollment =>
    obtain ⟨p,-,⟨⟩⟩ := hcalls
    exact .returns
  | confirmTotpEnrollment secret code base32 =>
    obtain ⟨p,-,⟨⟩⟩ := hcalls
    exact confirmTotpEnrollment_failing fun _ => .inl rfl
  | verifyTotp code =>
    obtain ⟨p,hp,⟨⟩⟩ := hcalls
    exact verifyTotp_failing (fun _ => .inl rfl) (hknown p hp)
  | listDevices =>
    obtain ⟨p,-,⟨⟩⟩ := hcalls
    exact .returns
  | renameDevice device displayName =>
    obtain ⟨p,-,⟨⟩⟩ := hcalls
    exact renameDevice_failing (.inl rfl)
  | trustDevice device =>
    obtain ⟨p,-,⟨⟩⟩ := hcalls
    exact trustDevice_failing (fun _ => .inl rfl) (.inl rfl) fun _ => .inl rfl
  | revokeDevice device =>
    obtain ⟨p,-,⟨⟩⟩ := hcalls
    exact revokeDevice_failing (fun _ => .inl rfl) (.inl rfl)
  | createApproval approval =>
    obtain ⟨p,-,⟨⟩⟩ := hcalls
    exact createApproval_failing (fun _ => .inl rfl) hfresh
  | decideApproval approval decision =>
    obtain ⟨p,-,⟨⟩⟩ := hcalls
    refine decideApproval_failing (fun _ => .inl rfl) hfresh ?_ (.inl rfl) fun _ => .inl rfl
    intro record hrecord hnone
    exact .inr (.naive _ _ (.approval approval decision record rfl hrecord) hnone)
  | revokeGrant grant =>
    obtain ⟨p,-,⟨⟩⟩ := hcalls
    exact revokeGrant_failing (fun _ => .inl rfl) (.inl rfl)
  | listApprovals | listGrants | lockdownState | listAudit =>
    obtain ⟨p,-,⟨⟩⟩ := hcalls
    exact require_failing (fun _ => .inl rfl) .returns
  | activateLockdown =>
    obtain ⟨p,-,⟨⟩⟩ := hcalls
    exact activateLockdown_failing fun _ => .inl rfl
  | deactivateLockdown =>
    obtain ⟨p,-,⟨⟩⟩ := hcalls
    exact deactivateLockdown_failing fun _ => .inl rfl
  | listVaultCredentials =>
    obtain ⟨p,-,⟨⟩⟩ := hcalls
    exact .returns
  | createVaultCredential name credentialType secret =>
    obtain ⟨p,hp,⟨⟩⟩ := hcalls
    refine create_failing (fun _ => .inl rfl) hfresh (hknown p hp) ?_
    exact fun htaken => .inr (.nameTaken name credentialType secret rfl htaken)
  | replaceVaultCredential credential secret =>
    obtain ⟨p,-,⟨⟩⟩ := hcalls
    exact replace_failing fun _ => .inl rfl
  | revokeVaultCredential credential =>
    obtain ⟨p,-,⟨⟩⟩ := hcalls
    exact revoke_failing fun _ => .inl rfl
  | runtime route => cases hcalls
  | health => cases hcalls

theorem success_lt {endpoint : Endpoint} {status : Nat} (h : endpoint.success = some status) : status < 400 := by
  unfold Endpoint.success at h
  split at h <;> cases h <;> decide

theorem success_none {endpoint : Endpoint} (h : endpoint.success = none) : endpoint = .logout := by
  unfold Endpoint.success at h
  split at h <;> first | rfl | cases h

theorem returned_status (endpoint : Endpoint) (value : Return) : (endpoint.returned settings value).status = endpoint.success := by
  unfold Endpoint.returned
  split
  · rfl
  · rfl
  · split <;> rfl

theorem vault_clause {endpoint : Endpoint} {status : Nat} (h : .vault status ∈ endpoint.clauses) : status = 403 ∨ status = 404 := by
  cases endpoint <;> simp_all [Endpoint.clauses]

/-- What a clause answers blames the client. -/
theorem clauses_status {endpoint : Endpoint} {clause : Clause} (h : clause ∈ endpoint.clauses) {e : Failure} {status : Nat} {detail : String}
    (hcatches : clause.catches e = some (status,detail)) : 400 ≤ status ∧ status < 500 := by
  unfold Clause.catches at hcatches
  split at hcatches
  iterate 5
    · cases hcatches
      decide
  next own message =>
    cases hcatches
    cases vault_clause h <;> omega
  · cases hcatches

theorem failed_status (endpoint : Endpoint) (e : Failure) :
    ∃ status, (endpoint.failed e).status = some status ∧ 400 ≤ status ∧ (status = 500 → ¬ endpoint.Catches e) := by
  unfold Endpoint.failed
  split
  next status detail hcaught =>
    obtain ⟨clause,hclause,hcatches⟩ := List.exists_of_findSome?_eq_some hcaught
    obtain ⟨hlow,hhigh⟩ := clauses_status hclause hcatches
    refine ⟨status,rfl,hlow,?_⟩
    rintro rfl
    exact absurd hhigh (by decide)
  next hnone =>
    refine ⟨500,rfl,by decide,?_⟩
    intro _ hcatches
    rw [Endpoint.Catches, hnone] at hcatches
    cases hcatches

/-! ## The stages -/

theorem identify_error {e : Failure} (h : identify settings chance db request = .error e) :
    (∃ message, e = .service (.authentication message)) ∨ Breaks settings db request := by
  unfold identify at h
  split at h
  · cases h
  · exact .inl ⟨_,(Except.error.inj h).symm⟩
  next e' hresult =>
    cases h
    have hfailing : Failing settings (fun e => (∃ message, e = .service (.authentication message)) ∨ Breaks settings db request) db chance.now
        (principalFromSessionToken settings chance db (request.cookie.getD "")) := by
      apply principalFromSessionToken_failing fun message => .inl ⟨message,rfl⟩
      intro record hrecord hhash hlive hnone
      exact .inr (.naive _ _ (.session record hrecord hhash hlive) hnone)
    exact (hfailing e hresult).1

theorem identify_user (h : identify settings chance db request = .ok p) : (db.user p.userId).isSome := by
  unfold identify principalFromSessionToken at h
  split at h
  next p' hresult =>
    cases h
    split at hresult
    · cases hresult
    · split at hresult
      · cases hresult
      · split at hresult
        next user device huser _ =>
          split at hresult
          · cases hresult
          · cases hresult
            have hid := List.find?_some huser
            rw [beq_iff_eq] at hid
            rw [← hid] at huser
            change (db.user user.id).isSome
            rw [huser]
            rfl
        · cases hresult
  · cases h
  · cases h

theorem checkCsrf_error {e : Failure} (h : checkCsrf settings request p = .error e) :
    (∃ message, e = .service (.authentication message)) ∨ Breaks settings db request := by
  unfold checkCsrf at h
  split at h
  next hforeign =>
    rw [Bool.and_eq_true, List.contains_iff_mem] at hforeign
    obtain ⟨horigin,hcsrf⟩ := hforeign
    cases hsome : request.csrf with
    | none =>
      rw [hsome] at hcsrf
      cases hcsrf
    | some csrf =>
      rw [hsome, Option.any_some, Bool.not_eq_true'] at hcsrf
      exact .inr (.csrf csrf horigin hsome hcsrf)
  · split at h
    · cases h
    next e' hresult =>
      cases h
      unfold requireCsrf at hresult
      split at hresult
      · exact .inl ⟨_,(Except.error.inj hresult).symm⟩
      · split at hresult
        · exact .inl ⟨_,(Except.error.inj hresult).symm⟩
        · cases hresult

/-- The stage has the operation of the route, or a reply that is an error of the server only if nothing catches it. -/
def Fits (settings : Settings) (db : SecurityDb) (request : HttpRequest) : Stage → Prop
  | .managing p operation => ∃ csrf operation', request.endpoint.guard = .session csrf true operation' ∧ operation = operation' p
  | .acting principal operation => request.endpoint.guard.Calls principal operation
  | .answered reply => ∃ status, reply.status = some status ∧ 400 ≤ status ∧ (status = 500 → Breaks settings db request)
  | .arrived | .handling _ => True
  | .delivered _ => False

theorem fits_refused {status : Nat} {code : Option String} {detail : String} (hlow : 400 ≤ status) (hhigh : status < 500) :
    Fits settings db request (.answered (.refused status code detail)) := by
  refine ⟨status,rfl,hlow,?_⟩
  intro hstatus
  omega

theorem fits_unhandled (h : Breaks settings db request) : Fits settings db request (.answered .unhandled) := ⟨500,rfl,by decide,fun _ => h⟩

theorem authenticateRequest_fits : Fits settings db request (authenticateRequest settings chance db request) := by
  unfold authenticateRequest
  split
  · trivial
  next e hnone he =>
    rcases identify_error he with ⟨message,rfl⟩ | hbreaks
    · exact absurd rfl (hnone message)
    · exact fits_unhandled hbreaks
  next p _ =>
    split
    · split
      · exact fits_refused (by decide) (by decide)
      next e hnone he =>
        rcases checkCsrf_error he with ⟨message,rfl⟩ | hbreaks
        · exact absurd rfl (hnone message)
        · exact fits_unhandled hbreaks
      · trivial
    · trivial

theorem authenticated_fits {csrf : Bool} {next : SessionPrincipal → Stage} (hnext : ∀ p, Fits settings db request (next p)) :
    Fits settings db request (authenticated settings chance db request csrf next) := by
  unfold authenticated
  split
  · exact fits_refused (by decide) (by decide)
  next e hnone he =>
    rcases identify_error he with ⟨message,rfl⟩ | hbreaks
    · exact absurd rfl (hnone message)
    · exact fits_unhandled hbreaks
  next p _ =>
    split
    · split
      · exact fits_refused (by decide) (by decide)
      next e hnone he =>
        rcases checkCsrf_error he with ⟨message,rfl⟩ | hbreaks
        · exact absurd rfl (hnone message)
        · exact fits_unhandled hbreaks
      · exact hnext p
    · exact hnext p

/-- A route that dispatches a command asks for a permission that the command has. -/
theorem authorize_error {route : Route} {q : Principal} {e : RuntimeError} (h : route.authorize q = .error e) :
    ∃ message, e = .authorization message := by
  have hrequire (permission : Permission) (e : RuntimeError) (he : q.require permission = .error e) : ∃ message, e = .authorization message := by
    unfold Principal.require at he
    split at he
    · exact ⟨_,(Except.error.inj he).symm⟩
    · cases he
  unfold Route.authorize at h
  split at h
  next e' he =>
    cases h
    exact hrequire _ _ he
  · split at h
    · cases h
    next command hcommand =>
      rw [RuntimeCommandType.authorize, Route.command_permission hcommand] at h
      exact hrequire _ _ h

theorem handle_fits : Fits settings db request (handle settings chance db request principal) := by
  unfold handle
  split
  next operation hguard =>
    have hcalls : Fits settings db request (.acting none operation) := by
      unfold Fits
      rw [hguard]
      rfl
    split
    · split
      · exact hcalls
      · exact fits_refused (by decide) (by decide)
    · exact hcalls
  next operation hguard =>
    have hcalls (principal : Option SessionPrincipal) : Fits settings db request (.acting principal (some operation)) := by
      unfold Fits
      rw [hguard]
      rfl
    split
    · exact hcalls none
    · apply authenticated_fits
      exact fun p => hcalls (some p)
  next csrf vault operation hguard =>
    apply authenticated_fits
    intro p
    cases vault with
    | true => exact ⟨csrf,operation,hguard,rfl⟩
    | false =>
      change request.endpoint.guard.Calls (some p) (operation p)
      rw [hguard]
      exact ⟨p,rfl,rfl⟩
  next route hguard =>
    split
    · exact fits_refused (by decide) (by decide)
    next p =>
      split
      · change request.endpoint.guard.Calls (some p) none
        rw [hguard]
        rfl
      · exact fits_refused (by decide) (by decide)
      next hkey =>
        obtain ⟨message,hmessage⟩ := authorize_error hkey
        cases hmessage

/-- The routes of the vault catch what `require_vault_management` raises. -/
theorem vault_catches {endpoint : Endpoint} {csrf : Bool} {operation : SessionPrincipal → Option Operation}
    (h : endpoint.guard = .session csrf true operation) (message : String) : endpoint.Catches (.service (.securityAuthorization message)) := by
  cases endpoint <;> first | rfl | simp [Endpoint.guard, Guard.principal, Guard.mutation] at h

/-! ## The requests -/

/-- A reply that cannot be sent, and one that blames the server, have their cause. -/
structure Explained (settings : Settings) (db : SecurityDb) (request : HttpRequest) (reply : Reply) : Prop where
  unsent : reply.status = none → request.endpoint = .logout
  unhandled : reply.status = some 500 → Breaks settings db request

/-- What a stage commits and answers, if it answers. -/
structure Answers (settings : Settings) (db : SecurityDb) (request : HttpRequest) (now : Security.Instant) (commit : Option SecurityDb) (reply : Reply) :
    Prop extends Explained settings db request reply where
  unharmed : ∀ status, reply.status = some status → 400 ≤ status → Unharmed settings db now (commit.getD db)

theorem answers_failed {e : Failure} {effect : OpEffect} {now : Security.Instant} (he : effect.result = .error e)
    (h : Failing settings (fun e => request.endpoint.Catches e ∨ Breaks settings db request) db now effect) :
    Answers settings db request now effect.commit (request.endpoint.failed e) := by
  obtain ⟨hcaught,hunharmed⟩ := h e he
  obtain ⟨status,hstatus,-,hunhandled⟩ := failed_status request.endpoint e
  refine ⟨⟨?_,?_⟩,?_⟩
  · intro hnone
    rw [hstatus] at hnone
    cases hnone
  · intro h500
    rw [hstatus, Option.some.injEq] at h500
    cases hcaught with
    | inl hcatches => exact absurd hcatches (hunhandled h500)
    | inr hbreaks => exact hbreaks
  · intro _ _ _
    cases hcommit : effect.commit with
    | none => exact .same
    | some after => exact hunharmed after hcommit

/-- The answer of the service. -/
theorem act_answers (hfresh : Fresh settings chance db) (hfits : Fits settings db request (.acting principal operation))
    (hknown : ∀ p, principal = some p → (db.user p.userId).isSome) :
    Answers settings db request chance.now (act settings chance db request principal operation).1
      (act settings chance db request principal operation).2 := by
  have hsucceeds {reply : Reply} {commit : Option SecurityDb} (h : reply.status = request.endpoint.success) :
      Answers settings db request chance.now commit reply := by
    refine ⟨⟨?_,?_⟩,?_⟩
    · exact fun hnone => success_none (h.symm.trans hnone)
    · intro h500
      have hlt := success_lt (h.symm.trans h500)
      omega
    · intro status hstatus hhigh
      have hlt := success_lt (h.symm.trans hstatus)
      omega
  cases operation with
  | none => exact hsucceeds rfl
  | some operation =>
    have hfailing := effect_failing hfresh hfits hknown
    unfold act
    dsimp only
    split
    next hraises => exact ⟨⟨fun hnone => (by cases hnone),fun _ => .library chance.now hraises⟩,fun _ _ _ => .same⟩
    · split
      next value _ => exact hsucceeds (returned_status request.endpoint value)
      next e he => exact answers_failed he hfailing

/-- The operation of a stage is the one of the route. -/
def Asks (request : HttpRequest) : Stage → Prop
  | .managing p operation => ∃ csrf operation', request.endpoint.guard = .session csrf true operation' ∧ operation = operation' p
  | .acting principal operation => request.endpoint.guard.Calls principal operation
  | .arrived | .handling _ | .answered _ | .delivered _ => True

theorem Fits.asks (h : Fits settings db request stage) : Asks request stage := by
  cases stage with
  | managing p operation => exact h
  | acting principal operation => exact h
  | _ => trivial

theorem manage_asks (h : Asks request (.managing p operation)) : Asks request (manage db request p operation).2 := by
  unfold manage
  dsimp only
  split
  · obtain ⟨csrf,operation',hguard,rfl⟩ := h
    change request.endpoint.guard.Calls (some p) (operation' p)
    rw [hguard]
    exact ⟨p,rfl,rfl⟩
  · trivial

theorem Moves.asks {stage' : Stage} (h : Moves settings db request stage stage') (hasks : Asks request stage) : Asks request stage' := by
  cases h with
  | arrived chance =>
    have hfits : Fits settings db request (authenticateRequest settings chance db request) := authenticateRequest_fits
    exact hfits.asks
  | handling chance principal =>
    have hfits : Fits settings db request (handle settings chance db request principal) := handle_fits
    exact hfits.asks
  | managing p operation => exact manage_asks hasks
  | acting principal operation reply => trivial
  | answered reply => trivial

theorem user_isSome_iff {u : UserId} : (db.user u).isSome ↔ ∃ row ∈ db.accounts.users, row.id = u := by
  unfold SecurityDb.user
  simp [List.find?_isSome]

/-- The users whom the stages act for are there. -/
structure Sound (web : Web) : Prop where
  asks : ∀ (i : Nat) (exchange : Exchange), web.exchanges[i]? = some exchange → Asks exchange.request exchange.stage
  known : ∀ (i : Nat) (exchange : Exchange), web.exchanges[i]? = some exchange → ∀ p, exchange.stage.principal = some p →
    (web.db.user p.userId).isSome

theorem step_sound {label : Label} {web web' : Web} (hweb : Sound web) (h : step settings label web = some web') : Sound web' := by
  have hturned := step_turned h
  have hkept (u : UserId) (hu : (web.db.user u).isSome) : (web'.db.user u).isSome := by
    obtain ⟨row,hrow,hid⟩ := user_isSome_iff.mp hu
    exact user_isSome_iff.mpr ⟨row,hturned.db.1.users hrow,hid⟩
  constructor
  · intro i exchange' hi
    rcases hturned.exchanges i exchange' hi with hold | ⟨exchange,hold,hrequest,-,hmoves⟩ | harrives
    · exact hweb.asks i exchange' hold
    · rw [hrequest]
      exact hmoves.asks (hweb.asks i exchange hold)
    · rw [harrives.stage]
      trivial
  · intro i exchange' hi p hp
    rcases hturned.exchanges i exchange' hi with hold | ⟨exchange,hold,-,-,hmoves⟩ | harrives
    · exact hkept _ (hweb.known i exchange' hold p hp)
    · rcases hmoves.acts_for hp with hbefore | ⟨chance,hidentified⟩
      · exact hkept _ (hweb.known i exchange hold p hbefore)
      · exact hkept _ (identify_user hidentified)
    · rw [harrives.stage] at hp
      cases hp

theorem sound_start (db : SecurityDb) : Sound (start db) := by
  constructor
  · intro i exchange hi
    cases hi
  · intro i exchange hi
    cases hi

/-- What the turn of a request has done when the request is in this stage then. -/
structure Ends (settings : Settings) (db : SecurityDb) (request : HttpRequest) (now : Security.Instant) (commit : Option SecurityDb) (stage : Stage) :
    Prop where
  answers : ∀ reply, stage = .answered reply → Answers settings db request now commit reply
  silent : (∀ reply, stage ≠ .answered reply) → commit = none ∧ ∀ reply, stage ≠ .delivered reply

theorem Fits.ends (h : Fits settings db request stage) {now : Security.Instant} : Ends settings db request now none stage := by
  constructor
  · rintro reply rfl
    obtain ⟨status,hstatus,-,hunhandled⟩ := h
    refine ⟨⟨?_,?_⟩,fun _ _ _ => .same⟩
    · intro hnone
      rw [hstatus] at hnone
      cases hnone
    · intro h500
      rw [hstatus, Option.some.injEq] at h500
      exact hunhandled h500
  · intro _
    refine ⟨rfl,?_⟩
    rintro reply rfl
    exact h

theorem requireVaultManagement_ok {value : Return} (h : (requireVaultManagement db p).result = .ok value) :
    (requireVaultManagement db p).commit = none := by
  unfold requireVaultManagement Operations.require at h ⊢
  split
  · split <;> rfl
  next e he =>
    rw [he] at h
    dsimp only at h
    split at h <;> cases h

theorem manage_ends (h : Asks request (.managing p operation)) {now : Security.Instant} :
    Ends settings db request now (manage db request p operation).1 (manage db request p operation).2 := by
  obtain ⟨csrf,operation',hguard,-⟩ := h
  have hfailing : Failing settings (fun e => request.endpoint.Catches e ∨ Breaks settings db request) db now (requireVaultManagement db p) :=
    requireVaultManagement_failing fun message => .inl (vault_catches hguard message)
  unfold manage
  dsimp only
  constructor
  · intro reply hreply
    split at hreply
    · cases hreply
    next e he =>
      cases hreply
      exact answers_failed he hfailing
  · intro hnone
    split
    next value hvalue =>
      refine ⟨requireVaultManagement_ok hvalue,?_⟩
      intro reply hreply
      cases hreply
    next e he =>
      rw [he] at hnone
      exact absurd rfl (hnone _)

theorem act_ends (hfresh : Fresh settings chance db) (hasks : Asks request (.acting principal operation))
    (hknown : ∀ p, principal = some p → (db.user p.userId).isSome) :
    Ends settings db request chance.now (act settings chance db request principal operation).1
      (.answered (act settings chance db request principal operation).2) := by
  constructor
  · rintro reply ⟨⟩
    exact act_answers hfresh hasks hknown
  · intro hnone
    exact absurd rfl (hnone _)

theorem resume_ends {web web' : Web} {i : Nat} {exchange : Exchange} (hfresh : Fresh settings chance web.db)
    (hasks : Asks exchange.request exchange.stage) (hknown : ∀ p, exchange.stage.principal = some p → (web.db.user p.userId).isSome)
    (h : web.resume settings i exchange chance = some web') :
    ∃ commit stage, web'.exchanges = (web.setStage i stage).exchanges ∧ web'.db = commit.getD web.db ∧
      Ends settings web.db exchange.request chance.now commit stage := by
  unfold Web.resume at h
  split at h
  · cases h
    exact ⟨none,_,rfl,rfl,authenticateRequest_fits.ends⟩
  · cases h
    exact ⟨none,_,rfl,rfl,handle_fits.ends⟩
  next p operation hstage =>
    cases h
    rw [hstage] at hasks
    exact ⟨_,_,rfl,rfl,manage_ends hasks⟩
  next principal operation hstage =>
    cases h
    rw [hstage] at hasks hknown
    exact ⟨_,_,rfl,rfl,act_ends hfresh hasks hknown⟩
  · cases h
  · cases h

/-- The draws of a turn are new. -/
def Drawn (settings : Settings) : Label → Web → Prop
  | .resume _ chance, web => Fresh settings chance web.db
  | _, _ => True

instance Drawn.decidable (settings : Settings) : (label : Label) → (web : Web) → Decidable (Drawn settings label web)
  | .resume _ chance, web => inferInstanceAs (Decidable (Fresh settings chance web.db))
  | .open_ _ _, _ => .isTrue trivial
  | .send _ _ _ _, _ => .isTrue trivial
  | .receive _, _ => .isTrue trivial

/-- The reply that was given to the request. -/
def Exchange.Replied (exchange : Exchange) (reply : Reply) : Prop := exchange.stage = .answered reply ∨ exchange.stage = .delivered reply

/-- A reply is older than the step, or was given in it. -/
theorem step_replied {label : Label} {web web' : Web} (hweb : Sound web) (hdrawn : Drawn settings label web)
    (h : step settings label web = some web') {i : Nat} {exchange' : Exchange} {reply : Reply} (hi : web'.exchanges[i]? = some exchange')
    (hreplied : exchange'.Replied reply) :
    (∃ exchange : Exchange, web.exchanges[i]? = some exchange ∧ exchange.request = exchange'.request ∧ exchange.Replied reply) ∨
      Explained settings web.db exchange'.request reply := by
  cases label with
  | open_ browser origin =>
    cases h
    exact .inl ⟨exchange',hi,rfl,hreplied⟩
  | send page endpoint csrf loopback =>
    obtain ⟨sender,hsender,⟨⟩⟩ := Option.map_eq_some_iff.mp h
    dsimp only at hi
    rw [List.getElem?_append] at hi
    split at hi
    · exact .inl ⟨exchange',hi,rfl,hreplied⟩
    · have hnew := List.mem_singleton.mp (List.mem_of_getElem? hi)
      subst hnew
      cases hreplied with
      | inl hanswered => cases hanswered
      | inr hdelivered => cases hdelivered
  | resume j chance =>
    obtain ⟨exchange,hj,hresume⟩ := Option.bind_eq_some_iff.mp h
    obtain ⟨commit,stage,hexchanges,-,hends⟩ := resume_ends hdrawn (hweb.asks j exchange hj) (hweb.known j exchange hj) hresume
    rw [hexchanges, Web.setStage] at hi
    by_cases hij : j = i
    · subst hij
      simp only [List.getElem?_modify_eq, hj, Option.map_eq_map, Option.map_some, Option.some.injEq] at hi
      subst hi
      refine .inr ?_
      cases hreplied with
      | inl hanswered => exact (hends.answers reply hanswered).toExplained
      | inr hdelivered =>
        have hnone : ∀ reply, stage ≠ .answered reply := by
          rintro reply' rfl
          cases hdelivered
        exact absurd hdelivered ((hends.silent hnone).2 reply)
    · rw [List.getElem?_modify_ne _ _ hij] at hi
      exact .inl ⟨exchange',hi,rfl,hreplied⟩
  | receive j =>
    obtain ⟨exchange,hj,hreceive⟩ := Option.bind_eq_some_iff.mp h
    split at hreceive
    next given hgiven =>
      obtain ⟨page,hpage,hweb'⟩ := Option.map_eq_some_iff.mp hreceive
      have hset : (web.setStage j (.delivered given)).exchanges[i]? = some exchange' := by
        split at hweb'
        · rw [hweb', hi]
        · rw [← hweb'] at hi
          exact hi
      rw [Web.setStage] at hset
      by_cases hij : j = i
      · subst hij
        simp only [List.getElem?_modify_eq, hj, Option.map_eq_map, Option.map_some, Option.some.injEq] at hset
        subst hset
        cases hreplied with
        | inl hanswered => cases hanswered
        | inr hdelivered =>
          cases hdelivered
          exact .inl ⟨exchange,hj,rfl,.inl hgiven⟩
      · rw [List.getElem?_modify_ne _ _ hij] at hset
        exact .inl ⟨exchange',hset,rfl,hreplied⟩
    · cases hreceive

def sampleDraws (turns i : Nat) : List Label :=
  List.replicate turns (.resume i ⟨0,i,sampleSecret,String.ofList (List.replicate i 't'),0⟩)

/-- The owner signs up. -/
def signingUp : List Label :=
  [.open_ 0 (some "http://localhost"),.send 0 (.bootstrap "ada" "secret" "laptop" (some "secret")) none true] ++ sampleDraws 3 0 ++
  [.send 0 (.passkeyRegistrationVerify 0 (.verified ("key",0))) none true] ++ sampleDraws 3 1 ++ [.receive 1]

/-- Two credentials get one name. -/
def takenName : List Label :=
  signingUp ++ [.send 0 (.createVaultCredential "mail" "token" "one") (some "c") true] ++ sampleDraws 4 2 ++
  [.send 0 (.createVaultCredential "mail" "token" "two") (some "c") true] ++ sampleDraws 4 3

/-- The request was answered, and how. -/
def Exchange.answer? (exchange : Exchange) : Option Reply :=
  match exchange.stage with
  | .answered reply => some reply
  | _ => none

theorem Exchange.replied_of_answer? {exchange : Exchange} {reply : Reply} (h : exchange.answer? = some reply) : exchange.Replied reply := by
  unfold Exchange.answer? at h
  split at h
  next hstage =>
    cases h
    exact .inl hstage
  · cases h

theorem takenName_run : (exec (step sampleGate) takenName (start emptyDb)).isSome = true := by decide +kernel

def storing : List Label :=
  signingUp ++ [.send 0 (.createVaultCredential "mail" "token" "one") (some "c") true] ++ sampleDraws 3 2

theorem storing_run : (exec (step sampleGate) storing (start emptyDb)).isSome = true := by decide +kernel

theorem stored_run : (exec (step sampleGate) (storing ++ sampleDraws 1 2) (start emptyDb)).isSome = true := by decide +kernel

end AgentGraph.Api.Gateway
