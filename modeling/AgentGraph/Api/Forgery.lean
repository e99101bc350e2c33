import AgentGraph.Api.Requests

/-! # Requests that a session is not asked for

A service acts for a session on a request that changes something only if a page of the server sent
it that had been told the token; other pages, with the same cookie, get nothing done. A session
that was revoked when a request came is not acted for.
-/
set_option autoImplicit false
namespace AgentGraph.Api.Gateway
open Security hiding Settings Label step require
open Security.Operations hiding Label step
open Transition

variable {settings : Settings} {web web' : Web} {label : Label} {p : SessionPrincipal}

/-! ## The sender -/

/-- The page is one of the server's and has been told the token of the session. -/
def Confides (settings : Settings) (web : Web) (request : HttpRequest) (p : SessionPrincipal) : Prop :=
  ∃ page, web.pages[request.page]? = some page ∧ page.origin ∈ settings.allowedOrigins ∧
    settings.csrfToken p.sessionId ∈ page.tokens

structure Guarded (settings : Settings) (web : Web) : Prop where
  sender : ∀ (i : Nat) (exchange : Exchange), web.exchanges[i]? = some exchange →
    ∃ page : Page, web.pages[exchange.request.page]? = some page ∧ exchange.request.origin = page.origin ∧
      ∀ csrf, exchange.request.csrf = some csrf → csrf ∈ page.tokens ∨ ∀ s, csrf ≠ settings.csrfToken s
  stages : ∀ (i : Nat) (exchange : Exchange), web.exchanges[i]? = some exchange →
    StageChecked settings exchange.request exchange.stage
  strangers : ∀ page ∈ web.pages, page.origin ∉ settings.allowedOrigins → page.tokens = []
  calls : ∀ call ∈ web.calls, ∃ exchange : Exchange, web.exchanges[call.exchange]? = some exchange ∧
    ∀ p, call.principal = some p → exchange.request.endpoint.changes → Checked settings exchange.request p

theorem guarded_start (db : SecurityDb) : Guarded settings (start db) where
  sender i exchange h := by cases h
  stages i exchange h := by cases h
  strangers page h := by cases h
  calls call h := by cases h

theorem step_guarded (hweb : Guarded settings web) (hunguessed : Unguessed settings label web)
    (h : step settings label web = some web') : Guarded settings web' := by
  have hturned := step_turned h
  have hsent (request : HttpRequest) (page : Page) (hpage : web.pages[request.page]? = some page) (horigin : request.origin = page.origin)
      (hcsrf : ∀ csrf, request.csrf = some csrf → csrf ∈ page.tokens ∨ ∀ s, csrf ≠ settings.csrfToken s) :
      ∃ page' : Page, web'.pages[request.page]? = some page' ∧ request.origin = page'.origin ∧
        ∀ csrf, request.csrf = some csrf → csrf ∈ page'.tokens ∨ ∀ s, csrf ≠ settings.csrfToken s := by
    obtain ⟨page',hpage',horigin',htokens⟩ := hturned.pages request.page page hpage
    refine ⟨page',hpage',horigin.trans horigin'.symm,?_⟩
    intro csrf hsome
    exact (hcsrf csrf hsome).imp_left fun hmem => htokens hmem
  constructor
  · intro i exchange' hi
    rcases hturned.exchanges i exchange' hi with hold | ⟨exchange,hold,hrequest,-,-⟩ | harrives
    · obtain ⟨page,hpage,horigin,hcsrf⟩ := hweb.sender i exchange' hold
      exact hsent exchange'.request page hpage horigin hcsrf
    · obtain ⟨page,hpage,horigin,hcsrf⟩ := hweb.sender i exchange hold
      rw [hrequest]
      exact hsent exchange.request page hpage horigin hcsrf
    · obtain ⟨page,hpage,horigin,hcsrf⟩ := harrives.sender
      exact hsent exchange'.request page hpage horigin (hcsrf hunguessed)
  · intro i exchange' hi
    rcases hturned.exchanges i exchange' hi with hold | ⟨exchange,hold,hrequest,-,hmoves⟩ | harrives
    · exact hweb.stages i exchange' hold
    · rw [hrequest]
      exact hmoves.checked (hweb.stages i exchange hold)
    · rw [harrives.stage]
      trivial
  · intro page hpage hstranger
    rcases hturned.told page hpage with hold | hnone | hown
    · exact hweb.strangers page hold hstranger
    · exact hnone
    · exact absurd hown hstranger
  · intro call hcall
    rcases hturned.calls call hcall with hold | ⟨exchange,operation,hexchange,hstage⟩
    · obtain ⟨exchange,hexchange,hchecked⟩ := hweb.calls call hold
      obtain ⟨exchange',hexchange',hrequest,-⟩ := hturned.kept call.exchange exchange hexchange
      refine ⟨exchange',hexchange',?_⟩
      rw [hrequest]
      exact hchecked
    · have hchecked := hweb.stages call.exchange exchange hexchange
      rw [hstage] at hchecked
      obtain ⟨exchange',hexchange',hrequest,-⟩ := hturned.kept call.exchange exchange hexchange
      refine ⟨exchange',hexchange',?_⟩
      rw [hrequest]
      exact hchecked

/-- Whatever pages, of whatever origins, send and in whatever order their requests run: a service is called for a session
by a request that is not safe only if a page of the server has sent it that was told the token of this session, and no
other page is ever told one. -/
theorem no_forged_request {db : SecurityDb} (h : Reaches (step settings) (Unguessed settings) (start db) web) :
    (∀ call ∈ web.calls, ∃ exchange, web.exchanges[call.exchange]? = some exchange ∧
      ∀ p, call.principal = some p → exchange.request.endpoint.changes → Confides settings web exchange.request p) ∧
    ∀ page ∈ web.pages, page.origin ∉ settings.allowedOrigins → page.tokens = [] := by
  have hweb : Guarded settings web :=
    h.invariant (fun _ _ _ hweb hunguessed hstep => step_guarded hweb hunguessed hstep) (guarded_start db)
  refine ⟨?_,hweb.strangers⟩
  intro call hcall
  obtain ⟨exchange,hexchange,hchecked⟩ := hweb.calls call hcall
  refine ⟨exchange,hexchange,?_⟩
  intro p hp hchanges
  have hpassed := hchecked p hp hchanges
  obtain ⟨page,hpage,horigin,hcsrf⟩ := hweb.sender call.exchange exchange hexchange
  refine ⟨page,hpage,?_,?_⟩
  · rw [← horigin]
    exact hpassed.origin
  · cases hcsrf _ hpassed.csrf with
    | inl htold => exact htold
    | inr hforeign => exact absurd rfl (hforeign p.sessionId)

def sampleGate : Settings :=
  { le? := before?, sessionTtl := 28800, tokenHash := id, totpVerify := fun secret code _ => secret == code, encrypt := fun secret _ => secret,
    decrypt := some, challengeTtl := 300, allowedOrigins := [some "http://localhost"], csrfToken := fun s => String.ofList (List.replicate s 'c') }

def emptyDb : SecurityDb := ⟨⟨[],fun _ => none,fun _ => none,[],[]⟩,fun _ => none,fun _ => none,[],none,[],[]⟩

def sampleTurns (i : Nat) : List Label := List.replicate 3 (.resume i ⟨0,i,sampleSecret,"session",0⟩)

/-- The owner signs up and gives the device a name; then another page tries it. -/
def renamingPages : List Label :=
  [.open_ 0 (some "http://localhost"),.open_ 0 (some "http://localhost:9999"),
    .send 0 (.bootstrap "ada" "secret" "laptop" (some "secret")) none true] ++ sampleTurns 0 ++
  [.send 0 (.passkeyRegistrationVerify 0 (.verified ("key",0))) none true] ++ sampleTurns 1 ++
  [.receive 1,.send 0 (.renameDevice 1 "desk") (some "c") true] ++ sampleTurns 2 ++
  [.send 1 (.renameDevice 1 "mine") none true,.resume 3 ⟨0,3,sampleSecret,"session",0⟩]

/-- The token has been told to the page. -/
def Told : Label → Web → Prop
  | .send page _ (some csrf) _, web => ((web.pages[page]?).any fun sender => sender.tokens.contains csrf) = true
  | _, _ => True

instance Told.decidable : (label : Label) → (web : Web) → Decidable (Told label web)
  | .send _ _ (some _) _, _ => inferInstanceAs (Decidable (_ = true))
  | .send _ _ none _, _ => .isTrue trivial
  | .open_ _ _, _ => .isTrue trivial
  | .resume _ _, _ => .isTrue trivial
  | .receive _, _ => .isTrue trivial

theorem Told.unguessed (h : Told label web) : Unguessed settings label web := by
  cases label with
  | send page endpoint csrf loopback =>
    cases csrf with
    | none => trivial
    | some csrf =>
      simp only [Told] at h
      cases hsender : web.pages[page]? with
      | none =>
        rw [hsender] at h
        cases h
      | some sender =>
        rw [hsender, Option.any_some, List.contains_iff_mem] at h
        exact .inl ⟨sender,hsender,h⟩
  | _ => trivial

theorem renamingPages_run : (exec (step sampleGate) renamingPages (start emptyDb)).isSome = true := by decide +kernel

/-- The last call and whom it is for. -/
def lastCall (web : Web) : Option (Call × Exchange × SessionPrincipal) := do
  let call ← web.calls.getLast?
  let exchange ← web.exchanges[call.exchange]?
  let p ← call.principal
  if exchange.request.endpoint.changes then some (call,exchange,p) else none

theorem lastCall_call (h : (lastCall web).isSome = true) : ∃ call exchange p, call ∈ web.calls ∧
    web.exchanges[call.exchange]? = some exchange ∧ call.principal = some p ∧ exchange.request.endpoint.changes := by
  obtain ⟨last,hlast⟩ := Option.isSome_iff_exists.mp h
  unfold lastCall at hlast
  simp only [Option.bind_eq_bind, Option.bind_eq_some_iff] at hlast
  obtain ⟨call,hcall,exchange,hexchange,p,hp,hchanges⟩ := hlast
  split at hchanges
  next hchanging => exact ⟨call,exchange,p,List.mem_of_getLast? hcall,hexchange,hp,hchanging⟩
  · cases hchanges

theorem no_forged_request_sample : ∃ web call exchange p, exec (step sampleGate) renamingPages (start emptyDb) = some web ∧
    call ∈ web.calls ∧ web.exchanges[call.exchange]? = some exchange ∧ call.principal = some p ∧
    Confides sampleGate web exchange.request p := by
  have hrun := exec_after renamingPages_run
  have hlast : (lastCall (after (step sampleGate) renamingPages (start emptyDb) renamingPages_run)).isSome = true := by decide +kernel
  generalize after (step sampleGate) renamingPages (start emptyDb) renamingPages_run = web at hrun hlast
  obtain ⟨call,exchange,p,hcall,hexchange,hp,hchanges⟩ := lastCall_call hlast
  have htold : ExecOk (step sampleGate) Told renamingPages (start emptyDb) := by decide +kernel
  have hreaches : Reaches (step sampleGate) (Unguessed sampleGate) (start emptyDb) web :=
    (exec_reaches htold hrun).mono fun _ _ h => h.unguessed
  obtain ⟨exchange',hexchange',hconfides⟩ := (no_forged_request hreaches).1 call hcall
  obtain rfl : exchange = exchange' := Option.some.inj (hexchange.symm.trans hexchange')
  exact ⟨web,call,exchange,p,hrun,hcall,hexchange,hp,hconfides p hp hchanges⟩

/-! ## The session -/

/-- The cookie of the request is the session's, and neither it nor its device was revoked when the request came. -/
structure Served (settings : Settings) (db : SecurityDb) (request : HttpRequest) (found : SecurityDb) (p : SessionPrincipal) : Prop where
  session : ∃ token row, request.cookie = some token ∧ row ∈ db.accounts.sessions ∧ row.tokenHash = settings.tokenHash token ∧
    row.id = p.sessionId ∧ row.userId = p.userId ∧ row.deviceId = p.deviceId
  live : ∀ row ∈ found.accounts.sessions, row.id = p.sessionId → row.revokedAt = none
  device : ∀ device, found.accounts.devices p.deviceId = some device → device.revokedAt = none

theorem Served.mono {db db' : SecurityDb} {request : HttpRequest} {found : SecurityDb} (h : Served settings db request found p)
    (hkeeps : Keeps db db') : Served settings db' request found p := by
  refine ⟨?_,h.live,h.device⟩
  obtain ⟨token,row,hcookie,hrow,hhash,hid,huser,hdevice⟩ := h.session
  obtain ⟨row',hrow',hkept⟩ := hkeeps.sessions row hrow
  exact ⟨token,row',hcookie,hrow',hkept.tokenHash.trans hhash,hkept.id.trans hid,hkept.userId.trans huser,hkept.deviceId.trans hdevice⟩

theorem checkSession_ok {le? : Security.Instant → Security.Instant → Option Bool} {row? : Option (SessionRecord Security.Instant)}
    {row : SessionRecord Security.Instant} {now : Security.Instant} (h : checkSession le? row? now = .ok row) : row? = some row ∧ row.revokedAt = none := by
  unfold checkSession at h
  split at h
  · cases h
  next record =>
    split at h
    · cases h
    next hlive =>
      cases hexpiry : checkExpiry le? record.expiresAt now invalidSession with
      | error e =>
        rw [hexpiry] at h
        cases h
      | ok value =>
        rw [hexpiry] at h
        cases h
        exact ⟨rfl,by simpa using hlive⟩

/-- The row that `principal_from_session_token` has found. -/
theorem identify_row {chance : Chance} {db : SecurityDb} {request : HttpRequest} (h : identify settings chance db request = .ok p) :
    ∃ token row device, request.cookie = some token ∧ row ∈ db.accounts.sessions ∧ row.tokenHash = settings.tokenHash token ∧
      row.id = p.sessionId ∧ row.userId = p.userId ∧ row.deviceId = p.deviceId ∧ row.revokedAt = none ∧
      db.accounts.devices p.deviceId = some device ∧ device.revokedAt = none := by
  unfold identify principalFromSessionToken at h
  by_cases hempty : request.cookie.getD "" = ""
  · simp only [hempty, if_true, OpEffect.raise] at h
    cases h
  · simp only [hempty, if_false] at h
    obtain ⟨token,htoken⟩ : ∃ token, request.cookie = some token := by
      cases hcookie : request.cookie with
      | none => exact absurd (by rw [hcookie]; rfl) hempty
      | some token => exact ⟨token,rfl⟩
    rw [htoken, Option.getD_some] at h
    split at h
    next p' hresult =>
      cases h
      split at hresult
      · cases hresult
      next record hrecord =>
        obtain ⟨hfind,hlive⟩ := checkSession_ok hrecord
        split at hresult
        next user device huser hdevice =>
          split at hresult
          · cases hresult
          next hok =>
            cases hresult
            have hid : user.id = record.userId := by simpa using List.find?_some huser
            refine ⟨token,record,device,htoken,List.mem_of_find?_eq_some hfind,by simpa using List.find?_some hfind,rfl,hid.symm,rfl,hlive,hdevice,?_⟩
            simp only [Bool.or_eq_true, not_or, Option.isSome_iff_ne_none, ne_eq, not_not] at hok
            exact hok.2
        · cases hresult
    · cases h
    · cases h

theorem identify_served {chance : Chance} {db found : SecurityDb} {request : HttpRequest} (hunique : db.UniqueSessions)
    (hkeeps : Keeps found db) (h : identify settings chance db request = .ok p) : Served settings db request found p := by
  obtain ⟨token,row,device,hcookie,hrow,hhash,hid,huser,hdid,hlive,hdevice,hdlive⟩ := identify_row h
  refine ⟨⟨token,row,hcookie,hrow,hhash,hid,huser,hdid⟩,?_,?_⟩
  · intro old hold hsame
    obtain ⟨new,hnew,hkept⟩ := hkeeps.sessions old hold
    obtain rfl : new = row := hunique.eq_of hnew hrow (hkept.id.trans (hsame.trans hid.symm))
    by_contra hrevoked
    have hrevoked' := hkept.revoked (Option.isSome_iff_ne_none.mpr hrevoked)
    rw [hlive] at hrevoked'
    cases hrevoked'
  · intro old hold
    obtain ⟨new,hnew,hkept⟩ := hkeeps.devices p.deviceId old hold
    obtain rfl : device = new := Option.some.inj (hdevice.symm.trans hnew)
    by_contra hrevoked
    have hrevoked' := hkept (Option.isSome_iff_ne_none.mpr hrevoked)
    rw [hdlive] at hrevoked'
    cases hrevoked'

structure Faithful (settings : Settings) (web : Web) : Prop where
  unique : web.db.UniqueSessions
  found : ∀ (i : Nat) (exchange : Exchange), web.exchanges[i]? = some exchange → Keeps exchange.found web.db
  stages : ∀ (i : Nat) (exchange : Exchange), web.exchanges[i]? = some exchange → ∀ p, exchange.stage.principal = some p →
    Served settings web.db exchange.request exchange.found p
  calls : ∀ call ∈ web.calls, ∃ exchange : Exchange, web.exchanges[call.exchange]? = some exchange ∧
    ∀ p, call.principal = some p → Served settings web.db exchange.request exchange.found p

theorem step_faithful (hweb : Faithful settings web) (h : step settings label web = some web') : Faithful settings web' := by
  have hturned := step_turned h
  obtain ⟨hkeeps,hunique⟩ := hturned.db
  constructor
  · exact hunique hweb.unique
  · intro i exchange' hi
    rcases hturned.exchanges i exchange' hi with hold | ⟨exchange,hold,-,hfound,-⟩ | harrives
    · exact (hweb.found i exchange' hold).trans hkeeps
    · rw [hfound]
      exact (hweb.found i exchange hold).trans hkeeps
    · rw [harrives.found]
      exact hkeeps
  · intro i exchange' hi p hp
    rcases hturned.exchanges i exchange' hi with hold | ⟨exchange,hold,hrequest,hfound,hmoves⟩ | harrives
    · exact (hweb.stages i exchange' hold p hp).mono hkeeps
    · rw [hrequest, hfound]
      rcases hmoves.acts_for hp with hbefore | ⟨chance,hidentified⟩
      · exact (hweb.stages i exchange hold p hbefore).mono hkeeps
      · exact (identify_served hweb.unique (hweb.found i exchange hold) hidentified).mono hkeeps
    · rw [harrives.stage] at hp
      cases hp
  · intro call hcall
    rcases hturned.calls call hcall with hold | ⟨exchange,operation,hexchange,hstage⟩
    · obtain ⟨exchange,hexchange,hserved⟩ := hweb.calls call hold
      obtain ⟨exchange',hexchange',hrequest,hfound⟩ := hturned.kept call.exchange exchange hexchange
      refine ⟨exchange',hexchange',?_⟩
      intro p hp
      rw [hrequest, hfound]
      exact (hserved p hp).mono hkeeps
    · obtain ⟨exchange',hexchange',hrequest,hfound⟩ := hturned.kept call.exchange exchange hexchange
      refine ⟨exchange',hexchange',?_⟩
      intro p hp
      rw [hrequest, hfound]
      exact (hweb.stages call.exchange exchange hexchange p (by rw [hstage]; exact hp)).mono hkeeps

/-- In any interleaving of requests with logouts, revocations, registrations and logins: a service is called for a session
only on a request that carries its cookie, and not if the session or its device was revoked when the request came. -/
theorem revoked_never_served {db : SecurityDb} (hunique : db.UniqueSessions) (h : Reaches (step settings) anyStep (start db) web)
    {call : Call} (hcall : call ∈ web.calls) :
    ∃ exchange, web.exchanges[call.exchange]? = some exchange ∧
      ∀ p, call.principal = some p → Served settings web.db exchange.request exchange.found p := by
  have hstart : Faithful settings (start db) := by
    refine ⟨hunique,?_,?_,?_⟩
    · intro i exchange hi
      cases hi
    · intro i exchange hi
      cases hi
    · intro call hmem
      cases hmem
  have hweb : Faithful settings web := h.invariant (fun _ _ _ hweb _ hstep => step_faithful hweb hstep) hstart
  exact hweb.calls call hcall

/-- The owner logs out and sends another request with the cookie. -/
def loggingOut : List Label :=
  renamingPages ++ [.send 0 .logout (some "c") true] ++ sampleTurns 4 ++
  [.send 0 (.renameDevice 1 "shelf") (some "c") true] ++ (sampleTurns 5).tail

theorem loggingOut_run : (exec (step sampleGate) loggingOut (start emptyDb)).isSome = true := by decide +kernel

/-- The detail of a reply that was given. -/
def Stage.detail : Stage → Option String
  | .answered reply | .delivered reply => reply.detail
  | .arrived | .handling _ | .managing _ _ | .acting _ _ => none

/-- The logout is the last call; the request behind it is refused. -/
theorem revoked_never_served_sample : ∃ web call exchange p, exec (step sampleGate) loggingOut (start emptyDb) = some web ∧
    call ∈ web.calls ∧ web.exchanges[call.exchange]? = some exchange ∧ call.principal = some p ∧
    Served sampleGate web.db exchange.request exchange.found p ∧
    (web.exchanges[5]?.bind fun exchange => exchange.stage.detail) = some "Session is invalid or expired" ∧ ∀ call ∈ web.calls, call.exchange ≠ 5 := by
  have hrun := exec_after loggingOut_run
  have hlast : (lastCall (after (step sampleGate) loggingOut (start emptyDb) loggingOut_run)).isSome = true := by decide +kernel
  have hdetail : ((after (step sampleGate) loggingOut (start emptyDb) loggingOut_run).exchanges[5]?.bind fun exchange =>
      exchange.stage.detail) = some "Session is invalid or expired" := by decide +kernel
  have hcalls : ∀ call ∈ (after (step sampleGate) loggingOut (start emptyDb) loggingOut_run).calls, call.exchange ≠ 5 := by decide +kernel
  generalize after (step sampleGate) loggingOut (start emptyDb) loggingOut_run = web at hrun hlast hdetail hcalls
  obtain ⟨call,exchange,p,hcall,hexchange,hp,-⟩ := lastCall_call hlast
  have hunique : emptyDb.UniqueSessions := List.Pairwise.nil
  obtain ⟨exchange',hexchange',hserved⟩ := revoked_never_served hunique (exec_reaches (execOk_anyStep loggingOut (start emptyDb)) hrun) hcall
  obtain rfl : exchange = exchange' := Option.some.inj (hexchange.symm.trans hexchange')
  exact ⟨web,call,exchange,p,hrun,hcall,hexchange,hp,hserved p hp,hdetail,hcalls⟩

end AgentGraph.Api.Gateway
