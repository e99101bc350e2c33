import AgentGraph.Api.Gateway
import AgentGraph.Security.SessionRows

/-! # What a stage of a request does

Each stage is read once: whom the next stage acts for, what was checked of the request before it,
and what a turn leaves of the pages, the requests and the rows.
-/
set_option autoImplicit false
namespace AgentGraph.Api.Gateway
open Security hiding Settings Label step require
open Security.Operations hiding Label step
open Transition

/-- The principal that a stage acts for. -/
def Stage.principal : Stage → Option SessionPrincipal
  | .handling principal | .acting principal _ => principal
  | .managing p _ => some p
  | .arrived | .answered _ | .delivered _ => none

variable {settings : Settings} {chance : Chance} {db : SecurityDb} {request : HttpRequest} {principal : Option SessionPrincipal}
  {p : SessionPrincipal} {operation : Option Operation} {stage : Stage}

/-- The request came from an allowed origin with the token of the session. -/
structure Checked (settings : Settings) (request : HttpRequest) (p : SessionPrincipal) : Prop where
  origin : request.origin ∈ settings.allowedOrigins
  csrf : request.csrf = some (settings.csrfToken p.sessionId)

theorem checked_of_ok (h : checkCsrf settings request p = .ok ()) : Checked settings request p := by
  unfold checkCsrf at h
  split at h
  · cases h
  · split at h
    next value hresult =>
      unfold requireCsrf at hresult
      split at hresult
      · cases hresult
      next horigin =>
        split at hresult
        · cases hresult
        next hcsrf => exact ⟨not_not.mp horigin,not_not.mp hcsrf⟩
    · cases h

/-! ## The routes -/

/-- A route that does not ask for the token only reads. -/
theorem changes_of_guard {endpoint : Endpoint} {csrf vault : Bool} {operation : SessionPrincipal → Option Operation}
    (h : endpoint.guard = .session csrf vault operation) (hchanges : endpoint.changes) : csrf = true := by
  cases endpoint <;> simp_all [Endpoint.guard, Guard.principal, Guard.mutation, Endpoint.changes, Endpoint.method]

theorem guard_permission {endpoint : Endpoint} {route : Route} (h : endpoint.guard = .permission route) :
    endpoint = .runtime route := by
  cases endpoint <;> simp_all [Endpoint.guard, Guard.principal, Guard.mutation]

/-! ## The stages -/

/-- A request that changes something has passed the check of its token when it acts for a session. -/
def StageChecked (settings : Settings) (request : HttpRequest) : Stage → Prop
  | .handling principal => ∀ p, principal = some p → request.endpoint.changes → request.endpoint.exempt = false →
      Checked settings request p
  | .managing p _ => request.endpoint.changes → Checked settings request p
  | .acting principal _ => ∀ p, principal = some p → request.endpoint.changes → Checked settings request p
  | .arrived | .answered _ | .delivered _ => True

theorem authenticateRequest_checked : StageChecked settings request (authenticateRequest settings chance db request) := by
  unfold authenticateRequest
  split
  · intro p hp
    cases hp
  · trivial
  next p _ =>
    split
    · split
      · trivial
      · trivial
      next hcsrf =>
        intro p' hp' _ _
        obtain rfl : p = p' := Option.some.inj hp'
        exact checked_of_ok hcsrf
    next hsafe =>
      intro p' _ hchanges hexempt
      simp [hchanges, hexempt] at hsafe

/-- Behind the check of the route, the session is there and the token was checked if it was to be. -/
theorem authenticated_holds {P : Stage → Prop} {csrf : Bool} {next : SessionPrincipal → Stage} (hanswered : ∀ reply, P (.answered reply))
    (hnext : ∀ p, identify settings chance db request = .ok p → (csrf = true → Checked settings request p) → P (next p)) :
    P (authenticated settings chance db request csrf next) := by
  unfold authenticated
  split
  · exact hanswered _
  · exact hanswered _
  next p hp =>
    split
    · split
      · exact hanswered _
      · exact hanswered _
      next hcsrf => exact hnext p hp fun _ => checked_of_ok hcsrf
    next hcsrf => exact hnext p hp fun h => absurd h hcsrf

theorem handle_checked (h : StageChecked settings request (.handling principal)) :
    StageChecked settings request (handle settings chance db request principal) := by
  unfold handle
  split
  · split
    · split
      · intro p hp
        cases hp
      · trivial
    · intro p hp
      cases hp
  · split
    · intro p hp
      cases hp
    · apply authenticated_holds fun _ => trivial
      intro p _ hchecked p' hp' _
      obtain rfl : p = p' := Option.some.inj hp'
      exact hchecked rfl
  next csrf vault operation hguard =>
    apply authenticated_holds fun _ => trivial
    intro p _ hchecked
    cases vault with
    | true => exact fun hchanges => hchecked (changes_of_guard hguard hchanges)
    | false =>
      intro p' hp' hchanges
      obtain rfl : p = p' := Option.some.inj hp'
      exact hchecked (changes_of_guard hguard hchanges)
  next route hguard =>
    split
    · trivial
    next p =>
      split
      · intro p' hp' hchanges
        refine h p' hp' hchanges ?_
        rw [guard_permission hguard]
        rfl
      · trivial
      · trivial

theorem manage_checked (h : StageChecked settings request (.managing p operation)) :
    StageChecked settings request (manage db request p operation).2 := by
  unfold manage
  dsimp only
  split
  · intro p' hp' hchanges
    obtain rfl : p = p' := Option.some.inj hp'
    exact h hchanges
  · trivial

/-! ## Whom a stage acts for -/

theorem authenticateRequest_principal (h : (authenticateRequest settings chance db request).principal = some p) :
    identify settings chance db request = .ok p := by
  unfold authenticateRequest at h
  split at h
  · cases h
  · cases h
  next p' hp' =>
    split at h
    · split at h
      · cases h
      · cases h
      · rw [hp', Option.some.inj h]
    · rw [hp', Option.some.inj h]

theorem authenticated_principal {csrf : Bool} {next : SessionPrincipal → Stage} (hnext : ∀ p, (next p).principal = some p)
    (h : (authenticated settings chance db request csrf next).principal = some p) :
    identify settings chance db request = .ok p := by
  unfold authenticated at h
  split at h
  · cases h
  · cases h
  next p' hp' =>
    split at h
    · split at h
      · cases h
      · cases h
      · rw [hp', Option.some.inj ((hnext p').symm.trans h)]
    · rw [hp', Option.some.inj ((hnext p').symm.trans h)]

theorem handle_principal (h : (handle settings chance db request principal).principal = some p) :
    principal = some p ∨ identify settings chance db request = .ok p := by
  unfold handle at h
  split at h
  · split at h
    · split at h <;> cases h
    · cases h
  · split at h
    · cases h
    · exact .inr (authenticated_principal (fun _ => rfl) h)
  next csrf vault operation _ =>
    refine .inr (authenticated_principal ?_ h)
    intro p'
    cases vault <;> rfl
  · split at h
    · cases h
    · split at h
      · exact .inl h
      · cases h
      · cases h

theorem manage_principal {p' : SessionPrincipal} (h : (manage db request p operation).2.principal = some p') : p = p' := by
  unfold manage at h
  dsimp only at h
  split at h
  · exact Option.some.inj h
  · cases h

/-! ## What a step does -/

/-- The next stage of a request. -/
inductive Moves (settings : Settings) (db : SecurityDb) (request : HttpRequest) : Stage → Stage → Prop
  | arrived (chance : Chance) : Moves settings db request .arrived (authenticateRequest settings chance db request)
  | handling (chance : Chance) (principal : Option SessionPrincipal) :
    Moves settings db request (.handling principal) (handle settings chance db request principal)
  | managing (p : SessionPrincipal) (operation : Option Operation) :
    Moves settings db request (.managing p operation) (manage db request p operation).2
  | acting (principal : Option SessionPrincipal) (operation : Option Operation) (reply : Reply) :
    Moves settings db request (.acting principal operation) (.answered reply)
  | answered (reply : Reply) : Moves settings db request (.answered reply) (.delivered reply)

theorem Moves.checked {stage' : Stage} (h : Moves settings db request stage stage') (hstage : StageChecked settings request stage) :
    StageChecked settings request stage' := by
  cases h with
  | arrived chance => exact authenticateRequest_checked
  | handling chance principal => exact handle_checked hstage
  | managing p operation => exact manage_checked hstage
  | acting principal operation reply => trivial
  | answered reply => trivial

theorem Moves.acts_for {stage' : Stage} (h : Moves settings db request stage stage') (hp : stage'.principal = some p) :
    stage.principal = some p ∨ ∃ chance, identify settings chance db request = .ok p := by
  cases h with
  | arrived chance => exact .inr ⟨chance,authenticateRequest_principal hp⟩
  | handling chance principal =>
    cases handle_principal hp with
    | inl hsame => exact .inl hsame
    | inr hfound => exact .inr ⟨chance,hfound⟩
  | managing p' operation =>
    obtain rfl := manage_principal hp
    exact .inl rfl
  | acting principal operation reply => cases hp
  | answered reply => cases hp

/-- The request has just come from a page, with its origin. -/
structure Arrives (settings : Settings) (label : Label) (web : Web) (exchange : Exchange) : Prop where
  stage : exchange.stage = .arrived
  found : exchange.found = web.db
  sender : ∃ page, web.pages[exchange.request.page]? = some page ∧ exchange.request.origin = page.origin ∧
    (Unguessed settings label web → ∀ csrf, exchange.request.csrf = some csrf →
      csrf ∈ page.tokens ∨ ∀ s, csrf ≠ settings.csrfToken s)

structure Turned (settings : Settings) (label : Label) (web web' : Web) : Prop where
  exchanges : ∀ (i : Nat) (exchange' : Exchange), web'.exchanges[i]? = some exchange' →
    web.exchanges[i]? = some exchange' ∨
    (∃ exchange : Exchange, web.exchanges[i]? = some exchange ∧ exchange'.request = exchange.request ∧
      exchange'.found = exchange.found ∧ Moves settings web.db exchange.request exchange.stage exchange'.stage) ∨
    Arrives settings label web exchange'
  kept : ∀ (i : Nat) (exchange : Exchange), web.exchanges[i]? = some exchange →
    ∃ exchange' : Exchange, web'.exchanges[i]? = some exchange' ∧ exchange'.request = exchange.request ∧
      exchange'.found = exchange.found
  pages : ∀ (i : Nat) (page : Page), web.pages[i]? = some page →
    ∃ page' : Page, web'.pages[i]? = some page' ∧ page'.origin = page.origin ∧ page.tokens ⊆ page'.tokens
  told : ∀ page' ∈ web'.pages, page' ∈ web.pages ∨ page'.tokens = [] ∨ page'.origin ∈ settings.allowedOrigins
  db : Keeps web.db web'.db ∧ (web.db.UniqueSessions → web'.db.UniqueSessions)
  calls : ∀ call ∈ web'.calls, call ∈ web.calls ∨
    ∃ (exchange : Exchange) (operation : Option Operation),
      web.exchanges[call.exchange]? = some exchange ∧ exchange.stage = .acting call.principal operation

section Turns
variable {web web' : Web} {label : Label} {i : Nat} {exchange : Exchange} {commit : Option SecurityDb}

theorem setStage_exchanges (hi : web.exchanges[i]? = some exchange) (hmoves : Moves settings web.db exchange.request exchange.stage stage) (j : Nat)
    (exchange' : Exchange) (h : (web.setStage i stage).exchanges[j]? = some exchange') :
    web.exchanges[j]? = some exchange' ∨
    ∃ exchange, web.exchanges[j]? = some exchange ∧ exchange'.request = exchange.request ∧ exchange'.found = exchange.found ∧
      Moves settings web.db exchange.request exchange.stage exchange'.stage := by
  unfold Web.setStage at h
  by_cases hij : i = j
  · subst hij
    simp only [List.getElem?_modify_eq, hi, Option.map_eq_map, Option.map_some, Option.some.injEq] at h
    subst h
    exact .inr ⟨exchange,hi,rfl,rfl,hmoves⟩
  · rw [List.getElem?_modify_ne _ _ hij] at h
    exact .inl h

theorem setStage_kept (i : Nat) (stage : Stage) (j : Nat) (exchange : Exchange) (h : web.exchanges[j]? = some exchange) :
    ∃ exchange', (web.setStage i stage).exchanges[j]? = some exchange' ∧ exchange'.request = exchange.request ∧
      exchange'.found = exchange.found := by
  unfold Web.setStage
  by_cases hij : i = j
  · subst hij
    refine ⟨{ exchange with stage := stage },?_,rfl,rfl⟩
    simp [h]
  · exact ⟨exchange,by rw [List.getElem?_modify_ne _ _ hij, h],rfl,rfl⟩

theorem commit_keeps (h : ∀ after, commit = some after → Keeps web.db after ∧ (web.db.UniqueSessions → after.UniqueSessions)) :
    Keeps web.db (web.commit commit).db ∧ (web.db.UniqueSessions → (web.commit commit).db.UniqueSessions) := by
  cases commit with
  | none => exact ⟨Keeps.refl web.db,id⟩
  | some after => exact h after rfl

theorem act_commit (after : SecurityDb) (h : (act settings chance db request principal operation).1 = some after) :
    Keeps db after ∧ (db.UniqueSessions → after.UniqueSessions) := by
  cases operation with
  | none => cases h
  | some operation =>
    unfold act at h
    dsimp only at h
    split at h
    · cases h
    · exact Operation.keeping settings chance db operation after h

/-- A turn of a request whose stage is its own only. -/
theorem turned_stage (hi : web.exchanges[i]? = some exchange) (hmoves : Moves settings web.db exchange.request exchange.stage stage)
    (hcommit : ∀ after, commit = some after → Keeps web.db after ∧ (web.db.UniqueSessions → after.UniqueSessions)) :
    Turned settings label web ((web.commit commit).setStage i stage) where
  exchanges j exchange' h := by
    have hstaged : (web.setStage i stage).exchanges[j]? = some exchange' := h
    cases setStage_exchanges hi hmoves j exchange' hstaged with
    | inl hsame => exact .inl hsame
    | inr hmoved => exact .inr (.inl hmoved)
  kept := fun j exchange h => by
    have hkept := setStage_kept i stage j exchange h
    exact hkept
  pages j page h := ⟨page,h,rfl,List.Subset.refl page.tokens⟩
  told page h := .inl h
  db := commit_keeps hcommit
  calls call h := .inl h

theorem turned_alone (hi : web.exchanges[i]? = some exchange) (hmoves : Moves settings web.db exchange.request exchange.stage stage) :
    Turned settings label web (web.setStage i stage) := by
  have hturned : Turned settings label web ((web.commit none).setStage i stage) :=
    turned_stage hi hmoves fun _ hnone => nomatch hnone
  exact hturned

theorem resume_turned (hi : web.exchanges[i]? = some exchange) (h : web.resume settings i exchange chance = some web') :
    Turned settings label web web' := by
  unfold Web.resume at h
  split at h
  next hstage =>
    cases h
    exact turned_alone hi (hstage ▸ .arrived chance)
  next principal hstage =>
    cases h
    exact turned_alone hi (hstage ▸ .handling chance principal)
  next p operation hstage =>
    cases h
    refine turned_stage hi (hstage ▸ .managing p operation) ?_
    exact Operation.keeping settings chance web.db (.requireVaultManagement p)
  next principal operation hstage =>
    cases h
    have hturned : Turned settings label web ((web.commit (act settings chance web.db exchange.request principal operation).1).setStage i
        (.answered (act settings chance web.db exchange.request principal operation).2)) :=
      turned_stage hi (hstage ▸ .acting principal operation _) act_commit
    refine ⟨hturned.exchanges,hturned.kept,hturned.pages,hturned.told,hturned.db,?_⟩
    intro call hcall
    cases List.mem_append.mp hcall with
    | inl hold => exact .inl hold
    | inr hnew =>
      obtain rfl := List.mem_singleton.mp hnew
      exact .inr ⟨exchange,operation,hi,hstage⟩
  · cases h
  · cases h

theorem deliver_turned {reply : Reply} {page : Page} (hi : web.exchanges[i]? = some exchange) (hstage : exchange.stage = .answered reply)
    (hpage : web.pages[exchange.request.page]? = some page) : Turned settings label web (web.deliver settings i exchange reply page) := by
  have hturned : Turned settings label web (web.setStage i (.delivered reply)) := turned_alone hi (hstage ▸ .answered reply)
  refine ⟨hturned.exchanges,hturned.kept,?_,?_,hturned.db,hturned.calls⟩
  · intro j page' hj
    unfold Web.deliver
    by_cases hown : settings.allowedOrigins.contains page.origin
    · simp only [hown, if_true]
      by_cases hsame : exchange.request.page = j
      · subst hsame
        refine ⟨{ page' with tokens := reply.csrfToken.toList ++ page'.tokens },by simp [hj],rfl,?_⟩
        exact List.subset_append_right reply.csrfToken.toList page'.tokens
      · exact ⟨page',by rw [List.getElem?_modify_ne _ _ hsame, hj],rfl,List.Subset.refl page'.tokens⟩
    · simp only [hown]
      exact ⟨page',hj,rfl,List.Subset.refl page'.tokens⟩
  · intro page' hmem
    unfold Web.deliver at hmem
    by_cases hown : settings.allowedOrigins.contains page.origin
    · simp only [hown, if_true] at hmem
      obtain ⟨j,hj⟩ := List.mem_iff_getElem?.mp hmem
      by_cases hsame : exchange.request.page = j
      · subst hsame
        simp only [List.getElem?_modify_eq, hpage, Option.map_eq_map, Option.map_some, Option.some.injEq] at hj
        subst hj
        exact .inr (.inr (List.contains_iff_mem.mp hown))
      · rw [List.getElem?_modify_ne _ _ hsame] at hj
        exact .inl (List.mem_of_getElem? hj)
    · simp only [hown] at hmem
      exact .inl hmem

theorem step_turned (h : step settings label web = some web') : Turned settings label web web' := by
  cases label with
  | open_ browser origin =>
    cases h
    refine ⟨fun _ _ h => .inl h,fun _ exchange h => ⟨exchange,h,rfl,rfl⟩,?_,?_,⟨Keeps.refl web.db,id⟩,fun _ h => .inl h⟩
    · intro i page hi
      have hlt : i < web.pages.length := (List.getElem?_eq_some_iff.mp hi).1
      exact ⟨page,by rw [List.getElem?_append_left hlt, hi],rfl,List.Subset.refl page.tokens⟩
    · intro page hpage
      cases List.mem_append.mp hpage with
      | inl hold => exact .inl hold
      | inr hnew => exact .inr (.inl (by rw [List.mem_singleton.mp hnew]))
  | send page endpoint csrf loopback =>
    obtain ⟨sender,hsender,hweb⟩ := Option.map_eq_some_iff.mp h
    cases hweb
    refine ⟨?_,?_,fun i page h => ⟨page,h,rfl,List.Subset.refl page.tokens⟩,fun _ h => .inl h,⟨Keeps.refl web.db,id⟩,fun _ h => .inl h⟩
    · intro i exchange' hi
      rw [List.getElem?_append] at hi
      split at hi
      · exact .inl hi
      · have hnew := List.mem_singleton.mp (List.mem_of_getElem? hi)
        subst hnew
        refine .inr (.inr ⟨rfl,rfl,sender,hsender,rfl,?_⟩)
        intro hunguessed csrf' hcsrf
        cases hcsrf
        cases hunguessed with
        | inl htold =>
          obtain ⟨sender',hsender',hmem⟩ := htold
          obtain rfl : sender = sender' := Option.some.inj (hsender.symm.trans hsender')
          exact .inl hmem
        | inr hforeign => exact .inr hforeign
    · intro i exchange hi
      have hlt : i < web.exchanges.length := (List.getElem?_eq_some_iff.mp hi).1
      exact ⟨exchange,by rw [List.getElem?_append_left hlt, hi],rfl,rfl⟩
  | resume i chance =>
    obtain ⟨exchange,hi,hresume⟩ := Option.bind_eq_some_iff.mp h
    exact resume_turned hi hresume
  | receive i =>
    obtain ⟨exchange,hi,hreceive⟩ := Option.bind_eq_some_iff.mp h
    split at hreceive
    next reply hstage =>
      obtain ⟨page,hpage,hweb⟩ := Option.map_eq_some_iff.mp hreceive
      split at hweb
      · cases hweb
        exact turned_alone hi (hstage ▸ .answered reply)
      · cases hweb
        exact deliver_turned hi hstage hpage
    · cases hreceive

end Turns

end AgentGraph.Api.Gateway
