import AgentGraph.Security.Serving

/-! # The second factor

A session reaches `PASSKEY_TOTP` through `verify_totp` only, with a code for the
secret that is stored then. As long as no `confirm_totp_enrollment` stores another
secret, that is the enrolled one. The enrollment itself asks for no stepped-up
session, so the secret can be replaced.
-/
set_option autoImplicit false
namespace AgentGraph.Security
open Transition

variable {settings : Settings} {s s' : Server} {l : Label} {i : Nat} {r : Request} {pc : Pc} {now : Instant}
  {eff : Effect} {db db' : Db} {c : Ctl} {w : Option Db} {commit : Bool} {u : UserId} {secret : String}

/-- The session has not been stepped up, if it is one of `u`. -/
def SessionRecord.Unstepped (u : UserId) (row : SessionRecord Instant) : Prop :=
  row.userId = u → row.stepUpAt = none ∧ row.strength ≠ .passkeyTotp

/-- `u` has an enrolled, unrevoked factor with this secret, and no stepped-up session. -/
structure Db.Guarded (settings : Settings) (u : UserId) (secret : String) (db : Db) : Prop where
  factor : ∃ factor, db.factors u = some factor ∧ factor.revokedAt = none ∧
    settings.decrypt factor.encryptedSecret = some secret
  sessions : ∀ row ∈ db.sessions, row.Unstepped u

/-- The principals in the answer of a request. -/
def Result.principal? : Result → Option SessionPrincipal
  | .principal p | .tokens _ p => some p
  | .returned | .raised _ => none

/-- No principal of `u` in the answer is stepped up. -/
def Result.Unstepped (u : UserId) (result : Result) : Prop :=
  ∀ p, result.principal? = some p → p.userId = u → p.authenticationStrength ≠ .passkeyTotp

/-- The principal is one of a session row. -/
def Db.Holds (db : Db) (p : SessionPrincipal) : Prop :=
  ∃ row ∈ db.sessions, row.id = p.sessionId ∧ row.userId = p.userId

/-- What a request knows while no session of `u` is stepped up. -/
def Pc.Guarded (settings : Settings) (u : UserId) (db : Db) : Pc → Prop
  | .principalUser record _ | .principalDevice record _ _ =>
    record.Unstepped u ∧ ∃ row ∈ db.sessions, record.Keeps row
  | .totpFactor p _ => db.Holds p
  | .totpSession p => db.Holds p ∧ p.userId ≠ u
  | .totpStepUp p record _ => db.Holds p ∧ p.userId ≠ u ∧ record.id = p.sessionId
  | .totpCommit p _ | .totpUser p _ => p.userId ≠ u
  | .enrollmentRead _ secret encrypted | .enrollmentWrite _ secret encrypted _ =>
    settings.decrypt encrypted = some secret
  | .audit result | .commit result => result.Unstepped u
  | _ => True

def Ctl.Guarded (settings : Settings) (u : UserId) (db : Db) : Ctl → Prop
  | .at pc => pc.Guarded settings u db
  | .done result => result.Unstepped u

/-- The statement does not store another secret for `u`. -/
def Pc.keepsSecret (u : UserId) (secret : String) : Pc → Bool
  | .enrollmentWrite p secret' _ _ => p.userId != u || secret' == secret
  | _ => true

/-- The statement does not verify a code of `u` that is valid for the secret. -/
def Pc.presentsNoCode (settings : Settings) (u : UserId) (secret : String) (now : Instant) : Pc → Bool
  | .totpFactor p code => p.userId != u || !settings.totpVerify secret code now
  | _ => true

/-- No `confirm_totp_enrollment` of `u` stores another secret. -/
def keepsSecret (u : UserId) (secret : String) : Label → Server → Bool
  | .run i _ _, s => (s.pc? i).all (Pc.keepsSecret u secret)
  | _, _ => true

/-- No `verify_totp` of `u` is given a code that is valid for the secret. -/
def presentsNoCode (settings : Settings) (u : UserId) (secret : String) : Label → Server → Bool
  | .run i _ now, s => (s.pc? i).all (Pc.presentsNoCode settings u secret now)
  | _, _ => true

theorem Db.Holds.advances {p : SessionPrincipal} (h : db.Holds p) (ha : Advances db db') : db'.Holds p := by
  obtain ⟨row,hrow,hid,huser⟩ := h
  obtain ⟨row',hrow',hk⟩ := ha.sessions row hrow
  exact ⟨row',hrow',hk.id.trans hid,hk.userId.trans huser⟩

theorem Db.Holds.userId {p : SessionPrincipal} (h : db.Holds p) (hu : db.Unique) {row : SessionRecord Instant}
    (hrow : row ∈ db.sessions) (hid : row.id = p.sessionId) : row.userId = p.userId := by
  obtain ⟨row',hrow',hid',huser⟩ := h
  obtain rfl := hu.eq_of hrow hrow' (.inl (hid.trans hid'.symm))
  exact huser

theorem Pc.Guarded.advances (h : pc.Guarded settings u db) (ha : Advances db db') : pc.Guarded settings u db' := by
  have hrecord {record : SessionRecord Instant} (h : record.Unstepped u ∧ ∃ row ∈ db.sessions, record.Keeps row) :
      record.Unstepped u ∧ ∃ row ∈ db'.sessions, record.Keeps row := by
    obtain ⟨hu,row,hrow,hk⟩ := h
    obtain ⟨row',hrow',hk'⟩ := ha.sessions row hrow
    exact ⟨hu,row',hrow',hk.trans hk'⟩
  cases pc with
  | principalUser => exact hrecord h
  | principalDevice => exact hrecord h
  | totpFactor => exact Db.Holds.advances h ha
  | totpSession => exact ⟨h.1.advances ha,h.2⟩
  | totpStepUp => exact ⟨h.1.advances ha,h.2⟩
  | _ => exact h

theorem Ctl.Guarded.advances (h : c.Guarded settings u db) (ha : Advances db db') : c.Guarded settings u db' := by
  cases c with
  | «at» pc => exact Pc.Guarded.advances h ha
  | done result => exact h

theorem unstepped_ite {row row' : SessionRecord Instant} {p : Prop} [Decidable p] (h : p → row'.Unstepped u)
    (h' : row.Unstepped u) : (if p then row' else row).Unstepped u := by
  split
  next hp => exact h hp
  · exact h'

theorem sessionStrength_unstepped {record : SessionRecord Instant} (h : record.Unstepped u) (hu : record.userId = u) :
    sessionStrength record ≠ .passkeyTotp := by
  obtain ⟨hnone,hs⟩ := h hu
  simpa [sessionStrength,hnone] using hs

/-- Resolving the token of an un-stepped session leads to no stepped-up principal. -/
theorem Action.start_guarded (hfernet : ∀ x n, settings.decrypt (settings.encrypt x n) = some x) {p : SessionPrincipal}
    (hp : db.Holds p) (hu : p.userId = u → p.authenticationStrength ≠ .passkeyTotp) (k : Action) :
    (k.start settings now p).next.Guarded settings u db := by
  have hraise (e : ServiceError) : Result.Unstepped u (.raised e) := fun _ h => nomatch h
  cases k with
  | returnPrincipal =>
    intro p' hp' huser
    cases hp'
    exact hu huser
  | beginTotpEnrollment => exact fun _ h => nomatch h
  | confirmTotpEnrollment secret code nonce =>
    simp only [Action.start]
    split
    · exact hfernet secret nonce
    · exact hraise _
  | verifyTotp code => exact hp
  | trustDevice d | revokeDevice d =>
    simp only [Action.start]
    split
    · trivial
    · exact hraise _
  | logout | renameDevice => trivial

/-- Where a statement leads, on the rows `db` it sees and the committed rows `db'`. -/
theorem Next.guarded (hfernet : ∀ x n, settings.decrypt (settings.encrypt x n) = some x)
    (h : Next settings db now pc c w commit) (hdb : db.Guarded settings u secret)
    (hv : pc.resolving = true → db = db') (hp : pc.Guarded settings u db')
    (hcode : pc.presentsNoCode settings u secret now = true) : c.Guarded settings u db' := by
  cases h with
  | raised | loggedOut | revoked | registrationLost | authenticationLost => exact fun _ h => nomatch h
  | principalSession _ _ _ record h =>
    obtain rfl := hv rfl
    obtain ⟨hmem,-⟩ := Db.sessionByTokenHash_mem h
    exact ⟨hdb.sessions record hmem,record,hmem,.refl record⟩
  | principalUser => exact hp
  | principalDevice record user k p h _ he =>
    obtain ⟨_,_,-,-,-,rfl⟩ := resolvePrincipal_ok h
    obtain ⟨hunstepped,row,hrow,hk⟩ := hp
    rw [he]
    exact k.start_guarded hfernet ⟨row,hrow,hk.id,hk.userId⟩ (sessionStrength_unstepped hunstepped)
  | createSession =>
    intro p hp _
    cases hp
    exact AuthenticationStrength.noConfusion
  | totpFactor p code secret' factor h hr hs hv =>
    refine ⟨hp,fun huser => ?_⟩
    obtain ⟨factor',hf,-,hs'⟩ := hdb.factor
    rw [huser,hf] at h
    cases h
    rw [hs'] at hs
    cases hs
    simp [Pc.presentsNoCode,huser,hv] at hcode
  | totpDenied => exact fun _ h => nomatch h
  | totpSession p record h => exact ⟨hp.1,hp.2,(Db.session_mem h).2⟩
  | totpStepUp => exact hp.2.1
  | totpCommit => exact hp
  | totpUser =>
    intro p' hp' huser
    cases hp'
    exact absurd huser hp
  | enrollmentRead => exact hp
  | enrollmentWrite | logoutWrite | trusted | trustWrite | renamed | renameWrite | revokeSessions =>
    exact fun _ h => nomatch h
  | audit | commit => exact hp
  | _ => trivial

/-- What a statement writes. -/
theorem Next.write_guarded (h : Next settings db now pc c (some db') commit) (hdb : db.Guarded settings u secret)
    (hu : db.Unique) (hp : pc.Guarded settings u db) (hs : pc.keepsSecret u secret = true) :
    db'.Guarded settings u secret := by
  cases h with
  | registrationDevice _ _ _ _ _ _ _ _ h =>
    obtain ⟨-,rfl⟩ := insertDevice_eq h
    exact ⟨hdb.factor,hdb.sessions⟩
  | registrationPasskey _ _ _ _ _ _ _ h =>
    rw [insertPasskey_eq h]
    exact ⟨hdb.factor,hdb.sessions⟩
  | createSession _ _ _ _ _ _ _ _ h =>
    obtain ⟨-,rfl⟩ := insertSession_eq h
    refine ⟨hdb.factor,fun row hrow => ?_⟩
    obtain hrow | hrow := List.mem_append.mp hrow
    · exact hdb.sessions row hrow
    · rw [List.mem_singleton.mp hrow]
      exact fun _ => ⟨rfl,AuthenticationStrength.noConfusion⟩
  | totpStepUp p record =>
    refine ⟨hdb.factor,fun row' hrow' => ?_⟩
    obtain ⟨row,hrow,rfl⟩ := List.mem_map.mp hrow'
    refine unstepped_ite (fun hid huser => ?_) (hdb.sessions row hrow)
    -- the row that is stepped up is the principal's
    have heq := hp.1.userId hu hrow (hid.trans hp.2.2)
    exact absurd (heq.symm.trans huser) hp.2.1
  | logoutWrite | revokeSessions =>
    refine ⟨hdb.factor,fun row' hrow' => ?_⟩
    obtain ⟨row,hrow,rfl⟩ := List.mem_map.mp hrow'
    exact unstepped_ite (fun _ => hdb.sessions row hrow) (hdb.sessions row hrow)
  | enrollmentWrite p secret' encrypted existing _ h =>
    rw [upsertFactor_eq h]
    refine ⟨?_,hdb.sessions⟩
    by_cases huser : p.userId = u
    · obtain rfl : secret' = secret := by simpa [Pc.keepsSecret,huser] using hs
      subst huser
      exact ⟨_,Function.update_self _ _ _,rfl,hp⟩
    · obtain ⟨factor,hf⟩ := hdb.factor
      exact ⟨factor,(Function.update_of_ne (Ne.symm huser) _ _).trans hf.1,hf.2⟩
  | _ => exact ⟨hdb.factor,hdb.sessions⟩

/-- Nothing of `u` is stepped up, neither in the database nor in a request. -/
structure Guarded (settings : Settings) (u : UserId) (secret : String) (s : Server) : Prop where
  db : s.db.Guarded settings u secret
  working : ∀ i, s.writer = some i → s.working.Guarded settings u secret
  tasks : ∀ i r c, s.tasks i = some ⟨r,c⟩ → c.Guarded settings u s.db

theorem Server.Ran.guarded (hfernet : ∀ x n, settings.decrypt (settings.encrypt x n) = some x)
    (h : s.Ran settings l i r pc now eff s') (hcode : presentsNoCode settings u secret l s = true)
    (hkeep : keepsSecret u secret l s = true) (hs : Serving s)
    (hg : Guarded settings u secret s) : Guarded settings u secret s' := by
  have hview : (s.view i).Guarded settings u secret := by
    unfold Server.view
    split
    next hw => exact hg.working i hw
    · exact hg.db
  have hpc : pc.Guarded settings u s.db := hg.tasks i r _ h.task
  have hnext : eff.next.Guarded settings u s.db ∧ ∀ db, eff.write = some db → db.Guarded settings u secret := by
    obtain ⟨ch,rfl⟩ | ⟨-,rfl⟩ := h.label
    · have hpc? := Server.pc?_eq_some.mpr ⟨r,h.task⟩
      simp only [presentsNoCode, keepsSecret, hpc?, Option.all_some] at hcode hkeep
      refine ⟨h.next.guarded hfernet hview (hs.view_eq h.task) hpc hcode,fun db he => ?_⟩
      have hn := h.next
      rw [he] at hn
      exact hn.write_guarded hview (hs.view i).2 (hpc.advances (hs.view i).1) hkeep
    · exact ⟨fun _ h => (nomatch h),fun _ h => (nomatch h)⟩
  refine ⟨?_,?_,?_⟩
  · cases h.applied with
    | kept hdb | wrote hdb | rolledBack hdb =>
      rw [hdb]
      exact hg.db
    | committed _ _ hdb =>
      obtain he | ⟨-,hw,hdb⟩ := hdb
      · exact hnext.2 _ he
      · rw [hdb]
        exact hg.working i hw
  · intro j hj
    cases h.applied with
    | kept _ hw hk =>
      rw [hw] at hj
      rw [hk]
      exact hg.working j hj
    | wrote _ _ he => exact hnext.2 _ he
    | rolledBack _ hw | committed hw =>
      rw [hw] at hj
      cases hj
  · intro j r' c ht
    obtain ⟨rfl,ht⟩ | ⟨-,ht⟩ := h.task_cases ht
    · obtain ⟨rfl,rfl⟩ := Task.mk.inj ht
      exact hnext.1.advances (h.db hs).1
    · exact Ctl.Guarded.advances (hg.tasks j r' c ht) (h.db hs).1

theorem Server.Accepted.guarded (h : s.Accepted l r now s') (hg : Guarded settings u secret s) :
    Guarded settings u secret s' := by
  have hdb : s'.db = s.db := by rw [h.eq]
  refine ⟨hdb ▸ hg.db,fun j hj => ?_,fun j r' c ht => ?_⟩
  · rw [h.eq] at hj ⊢
    exact hg.working j hj
  · rw [hdb]
    obtain ⟨-,ht⟩ | ht := h.task_cases ht
    · obtain ⟨rfl,rfl⟩ := Task.mk.inj ht
      cases r' with
      | withSession token k =>
        by_cases htoken : token = ""
        · rw [Request.begin, if_pos htoken]
          exact fun _ h => nomatch h
        · rw [Request.begin, if_neg htoken]
          trivial
      | _ => trivial
    · exact hg.tasks j r' c ht

/-- The principals of a request: the one its token resolves to, and those it answers. -/
inductive Server.Yields (s : Server) (p : SessionPrincipal) : Prop
  | resolved (i : Nat) (token : String) (h : s.ReturnsPrincipal i token p)
  | answered (i : Nat) (r : Request) (result : Result) (ht : s.tasks i = some ⟨r,.done result⟩)
      (hp : result.principal? = some p)

theorem Guarded.yields (hg : Guarded settings u secret s) {p : SessionPrincipal} (h : s.Yields p)
    (hu : p.userId = u) : p.authenticationStrength ≠ .passkeyTotp := by
  cases h with
  | resolved i token h =>
    obtain ⟨record,user,k,k',ht,hp⟩ := h
    obtain ⟨hunstepped,-⟩ : record.Unstepped u ∧ _ := hg.tasks i _ _ ht
    obtain ⟨_,_,-,-,-,rfl⟩ := resolvePrincipal_ok hp
    exact sessionStrength_unstepped hunstepped hu
  | answered i r result ht hp => exact hg.tasks i r _ ht p hp hu

theorem require_mfa {p : SessionPrincipal} (h : p.authenticationStrength ≠ .passkeyTotp) (permission : Permission)
    (lockedDown : Bool) : ∃ e, require p permission true lockedDown = .error e := by
  unfold require
  split
  · exact ⟨_,rfl⟩
  · rw [if_pos (by simpa using h)]
    exact ⟨_,rfl⟩

/-- While no `confirm_totp_enrollment` of `u` stores another secret and no valid code is
presented, no session of `u` is stepped up and no principal of `u` passes a check that
asks for the second factor. -/
theorem second_factor_not_bypassed {clock : Instant}
    (hfernet : ∀ x n, settings.decrypt (settings.encrypt x n) = some x) (hdb : db.Guarded settings u secret)
    (hu : db.Unique)
    (h : Run settings (fun l s => presentsNoCode settings u secret l s ∧ keepsSecret u secret l s)
      (initial db clock) s) :
    (∀ row ∈ s.db.sessions, row.userId = u → sessionStrength row ≠ .passkeyTotp) ∧
      ∀ p, s.Yields p → p.userId = u → p.authenticationStrength ≠ .passkeyTotp ∧
        ∀ permission lockedDown, ∃ e, require p permission true lockedDown = .error e := by
  have hinit : Guarded settings u secret (initial db clock) :=
    ⟨hdb,fun _ hw => (nomatch hw),fun _ _ _ ht => (nomatch ht)⟩
  obtain ⟨hs,hg⟩ : Serving s ∧ Guarded settings u secret s := by
    refine Reaches.invariant (I := fun t => Serving t ∧ Guarded settings u secret t) (fun l t t' ht hok hstep => ?_) h
      ⟨initial_serving clock hu,hinit⟩
    refine ⟨(step_serving ht.1 hstep).1,?_⟩
    obtain ⟨_,_,h⟩ | ⟨_,_,_,_,_,h⟩ := step_cases hstep
    · exact h.guarded ht.2
    · exact h.guarded hfernet hok.1 hok.2 ht.1 ht.2
  refine ⟨fun row hrow => sessionStrength_unstepped (hg.db.sessions row hrow),fun p hp huser => ?_⟩
  have hstrength := hg.yields hp huser
  exact ⟨hstrength,require_mfa hstrength⟩

/-- The owner has a session and an enrolled factor with the secret "enrolled". -/
def enrolledDb : Db where
  users u := if u = 0 then some ⟨"owner",.owner,none⟩ else none
  devices d := if d = 7 then some ⟨0,"Passkey device",.limited,none,none⟩ else none
  sessions := [⟨3,0,7,"token",.passkey,3600,none,none⟩]
  passkeys _ := none
  challenges _ := none
  factors u := if u = 0 then some ⟨"enrolled",none⟩ else none

theorem enrolledDb_guarded : enrolledDb.Guarded sampleSettings 0 "enrolled" := by
  refine ⟨⟨_,rfl,rfl,rfl⟩,fun row hrow => ?_⟩
  rw [List.mem_singleton.mp hrow]
  exact fun _ => ⟨rfl,AuthenticationStrength.noConfusion⟩

theorem enrolledDb_unique : enrolledDb.Unique := List.pairwise_singleton _ _

/-- A wrong code, and then the principal of the session. -/
def deniedTrace : List Label :=
  [.request (.withSession "token" (.verifyTotp "wrong")) 1] ++ resumeTimes 0 6 1 ++
    [.request (.withSession "token" .returnPrincipal) 2] ++ resumeTimes 1 3 2

theorem second_factor_not_bypassed_denied :
    ∃ p, (after (step sampleSettings) deniedTrace (initial enrolledDb 0) (by decide)).Yields p ∧ p.userId = 0 ∧
      p.authenticationStrength ≠ .passkeyTotp ∧ ∃ e, require p .read true false = .error e := by
  have hrun := after_reaches (fun l s => presentsNoCode sampleSettings 0 "enrolled" l s ∧ keepsSecret 0 "enrolled" l s)
    (show (exec (step sampleSettings) deniedTrace (initial enrolledDb 0)).isSome = true by decide) (by decide)
  refine ⟨_,.answered 1 _ _ rfl rfl,rfl,?_⟩
  obtain ⟨hs,hr⟩ := (second_factor_not_bypassed (fun _ _ => rfl) enrolledDb_guarded enrolledDb_unique hrun).2 _
    (.answered 1 _ _ rfl rfl) rfl
  exact ⟨hs,hr .read false⟩

/-- The session confirms the enrollment of another secret and steps up with its code. -/
def replacedTrace : List Label :=
  [.request (.withSession "token" (.confirmTotpEnrollment "other" "other" 0)) 1] ++ resumeTimes 0 7 1 ++
    [.request (.withSession "token" (.verifyTotp "other")) 2] ++ resumeTimes 1 8 2

/-- Without the enrolled secret, a session that has not been stepped up replaces it and
passes the check that asks for the second factor. -/
theorem confirm_enrollment_replaces_secret :
    ∃ s, Run sampleSettings (fun l s => presentsNoCode sampleSettings 0 "enrolled" l s) (initial enrolledDb 0) s ∧
      ∃ p, s.Yields p ∧ p.userId = 0 ∧ p.authenticationStrength = .passkeyTotp ∧ require p .admin true false = .ok () :=
  ⟨after (step sampleSettings) replacedTrace (initial enrolledDb 0) (by decide),after_reaches _ _ (by decide),
    _,.answered 1 _ _ rfl rfl,rfl,rfl,rfl⟩

end AgentGraph.Security
