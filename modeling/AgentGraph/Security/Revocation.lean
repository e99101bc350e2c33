import AgentGraph.Security.Serving

/-! # Session revocation is permanent

Every committed session row belongs to a login or registration that has returned its
token. A request that starts after a token was rejected reads a later version of the
same row, which is revoked, expired or tied to a revoked device just as before.
-/
set_option autoImplicit false
namespace AgentGraph.Security
open Transition

/-- Request `i` is at the statement where `principal_from_session_token(token)` finds
the session logged out, revoked or past its deadline, or the device revoked. -/
inductive Server.Rejects (settings : Settings) (s : Server) (i : Nat) (token : String) : Prop
  | session (k k' : Action) (started : Instant) (record : SessionRecord Instant)
      (ht : s.tasks i = some ⟨.withSession token k,.at (.principalSession token started k')⟩)
      (h : (s.view i).sessionByTokenHash (settings.tokenHash token) = some record)
      (hr : record.revokedAt.isSome ∨ record.expiresAt ≤ started)
  | device (k k' : Action) (record : SessionRecord Instant) (user : Option (UserRecord Instant))
      (device : DeviceRecord Instant)
      (ht : s.tasks i = some ⟨.withSession token k,.at (.principalDevice record user k')⟩)
      (h : (s.view i).devices record.deviceId = some device) (hr : device.revokedAt.isSome)

/-- The requests that issue a token. -/
def Request.logsIn : Request → Bool
  | .finishRegistration _ | .finishAuthentication _ _ => true
  | .withSession _ _ => false

/-- The statements of the requests that issue a token. -/
def Pc.login : Pc → Bool
  | .registrationChallenge _ | .registrationConsume _ _ _ _ _ | .registrationUser _ _ _
  | .registrationDevice _ _ _ _ _ | .registrationPasskey _ _ _ _ _
  | .authenticationChallenge _ _ | .authenticationPasskey _ _ _ | .authenticationConsume _ _ _ _ _
  | .authenticationUser _ _ _ | .authenticationDevice _ _ _ _ | .authenticationSignCount _ _ _ _ _
  | .authenticationTouch _ _ _ _ | .createSession _ _ _ _ _ => true
  | .audit (.tokens _ _) | .commit (.tokens _ _) => true
  | _ => false

def Ctl.login : Ctl → Bool
  | .at pc => pc.login
  | .done (.tokens _ _) => true
  | .done _ => false

/-- The row is the session that `token` and `p` were issued for. -/
structure SessionRecord.Carries (settings : Settings) (row : SessionRecord Instant) (token : String)
    (p : SessionPrincipal) : Prop where
  tokenHash : row.tokenHash = settings.tokenHash token
  sessionId : p.sessionId = row.id
  userId : p.userId = row.userId
  deviceId : p.deviceId = row.deviceId

/-- A request has returned the token of this session. -/
def Server.Issued (settings : Settings) (s : Server) (row : SessionRecord Instant) : Prop :=
  ∃ i r token p, s.tasks i = some ⟨r,.done (.tokens token p)⟩ ∧ row.Carries settings token p

/-- What a request for `token` knows at its next statement. -/
def Pc.Serves (settings : Settings) (s : Server) (token : String) : Pc → Prop
  | .principalSession token' started _ => token' = token ∧ started ≤ s.clock
  | .principalUser record _ | .principalDevice record _ _ =>
    record.tokenHash = settings.tokenHash token ∧ s.Issued settings record ∧ ∃ row ∈ s.db.sessions, record.Keeps row
  | _ => True

/-- The tokens that the transaction of a request is about to commit. -/
def Pc.issues? : Pc → Option (String × SessionPrincipal)
  | .audit (.tokens token p) | .commit (.tokens token p) => some (token,p)
  | _ => none

/-- Session rows are issued or about to be, and requests hold rows of their token. -/
structure Issuing (settings : Settings) (s : Server) : Prop where
  committed : ∀ row ∈ s.db.sessions, s.Issued settings row
  pending : ∀ i, s.writer = some i → ∀ row ∈ s.working.sessions, s.Issued settings row ∨
    ∃ r pc token p, s.tasks i = some ⟨r,.at pc⟩ ∧ pc.issues? = some (token,p) ∧ row.Carries settings token p
  serves : ∀ i token k pc, s.tasks i = some ⟨.withSession token k,.at pc⟩ → pc.Serves settings s token
  login : ∀ i r c, s.tasks i = some ⟨r,c⟩ → c.login = true → r.logsIn = true

variable {settings : Settings} {s s' : Server} {l : Label} {i : Nat} {r : Request} {pc : Pc} {now : Instant}
  {eff : Effect} {db db' : Db} {c : Ctl} {w : Option Db} {commit : Bool} {row row' : SessionRecord Instant}

theorem SessionRecord.Carries.keeps {token : String} {p : SessionPrincipal} (h : row.Carries settings token p)
    (hk : row.Keeps row') : row'.Carries settings token p :=
  ⟨hk.tokenHash.trans h.tokenHash,h.sessionId.trans hk.id.symm,h.userId.trans hk.userId.symm,
    h.deviceId.trans hk.deviceId.symm⟩

theorem Server.Issued.keeps (h : s.Issued settings row) (hk : row.Keeps row') : s.Issued settings row' := by
  obtain ⟨i,r,token,p,ht,hc⟩ := h
  exact ⟨i,r,token,p,ht,hc.keeps hk⟩

theorem Action.start_login (settings : Settings) (now : Instant) (p : SessionPrincipal) (k : Action) :
    (k.start settings now p).next.login = false := by
  cases k <;> simp only [Action.start] <;> (try split) <;> rfl

theorem Action.start_serves (settings : Settings) (now : Instant) (p : SessionPrincipal) (k : Action) (s : Server)
    (token : String) {pc : Pc} (h : (k.start settings now p).next = .at pc) : pc.Serves settings s token := by
  cases k <;> simp only [Action.start] at h <;> (try split at h) <;> cases h <;> trivial

theorem Next.login (h : Next settings db now pc c w commit) (hc : c.login = true) : pc.login = true := by
  cases h with
  | principalDevice _ _ k p _ _ he =>
    rw [he,k.start_login] at hc
    cases hc
  | audit result | commit result => cases result <;> first | rfl | cases hc
  | _ => first | rfl | cases hc

/-- A written session row is one that was read, or the one a login adds. -/
theorem Next.write_sessions (h : Next settings db now pc c (some db') commit) (hrow : row' ∈ db'.sessions) :
    (∃ row ∈ db.sessions, row.Keeps row') ∨
      ∃ pc' token p, c = .at pc' ∧ pc'.issues? = some (token,p) ∧ row'.Carries settings token p := by
  cases h with
  | createSession _ _ _ _ _ sid token _ h =>
    obtain ⟨-,rfl⟩ := insertSession_eq h
    obtain hrow | hrow := List.mem_append.mp hrow
    · exact .inl ⟨row',hrow,.refl row'⟩
    · rw [List.mem_singleton.mp hrow]
      exact .inr ⟨_,token,_,rfl,rfl,rfl,rfl,rfl,rfl⟩
  | registrationDevice _ _ _ _ _ _ _ _ h =>
    obtain ⟨-,rfl⟩ := insertDevice_eq h
    exact .inl ⟨row',hrow,.refl row'⟩
  | registrationPasskey _ _ _ _ _ _ _ h =>
    rw [insertPasskey_eq h] at hrow
    exact .inl ⟨row',hrow,.refl row'⟩
  | enrollmentWrite _ _ _ _ _ h =>
    rw [upsertFactor_eq h] at hrow
    exact .inl ⟨row',hrow,.refl row'⟩
  | totpStepUp =>
    obtain ⟨row,hmem,rfl⟩ := List.mem_map.mp hrow
    exact .inl ⟨row,hmem,keeps_ite ⟨rfl,rfl,rfl,rfl,rfl,id⟩⟩
  | logoutWrite | revokeSessions =>
    obtain ⟨row,hmem,rfl⟩ := List.mem_map.mp hrow
    exact .inl ⟨row,hmem,keeps_ite ⟨rfl,rfl,rfl,rfl,rfl,fun _ => rfl⟩⟩
  | _ => exact .inl ⟨row',hrow,.refl row'⟩

/-- A transaction that is about to commit tokens only writes its audit event and commits. -/
theorem Next.issues {token : String} {p : SessionPrincipal} (h : Next settings db now pc c w commit)
    (hp : pc.issues? = some (token,p)) :
    (∃ e, c = .done (.raised e)) ∨ (∃ pc', c = .at pc' ∧ pc'.issues? = some (token,p) ∧ w = some db) ∨
      c = .done (.tokens token p) ∧ w = none := by
  cases h with
  | raised => exact .inl ⟨_,rfl⟩
  | audit result =>
    cases result <;> cases hp
    exact .inr (.inl ⟨_,rfl,rfl,rfl⟩)
  | commit result =>
    cases result <;> cases hp
    exact .inr (.inr ⟨rfl,rfl⟩)
  | _ => cases hp

theorem Next.commits (h : Next settings db now pc c w true) : w = none := by
  cases h <;> rfl

/-- An answer stays. -/
theorem Server.Ran.issued (h : s.Ran settings l i r pc now eff s') (hi : s.Issued settings row) :
    s'.Issued settings row := by
  obtain ⟨j,r',token,p,ht,hc⟩ := hi
  refine ⟨j,r',token,p,?_,hc⟩
  rw [h.tasks,Function.update_of_ne]
  · exact ht
  · rintro rfl
    have ht' := h.task
    rw [ht] at ht'
    cases ht'

theorem Server.Ran.serves (h : s.Ran settings l i r pc now eff s') (hs : Serving s) {token : String}
    {pc' : Pc} (hp : pc'.Serves settings s token) : pc'.Serves settings s' token := by
  unfold Pc.Serves at hp ⊢
  have hrecord {record : SessionRecord Instant} (hp : record.tokenHash = settings.tokenHash token ∧
      s.Issued settings record ∧ ∃ row ∈ s.db.sessions, record.Keeps row) :
      record.tokenHash = settings.tokenHash token ∧ s'.Issued settings record ∧
        ∃ row ∈ s'.db.sessions, record.Keeps row := by
    obtain ⟨hh,hi,row,hrow,hk⟩ := hp
    obtain ⟨row',hrow',hk'⟩ := (h.db hs).1.sessions row hrow
    exact ⟨hh,h.issued hi,row',hrow',hk.trans hk'⟩
  split
  · exact ⟨hp.1,Int.le_trans hp.2 h.clock⟩
  · exact hrecord hp
  · exact hrecord hp
  · trivial

/-- A request that resolves a token goes on to hold a committed row of that token. -/
theorem Next.serves {token : String} {pc' : Pc} (h : Next settings s.db now pc (.at pc') w commit)
    (hi : ∀ row ∈ s.db.sessions, s.Issued settings row) (hp : pc.Serves settings s token)
    (hr : pc.resolving = true) : pc'.Serves settings s token := by
  generalize hc : Ctl.at pc' = c at h
  cases h with
  | principalSession _ _ _ record h =>
    cases hc
    obtain ⟨hmem,hh⟩ := Db.sessionByTokenHash_mem h
    exact ⟨hp.1 ▸ hh,hi record hmem,record,hmem,.refl record⟩
  | principalUser =>
    cases hc
    exact hp
  | principalDevice _ _ k p _ _ he => exact k.start_serves settings now p s token (hc.trans he).symm
  | raised => cases hc
  | _ => cases hr

theorem Pc.serves_of_not_resolving {token : String} (h : pc.resolving = false) : pc.Serves settings s token := by
  cases pc
  case principalSession | principalUser | principalDevice => cases h
  all_goals trivial

theorem Server.Ran.issuing (h : s.Ran settings l i r pc now eff s') (hs : Serving s) (hi : Issuing settings s) :
    Issuing settings s' := by
  have hview : ∀ row ∈ (s.view i).sessions, s'.Issued settings row ∨
      ∃ token p, pc.issues? = some (token,p) ∧ row.Carries settings token p := by
    intro row hrow
    unfold Server.view at hrow
    split at hrow
    next hw =>
      obtain hissued | ⟨r',pc',token,p,ht,hp,hc⟩ := hi.pending i hw row hrow
      · exact .inl (h.issued hissued)
      · rw [h.task] at ht
        cases ht
        exact .inr ⟨token,p,hp,hc⟩
    · exact .inl (h.issued (hi.committed row hrow))
  refine ⟨?_,?_,?_,?_⟩
  · intro row hrow
    cases h.applied with
    | kept hdb | wrote hdb | rolledBack hdb =>
      rw [hdb] at hrow
      exact h.issued (hi.committed row hrow)
    | committed _ he hdb =>
      have hn := h.next
      rw [he] at hn
      obtain hw | ⟨-,hw,hdb⟩ := hdb
      · rw [hn.commits] at hw
        cases hw
      · rw [hdb] at hrow
        obtain hissued | ⟨token,p,hp,hc⟩ := hview row (by rwa [Server.view, if_pos hw])
        · exact hissued
        · rw [hn.commits] at hn
          obtain ⟨e,hd⟩ | ⟨_,-,-,hw⟩ | ⟨hd,-⟩ := hn.issues hp
          · rw [hd] at hn
            cases hn
            cases hp
          · cases hw
          · refine ⟨i,r,token,p,?_,hc⟩
            rw [h.tasks,Function.update_self,hd]
  · intro j hj row hrow
    cases h.applied with
    | kept _ hw hk he hn =>
      rw [hw] at hj
      rw [hk] at hrow
      by_cases hij : j = i
      · subst hij
        obtain hissued | ⟨token,p,hp,-⟩ := hview row (by rwa [Server.view, if_pos hj])
        · exact .inl hissued
        · have hnext := h.next
          obtain ⟨-,pc',hpc'⟩ := hn hj
          rw [hpc',he] at hnext
          obtain ⟨_,hd⟩ | ⟨_,_,_,hw⟩ | ⟨hd,_⟩ := hnext.issues hp
          · cases hd
          · cases hw
          · cases hd
      · obtain hissued | ⟨r',pc',token,p,ht,hp⟩ := hi.pending j hj row hrow
        · exact .inl (h.issued hissued)
        · refine .inr ⟨r',pc',token,p,?_,hp⟩
          rwa [h.tasks,Function.update_of_ne hij]
    | wrote _ hw he hn =>
      rw [hw] at hj
      cases hj
      have hnext := h.next
      obtain ⟨pc',hpc'⟩ := hn
      rw [he,hpc'] at hnext
      have htask : s'.tasks i = some ⟨r,.at pc'⟩ := by rw [h.tasks,Function.update_self,hpc']
      obtain ⟨row',hrow',hk⟩ | ⟨_,token,p,hd,hp,hc⟩ := hnext.write_sessions hrow
      · obtain hissued | ⟨token,p,hp,hc⟩ := hview row' hrow'
        · exact .inl (hissued.keeps hk)
        · obtain ⟨_,hd⟩ | ⟨_,hd,hp',-⟩ | ⟨hd,_⟩ := hnext.issues hp
          · cases hd
          · cases hd
            exact .inr ⟨r,pc',token,p,htask,hp',hc.keeps hk⟩
          · cases hd
      · cases hd
        exact .inr ⟨r,pc',token,p,htask,hp,hc⟩
    | rolledBack _ hw | committed hw =>
      rw [hw] at hj
      cases hj
  · intro j token k pc' ht
    obtain ⟨rfl,ht⟩ | ⟨-,ht⟩ := h.task_cases ht
    · obtain ⟨rfl,hpc'⟩ := Task.mk.inj ht
      refine h.serves hs ?_
      have hnext := h.next
      rw [← hpc'] at hnext
      cases hr : pc.resolving with
      | true =>
        rw [hs.view_eq h.task hr] at hnext
        exact hnext.serves hi.committed (hi.serves j token k pc h.task) hr
      | false => exact pc'.serves_of_not_resolving (hnext.resolving hr)
    · exact h.serves hs (hi.serves j token k pc' ht)
  · intro j r' c ht hc
    obtain ⟨rfl,ht⟩ | ⟨-,ht⟩ := h.task_cases ht
    · obtain ⟨rfl,rfl⟩ := Task.mk.inj ht
      exact hi.login j r' (.at pc) h.task (h.next.login hc)
    · exact hi.login j r' c ht hc

theorem Request.begin_login (r : Request) (now : Instant) : (r.begin now).login = r.logsIn := by
  cases r with
  | withSession token k =>
    by_cases h : token = ""
    · simp [Request.begin,h,Ctl.login,Request.logsIn]
    · simp [Request.begin,h,Ctl.login,Request.logsIn,Pc.login]
  | _ => rfl

theorem Request.begin_serves {token : String} {k : Action} (h : (Request.withSession token k).begin s.clock = .at pc) :
    pc.Serves settings s token := by
  by_cases ht : token = ""
  · simp [Request.begin,ht] at h
  · simp only [Request.begin, if_neg ht, Ctl.at.injEq] at h
    rw [← h]
    exact ⟨rfl,Int.le_refl _⟩

theorem Server.Accepted.issued (h : s.Accepted l r now s') (hs : Serving s) (hi : s.Issued settings row) :
    s'.Issued settings row := by
  obtain ⟨j,r',token,p,ht,hc⟩ := hi
  exact ⟨j,r',token,p,h.keeps_task hs ht,hc⟩

theorem Server.Accepted.issuing (h : s.Accepted l r now s') (hs : Serving s) (hi : Issuing settings s) :
    Issuing settings s' := by
  have hclock : s'.clock = now := by rw [h.eq]
  have hdb : s'.db = s.db := by rw [h.eq]
  refine ⟨fun row hrow => h.issued hs (hi.committed row (hdb ▸ hrow)),fun j hj row hrow => ?_,fun j token k pc ht => ?_,
    fun j r' c ht hc => ?_⟩
  · rw [h.eq] at hj hrow
    obtain hissued | ⟨r',pc,token,p,ht,hp⟩ := hi.pending j hj row hrow
    · exact .inl (h.issued hs hissued)
    · exact .inr ⟨r',pc,token,p,h.keeps_task hs ht,hp⟩
  · obtain ⟨-,ht⟩ | ht := h.task_cases ht
    · obtain ⟨rfl,hpc⟩ := Task.mk.inj ht
      exact Request.begin_serves (hclock ▸ hpc.symm)
    · have hp := hi.serves j token k pc ht
      unfold Pc.Serves at hp ⊢
      rw [hclock,hdb]
      split
      · exact ⟨hp.1,Int.le_trans hp.2 h.clock⟩
      · exact ⟨hp.1,h.issued hs hp.2.1,hp.2.2⟩
      · exact ⟨hp.1,h.issued hs hp.2.1,hp.2.2⟩
      · trivial
  · obtain ⟨-,ht⟩ | ht := h.task_cases ht
    · obtain ⟨rfl,rfl⟩ := Task.mk.inj ht
      rwa [Request.begin_login] at hc
    · exact hi.login j r' c ht hc

theorem step_issuing (hs : Serving s) (hi : Issuing settings s) (h : step settings l s = some s') :
    Issuing settings s' := by
  obtain ⟨_,_,h⟩ | ⟨_,_,_,_,_,h⟩ := step_cases h
  · exact h.issuing hs hi
  · exact h.issuing hs hi

theorem initial_issuing {db : Db} (clock : Instant) (h : db.sessions = []) : Issuing settings (initial db clock) := by
  refine ⟨fun row hrow => ?_,fun _ hw => (nomatch hw),fun _ _ _ _ ht => (nomatch ht),fun _ _ _ ht => (nomatch ht)⟩
  rw [show (initial db clock).db.sessions = [] from h] at hrow
  cases hrow

/-- What a request begun after the state `base` knows: the row it holds was neither
revoked nor expired in `base`. -/
def Pc.Postdates (base : Server) : Pc → Prop
  | .principalSession _ started _ => base.clock ≤ started
  | .principalUser record _ | .principalDevice record _ _ =>
    ∀ row ∈ base.db.sessions, row.tokenHash = record.tokenHash →
      row.revokedAt = none ∧ base.clock < row.expiresAt ∧ row.deviceId = record.deviceId
  | _ => True

theorem Next.postdates {base : Server} {pc' : Pc} (h : Next settings db now pc (.at pc') w commit)
    (hdb : Advances base.db db) (hu : db.Unique) (hp : pc.Postdates base) : pc'.Postdates base := by
  generalize hc : Ctl.at pc' = c at h
  cases h with
  | principalSession _ started _ record h hr he =>
    cases hc
    intro row hrow hh
    obtain ⟨row',hrow',hk⟩ := hdb.sessions row hrow
    obtain ⟨hmem,-⟩ := Db.sessionByTokenHash_mem h
    obtain rfl := hu.eq_of hrow' hmem (.inr (hk.tokenHash.trans hh))
    have hnone : row.revokedAt = none := by
      by_contra hsome
      have hrevoked := hk.revoked (Option.isSome_iff_ne_none.mpr hsome)
      rw [hr] at hrevoked
      cases hrevoked
    refine ⟨hnone,?_,hk.deviceId.symm⟩
    rw [← hk.expiresAt]
    exact Int.lt_of_le_of_lt hp he
  | principalUser =>
    cases hc
    exact hp
  | principalDevice _ _ k p _ _ he =>
    have hpc := (hc.trans he).symm
    cases k <;> simp only [Action.start] at hpc <;> (try split at hpc) <;> cases hpc <;> trivial
  | _ => first | (cases hc; trivial) | cases hc

/-- The later requests in a run from `base`. -/
def Postdating (base s : Server) : Prop :=
  ∀ i r pc, base.count ≤ i → s.tasks i = some ⟨r,.at pc⟩ → pc.Postdates base

theorem Run.postdating {base : Server} {ok : Label → Server → Prop} (hb : Serving base)
    (h : Run settings ok base s) : Postdating base s := by
  have hinit : Postdating base base := by
    intro i r pc hi ht
    rw [hb.fresh i hi] at ht
    cases ht
  refine (Reaches.invariant (I := fun t => Run settings ok base t ∧ Postdating base t) (fun l t t' ht hok h => ?_) h
    ⟨.refl,hinit⟩).2
  obtain ⟨hrun,hpost⟩ := ht
  obtain ⟨ht,ha,hclock,hcount⟩ := Run.serving hb hrun
  refine ⟨hrun.tail ⟨l,hok,h⟩,fun j r pc hj htask => ?_⟩
  obtain ⟨r',now,h⟩ | ⟨i,r',pc',now,eff,h⟩ := step_cases h
  · obtain ⟨-,htask⟩ | htask := h.task_cases htask
    · obtain ⟨rfl,hpc⟩ := Task.mk.inj htask
      have hle := Int.le_trans hclock h.clock
      cases r with
      | withSession token k =>
        by_cases htoken : token = ""
        · simp [Request.begin,htoken] at hpc
        · simp only [Request.begin, if_neg htoken, Ctl.at.injEq] at hpc
          rw [hpc]
          exact hle
      | _ =>
        cases hpc
        trivial
    · exact hpost j r pc hj htask
  · obtain ⟨rfl,htask⟩ | ⟨-,htask⟩ := h.task_cases htask
    · obtain ⟨rfl,hpc⟩ := Task.mk.inj htask
      have hnext := h.next
      rw [← hpc] at hnext
      exact hnext.postdates (ha.trans (ht.view j).1) (ht.view j).2 (hpost j r pc' hj h.task)
    · exact hpost j r pc hj htask

theorem Server.Rejects.raises {token : String} (h : s.Rejects settings i token) (ch : Choice) (now : Instant) :
    ∃ pc, s.pc? i = some pc ∧ resume settings (s.view i) now ch pc = some (.raise invalidSession) := by
  cases h with
  | session k k' started record ht h hr =>
    refine ⟨_,Server.pc?_eq_some.mpr ⟨_,ht⟩,?_⟩
    simp only [resume, resumePrincipal, h, checkSession]
    cases hrev : record.revokedAt with
    | some t => rfl
    | none =>
      have hle : record.expiresAt ≤ started := hr.resolve_left (by simp [hrev])
      simp [checkExpiry,before?,hle,Except.map]
  | device k k' record user device ht h hr =>
    refine ⟨_,Server.pc?_eq_some.mpr ⟨_,ht⟩,?_⟩
    cases user <;> simp [resume,resumePrincipal,resolvePrincipal,h,hr]

variable {clock : Instant}

theorem Run.issuing (hdb : db.sessions = []) (h : Run settings anyStep (initial db clock) s) :
    Serving s ∧ Issuing settings s := by
  refine Reaches.invariant (I := fun t => Serving t ∧ Issuing settings t) (fun l t t' ht _ hstep => ?_) h
    ⟨initial_serving clock ?_,initial_issuing clock hdb⟩
  · exact ⟨(step_serving ht.1 hstep).1,step_issuing ht.1 ht.2 hstep⟩
  · unfold Db.Unique
    rw [hdb]
    exact .nil

theorem Server.ReturnsPrincipal.issued (hinj : Function.Injective settings.tokenHash) (hi : Issuing settings s)
    {token : String} {p : SessionPrincipal} (h : s.ReturnsPrincipal i token p) :
    ∃ j r p', s.tasks j = some ⟨r,.done (.tokens token p')⟩ ∧ r.logsIn = true ∧ p'.sessionId = p.sessionId ∧
      p'.userId = p.userId ∧ p'.deviceId = p.deviceId := by
  obtain ⟨record,user,k,k',ht,hp⟩ := h
  obtain ⟨hh,⟨j,r,token',p',htokens,hc⟩,-⟩ := hi.serves i token k _ ht
  obtain rfl := hinj (hh.symm.trans hc.tokenHash)
  obtain ⟨user',device,-,-,-,rfl⟩ := resolvePrincipal_ok hp
  exact ⟨j,r,p',htokens,hi.login j r _ htokens rfl,hc.sessionId,hc.userId,hc.deviceId⟩

/-- A revoked device yields no principal, whenever the request began. -/
theorem Server.ReturnsPrincipal.device_not_revoked {base : Server} (hs : Serving s) (ha : Advances base.db s.db)
    {token : String} {p : SessionPrincipal} (h : s.ReturnsPrincipal i token p) {device : DeviceRecord Instant}
    (hd : base.db.devices p.deviceId = some device) : device.revokedAt.isSome = false := by
  obtain ⟨record,user,k,k',ht,hp⟩ := h
  obtain ⟨user',device',-,hd',hnone,rfl⟩ := resolvePrincipal_ok hp
  obtain ⟨device'',hd'',hr⟩ := (ha.trans (hs.view i).1).devices _ device hd
  rw [show record.deviceId = _ from rfl] at hd'
  obtain rfl : device' = device'' := Option.some.inj (hd'.symm.trans hd'')
  cases hrevoked : device.revokedAt.isSome with
  | false => rfl
  | true =>
    have := hr hrevoked
    rw [hnone] at this
    cases this

theorem Server.Rejects.permanent {base : Server} {ok : Label → Server → Prop} (hb : Serving base)
    (hbi : Issuing settings base) (h : Run settings ok base s) (hi : Issuing settings s) {j : Nat} {token : String}
    {p : SessionPrincipal} (hr : base.Rejects settings i token) (hj : base.count ≤ j) :
    ¬ s.ReturnsPrincipal j token p := by
  intro hret
  obtain ⟨hs,ha,-,-⟩ := Run.serving hb h
  have ⟨record,user,k,k',ht,hp⟩ := hret
  have hpost := Run.postdating hb h j _ _ hj ht
  have hh := (hi.serves j token k _ ht).1
  cases hr with
  | session k k' started row ht h hr =>
    rw [hb.view_eq ht rfl] at h
    obtain ⟨hmem,hhash⟩ := Db.sessionByTokenHash_mem h
    obtain ⟨hnone,hlt,-⟩ := hpost row hmem (hhash.trans hh.symm)
    obtain hsome | hle := hr
    · rw [hnone] at hsome
      cases hsome
    · have hstarted : started ≤ base.clock := (hbi.serves i token k _ ht).2
      exact Int.lt_irrefl _ (Int.lt_of_lt_of_le hlt (Int.le_trans hle hstarted))
  | device k k' row user device ht h hr =>
    rw [hb.view_eq ht rfl] at h
    obtain ⟨hhash,-,row',hmem,hk⟩ := hbi.serves i token k _ ht
    obtain ⟨-,-,hd⟩ := hpost row' hmem (hk.tokenHash.trans (hhash.trans hh.symm))
    have hdevice : p.deviceId = row.deviceId := by
      obtain ⟨_,_,-,-,-,rfl⟩ := resolvePrincipal_ok hp
      exact hd.symm.trans hk.deviceId
    rw [← hdevice] at h
    rw [hret.device_not_revoked hs ha h] at hr
    cases hr

/-- Tokens resolve to what a login committed for them, and no request that begins
after a rejection resolves the token again. -/
theorem session_revocation_permanent (hinj : Function.Injective settings.tokenHash) (hdb : db.sessions = [])
    (h : Run settings anyStep (initial db clock) s) :
    (∀ i token p, s.ReturnsPrincipal i token p →
      ∃ j r p', s.tasks j = some ⟨r,.done (.tokens token p')⟩ ∧ r.logsIn = true ∧ p'.sessionId = p.sessionId ∧
        p'.userId = p.userId ∧ p'.deviceId = p.deviceId) ∧
      (∀ i token, s.Rejects settings i token → ∀ s', Run settings anyStep s s' →
        ∀ j, s.count ≤ j → ∀ p, ¬ s'.ReturnsPrincipal j token p) ∧
      ∀ d device, s.db.devices d = some device → device.revokedAt.isSome → ∀ s', Run settings anyStep s s' →
        ∀ j token p, p.deviceId = d → ¬ s'.ReturnsPrincipal j token p := by
  obtain ⟨hs,hi⟩ := Run.issuing hdb h
  refine ⟨fun i token p hp => hp.issued hinj hi,fun i token hr s' h' j hj p => ?_,
    fun d device hd hr s' h' j token p hp hret => ?_⟩
  · exact hr.permanent hs hi h' (Run.issuing hdb (h.trans h')).2 hj
  · obtain ⟨hs',ha,-,-⟩ := Run.serving hs h'
    rw [← hp] at hd
    rw [hret.device_not_revoked hs' ha hd] at hr
    cases hr

/-- An owner who may register a passkey. -/
def ownerDb : Db where
  users u := if u = 0 then some ⟨"owner",.owner,none⟩ else none
  devices _ := none
  sessions := []
  passkeys _ := none
  challenges c := if c = 0 then some ⟨.passkeyRegistration,some 0,none,300,none⟩ else none
  factors _ := none

def loginTrace : List Label :=
  [.request (.finishRegistration 0) 0,.run 0 (.attested "credential" 1) 1] ++ resumeTimes 0 2 1 ++
    [.run 0 (.fresh 7 "") 1] ++ resumeTimes 0 1 1 ++ [.run 0 (.fresh 3 "token") 1] ++ resumeTimes 0 2 2

def logoutTrace : List Label :=
  loginTrace ++ [.request (.withSession "token" .logout) 3] ++ resumeTimes 1 4 3 ++
    [.request (.withSession "token" .returnPrincipal) 4] ++ resumeTimes 2 2 4 ++ resumeTimes 1 3 5 ++
    [.request (.withSession "token" .returnPrincipal) 6]

/-- Request 1 has logged out while request 2 was reading its principal, and request 3
reads the session. -/
def loggedOut : Server := after (step sampleSettings) logoutTrace (initial ownerDb 0) (by decide)

theorem session_revocation_permanent_logout :
    (∃ p, loggedOut.ReturnsPrincipal 2 "token" p) ∧ loggedOut.Rejects sampleSettings 3 "token" ∧
      ∀ s', Run sampleSettings anyStep loggedOut s' → ∀ j, 4 ≤ j → ∀ p, ¬ s'.ReturnsPrincipal j "token" p := by
  have hrun : Run sampleSettings anyStep (initial ownerDb 0) loggedOut :=
    after_reaches _ _ (execOk_anyStep _ _)
  have hreject : loggedOut.Rejects sampleSettings 3 "token" :=
    .session .returnPrincipal .returnPrincipal 6 _ rfl rfl (.inl rfl)
  exact ⟨⟨_,_,_,_,_,rfl,rfl⟩,hreject,(session_revocation_permanent Function.injective_id rfl hrun).2.1 3 "token" hreject⟩

end AgentGraph.Security
