import AgentGraph.Security.Statements
import AgentGraph.Security.Tables

/-! # An operation is a request that runs alone

The server runs the statements of its requests between each other, an operation is one transaction. A request that no
other one comes between ends, and leaves the accounts, as the operations behind it do, and so do the calls of first-time
setup.
-/
set_option autoImplicit false
namespace AgentGraph.Security
open Transition

/-! ## A request alone -/

/-- The statements of a request, one after another at `now`: from the committed rows and its own ones it goes on at
`c`, leaves `db'` committed and ends with the result. -/
inductive Serves (settings : Settings) (now : Instant) : Db → Db → Ctl → Db → Result → Prop
  | done (db working : Db) (result : Result) : Serves settings now db working (.done result) db result
  | «at» (db working db' : Db) (pc : Pc) (result : Result) (ch : Choice) (eff : Effect)
      (he : resume settings working now ch pc = some eff)
      (h : Serves settings now (if eff.commit then eff.write.getD working else db) (eff.write.getD working) eff.next db' result) :
      Serves settings now db working (.at pc) db' result

section Alone
variable {settings : Settings} {now : Instant} {db working db' : Db} {c : Ctl} {result : Result} {s : Server} {i : Nat}

/-- The lock is free, or the request has it. -/
def Server.Unlocked (s : Server) (i : Nat) : Prop := s.writer = none ∨ s.writer = some i

theorem Server.lock_alone (hw : s.Unlocked i) (rows : Option Db) :
    ∃ t, s.lock i rows = some t ∧ t.Unlocked i ∧ t.db = s.db ∧ t.view i = rows.getD (s.view i) ∧ t.tasks = s.tasks := by
  cases rows with
  | none => exact ⟨s,rfl,hw,rfl,rfl,rfl⟩
  | some rows =>
    unfold Server.lock
    obtain hw | hw := hw
    · simp [hw,Server.Unlocked,Server.view]
    · simp [hw,Server.Unlocked,Server.view]

theorem Server.release_alone (hw : s.Unlocked i) (commit : Bool) :
    (s.release i commit).writer = none ∧ (s.release i commit).db = if commit then s.view i else s.db := by
  unfold Server.release Server.view
  obtain hw | hw := hw
  · simp [hw]
  · simp [hw]

/-- After the statement the request holds the lock, or has ended. -/
theorem Server.settle_alone (hw : s.Unlocked i) (eff : Effect) :
    (s.settle i eff).Unlocked i ∧ (s.settle i eff).db = (if eff.commit then s.view i else s.db) ∧
      (∀ pc, eff.next = .at pc → (s.settle i eff).view i = s.view i) ∧
      ∀ r, eff.next = .done r → (s.settle i eff).writer = none := by
  obtain ⟨next,write,commit⟩ := eff
  have hrelease (commit : Bool) := s.release_alone hw commit
  cases next with
  | done r => exact ⟨.inl (hrelease commit).1,(hrelease commit).2,(fun _ h => by cases h),fun _ _ => (hrelease commit).1⟩
  | «at» pc =>
    cases commit with
    | false => exact ⟨hw,rfl,fun _ _ => rfl,fun _ h => by cases h⟩
    | true =>
      have hview : (s.release i true).view i = s.view i := by
        unfold Server.view
        rw [(hrelease true).1,(hrelease true).2]
        rfl
      exact ⟨.inl (hrelease true).1,(hrelease true).2,fun _ _ => hview,fun _ h => by cases h⟩

theorem Server.apply_alone (now : Instant) (hw : s.Unlocked i) (eff : Effect) {request : Request} (ht : s.tasks i = some ⟨request,c⟩) :
    ∃ t, s.apply i now eff = some t ∧ t.Unlocked i ∧ t.db = (if eff.commit then eff.write.getD (s.view i) else s.db) ∧
      (∀ pc, eff.next = .at pc → t.view i = eff.write.getD (s.view i)) ∧ (∀ r, eff.next = .done r → t.writer = none) ∧
      t.clock = now ∧ t.tasks i = some ⟨request,eff.next⟩ := by
  obtain ⟨u,hu,hlock,hdb,hview,htasks⟩ := s.lock_alone hw eff.write
  obtain ⟨hlock,hsettled,hat,hdone⟩ := u.settle_alone hlock eff
  rw [hview] at hsettled hat
  rw [hdb] at hsettled
  have htask : u.setCtl i eff.next i = some ⟨request,eff.next⟩ := by
    unfold Server.setCtl
    rw [Function.update_self,htasks,ht]
    rfl
  exact ⟨_,Option.map_eq_some_iff.mpr ⟨u,hu,rfl⟩,hlock,hsettled,hat,hdone,rfl,htask⟩

/-- On a server whose lock no other request holds, the request is served in a run of its own statements. -/
theorem Serves.run (h : Serves settings now db working c db' result) {request : Request}
    (ht : s.tasks i = some ⟨request,c⟩) (hdb : s.db = db) (hview : ∀ pc, c = .at pc → s.view i = working)
    (hw : s.Unlocked i) (hdone : ∀ r, c = .done r → s.writer = none) (hclock : s.clock ≤ now) :
    ∃ t, Run settings anyStep s t ∧ t.db = db' ∧ t.writer = none ∧ t.result? i = some result := by
  induction h generalizing s with
  | done db working result =>
    refine ⟨s,.refl,hdb,hdone result rfl,?_⟩
    simp [Server.result?,ht]
  | «at» db working db' pc result ch eff he h ih =>
    obtain ⟨t,happly,hw',hdb',hview',hdone',hclock',htask⟩ := s.apply_alone now hw eff ht
    have hstep : step settings (.run i ch now) s = some t := by
      have hpc : s.pc? i = some pc := by simp [Server.pc?,ht]
      simp only [step, hclock, if_true, hpc, hview pc rfl, he, Option.bind_some]
      exact happly
    rw [hview pc rfl] at hdb' hview'
    rw [hdb] at hdb'
    obtain ⟨u,hu,hend⟩ := ih htask hdb' hview' hw' hdone' (Int.le_of_eq hclock')
    exact ⟨u,.head ⟨_,trivial,hstep⟩ hu,hend⟩

end Alone

/-! ## Requests and operations -/

namespace Operations
open OpEffect

def Return.answer : Return → Result
  | .principal p => .principal p
  | .tokens token p => .tokens token p
  | _ => .returned

/-- How a request ends that calls for the operation. -/
def OpEffect.answer (effect : OpEffect) : Option Result :=
  match effect.result with
  | .ok value => some value.answer
  | .error (.service e) => some (.raised e)
  | .error _ => none

/-- Served alone from `c`, the request ends as the operation does and leaves the same accounts. -/
def Refines (settings : Settings) (now : Instant) (db : SecurityDb) (working : Db) (c : Ctl) (effect : OpEffect) : Prop :=
  ∃ r, effect.answer = some r ∧ Serves settings.toSettings now db.toDb working c (effect.commit.getD db).toDb r

section Refines
variable {settings : Settings} {now : Instant} {db : SecurityDb} {working : Db} {pc pc' : Pc} {effect : OpEffect}

theorem Refines.raised (e : ServiceError) : Refines settings now db working (.done (.raised e)) (raise e) :=
  ⟨_,rfl,.done _ _ _⟩

theorem Refines.returned (value : Return) : Refines settings now db working (.done value.answer) (return_ value) :=
  ⟨_,rfl,.done _ _ _⟩

theorem Refines.read {c : Ctl} (ch : Choice) (he : resume settings.toSettings working now ch pc = some ⟨c,none,false⟩)
    (h : Refines settings now db working c effect) : Refines settings now db working (.at pc) effect := by
  obtain ⟨r,hr,hserves⟩ := h
  exact ⟨r,hr,.at _ _ _ _ _ ch _ he hserves⟩

theorem Refines.write {rows : Db} {c : Ctl} (ch : Choice) (he : resume settings.toSettings working now ch pc = some ⟨c,some rows,false⟩)
    (h : Refines settings now db rows c effect) : Refines settings now db working (.at pc) effect := by
  obtain ⟨r,hr,hserves⟩ := h
  exact ⟨r,hr,.at _ _ _ _ _ ch _ he hserves⟩

/-- The request ends behind its commit. -/
theorem Refines.ended {r : Result} (hr : effect.answer = some r) (hc : effect.commit = some db) :
    Refines settings now db working (.done r) effect := by
  refine ⟨r,hr,?_⟩
  rw [hc]
  exact .done _ _ _

/-- A commit behind which the request goes on. -/
theorem Refines.publish {db' : SecurityDb} {c : Ctl} (he : resume settings.toSettings working now .resume pc = some ⟨c,none,true⟩)
    (hc : effect.commit = some db') (hrows : db'.toDb = working) (h : Refines settings now db' db'.toDb c effect) :
    Refines settings now db working (.at pc) effect := by
  obtain ⟨r,hr,hserves⟩ := h
  refine ⟨r,hr,.at _ _ _ _ _ .resume _ he ?_⟩
  rw [hc] at hserves ⊢
  rw [← hrows]
  exact hserves

/-- The commit that ends the request. -/
theorem Refines.commit {db' : SecurityDb} {r : Result} (hr : effect.answer = some r) (hc : effect.commit = some db')
    (hrows : db'.toDb = working) : Refines settings now db working (.at (.commit r)) effect := by
  refine ⟨r,hr,.at _ _ _ _ _ .resume ⟨.done r,none,true⟩ rfl ?_⟩
  rw [hc,Option.getD_some,hrows]
  exact .done _ _ _

/-- The audit event and the commit that end the request. -/
theorem Refines.audit {db' : SecurityDb} {r : Result} (hr : effect.answer = some r) (hc : effect.commit = some db')
    (hrows : db'.toDb = working) : Refines settings now db working (.at (.audit r)) effect :=
  .write .resume rfl (.commit hr hc hrows)

end Refines

/-! ### Actions of a session -/

section Actions
variable (settings : Settings) (chance : Chance) (db : SecurityDb) (p : SessionPrincipal)

theorem logout_refines : Refines settings chance.now db db.toDb (.at (.logoutRead p)) (logout chance db p) := by
  unfold logout
  cases hs : db.session p.sessionId with
  | none => exact .read .resume (by simp [resume,resumeDevices,hs,Effect.ret,Return.answer]) (.returned .done)
  | some record =>
    by_cases hr : record.revokedAt.isSome = true
    · simp only [hr, if_true]
      exact .read .resume (by simp [resume,resumeDevices,hs,hr,Effect.ret,Return.answer]) (.returned .done)
    · simp only [hr]
      refine .read .resume (c := .at (.logoutWrite p chance.now)) (by simp [resume,resumeDevices,hs,hr,Effect.goto]) ?_
      exact .write .resume rfl (.audit rfl rfl (db.toDb_updateSession _ _))

/-- A statement that looks its device up. -/
theorem ownedDevice_refines {pc : Pc} {d : DeviceId} {found : DeviceRecord Instant → Option Effect}
    {next : DeviceRecord Instant → OpEffect}
    (he : resume settings.toSettings db.toDb chance.now .resume pc =
      match Security.ownedDevice db.toDb p d with
      | none => some (.raise .keyError)
      | some device => found device)
    (h : ∀ device, db.accounts.devices d = some device →
      resume settings.toSettings db.toDb chance.now .resume pc = found device →
      Refines settings chance.now db db.toDb (.at pc) (next device)) :
    Refines settings chance.now db db.toDb (.at pc) (ownedDevice db p d next) := by
  unfold ownedDevice
  unfold Security.ownedDevice at he
  rw [SecurityDb.toDb_devices] at he
  cases hd : db.accounts.devices d with
  | none =>
    rw [hd] at he
    exact .read .resume he (.raised _)
  | some device =>
    rw [hd,Option.filter_some] at he
    by_cases ho : device.userId = p.userId
    · simp only [ho, ne_eq, not_true_eq_false, if_false]
      simp only [ho, beq_self_eq_true, if_true] at he
      exact h device hd he
    · simp only [ho, ne_eq, not_false_eq_true, if_true]
      simp only [beq_iff_eq, ho, if_false] at he
      exact .read .resume he (.raised _)

theorem renameDevice_refines (d : DeviceId) (name : String) :
    Refines settings chance.now db db.toDb (.at (.renameRead p d name)) (renameDevice db p d name) := by
  unfold renameDevice
  apply ownedDevice_refines settings chance db p rfl
  intro device hd he
  by_cases hn : device.displayName = name
  · -- an unchanged column is not written
    rw [if_pos hn] at he
    exact .read .resume he (.commit rfl rfl (db.toDb_updateDevice_same hd (by rw [← hn])))
  · rw [if_neg hn] at he
    exact .read .resume he (.write .resume rfl (.commit rfl rfl (db.toDb_updateDevice _ _)))

theorem trustDevice_refines (d : DeviceId) :
    Refines settings chance.now db db.toDb (.at (.trustRead p d)) (ownedDevice db p d fun device =>
      if device.revokedAt.isSome then raise (.securityConflict "A revoked device cannot be trusted")
      else
        commits ((db.updateDevice d fun device => { device with trust := .trusted }).note { p with deviceId := d } (.deviceTrusted d))
          (.device { device with trust := .trusted })) := by
  apply ownedDevice_refines settings chance db p rfl
  intro device hd he
  split at he
  next hr =>
    rw [if_pos hr]
    exact .read .resume he (.raised _)
  next hr =>
    rw [if_neg hr]
    split at he
    next ht => exact .read .resume he (.audit rfl rfl (db.toDb_updateDevice_same hd (by rw [← ht])))
    next ht => exact .read .resume he (.write .resume rfl (.audit rfl rfl (db.toDb_updateDevice _ _)))

theorem revokeDevice_refines (d : DeviceId) :
    Refines settings chance.now db db.toDb (.at (.revokeRead p d)) (ownedDevice db p d fun device =>
      if device.revokedAt.isSome then return_ (.device device)
      else
        let revoked := (db.updateDevice d fun device => { device with revokedAt := some chance.now }).revokeSessionsForDevice d chance.now
        commits (revoked.note { p with deviceId := d } (.deviceRevoked d)) (.device { device with revokedAt := some chance.now })) := by
  apply ownedDevice_refines settings chance db p rfl
  intro device hd he
  split at he
  next hr =>
    rw [if_pos hr]
    exact .read .resume he (.returned (.device device))
  next hr =>
    rw [if_neg hr]
    have hrows := (db.updateDevice d fun device => { device with revokedAt := some chance.now }).toDb_revokeSessionsForDevice d chance.now
    exact .read .resume he (.write .resume rfl (.write .resume rfl (.audit rfl rfl hrows)))

theorem confirmTotpEnrollment_refines (secret code : String)
    (hv : settings.totpVerify secret code chance.now = true) :
    Refines settings chance.now db db.toDb (.at (.enrollmentRead p secret (settings.encrypt secret chance.nonce)))
      (confirmTotpEnrollment settings chance db p secret code) := by
  unfold confirmTotpEnrollment
  rw [if_pos hv]
  refine .read .resume rfl ?_
  have hflush := db.toDb_upsertFactor p.userId (settings.encrypt secret chance.nonce)
  exact .write .resume (by simp [resume,resumeTotp,hflush,Return.answer]) (.audit rfl rfl rfl)

/-- The step up behind an accepted code. -/
theorem totpSession_refines : Refines settings chance.now db db.toDb (.at (.totpSession p))
    (match db.session p.sessionId with
    | none => raise (.authentication "Session is invalid")
    | some record =>
      if record.revokedAt.isSome then raise (.authentication "Session is invalid")
      else
        let stepped := db.updateSession p.sessionId fun record => { record with stepUpAt := some chance.now }
        match db.user p.userId with
        | none => commitsRaise stepped userUnavailable
        | some user =>
          commits stepped
            (.principal (principalOf user.id user.toUserRecord record.id record.deviceId p.deviceTrust .passkeyTotp))) := by
  split
  next hs => exact .read .resume (by simp [resume,resumeTotp,hs,Effect.raise]) (.raised _)
  next record hs =>
    split
    next hr => exact .read .resume (by simp [resume,resumeTotp,hs,hr,Effect.raise]) (.raised _)
    next hr =>
      refine .read .resume (c := .at (.totpStepUp p record chance.now)) (by simp [resume,resumeTotp,hs,hr,Effect.goto]) ?_
      refine .write .resume rfl ?_
      rw [db.session_id hs]
      split
      next hu =>
        refine .publish rfl rfl rfl (.read .resume (c := .done (.raised userUnavailable)) ?_ (.ended rfl rfl))
        simp [resume,resumeTotp,hu,Effect.raise,userUnavailable]
      next user hu =>
        refine .publish rfl rfl rfl (.read .resume (c := .done (.principal _)) ?_ (.ended rfl rfl))
        simp [resume,resumeTotp,hu,db.user_id hu,db.session_id hs,Effect.ret]

theorem verifyTotp_refines (code : String) :
    Refines settings chance.now db db.toDb (.at (.totpFactor p code)) (verifyTotp settings chance db p code) := by
  unfold verifyTotp
  split
  next hf => exact .read .resume (by simp [resume,resumeTotp,hf,Effect.raise]) (.raised _)
  next factor hf =>
    split
    next hr => exact .read .resume (by simp [resume,resumeTotp,hf,hr,Effect.raise]) (.raised _)
    next hr =>
      split
      next hs => exact .read .resume (by simp [resume,resumeTotp,hf,hr,hs,Effect.raise]) (.raised _)
      next secret hs =>
        by_cases hv : settings.totpVerify secret code chance.now = true
        · rw [if_pos hv]
          exact .read .resume (by simp [resume,resumeTotp,hf,hr,hs,hv,Effect.goto]) (totpSession_refines settings chance db p)
        · rw [if_neg hv]
          exact .read .resume (by simp [resume,resumeTotp,hf,hr,hs,hv,Effect.goto]) (.audit rfl rfl rfl)

/-- A permission that a lockdown does not close. -/
theorem require_refines {pc : Pc} {next : OpEffect} (h : Refines settings chance.now db db.toDb (.at pc) next) :
    Refines settings chance.now db db.toDb
      (match Security.require p .admin false false with
        | .ok () => Effect.goto pc
        | .error e => Effect.raise e).next
      (require db p .admin false next) := by
  have hlocked : Security.require p .admin false db.lockedDown = Security.require p .admin false false := by
    simp [Security.require]
  unfold require
  rw [hlocked]
  cases hr : Security.require p .admin false false with
  | ok => exact h
  | error e =>
    have he : e ≠ lockdownActive := by
      intro he
      subst he
      unfold Security.require lockdownActive at hr
      split at hr
      · simp at hr
      · simp at hr
    simp only [he, if_false]
    exact .raised e

end Actions

/-- The operation behind an action of a session. -/
def actionEffect (settings : Settings) (chance : Chance) (db : SecurityDb) (p : SessionPrincipal) : Security.Action → OpEffect
  | .returnPrincipal => return_ (.principal p)
  | .beginTotpEnrollment => beginTotpEnrollment chance
  | .confirmTotpEnrollment secret code nonce => confirmTotpEnrollment settings { chance with nonce := nonce } db p secret code
  | .verifyTotp code => verifyTotp settings chance db p code
  | .logout => logout chance db p
  | .trustDevice d => trustDevice db p d
  | .renameDevice d name => renameDevice db p d name
  | .revokeDevice d => revokeDevice chance db p d

/-- The session of a token, and what follows it. -/
def authenticated (settings : Settings) (chance : Chance) (db : SecurityDb) (token : String)
    (next : SessionPrincipal → OpEffect) : OpEffect :=
  let effect := principalFromSessionToken settings chance db token
  match effect.result with
  | .ok (.principal p) => next p
  | _ => effect

/-- The operations behind a request, with the verdict of the WebAuthn library. -/
def requestEffect (settings : Settings) (chance : Chance) (db : SecurityDb) (verdict : Option (String × Nat)) :
    Request → OpEffect
  | .finishRegistration c => finishPasskeyRegistration settings chance db c verdict
  | .finishAuthentication c rawId => finishPasskeyAuthentication settings chance db c rawId (verdict.map Prod.snd)
  | .withSession token k => authenticated settings chance db token fun p => actionEffect settings chance db p k

section Requests
variable (settings : Settings) (chance : Chance) (db : SecurityDb)

theorem action_refines (p : SessionPrincipal) (k : Security.Action) :
    Refines settings chance.now db db.toDb (k.start settings.toSettings chance.now p).next
      (actionEffect settings chance db p k) := by
  cases k with
  | returnPrincipal => exact .returned (.principal p)
  | beginTotpEnrollment => exact .returned (.totpSecret _)
  | confirmTotpEnrollment secret code nonce =>
    simp only [Security.Action.start, actionEffect]
    by_cases hv : settings.totpVerify secret code chance.now = true
    · rw [if_pos hv]
      exact confirmTotpEnrollment_refines settings { chance with nonce := nonce } db p secret code hv
    · rw [if_neg hv,confirmTotpEnrollment,if_neg hv]
      exact .raised _
  | verifyTotp code => exact verifyTotp_refines settings chance db p code
  | logout => exact logout_refines settings chance db p
  | renameDevice d name => exact renameDevice_refines settings chance db p d name
  | trustDevice d => exact require_refines settings chance db p (trustDevice_refines settings chance db p d)
  | revokeDevice d => exact require_refines settings chance db p (revokeDevice_refines settings chance db p d)

theorem principalDevice_refines (record : SessionRecord Instant) (k : Security.Action) {p : SessionPrincipal}
    (h : resolvePrincipal db.toDb record (db.toDb.users record.userId) = .ok p) :
    Refines settings chance.now db db.toDb (.at (.principalDevice record (db.toDb.users record.userId) k))
      (actionEffect settings chance db p k) := by
  obtain ⟨hw,hc⟩ := k.start_effect settings.toSettings chance.now p
  refine .read .resume (c := (k.start settings.toSettings chance.now p).next) ?_ (action_refines settings chance db p k)
  simp only [resume, resumePrincipal, h]
  rw [← hw,← hc]

/-- `principal_from_session_token`, by the checks of the server. -/
theorem principalFromSessionToken_toDb (hle : settings.le? = before?) {token : String} (ht : token ≠ "") :
    principalFromSessionToken settings chance db token =
      match checkSession before? (db.toDb.sessionByTokenHash (settings.tokenHash token)) chance.now with
      | .error e => raise e
      | .ok record =>
        match resolvePrincipal db.toDb record (db.toDb.users record.userId) with
        | .error e => raise e
        | .ok p => return_ (.principal p) := by
  have hrow : db.accounts.sessions.find? (fun record => record.tokenHash == settings.tokenHash token) =
      db.toDb.sessionByTokenHash (settings.tokenHash token) := rfl
  unfold principalFromSessionToken
  rw [if_neg ht,hle,hrow]
  cases checkSession before? (db.toDb.sessionByTokenHash (settings.tokenHash token)) chance.now with
  | error e => rfl
  | ok record =>
    simp only [resolvePrincipal, SecurityDb.toDb_users, SecurityDb.toDb_devices]
    cases hu : db.user record.userId with
    | none => rfl
    | some user =>
      cases db.accounts.devices record.deviceId with
      | none => rfl
      | some device =>
        simp only [Option.map_some]
        by_cases hd : (user.disabledAt.isSome || device.revokedAt.isSome) = true
        · rw [if_pos hd,if_pos hd]
        · rw [if_neg hd,if_neg hd,db.user_id hu]

theorem withSession_refines (hle : settings.le? = before?) (token : String) (k : Security.Action) :
    Refines settings chance.now db db.toDb ((Request.withSession token k).begin chance.now)
      (authenticated settings chance db token fun p => actionEffect settings chance db p k) := by
  unfold authenticated Request.begin
  by_cases ht : token = ""
  · simp only [principalFromSessionToken, ht, if_true]
    exact .raised _
  · simp only [ht, if_false]
    have hp := principalFromSessionToken_toDb settings chance db hle ht
    cases hc : checkSession before? (db.toDb.sessionByTokenHash (settings.tokenHash token)) chance.now with
    | error e =>
      simp only [hc] at hp
      rw [hp]
      exact .read .resume (by simp [resume,resumePrincipal,hc,Effect.raise]) (.raised e)
    | ok record =>
      refine .read .resume (c := .at (.principalUser record k)) (by simp [resume,resumePrincipal,hc,Effect.goto]) ?_
      refine .read .resume rfl ?_
      cases hr : resolvePrincipal db.toDb record (db.toDb.users record.userId) with
      | error e =>
        simp only [hc, hr] at hp
        rw [hp]
        exact .read .resume (by simp only [resume, resumePrincipal, hr]; rfl) (.raised e)
      | ok p =>
        simp only [hc, hr] at hp
        rw [hp]
        exact principalDevice_refines settings chance db record k hr

/-- An `INSERT`, which fails or goes on with the row. -/
theorem flush_refines {working : Db} {accounts? : Option SetupDb} {pc : Pc} {next : SetupDb → OpEffect} (ch : Choice) (pc' : Pc)
    (he : resume settings.toSettings working chance.now ch pc =
      match accounts?.map (SetupDb.toDb · db.factors) with
      | none => some (.raise .integrityError)
      | some rows => some { next := .at pc', write := some rows })
    (h : ∀ accounts, accounts? = some accounts →
      Refines settings chance.now db (accounts.toDb db.factors) (.at pc') (next accounts)) :
    Refines settings chance.now db working (.at pc) (flush accounts? next) := by
  cases accounts? with
  | none => exact .read ch he (.raised _)
  | some accounts => exact .write ch he (h accounts rfl)

/-- `_create_session` and the end of a login. -/
theorem createSession_refines (accounts : SetupDb) {user : UserRow} {d : DeviceId} {trust : DeviceTrust} {event : Event}
    {committed : SetupDb → SecurityDb} (hcommitted : ∀ accounts, (committed accounts).toDb = accounts.toDb db.factors) :
    Refines settings chance.now db (accounts.toDb db.factors) (.at (.createSession user.id user.toUserRecord d trust chance.now))
      (flush (accounts.insertSession (newSession settings chance user.id d)) fun accounts =>
        commits ((committed accounts).note (principalOf user.id user.toUserRecord chance.newId d trust .passkey) event)
          (.tokens chance.token (principalOf user.id user.toUserRecord chance.newId d trust .passkey))) := by
  refine flush_refines settings chance db (.fresh chance.newId chance.token) _ ?_ fun accounts _ => .audit rfl rfl (hcommitted accounts)
  rw [SetupDb.toDb_insertSession]
  rfl

/-- `consume_challenge`, with what follows it. -/
theorem consume_refines {c : ChallengeId} {pc pc' : Pc} {next : OpEffect}
    (he : resume settings.toSettings db.toDb chance.now .resume pc =
      if db.toDb.consumable c chance.now then
        some
          { next := .at pc'
            write := some (db.toDb.consumeChallenge c chance.now) }
      else
        some
          { next := .done (.raised (.authenticationConflict "Passkey challenge is no longer valid"))
            write := some db.toDb })
    (h : Refines settings chance.now db ((db.accounts.consumeChallenge c chance.now).toDb db.factors) (.at pc') next) :
    Refines settings chance.now db db.toDb (.at pc)
      (if !db.accounts.consumable c chance.now then raise (.authenticationConflict "Passkey challenge is no longer valid")
      else next) := by
  have hseen : db.toDb.consumable c chance.now = db.accounts.consumable c chance.now :=
    (db.accounts.toDb_consumable db.factors c chance.now).symm
  rw [hseen] at he
  by_cases hcons : db.accounts.consumable c chance.now = true
  · rw [if_pos hcons] at he
    rw [hcons]
    rw [SetupDb.toDb_consumeChallenge] at h
    exact .write .resume he h
  · rw [if_neg hcons] at he
    rw [Bool.eq_false_iff.mpr hcons]
    exact .write .resume he (.raised _)

/-- The new device, its passkey and its session. -/
theorem registrationUser_refines {challenge : ChallengeRecord Instant} (accounts : SetupDb)
    (husers : accounts.users = db.accounts.users) (credentialId : String) (signCount : Nat) :
    Refines settings chance.now db (accounts.toDb db.factors) (.at (.registrationUser challenge credentialId signCount))
      (match challenge.userId.bind db.user with
        | none => raise userUnavailable
        | some user =>
          let d := chance.newId
          flush (accounts.insertDevice d ⟨user.id,challenge.displayName,.limited,none,none⟩) fun accounts =>
            flush (accounts.insertPasskey
                { userId := user.id, deviceId := d, signCount := signCount, revokedAt := none, credentialId := credentialId }) fun accounts =>
              flush (accounts.insertSession (newSession settings chance user.id d)) fun accounts =>
                let p := principalOf user.id user.toUserRecord chance.newId d .limited .passkey
                commits (({ db with accounts := accounts } : SecurityDb).note p .passkeyRegistered) (.tokens chance.token p)) := by
  have huser (u : UserId) : (accounts.toDb db.factors).users u = (db.user u).map UserRow.toUserRecord := by
    unfold SetupDb.toDb SecurityDb.user
    rw [husers]
  cases hu : challenge.userId with
  | none => exact .read .resume (by simp [resume,resumeRegistration,hu,Effect.raise,userUnavailable]) (.raised _)
  | some u =>
    simp only [Option.bind_some]
    cases hrow : db.user u with
    | none => exact .read .resume (by simp [resume,resumeRegistration,hu,huser,hrow,Effect.raise,userUnavailable]) (.raised _)
    | some user =>
      obtain rfl := db.user_id hrow
      refine .read .resume (c := .at (.registrationDevice user.id user.toUserRecord challenge credentialId signCount))
        (by simp [resume,resumeRegistration,hu,huser,hrow,Effect.goto]) ?_
      refine flush_refines settings chance db (.fresh chance.newId chance.token)
        (.registrationPasskey user.id user.toUserRecord chance.newId credentialId signCount) ?_ fun accounts _ => ?_
      · rw [SetupDb.toDb_insertDevice]
        rfl
      refine flush_refines settings chance db .resume (.createSession user.id user.toUserRecord chance.newId .limited chance.now)
        ?_ fun accounts _ => ?_
      · rw [SetupDb.toDb_insertPasskey]
        rfl
      exact createSession_refines settings chance db accounts fun _ => rfl

theorem finishPasskeyRegistration_refines (hle : settings.le? = before?) (c : ChallengeId)
    (verdict : Option (String × Nat)) :
    Refines settings chance.now db db.toDb (.at (.registrationChallenge c))
      (finishPasskeyRegistration settings chance db c verdict) := by
  unfold finishPasskeyRegistration
  rw [hle]
  cases hc : registrationChallenge before? (db.accounts.challenges c) chance.now with
  | error e => exact .read .refused (by simp [resume,resumeRegistration,hc,SecurityDb.toDb,SetupDb.toDb,Effect.raise]) (.raised e)
  | ok challenge =>
    cases verdict with
    | none => exact .read .refused (by simp [resume,resumeRegistration,hc,SecurityDb.toDb,SetupDb.toDb,Effect.raise]) (.raised _)
    | some verdict =>
      obtain ⟨credentialId,signCount⟩ := verdict
      refine .read (.attested credentialId signCount) (c := .at (.registrationConsume c challenge credentialId signCount chance.now))
        (by simp [resume,resumeRegistration,hc,SecurityDb.toDb,SetupDb.toDb,Effect.goto]) ?_
      exact consume_refines settings chance db rfl (registrationUser_refines settings chance db
        (db.accounts.consumeChallenge c chance.now) rfl credentialId signCount)

/-- The last use of the device and the new session. -/
theorem authenticationTouch_refines (counted : SecurityDb) (hfactors : counted.factors = db.factors) {passkey : PasskeyRow}
    {user : UserRow} (hu : user.id = passkey.userId) (trust : DeviceTrust) :
    Refines settings chance.now db counted.toDb
      (.at (.authenticationTouch passkey.toPasskeyRecord user.toUserRecord trust chance.now))
      (let touched := counted.updateDevice passkey.deviceId fun device =>
        { device with lastAuthenticatedAt := some chance.now }
      flush (touched.accounts.insertSession (newSession settings chance user.id passkey.deviceId)) fun accounts =>
        let p := principalOf user.id user.toUserRecord chance.newId passkey.deviceId trust .passkey
        commits (({ touched with accounts := accounts } : SecurityDb).note p .login) (.tokens chance.token p)) := by
  set touched := counted.updateDevice passkey.deviceId fun device => { device with lastAuthenticatedAt := some chance.now }
    with htouched
  have hrows (accounts : SetupDb) : ({ touched with accounts := accounts } : SecurityDb).toDb = accounts.toDb db.factors := by
    rw [← hfactors]
    rfl
  have hwrite : resume settings.toSettings counted.toDb chance.now .resume
      (.authenticationTouch passkey.toPasskeyRecord user.toUserRecord trust chance.now) =
        some ⟨.at (.createSession user.id user.toUserRecord passkey.deviceId trust chance.now),some touched.toDb,false⟩ := by
    rw [htouched,SecurityDb.toDb_updateDevice,hu]
    rfl
  refine .write .resume hwrite ?_
  rw [show touched.toDb = touched.accounts.toDb db.factors from hrows touched.accounts]
  exact createSession_refines settings chance db touched.accounts hrows

/-- The sign count, which is written if it has changed. -/
theorem authenticationUser_refines (consumed : SecurityDb) (hfactors : consumed.factors = db.factors)
    (husers : ∀ u, consumed.user u = db.user u) (hdevices : consumed.accounts.devices = db.accounts.devices)
    {passkey : PasskeyRow}
    (hpasskey : consumed.accounts.passkeys.find? (fun row => row.credentialId == passkey.credentialId) = some passkey)
    (signCount : Nat) :
    Refines settings chance.now db consumed.toDb
      (.at (.authenticationUser passkey.credentialId passkey.toPasskeyRecord signCount))
      (match db.user passkey.userId, db.accounts.devices passkey.deviceId with
        | some user, some device =>
          if user.disabledAt.isSome || device.revokedAt.isSome then raise loginFailed
          else
            let touched := (consumed.updatePasskey passkey.credentialId signCount).updateDevice passkey.deviceId fun device =>
              { device with lastAuthenticatedAt := some chance.now }
            flush (touched.accounts.insertSession (newSession settings chance user.id passkey.deviceId)) fun accounts =>
              let p := principalOf user.id user.toUserRecord chance.newId passkey.deviceId device.trust .passkey
              commits (({ touched with accounts := accounts } : SecurityDb).note p .login) (.tokens chance.token p)
        | _, _ => raise loginFailed) := by
  refine .read .resume rfl ?_
  have hdevice : consumed.toDb.devices passkey.deviceId = db.accounts.devices passkey.deviceId := congrFun hdevices _
  rw [SecurityDb.toDb_users,husers]
  cases hu : db.user passkey.userId with
  | none => exact .read .resume (by simp [resume,resumeAuthentication,Effect.raise]) (.raised _)
  | some user =>
    cases hd : db.accounts.devices passkey.deviceId with
    | none =>
      rw [hd] at hdevice
      exact .read .resume (by simp only [resume, resumeAuthentication, hdevice]; rfl) (.raised _)
    | some device =>
      rw [hd] at hdevice
      simp only [Option.map_some]
      by_cases hr : (user.disabledAt.isSome || device.revokedAt.isSome) = true
      · rw [if_pos hr]
        exact .read .resume (by simp only [resume, resumeAuthentication, hdevice, hr, if_true]; rfl) (.raised _)
      · rw [if_neg hr]
        have htouch := authenticationTouch_refines settings chance db (consumed.updatePasskey passkey.credentialId signCount)
          hfactors (db.user_id hu) device.trust
        by_cases hs : passkey.signCount = signCount
        · rw [consumed.toDb_updatePasskey_same hpasskey hs] at htouch
          refine .read .resume ?_ htouch
          simp only [resume, resumeAuthentication, hdevice, hr, hs]
          rfl
        · refine .read .resume
            (c := .at (.authenticationSignCount passkey.credentialId passkey.toPasskeyRecord user.toUserRecord device.trust signCount))
            ?_ (.write .resume ?_ htouch)
          · simp only [resume, resumeAuthentication, hdevice, hr, hs]
            rfl
          · rw [SecurityDb.toDb_updatePasskey]
            rfl

theorem finishPasskeyAuthentication_refines (hle : settings.le? = before?) (c : ChallengeId) (rawId : Option String)
    (verdict : Option Nat) :
    Refines settings chance.now db db.toDb (.at (.authenticationChallenge c rawId))
      (finishPasskeyAuthentication settings chance db c rawId verdict) := by
  unfold finishPasskeyAuthentication
  rw [hle]
  have hchallenge : db.toDb.challenges c = db.accounts.challenges c := rfl
  cases hc : authenticationChallenge before? (db.accounts.challenges c) chance.now with
  | error e => exact .read .resume (by simp [resume,resumeAuthentication,hchallenge,hc,Effect.raise]) (.raised e)
  | ok challenge =>
    cases rawId with
    | none => exact .read .resume (by simp [resume,resumeAuthentication,hchallenge,hc,Effect.raise]) (.raised _)
    | some credentialId =>
      refine .read .resume (c := .at (.authenticationPasskey c challenge credentialId))
        (by simp [resume,resumeAuthentication,hchallenge,hc,Effect.goto]) ?_
      have hpasskey : db.toDb.passkeys credentialId =
        (db.accounts.passkeys.find? fun row => row.credentialId == credentialId).map PasskeyRow.toPasskeyRecord := rfl
      simp only [Option.bind_some]
      cases hfind : db.accounts.passkeys.find? fun row => row.credentialId == credentialId with
      | none =>
        rw [hfind] at hpasskey
        exact .read .resume (by simp [resume,resumeAuthentication,hpasskey,Effect.raise]) (.raised _)
      | some passkey =>
        rw [hfind] at hpasskey
        have hkey := List.find?_some hfind
        obtain rfl : passkey.credentialId = credentialId := by simpa using hkey
        simp only [Option.map_some] at hpasskey
        have hown : (challenge.userId != some passkey.userId) = (some passkey.userId != challenge.userId) := bne_comm
        by_cases hr : (passkey.revokedAt.isSome || some passkey.userId != challenge.userId) = true
        · simp only [hr, if_true]
          exact .read .resume (by simp only [resume, resumeAuthentication, hpasskey, hown, hr, if_true]; rfl) (.raised _)
        · simp only [hr]
          cases verdict with
          | none => exact .read .refused (by simp only [resume, resumeAuthentication, hpasskey, hown, hr]; rfl) (.raised _)
          | some signCount =>
            refine .read (.asserted signCount)
              (c := .at (.authenticationConsume c passkey.credentialId passkey.toPasskeyRecord signCount chance.now))
              (by simp only [resume, resumeAuthentication, hpasskey, hown, hr]; rfl) ?_
            exact consume_refines settings chance db rfl (authenticationUser_refines settings chance db
              { db with accounts := db.accounts.consumeChallenge c chance.now } rfl (fun _ => rfl) rfl hfind signCount)

theorem requestEffect_refines (hle : settings.le? = before?) (verdict : Option (String × Nat)) (request : Request) :
    Refines settings chance.now db db.toDb (request.begin chance.now) (requestEffect settings chance db verdict request) := by
  cases request with
  | finishRegistration c => exact finishPasskeyRegistration_refines settings chance db hle c verdict
  | finishAuthentication c rawId => exact finishPasskeyAuthentication_refines settings chance db hle c rawId _
  | withSession token k => exact withSession_refines settings chance db hle token k

/-- On a server with the accounts of `db` and a free lock, a request alone ends and leaves the accounts as its
operations do. -/
theorem request_alone (hle : settings.le? = before?) {s : Server} (hdb : s.db = db.toDb) (hw : s.writer = none)
    (hclock : s.clock ≤ chance.now) (verdict : Option (String × Nat)) (request : Request) :
    ∃ t r, Run settings.toSettings anyStep s t ∧ t.writer = none ∧
      t.db = ((requestEffect settings chance db verdict request).commit.getD db).toDb ∧
      (requestEffect settings chance db verdict request).answer = some r ∧ t.result? s.count = some r := by
  obtain ⟨r,hr,hserves⟩ := requestEffect_refines settings chance db hle verdict request
  let started : Server :=
    { s with
      clock := chance.now
      tasks := Function.update s.tasks s.count (some ⟨request,request.begin chance.now⟩)
      count := s.count + 1 }
  have hstep : Security.step settings.toSettings (.request request chance.now) s = some started := if_pos hclock
  have hview : started.view s.count = db.toDb := by simp [started,Server.view,hw,hdb]
  obtain ⟨t,hrun,htdb,htw,hresult⟩ := hserves.run (s := started) (Function.update_self _ _ _) hdb (fun _ _ => hview)
    (.inl hw) (fun _ _ => hw) (Int.le_refl chance.now)
  exact ⟨t,r,.head ⟨_,trivial,hstep⟩ hrun,htw,htdb,hr,hresult⟩

end Requests

/-! ## First-time setup -/

def Settings.setup (settings : Settings) : SetupSettings :=
  ⟨settings.le?,settings.challengeTtl,settings.sessionTtl,settings.tokenHash⟩

/-- The draw of every statement of a call, with the verdict of the WebAuthn library. -/
def Chance.draw (chance : Chance) (verdict : Option (String × Nat)) : SetupDraw :=
  ⟨chance.now,chance.newId,chance.secret,chance.token,verdict,false⟩

/-- What an operation returns for a call of first-time setup. -/
def returned : SetupResult → Except Failure Return
  | .ok (.options c _) => .ok (.challenge c)
  | .ok (.tokens token p) => .ok (.tokens token p)
  | .error e => .error (.service e)

/-- The operation behind a call, over the secret file. -/
def setupEffect (settings : Settings) (chance : Chance) (db : SecurityDb) (verdict : Option (String × Nat))
    (file : SecretFile) : SetupCall → OpEffect
  | .bootstrap username bootstrapSecret deviceName => bootstrap settings chance db username bootstrapSecret deviceName file
  | .finishPasskeyRegistration c => finishPasskeyRegistration settings chance db c verdict

/-- Served alone from `x`, the call ends as the operation does and leaves the same accounts. -/
def SetupRefines (settings : Settings) (draw : SetupDraw) (db : SecurityDb) (q : SetupCall)
    (x : Database.Solo SetupDb SecretFile SetupPc SetupResult) (effect : OpEffect) : Prop :=
  ∃ n y r, (Security.setup settings.setup).serve q (List.replicate n draw) x = some y ∧ y.ctl = .done r ∧
    y.db = (effect.commit.getD db).accounts ∧ returned r = effect.result

section Setup
variable {settings : Settings} {draw : SetupDraw} {db : SecurityDb} {q : SetupCall}
  {x : Database.Solo SetupDb SecretFile SetupPc SetupResult} {pc : SetupPc} {effect : OpEffect}

theorem SetupRefines.next {e : SetupEffect} (hx : x.ctl = .at pc)
    (he : q.resume settings.setup x.outside x.view draw pc = some e)
    (h : SetupRefines settings draw db q (x.apply e) effect) : SetupRefines settings draw db q x effect := by
  obtain ⟨n,y,r,hserve,hend⟩ := h
  exact ⟨n + 1,y,r,(Database.serve_cons hx he).trans hserve,hend⟩

theorem SetupRefines.done {r : SetupResult} (hx : x.ctl = .done r) (hdb : x.db = (effect.commit.getD db).accounts)
    (hr : returned r = effect.result) : SetupRefines settings draw db q x effect := ⟨0,x,r,rfl,hx,hdb,hr⟩

theorem SetupRefines.raise {e : ServiceError} (o : SecretFile) (hx : x.ctl = .at pc) (hdb : x.db = db.accounts)
    (he : q.resume settings.setup x.outside x.view draw pc = some (SetupEffect.raise e o)) :
    SetupRefines settings draw db q x (OpEffect.raise e) := .next hx he (.done rfl hdb rfl)

theorem SetupRefines.insert {rows? : Option SetupDb} {pc' : SetupPc} {o : SecretFile} {next : SetupDb → OpEffect}
    (hx : x.ctl = .at pc) (hdb : x.db = db.accounts)
    (he : q.resume settings.setup x.outside x.view draw pc = some (SetupEffect.insert rows? pc' o))
    (h : ∀ rows, rows? = some rows → SetupRefines settings draw db q ⟨.at pc',db.accounts,rows,true,o⟩ (next rows)) :
    SetupRefines settings draw db q x (flush rows? next) := by
  cases rows? with
  | none => exact .raise o hx hdb he
  | some rows =>
    refine .next hx he ?_
    have hafter := h rows rfl
    rw [← hdb] at hafter
    exact hafter

end Setup

section SetupCalls
variable (settings : Settings) (chance : Chance) (db : SecurityDb) (verdict : Option (String × Nat)) (working : SetupDb)

theorem bootstrap_refines (username bootstrapSecret deviceName : String) (file : SecretFile) :
    SetupRefines settings (chance.draw verdict) db (.bootstrap username bootstrapSecret deviceName)
      ⟨.at .bootstrapSecret,db.accounts,working,false,file⟩
      (bootstrap settings chance db username bootstrapSecret deviceName file) := by
  unfold bootstrap
  cases hs : requireBootstrapSecret bootstrapSecret file chance.secret with
  | error e => exact .raise (some (file.getD chance.secret.text)) rfl rfl (by simp [SetupCall.resume,resumeBootstrap,Chance.draw,hs])
  | ok =>
    refine .next (e := SetupEffect.goto .bootstrapUsers (some (file.getD chance.secret.text))) rfl
      (by simp [SetupCall.resume,resumeBootstrap,Chance.draw,hs]) ?_
    by_cases hu : db.accounts.users = []
    · rw [if_neg (by simp [hu])]
      refine .next (e := SetupEffect.goto .bootstrapUser (some (file.getD chance.secret.text))) rfl ?_ ?_
      · change some (if db.accounts.users ≠ [] then _ else _) = _
        rw [if_neg (by simp [hu])]
        rfl
      refine .insert rfl rfl rfl fun accounts _ => ?_
      refine .insert rfl rfl rfl fun accounts' _ => ?_
      exact .next rfl rfl (.next rfl rfl (.next rfl rfl (.next rfl rfl (.done rfl rfl rfl))))
    · rw [if_pos hu]
      refine .raise (some (file.getD chance.secret.text)) rfl rfl ?_
      change some (if db.accounts.users ≠ [] then _ else _) = _
      rw [if_pos hu]
      rfl

theorem finishPasskeyRegistration_setupRefines (c : ChallengeId) (file : SecretFile) :
    SetupRefines settings (chance.draw verdict) db (.finishPasskeyRegistration c)
      ⟨.at .registrationChallenge,db.accounts,working,false,file⟩ (finishPasskeyRegistration settings chance db c verdict) := by
  unfold finishPasskeyRegistration
  cases hc : registrationChallenge settings.le? (db.accounts.challenges c) chance.now with
  | error e =>
    exact .raise file rfl rfl (by simp [SetupCall.resume,resumeFinish,Chance.draw,Settings.setup,Database.Solo.view,hc])
  | ok challenge =>
    cases verdict with
    | none =>
      exact .raise file rfl rfl (by simp [SetupCall.resume,resumeFinish,Chance.draw,Settings.setup,Database.Solo.view,hc])
    | some verdict =>
      obtain ⟨credentialId,signCount⟩ := verdict
      refine .next (e := SetupEffect.goto (.registrationConsume challenge credentialId signCount chance.now) file) rfl
        (by simp [SetupCall.resume,resumeFinish,Chance.draw,Settings.setup,Database.Solo.view,hc]) ?_
      by_cases hcons : db.accounts.consumable c chance.now = true
      · simp only [hcons, Bool.not_true, Bool.false_eq_true, if_false]
        refine .next (e := SetupEffect.write (db.accounts.consumeChallenge c chance.now)
          (.registrationUser challenge credentialId signCount) file) rfl ?_ ?_
        · change (if db.accounts.consumable c chance.now then _ else _) = _
          rw [if_pos hcons]
          rfl
        rw [← db.find_user]
        cases hu : db.accounts.users.find? fun user => some user.id == challenge.userId with
        | none =>
          refine .raise file rfl rfl ?_
          change (match db.accounts.users.find? fun user => some user.id == challenge.userId with | none => _ | some _ => _) = _
          rw [hu]
          rfl
        | some user =>
          refine .next (e := SetupEffect.goto (.registrationDevice user challenge credentialId signCount) file) rfl ?_ ?_
          · change (match db.accounts.users.find? fun user => some user.id == challenge.userId with | none => _ | some _ => _) = _
            rw [hu]
            rfl
          refine .insert rfl rfl rfl fun accounts _ => ?_
          refine .insert rfl rfl rfl fun accounts' _ => ?_
          refine .insert rfl rfl rfl fun accounts'' _ => ?_
          exact .next rfl rfl (.next rfl rfl (.done rfl rfl rfl))
      · simp only [hcons, Bool.not_false, if_true]
        refine .next (e := ⟨.done (.error (.authenticationConflict "Passkey challenge is no longer valid")),.write db.accounts,file⟩)
          rfl ?_ (.done rfl rfl rfl)
        change (if db.accounts.consumable c chance.now then _ else _) = _
        rw [if_neg hcons]
        rfl

/-- On a database with the accounts of `db` and a free lock, a call alone ends and leaves the accounts as its operation
does. -/
theorem setup_alone {s : Database.State SetupDb SecretFile SetupCall SetupPc SetupResult} (hdb : s.db = db.accounts) (hw : s.writer = none) (q : SetupCall) :
    ∃ n t r, exec (Database.step (Security.setup settings.setup))
        (.call q :: (List.replicate n (chance.draw verdict)).map fun draw => .run s.count draw) s = some t ∧
      t.db = ((setupEffect settings chance db verdict s.outside q).commit.getD db).accounts ∧
      t.tasks s.count = some (q,.done r) ∧ returned r = (setupEffect settings chance db verdict s.outside q).result := by
  have hrefines : SetupRefines settings (chance.draw verdict) db q
      ⟨(Security.setup settings.setup).begin s.outside q,s.db,s.working,false,s.outside⟩
      (setupEffect settings chance db verdict s.outside q) := by
    rw [hdb]
    cases q with
    | bootstrap username bootstrapSecret deviceName =>
      exact bootstrap_refines settings chance db verdict s.working username bootstrapSecret deviceName s.outside
    | finishPasskeyRegistration c => exact finishPasskeyRegistration_setupRefines settings chance db verdict s.working c s.outside
  obtain ⟨n,y,r,hserve,hctl,hydb,hr⟩ := hrefines
  refine ⟨n,s.alone q y,r,Database.exec_call_served hw hserve,hydb,?_,hr⟩
  rw [← hctl]
  exact Function.update_self _ _ _

end SetupCalls

end Operations

end AgentGraph.Security
