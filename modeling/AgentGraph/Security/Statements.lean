import AgentGraph.Security.Service

/-! # Statements of a request

`Next` lists where each statement leads and what it writes. It is the only place
where the code of the requests is opened; the arguments about sessions and second
factors are case analyses on it.
-/
set_option autoImplicit false
namespace AgentGraph.Security

/-- Where a statement leads, what it writes and whether it commits. -/
inductive Next (settings : Settings) (db : Db) (now : Instant) : Pc → Ctl → Option Db → Bool → Prop
  | raised (pc : Pc) (e : ServiceError) : Next settings db now pc (.done (.raised e)) none false
  -- `principal_from_session_token`
  | principalSession (token : String) (started : Instant) (k : Action) (record : SessionRecord Instant)
      (h : db.sessionByTokenHash (settings.tokenHash token) = some record) (hr : record.revokedAt = none)
      (he : started < record.expiresAt) :
      Next settings db now (.principalSession token started k) (.at (.principalUser record k)) none false
  | principalUser (record : SessionRecord Instant) (k : Action) :
      Next settings db now (.principalUser record k) (.at (.principalDevice record (db.users record.userId) k)) none false
  | principalDevice (record : SessionRecord Instant) (user : Option (UserRecord Instant)) (k : Action)
      (p : SessionPrincipal) (h : resolvePrincipal db record user = .ok p) (c : Ctl)
      (hc : c = (k.start settings now p).next) :
      Next settings db now (.principalDevice record user k) c none false
  -- `finish_passkey_registration`
  | registrationChallenge (c : ChallengeId) (challenge : ChallengeRecord Instant) (credentialId : String)
      (signCount : Nat) :
      Next settings db now (.registrationChallenge c)
        (.at (.registrationConsume c challenge credentialId signCount now)) none false
  | registrationConsume (c : ChallengeId) (challenge : ChallengeRecord Instant) (credentialId : String)
      (signCount : Nat) (started : Instant) :
      Next settings db now (.registrationConsume c challenge credentialId signCount started)
        (.at (.registrationUser challenge credentialId signCount)) (some (db.consumeChallenge c started)) false
  | registrationLost (c : ChallengeId) (challenge : ChallengeRecord Instant) (credentialId : String)
      (signCount : Nat) (started : Instant) (e : ServiceError) :
      Next settings db now (.registrationConsume c challenge credentialId signCount started)
        (.done (.raised e)) (some db) false
  | registrationUser (challenge : ChallengeRecord Instant) (credentialId : String) (signCount : Nat)
      (userId : UserId) (user : UserRecord Instant) :
      Next settings db now (.registrationUser challenge credentialId signCount)
        (.at (.registrationDevice userId user challenge credentialId signCount)) none false
  | registrationDevice (userId : UserId) (user : UserRecord Instant) (challenge : ChallengeRecord Instant)
      (credentialId : String) (signCount : Nat) (d : DeviceId) (record : DeviceRecord Instant) (db' : Db)
      (h : db.insertDevice d record = some db') :
      Next settings db now (.registrationDevice userId user challenge credentialId signCount)
        (.at (.registrationPasskey userId user d credentialId signCount)) (some db') false
  | registrationPasskey (userId : UserId) (user : UserRecord Instant) (d : DeviceId) (credentialId : String)
      (signCount : Nat) (record : PasskeyRecord Instant) (db' : Db)
      (h : db.insertPasskey credentialId record = some db') :
      Next settings db now (.registrationPasskey userId user d credentialId signCount)
        (.at (.createSession userId user d .limited now)) (some db') false
  -- `finish_passkey_authentication`
  | authenticationChallenge (c : ChallengeId) (rawId : Option String) (challenge : ChallengeRecord Instant)
      (credentialId : String) :
      Next settings db now (.authenticationChallenge c rawId) (.at (.authenticationPasskey c challenge credentialId))
        none false
  | authenticationPasskey (c : ChallengeId) (challenge : ChallengeRecord Instant) (credentialId : String)
      (passkey : PasskeyRecord Instant) (signCount : Nat) :
      Next settings db now (.authenticationPasskey c challenge credentialId)
        (.at (.authenticationConsume c credentialId passkey signCount now)) none false
  | authenticationConsume (c : ChallengeId) (credentialId : String) (passkey : PasskeyRecord Instant)
      (signCount : Nat) (started : Instant) :
      Next settings db now (.authenticationConsume c credentialId passkey signCount started)
        (.at (.authenticationUser credentialId passkey signCount)) (some (db.consumeChallenge c started)) false
  | authenticationLost (c : ChallengeId) (credentialId : String) (passkey : PasskeyRecord Instant)
      (signCount : Nat) (started : Instant) (e : ServiceError) :
      Next settings db now (.authenticationConsume c credentialId passkey signCount started)
        (.done (.raised e)) (some db) false
  | authenticationUser (credentialId : String) (passkey : PasskeyRecord Instant) (signCount : Nat) :
      Next settings db now (.authenticationUser credentialId passkey signCount)
        (.at (.authenticationDevice credentialId passkey (db.users passkey.userId) signCount)) none false
  | authenticationSame (credentialId : String) (passkey : PasskeyRecord Instant) (user : UserRecord Instant)
      (trust : DeviceTrust) (signCount : Nat) :
      Next settings db now (.authenticationDevice credentialId passkey (some user) signCount)
        (.at (.authenticationTouch passkey user trust now)) none false
  | authenticationDevice (credentialId : String) (passkey : PasskeyRecord Instant) (user : UserRecord Instant)
      (trust : DeviceTrust) (signCount : Nat) :
      Next settings db now (.authenticationDevice credentialId passkey (some user) signCount)
        (.at (.authenticationSignCount credentialId passkey user trust signCount)) none false
  | authenticationSignCount (credentialId : String) (passkey : PasskeyRecord Instant) (user : UserRecord Instant)
      (trust : DeviceTrust) (signCount : Nat) :
      Next settings db now (.authenticationSignCount credentialId passkey user trust signCount)
        (.at (.authenticationTouch passkey user trust now)) (some (db.updatePasskey credentialId signCount)) false
  | authenticationTouch (passkey : PasskeyRecord Instant) (user : UserRecord Instant) (trust : DeviceTrust)
      (started : Instant) :
      Next settings db now (.authenticationTouch passkey user trust started)
        (.at (.createSession passkey.userId user passkey.deviceId trust now))
        (some (db.updateDevice passkey.deviceId fun device => { device with lastAuthenticatedAt := some started })) false
  -- `_create_session`
  | createSession (userId : UserId) (user : UserRecord Instant) (d : DeviceId) (trust : DeviceTrust)
      (started : Instant) (sid : SessionId) (token : String) (db' : Db)
      (h : db.insertSession ⟨sid,userId,d,settings.tokenHash token,.passkey,started + settings.sessionTtl,none,none⟩ =
        some db') :
      Next settings db now (.createSession userId user d trust started)
        (.at (.audit (.tokens token (principalOf userId user sid d trust .passkey)))) (some db') false
  -- `verify_totp`
  | totpFactor (p : SessionPrincipal) (code secret : String) (factor : FactorRecord Instant)
      (h : db.factors p.userId = some factor) (hr : factor.revokedAt = none)
      (hs : settings.decrypt factor.encryptedSecret = some secret) (hv : settings.totpVerify secret code now = true) :
      Next settings db now (.totpFactor p code) (.at (.totpSession p)) none false
  | totpDenied (p : SessionPrincipal) (code : String) (e : ServiceError) :
      Next settings db now (.totpFactor p code) (.at (.audit (.raised e))) none false
  | totpSession (p : SessionPrincipal) (record : SessionRecord Instant) (h : db.session p.sessionId = some record) :
      Next settings db now (.totpSession p) (.at (.totpStepUp p record now)) none false
  | totpStepUp (p : SessionPrincipal) (record : SessionRecord Instant) (started : Instant) :
      Next settings db now (.totpStepUp p record started) (.at (.totpCommit p record))
        (some (db.updateSession record.id fun record => { record with stepUpAt := some started })) false
  | totpCommit (p : SessionPrincipal) (record : SessionRecord Instant) :
      Next settings db now (.totpCommit p record) (.at (.totpUser p record)) none true
  | totpUser (p : SessionPrincipal) (record : SessionRecord Instant) (user : UserRecord Instant) :
      Next settings db now (.totpUser p record)
        (.done (.principal (principalOf p.userId user record.id record.deviceId p.deviceTrust .passkeyTotp))) none false
  -- `confirm_totp_enrollment`
  | enrollmentRead (p : SessionPrincipal) (secret encrypted : String) :
      Next settings db now (.enrollmentRead p secret encrypted)
        (.at (.enrollmentWrite p secret encrypted (db.factors p.userId).isSome)) none false
  | enrollmentWrite (p : SessionPrincipal) (secret encrypted : String) (existing : Bool) (db' : Db)
      (h : db.upsertFactor p.userId existing encrypted = some db') :
      Next settings db now (.enrollmentWrite p secret encrypted existing) (.at (.audit .returned)) (some db') false
  -- `logout`
  | loggedOut (p : SessionPrincipal) : Next settings db now (.logoutRead p) (.done .returned) none false
  | logoutRead (p : SessionPrincipal) : Next settings db now (.logoutRead p) (.at (.logoutWrite p now)) none false
  | logoutWrite (p : SessionPrincipal) (started : Instant) :
      Next settings db now (.logoutWrite p started) (.at (.audit .returned))
        (some (db.updateSession p.sessionId fun record => { record with revokedAt := some started })) false
  -- `trust_device`, `rename_device`, `revoke_device`
  | trusted (p : SessionPrincipal) (d : DeviceId) :
      Next settings db now (.trustRead p d) (.at (.audit .returned)) none false
  | trustRead (p : SessionPrincipal) (d : DeviceId) : Next settings db now (.trustRead p d) (.at (.trustWrite d)) none false
  | trustWrite (d : DeviceId) :
      Next settings db now (.trustWrite d) (.at (.audit .returned))
        (some (db.updateDevice d fun device => { device with trust := .trusted })) false
  | renamed (p : SessionPrincipal) (d : DeviceId) (name : String) :
      Next settings db now (.renameRead p d name) (.at (.commit .returned)) none false
  | renameRead (p : SessionPrincipal) (d : DeviceId) (name : String) :
      Next settings db now (.renameRead p d name) (.at (.renameWrite d name)) none false
  | renameWrite (d : DeviceId) (name : String) :
      Next settings db now (.renameWrite d name) (.at (.commit .returned))
        (some (db.updateDevice d fun device => { device with displayName := name })) false
  | revoked (p : SessionPrincipal) (d : DeviceId) : Next settings db now (.revokeRead p d) (.done .returned) none false
  | revokeRead (p : SessionPrincipal) (d : DeviceId) :
      Next settings db now (.revokeRead p d) (.at (.revokeWrite d now)) none false
  | revokeWrite (d : DeviceId) (started : Instant) :
      Next settings db now (.revokeWrite d started) (.at (.revokeSessions d started))
        (some (db.updateDevice d fun device => { device with revokedAt := some started })) false
  | revokeSessions (d : DeviceId) (started : Instant) :
      Next settings db now (.revokeSessions d started) (.at (.audit .returned))
        (some (db.revokeSessionsForDevice d started)) false
  -- the end of a request
  | audit (result : Result) : Next settings db now (.audit result) (.at (.commit result)) (some db) false
  | commit (result : Result) : Next settings db now (.commit result) (.done result) none true

variable {settings : Settings} {db : Db} {now : Instant} {ch : Choice} {pc : Pc} {eff : Effect}

theorem checkSession_ok {record? : Option (SessionRecord Instant)} {record : SessionRecord Instant}
    (h : checkSession before? record? now = .ok record) :
    record? = some record ∧ record.revokedAt = none ∧ now < record.expiresAt := by
  unfold checkSession at h
  split at h
  · cases h
  next row =>
    split at h
    · cases h
    next hr =>
      unfold checkExpiry before? at h
      by_cases hle : row.expiresAt ≤ now
      · simp [hle,Except.map] at h
      · simp only [hle, decide_false] at h
        cases h
        exact ⟨rfl,by simpa using hr,Int.not_le.mp hle⟩

theorem resolvePrincipal_ok {record : SessionRecord Instant} {user : Option (UserRecord Instant)} {p : SessionPrincipal}
    (h : resolvePrincipal db record user = .ok p) :
    ∃ user' device, user = some user' ∧ db.devices record.deviceId = some device ∧ device.revokedAt = none ∧
      p = principalOf record.userId user' record.id record.deviceId device.trust (sessionStrength record) := by
  unfold resolvePrincipal at h
  split at h
  next user device hd =>
    split at h
    · cases h
    next hu =>
      simp only [Bool.or_eq_true, Option.isSome_iff_ne_none, not_or, not_not] at hu
      exact ⟨user,device,rfl,hd,hu.2,(Except.ok.inj h).symm⟩
  · cases h

theorem Action.start_effect (settings : Settings) (now : Instant) (p : SessionPrincipal) (k : Action) :
    (k.start settings now p).write = none ∧ (k.start settings now p).commit = false := by
  cases k <;> simp only [Action.start] <;> (try split) <;> exact ⟨rfl,rfl⟩

theorem resumePrincipal_next (h : resumePrincipal settings db now pc = some eff) :
    Next settings db now pc eff.next eff.write eff.commit := by
  cases pc <;> simp only [resumePrincipal, reduceCtorEq, Option.some.injEq] at h
  case principalSession token started k =>
    split at h
    · cases h
      exact .raised _ _
    next record hc =>
      obtain ⟨hr,hv,he⟩ := checkSession_ok hc
      cases h
      exact .principalSession _ _ _ _ hr hv he
  case principalUser record k =>
    subst h
    exact .principalUser _ _
  case principalDevice record user k =>
    split at h
    · cases h
      exact .raised _ _
    next p hp =>
      cases h
      obtain ⟨hw,hcommit⟩ := k.start_effect settings now p
      rw [hw,hcommit]
      exact .principalDevice _ _ _ _ hp _ rfl

theorem resumeRegistration_next (h : resumeRegistration db now ch pc = some eff) :
    Next settings db now pc eff.next eff.write eff.commit := by
  cases pc <;> cases ch <;> simp only [resumeRegistration, reduceCtorEq] at h
  case registrationChallenge.attested =>
    split at h <;> cases h
    · exact .raised _ _
    · exact .registrationChallenge _ _ _ _
  case registrationChallenge.refused => split at h <;> cases h <;> exact .raised _ _
  case registrationConsume.resume =>
    split at h <;> cases h
    · exact .registrationConsume _ _ _ _ _
    · exact .registrationLost _ _ _ _ _ _
  case registrationUser.resume =>
    split at h <;> cases h
    · exact .registrationUser _ _ _ _ _
    · exact .raised _ _
  case registrationDevice.fresh =>
    split at h
    · cases h
      exact .raised _ _
    next hd =>
      cases h
      exact .registrationDevice _ _ _ _ _ _ _ _ hd
  case registrationPasskey.resume =>
    split at h
    · cases h
      exact .raised _ _
    next hd =>
      cases h
      exact .registrationPasskey _ _ _ _ _ _ _ hd

theorem resumeAuthentication_next (h : resumeAuthentication db now ch pc = some eff) :
    Next settings db now pc eff.next eff.write eff.commit := by
  cases pc <;> simp only [resumeAuthentication, reduceCtorEq] at h
  case authenticationPasskey =>
    split at h
    · cases h
      exact .raised _ _
    next passkey _ =>
      split at h
      · cases h
        exact .raised _ _
      · split at h <;> cases h
        · exact .authenticationPasskey _ _ _ _ _
        · exact .raised _ _
  all_goals cases ch <;> simp only [reduceCtorEq] at h
  case authenticationChallenge.resume =>
    split at h <;> cases h
    · exact .raised _ _
    · exact .raised _ _
    · exact .authenticationChallenge _ _ _ _
  case authenticationConsume.resume =>
    split at h <;> cases h
    · exact .authenticationConsume _ _ _ _ _
    · exact .authenticationLost _ _ _ _ _ _
  case authenticationUser.resume =>
    cases h
    exact .authenticationUser _ _ _
  case authenticationDevice.resume =>
    split at h
    · split at h
      · cases h
        exact .raised _ _
      · split at h <;> cases h
        · exact .authenticationSame _ _ _ _ _
        · exact .authenticationDevice _ _ _ _ _
    · cases h
      exact .raised _ _
  case authenticationSignCount.resume =>
    cases h
    exact .authenticationSignCount _ _ _ _ _
  case authenticationTouch.resume =>
    cases h
    exact .authenticationTouch _ _ _ _

theorem resumeCreate_next (h : resumeCreate settings db ch pc = some eff) :
    Next settings db now pc eff.next eff.write eff.commit := by
  cases pc <;> cases ch <;> simp only [resumeCreate, reduceCtorEq] at h
  case createSession.fresh =>
    split at h
    · cases h
      exact .raised _ _
    next hd =>
      cases h
      exact .createSession _ _ _ _ _ _ _ _ hd

theorem resumeTotp_next (h : resumeTotp settings db now pc = some eff) :
    Next settings db now pc eff.next eff.write eff.commit := by
  cases pc <;> simp only [resumeTotp, reduceCtorEq, Option.some.injEq] at h
  case totpFactor =>
    split at h
    · cases h
      exact .raised _ _
    next factor hf =>
      split at h
      · cases h
        exact .raised _ _
      next hr =>
        split at h
        · cases h
          exact .raised _ _
        next secret hs =>
          split at h <;> cases h
          next hv => exact .totpFactor _ _ _ _ hf (by simpa using hr) hs hv
          · exact .totpDenied _ _ _
  case totpSession =>
    split at h
    · cases h
      exact .raised _ _
    next record hs =>
      split at h <;> cases h
      · exact .raised _ _
      · exact .totpSession _ _ hs
  case totpStepUp =>
    subst h
    exact .totpStepUp _ _ _
  case totpCommit =>
    subst h
    exact .totpCommit _ _
  case totpUser =>
    split at h <;> cases h
    · exact .raised _ _
    · exact .totpUser _ _ _
  case enrollmentRead =>
    subst h
    exact .enrollmentRead _ _ _
  case enrollmentWrite =>
    split at h
    · cases h
      exact .raised _ _
    next hd =>
      cases h
      exact .enrollmentWrite _ _ _ _ _ hd

theorem resumeDevices_next (h : resumeDevices db now pc = some eff) :
    Next settings db now pc eff.next eff.write eff.commit := by
  cases pc <;> simp only [resumeDevices, reduceCtorEq, Option.some.injEq] at h
  case logoutRead =>
    split at h
    · cases h
      exact .loggedOut _
    · split at h <;> cases h
      · exact .loggedOut _
      · exact .logoutRead _
  case logoutWrite =>
    subst h
    exact .logoutWrite _ _
  case trustRead =>
    split at h
    · cases h
      exact .raised _ _
    · split at h
      · cases h
        exact .raised _ _
      · split at h <;> cases h
        · exact .trusted _ _
        · exact .trustRead _ _
  case trustWrite =>
    subst h
    exact .trustWrite _
  case renameRead =>
    split at h
    · cases h
      exact .raised _ _
    · split at h <;> cases h
      · exact .renamed _ _ _
      · exact .renameRead _ _ _
  case renameWrite =>
    subst h
    exact .renameWrite _ _
  case revokeRead =>
    split at h
    · cases h
      exact .raised _ _
    · split at h <;> cases h
      · exact .revoked _ _
      · exact .revokeRead _ _
  case revokeWrite =>
    subst h
    exact .revokeWrite _ _
  case revokeSessions =>
    subst h
    exact .revokeSessions _ _
  case audit =>
    subst h
    exact .audit _
  case commit =>
    subst h
    exact .commit _

theorem resume_next (h : resume settings db now ch pc = some eff) :
    Next settings db now pc eff.next eff.write eff.commit := by
  cases pc
  case principalSession | principalUser | principalDevice => exact resumePrincipal_next h
  case registrationChallenge | registrationConsume | registrationUser | registrationDevice | registrationPasskey =>
    exact resumeRegistration_next h
  case authenticationChallenge | authenticationPasskey | authenticationConsume | authenticationUser
      | authenticationDevice | authenticationSignCount | authenticationTouch =>
    exact resumeAuthentication_next h
  case createSession => exact resumeCreate_next h
  case totpFactor | totpSession | totpStepUp | totpCommit | totpUser | enrollmentRead | enrollmentWrite =>
    exact resumeTotp_next h
  all_goals exact resumeDevices_next h

end AgentGraph.Security
