import AgentGraph.Security.Revocation

/-! # A challenge is spent once

The row of a challenge is read without a lock. The conditional update that consumes it
takes the write lock, and from then on nobody else commits until the request commits
everything or nothing.
-/
set_option autoImplicit false
namespace AgentGraph.Security
open Transition

/-- The challenge that a request finishes, and the kind it must have. -/
def Request.challenge? : Request → Option (ChallengeId × ChallengeKind)
  | .finishRegistration c => some (c,.passkeyRegistration)
  | .finishAuthentication c _ => some (c,.passkeyAuthentication)
  | .withSession _ _ => none

/-- Challenges are only ever consumed, and none twice. -/
def Spends (db db' : Db) : Prop :=
  ∀ c, (db.challenges c = none ∧ db'.challenges c = none) ∨
    ∃ ch, db.challenges c = some ch ∧
      (db'.challenges c = some ch ∨ ch.consumedAt = none ∧ ∃ t, db'.challenges c = some { ch with consumedAt := some t })

/-- Challenge `c` is of the kind and may be consumed at `t`. -/
structure Spendable (db : Db) (c : ChallengeId) (kind : ChallengeKind) (ch : ChallengeRecord Instant) (t : Instant) :
    Prop where
  row : db.challenges c = some ch
  kind : ch.kind = kind
  free : ch.consumedAt = none
  live : t < ch.expiresAt

/-- The transaction has consumed the challenge, for the user `u`. -/
structure Spent (late : Instant → Prop) (c : ChallengeId) (kind : ChallengeKind) (u : Option UserId) (db working : Db) : Prop where
  challenge : ∃ ch t, Spendable db c kind ch t ∧ late t ∧ ch.userId = u ∧
    working.challenges = Function.update db.challenges c (some { ch with consumedAt := some t })
  users : working.users = db.users
  factors : working.factors = db.factors

/-- A registration adds one device and one passkey of the user; an authentication adds none. -/
inductive Credentials (u : UserId) (d : DeviceId) (db working : Db) : ChallengeKind → Prop
  | registered (device : DeviceRecord Instant) (credentialId : String) (passkey : PasskeyRecord Instant)
      (newDevice : db.devices d = none) (devices : working.devices = Function.update db.devices d (some device))
      (deviceUser : device.userId = u) (newPasskey : db.passkeys credentialId = none)
      (passkeys : working.passkeys = Function.update db.passkeys credentialId (some passkey))
      (passkeyUser : passkey.userId = u) (passkeyDevice : passkey.deviceId = d) :
      Credentials u d db working .passkeyRegistration
  | used (devices : ∀ e, (working.devices e).isSome = (db.devices e).isSome)
      (passkeys : ∀ k, (working.passkeys k).isSome = (db.passkeys k).isSome) :
      Credentials u d db working .passkeyAuthentication

/-- What a request that returns the tokens of `p` commits. -/
structure Commits (late : Instant → Prop) (c : ChallengeId) (kind : ChallengeKind) (p : SessionPrincipal) (db db' : Db) :
    Prop where
  spent : Spent late c kind (some p.userId) db db'
  credentials : Credentials p.userId p.deviceId db db' kind
  session : ∃ row, db'.sessions = db.sessions ++ [row] ∧ row.id = p.sessionId ∧ row.userId = p.userId ∧
    row.deviceId = p.deviceId

/-- The challenge that the request has read is still the one in the table, but for its consumption. -/
def Seen (db : Db) (c : ChallengeId) (kind : ChallengeKind) (u : Option UserId) : Prop :=
  ∃ ch, db.challenges c = some ch ∧ ch.kind = kind ∧ ch.userId = u

/-- What is known at each statement of a request that finishes challenge `c`: it writes
nothing before it consumes the challenge, and holds the lock from there on. -/
def Pc.Drafts (late : Instant → Prop) (c : ChallengeId) (kind : ChallengeKind) (db working : Db) (writing : Prop) :
    Pc → Prop
  | .registrationChallenge c' => ¬ writing ∧ c' = c ∧ kind = .passkeyRegistration
  | .registrationConsume c' challenge _ _ now =>
    ¬ writing ∧ late now ∧ c' = c ∧ kind = .passkeyRegistration ∧ Seen db c kind challenge.userId
  | .registrationUser challenge _ _ =>
    writing ∧ kind = .passkeyRegistration ∧ Spent late c kind challenge.userId db working ∧
      working.devices = db.devices ∧ working.passkeys = db.passkeys ∧ working.sessions = db.sessions
  | .registrationDevice userId _ _ _ _ =>
    writing ∧ kind = .passkeyRegistration ∧ Spent late c kind (some userId) db working ∧
      working.devices = db.devices ∧ working.passkeys = db.passkeys ∧ working.sessions = db.sessions
  | .registrationPasskey userId _ d _ _ =>
    writing ∧ kind = .passkeyRegistration ∧ Spent late c kind (some userId) db working ∧
      (db.devices d = none ∧ ∃ device : DeviceRecord Instant, device.userId = userId ∧
        working.devices = Function.update db.devices d (some device)) ∧
      working.passkeys = db.passkeys ∧ working.sessions = db.sessions
  | .authenticationChallenge c' _ => ¬ writing ∧ c' = c ∧ kind = .passkeyAuthentication
  | .authenticationPasskey c' challenge _ =>
    ¬ writing ∧ c' = c ∧ kind = .passkeyAuthentication ∧ Seen db c kind challenge.userId
  | .authenticationConsume c' _ passkey _ now =>
    ¬ writing ∧ late now ∧ c' = c ∧ kind = .passkeyAuthentication ∧ Seen db c kind (some passkey.userId)
  | .authenticationUser _ passkey _ | .authenticationDevice _ passkey _ _ | .authenticationSignCount _ passkey _ _ _
  | .authenticationTouch passkey _ _ _ =>
    writing ∧ kind = .passkeyAuthentication ∧ Spent late c kind (some passkey.userId) db working ∧
      working.devices = db.devices ∧ (∀ k, (working.passkeys k).isSome = (db.passkeys k).isSome) ∧
      working.sessions = db.sessions
  | .createSession userId _ d _ _ =>
    writing ∧ Spent late c kind (some userId) db working ∧ Credentials userId d db working kind ∧
      working.sessions = db.sessions
  | .audit (.tokens _ p) | .commit (.tokens _ p) => writing ∧ Commits late c kind p db working
  | _ => False

section Challenges
variable {settings : Settings} {late : Instant → Prop} {db db' working : Db} {c : ChallengeId} {kind : ChallengeKind}
  {pc : Pc} {now : Instant} {ch : Choice} {eff : Effect}

theorem Spends.refl (db : Db) : Spends db db := by
  intro c
  cases h : db.challenges c with
  | none => exact .inl ⟨rfl,rfl⟩
  | some ch => exact .inr ⟨ch,rfl,.inl rfl⟩

theorem Spends.of_eq (h : db'.challenges = db.challenges) : Spends db db' := by
  intro c
  rw [h]
  exact Spends.refl db c

theorem Spends.trans {db'' : Db} (h : Spends db db') (h' : Spends db' db'') : Spends db db'' := by
  intro c
  obtain ⟨hnone,hnone'⟩ | ⟨ch,hrow,hrow'⟩ := h c
  · obtain ⟨-,hnone''⟩ | ⟨ch,hrow,-⟩ := h' c
    · exact .inl ⟨hnone,hnone''⟩
    · rw [hnone'] at hrow
      cases hrow
  · refine .inr ⟨ch,hrow,?_⟩
    obtain ⟨hnone,-⟩ | ⟨ch',hmid,hlast⟩ := h' c
    · obtain hrow' | ⟨-,t,hrow'⟩ := hrow' <;> rw [hnone] at hrow' <;> cases hrow'
    · obtain hrow' | ⟨hfree,t,hrow'⟩ := hrow'
      · obtain rfl := Option.some.inj (hrow'.symm.trans hmid)
        exact hlast
      · obtain rfl := Option.some.inj (hrow'.symm.trans hmid)
        obtain hlast | ⟨hno,-⟩ := hlast
        · exact .inr ⟨hfree,t,hlast⟩
        · cases hno

/-- A consumed challenge stays as it is. -/
theorem Spends.consumed (h : Spends db db') {row : ChallengeRecord Instant} (hrow : db.challenges c = some row)
    (hc : row.consumedAt ≠ none) : db'.challenges c = some row := by
  obtain ⟨hnone,-⟩ | ⟨ch,hrow',hlast⟩ := h c
  · rw [hrow] at hnone
    cases hnone
  · obtain rfl := Option.some.inj (hrow.symm.trans hrow')
    obtain hlast | ⟨hfree,-⟩ := hlast
    · exact hlast
    · exact absurd hfree hc

theorem Spends.seen {u : Option UserId} (h : Spends db db') (hs : Seen db c kind u) : Seen db' c kind u := by
  obtain ⟨ch,hrow,hkind,hu⟩ := hs
  obtain ⟨hnone,-⟩ | ⟨ch',hrow',hlast⟩ := h c
  · rw [hrow] at hnone
    cases hnone
  · obtain rfl := Option.some.inj (hrow.symm.trans hrow')
    obtain hlast | ⟨-,t,hlast⟩ := hlast
    · exact ⟨ch,hlast,hkind,hu⟩
    · exact ⟨_,hlast,hkind,hu⟩

theorem consumable_iff {t : Instant} : db.consumable c t = true ↔
    ∃ ch, db.challenges c = some ch ∧ ch.consumedAt = none ∧ t < ch.expiresAt := by
  unfold Db.consumable
  cases db.challenges c <;> simp

/-- The conditional update consumes the challenge that the request has read. -/
theorem Seen.spend {u : Option UserId} {t : Instant} (h : Seen db c kind u) (ht : late t) (hc : db.consumable c t = true) :
    Spent late c kind u db (db.consumeChallenge c t) := by
  obtain ⟨row,hrow,hkind,hu⟩ := h
  obtain ⟨row',hrow',hfree,hlive⟩ := consumable_iff.mp hc
  obtain rfl := Option.some.inj (hrow.symm.trans hrow')
  exact ⟨⟨row,t,⟨hrow,hkind,hfree,hlive⟩,ht,hu,by simp [Db.consumeChallenge,hrow]⟩,rfl,rfl⟩

theorem Spent.spends {u : Option UserId} (h : Spent late c kind u db working) : Spends db working := by
  obtain ⟨row,t,hs,-,-,hw⟩ := h.challenge
  intro c'
  rw [hw]
  by_cases hc : c' = c
  · subst hc
    exact .inr ⟨row,hs.row,.inr ⟨hs.free,t,by simp⟩⟩
  · rw [Function.update_of_ne hc]
    exact Spends.refl db c'

/-- Only the columns of a challenge matter to a transaction that has consumed it. -/
theorem Spent.keep {u : Option UserId} {working' : Db} (h : Spent late c kind u db working)
    (hc : working'.challenges = working.challenges) (hu : working'.users = working.users)
    (hf : working'.factors = working.factors) : Spent late c kind u db working' := by
  obtain ⟨row,t,hs,ht,hrow,hw⟩ := h.challenge
  exact ⟨⟨row,t,hs,ht,hrow,hc.trans hw⟩,hu.trans h.users,hf.trans h.factors⟩

/-- A request that has not consumed its challenge stands by what others commit. -/
theorem Pc.Drafts.advance {working' : Db} (h : pc.Drafts late c kind db working False) (hs : Spends db db') :
    pc.Drafts late c kind db' working' False := by
  cases pc <;> simp only [Pc.Drafts] at h ⊢
  case registrationChallenge | authenticationChallenge => exact h
  case registrationConsume | authenticationConsume => exact ⟨h.1,h.2.1,h.2.2.1,h.2.2.2.1,hs.seen h.2.2.2.2⟩
  case authenticationPasskey => exact ⟨h.1,h.2.1,h.2.2.1,hs.seen h.2.2.2⟩
  case audit result | commit result => cases result <;> simp_all
  all_goals simp_all

theorem Spent.mono {late' : Instant → Prop} {u : Option UserId} (h : Spent late c kind u db working)
    (hl : ∀ t, late t → late' t) : Spent late' c kind u db working := by
  obtain ⟨row,t,hs,ht,hrow⟩ := h.challenge
  exact ⟨⟨row,t,hs,hl t ht,hrow⟩,h.users,h.factors⟩

theorem Pc.Drafts.mono {late' : Instant → Prop} {writing : Prop} (h : pc.Drafts late c kind db working writing)
    (hl : ∀ t, late t → late' t) : pc.Drafts late' c kind db working writing := by
  cases pc <;> simp only [Pc.Drafts] at h ⊢
  case registrationChallenge | authenticationChallenge | authenticationPasskey => exact h
  case registrationConsume | authenticationConsume => exact ⟨h.1,hl _ h.2.1,h.2.2⟩
  case createSession => exact ⟨h.1,h.2.1.mono hl,h.2.2⟩
  case audit result | commit result =>
    cases result <;> simp only [] at h ⊢
    exact ⟨h.1,h.2.spent.mono hl,h.2.credentials,h.2.session⟩
  all_goals exact ⟨h.1,h.2.1,h.2.2.1.mono hl,h.2.2.2⟩

/-- Where a statement of such a request leads: on with the draft, to an error, or to the
commit that returns the tokens. -/
structure Effect.Keeps (late : Instant → Prop) (c : ChallengeId) (kind : ChallengeKind) (db working : Db)
    (writing : Prop) (pc : Pc) (eff : Effect) : Prop where
  draft : ∀ pc', eff.next = .at pc' →
    pc'.Drafts late c kind db (eff.write.getD working) (writing ∨ eff.write.isSome = true)
  ends : ∀ result, eff.next = .done result → eff.commit = true ∨ ∃ e, result = .raised e
  commits : eff.commit = true → eff.write = none ∧ writing ∧
    ∃ token p, eff.next = .done (.tokens token p) ∧ Commits late c kind p db working

section Statements
variable {writing : Prop} {view : Db}

/-- A statement that fails, even after it has taken the lock. -/
theorem Effect.Keeps.fail (e : ServiceError) (write : Option Db) :
    Effect.Keeps late c kind db working writing pc { next := .done (.raised e), write := write } := by
  refine ⟨fun _ hnext => ?_,fun result hnext => ?_,fun hc => ?_⟩
  · cases hnext
  · cases hnext
    exact .inr ⟨e,rfl⟩
  · cases hc

theorem Effect.Keeps.raise (e : ServiceError) : Effect.Keeps late c kind db working writing pc (.raise e) := .fail e none

/-- A statement that reads only. -/
theorem Effect.Keeps.goto {pc' : Pc} (h : pc'.Drafts late c kind db working writing) :
    Effect.Keeps late c kind db working writing pc (.goto pc') := by
  refine ⟨fun _ hnext => ?_,fun _ hnext => ?_,fun hc => ?_⟩
  · cases hnext
    have hw : (writing ∨ (none : Option Db).isSome = true) = writing := by simp
    simpa only [Effect.goto, hw, Option.getD_none] using h
  · cases hnext
  · cases hc

/-- A statement that writes takes the lock, or has it. -/
theorem Effect.Keeps.write {pc' : Pc} {db₁ : Db} (h : pc'.Drafts late c kind db db₁ True) :
    Effect.Keeps late c kind db working writing pc { next := .at pc', write := some db₁ } := by
  refine ⟨fun _ hnext => ?_,fun _ hnext => ?_,fun hc => ?_⟩
  · cases hnext
    simpa using h
  · cases hnext
  · cases hc

theorem resumeRegistration_keeps (hnow : late now) (hview : (writing → view = working) ∧ (¬ writing → view = db))
    (h : pc.Drafts late c kind db working writing) (he : resumeRegistration view now ch pc = some eff) :
    Effect.Keeps late c kind db working writing pc eff := by
  cases pc <;> cases ch <;> simp only [resumeRegistration, reduceCtorEq] at he
  case registrationChallenge.attested =>
    obtain ⟨hw,rfl,rfl⟩ := h
    rw [hview.2 hw] at he
    split at he
    · cases he
      exact .raise _
    next row hrow =>
      cases he
      obtain ⟨hrow,hkind⟩ := checkChallenge_ok hrow
      exact .goto ⟨hw,hnow,rfl,rfl,row,hrow,hkind,rfl⟩
  case registrationChallenge.refused =>
    split at he <;> cases he <;> exact .raise _
  case registrationConsume.resume c' challenge credentialId signCount started =>
    obtain ⟨hw,hlate,rfl,rfl,hseen⟩ := h
    rw [hview.2 hw] at he
    split at he
    next hc =>
      cases he
      exact .write ⟨trivial,rfl,hseen.spend hlate hc,rfl,rfl,rfl⟩
    · cases he
      exact .fail _ _
  case registrationUser.resume challenge credentialId signCount =>
    split at he
    next userId user huser _ =>
      cases he
      obtain ⟨hw,hkind,hspent,hrest⟩ := h
      exact .goto ⟨hw,hkind,huser ▸ hspent,hrest⟩
    · cases he
      exact .raise _
  case registrationDevice.fresh userId user challenge credentialId signCount d token =>
    obtain ⟨hw,hkind,hspent,hdevices,hpasskeys,hsessions⟩ := h
    rw [hview.1 hw] at he
    split at he
    · cases he
      exact .raise _
    next hd =>
      cases he
      obtain ⟨hnone,rfl⟩ := insertDevice_eq hd
      have hdevice : ∃ device : DeviceRecord Instant, device.userId = userId ∧
          Function.update working.devices d (some ⟨userId,challenge.displayName,.limited,none,none⟩) =
            Function.update db.devices d (some device) := ⟨_,rfl,by rw [hdevices]⟩
      exact .write ⟨trivial,hkind,hspent.keep rfl rfl rfl,⟨hdevices ▸ hnone,hdevice⟩,hpasskeys,hsessions⟩
  case registrationPasskey.resume userId user d credentialId signCount =>
    obtain ⟨hw,rfl,hspent,⟨hnone,device,huser,hdevices⟩,hpasskeys,hsessions⟩ := h
    rw [hview.1 hw] at he
    split at he
    · cases he
      exact .raise _
    next hp =>
      cases he
      have hnew : working.passkeys credentialId = none := by
        unfold Db.insertPasskey at hp
        split at hp
        · cases hp
        next hn => simpa using hn
      rw [insertPasskey_eq hp]
      refine .write ⟨trivial,hspent.keep rfl rfl rfl,?_,hsessions⟩
      exact .registered device credentialId _ hnone hdevices huser (hpasskeys ▸ hnew) (by rw [← hpasskeys]) rfl rfl

theorem resumeAuthentication_keeps (hnow : late now) (hview : (writing → view = working) ∧ (¬ writing → view = db))
    (h : pc.Drafts late c kind db working writing) (he : resumeAuthentication view now ch pc = some eff) :
    Effect.Keeps late c kind db working writing pc eff := by
  cases pc <;> simp only [resumeAuthentication, reduceCtorEq] at he
  case authenticationPasskey c' challenge credentialId =>
    obtain ⟨hw,rfl,rfl,hseen⟩ := h
    split at he
    · cases he
      exact .raise _
    next passkey _ =>
      split at he
      · cases he
        exact .raise _
      next hok =>
        have hok : passkey.revokedAt = none ∧ challenge.userId = some passkey.userId := by simpa using hok
        have huser := hok.2
        split at he <;> cases he
        · exact .goto ⟨hw,hnow,rfl,rfl,huser ▸ hseen⟩
        · exact .raise _
  all_goals cases ch <;> simp only [reduceCtorEq] at he
  case authenticationChallenge.resume c' rawId =>
    obtain ⟨hw,rfl,rfl⟩ := h
    rw [hview.2 hw] at he
    split at he
    · cases he
      exact .raise _
    · cases he
      exact .raise _
    next row credentialId hrow =>
      cases he
      obtain ⟨hrow,hkind⟩ := checkChallenge_ok hrow
      exact .goto ⟨hw,rfl,rfl,row,hrow,hkind,rfl⟩
  case authenticationConsume.resume c' credentialId passkey signCount started =>
    obtain ⟨hw,hlate,rfl,rfl,hseen⟩ := h
    rw [hview.2 hw] at he
    split at he
    next hc =>
      cases he
      exact .write ⟨trivial,rfl,hseen.spend hlate hc,rfl,fun _ => rfl,rfl⟩
    · cases he
      exact .fail _ _
  case authenticationUser.resume =>
    cases he
    exact .goto h
  case authenticationDevice.resume =>
    split at he
    · split at he
      · cases he
        exact .raise _
      · split at he <;> cases he <;> exact .goto h
    · cases he
      exact .raise _
  case authenticationSignCount.resume credentialId passkey user trust signCount =>
    cases he
    obtain ⟨hw,hkind,hspent,hdevices,hpasskeys,hsessions⟩ := h
    rw [hview.1 hw]
    refine .write ⟨trivial,hkind,hspent.keep rfl rfl rfl,hdevices,fun k => ?_,hsessions⟩
    rw [← hpasskeys k]
    by_cases hk : k = credentialId
    · subst hk
      simp [Db.updatePasskey]
    · simp [Db.updatePasskey,hk]
  case authenticationTouch.resume passkey user trust started =>
    cases he
    obtain ⟨hw,rfl,hspent,hdevices,hpasskeys,hsessions⟩ := h
    rw [hview.1 hw]
    refine .write ⟨trivial,hspent.keep rfl rfl rfl,.used (fun e => ?_) hpasskeys,hsessions⟩
    rw [← hdevices]
    by_cases he : e = passkey.deviceId
    · subst he
      simp [Db.updateDevice]
    · simp [Db.updateDevice,he]

theorem resume_keeps (hnow : late now) (hview : (writing → view = working) ∧ (¬ writing → view = db))
    (h : pc.Drafts late c kind db working writing) (he : resume settings view now ch pc = some eff) :
    Effect.Keeps late c kind db working writing pc eff := by
  cases pc <;> simp only [resume] at he
  case registrationChallenge | registrationConsume | registrationUser | registrationDevice | registrationPasskey =>
    exact resumeRegistration_keeps hnow hview h he
  case authenticationChallenge | authenticationPasskey | authenticationConsume | authenticationUser
      | authenticationDevice | authenticationSignCount | authenticationTouch =>
    exact resumeAuthentication_keeps hnow hview h he
  case createSession userId user d trust started =>
    obtain ⟨hw,hspent,hcredentials,hsessions⟩ := h
    rw [hview.1 hw] at he
    cases ch <;> simp only [resumeCreate, reduceCtorEq] at he
    split at he
    · cases he
      exact .raise _
    next hs =>
      cases he
      obtain ⟨-,rfl⟩ := insertSession_eq hs
      refine .write ⟨trivial,hspent.keep rfl rfl rfl,?_,_,by rw [← hsessions],rfl,rfl,rfl⟩
      cases hcredentials with
      | registered device credentialId passkey hd hdev hdu hp hpk hpu hpd =>
        exact .registered device credentialId passkey hd hdev hdu hp hpk hpu hpd
      | used hd hp => exact .used hd hp
  case audit result =>
    cases result <;> simp only [Pc.Drafts] at h
    cases he
    rw [hview.1 h.1]
    exact .write ⟨trivial,h.2⟩
  case commit result =>
    cases result <;> simp only [Pc.Drafts] at h
    cases he
    refine ⟨fun _ hnext => ?_,fun _ _ => .inl rfl,fun _ => ⟨rfl,h.1,_,_,rfl,h.2⟩⟩
    cases hnext
  all_goals exact h.elim

end Statements

/-- In a transaction that has consumed its challenge. -/
theorem Pc.Drafts.spends (h : pc.Drafts late c kind db working True) : Spends db working := by
  cases pc <;> simp only [Pc.Drafts] at h
  case registrationUser | registrationDevice | registrationPasskey | authenticationUser | authenticationDevice
      | authenticationSignCount | authenticationTouch => exact h.2.2.1.spends
  case createSession => exact h.2.1.spends
  case audit result | commit result =>
    cases result <;> simp only [] at h
    exact h.2.spent.spends
  all_goals simp at h

/-- Requests with a session leave the challenges alone. -/
theorem Next.write_challenges {ctl : Ctl} {commit : Bool} (h : Next settings db now pc ctl (some db') commit)
    (hl : pc.login = false) : db'.challenges = db.challenges := by
  cases h with
  | registrationDevice | registrationPasskey | registrationConsume | authenticationConsume | createSession => cases hl
  | enrollmentWrite _ _ _ _ _ h => rw [upsertFactor_eq h]
  | _ => rfl

/-- A challenge that is still free was free all along. -/
theorem Spends.free {row : ChallengeRecord Instant} (h : Spends db db') (hrow : db'.challenges c = some row)
    (hfree : row.consumedAt = none) : db.challenges c = some row := by
  obtain ⟨-,hnone⟩ | ⟨row',hrow',hlast⟩ := h c
  · rw [hnone] at hrow
    cases hrow
  · obtain hlast | ⟨-,t,hlast⟩ := hlast
    · obtain rfl := Option.some.inj (hlast.symm.trans hrow)
      exact hrow'
    · obtain rfl := Option.some.inj (hlast.symm.trans hrow)
      cases hfree

end Challenges

/-! ## Runs -/

section Transactions
variable {settings : Settings} {s s' : Server} {i j : Nat} {now : Instant} {eff : Effect} {l : Label}

/-- A statement of `i` does not touch the transaction of another request. -/
theorem Server.apply_other (h : s.apply i now eff = some s') (hj : j ≠ i) (hw : s.writer = some j) :
    s'.writer = s.writer ∧ s'.working = s.working ∧ s'.db = s.db := by
  have hne : s.writer ≠ some i := fun h => hj (Option.some.inj (hw.symm.trans h))
  obtain ⟨t,ht,rfl⟩ := Option.map_eq_some_iff.mp h
  obtain ⟨-,rfl⟩ | ⟨_,-,-,hnone | hi⟩ := Server.lock_eq ht
  · obtain ⟨he,-⟩ | ⟨hi,-⟩ := t.settle_cases i eff
    · rw [he]
      exact ⟨rfl,rfl,rfl⟩
    · exact absurd hi hne
  · rw [hnone] at hw
    cases hw
  · exact absurd hi hne

/-- A statement after which the request goes on, without a commit. -/
theorem Server.apply_at {pc' : Pc} (h : s.apply i now eff = some s') (hn : eff.next = .at pc') (hc : eff.commit = false) :
    s'.db = s.db ∧ s'.working = eff.write.getD s.working ∧
      (s'.writer = some i ↔ s.writer = some i ∨ eff.write.isSome = true) := by
  obtain ⟨t,ht,rfl⟩ := Option.map_eq_some_iff.mp h
  have hsettle : t.settle i eff = t := by
    unfold Server.settle
    rw [hn]
    simp [hc]
  rw [hsettle]
  obtain ⟨hw,rfl⟩ | ⟨db,hw,rfl,-⟩ := Server.lock_eq ht
  · simp [hw]
  · simp [hw]

theorem Server.apply_commit (h : s.apply i now eff = some s') (hc : eff.commit = true) (hw : eff.write = none)
    (hi : s.writer = some i) : s'.db = s.working := by
  obtain ⟨t,ht,rfl⟩ := Option.map_eq_some_iff.mp h
  rw [hw] at ht
  obtain rfl : s = t := Option.some.inj ht
  have hrelease : s.release i true = { s with db := s.working, writer := none } := Server.release_writer hi
  unfold Server.settle
  cases eff.next with
  | «at» pc => simp [hc,hrelease]
  | done result => simp [hc,hrelease]

/-- What a step is to a request that finishes a challenge. -/
structure Server.Moves (s : Server) (i : Nat) (pc : Pc) (eff : Effect) (s' : Server) : Prop where
  keeps : ∀ late c kind, (∀ t, s.clock ≤ t → late t) → pc.Drafts late c kind s.db s.working (s.writer = some i) →
    Effect.Keeps late c kind s.db s.working (s.writer = some i) pc eff
  other : ∀ j, j ≠ i → s.writer = some j → s'.writer = s.writer ∧ s'.working = s.working ∧ s'.db = s.db
  goes : ∀ pc', eff.next = .at pc' → eff.commit = false → s'.db = s.db ∧ s'.working = eff.write.getD s.working ∧
    (s'.writer = some i ↔ s.writer = some i ∨ eff.write.isSome = true)
  commits : eff.commit = true → eff.write = none → s.writer = some i → s'.db = s.working

theorem step_moves (h : step settings l s = some s') : (∃ r now, s.Accepted l r now s') ∨
    ∃ i r pc now eff, s.Ran settings l i r pc now eff s' ∧ s.Moves i pc eff s' := by
  cases l with
  | request r now =>
    simp only [step, Option.ite_none_right_eq_some, Option.some.injEq] at h
    exact .inl ⟨r,now,rfl,h.1,h.2.symm⟩
  | run i ch now =>
    obtain ⟨r,pc,eff,hclock,ht,heff,ha⟩ := step_run h
    refine .inr ⟨i,r,pc,now,eff,.of_run hclock ht heff ha,fun late c kind hl hd => ?_,?_,?_,Server.apply_commit ha⟩
    · exact resume_keeps (hl now hclock) ⟨fun hw => if_pos hw,fun hw => if_neg hw⟩ hd heff
    · exact fun j hj hw => Server.apply_other ha hj hw
    · exact fun pc' hn hc => Server.apply_at ha hn hc
  | abort i =>
    obtain ⟨r,pc,ht,rfl⟩ := step_abort h
    refine .inr ⟨i,r,pc,s.clock,.raise .operationalError,.of_abort ht,fun _ c kind _ _ => .raise _,fun j hj hw => ?_,?_,?_⟩
    · rw [Server.release_other fun hi => hj (Option.some.inj (hw.symm.trans hi))]
      exact ⟨rfl,rfl,rfl⟩
    · exact fun _ hn => by cases hn
    · exact fun hc => by cases hc

end Transactions

/-- Request `i` has returned the tokens of `p` for challenge `c`. -/
def Server.Finished (s : Server) (i : Nat) (c : ChallengeId) (kind : ChallengeKind) (p : SessionPrincipal) : Prop :=
  ∃ r token, s.tasks i = some ⟨r,.done (.tokens token p)⟩ ∧ r.challenge? = some (c,kind)

/-- A challenge is spent by the request that returned tokens for it, and every other
transaction that has consumed it is still open. -/
structure Finishing (late : Nat → Instant → Prop) (db₀ : Db) (s : Server) : Prop where
  serving : Serving s
  clock : ∀ i t, s.clock ≤ t → late i t
  spends : Spends db₀ s.db
  working : ∀ i, s.writer = some i → Spends s.db s.working
  login : ∀ i r c, s.tasks i = some ⟨r,c⟩ → c.login = true → r.logsIn = true
  drafts : ∀ i r pc c kind, s.tasks i = some ⟨r,.at pc⟩ → r.challenge? = some (c,kind) →
    pc.Drafts (late i) c kind s.db s.working (s.writer = some i)
  ended : ∀ i r result c kind, s.tasks i = some ⟨r,.done result⟩ → r.challenge? = some (c,kind) →
    (∃ e, result = .raised e) ∨ ∃ token p, result = .tokens token p
  spent : ∀ i c kind p, s.Finished i c kind p → ∃ ch t, Spendable db₀ c kind ch t ∧ late i t ∧
    ch.userId = some p.userId ∧ s.db.challenges c = some { ch with consumedAt := some t }
  once : ∀ i j c kind kind' p p', s.Finished i c kind p → s.Finished j c kind' p' → i = j

section Runs
variable {settings : Settings} {s s' : Server} {i : Nat} {r : Request} {pc : Pc} {now : Instant} {eff : Effect}
  {l : Label} {late : Nat → Instant → Prop} {db₀ : Db}

theorem Request.challenge?_of_logsIn (h : r.logsIn = true) : ∃ c kind, r.challenge? = some (c,kind) := by
  cases r with
  | finishRegistration c => exact ⟨c,_,rfl⟩
  | finishAuthentication c => exact ⟨c,_,rfl⟩
  | withSession => cases h

theorem Server.Ran.db_cases (h : s.Ran settings l i r pc now eff s') :
    s'.db = s.db ∨ eff.commit = true ∧ s.writer = some i ∧ s'.db = s.working := by
  cases h.applied with
  | kept hdb | wrote hdb | rolledBack hdb => exact .inl hdb
  | committed _ he hdb =>
    obtain hw | ⟨-,hw,hdb⟩ := hdb
    · have hn := h.next
      rw [he,hw] at hn
      cases hn.commits
    · exact .inr ⟨he,hw,hdb⟩

theorem Finishing.db (hf : Finishing late db₀ s) (h : s.Ran settings l i r pc now eff s') : Spends s.db s'.db := by
  obtain hdb | ⟨-,hw,hdb⟩ := h.db_cases
  · rw [hdb]
    exact .refl _
  · rw [hdb]
    exact hf.working i hw

/-- What a statement writes only spends challenges. -/
theorem Finishing.write (hf : Finishing late db₀ s) (h : s.Ran settings l i r pc now eff s') (hm : s.Moves i pc eff s')
    {db : Db} {pc' : Pc} (hw : eff.write = some db) (hnext : eff.next = .at pc') : Spends s.db db := by
  have hview : Spends s.db (s.view i) := by
    unfold Server.view
    split
    next hwriter => exact hf.working i hwriter
    · exact .refl _
  cases hl : pc.login with
  | false =>
    have hn := h.next
    rw [hw] at hn
    exact hview.trans (.of_eq (hn.write_challenges hl))
  | true =>
    obtain ⟨c,kind,hc⟩ := Request.challenge?_of_logsIn (hf.login i r (.at pc) h.task hl)
    have hdraft := (hm.keeps (late i) c kind (hf.clock i) (hf.drafts i r pc c kind h.task hc)).draft pc' hnext
    rw [hw] at hdraft
    exact Pc.Drafts.spends (by simpa using hdraft)

theorem Server.Ran.writer_cases (h : s.Ran settings l i r pc now eff s') :
    s'.writer = s.writer ∨ s'.writer = some i ∨ s'.writer = none := by
  cases h.applied with
  | kept _ hw => exact .inl hw
  | wrote _ hw => exact .inr (.inl hw)
  | rolledBack _ hw | committed hw => exact .inr (.inr hw)

/-- A request that commits has spent a challenge that nobody had spent before. -/
theorem Finishing.commits (hf : Finishing late db₀ s) (h : s.Ran settings l i r pc now eff s') (hm : s.Moves i pc eff s')
    {c : ChallengeId} {kind : ChallengeKind} (hc : r.challenge? = some (c,kind)) :
    s'.db = s.db ∧ eff.commit = false ∨
      ∃ token p, eff.next = .done (.tokens token p) ∧ Commits (late i) c kind p s.db s'.db := by
  have hkeeps := hm.keeps (late i) c kind (hf.clock i) (hf.drafts i r pc c kind h.task hc)
  cases hcommit : eff.commit with
  | false =>
    obtain hdb | ⟨hcommit',-,-⟩ := h.db_cases
    · exact .inl ⟨hdb,rfl⟩
    · rw [hcommit] at hcommit'
      cases hcommit'
  | true =>
    obtain ⟨hwrite,hwriter,token,p,hnext,hcommits⟩ := hkeeps.commits hcommit
    rw [hm.commits hcommit hwrite hwriter]
    exact .inr ⟨token,p,hnext,hcommits⟩

/-- What is known of another request. -/
theorem Finishing.other (hf : Finishing late db₀ s) (h : s.Ran settings l i r pc now eff s') (hm : s.Moves i pc eff s')
    {j : Nat} (hj : j ≠ i) {pc' : Pc} {c : ChallengeId} {kind : ChallengeKind}
    (hd : pc'.Drafts (late j) c kind s.db s.working (s.writer = some j)) :
    pc'.Drafts (late j) c kind s'.db s'.working (s'.writer = some j) := by
  by_cases hw : s.writer = some j
  · obtain ⟨hwriter,hworking,hdb⟩ := hm.other j hj hw
    rw [hwriter,hworking,hdb]
    exact hd
  · have hw' : s'.writer ≠ some j := by
      obtain hsame | hself | hnone := h.writer_cases
      · rw [hsame]
        exact hw
      · rw [hself]
        exact fun he => hj (Option.some.inj he).symm
      · rw [hnone]
        exact fun he => by cases he
    rw [eq_false hw']
    rw [eq_false hw] at hd
    exact hd.advance (hf.db h)

theorem Server.Ran.finished (h : s.Ran settings l i r pc now eff s') {j : Nat} {c : ChallengeId} {kind : ChallengeKind}
    {p : SessionPrincipal} (hfin : s'.Finished j c kind p) :
    j = i ∧ (∃ token, eff.next = .done (.tokens token p)) ∧ r.challenge? = some (c,kind) ∨ s.Finished j c kind p := by
  obtain ⟨r',token,ht,hc⟩ := hfin
  obtain ⟨rfl,ht⟩ | ⟨-,ht⟩ := h.task_cases ht
  · obtain ⟨rfl,hnext⟩ := Task.mk.inj ht
    exact .inl ⟨rfl,⟨token,hnext.symm⟩,hc⟩
  · exact .inr ⟨r',token,ht,hc⟩

/-- The request that ends now has spent its challenge in this step. -/
theorem Finishing.ran_spent (hf : Finishing late db₀ s) (h : s.Ran settings l i r pc now eff s') (hm : s.Moves i pc eff s')
    {c : ChallengeId} {kind : ChallengeKind} {token : String} {p : SessionPrincipal} (hc : r.challenge? = some (c,kind))
    (hnext : eff.next = .done (.tokens token p)) : Commits (late i) c kind p s.db s'.db := by
  have hkeeps := hm.keeps (late i) c kind (hf.clock i) (hf.drafts i r pc c kind h.task hc)
  obtain ⟨-,hno⟩ | ⟨token',p',hnext',hcommits⟩ := hf.commits h hm hc
  · obtain hyes | ⟨e,he⟩ := hkeeps.ends _ hnext
    · rw [hno] at hyes
      cases hyes
    · cases he
  · rw [hnext] at hnext'
    cases hnext'
    exact hcommits

theorem Finishing.ran (hf : Finishing late db₀ s) (h : s.Ran settings l i r pc now eff s') (hm : s.Moves i pc eff s') :
    Finishing late db₀ s' := by
  -- a challenge that is spent in this step was free before
  have hfresh : ∀ {c kind p j kind' p'}, (∃ token, eff.next = .done (.tokens token p)) → r.challenge? = some (c,kind) →
      ¬ s.Finished j c kind' p' := by
    rintro c kind p j kind' p' ⟨token,hnext⟩ hc hfin
    obtain ⟨row,t,hspendable,-⟩ := (hf.ran_spent h hm hc hnext).spent.challenge
    obtain ⟨row',t',-,-,-,hrow⟩ := hf.spent j c kind' p' hfin
    rw [hspendable.row] at hrow
    obtain rfl := Option.some.inj hrow
    cases hspendable.free
  refine ⟨h.serving hf.serving,fun j t ht => hf.clock j t (Int.le_trans h.clock ht),hf.spends.trans (hf.db h),
    fun j hj => ?_,fun j r' c ht hc => ?_,?_,?_,?_,?_⟩
  · cases h.applied with
    | kept hdb hw hk =>
      rw [hw] at hj
      rw [hdb,hk]
      exact hf.working j hj
    | wrote hdb hw he hn =>
      obtain ⟨pc',hnext⟩ := hn
      rw [hdb]
      exact hf.write h hm he hnext
    | rolledBack _ hw | committed hw =>
      rw [hw] at hj
      cases hj
  · obtain ⟨rfl,ht⟩ | ⟨-,ht⟩ := h.task_cases ht
    · obtain ⟨rfl,rfl⟩ := Task.mk.inj ht
      exact hf.login j r' (.at pc) h.task (h.next.login hc)
    · exact hf.login j r' c ht hc
  · intro j r' pc' c kind ht hc
    obtain ⟨rfl,ht⟩ | ⟨hj,ht⟩ := h.task_cases ht
    · obtain ⟨rfl,hnext⟩ := Task.mk.inj ht
      have hkeeps := hm.keeps (late j) c kind (hf.clock j) (hf.drafts j r' pc c kind h.task hc)
      obtain ⟨hdb,hcommit⟩ | ⟨token,p,hdone,-⟩ := hf.commits h hm hc
      · obtain ⟨hdb,hworking,hwriter⟩ := hm.goes pc' hnext.symm hcommit
        rw [hdb,hworking,propext hwriter]
        exact hkeeps.draft pc' hnext.symm
      · rw [hdone] at hnext
        cases hnext
    · exact hf.other h hm hj (hf.drafts j r' pc' c kind ht hc)
  · intro j r' result c kind ht hc
    obtain ⟨rfl,ht⟩ | ⟨-,ht⟩ := h.task_cases ht
    · obtain ⟨rfl,hnext⟩ := Task.mk.inj ht
      have hkeeps := hm.keeps (late j) c kind (hf.clock j) (hf.drafts j r' pc c kind h.task hc)
      obtain hcommit | he := hkeeps.ends result hnext.symm
      · obtain ⟨-,-,token,p,hdone,-⟩ := hkeeps.commits hcommit
        rw [← hnext] at hdone
        cases hdone
        exact .inr ⟨token,p,rfl⟩
      · exact .inl he
    · exact hf.ended j r' result c kind ht hc
  · intro j c kind p hfin
    obtain ⟨rfl,⟨token,hnext⟩,hc⟩ | hfin := h.finished hfin
    · obtain ⟨row,t,hspendable,hlate,huser,hrow⟩ := (hf.ran_spent h hm hc hnext).spent.challenge
      have hrow₀ := hf.spends.free hspendable.row hspendable.free
      exact ⟨row,t,⟨hrow₀,hspendable.kind,hspendable.free,hspendable.live⟩,hlate,huser,by rw [hrow,Function.update_self]⟩
    · obtain ⟨row,t,hspendable,hlate,huser,hrow⟩ := hf.spent j c kind p hfin
      exact ⟨row,t,hspendable,hlate,huser,(hf.db h).consumed hrow (by simp)⟩
  · intro j k c kind kind' p p' hfin hfin'
    obtain ⟨rfl,hnext,hc⟩ | hold := h.finished hfin
    · obtain ⟨rfl,-⟩ | hold' := h.finished hfin'
      · rfl
      · exact absurd hold' (hfresh hnext hc)
    · obtain ⟨rfl,hnext,hc⟩ | hold' := h.finished hfin'
      · exact absurd hold (hfresh hnext hc)
      · exact hf.once j k c kind kind' p p' hold hold'

theorem Server.Accepted.finished (h : s.Accepted l r now s') {j : Nat} {c : ChallengeId} {kind : ChallengeKind}
    {p : SessionPrincipal} (hfin : s'.Finished j c kind p) : s.Finished j c kind p := by
  obtain ⟨r',token,ht,hc⟩ := hfin
  obtain ⟨-,ht⟩ | ht := h.task_cases ht
  · obtain ⟨rfl,hdone⟩ := Task.mk.inj ht
    cases r' with
    | withSession => cases hc
    | _ => cases hdone
  · exact ⟨r',token,ht,hc⟩

/-- A new request drafts nothing, and does not hold the lock. -/
theorem Finishing.accepted (hf : Finishing late db₀ s) (h : s.Accepted l r now s') : Finishing late db₀ s' := by
  have hdb : s'.db = s.db := by rw [h.eq]
  have hworking : s'.working = s.working := by rw [h.eq]
  have hwriter : s'.writer = s.writer := by rw [h.eq]
  have hidle : s.writer ≠ some s.count := by
    intro hw
    obtain ⟨r',pc,ht,-⟩ := hf.serving.writing s.count hw
    rw [hf.serving.fresh s.count (Nat.le_refl _)] at ht
    cases ht
  have hclock : s.clock ≤ s'.clock := by
    rw [h.eq]
    exact h.clock
  refine ⟨h.serving hf.serving,fun j t ht => hf.clock j t (Int.le_trans hclock ht),?_,fun j hj => ?_,
    fun j r' c ht hc => ?_,?_,?_,?_,?_⟩
  · rw [hdb]
    exact hf.spends
  · rw [hwriter] at hj
    rw [hdb,hworking]
    exact hf.working j hj
  · obtain ⟨-,ht⟩ | ht := h.task_cases ht
    · obtain ⟨rfl,rfl⟩ := Task.mk.inj ht
      rwa [Request.begin_login] at hc
    · exact hf.login j r' c ht hc
  · intro j r' pc c kind ht hc
    rw [hdb,hworking,hwriter]
    obtain ⟨rfl,htask⟩ | ht := h.task_cases ht
    · obtain ⟨rfl,hpc⟩ := Task.mk.inj htask
      cases r' with
      | withSession => cases hc
      | _ =>
        cases hpc
        cases hc
        exact ⟨hidle,rfl,rfl⟩
    · exact hf.drafts j r' pc c kind ht hc
  · intro j r' result c kind ht hc
    obtain ⟨-,htask⟩ | ht := h.task_cases ht
    · obtain ⟨rfl,hdone⟩ := Task.mk.inj htask
      cases r' with
      | withSession => cases hc
      | _ => cases hdone
    · exact hf.ended j r' result c kind ht hc
  · intro j c kind p hfin
    rw [hdb]
    exact hf.spent j c kind p (h.finished hfin)
  · intro j k c kind kind' p p' hfin hfin'
    exact hf.once j k c kind kind' p p' (h.finished hfin) (h.finished hfin')

theorem step_finishing (hf : Finishing late db₀ s) (h : step settings l s = some s') : Finishing late db₀ s' := by
  obtain ⟨_,_,h⟩ | ⟨_,_,_,_,_,h,hm⟩ := step_moves h
  · exact hf.accepted h
  · exact hf.ran h hm

theorem initial_finishing (clock : Instant) (hdb : db₀.Unique) :
    Finishing (fun _ _ => True) db₀ (initial db₀ clock) where
  serving := initial_serving clock hdb
  clock := fun _ _ _ => trivial
  spends := .refl _
  working := fun _ hw => (nomatch hw)
  login := fun _ _ _ ht => (nomatch ht)
  drafts := fun _ _ _ _ _ ht => (nomatch ht)
  ended := fun _ _ _ _ _ ht => (nomatch ht)
  spent := fun _ _ _ _ ⟨_,_,ht,_⟩ => (nomatch ht)
  once := fun _ _ _ _ _ _ _ ⟨_,_,ht,_⟩ => (nomatch ht)

/-- The requests that come after `base` read a later clock. -/
def Server.Late (base : Server) (i : Nat) (t : Instant) : Prop := base.count ≤ i → base.clock ≤ t

theorem Finishing.rebase (hf : Finishing late db₀ s) : Finishing s.Late db₀ s := by
  have hold {j : Nat} {t : Task} (ht : s.tasks j = some t) (now : Instant) : s.Late j now := by
    intro hj
    rw [hf.serving.fresh j hj] at ht
    cases ht
  refine ⟨hf.serving,fun _ _ ht _ => ht,hf.spends,hf.working,hf.login,fun j r pc c kind ht hc => ?_,hf.ended,
    fun j c kind p hfin => ?_,hf.once⟩
  · exact (hf.drafts j r pc c kind ht hc).mono fun now _ => hold ht now
  · obtain ⟨row,t,hspendable,-,hrow⟩ := hf.spent j c kind p hfin
    obtain ⟨_,_,ht,-⟩ := hfin
    exact ⟨row,t,hspendable,hold ht t,hrow⟩

theorem Finishing.run (hf : Finishing late db₀ s) (h : Run settings anyStep s s') : Finishing late db₀ s' :=
  Reaches.invariant (I := Finishing late db₀) (fun _ _ _ hf _ hstep => step_finishing hf hstep) h hf

end Runs

/-- Each challenge is spent by at most one request, which is of its kind and for its
user, while it was free and at an instant before its deadline that is no earlier than
the request; that request commits one session, and every other step of a request that
finishes a challenge leaves the database alone. -/
theorem challenge_spent_once {settings : Settings} {db₀ : Db} {clock : Instant} {base s : Server} (hdb : db₀.Unique)
    (h : Run settings anyStep (initial db₀ clock) base) (h' : Run settings anyStep base s) :
    (∀ i j c kind kind' p p', s.Finished i c kind p → s.Finished j c kind' p' → i = j ∧ kind = kind' ∧ p = p') ∧
      (∀ i c kind p, s.Finished i c kind p → ∃ ch t, Spendable db₀ c kind ch t ∧ base.Late i t ∧
        ch.userId = some p.userId ∧ s.db.challenges c = some { ch with consumedAt := some t }) ∧
      ∀ l s', step settings l s = some s' → ∀ i, (∃ ch now, l = .run i ch now) ∨ l = .abort i →
        ∀ r ctl c kind, s.tasks i = some ⟨r,ctl⟩ → r.challenge? = some (c,kind) →
          s'.db = s.db ∧ (∀ p, ¬ s'.Finished i c kind p) ∨
            ∃ p, s'.Finished i c kind p ∧ Commits (base.Late i) c kind p s.db s'.db := by
  have hf := ((initial_finishing clock hdb).run h).rebase.run h'
  refine ⟨fun i j c kind kind' p p' hfin hfin' => ?_,hf.spent,?_⟩
  · obtain rfl := hf.once i j c kind kind' p p' hfin hfin'
    obtain ⟨r,token,ht,hc⟩ := hfin
    obtain ⟨r',token',ht',hc'⟩ := hfin'
    rw [ht] at ht'
    cases ht'
    rw [hc] at hc'
    cases hc'
    exact ⟨rfl,rfl,rfl⟩
  · intro l s' hstep i hl r ctl c kind ht hc
    obtain ⟨r',now,hacc⟩ | ⟨j,r',pc,now,eff,hran,hm⟩ := step_moves hstep
    · obtain ⟨_,_,rfl⟩ | rfl := hl <;> cases hacc.label
    · obtain rfl : i = j := by
        obtain ⟨_,_,rfl⟩ | rfl := hl <;> obtain ⟨_,hlabel⟩ | ⟨hlabel,-⟩ := hran.label <;> cases hlabel <;> rfl
      have htask := hran.task
      rw [ht] at htask
      obtain ⟨rfl,rfl⟩ := Task.mk.inj (Option.some.inj htask)
      obtain ⟨hdb,hcommit⟩ | ⟨token,p,hnext,hcommits⟩ := hf.commits hran hm hc
      · refine .inl ⟨hdb,fun p hfin => ?_⟩
        obtain ⟨r',token,ht',-⟩ := hfin
        rw [hran.tasks,Function.update_self] at ht'
        obtain ⟨-,hdone⟩ := Task.mk.inj (Option.some.inj ht')
        have hkeeps := hm.keeps (base.Late i) c kind (hf.clock i) (hf.drafts i r pc c kind ht hc)
        obtain hyes | ⟨e,he⟩ := hkeeps.ends _ hdone
        · rw [hcommit] at hyes
          cases hyes
        · cases he
      · exact .inr ⟨p,⟨r,token,by rw [hran.tasks,Function.update_self,hnext],hc⟩,hcommits⟩

/-- The owner registers a passkey while request 1 replays the challenge. -/
def replayTrace : List Label :=
  loginTrace.take 2 ++ [.request (.finishRegistration 0) 1,.run 1 (.attested "other" 1) 1] ++ loginTrace.drop 2 ++
    [.run 1 .resume 3]

def replayed : Server := after (step sampleSettings) replayTrace (initial ownerDb 0) (by decide)

theorem challenge_spent_once_replay :
    (∃ p, replayed.Finished 0 0 .passkeyRegistration p) ∧
      (∀ j kind p, replayed.Finished j 0 kind p → 0 = j) ∧
        replayed.tasks 1 = some ⟨.finishRegistration 0,.done (.raised (.authenticationConflict
          "Passkey challenge is no longer valid"))⟩ := by
  have hrun : Run sampleSettings anyStep (initial ownerDb 0) replayed :=
    after_reaches _ _ (execOk_anyStep _ _)
  have hfin : ∃ p, replayed.Finished 0 0 .passkeyRegistration p := ⟨_,_,_,rfl,rfl⟩
  have hunique : ownerDb.Unique := List.Pairwise.nil
  obtain ⟨p,hp⟩ := hfin
  exact ⟨⟨p,hp⟩,fun j kind p' hj => ((challenge_spent_once hunique hrun .refl).1 0 j 0 _ kind p p' hp hj).1,rfl⟩

end AgentGraph.Security
