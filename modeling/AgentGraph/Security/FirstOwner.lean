import AgentGraph.Security.Bootstrap
import Mathlib.Data.List.Infix

/-! # The first owner and the first passkey

Nothing guards the number of owners but a read of the users before the transaction: a
bootstrap founds a second owner if it commits over the row of another one. A challenge is
consumed in the transaction that inserts its passkey, so that every user who was founded
has one or the other.
-/
set_option autoImplicit false
namespace AgentGraph.Security
open Transition Database.Outline
open Database hiding Effect Ctl Label step Run

/-- The rows that a bootstrap commits: `user`, and challenge `c` for it. -/
structure Founds (c : ChallengeId) (user : UserRow) (db working : SetupDb) : Prop where
  users : working.users = db.users ++ [user]
  new : db.challenges c = none
  row : ∃ challenge, working.challenges = Function.update db.challenges c (some challenge) ∧
    challenge.kind = .passkeyRegistration ∧ challenge.userId = some user.id ∧ challenge.consumedAt = none
  passkeys : working.passkeys = db.passkeys

/-- The `UPDATE` that consumes challenge `c` of `userId`. -/
structure Consumes (c : ChallengeId) (userId : Option UserId) (db working : SetupDb) : Prop where
  row : ∃ r now, db.challenges c = some r ∧ r.userId = userId ∧
    working.challenges = Function.update db.challenges c (some { r with consumedAt := some now })
  users : working.users = db.users
  passkeys : working.passkeys = db.passkeys

/-- The rows that a registration commits: a consumed challenge, and a passkey of its user. -/
structure Registers (db working : SetupDb) : Prop where
  rows : ∃ c r now user passkey, db.challenges c = some r ∧ r.userId = some user ∧
    working.challenges = Function.update db.challenges c (some { r with consumedAt := some now }) ∧
    working.passkeys = db.passkeys ++ [passkey] ∧ passkey.userId = user ∧ passkey.revokedAt = none
  users : working.users = db.users

/-- What a statement does to the committed rows. -/
inductive SetupStep (db db' : SetupDb) : Prop
  | unchanged (same : db' = db)
  | founded (c : ChallengeId) (user : UserRow) (founds : Founds c user db db')
  | registered (registers : Registers db db')

/-! ## The outline -/

section Outline
variable {settings : SetupSettings} {users₀ : List UserRow} {db db' working view : SetupDb} {q : SetupCall} {pc : SetupPc}
  {i : ℕ} {o : SecretFile} {draw : SetupDraw} {keep : SetupPc → Prop} {e : SetupEffect}

theorem SetupStep.users (h : SetupStep db db') : db.users <+: db'.users := by
  cases h with
  | unchanged same => rw [same]
  | founded c user founds =>
    rw [founds.users]
    exact List.prefix_append _ _
  | registered registers => rw [registers.users]

/-- A challenge stays, with its user. -/
theorem SetupStep.challenge {c : ChallengeId} {r : ChallengeRecord Instant} (h : SetupStep db db')
    (hr : db.challenges c = some r) : ∃ r', db'.challenges c = some r' ∧ r'.userId = r.userId := by
  cases h with
  | unchanged same =>
    rw [same]
    exact ⟨r,hr,rfl⟩
  | founded b user founds =>
    obtain ⟨_,hw,-⟩ := founds.row
    refine ⟨r,?_,rfl⟩
    rw [hw,Function.update_of_ne]
    · exact hr
    · rintro rfl
      rw [founds.new] at hr
      cases hr
  | registered registers =>
    obtain ⟨b,r',now,_,_,hb,-,hw,-⟩ := registers.rows
    rw [hw]
    by_cases hc : c = b
    · subst hc
      obtain rfl := Option.some.inj (hr.symm.trans hb)
      exact ⟨_,Function.update_self _ _ _,rfl⟩
    · exact ⟨r,(Function.update_of_ne hc _ _).trans hr,rfl⟩

/-- What a call relies on; a bootstrap has read that there are no users. -/
def SetupCall.Reads (q : SetupCall) (users₀ : List UserRow) (db : SetupDb) : SetupPc → Prop
  | .bootstrapSecret | .bootstrapUsers | .bootstrapUnlink _ _ | .registrationChallenge => True
  | .bootstrapUser => users₀ = []
  | .registrationConsume challenge _ _ _ => ∀ c, q = .finishPasskeyRegistration c →
    ∃ r, db.challenges c = some r ∧ r.userId = challenge.userId
  | _ => False

/-- What a call has done in its transaction. -/
def SetupPc.Writes (users₀ : List UserRow) (db working : SetupDb) : SetupPc → Prop
  | .bootstrapChallenge user => users₀ = [] ∧ working.users = db.users ++ [user] ∧
      working.challenges = db.challenges ∧ working.passkeys = db.passkeys
  | .bootstrapPasskeys user c => users₀ = [] ∧ Founds c user db working
  | .bootstrapAudit c _ | .bootstrapCommit c _ => users₀ = [] ∧ ∃ user, Founds c user db working
  | .registrationUser challenge _ _ => ∃ c, Consumes c challenge.userId db working
  | .registrationDevice user _ _ _ | .registrationPasskey user _ _ _ => ∃ c, Consumes c (some user.id) db working
  | .registrationSession _ _ _ | .registrationAudit _ _ | .registrationCommit _ _ => Registers db working
  | _ => False

def setupOutline (users₀ : List UserRow) :
    Database.Outline SetupDb SecretFile SetupCall SetupPc SetupResult where
  world := fun _ db => users₀ <+: db.users
  rely := fun _ db _ db' => SetupStep db db'
  reading := fun _ q _ db pc => q.Reads users₀ db pc
  writing := fun _ _ _ db working pc => pc.Writes users₀ db working
  ended := fun _ _ _ _ _ => True

theorem SetupCall.Reads.step (h : q.Reads users₀ db pc) (hs : SetupStep db db') : q.Reads users₀ db' pc := by
  cases pc <;> simp only [SetupCall.Reads] at h ⊢
  case bootstrapUser => exact h
  case registrationConsume challenge credentialId signCount now =>
    intro c hq
    obtain ⟨r,hr,hu⟩ := h c hq
    obtain ⟨r',hr',hu'⟩ := hs.challenge hr
    exact ⟨r',hr',hu'.trans hu⟩

theorem raise_meets (hw : users₀ <+: db.users) (error : ServiceError) (o' : SecretFile) :
    (setupOutline users₀).Meets i q o db view keep (SetupEffect.raise error o') :=
  Meets.finish (by simp) hw (.unchanged rfl) trivial

theorem goto_meets (hw : users₀ <+: db.users) (hk : keep pc) (o' : SecretFile) :
    (setupOutline users₀).Meets i q o db view keep (SetupEffect.goto pc o') := Meets.goto hw (.unchanged rfl) hk

theorem write_meets (hw : users₀ <+: db.users) (hk : pc.Writes users₀ db db') (o' : SecretFile) :
    (setupOutline users₀).Meets i q o db view keep (SetupEffect.write db' pc o') :=
  Meets.write hw (.unchanged rfl) hk

theorem insert_meets {inserted : Option SetupDb} (hw : users₀ <+: db.users)
    (hk : ∀ db', inserted = some db' → pc.Writes users₀ db db') (o' : SecretFile) :
    (setupOutline users₀).Meets i q o db view keep (SetupEffect.insert inserted pc o') := by
  cases inserted with
  | none => exact raise_meets hw _ _
  | some db' => exact write_meets hw (hk db' rfl) _

/-! ### The inserts -/

theorem SetupDb.insertUser_eq {user : UserRow} (h : db.insertUser user = some db') :
    db' = { db with users := db.users ++ [user] } := by
  unfold SetupDb.insertUser at h
  split at h <;> cases h
  rfl

theorem SetupDb.insertChallenge_eq {c : ChallengeId} {challenge : ChallengeRecord Instant}
    (h : db.insertChallenge c challenge = some db') :
    db.challenges c = none ∧ db' = { db with challenges := Function.update db.challenges c (some challenge) } := by
  unfold SetupDb.insertChallenge at h
  split at h <;> cases h
  next hnone => exact ⟨by simpa using hnone,rfl⟩

theorem SetupDb.insertDevice_eq {d : DeviceId} {device : DeviceRecord Instant} (h : db.insertDevice d device = some db') :
    db' = { db with devices := Function.update db.devices d (some device) } := by
  unfold SetupDb.insertDevice at h
  split at h <;> cases h
  rfl

theorem SetupDb.insertPasskey_eq {passkey : PasskeyRow} (h : db.insertPasskey passkey = some db') :
    db' = { db with passkeys := db.passkeys ++ [passkey] } := by
  unfold SetupDb.insertPasskey at h
  split at h <;> cases h
  rfl

theorem SetupDb.insertSession_eq {record : SessionRecord Instant} (h : db.insertSession record = some db') :
    db' = { db with sessions := db.sessions ++ [record] } := by
  unfold SetupDb.insertSession at h
  split at h <;> cases h
  rfl

/-! ### The statements, before and in a transaction -/

theorem resumeBootstrap_reads {username secret deviceName : String} (hw : users₀ <+: db.users) (h : q.Reads users₀ db pc)
    (he : resumeBootstrap settings username secret deviceName o db draw pc = some e) :
    (setupOutline users₀).Meets i q o db db (q.Reads users₀ db) e := by
  cases pc <;> simp only [resumeBootstrap, reduceCtorEq] at he
  case bootstrapSecret =>
    split at he <;> cases he
    · exact raise_meets hw _ _
    · exact goto_meets hw trivial _
  case bootstrapUsers =>
    cases he
    split
    · exact raise_meets hw _ _
    next hnil =>
      refine goto_meets hw ?_ _
      rw [not_not.mp hnil] at hw
      exact List.prefix_nil.mp hw
  case bootstrapUser =>
    cases he
    refine insert_meets hw (fun db' hi => ?_) _
    obtain rfl := SetupDb.insertUser_eq hi
    exact ⟨h,rfl,rfl,rfl⟩
  case bootstrapUnlink c options =>
    cases he
    exact Meets.finish (by simp) hw (.unchanged rfl) trivial
  all_goals exact h.elim

theorem resumeBootstrap_writes {username secret deviceName : String} (hw : users₀ <+: db.users)
    (h : pc.Writes users₀ db working)
    (he : resumeBootstrap settings username secret deviceName o working draw pc = some e) :
    (setupOutline users₀).Meets i q o db working (SetupPc.Writes users₀ db working) e := by
  cases pc <;> simp only [resumeBootstrap, reduceCtorEq] at he
  case bootstrapChallenge user =>
    cases he
    refine insert_meets hw (fun db' hi => ?_) _
    obtain ⟨hempty,husers,hchallenges,hpasskeys⟩ := h
    obtain ⟨hnone,rfl⟩ := SetupDb.insertChallenge_eq hi
    rw [hchallenges] at hnone
    have hchallenge := congrArg (Function.update · draw.newId (some (⟨.passkeyRegistration,some user.id,some deviceName,
      draw.now + settings.challengeTtl,none⟩ : ChallengeRecord Instant))) hchallenges
    exact ⟨hempty,husers,hnone,⟨_,hchallenge,rfl,rfl,rfl⟩,hpasskeys⟩
  case bootstrapPasskeys user c =>
    cases he
    exact goto_meets hw ⟨h.1,user,h.2⟩ _
  case bootstrapAudit c options =>
    cases he
    refine write_meets hw ?_ _
    exact h
  case bootstrapCommit c options =>
    cases he
    obtain ⟨-,user,hfounds⟩ := h
    have hs : SetupStep db working := .founded c user hfounds
    exact Meets.release (.inl rfl) (hw.trans hs.users) hs trivial
  all_goals exact h.elim

theorem resumeFinish_reads {c : ChallengeId} (hq : q = .finishPasskeyRegistration c) (hw : users₀ <+: db.users)
    (h : q.Reads users₀ db pc) (he : resumeFinish settings c o db draw pc = some e) :
    (setupOutline users₀).Meets i q o db db (q.Reads users₀ db) e := by
  cases pc <;> simp only [resumeFinish, reduceCtorEq] at he
  case registrationChallenge =>
    split at he
    · cases he
      exact raise_meets hw _ _
    next challenge hcheck =>
      split at he <;> cases he
      · exact raise_meets hw _ _
      · refine goto_meets hw (fun c' hc => ?_) _
        rw [hq] at hc
        cases hc
        exact ⟨challenge,(checkChallenge_ok hcheck).1,rfl⟩
  case registrationConsume challenge credentialId signCount now =>
    obtain ⟨r,hr,hu⟩ := h c hq
    split at he <;> cases he
    · have hconsumes : Consumes c challenge.userId db (db.consumeChallenge c now) := by
        refine ⟨⟨r,now,hr,hu,?_⟩,rfl,rfl⟩
        rw [SetupDb.consumeChallenge,hr]
        rfl
      refine write_meets hw ?_ _
      exact ⟨c,hconsumes⟩
    · exact Meets.finish (by simp) hw (.unchanged rfl) trivial
  all_goals exact h.elim

theorem Consumes.mono {c : ChallengeId} {userId : Option UserId} (h : Consumes c userId db working)
    (hc : view.challenges = working.challenges) (hu : view.users = working.users) (hp : view.passkeys = working.passkeys) :
    Consumes c userId db view := by
  obtain ⟨r,now,hr,hrow,hw⟩ := h.row
  exact ⟨⟨r,now,hr,hrow,hc.trans hw⟩,hu.trans h.users,hp.trans h.passkeys⟩

theorem resumeFinish_writes {c : ChallengeId} (hw : users₀ <+: db.users) (h : pc.Writes users₀ db working)
    (he : resumeFinish settings c o working draw pc = some e) :
    (setupOutline users₀).Meets i q o db working (SetupPc.Writes users₀ db working) e := by
  cases pc <;> simp only [resumeFinish, reduceCtorEq] at he
  case registrationUser challenge credentialId signCount =>
    split at he <;> cases he
    · exact raise_meets hw _ _
    next user hfind =>
      obtain ⟨c,hc⟩ := h
      have hid : some user.id = challenge.userId := by simpa using List.find?_some hfind
      refine goto_meets hw ⟨c,?_⟩ _
      rw [hid]
      exact hc
  case registrationDevice user challenge credentialId signCount =>
    cases he
    refine insert_meets hw (fun db' hi => ?_) _
    obtain ⟨c,hc⟩ := h
    obtain rfl := SetupDb.insertDevice_eq hi
    exact ⟨c,hc.mono rfl rfl rfl⟩
  case registrationPasskey user d credentialId signCount =>
    cases he
    refine insert_meets hw (fun db' hi => ?_) _
    obtain ⟨c,hc⟩ := h
    obtain ⟨r,now,hr,hrow,hchallenges⟩ := hc.row
    obtain rfl := SetupDb.insertPasskey_eq hi
    refine ⟨⟨c,r,now,user.id,⟨⟨user.id,d,signCount,none⟩,credentialId⟩,hr,hrow,hchallenges,?_,rfl,rfl⟩,hc.users⟩
    rw [hc.passkeys]
  case registrationSession user d now =>
    cases he
    refine insert_meets hw (fun db' hi => ?_) _
    obtain rfl := SetupDb.insertSession_eq hi
    exact ⟨h.rows,h.users⟩
  case registrationAudit token p =>
    cases he
    refine write_meets hw ?_ _
    exact h
  case registrationCommit token p =>
    cases he
    have hs : SetupStep db working := .registered h
    exact Meets.commit (hw.trans hs.users) hs trivial
  all_goals exact h.elim

theorem setup_valid (settings : SetupSettings) (users₀ : List UserRow) :
    (setupOutline users₀).Valid (setup settings) where
  reading_stable := fun _ _ _ _ _ _ _ hs h => h.step hs
  writing_stable := fun _ _ _ _ _ _ _ _ h => h
  ended_stable := fun _ _ _ _ _ _ _ _ _ => trivial
  begin := by
    rintro i q o db -
    refine ⟨fun pc hpc => ?_,fun _ _ => trivial⟩
    cases q <;> cases hpc <;> exact trivial
  read := by
    intro i q o db pc draw e hw h he
    cases q with
    | bootstrap username secret deviceName => exact resumeBootstrap_reads hw h he
    | finishPasskeyRegistration c => exact resumeFinish_reads rfl hw h he
  write := by
    intro i q o db working pc draw e hw h he
    cases q with
    | bootstrap username secret deviceName => exact resumeBootstrap_writes hw h he
    | finishPasskeyRegistration c => exact resumeFinish_writes hw h he
  abandon := fun _ _ _ _ _ hw _ => Meets.finish (by simp) hw (.unchanged rfl) trivial
  restart := fun _ _ _ hw => hw

theorem insert_action (db : Option SetupDb) (pc : SetupPc) (o : SecretFile) : (SetupEffect.insert db pc o).action ≠ .commit := by
  cases db <;> simp [SetupEffect.insert,SetupEffect.raise,SetupEffect.write]

/-- Only two statements commit. -/
theorem resume_commits (he : q.resume settings o db draw pc = some e) :
    e.action ≠ .commit ∨ (∃ c options, pc = .bootstrapCommit c options) ∨ ∃ token p, pc = .registrationCommit token p := by
  cases q with
  | bootstrap username secret deviceName =>
    cases pc <;> simp only [SetupCall.resume, resumeBootstrap, reduceCtorEq] at he
    case bootstrapCommit c options => exact .inr (.inl ⟨c,options,rfl⟩)
    case bootstrapSecret => split at he <;> cases he <;> exact .inl (by simp [SetupEffect.raise,SetupEffect.goto])
    case bootstrapUsers =>
      cases he
      split <;> exact .inl (by simp [SetupEffect.raise,SetupEffect.goto])
    case bootstrapUser | bootstrapChallenge =>
      cases he
      exact .inl (insert_action _ _ _)
    all_goals
      cases he
      exact .inl (by simp [SetupEffect.goto,SetupEffect.write])
  | finishPasskeyRegistration c =>
    cases pc <;> simp only [SetupCall.resume, resumeFinish, reduceCtorEq] at he
    case registrationCommit token p => exact .inr (.inr ⟨token,p,rfl⟩)
    case registrationChallenge =>
      split at he
      · cases he
        exact .inl (by simp [SetupEffect.raise])
      · split at he <;> cases he <;> exact .inl (by simp [SetupEffect.raise,SetupEffect.goto])
    case registrationConsume => split at he <;> cases he <;> exact .inl (by simp [SetupEffect.write])
    case registrationUser => split at he <;> cases he <;> exact .inl (by simp [SetupEffect.raise,SetupEffect.goto])
    case registrationAudit =>
      cases he
      exact .inl (by simp [SetupEffect.write])
    all_goals
      cases he
      exact .inl (insert_action _ _ _)

end Outline

/-! ## The owners -/

abbrev SetupState := Database.State SetupDb SecretFile SetupCall SetupPc SetupResult

/-- The step commits a bootstrap. -/
def CommitsOwner (l : Database.Label SetupCall SetupDraw) (s : SetupState) : Prop :=
  ∃ i draw q c options, l = .run i draw ∧ s.tasks i = some (q,.at (.bootstrapCommit c options))

/-- A bootstrap commits only while there are no users. -/
def FoundsFirst (l : Database.Label SetupCall SetupDraw) (s : SetupState) : Prop := CommitsOwner l s → s.db.users = []

section Owners
variable {settings : SetupSettings} {users₀ : List UserRow} {s t : SetupState} {l : Database.Label SetupCall SetupDraw}
  {i : ℕ} {q : SetupCall} {pc : SetupPc} {e : SetupEffect}

/-- A commit publishes what its transaction has written. -/
theorem commit_writes (hs : (setupOutline users₀).Holds s) (ht : s.tasks i = some (q,.at pc))
    (hr : ∀ db, ¬ q.Reads users₀ db pc) : pc.Writes users₀ s.db (s.view i) := by
  obtain ⟨-,hview,hwrites⟩ | ⟨-,-,hreads⟩ := hs.seen ht
  · rw [hview]
    exact hwrites
  · exact absurd hreads (hr _)

/-- The commit of a bootstrap adds one user, and nothing else changes the users. -/
theorem step_users (hs : (setupOutline users₀).Holds s) (h : Database.step (setup settings) l s = some t) :
    (CommitsOwner l s ∧ users₀ = [] ∧ ∃ user, t.db.users = s.db.users ++ [user]) ∨
      (¬ CommitsOwner l s ∧ t.db.users = s.db.users) := by
  cases Database.step_moved h with
  | called q label state =>
    refine .inr ⟨?_,by rw [state]⟩
    rintro ⟨_,_,_,_,_,hl,-⟩
    rw [label] at hl
    cases hl
  | restarted draw label state =>
    refine .inr ⟨?_,by rw [state]⟩
    rintro ⟨_,_,_,_,_,hl,-⟩
    rw [label] at hl
    cases hl
  | ran i q pc e h =>
    obtain ⟨draw,hl,he⟩ | ⟨hl,rfl⟩ := h.label
    · have hnot (hpc : ∀ c options, pc ≠ .bootstrapCommit c options) : ¬ CommitsOwner l s := by
        rintro ⟨j,_,_,c,options,hl',ht⟩
        rw [hl] at hl'
        cases hl'
        obtain ⟨-,hctl⟩ := Prod.mk.inj (Option.some.inj (h.task.symm.trans ht))
        cases hctl
        exact hpc c options rfl
      have hdb := h.db
      obtain hkeep | ⟨c,options,rfl⟩ | ⟨token,p,rfl⟩ := resume_commits he
      · refine .inr ⟨hnot ?_,?_⟩
        · rintro c options rfl
          cases q <;> cases he
          exact hkeep rfl
        · rw [h.db_kept hkeep]
      · obtain ⟨hempty,user,hfounds⟩ := commit_writes hs h.task fun db h => h.elim
        refine .inl ⟨⟨i,draw,q,c,options,hl,h.task⟩,hempty,user,?_⟩
        cases q <;> cases he
        rw [hdb]
        exact hfounds.users
      · have hregisters := commit_writes hs h.task fun db h => h.elim
        refine .inr ⟨hnot (by simp),?_⟩
        cases q <;> cases he
        rw [hdb]
        exact hregisters.users
    · refine .inr ⟨?_,?_⟩
      · rintro ⟨_,_,_,_,_,hl',-⟩
        rw [hl] at hl'
        cases hl'
      · rw [h.db]
        rfl

/-- Call `i` is no bootstrap that has read an empty table. -/
def TurnedAway (s : SetupState) (i : ℕ) : Prop :=
  ∀ username secret deviceName c, s.tasks i = some (.bootstrap username secret deviceName,c) →
    c = .at .bootstrapSecret ∨ c = .at .bootstrapUsers ∨ ∃ error, c = .done (.error error)

theorem turnedAway_fresh (hs : (setupOutline users₀).Holds s) (hi : s.count ≤ i) : TurnedAway s i := by
  intro username secret deviceName c ht
  rw [hs.fresh i hi] at ht
  cases ht

/-- The two statements of a bootstrap that finds a user. -/
theorem turnedAway_ran {username secret deviceName : String} (hs : (setupOutline users₀).Holds s)
    (hu : s.db.users ≠ []) (hi : TurnedAway s i)
    (h : Ran (setup settings) s l i (.bootstrap username secret deviceName) pc e t) :
    t.db = s.db ∧ (e.next = .at .bootstrapUsers ∨ ∃ error, e.next = .done (.error error)) := by
  have hdb := h.db
  obtain ⟨draw,-,he⟩ | ⟨-,rfl⟩ := h.label
  · obtain hpc | hpc | ⟨_,hpc⟩ := hi _ _ _ _ h.task <;> cases hpc
    · simp only [setup, SetupCall.resume, resumeBootstrap] at he
      split at he <;> cases he
      · exact ⟨hdb,.inr ⟨_,rfl⟩⟩
      · exact ⟨hdb,.inl rfl⟩
    · -- it holds no lock, so it reads what is committed
      have hview : s.view i = s.db := by
        obtain ⟨-,-,hwrites⟩ | ⟨-,hview,-⟩ := hs.seen h.task
        · exact hwrites.elim
        · exact hview
      simp only [setup, SetupCall.resume, resumeBootstrap, hview, if_pos hu] at he
      cases he
      exact ⟨hdb,.inr ⟨_,rfl⟩⟩
  · exact ⟨hdb,.inr ⟨_,rfl⟩⟩

theorem step_turnedAway (hs : (setupOutline users₀).Holds s) (hu : s.db.users ≠ []) (hi : TurnedAway s i)
    (h : Database.step (setup settings) l s = some t) : TurnedAway t i := by
  intro username secret deviceName c ht
  cases Database.step_moved h with
  | called q label state =>
    rw [state] at ht
    obtain ⟨-,hx⟩ | ⟨-,ht⟩ := Database.update_cases ht
    · obtain ⟨rfl,rfl⟩ := Prod.mk.inj hx
      exact .inl rfl
    · exact hi _ _ _ _ ht
  | restarted draw label state =>
    rw [state] at ht
    cases ht
  | ran j q pc e h =>
    obtain ⟨rfl,hx⟩ | ⟨-,ht⟩ := h.task_cases ht
    · obtain ⟨rfl,rfl⟩ := Prod.mk.inj hx
      exact .inr (turnedAway_ran hs hu hi h).2
    · exact hi _ _ _ _ ht

/-- A bootstrap that has not passed its read can run its next statement. -/
theorem turnedAway_enabled {username secret deviceName : String} {c : Database.Ctl SetupPc SetupResult}
    (ht : s.tasks i = some (.bootstrap username secret deviceName,c)) (hc : c = .at .bootstrapSecret ∨ c = .at .bootstrapUsers)
    (draw : SetupDraw) : (Database.step (setup settings) (.run i draw) s).isSome = true := by
  obtain rfl | rfl := hc
  · simp only [Database.step, ht, setup, SetupCall.resume, resumeBootstrap]
    split <;> rfl
  · simp only [Database.step, ht, setup, SetupCall.resume, resumeBootstrap]
    split <;> rfl

/-- Once a user is committed, no bootstrap that starts passes its read. -/
theorem run_turnedAway (hs : (setupOutline users₀).Holds s) (hu : s.db.users ≠ []) (hi : s.count ≤ i)
    (hrun : Database.Run (setup settings) anyStep s t) :
    (setupOutline users₀).Holds t ∧ t.db.users ≠ [] ∧ TurnedAway t i := by
  have hvalid := setup_valid settings users₀
  refine Reaches.invariant (I := fun t => (setupOutline users₀).Holds t ∧ t.db.users ≠ [] ∧ TurnedAway t i)
    (fun l t u ht _ hstep => ?_) hrun ⟨hs,hu,turnedAway_fresh hs hi⟩
  refine ⟨ht.1.step hvalid hstep,?_,step_turnedAway ht.1 ht.2.1 ht.2.2 hstep⟩
  obtain ⟨-,-,user,husers⟩ | ⟨-,husers⟩ := step_users ht.1 hstep
  · simp [husers]
  · rw [husers]
    exact ht.2.1

/-- Along a run bootstraps create one user at most exactly if none commits over a user
that is there. One that starts when a user is committed raises at its read of the users
at the latest, and changes nothing. -/
theorem bootstrap_owner_unique_iff (settings : SetupSettings) (db₀ : SetupDb) (o : SecretFile)
    {ls : List (Database.Label SetupCall SetupDraw)}
    (h : exec (Database.step (setup settings)) ls (Database.State.initial db₀ o) = some s) :
    (ExecAll (Database.step (setup settings)) (fun s => s.db.users.length ≤ db₀.users.length + 1) ls
        (Database.State.initial db₀ o) ↔
      ExecOk (Database.step (setup settings)) FoundsFirst ls (Database.State.initial db₀ o)) ∧
    (s.db.users ≠ [] → ∀ t, Database.Run (setup settings) anyStep s t → ∀ i, s.count ≤ i →
      ∀ username secret deviceName c, t.tasks i = some (.bootstrap username secret deviceName,c) →
        ((∃ error, c = .done (.error error)) ∨
          (c = .at .bootstrapSecret ∨ c = .at .bootstrapUsers) ∧
            ∀ draw, (Database.step (setup settings) (.run i draw) t).isSome = true) ∧
          ∀ l u, (∃ draw, l = .run i draw) ∨ l = .abort i → Database.step (setup settings) l t = some u → u.db = t.db) := by
  have hvalid := setup_valid settings db₀.users
  have hinit : (setupOutline db₀.users).Holds (Database.State.initial db₀ o) :=
    initial_holds (List.prefix_refl db₀.users)
  refine ⟨execAll_iff_execOk (I := (setupOutline db₀.users).Holds) (fun l s t hs => hs.step hvalid) ?_ hinit
    (Nat.le_succ _) h,?_⟩
  · intro l s t hs hp ht
    obtain ⟨hcommits,hempty,user,husers⟩ | ⟨hnot,husers⟩ := step_users hs ht
    · have hlength := congrArg List.length husers
      have hnone := congrArg List.length hempty
      simp only [List.length_append, List.length_cons, List.length_nil] at hlength hnone
      rw [FoundsFirst,← List.length_eq_zero_iff]
      constructor
      · intro hle _
        omega
      · intro hok
        have := hok hcommits
        omega
    · rw [husers]
      exact iff_of_true hp fun hcommits => absurd hcommits hnot
  · intro hu t hrun i hi
    have hs : (setupOutline db₀.users).Holds s := hinit.run hvalid (exec_reaches (execOk_anyStep ls _) h)
    obtain ⟨ht,hu',haway⟩ := run_turnedAway hs hu hi hrun
    intro username secret deviceName c htask
    refine ⟨?_,fun l u hl hstep => ?_⟩
    · obtain hc | hc | hc := haway _ _ _ _ htask
      · exact .inr ⟨.inl hc,turnedAway_enabled htask (.inl hc)⟩
      · exact .inr ⟨.inr hc,turnedAway_enabled htask (.inr hc)⟩
      · exact .inl hc
    · obtain ⟨q,pc,e,h⟩ := Database.step_ran hstep hl
      obtain ⟨rfl,-⟩ := Prod.mk.inj (Option.some.inj (h.task.symm.trans htask))
      exact (turnedAway_ran ht hu' haway h).1

/-! ### Bootstraps that keep apart -/

/-- A bootstrap between its read of the users and its commit. -/
def SetupPc.founding : SetupPc → Bool
  | .bootstrapUser | .bootstrapChallenge _ | .bootstrapPasskeys _ _ | .bootstrapAudit _ _ | .bootstrapCommit _ _ => true
  | _ => false

/-- No bootstrap reads the users while another one is between its read and its commit. -/
def KeepsApart (l : Database.Label SetupCall SetupDraw) (s : SetupState) : Prop :=
  ∀ i draw q, l = .run i draw → s.tasks i = some (q,.at .bootstrapUsers) →
    ∀ j q' pc, s.tasks j = some (q',.at pc) → pc.founding = false

/-- One bootstrap at most is past its read, and then there are no users. -/
structure Apart (s : SetupState) : Prop where
  single : ∀ i j q q' pc pc', s.tasks i = some (q,.at pc) → s.tasks j = some (q',.at pc') → pc.founding = true →
    pc'.founding = true → i = j
  empty : ∀ i q pc, s.tasks i = some (q,.at pc) → pc.founding = true → s.db.users = []

/-- How a bootstrap gets past its read, and where its commit takes it. -/
theorem resume_founding {o : SecretFile} {db : SetupDb} {draw : SetupDraw} {pc' : SetupPc}
    (he : q.resume settings o db draw pc = some e) (hn : e.next = .at pc') (hf : pc'.founding = true) :
    pc = .bootstrapUsers ∧ db.users = [] ∨ pc.founding = true ∧ ∀ c options, pc ≠ .bootstrapCommit c options := by
  cases q with
  | bootstrap username secret deviceName =>
    cases pc <;> simp only [SetupCall.resume, resumeBootstrap, reduceCtorEq] at he
    case bootstrapSecret =>
      split at he <;> cases he
      · cases hn
      · cases hn
        cases hf
    case bootstrapUsers =>
      cases he
      split at hn
      · cases hn
      next hnil => exact .inl ⟨rfl,not_not.mp hnil⟩
    case bootstrapCommit =>
      cases he
      cases hn
      cases hf
    case bootstrapUnlink =>
      cases he
      cases hn
    all_goals exact .inr ⟨rfl,fun _ _ h => nomatch h⟩
  | finishPasskeyRegistration c' =>
    have hnone : pc'.founding = false := by
      cases pc <;> simp only [SetupCall.resume, resumeFinish, reduceCtorEq] at he
      case registrationChallenge =>
        split at he
        · cases he
          cases hn
        · split at he <;> cases he <;> cases hn
          rfl
      case registrationConsume | registrationUser => split at he <;> cases he <;> cases hn; rfl
      case registrationAudit =>
        cases he
        cases hn
        rfl
      case registrationCommit =>
        cases he
        cases hn
      all_goals
        obtain rfl := Option.some.inj he
        unfold SetupEffect.insert at hn
        split at hn <;> cases hn
        rfl
    rw [hnone] at hf
    cases hf

theorem Apart.step (hs : (setupOutline users₀).Holds s) (ha : Apart s) (hl : KeepsApart l s)
    (h : Database.step (setup settings) l s = some t) : Apart t := by
  cases Database.step_moved h with
  | called q label state =>
    have hold {i : ℕ} {q' : SetupCall} {pc : SetupPc} (ht : t.tasks i = some (q',.at pc)) (hf : pc.founding = true) :
        s.tasks i = some (q',.at pc) := by
      rw [state] at ht
      obtain ⟨-,hx⟩ | ⟨-,ht⟩ := Database.update_cases ht
      · obtain ⟨rfl,hpc⟩ := Prod.mk.inj hx
        cases q' <;> cases hpc <;> cases hf
      · exact ht
    refine ⟨fun i j q q' pc pc' hi hj hf hf' => ha.single i j q q' pc pc' (hold hi hf) (hold hj hf') hf hf',fun i q pc hi hf => ?_⟩
    rw [state]
    exact ha.empty i q pc (hold hi hf) hf
  | restarted draw label state =>
    rw [state]
    exact ⟨fun _ _ _ _ _ _ hi => (nomatch hi),fun _ _ _ hi => (nomatch hi)⟩
  | ran i q pc e hran =>
    -- a bootstrap past its read was so before, and has not committed, or is alone and has found no users
    have hcases {j : ℕ} {q' : SetupCall} {pc' : SetupPc} (hj : t.tasks j = some (q',.at pc')) (hf : pc'.founding = true) :
        (∃ pc₀, s.tasks j = some (q',.at pc₀) ∧ pc₀.founding = true ∧
          (j = i → ∀ c options, pc ≠ .bootstrapCommit c options)) ∨
          j = i ∧ s.db.users = [] ∧ ∀ k q₀ pc₀, s.tasks k = some (q₀,.at pc₀) → pc₀.founding = false := by
      obtain ⟨rfl,hx⟩ | ⟨hne,hold⟩ := hran.task_cases hj
      · obtain ⟨rfl,hn⟩ := Prod.mk.inj hx
        obtain ⟨draw,hlabel,he⟩ | ⟨-,rfl⟩ := hran.label
        · obtain ⟨rfl,hnil⟩ | ⟨hbefore,hcommit⟩ := resume_founding he hn.symm hf
          · have hview : s.view j = s.db := by
              obtain ⟨-,-,hwrites⟩ | ⟨-,hview,-⟩ := hs.seen hran.task
              · exact hwrites.elim
              · exact hview
            rw [hview] at hnil
            exact .inr ⟨rfl,hnil,hl j draw _ hlabel hran.task⟩
          · exact .inl ⟨pc,hran.task,hbefore,fun _ => hcommit⟩
        · cases hn
      · exact .inl ⟨pc',hold,hf,fun heq => absurd heq hne⟩
    refine ⟨fun j k q₁ q₂ pc₁ pc₂ hj hk hf hf' => ?_,fun j q' pc' hj hf => ?_⟩
    · obtain ⟨pcj,hj',hfj,-⟩ | ⟨rfl,-,hnone⟩ := hcases hj hf
      · obtain ⟨pck,hk',hfk,-⟩ | ⟨-,-,hnone⟩ := hcases hk hf'
        · exact ha.single j k q₁ q₂ pcj pck hj' hk' hfj hfk
        · rw [hnone j q₁ pcj hj'] at hfj
          cases hfj
      · obtain ⟨pck,hk',hfk,-⟩ | ⟨rfl,-,-⟩ := hcases hk hf'
        · rw [hnone k q₂ pck hk'] at hfk
          cases hfk
        · rfl
    · obtain ⟨⟨i',draw,q₀,c,options,hlabel,htask⟩,-⟩ | ⟨-,husers⟩ := step_users hs h
      · -- the one that commits is past its read, so no other is
        obtain rfl : i = i' := by
          obtain ⟨_,hl',-⟩ | ⟨hl',-⟩ := hran.label <;> rw [hlabel] at hl' <;> cases hl'
          rfl
        obtain ⟨rfl,hpc⟩ := Prod.mk.inj (Option.some.inj (hran.task.symm.trans htask))
        cases hpc
        obtain ⟨pcj,hj',hfj,hcommit⟩ | ⟨-,-,hnone⟩ := hcases hj hf
        · obtain rfl := ha.single j i q' q pcj _ hj' htask hfj rfl
          exact absurd rfl (hcommit rfl c options)
        · exact absurd (hnone i q _ htask) (by simp [SetupPc.founding])
      · rw [husers]
        obtain ⟨pcj,hj',hfj,-⟩ | ⟨-,hnil,-⟩ := hcases hj hf
        · exact ha.empty j q' pcj hj' hfj
        · exact hnil

/-- Bootstraps that keep apart commit only while there are no users, so that there is one owner at most. -/
theorem foundsFirst_of_keepsApart (settings : SetupSettings) (db₀ : SetupDb) (o : SecretFile)
    {ls : List (Database.Label SetupCall SetupDraw)}
    (h : ExecOk (Database.step (setup settings)) KeepsApart ls (Database.State.initial db₀ o)) :
    ExecOk (Database.step (setup settings)) FoundsFirst ls (Database.State.initial db₀ o) := by
  have hinit : (setupOutline db₀.users).Holds (Database.State.initial db₀ o) := initial_holds (List.prefix_refl db₀.users)
  refine h.imp_of (I := fun s => (setupOutline db₀.users).Holds s ∧ Apart s)
    (fun l s t hs hl ht => ⟨hs.1.step (setup_valid settings db₀.users) ht,hs.2.step hs.1 hl ht⟩) (fun l s hs _ hcommits => ?_)
    ⟨hinit,⟨fun _ _ _ _ _ _ hi => (nomatch hi),fun _ _ _ hi => (nomatch hi)⟩⟩
  obtain ⟨i,draw,q,c,options,-,htask⟩ := hcommits
  exact hs.2.empty i q _ htask rfl

end Owners

def sampleSetup : SetupSettings := ⟨before?,300,28800,id⟩

def emptySetup : SetupDb := ⟨[],fun _ => none,fun _ => none,[],[]⟩

def sampleSecret : UrlSafeToken := ⟨"kkkkkkkkkkkkkkkkkkkkkkkkkkkkkkkkkkkkkkkkkkk",by decide,by decide⟩

/-- The next `n` statements of call `i`; what it draws at random is `newId`. -/
def setupSteps (i n newId : ℕ) (now : Instant) : List (Database.Label SetupCall SetupDraw) :=
  List.replicate n (.run i ⟨now,newId,sampleSecret,"session",none,false⟩)

/-- Both bootstraps read the users before either inserts its own. -/
def bootstrapRace : List (Database.Label SetupCall SetupDraw) :=
  [.call (.bootstrap "ada" sampleSecret.text "laptop"),.call (.bootstrap "bob" sampleSecret.text "phone")] ++
    setupSteps 0 2 0 0 ++ setupSteps 1 2 1 0 ++ setupSteps 0 6 0 0 ++ setupSteps 1 6 1 0

def twoOwners : SetupState :=
  after (Database.step (setup sampleSetup)) bootstrapRace (Database.State.initial emptySetup none) (by decide)

/-- Two bootstraps that race create an owner each. -/
theorem bootstrap_race_two_owners :
    ¬ ∀ (ls : List (Database.Label SetupCall SetupDraw)) (s : SetupState),
      exec (Database.step (setup sampleSetup)) ls (Database.State.initial emptySetup none) = some s →
        s.db.users.length ≤ emptySetup.users.length + 1 := by
  intro h
  have hle := h bootstrapRace twoOwners (exec_after _)
  have htwo : twoOwners.db.users.map (fun user => user.username) = ["ada","bob"] := by decide +kernel
  have hlength := congrArg List.length htwo
  have hempty : emptySetup.users.length = 0 := rfl
  simp only [List.length_map, List.length_cons, List.length_nil] at hlength
  omega

theorem bootstrap_owner_unique_iff_race :
    ¬ ExecOk (Database.step (setup sampleSetup)) FoundsFirst bootstrapRace (Database.State.initial emptySetup none) := by
  have he : exec (Database.step (setup sampleSetup)) bootstrapRace (Database.State.initial emptySetup none) =
      some twoOwners := exec_after _
  have hall := (bootstrap_owner_unique_iff sampleSetup emptySetup none he).1
  exact fun hok => absurd ((hall.mpr hok).last he) (by decide +kernel)

end AgentGraph.Security
