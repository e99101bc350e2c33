import AgentGraph.Security.FirstOwner

/-! # First-time setup can be completed until the challenge of the first owner expires

A user is founded with a challenge, and a challenge is consumed with its passkey. Without
users the secret file is whole, unless a crash has torn it, and a bootstrap that presents
its secret is accepted. Once a user is there nothing renews a challenge that has expired.
-/
set_option autoImplicit false
namespace AgentGraph.Security
open Transition Database.Outline
open Database hiding Effect Ctl Label step Run

/-- `user` holds a passkey that is not revoked. -/
def SetupDb.Registered (db : SetupDb) (user : UserRow) : Prop :=
  user ∈ db.users ∧ ∃ passkey ∈ db.passkeys, passkey.userId = user.id ∧ passkey.revokedAt = none

/-- A registration challenge of `user` that is not consumed. -/
structure SetupDb.Challenged (db : SetupDb) (user : UserRow) (c : ChallengeId) (r : ChallengeRecord Instant) : Prop where
  member : user ∈ db.users
  row : db.challenges c = some r
  kind : r.kind = .passkeyRegistration
  owner : r.userId = some user.id
  unconsumed : r.consumedAt = none

/-- Every user has been challenged, and every challenge stands or has its passkey. -/
structure Setup (db : SetupDb) : Prop where
  challenge : ∀ c r, db.challenges c = some r → ∃ user, db.Registered user ∨ db.Challenged user c r
  founded : db.users ≠ [] → ∃ c r, db.challenges c = some r

section Setup
variable {db db' : SetupDb} {c : ChallengeId} {user : UserRow}

theorem Registers.registered (h : Registers db db') (hs : Setup db) : ∃ user, db'.Registered user := by
  obtain ⟨c,r,now,owner,passkey,hr,howner,-,hp,hu,hnew⟩ := h.rows
  obtain ⟨user,hregistered | hchallenged⟩ := hs.challenge c r hr
  · obtain ⟨hmem,p,hmem',hrow⟩ := hregistered
    refine ⟨user,by rw [h.users]; exact hmem,p,?_,hrow⟩
    rw [hp]
    exact List.mem_append_left _ hmem'
  · refine ⟨user,by rw [h.users]; exact hchallenged.member,passkey,?_,?_,hnew⟩
    · rw [hp]
      exact List.mem_append_right _ (List.mem_singleton_self _)
    · rw [hu]
      exact Option.some.inj (howner.symm.trans hchallenged.owner)

theorem Setup.founds (hs : Setup db) (h : Founds c user db db') : Setup db' := by
  obtain ⟨challenge,hc,hkind,howner,hopen⟩ := h.row
  have hmem {other : UserRow} (ho : other ∈ db.users) : other ∈ db'.users := by
    rw [h.users]
    exact List.mem_append_left _ ho
  have hnew : db'.challenges c = some challenge := by rw [hc,Function.update_self]
  refine ⟨fun c' r hr => ?_,fun _ => ⟨c,challenge,hnew⟩⟩
  by_cases hcc : c' = c
  · subst hcc
    obtain rfl := Option.some.inj (hnew.symm.trans hr)
    refine ⟨user,.inr ⟨?_,hnew,hkind,howner,hopen⟩⟩
    rw [h.users]
    exact List.mem_append_right _ (List.mem_singleton_self _)
  · have hold := hr
    rw [hc,Function.update_of_ne hcc] at hold
    obtain ⟨other,hregistered | hchallenged⟩ := hs.challenge c' r hold
    · refine ⟨other,.inl ⟨hmem hregistered.1,?_⟩⟩
      rw [h.passkeys]
      exact hregistered.2
    · exact ⟨other,.inr { hchallenged with member := hmem hchallenged.member, row := hr }⟩

theorem Setup.step (hs : Setup db) (h : SetupStep db db') : Setup db' := by
  cases h with
  | unchanged same => rw [same]; exact hs
  | founded c user founds => exact hs.founds founds
  | registered registers =>
    obtain ⟨user,hregistered⟩ := registers.registered hs
    obtain ⟨c,r,now,_,_,-,-,hc,-⟩ := registers.rows
    exact ⟨fun _ _ _ => ⟨user,.inl hregistered⟩,fun _ => ⟨c,_,by rw [hc,Function.update_self]⟩⟩

end Setup

/-! ## The secret file -/

/-- The secret that is asked for is one that can be presented. -/
def Presentable (o : SecretFile) : Prop := ∀ text, o = some text → strip text ≠ "" ∧ isAscii (strip text) = true

/-- No crash tears the secret file. -/
def Whole (l : Database.Label SetupCall SetupDraw) (_ : SetupState) : Prop := ∀ draw, l = .restart draw → draw.torn = false

theorem isUrlSafe_char {c : Char} (h : isUrlSafe c = true) : isSpace c = false ∧ c.toNat < 128 := by
  simp only [isUrlSafe, isSpace, Bool.or_eq_true, Bool.and_eq_true, decide_eq_true_eq, beq_iff_eq, Bool.or_eq_false_iff,
    Bool.and_eq_false_iff, decide_eq_false_iff_not, beq_eq_false_iff_ne] at h ⊢
  omega

theorem presentable_of_urlSafe {text : String} (hne : text ≠ "") (hchars : ∀ c ∈ text.toList, isUrlSafe c = true) :
    Presentable (some text) := by
  have hstrip : strip text = text := strip_of_all fun c hc => (isUrlSafe_char (hchars c hc)).1
  intro text' htext
  obtain rfl := Option.some.inj htext
  rw [hstrip]
  refine ⟨hne,List.all_eq_true.mpr fun c hc => ?_⟩
  exact decide_eq_true (isUrlSafe_char (hchars c hc)).2

theorem UrlSafeToken.presentable (token : UrlSafeToken) : Presentable (some token.text) := by
  refine presentable_of_urlSafe (fun hnil => ?_) (List.all_eq_true.mp token.urlSafe)
  have hsize := token.size
  rw [hnil] at hsize
  exact absurd hsize (by decide)

/-- The file after a call has created it if it was missing. -/
theorem Presentable.getD {o : SecretFile} (h : Presentable o) (token : UrlSafeToken) :
    Presentable (some (o.getD token.text)) := by
  cases o with
  | none => exact token.presentable
  | some text => exact h

theorem presentable_none : Presentable none := fun _ h => by cases h

section Files
variable {settings : SetupSettings} {q : SetupCall} {o : SecretFile} {db : SetupDb} {draw : SetupDraw} {pc : SetupPc}
  {e : SetupEffect}

theorem insert_outside (db : Option SetupDb) (pc : SetupPc) (o : SecretFile) : (SetupEffect.insert db pc o).outside = o := by
  cases db <;> rfl

/-- A statement creates the file, removes it or leaves it. -/
theorem resume_outside (he : q.resume settings o db draw pc = some e) :
    e.outside = o ∨ e.outside = none ∨ e.outside = some (o.getD draw.secret.text) := by
  cases q with
  | bootstrap username secret deviceName =>
    cases pc <;> simp only [SetupCall.resume, resumeBootstrap, reduceCtorEq] at he
    case bootstrapSecret => split at he <;> cases he <;> exact .inr (.inr rfl)
    case bootstrapUnlink =>
      cases he
      exact .inr (.inl rfl)
    case bootstrapUsers =>
      cases he
      split <;> exact .inl rfl
    case bootstrapUser | bootstrapChallenge =>
      cases he
      exact .inl (insert_outside _ _ _)
    all_goals
      cases he
      exact .inl rfl
  | finishPasskeyRegistration c =>
    cases pc <;> simp only [SetupCall.resume, resumeFinish, reduceCtorEq] at he
    case registrationChallenge =>
      split at he
      · cases he
        exact .inl rfl
      · split at he <;> cases he <;> exact .inl rfl
    case registrationConsume | registrationUser => split at he <;> cases he <;> exact .inl rfl
    case registrationAudit | registrationCommit =>
      cases he
      exact .inl rfl
    all_goals
      cases he
      exact .inl (insert_outside _ _ _)

theorem step_presentable {s t : SetupState} {l : Database.Label SetupCall SetupDraw} (hl : Whole l s)
    (hp : Presentable s.outside) (h : Database.step (setup settings) l s = some t) : Presentable t.outside := by
  cases Database.step_moved h with
  | called q label state =>
    rw [state]
    exact hp
  | restarted draw label state =>
    have houtside : (setup settings).restart draw s.outside = s.outside := by simp [setup,hl draw label]
    rw [state]
    simp only [houtside]
    exact hp
  | ran i q pc e h =>
    rw [h.outside]
    obtain ⟨draw,-,he⟩ | ⟨-,rfl⟩ := h.label
    · obtain he | he | he := resume_outside he <;> rw [he]
      · exact hp
      · exact presentable_none
      · exact hp.getD _
    · exact hp

/-- The secret of the file is accepted. -/
theorem requireBootstrapSecret_ok (h : Presentable o) (drawn : UrlSafeToken) :
    requireBootstrapSecret (strip (o.getD drawn.text)) o drawn = .ok () := by
  obtain ⟨hne,hascii⟩ := h.getD drawn _ rfl
  simp [requireBootstrapSecret,hne,hascii]

end Files

/-! ## Where a deadline counts from -/

/-- Call `i` inserts challenge `c` for `user` at the instant `now`. -/
def Inserts (i : ℕ) (c : ChallengeId) (user : UserRow) (now : Instant) (l : Database.Label SetupCall SetupDraw)
    (s : SetupState) : Prop :=
  ∃ q draw, l = .run i draw ∧ s.tasks i = some (q,.at (.bootstrapChallenge user)) ∧ draw.newId = c ∧ draw.now = now

/-- Call `i` commits the bootstrap of challenge `c`. -/
def Publishes (i : ℕ) (c : ChallengeId) (l : Database.Label SetupCall SetupDraw) (s : SetupState) : Prop :=
  ∃ q draw options, l = .run i draw ∧ s.tasks i = some (q,.at (.bootstrapCommit c options))

/-- The challenge that a bootstrap has inserted and not yet committed. -/
def SetupPc.inserted : SetupPc → Option ChallengeId
  | .bootstrapPasskeys _ c | .bootstrapAudit c _ | .bootstrapCommit c _ => some c
  | _ => none

/-- A challenge of `user` whose deadline counts from `now`. -/
structure Counts (settings : SetupSettings) (user : UserRow) (now : Instant) (r : ChallengeRecord Instant) : Prop where
  owner : r.userId = some user.id
  deadline : r.expiresAt = now + settings.challengeTtl

section Dates
variable (settings : SetupSettings) (o : SecretFile) (ls : List (Database.Label SetupCall SetupDraw))

/-- A bootstrap of the run has inserted challenge `c` for `user` at the instant `now`, and has committed. -/
def Bootstrapped (c : ChallengeId) (user : UserRow) (now : Instant) : Prop :=
  ∃ i, ExecAny (Database.step (setup settings)) (Inserts i c user now) ls (Database.State.initial emptySetup o) ∧
    ExecAny (Database.step (setup settings)) (Publishes i c) ls (Database.State.initial emptySetup o)

/-- Every challenge counts from its bootstrap. -/
structure Dated (s : SetupState) : Prop where
  stored : ∀ c r, s.db.challenges c = some r → ∃ user now, Bootstrapped settings o ls c user now ∧ user ∈ s.db.users ∧
    Counts settings user now r
  founding : ∀ i q pc c, s.tasks i = some (q,.at pc) → pc.inserted = some c → ∃ user now r,
    ExecAny (Database.step (setup settings)) (Inserts i c user now) ls (Database.State.initial emptySetup o) ∧
      s.working.challenges c = some r ∧ user ∈ s.working.users ∧ Counts settings user now r

end Dates

section Dates
variable {settings : SetupSettings} {o : SecretFile} {ls : List (Database.Label SetupCall SetupDraw)} {s t : SetupState}
  {l : Database.Label SetupCall SetupDraw} {q : SetupCall} {db : SetupDb} {draw : SetupDraw} {pc pc' : SetupPc}
  {e : SetupEffect} {c : ChallengeId} {user : UserRow} {now : Instant} {i : ℕ}

theorem Bootstrapped.snoc (h : Bootstrapped settings o ls c user now) : Bootstrapped settings o (ls ++ [l]) c user now := by
  obtain ⟨i,hinserts,hpublishes⟩ := h
  exact ⟨i,execAny_append hinserts,execAny_append hpublishes⟩

/-- A bootstrap comes by its challenge with the insert, and writes no row after it. -/
theorem resume_inserted {o : SecretFile} (he : q.resume settings o db draw pc = some e) (hn : e.next = .at pc')
    (hc : pc'.inserted = some c) :
    (∃ user db', pc = .bootstrapChallenge user ∧ draw.newId = c ∧ e.action = .write db' ∧ db'.users = db.users ∧
      ∃ r, db'.challenges c = some r ∧ Counts settings user draw.now r) ∨
      pc.inserted = some c ∧ (e.action = .keep ∨ e.action = .write db) := by
  cases q with
  | bootstrap username secret deviceName =>
    cases pc <;> simp only [SetupCall.resume, resumeBootstrap, reduceCtorEq] at he
    case bootstrapChallenge user =>
      obtain rfl := Option.some.inj he
      cases hi : db.insertChallenge draw.newId
          ⟨.passkeyRegistration,some user.id,some deviceName,draw.now + settings.challengeTtl,none⟩ with
      | none =>
        rw [hi] at hn
        cases hn
      | some db' =>
        rw [hi] at hn
        obtain rfl := Database.Ctl.at.inj hn
        obtain rfl := Option.some.inj hc
        obtain ⟨-,rfl⟩ := SetupDb.insertChallenge_eq hi
        exact .inl ⟨user,_,rfl,rfl,rfl,rfl,_,Function.update_self _ _ _,rfl,rfl⟩
    case bootstrapPasskeys user c' =>
      cases he
      cases hn
      exact .inr ⟨hc,.inl rfl⟩
    case bootstrapAudit c' options =>
      cases he
      cases hn
      exact .inr ⟨hc,.inr rfl⟩
    case bootstrapUser =>
      obtain rfl := Option.some.inj he
      unfold SetupEffect.insert at hn
      split at hn <;> cases hn
      cases hc
    case bootstrapSecret =>
      split at he <;> cases he
      · cases hn
      · cases hn
        cases hc
    case bootstrapUsers =>
      cases he
      split at hn <;> cases hn
      cases hc
    case bootstrapCommit =>
      cases he
      cases hn
      cases hc
    case bootstrapUnlink =>
      cases he
      cases hn
  | finishPasskeyRegistration c' =>
    have hnone : pc'.inserted = none := by
      cases pc <;> simp only [SetupCall.resume, resumeFinish, reduceCtorEq] at he
      case registrationChallenge =>
        split at he
        · cases he
          cases hn
        · split at he <;> cases he <;> cases hn
          rfl
      case registrationConsume | registrationUser => split at he <;> cases he <;> cases hn; rfl
      case registrationAudit =>
        cases he
        cases hn
        rfl
      case registrationCommit =>
        cases he
        cases hn
      all_goals
        obtain rfl := Option.some.inj he
        unfold SetupEffect.insert at hn
        split at hn <;> cases hn
        rfl
    rw [hnone] at hc
    cases hc

/-- A challenge that is inserted and not committed is in the transaction of its call. -/
theorem holds_inserted {users₀ : List UserRow} (hs : (setupOutline users₀).Holds s) (ht : s.tasks i = some (q,.at pc))
    (hc : pc.inserted = some c) : s.writer = some i ∧ s.view i = s.working := by
  obtain ⟨hw,hview,-⟩ | ⟨-,-,hreads⟩ := hs.seen ht
  · exact ⟨hw,hview⟩
  · cases pc with
    | bootstrapPasskeys | bootstrapAudit | bootstrapCommit => exact hreads.elim
    | _ => cases hc

theorem Dated.step_founding (hs : (setupOutline []).Holds s) (hd : Dated settings o ls s)
    (he : exec (Database.step (setup settings)) ls (Database.State.initial emptySetup o) = some s)
    (h : Database.Ran (setup settings) s l i q pc e t) {j : ℕ} {q' : SetupCall} (ht : t.tasks j = some (q',.at pc'))
    (hc : pc'.inserted = some c) : ∃ user now r,
    ExecAny (Database.step (setup settings)) (Inserts j c user now) (ls ++ [l]) (Database.State.initial emptySetup o) ∧
      t.working.challenges c = some r ∧ user ∈ t.working.users ∧ Counts settings user now r := by
  have hold {j : ℕ} {q' : SetupCall} {pc' : SetupPc} (hj : s.tasks j = some (q',.at pc')) (hc : pc'.inserted = some c)
      (hworking : t.working = s.working) : ∃ user now r,
      ExecAny (Database.step (setup settings)) (Inserts j c user now) (ls ++ [l]) (Database.State.initial emptySetup o) ∧
        t.working.challenges c = some r ∧ user ∈ t.working.users ∧ Counts settings user now r := by
    obtain ⟨user,now,r,hinserts,hrest⟩ := hd.founding j q' pc' c hj hc
    rw [hworking]
    exact ⟨user,now,r,execAny_append hinserts,hrest⟩
  obtain ⟨rfl,hx⟩ | ⟨hne,hj⟩ := h.task_cases ht
  · obtain ⟨rfl,hn⟩ := Prod.mk.inj hx
    obtain ⟨draw,hl,hresume⟩ | ⟨-,rfl⟩ := h.label
    · obtain ⟨user,db',rfl,rfl,hwrite,husers,r,hr,hcounts⟩ | ⟨hbefore,haction⟩ := resume_inserted hresume hn.symm hc
      · have hworking : t.working = db' := by
          cases h.lock with
          | kept writer working own readonly => exact absurd hwrite (readonly db')
          | wrote db action next lock writer working =>
            rw [hwrite] at action
            cases action
            exact working
          | released lock writer ended =>
            obtain hcommit | hrollback := ended ⟨pc',hn.symm⟩
            · rw [hwrite] at hcommit
              cases hcommit
            · rw [hwrite] at hrollback
              cases hrollback
        have hmem : user ∈ (s.view j).users := by
          obtain ⟨-,husers,-⟩ := commit_writes hs h.task fun db h => h.elim
          rw [husers]
          exact List.mem_append_right _ (List.mem_singleton_self _)
        refine ⟨user,draw.now,r,(execAny_snoc he).mpr (.inr ⟨_,draw,hl,h.task,rfl,rfl⟩),?_,?_,hcounts⟩
        · rw [hworking]
          exact hr
        · rw [hworking,husers]
          exact hmem
      · obtain ⟨-,hview⟩ := holds_inserted hs h.task hbefore
        refine hold h.task hbefore ?_
        cases h.lock with
        | kept writer working own readonly => exact working
        | wrote db action next lock writer working =>
          obtain hkeep | hwrite := haction
          · rw [hkeep] at action
            cases action
          · rw [hwrite] at action
            cases action
            exact working.trans hview
        | released lock writer ended =>
          obtain hkeep | hwrite := haction <;> obtain hend | hend := ended ⟨pc',hn.symm⟩
          · rw [hkeep] at hend
            cases hend
          · rw [hkeep] at hend
            cases hend
          · rw [hwrite] at hend
            cases hend
          · rw [hwrite] at hend
            cases hend
    · cases hn
  · exact hold hj hc (other_locked h.lock hne (holds_inserted hs hj hc).1).2

theorem Dated.step (hs : (setupOutline []).Holds s) (hd : Dated settings o ls s)
    (he : exec (Database.step (setup settings)) ls (Database.State.initial emptySetup o) = some s)
    (h : Database.step (setup settings) l s = some t) : Dated settings o (ls ++ [l]) t := by
  have hstored {c : ChallengeId} {r : ChallengeRecord Instant} (hr : s.db.challenges c = some r) :
      ∃ user now, Bootstrapped settings o (ls ++ [l]) c user now ∧ user ∈ s.db.users ∧ Counts settings user now r := by
    obtain ⟨user,now,hbootstrapped,hrest⟩ := hd.stored c r hr
    exact ⟨user,now,hbootstrapped.snoc,hrest⟩
  cases Database.step_moved h with
  | called q label state =>
    rw [state]
    refine ⟨fun c r hr => hstored hr,fun i q' pc c ht hc => ?_⟩
    obtain ⟨-,hx⟩ | ⟨-,hold⟩ := Database.update_cases ht
    · obtain ⟨rfl,hpc⟩ := Prod.mk.inj hx
      cases q' <;> cases hpc <;> cases hc
    · obtain ⟨user,now,r,hinserts,hrest⟩ := hd.founding i q' pc c hold hc
      exact ⟨user,now,r,execAny_append hinserts,hrest⟩
  | restarted draw label state =>
    rw [state]
    exact ⟨fun c r hr => hstored hr,fun _ _ _ _ ht => nomatch ht⟩
  | ran i q pc e hran =>
    refine ⟨fun c r hr => ?_,fun j q' pc' c ht hc => hd.step_founding hs he hran ht hc⟩
    obtain ⟨draw,hl,hresume⟩ | ⟨-,rfl⟩ := hran.label
    · have hdb := hran.db
      obtain hkeep | ⟨c',options,rfl⟩ | ⟨token,p,rfl⟩ := resume_commits hresume
      · rw [hran.db_kept hkeep] at hr ⊢
        exact hstored hr
      · -- the commit of a bootstrap publishes its challenge
        obtain ⟨-,hview⟩ := holds_inserted hs hran.task rfl
        have hcommit : e.action = .commit := by
          cases q <;> cases hresume
          rfl
        rw [hcommit,hview] at hdb
        obtain ⟨-,founder,hfounds⟩ := commit_writes hs hran.task fun db h => h.elim
        rw [hview] at hfounds
        have hpublished : t.db = s.working := hdb
        rw [hpublished] at hr ⊢
        obtain ⟨user,now,r',hinserts,hr',hmem,hcounts⟩ := hd.founding i q _ c' hran.task rfl
        by_cases hc : c = c'
        · subst hc
          obtain rfl := Option.some.inj (hr'.symm.trans hr)
          exact ⟨user,now,⟨i,execAny_append hinserts,(execAny_snoc he).mpr (.inr ⟨q,draw,options,hl,hran.task⟩)⟩,hmem,hcounts⟩
        · obtain ⟨challenge,hrow,-⟩ := hfounds.row
          rw [hrow,Function.update_of_ne hc] at hr
          obtain ⟨user,now,hbootstrapped,huser,hcounts⟩ := hstored hr
          refine ⟨user,now,hbootstrapped,?_,hcounts⟩
          rw [hfounds.users]
          exact List.mem_append_left _ huser
      · have hregisters := commit_writes hs hran.task fun db h => h.elim
        have hcommit : e.action = .commit := by
          cases q <;> cases hresume
          rfl
        rw [hcommit] at hdb
        have hpublished : t.db = s.view i := hdb
        rw [hpublished] at hr ⊢
        obtain ⟨b,row,at',-,-,hb,-,hrow,-⟩ := hregisters.rows
        rw [hregisters.users]
        by_cases hc : c = b
        · subst hc
          obtain ⟨user,now,hbootstrapped,huser,hcounts⟩ := hstored hb
          rw [hrow,Function.update_self] at hr
          cases hr
          exact ⟨user,now,hbootstrapped,huser,hcounts.owner,hcounts.deadline⟩
        · rw [hrow,Function.update_of_ne hc] at hr
          exact hstored hr
    · rw [hran.db_kept (by simp [Database.Program.abandoned])] at hr ⊢
      exact hstored hr

theorem dated_exec (h : exec (Database.step (setup settings)) ls (Database.State.initial emptySetup o) = some s) :
    Dated settings o ls s := by
  have hboth : (setupOutline []).Holds s ∧ Dated settings o ls s := by
    have hinit : (setupOutline []).Holds (Database.State.initial emptySetup o) := initial_holds (List.prefix_refl _)
    exact exec_induction (P := fun ls s => (setupOutline []).Holds s ∧ Dated settings o ls s)
      ⟨hinit,fun _ _ hr => (nomatch hr),fun _ _ _ _ ht => (nomatch ht)⟩
      (fun ls l s t he hs ht => ⟨hs.1.step (setup_valid settings []) ht,hs.2.step hs.1 he ht⟩) h
  exact hboth.2

end Dates

/-! ## The way to a passkey -/

/-- A bootstrap that presents the secret of the file, by itself, is accepted, and leaves
its owner and a challenge. -/
def Bootstrappable (settings : SetupSettings) (s : SetupState) : Prop :=
  ∀ (username deviceName : String) (draws : ℕ → SetupDraw),
    let q : SetupCall := .bootstrap username (strip (s.outside.getD (draws 0).secret.text)) deviceName
    let user : UserRow := { username := username, role := .owner, disabledAt := none, id := (draws 2).newId }
    ∃ t c options, exec (Database.step (setup settings))
        (.call q :: ((List.range 8).map draws).map fun draw => .run s.count draw) s = some t ∧
      t.tasks s.count = some (q,.done (.ok (.options c options))) ∧ t.db.users = [user] ∧
      t.db.challenges c =
        some ⟨.passkeyRegistration,some user.id,some deviceName,(draws 3).now + settings.challengeTtl,none⟩

section Completion
variable {settings : SetupSettings} {s : SetupState} {o : SecretFile}

theorem bootstrappable (hw : s.writer = none) (hp : Presentable s.outside) (hu : s.db.users = [])
    (hc : ∀ c, s.db.challenges c = none) : Bootstrappable settings s := by
  intro username deviceName draws q user
  let challenge : ChallengeRecord Instant :=
    ⟨.passkeyRegistration,some user.id,some deviceName,(draws 3).now + settings.challengeTtl,none⟩
  let inserted : SetupDb := { s.db with users := [user] }
  let founded : SetupDb :=
    { inserted with challenges := Function.update s.db.challenges (draws 3).newId (some challenge) }
  let file : SecretFile := some (s.outside.getD (draws 0).secret.text)
  let options : RegistrationOptions := ⟨username,user.id,(founded.passkeysOf user.id).map PasskeyRow.credentialId⟩
  let x : Database.Solo SetupDb SecretFile SetupPc SetupResult :=
    ⟨.done (.ok (.options (draws 3).newId options)),founded,founded,false,none⟩
  have hsecret : (setup settings).resume q s.outside s.db (draws 0) .bootstrapSecret =
      some (SetupEffect.goto .bootstrapUsers file) := by
    simp [setup,SetupCall.resume,resumeBootstrap,q,requireBootstrapSecret_ok hp,file]
  have husers : (setup settings).resume q file s.db (draws 1) .bootstrapUsers =
      some (SetupEffect.goto .bootstrapUser file) := by
    simp [setup,SetupCall.resume,resumeBootstrap,q,hu]
  have huser : (setup settings).resume q file s.db (draws 2) .bootstrapUser =
      some (SetupEffect.write inserted (.bootstrapChallenge user) file) := by
    simp [setup,SetupCall.resume,resumeBootstrap,q,SetupEffect.insert,SetupDb.insertUser,hu,inserted,user]
  have hchallenge : (setup settings).resume q file inserted (draws 3) (.bootstrapChallenge user) =
      some (SetupEffect.write founded (.bootstrapPasskeys user (draws 3).newId) file) := by
    simp [setup,SetupCall.resume,resumeBootstrap,q,SetupEffect.insert,SetupDb.insertChallenge,hc,inserted,founded,challenge]
  have hserve : (setup settings).serve q ((List.range 8).map draws) ⟨.at .bootstrapSecret,s.db,s.working,false,s.outside⟩ =
      some x := by
    have hdraws : (List.range 8).map draws = [draws 0,draws 1,draws 2,draws 3,draws 4,draws 5,draws 6,draws 7] := rfl
    rw [hdraws]
    refine (Database.serve_cons rfl hsecret).trans ?_
    refine (Database.serve_cons rfl husers).trans ?_
    refine (Database.serve_cons rfl huser).trans ?_
    refine (Database.serve_cons rfl hchallenge).trans ?_
    -- what is left does not depend on what the tables hold
    rfl
  refine ⟨s.alone q x,(draws 3).newId,options,?_,Function.update_self _ _ _,rfl,Function.update_self _ _ _⟩
  exact Database.exec_call_served hw hserve

theorem step_setup {users₀ : List UserRow} {t : SetupState} {l : Database.Label SetupCall SetupDraw}
    (hs : (setupOutline users₀).Holds s) (hd : Setup s.db) (h : Database.step (setup settings) l s = some t) : Setup t.db := by
  cases Database.step_moved h with
  | called q label state => rw [state]; exact hd
  | restarted draw label state => rw [state]; exact hd
  | ran i q pc e h => exact hd.step (hs.ran (setup_valid settings users₀) h).2

/-- Between calls a user has a passkey, or an unconsumed challenge whose deadline counts from the
instant at which the bootstrap of the user inserted it, or there are no users and a bootstrap is
accepted. -/
theorem setup_completable (settings : SetupSettings) (ho : Presentable o)
    {ls : List (Database.Label SetupCall SetupDraw)}
    (hwhole : ExecOk (Database.step (setup settings)) Whole ls (Database.State.initial emptySetup o))
    (h : exec (Database.step (setup settings)) ls (Database.State.initial emptySetup o) = some s) (hidle : s.Idle) :
    (∃ user, s.db.Registered user) ∨
      (∃ user c r now, s.db.Challenged user c r ∧ Bootstrapped settings o ls c user now ∧
        r.expiresAt = now + settings.challengeTtl) ∨
      s.db.users = [] ∧ Bootstrappable settings s := by
  obtain ⟨hs,hd,hp⟩ : (setupOutline []).Holds s ∧ Setup s.db ∧ Presentable s.outside := by
    refine Reaches.invariant (I := fun s => (setupOutline []).Holds s ∧ Setup s.db ∧ Presentable s.outside)
      (fun l s t hs hl hstep => ?_) (exec_reaches hwhole h) ⟨initial_holds (List.prefix_refl _),?_,ho⟩
    · exact ⟨hs.1.step (setup_valid settings []) hstep,step_setup hs.1 hs.2.1 hstep,step_presentable hl hs.2.2 hstep⟩
    · exact ⟨fun c r hr => (by cases hr),fun hne => absurd rfl hne⟩
  by_cases hu : s.db.users = []
  · have hempty {user : UserRow} : user ∉ s.db.users := by
      rw [hu]
      exact List.not_mem_nil
    refine .inr (.inr ⟨hu,bootstrappable (hs.unlocked hidle) hp hu fun c => ?_⟩)
    cases hc : s.db.challenges c with
    | none => rfl
    | some r =>
      obtain ⟨user,hregistered | hchallenged⟩ := hd.challenge c r hc
      · exact absurd hregistered.1 hempty
      · exact absurd hchallenged.member hempty
  · obtain ⟨c,r,hr⟩ := hd.founded hu
    obtain ⟨user,hregistered | hchallenged⟩ := hd.challenge c r hr
    · exact .inl ⟨user,hregistered⟩
    · -- the owner of the challenge is the user of its bootstrap
      obtain ⟨owner,now,hbootstrapped,hmem,hcounts⟩ := (dated_exec h).stored c r hr
      refine .inr (.inl ⟨owner,c,r,now,?_,hbootstrapped,hcounts.deadline⟩)
      exact { hchallenged with member := hmem, owner := hcounts.owner }

end Completion

/-- One bootstrap that nobody disturbs. -/
def foundingTrace : List (Database.Label SetupCall SetupDraw) :=
  .call (.bootstrap "ada" sampleSecret.text "laptop") :: setupSteps 0 8 0 0

def foundedSetup : SetupState :=
  after (Database.step (setup sampleSetup)) foundingTrace (Database.State.initial emptySetup none) (by decide)

/-- No crash tears the secret file in a run without a restart. -/
theorem whole_of_running {ls : List (Database.Label SetupCall SetupDraw)} (h : ∀ l ∈ ls, ∀ draw, l ≠ .restart draw)
    (s : SetupState) : ExecOk (Database.step (setup sampleSetup)) Whole ls s :=
  execOk_of_all (fun l hl _ draw he => absurd he (h l hl draw)) s

theorem foundedSetup_reached :
    Database.Run (setup sampleSetup) Whole (Database.State.initial emptySetup none) foundedSetup := by
  refine after_reaches _ _ (whole_of_running (fun l hl draw he => ?_) _)
  rw [he] at hl
  obtain hcall | hrun := List.mem_cons.mp hl
  · cases hcall
  · cases (List.mem_replicate.mp hrun).2

theorem foundedSetup_idle : foundedSetup.Idle := by
  intro i q pc ht
  cases i with
  | zero =>
    have hdone : (foundedSetup.tasks 0).map (fun task => task.2) =
        some (.done (.ok (.options 0 ⟨"ada",0,[]⟩))) := rfl
    rw [ht] at hdone
    cases hdone
  | succ i =>
    have hnone : foundedSetup.tasks (i + 1) = none := rfl
    rw [ht] at hnone
    cases hnone

theorem foundedSetup_challenges : foundedSetup.db.challenges =
    Function.update (fun _ => none) 0 (some ⟨.passkeyRegistration,some 0,some "laptop",300,none⟩) := rfl

/-- At the deadline of its challenge an installation with one owner and no passkey has no
way to register one: the challenge is refused, and so is every bootstrap. -/
theorem expired_challenge_strands_setup :
    Database.Run (setup sampleSetup) Whole (Database.State.initial emptySetup none) foundedSetup ∧ foundedSetup.Idle ∧
      foundedSetup.db.passkeys = [] ∧
      (∀ (c : ChallengeId) (file : SecretFile) (draw : SetupDraw), 300 ≤ draw.now →
        resumeFinish sampleSetup c file foundedSetup.db draw .registrationChallenge =
          some (SetupEffect.raise invalidChallenge file)) ∧
      ∀ t, Database.Run (setup sampleSetup) anyStep foundedSetup t → ∀ i, foundedSetup.count ≤ i →
        ∀ username secret deviceName result,
          t.tasks i ≠ some (.bootstrap username secret deviceName,.done (.ok result)) := by
  refine ⟨foundedSetup_reached,foundedSetup_idle,rfl,fun c file draw hnow => ?_,fun t ht i hi => ?_⟩
  · have hcheck : registrationChallenge sampleSetup.le? (foundedSetup.db.challenges c) draw.now = .error invalidChallenge := by
      rw [foundedSetup_challenges]
      by_cases hc : c = 0
      · simp [hc,registrationChallenge,checkChallenge,checkExpiry,sampleSetup,before?,hnow,Except.map]
      · simp [Function.update_of_ne hc,registrationChallenge,checkChallenge]
    simp only [resumeFinish, hcheck]
  · intro username secret deviceName result htask
    have hs : (setupOutline []).Holds foundedSetup :=
      (initial_holds (List.prefix_refl _)).run (setup_valid sampleSetup []) foundedSetup_reached
    obtain ⟨-,-,haway⟩ := run_turnedAway hs (by decide) hi ht
    obtain h | h | ⟨_,h⟩ := haway _ _ _ _ htask <;> cases h

/-- A bootstrap at the instant 7, and an authenticator whose first answer is not verified. -/
def retriedTrace : List (Database.Label SetupCall SetupDraw) :=
  .call (.bootstrap "ada" sampleSecret.text "laptop") :: setupSteps 0 8 0 7 ++
    [.call (.finishPasskeyRegistration 0),.run 1 ⟨20,1,sampleSecret,"session",none,false⟩]

def retriedSetup : SetupState :=
  after (Database.step (setup sampleSetup)) retriedTrace (Database.State.initial emptySetup none) (by decide)

theorem retriedSetup_challenges : retriedSetup.db.challenges =
    Function.update (fun _ => none) 0 (some ⟨.passkeyRegistration,some 0,some "laptop",307,none⟩) := rfl

theorem retriedSetup_idle : retriedSetup.Idle := by
  intro i q pc ht
  match i with
  | 0 =>
    have hdone : (retriedSetup.tasks 0).map (fun task => task.2) = some (.done (.ok (.options 0 ⟨"ada",0,[]⟩))) := rfl
    rw [ht] at hdone
    cases hdone
  | 1 =>
    have hdone : (retriedSetup.tasks 1).map (fun task => task.2) =
        some (.done (.error (.authentication "Passkey registration verification failed"))) := rfl
    rw [ht] at hdone
    cases hdone
  | i + 2 =>
    have hnone : retriedSetup.tasks (i + 2) = none := rfl
    rw [ht] at hnone
    cases hnone

theorem setup_completable_retried : ∃ user r, retriedSetup.db.Challenged user 0 r ∧
    Bootstrapped sampleSetup none retriedTrace 0 user 7 ∧ r.expiresAt = 307 := by
  have hwhole : ExecOk (Database.step (setup sampleSetup)) Whole retriedTrace (Database.State.initial emptySetup none) := by
    refine whole_of_running (fun l hl draw he => ?_) _
    rw [he] at hl
    simp [retriedTrace,setupSteps] at hl
  obtain ⟨user,-,passkey,hmem,-⟩ | ⟨user,c,r,now,hchallenged,hbootstrapped,hdeadline⟩ | ⟨hnil,-⟩ :=
    setup_completable sampleSetup presentable_none hwhole (exec_after _) retriedSetup_idle
  · cases hmem
  · have hrow : retriedSetup.db.challenges c = some r := hchallenged.row
    rw [retriedSetup_challenges] at hrow
    by_cases hc : c = 0
    · subst hc
      rw [Function.update_self] at hrow
      obtain rfl := Option.some.inj hrow
      have hsum : now + 300 = 7 + 300 := hdeadline.symm
      have hnow : now = 7 := (Int.add_left_inj 300).mp hsum
      subst hnow
      exact ⟨user,_,hchallenged,hbootstrapped,rfl⟩
    · rw [Function.update_of_ne hc] at hrow
      cases hrow
  · cases hnil

end AgentGraph.Security
