import AgentGraph.Security.Statements
import Mathlib.Data.List.Pairwise

/-! # What the requests keep

A statement of a request either leaves the database and its transaction as they are,
writes into the transaction, or ends it by a rollback or a commit. Every write keeps
the session rows and the device rows: it appends, revokes or steps up, and never
takes a revocation back.
-/
set_option autoImplicit false
namespace AgentGraph.Security
open Transition

/-- The columns of a session row that no statement changes; a revocation stays. -/
structure SessionRecord.Keeps (row row' : SessionRecord Instant) : Prop where
  id : row'.id = row.id
  userId : row'.userId = row.userId
  deviceId : row'.deviceId = row.deviceId
  tokenHash : row'.tokenHash = row.tokenHash
  expiresAt : row'.expiresAt = row.expiresAt
  revoked : row.revokedAt.isSome → row'.revokedAt.isSome

theorem SessionRecord.Keeps.refl (row : SessionRecord Instant) : row.Keeps row :=
  ⟨rfl,rfl,rfl,rfl,rfl,fun h => h⟩

theorem SessionRecord.Keeps.trans {a b c : SessionRecord Instant} (h : a.Keeps b) (h' : b.Keeps c) : a.Keeps c :=
  ⟨h'.id.trans h.id,h'.userId.trans h.userId,h'.deviceId.trans h.deviceId,h'.tokenHash.trans h.tokenHash,
    h'.expiresAt.trans h.expiresAt,h'.revoked ∘ h.revoked⟩

/-- No session row is lost and no revocation is undone. -/
structure Advances (db db' : Db) : Prop where
  sessions : ∀ row ∈ db.sessions, ∃ row' ∈ db'.sessions, row.Keeps row'
  devices : ∀ d device, db.devices d = some device →
    ∃ device', db'.devices d = some device' ∧ (device.revokedAt.isSome → device'.revokedAt.isSome)

theorem Advances.refl (db : Db) : Advances db db :=
  ⟨fun row h => ⟨row,h,.refl row⟩,fun _ device h => ⟨device,h,id⟩⟩

theorem Advances.trans {a b c : Db} (h : Advances a b) (h' : Advances b c) : Advances a c := by
  constructor
  · intro row hrow
    obtain ⟨row₁,h₁,hk₁⟩ := h.sessions row hrow
    obtain ⟨row₂,h₂,hk₂⟩ := h'.sessions row₁ h₁
    exact ⟨row₂,h₂,hk₁.trans hk₂⟩
  · intro d device hd
    obtain ⟨device₁,h₁,hr₁⟩ := h.devices d device hd
    obtain ⟨device₂,h₂,hr₂⟩ := h'.devices d device₁ h₁
    exact ⟨device₂,h₂,hr₂ ∘ hr₁⟩

/-- The unique constraints on the session table. -/
def Db.Unique (db : Db) : Prop :=
  db.sessions.Pairwise fun row row' => row.id ≠ row'.id ∧ row.tokenHash ≠ row'.tokenHash

theorem Db.Unique.eq_of {db : Db} (h : db.Unique) {row row' : SessionRecord Instant} (hr : row ∈ db.sessions)
    (hr' : row' ∈ db.sessions) (he : row.id = row'.id ∨ row.tokenHash = row'.tokenHash) : row = row' := by
  by_contra hne
  have hsymm : Std.Symm fun row row' : SessionRecord Instant => row.id ≠ row'.id ∧ row.tokenHash ≠ row'.tokenHash :=
    ⟨fun _ _ h => ⟨h.1.symm,h.2.symm⟩⟩
  have hd := List.Pairwise.forall h hr hr' hne
  exact he.elim hd.1 hd.2

theorem Db.sessionByTokenHash_mem {db : Db} {hash : String} {row : SessionRecord Instant}
    (h : db.sessionByTokenHash hash = some row) : row ∈ db.sessions ∧ row.tokenHash = hash :=
  ⟨List.mem_of_find?_eq_some h,by simpa using List.find?_some h⟩

theorem Db.session_mem {db : Db} {sid : SessionId} {row : SessionRecord Instant} (h : db.session sid = some row) :
    row ∈ db.sessions ∧ row.id = sid :=
  ⟨List.mem_of_find?_eq_some h,by simpa using List.find?_some h⟩

section Writes
variable {settings : Settings} {db db' : Db} {now : Instant}

/-- An `UPDATE` of session rows keeps them, whatever rows it hits. -/
theorem Advances.map {f : SessionRecord Instant → SessionRecord Instant} (hf : ∀ row, SessionRecord.Keeps row (f row)) :
    Advances db { db with sessions := db.sessions.map f } :=
  ⟨fun row h => ⟨f row,List.mem_map_of_mem h,hf row⟩,fun _ device h => ⟨device,h,id⟩⟩

theorem Db.Unique.map {f : SessionRecord Instant → SessionRecord Instant} (hf : ∀ row, SessionRecord.Keeps row (f row))
    (h : db.Unique) : Db.Unique { db with sessions := db.sessions.map f } := by
  unfold Db.Unique
  rw [List.pairwise_map]
  refine List.Pairwise.imp ?_ h
  intro row row' hd
  rw [(hf row).id,(hf row').id,(hf row).tokenHash,(hf row').tokenHash]
  exact hd

theorem keeps_ite {row row' : SessionRecord Instant} {p : Prop} [Decidable p] (h : row.Keeps row') :
    row.Keeps (if p then row' else row) := by
  split
  · exact h
  · exact .refl row

theorem Advances.updateDevice {d : DeviceId} {f : DeviceRecord Instant → DeviceRecord Instant}
    (hf : ∀ device, device.revokedAt.isSome → (f device).revokedAt.isSome) : Advances db (db.updateDevice d f) := by
  refine ⟨fun row h => ⟨row,h,.refl row⟩,fun e device h => ?_⟩
  unfold Db.updateDevice
  by_cases he : e = d
  · subst he
    exact ⟨f device,by simp [h],hf device⟩
  · exact ⟨device,by simpa [he] using h,id⟩

theorem insertDevice_eq {d : DeviceId} {record : DeviceRecord Instant} (h : db.insertDevice d record = some db') :
    db.devices d = none ∧ db' = { db with devices := Function.update db.devices d (some record) } := by
  unfold Db.insertDevice at h
  split at h
  · cases h
  next hd => exact ⟨by simpa using hd,(Option.some.inj h).symm⟩

theorem insertPasskey_eq {credentialId : String} {record : PasskeyRecord Instant}
    (h : db.insertPasskey credentialId record = some db') :
    db' = { db with passkeys := Function.update db.passkeys credentialId (some record) } := by
  unfold Db.insertPasskey at h
  split at h <;> cases h
  rfl

theorem upsertFactor_eq {user : UserId} {existing : Bool} {encrypted : String}
    (h : db.upsertFactor user existing encrypted = some db') :
    db' = { db with factors := Function.update db.factors user (some ⟨encrypted,none⟩) } := by
  unfold Db.upsertFactor at h
  split at h <;> cases h
  rfl

theorem insertSession_eq {record : SessionRecord Instant} (h : db.insertSession record = some db') :
    (∀ row ∈ db.sessions, row.id ≠ record.id ∧ row.tokenHash ≠ record.tokenHash) ∧
      db' = { db with sessions := db.sessions ++ [record] } := by
  unfold Db.insertSession at h
  split at h
  · cases h
  next hn =>
    refine ⟨fun row hrow => ?_,(Option.some.inj h).symm⟩
    simp only [List.any_eq_true, Bool.or_eq_true, beq_iff_eq, not_exists, not_and, not_or] at hn
    exact hn row hrow

/-- Every statement keeps the rows, and the unique constraints. -/
theorem Next.write_advances {pc : Pc} {c : Ctl} {commit : Bool} (h : Next settings db now pc c (some db') commit) :
    Advances db db' ∧ (db.Unique → db'.Unique) := by
  cases h with
  | registrationConsume | authenticationConsume | authenticationSignCount =>
    exact ⟨⟨(Advances.refl db).sessions,(Advances.refl db).devices⟩,id⟩
  | registrationLost | authenticationLost | audit => exact ⟨.refl db,id⟩
  | registrationDevice _ _ _ _ _ _ _ _ h =>
    obtain ⟨hnone,rfl⟩ := insertDevice_eq h
    refine ⟨⟨(Advances.refl db).sessions,fun e device he => ⟨device,?_,id⟩⟩,id⟩
    refine (Function.update_of_ne ?_ _ _).trans he
    rintro rfl
    rw [hnone] at he
    cases he
  | registrationPasskey _ _ _ _ _ _ _ h =>
    rw [insertPasskey_eq h]
    exact ⟨⟨(Advances.refl db).sessions,(Advances.refl db).devices⟩,id⟩
  | enrollmentWrite _ _ _ _ _ h =>
    rw [upsertFactor_eq h]
    exact ⟨⟨(Advances.refl db).sessions,(Advances.refl db).devices⟩,id⟩
  | authenticationTouch | trustWrite | renameWrite => exact ⟨.updateDevice fun _ h => h,id⟩
  | revokeWrite => exact ⟨.updateDevice fun _ _ => rfl,id⟩
  | createSession _ _ _ _ _ _ _ _ h =>
    obtain ⟨hnew,rfl⟩ := insertSession_eq h
    refine ⟨⟨fun row hrow => ⟨row,List.mem_append_left _ hrow,.refl row⟩,(Advances.refl db).devices⟩,fun hu => ?_⟩
    refine List.pairwise_append.mpr ⟨hu,List.pairwise_singleton _ _,fun row hrow row' hrow' => ?_⟩
    rw [List.mem_singleton.mp hrow']
    exact hnew row hrow
  | totpStepUp =>
    have hk (row : SessionRecord Instant) (t : Option Instant) : row.Keeps { row with stepUpAt := t } :=
      ⟨rfl,rfl,rfl,rfl,rfl,id⟩
    exact ⟨.map fun row => keeps_ite (hk row _),.map fun row => keeps_ite (hk row _)⟩
  | logoutWrite | revokeSessions =>
    have hk (row : SessionRecord Instant) (t : Instant) : row.Keeps { row with revokedAt := some t } :=
      ⟨rfl,rfl,rfl,rfl,rfl,fun _ => rfl⟩
    exact ⟨.map fun row => keeps_ite (hk row _),.map fun row => keeps_ite (hk row _)⟩

end Writes

section Transaction
variable {s s' : Server} {i j : Nat} {now : Instant} {eff : Effect}

theorem Server.pc?_eq_some {pc : Pc} : s.pc? i = some pc ↔ ∃ r, s.tasks i = some ⟨r,.at pc⟩ := by
  unfold Server.pc?
  constructor
  · intro h
    split at h <;> cases h
    next ht => exact ⟨_,ht⟩
  · rintro ⟨r,ht⟩
    rw [ht]

theorem Server.setCtl_eq {pc : Pc} {r : Request} (h : s.tasks i = some ⟨r,.at pc⟩) (c : Ctl) :
    s.setCtl i c = Function.update s.tasks i (some ⟨r,c⟩) := by
  simp only [Server.setCtl, h, Option.map_some]

theorem Server.lock_eq {w : Option Db} (h : s.lock i w = some s') :
    (w = none ∧ s' = s) ∨ ∃ db, w = some db ∧ s' = { s with writer := some i, working := db } ∧
      (s.writer = none ∨ s.writer = some i) := by
  cases w with
  | none => exact .inl ⟨rfl,(Option.some.inj h).symm⟩
  | some db =>
    refine .inr ⟨db,rfl,?_⟩
    unfold Server.lock at h
    cases hw : s.writer with
    | none =>
      simp only [hw, Option.some.injEq] at h
      exact ⟨h.symm,.inl rfl⟩
    | some k =>
      simp only [hw, Option.ite_none_right_eq_some, Option.some.injEq] at h
      obtain ⟨rfl,rfl⟩ := h
      exact ⟨by rw [← hw],.inr rfl⟩

/-- What a statement does to the database and the transaction. -/
inductive Server.Applied (s : Server) (i : Nat) (eff : Effect) (s' : Server) : Prop
  | kept (hdb : s'.db = s.db) (hw : s'.writer = s.writer) (hk : s'.working = s.working) (he : eff.write = none)
      (hn : s.writer = some i → eff.commit = false ∧ ∃ pc, eff.next = .at pc)
  | wrote (hdb : s'.db = s.db) (hw : s'.writer = some i) (he : eff.write = some s'.working)
      (hn : ∃ pc, eff.next = .at pc) (hs : s.writer = none ∨ s.writer = some i)
  | rolledBack (hdb : s'.db = s.db) (hw : s'.writer = none)
  | committed (hw : s'.writer = none) (he : eff.commit = true)
      (hdb : eff.write = some s'.db ∨ eff.write = none ∧ s.writer = some i ∧ s'.db = s.working)

theorem Server.release_writer {commit : Bool} (h : s.writer = some i) :
    s.release i commit = { s with db := if commit then s.working else s.db, writer := none } := if_pos h

theorem Server.release_other {commit : Bool} (h : s.writer ≠ some i) : s.release i commit = s := if_neg h

theorem Server.settle_cases (s : Server) (i : Nat) (eff : Effect) :
    s.settle i eff = s ∧ (s.writer = some i → eff.commit = false ∧ ∃ pc, eff.next = .at pc) ∨
      s.writer = some i ∧ s.settle i eff = { s with db := if eff.commit then s.working else s.db, writer := none } := by
  obtain ⟨next,write,commit⟩ := eff
  by_cases hw : s.writer = some i
  · cases next with
    | «at» pc =>
      cases commit with
      | false => exact .inl ⟨rfl,fun _ => ⟨rfl,pc,rfl⟩⟩
      | true => exact .inr ⟨hw,Server.release_writer hw⟩
    | done result => exact .inr ⟨hw,Server.release_writer hw⟩
  · refine .inl ⟨?_,fun h => absurd h hw⟩
    cases next with
    | «at» pc =>
      cases commit with
      | false => rfl
      | true => exact Server.release_other hw
    | done result => exact Server.release_other hw

theorem Server.apply_cases (h : s.apply i now eff = some s') :
    (s'.clock = now ∧ s'.count = s.count ∧ s'.tasks = s.setCtl i eff.next) ∧ s.Applied i eff s' := by
  unfold Server.apply at h
  rw [Option.map_eq_some_iff] at h
  obtain ⟨t,ht,rfl⟩ := h
  obtain ⟨hwrite,rfl⟩ | ⟨db,hwrite,rfl,hs⟩ := Server.lock_eq ht
  · obtain ⟨he,hn⟩ | ⟨hw,he⟩ := t.settle_cases i eff
    · rw [he]
      exact ⟨⟨rfl,rfl,rfl⟩,.kept rfl rfl rfl hwrite hn⟩
    · rw [he]
      refine ⟨⟨rfl,rfl,rfl⟩,?_⟩
      cases hc : eff.commit with
      | false => exact .rolledBack rfl rfl
      | true => exact .committed rfl hc (.inr ⟨hwrite,hw,rfl⟩)
  · obtain ⟨he,hn⟩ | ⟨-,he⟩ := Server.settle_cases { s with writer := some i, working := db } i eff
    · rw [he]
      exact ⟨⟨rfl,rfl,rfl⟩,.wrote rfl rfl hwrite (hn rfl).2 hs⟩
    · rw [he]
      refine ⟨⟨rfl,rfl,rfl⟩,?_⟩
      cases hc : eff.commit with
      | false => exact .rolledBack rfl rfl
      | true => exact .committed rfl hc (.inl hwrite)

/-- A request has arrived. -/
structure Server.Accepted (s : Server) (l : Label) (r : Request) (now : Instant) (s' : Server) : Prop where
  label : l = .request r now
  clock : s.clock ≤ now
  eq : s' = { s with
    clock := now, tasks := Function.update s.tasks s.count (some ⟨r,r.begin now⟩), count := s.count + 1 }

/-- One statement of request `i`, or its abort. -/
structure Server.Ran (settings : Settings) (s : Server) (l : Label) (i : Nat) (r : Request) (pc : Pc) (now : Instant)
    (eff : Effect) (s' : Server) : Prop where
  label : (∃ ch, l = .run i ch now) ∨ l = .abort i ∧ eff = .raise .operationalError
  task : s.tasks i = some ⟨r,.at pc⟩
  next : Next settings (s.view i) now pc eff.next eff.write eff.commit
  clock : s.clock ≤ s'.clock
  count : s'.count = s.count
  tasks : s'.tasks = Function.update s.tasks i (some ⟨r,eff.next⟩)
  applied : s.Applied i eff s'

/-- A resumed request, with the effect of its statement. -/
theorem step_run {settings : Settings} {ch : Choice} (h : step settings (.run i ch now) s = some s') :
    ∃ r pc eff, s.clock ≤ now ∧ s.tasks i = some ⟨r,.at pc⟩ ∧ resume settings (s.view i) now ch pc = some eff ∧
      s.apply i now eff = some s' := by
  simp only [step, Option.ite_none_right_eq_some] at h
  obtain ⟨hclock,h⟩ := h
  split at h
  next pc hpc =>
    obtain ⟨r,ht⟩ := Server.pc?_eq_some.mp hpc
    obtain ⟨eff,heff,ha⟩ := Option.bind_eq_some_iff.mp h
    exact ⟨r,pc,eff,hclock,ht,heff,ha⟩
  · cases h

theorem step_abort {settings : Settings} (h : step settings (.abort i) s = some s') :
    ∃ r pc, s.tasks i = some ⟨r,.at pc⟩ ∧
      s' = { s.release i false with tasks := s.setCtl i (.done (.raised .operationalError)) } := by
  simp only [step] at h
  split at h
  next pc hpc =>
    obtain ⟨r,ht⟩ := Server.pc?_eq_some.mp hpc
    exact ⟨r,pc,ht,(Option.some.inj h).symm⟩
  · cases h

theorem Server.Ran.of_run {settings : Settings} {ch : Choice} {r : Request} {pc : Pc} (hclock : s.clock ≤ now)
    (ht : s.tasks i = some ⟨r,.at pc⟩) (heff : resume settings (s.view i) now ch pc = some eff)
    (ha : s.apply i now eff = some s') : s.Ran settings (.run i ch now) i r pc now eff s' := by
  obtain ⟨⟨hc,hn,hts⟩,ha⟩ := Server.apply_cases ha
  exact ⟨.inl ⟨ch,rfl⟩,ht,resume_next heff,hc ▸ hclock,hn,hts.trans (Server.setCtl_eq ht _),ha⟩

theorem Server.Ran.of_abort {settings : Settings} {r : Request} {pc : Pc} (ht : s.tasks i = some ⟨r,.at pc⟩) :
    s.Ran settings (.abort i) i r pc s.clock (.raise .operationalError)
      { s.release i false with tasks := s.setCtl i (.done (.raised .operationalError)) } := by
  have heq := Server.setCtl_eq ht (.done (.raised .operationalError))
  by_cases hw : s.writer = some i
  · rw [Server.release_writer hw]
    exact ⟨.inr ⟨rfl,rfl⟩,ht,.raised _ _,Int.le_refl _,rfl,heq,.rolledBack rfl rfl⟩
  · rw [Server.release_other hw]
    exact ⟨.inr ⟨rfl,rfl⟩,ht,.raised _ _,Int.le_refl _,rfl,heq,.kept rfl rfl rfl rfl fun h => absurd h hw⟩

theorem step_cases {settings : Settings} {l : Label} (h : step settings l s = some s') :
    (∃ r now, s.Accepted l r now s') ∨ ∃ i r pc now eff, s.Ran settings l i r pc now eff s' := by
  cases l with
  | request r now =>
    simp only [step, Option.ite_none_right_eq_some, Option.some.injEq] at h
    exact .inl ⟨r,now,rfl,h.1,h.2.symm⟩
  | run i ch now =>
    obtain ⟨r,pc,eff,hclock,ht,heff,ha⟩ := step_run h
    exact .inr ⟨i,r,pc,now,eff,.of_run hclock ht heff ha⟩
  | abort i =>
    obtain ⟨r,pc,ht,rfl⟩ := step_abort h
    exact .inr ⟨i,r,pc,s.clock,_,.of_abort ht⟩

end Transaction

/-- The statements of `principal_from_session_token`. -/
def Pc.resolving : Pc → Bool
  | .principalSession _ _ _ | .principalUser _ _ | .principalDevice _ _ _ => true
  | _ => false

/-- Request `i` is at the last statement of `principal_from_session_token(token)`,
which returns `p`. -/
def Server.ReturnsPrincipal (s : Server) (i : Nat) (token : String) (p : SessionPrincipal) : Prop :=
  ∃ record user k k', s.tasks i = some ⟨.withSession token k,.at (.principalDevice record user k')⟩ ∧
    resolvePrincipal (s.view i) record user = .ok p

/-- The request that holds the write lock is past its session check, and its
transaction keeps what is committed. -/
structure Serving (s : Server) : Prop where
  fresh : ∀ i, s.count ≤ i → s.tasks i = none
  unique : s.db.Unique
  writing : ∀ i, s.writer = some i → ∃ r pc, s.tasks i = some ⟨r,.at pc⟩ ∧ pc.resolving = false
  working : ∀ i, s.writer = some i → Advances s.db s.working ∧ s.working.Unique

section Serving
variable {settings : Settings} {s s' : Server} {l : Label} {i : Nat} {r : Request} {pc : Pc} {now : Instant}
  {eff : Effect}

theorem Next.write_resolving {db db' : Db} {c : Ctl} {commit : Bool} (h : Next settings db now pc c (some db') commit) :
    pc.resolving = false := by
  cases h <;> rfl

theorem Next.resolving {db : Db} {pc' : Pc} {w : Option Db} {commit : Bool}
    (h : Next settings db now pc (.at pc') w commit) (hr : pc.resolving = false) : pc'.resolving = false := by
  generalize hc : Ctl.at pc' = c at h
  cases h with
  | principalSession | principalUser | principalDevice => cases hr
  | _ => cases hc <;> rfl

theorem Serving.view (hs : Serving s) (i : Nat) : Advances s.db (s.view i) ∧ (s.view i).Unique := by
  unfold Server.view
  split
  next hw => exact hs.working i hw
  · exact ⟨.refl _,hs.unique⟩

/-- A request in its session check sees what is committed. -/
theorem Serving.view_eq (hs : Serving s) (ht : s.tasks i = some ⟨r,.at pc⟩) (hp : pc.resolving = true) :
    s.view i = s.db := by
  refine if_neg fun hw => ?_
  obtain ⟨_,_,ht',hp'⟩ := hs.writing i hw
  rw [ht] at ht'
  cases ht'
  rw [hp] at hp'
  cases hp'

theorem Server.Ran.db (h : s.Ran settings l i r pc now eff s') (hs : Serving s) :
    Advances s.db s'.db ∧ s'.db.Unique := by
  have hwrite {db : Db} (he : eff.write = some db) : Advances s.db db ∧ db.Unique := by
    have hn := h.next
    rw [he] at hn
    exact ⟨(hs.view i).1.trans hn.write_advances.1,hn.write_advances.2 (hs.view i).2⟩
  cases h.applied with
  | kept hdb | wrote hdb | rolledBack hdb =>
    rw [hdb]
    exact ⟨.refl _,hs.unique⟩
  | committed _ _ hdb =>
    obtain he | ⟨-,hw,hdb⟩ := hdb
    · exact hwrite he
    · rw [hdb]
      exact hs.working i hw

theorem Server.Ran.serving (h : s.Ran settings l i r pc now eff s') (hs : Serving s) : Serving s' := by
  refine ⟨fun j hj => ?_,(h.db hs).2,?_,?_⟩
  · rw [h.count] at hj
    rw [h.tasks,Function.update_of_ne]
    · exact hs.fresh j hj
    · rintro rfl
      have ht := h.task
      rw [hs.fresh _ hj] at ht
      cases ht
  · intro j hj
    cases h.applied with
    | kept _ hw _ _ hn =>
      rw [hw] at hj
      rw [h.tasks]
      by_cases hij : j = i
      · subst hij
        obtain ⟨-,pc',hpc'⟩ := hn hj
        obtain ⟨_,_,ht,hr⟩ := hs.writing j hj
        rw [h.task] at ht
        cases ht
        rw [Function.update_self,hpc']
        have hnext := h.next
        rw [hpc'] at hnext
        exact ⟨r,pc',rfl,hnext.resolving hr⟩
      · rw [Function.update_of_ne hij]
        exact hs.writing j hj
    | wrote _ hw he hn =>
      rw [hw] at hj
      cases hj
      obtain ⟨pc',hpc'⟩ := hn
      rw [h.tasks,Function.update_self,hpc']
      have hnext := h.next
      rw [he] at hnext
      have hr := hnext.write_resolving
      rw [hpc'] at hnext
      exact ⟨r,pc',rfl,hnext.resolving hr⟩
    | rolledBack _ hw | committed hw =>
      rw [hw] at hj
      cases hj
  · intro j hj
    cases h.applied with
    | kept hdb hw hk =>
      rw [hw] at hj
      rw [hdb,hk]
      exact hs.working j hj
    | wrote hdb _ he =>
      rw [hdb]
      have hn := h.next
      rw [he] at hn
      exact ⟨(hs.view i).1.trans hn.write_advances.1,hn.write_advances.2 (hs.view i).2⟩
    | rolledBack _ hw | committed hw =>
      rw [hw] at hj
      cases hj

theorem Server.Ran.task_cases (h : s.Ran settings l i r pc now eff s') {j : Nat} {t : Task}
    (ht : s'.tasks j = some t) : j = i ∧ t = ⟨r,eff.next⟩ ∨ j ≠ i ∧ s.tasks j = some t := by
  rw [h.tasks] at ht
  by_cases hj : j = i
  · subst hj
    rw [Function.update_self] at ht
    exact .inl ⟨rfl,(Option.some.inj ht).symm⟩
  · rw [Function.update_of_ne hj] at ht
    exact .inr ⟨hj,ht⟩

theorem Server.Accepted.task_cases (h : s.Accepted l r now s') {j : Nat} {t : Task} (ht : s'.tasks j = some t) :
    j = s.count ∧ t = ⟨r,r.begin now⟩ ∨ s.tasks j = some t := by
  rw [h.eq] at ht
  by_cases hj : j = s.count
  · subst hj
    exact .inl ⟨rfl,Option.some.inj (ht.symm.trans (Function.update_self _ _ _))⟩
  · exact .inr ((Function.update_of_ne hj _ _).symm.trans ht)

theorem Server.Accepted.keeps_task (h : s.Accepted l r now s') (hs : Serving s) {j : Nat} {t : Task}
    (ht : s.tasks j = some t) : s'.tasks j = some t := by
  rw [h.eq]
  refine (Function.update_of_ne ?_ _ _).trans ht
  rintro rfl
  rw [hs.fresh _ (Nat.le_refl _)] at ht
  cases ht

theorem Server.Accepted.serving (h : s.Accepted l r now s') (hs : Serving s) : Serving s' := by
  refine ⟨fun j hj => ?_,?_,fun j hj => ?_,fun j hj => ?_⟩
  · rw [h.eq] at hj ⊢
    have hj : s.count + 1 ≤ j := hj
    exact (Function.update_of_ne (by omega) _ _).trans (hs.fresh j (by omega))
  · rw [h.eq]
    exact hs.unique
  · rw [h.eq] at hj
    obtain ⟨r',pc,ht,hp⟩ := hs.writing j hj
    exact ⟨r',pc,h.keeps_task hs ht,hp⟩
  · rw [h.eq] at hj ⊢
    exact hs.working j hj

theorem step_serving (hs : Serving s) (h : step settings l s = some s') :
    Serving s' ∧ Advances s.db s'.db ∧ s.clock ≤ s'.clock ∧ s.count ≤ s'.count := by
  obtain ⟨r,now,h⟩ | ⟨i,r,pc,now,eff,h⟩ := step_cases h
  · refine ⟨h.serving hs,?_⟩
    rw [h.eq]
    exact ⟨.refl _,h.clock,Nat.le_succ _⟩
  · exact ⟨h.serving hs,(h.db hs).1,h.clock,Nat.le_of_eq h.count.symm⟩

variable {ok : Label → Server → Prop}

theorem Run.serving (hs : Serving s) (h : Run settings ok s s') :
    Serving s' ∧ Advances s.db s'.db ∧ s.clock ≤ s'.clock ∧ s.count ≤ s'.count := by
  refine Reaches.invariant (I := fun t => Serving t ∧ Advances s.db t.db ∧ s.clock ≤ t.clock ∧ s.count ≤ t.count)
    (fun l t t' ht _ hstep => ?_) h ⟨hs,.refl _,Int.le_refl _,Nat.le_refl _⟩
  obtain ⟨ht,ha,hc,hn⟩ := ht
  obtain ⟨ht',ha',hc',hn'⟩ := step_serving ht hstep
  exact ⟨ht',ha.trans ha',Int.le_trans hc hc',Nat.le_trans hn hn'⟩

theorem initial_serving {db : Db} (clock : Instant) (h : db.Unique) : Serving (initial db clock) :=
  ⟨fun _ _ => rfl,h,fun _ hw => (nomatch hw),fun _ hw => (nomatch hw)⟩

end Serving

/-- A code is valid for the secret it equals, and secrets are stored as they are. -/
def sampleSettings : Settings := ⟨3600,id,fun secret code _ => code == secret,fun secret _ => secret,some⟩

/-- Request `i` executes `n` statements that draw nothing. -/
def resumeTimes (i n : Nat) (now : Instant) : List Label := List.replicate n (.run i .resume now)

end AgentGraph.Security
