import AgentGraph.Vision.Assets

/-! # The rows of the assets

What a statement does to the rows and to the files, by the call it belongs to. A row comes
from an upload, and has an identifier that no other row had.
-/
set_option autoImplicit false
namespace AgentGraph.Vision
open Transition Database.Outline
open Database hiding Effect Ctl Label step Run

abbrev VisionState := Database.State VisionDb VisionStore VisionCall VisionPc VisionResult

/-- What a call has done in its transaction. -/
def VisionPc.Writes (settings : VisionSettings) (db working : VisionDb) : VisionPc → Prop
  | .assetCommit image record => working = db ++ [record] ∧ ∃ id, record = image.record settings id
  | .deleteCommit record => working = db.delete record.id
  | _ => False

/-- Outside their transactions the calls rely on nothing. -/
def VisionPc.Reads : VisionPc → Prop
  | .assetCommit _ _ | .deleteCommit _ => False
  | _ => True

def visionOutline (settings : VisionSettings) : Database.Outline VisionDb VisionStore VisionCall VisionPc VisionResult where
  world := fun _ _ => True
  rely := fun _ _ _ _ => True
  reading := fun _ _ _ _ pc => pc.Reads
  writing := fun _ _ _ db working pc => pc.Writes settings db working
  ended := fun _ _ _ _ _ => True

theorem VisionDb.insert_eq {db db' : VisionDb} {record : VisionAssetRecord} (h : db.insert record = some db') :
    db' = db ++ [record] ∧
      ∀ r ∈ db, r.id ≠ record.id ∧ r.sha256 ≠ record.sha256 ∧ r.storageLocator ≠ record.storageLocator := by
  unfold VisionDb.insert at h
  split at h <;> cases h
  next hnew =>
    refine ⟨rfl,fun r hr => ?_⟩
    simp only [List.any_eq_true, Bool.or_eq_true, beq_iff_eq, not_exists, not_and, not_or, or_assoc] at hnew
    exact hnew r hr

/-! ## What the calls hold -/

namespace VisionPc

/-- The file whose row the call is about to insert. -/
def creates? (settings : VisionSettings) : VisionPc → Option String
  | .assetWrite image _ | .assetInsert image | .assetCommit image _ => some (image.locator settings)
  | _ => none

/-- The file that the call is about to remove. -/
def removes? : VisionPc → Option String
  | .deleteExists locator | .deleteUnlink locator => some locator
  | _ => none

/-- The row that the call holds. -/
def held? : VisionPc → Option VisionAssetRecord
  | .assetCommit _ record | .deleteRead record | .deleteRow record | .deleteCommit record => some record
  | _ => none

/-- The upload that the call has not inserted yet. -/
def image? : VisionPc → Option Image
  | .assetSelect image | .assetCreate image | .assetWrite image _ | .assetInsert image => some image
  | _ => none

/-- No thread creates or writes a file that no call waits for. -/
def Attended : VisionPc → Prop
  | .threadRun (.create _ _) | .threadRun (.write _ _ _) => False
  | _ => True

end VisionPc

/-- Call `i` is at `pc`. -/
def At (s : VisionState) (i : ℕ) (pc : VisionPc) : Prop := ∃ q, s.tasks i = some (q,.at pc)

/-- A row that is committed, or that a call holds. -/
def Known (s : VisionState) (r : VisionAssetRecord) : Prop := r ∈ s.db ∨ ∃ i pc, At s i pc ∧ pc.held? = some r

/-- The rows have identifiers of their own, and come from uploads. -/
structure Issued (settings : VisionSettings) (s : VisionState) : Prop where
  issued : ∀ r, Known s r → r.id < s.outside.nextId ∧ ∃ image : Image, r = image.record settings r.id
  unique : ∀ r r', Known s r → Known s r' → r.id = r'.id → r = r'

/-- What a statement does outside a transaction, or with the transaction of the call. -/
inductive Acts (settings : VisionSettings) (o : VisionStore) (db : VisionDb) (pc : VisionPc) : VisionEffect → Prop
  | ended (result : VisionResult) (creates : pc.creates? settings = none)
      (removes : ∀ locator, pc.removes? = some locator → o.files locator = none) : Acts settings o db pc ⟨.done result,.keep,o⟩
  | moved (pc' : VisionPc) (creates : pc.creates? settings = none) (creates' : pc'.creates? settings = none)
      (reads : pc'.Reads) (removes : ∀ locator, pc.removes? = some locator → pc'.removes? = some locator)
      (held : ∀ r, pc'.held? = some r → r ∈ db ∨ pc.held? = some r)
      (images : ∀ image, pc'.image? = some image → pc.image? = some image) (attended : pc'.Attended) :
      Acts settings o db pc ⟨.at pc',.keep,o⟩
  | created (image : Image) (here : pc = .assetCreate image) (fresh : o.files (image.locator settings) = none) :
      Acts settings o db pc ⟨.at (.assetWrite image o.nextInode),.keep,{ o with
        files := Function.update o.files (image.locator settings) (some ⟨o.nextInode,[]⟩)
        nextInode := o.nextInode + 1 }⟩
  | written (image : Image) (inode : ℕ) (here : pc = .assetWrite image inode) :
      Acts settings o db pc ⟨.at (.assetInsert image),.keep,o.write (image.locator settings) inode image.data⟩
  | inserted (image : Image) (here : pc = .assetInsert image) (db' : VisionDb)
      (insert : db.insert (image.record settings o.nextId) = some db') :
      Acts settings o db pc ⟨.at (.assetCommit image (image.record settings o.nextId)),.write db',
        { o with nextId := o.nextId + 1 }⟩
  | refused (image : Image) (here : pc = .assetInsert image) (insert : db.insert (image.record settings o.nextId) = none) :
      Acts settings o db pc ⟨.done (.error .integrityError),.write db,{ o with nextId := o.nextId + 1 }⟩
  | committed (image : Image) (record : VisionAssetRecord) (here : pc = .assetCommit image record) :
      Acts settings o db pc ⟨.at (.assetRefresh record),.commit,o⟩
  | dropped (record : VisionAssetRecord) (here : pc = .deleteRow record) :
      Acts settings o db pc ⟨.at (.deleteCommit record),.write (db.delete record.id),o⟩
  | deleted (record : VisionAssetRecord) (here : pc = .deleteCommit record) :
      Acts settings o db pc ⟨.at (.deleteExists record.storageLocator),.commit,o⟩
  | taken (n : ℕ) (job : FileJob) (here : pc = .threadTake) (waits : o.jobs[n]? = some job) :
      Acts settings o db pc ⟨.at (.threadRun job),.keep,{ o with jobs := o.jobs.eraseIdx n }⟩
  | forgotten (n : ℕ) (here : pc = .dropTake) : Acts settings o db pc ⟨.done (.ok .none),.keep,{ o with jobs := o.jobs.eraseIdx n }⟩
  | unlinked (locator : String) (here : pc = .deleteUnlink locator ∨ pc = .threadRun (.unlink locator)) :
      Acts settings o db pc ⟨.done (.ok .none),.keep,{ o with files := Function.update o.files locator none }⟩
  | unattended (here : ¬ pc.Attended) (e : VisionEffect) (action : e.action = .keep)
      (held : ∀ pc', e.next = .at pc' → pc'.held? = none)
      (images : ∀ pc', e.next = .at pc' → pc'.image? = none) (nextId : e.outside.nextId = o.nextId) : Acts settings o db pc e

section Statements
variable {settings : VisionSettings} {o : VisionStore} {db : VisionDb} {q : VisionCall} {pc : VisionPc} {n : ℕ}
  {e : VisionEffect} {r : VisionAssetRecord}

theorem VisionDb.asset_mem {id : AssetId} (h : db.asset id = some r) : r ∈ db ∧ r.id = id :=
  ⟨List.mem_of_find?_eq_some h,by simpa using List.find?_some h⟩

theorem VisionStore.create_eq {locator : String} {inode : ℕ} {o' : VisionStore} (h : o.create locator = some (inode,o')) :
    o.files locator = none ∧ inode = o.nextInode ∧ o' = { o with
      files := Function.update o.files locator (some ⟨o.nextInode,[]⟩), nextInode := o.nextInode + 1 } := by
  unfold VisionStore.create at h
  split at h <;> cases h
  next hnone => exact ⟨by simpa using hnone,rfl,rfl⟩

theorem VisionStore.unlink_eq {locator : String} {o' : VisionStore} (h : o.unlink locator = some o') :
    o' = { o with files := Function.update o.files locator none } := by
  unfold VisionStore.unlink at h
  split at h <;> cases h
  rfl

theorem VisionStore.unlink_eq_none {locator : String} (h : o.unlink locator = none) : o.files locator = none := by
  unfold VisionStore.unlink at h
  split at h
  · cases h
  next hnone => simpa using hnone

theorem resumeCreate_acts (he : resumeCreate settings o db pc = some e) : Acts settings o db pc e := by
  cases pc <;> simp only [resumeCreate, reduceCtorEq] at he
  case assetSelect image =>
    split at he <;> cases he
    · exact .ended _ rfl (by simp [VisionPc.removes?])
    · exact .moved _ rfl rfl trivial (by simp [VisionPc.removes?]) (by simp [VisionPc.held?]) (fun _ h => h) trivial
  case assetCreate image =>
    split at he <;> cases he
    · exact .ended _ rfl (by simp [VisionPc.removes?])
    next hc =>
      obtain ⟨hfresh,rfl,rfl⟩ := VisionStore.create_eq hc
      exact .created image rfl hfresh
  case assetWrite image inode =>
    cases he
    exact .written image inode rfl
  case assetInsert image =>
    split at he <;> cases he
    next hi => exact .refused image rfl hi
    next db' hi => exact .inserted image rfl db' hi
  case assetCommit image record =>
    cases he
    exact .committed image record rfl
  case assetRefresh record =>
    split at he <;> cases he
    · exact .ended _ rfl (by simp [VisionPc.removes?])
    · exact .moved _ rfl rfl trivial (by simp [VisionPc.removes?]) (by simp [VisionPc.held?]) (by simp [VisionPc.image?]) trivial
  case assetPublish record =>
    cases he
    exact .ended _ rfl (by simp [VisionPc.removes?])

theorem resumeDelete_acts {assetId : AssetId} (he : resumeDelete o db assetId pc = some e) : Acts settings o db pc e := by
  cases pc <;> simp only [resumeDelete, reduceCtorEq] at he
  case deleteGet =>
    split at he <;> cases he
    · exact .ended _ rfl (by simp [VisionPc.removes?])
    next record hr =>
      refine .moved _ rfl rfl trivial (by simp [VisionPc.removes?]) (fun r hr' => ?_) (by simp [VisionPc.image?]) trivial
      cases hr'
      exact .inl (VisionDb.asset_mem hr).1
  case deleteRead record =>
    split at he <;> cases he
    · exact .moved _ rfl rfl trivial (by simp [VisionPc.removes?]) (by simp [VisionPc.held?]) (by simp [VisionPc.image?]) trivial
    · exact .moved _ rfl rfl trivial (by simp [VisionPc.removes?]) (by simp [VisionPc.held?]) (by simp [VisionPc.image?]) trivial
  case deleteRow record =>
    cases he
    exact .dropped record rfl
  case deleteCommit record =>
    cases he
    exact .deleted record rfl
  case deleteExists locator =>
    split at he <;> cases he
    · exact .moved _ rfl rfl trivial (by simp [VisionPc.removes?]) (by simp [VisionPc.held?]) (by simp [VisionPc.image?]) trivial
    next hnone =>
      refine .ended _ rfl fun other hother => ?_
      cases hother
      simpa using hnone
  case deleteUnlink locator =>
    split at he <;> cases he
    next hnone =>
      refine .ended _ rfl fun other hother => ?_
      cases hother
      exact VisionStore.unlink_eq_none hnone
    next o' ho =>
      obtain rfl := VisionStore.unlink_eq ho
      exact .unlinked locator (.inl rfl)

theorem resumeThread_acts (he : resumeThread o n pc = some e) : Acts settings o db pc e := by
  cases pc <;> simp only [resumeThread, reduceCtorEq] at he
  case threadTake =>
    obtain ⟨job,hjob,rfl⟩ := Option.map_eq_some_iff.mp he
    exact .taken n job rfl hjob
  case threadRun job =>
    cases job with
    | create locator data =>
      simp only at he
      split at he <;> cases he
      · exact .unattended (by simp [VisionPc.Attended]) _ rfl (by simp [VisionEffect.raise]) (by simp [VisionEffect.raise]) rfl
      next hc =>
        obtain ⟨-,rfl,rfl⟩ := VisionStore.create_eq hc
        exact .unattended (by simp [VisionPc.Attended]) _ rfl (by simp [VisionEffect.goto,VisionPc.held?])
          (by simp [VisionEffect.goto,VisionPc.image?]) rfl
    | write locator inode data =>
      cases he
      refine .unattended (by simp [VisionPc.Attended]) _ rfl (by simp [VisionEffect.ret]) (by simp [VisionEffect.ret]) ?_
      show (VisionStore.write _ _ _ _).nextId = _
      unfold VisionStore.write
      split
      · split <;> rfl
      · rfl
    | unlink locator =>
      simp only at he
      split at he <;> cases he
      next hnone => exact .ended _ rfl (by simp [VisionPc.removes?])
      next o' ho =>
        obtain rfl := VisionStore.unlink_eq ho
        exact .unlinked locator (.inr rfl)

theorem resumeDrop_acts (he : resumeDrop o n pc = some e) : Acts settings o db pc e := by
  cases pc <;> simp only [resumeDrop, reduceCtorEq] at he
  case dropTake =>
    split at he <;> cases he
    · exact .forgotten n rfl
    · exact .forgotten n rfl

theorem resume_acts (he : q.resume settings o db n pc = some e) : Acts settings o db pc e := by
  cases q with
  | createAsset _ _ _ _ => exact resumeCreate_acts he
  | deleteAsset _ => exact resumeDelete_acts he
  | thread => exact resumeThread_acts he
  | drop => exact resumeDrop_acts he

/-- Outside a transaction a statement keeps the outline. -/
theorem Acts.meets {i : ℕ} (h : Acts settings o db pc e) (hr : pc.Reads) :
    (visionOutline settings).Meets i q o db db VisionPc.Reads e := by
  cases h with
  | ended result creates removes => exact Meets.finish (by simp) trivial trivial trivial
  | moved pc' creates creates' reads removes held images attended => exact Meets.goto trivial trivial reads
  | created image here fresh => exact Meets.goto trivial trivial trivial
  | written image inode here => exact Meets.goto trivial trivial trivial
  | inserted image here db' insert => exact Meets.write trivial trivial ⟨(VisionDb.insert_eq insert).1,_,rfl⟩
  | refused image here insert => exact Meets.finish (by simp) trivial trivial trivial
  | committed image record here =>
    subst here
    exact hr.elim
  | dropped record here => exact Meets.write trivial trivial rfl
  | deleted record here =>
    subst here
    exact hr.elim
  | taken n job here waits => exact Meets.goto trivial trivial trivial
  | forgotten n here => exact Meets.finish (by simp) trivial trivial trivial
  | unlinked locator here => exact Meets.finish (by simp) trivial trivial trivial
  | unattended here _ action held images nextId =>
    obtain ⟨next,act,o'⟩ := e
    obtain rfl : act = .keep := action
    cases next with
    | «at» pc' =>
      have hnone : pc'.held? = none := held pc' rfl
      refine Meets.goto trivial trivial ?_
      cases pc' with
      | assetCommit | deleteCommit => cases hnone
      | _ => exact trivial
    | done result => exact Meets.finish (by simp) trivial trivial trivial

theorem vision_valid (settings : VisionSettings) : (visionOutline settings).Valid (vision settings) where
  reading_stable := fun _ _ _ _ _ _ _ _ h => h
  writing_stable := fun _ _ _ _ _ _ _ _ h => h
  ended_stable := fun _ _ _ _ _ _ _ _ _ => trivial
  begin := by
    rintro i q o db -
    refine ⟨fun pc hpc => ?_,fun _ _ => trivial⟩
    cases q with
    | createAsset filename declaredMime data sourceType =>
      simp only [vision, VisionCall.begin] at hpc
      split at hpc <;> cases hpc
      exact trivial
    | deleteAsset assetId =>
      simp only [vision, VisionCall.begin] at hpc
      split at hpc <;> cases hpc
      exact trivial
    | thread | drop =>
      cases hpc
      exact trivial
  read := by
    intro i q o db pc n e _ h he
    exact (resume_acts he).meets h
  write := by
    intro i q o db working pc n e _ h he
    cases pc with
    | assetCommit image record =>
      cases q <;> cases he
      exact Meets.release (.inl rfl) trivial trivial trivial
    | deleteCommit record =>
      cases q <;> cases he
      exact Meets.release (.inl rfl) trivial trivial trivial
    | _ => exact h.elim
  abandon := fun _ _ _ _ _ _ _ => Meets.finish (by simp) trivial trivial trivial
  restart := fun _ _ _ _ => trivial

end Statements

section Files
variable {settings : VisionSettings} {s t : VisionState} {l : Database.Label VisionCall ℕ} {i j n : ℕ} {q : VisionCall}
  {pc pc' : VisionPc} {e : VisionEffect} {locator : String} {r : VisionAssetRecord}

theorem ran_at (h : Ran (vision settings) s l i q pc e t) (hat : At t j pc') :
    j = i ∧ e.next = .at pc' ∨ j ≠ i ∧ At s j pc' := by
  obtain ⟨q',hq⟩ := hat
  obtain ⟨rfl,hx⟩ | ⟨hj,hq⟩ := h.task_cases hq
  · exact .inl ⟨rfl,(Prod.mk.inj hx).2.symm⟩
  · exact .inr ⟨hj,q',hq⟩

theorem ran_other (h : Ran (vision settings) s l i q pc e t) (hj : j ≠ i) (hat : At s j pc') : At t j pc' := by
  obtain ⟨q',hq⟩ := hat
  refine ⟨q',?_⟩
  rw [h.tasks,Function.update_of_ne hj]
  exact hq

theorem ran_next (h : Ran (vision settings) s l i q pc e t) (hnext : e.next = .at pc') : At t i pc' := by
  refine ⟨q,?_⟩
  rw [h.tasks,Function.update_self,hnext]

theorem at_unique (h : At s i pc) (h' : At s i pc') : pc = pc' := by
  obtain ⟨q,hq⟩ := h
  obtain ⟨q',hq'⟩ := h'
  obtain ⟨-,hpc⟩ := Prod.mk.inj (Option.some.inj (hq.symm.trans hq'))
  cases hpc
  rfl

/-- What is known after a statement that shows no new row. -/
theorem known_ran (h : Ran (vision settings) s l i q pc e t) (hdb : ∀ r ∈ t.db, Known s r)
    (hheld : ∀ pc', e.next = .at pc' → ∀ r, pc'.held? = some r → Known s r) (hr : Known t r) : Known s r := by
  obtain hr | ⟨j,pc',hat,hr⟩ := hr
  · exact hdb r hr
  · obtain ⟨-,hnext⟩ | ⟨-,hat⟩ := ran_at h hat
    · exact hheld pc' hnext r hr
    · exact .inr ⟨j,pc',hat,hr⟩

theorem Issued.ran_of (hs : Issued settings s) (h : Ran (vision settings) s l i q pc e t) (hdb : ∀ r ∈ t.db, Known s r)
    (hheld : ∀ pc', e.next = .at pc' → ∀ r, pc'.held? = some r → Known s r)
    (hid : s.outside.nextId ≤ e.outside.nextId) : Issued settings t := by
  have hk {r : VisionAssetRecord} (hr : Known t r) : Known s r := known_ran h hdb hheld hr
  refine ⟨fun r hr => ?_,fun r r' hr hr' => hs.unique r r' (hk hr) (hk hr')⟩
  obtain ⟨hlt,himage⟩ := hs.issued r (hk hr)
  rw [h.outside]
  exact ⟨Nat.lt_of_lt_of_le hlt hid,himage⟩

/-- The transaction of a call that commits. -/
theorem commit_view (hs : (visionOutline settings).Holds s) (ht : s.tasks i = some (q,.at pc)) (hr : ¬ pc.Reads) :
    pc.Writes settings s.db (s.view i) := by
  obtain ⟨-,hview,hwrites⟩ | ⟨-,-,hreads⟩ := hs.seen ht
  · rw [hview]
    exact hwrites
  · exact absurd hreads hr

/-- A call that is not about to commit sees what is committed. -/
theorem read_view (hs : (visionOutline settings).Holds s) (ht : s.tasks i = some (q,.at pc)) (hr : pc.Reads) :
    s.view i = s.db := by
  obtain ⟨-,-,hwrites⟩ | ⟨-,hview,-⟩ := hs.seen ht
  · cases pc with
    | assetCommit | deleteCommit => exact hr.elim
    | _ => exact hwrites.elim
  · exact hview

theorem ran_acts (hs : (visionOutline settings).Holds s) (h : Ran (vision settings) s l i q pc e t) :
    (∃ n, l = .run i n) ∧ Acts settings s.outside s.db pc e ∨
      l = .abort i ∧ e = (vision settings).abandoned q s.outside pc := by
  obtain ⟨n,hl,he⟩ | hl := h.label
  · refine .inl ⟨⟨n,hl⟩,?_⟩
    by_cases hr : pc.Reads
    · rw [read_view hs h.task hr] at he
      exact resume_acts he
    · cases pc with
      | assetCommit image record =>
        cases q <;> cases he
        exact .committed image record rfl
      | deleteCommit record =>
        cases q <;> cases he
        exact .deleted record rfl
      | _ => exact absurd trivial hr
  · exact .inr hl

theorem write_nextId (o : VisionStore) (locator : String) (inode : ℕ) (data : Bytes) :
    (o.write locator inode data).nextId = o.nextId := by
  unfold VisionStore.write
  split
  · split <;> rfl
  · rfl

theorem Issued.ran (hv : (visionOutline settings).Holds s) (hs : Issued settings s)
    (h : Ran (vision settings) s l i q pc e t) : Issued settings t := by
  have hat : At s i pc := ⟨q,h.task⟩
  have hsame (ha : e.action ≠ .commit) : ∀ r ∈ t.db, Known s r := by
    intro r hr
    rw [h.db_kept ha] at hr
    exact .inl hr
  obtain ⟨-,hacts⟩ | ⟨-,rfl⟩ := ran_acts hv h
  · cases hacts with
    | ended result creates removes => exact hs.ran_of h (hsame (by simp)) (fun _ hn => by cases hn) (Nat.le_refl _)
    | moved pc' creates creates' reads removes held images attended =>
      refine hs.ran_of h (hsame (by simp)) (fun pc'' hn r hr => ?_) (Nat.le_refl _)
      cases hn
      exact (held r hr).imp id fun hheld => ⟨i,pc,hat,hheld⟩
    | created image here fresh =>
      refine hs.ran_of h (hsame (by simp)) (fun pc' hn r hr => ?_) (Nat.le_refl _)
      cases hn
      cases hr
    | written image inode here =>
      refine hs.ran_of h (hsame (by simp)) (fun pc' hn r hr => ?_) (Nat.le_of_eq (write_nextId _ _ _ _).symm)
      cases hn
      cases hr
    | inserted image here db' insert =>
      -- the new row has an identifier that no other has
      have hknown {r : VisionAssetRecord} (hr : Known t r) : Known s r ∨ r = image.record settings s.outside.nextId := by
        obtain hr | ⟨j,pc',hat',hr⟩ := hr
        · exact .inl (hsame (by simp) r hr)
        · obtain ⟨-,hn⟩ | ⟨-,hat'⟩ := ran_at h hat'
          · cases hn
            cases hr
            exact .inr rfl
          · exact .inl (.inr ⟨j,pc',hat',hr⟩)
      have hid : t.outside.nextId = s.outside.nextId + 1 := by rw [h.outside]
      refine ⟨fun r hr => ?_,fun r r' hr hr' he => ?_⟩
      · rw [hid]
        obtain hr | rfl := hknown hr
        · obtain ⟨hlt,himage⟩ := hs.issued r hr
          exact ⟨Nat.lt_succ_of_lt hlt,himage⟩
        · exact ⟨Nat.lt_succ_self _,image,rfl⟩
      · obtain hr | rfl := hknown hr
        · obtain hr' | rfl := hknown hr'
          · exact hs.unique r r' hr hr' he
          · exact absurd he (Nat.ne_of_lt (hs.issued r hr).1)
        · obtain hr' | rfl := hknown hr'
          · exact absurd he.symm (Nat.ne_of_lt (hs.issued r' hr').1)
          · rfl
    | refused image here insert =>
      exact hs.ran_of h (hsame (by simp)) (fun _ hn => by cases hn) (Nat.le_succ _)
    | committed image record here =>
      subst here
      obtain ⟨hview,-⟩ := commit_view hv h.task fun hr => hr
      refine hs.ran_of h (fun r hr => ?_) (fun pc' hn r hr => ?_) (Nat.le_refl _)
      · rw [h.db] at hr
        have hr : r ∈ s.view i := hr
        rw [hview] at hr
        obtain hr | hr := List.mem_append.mp hr
        · exact .inl hr
        · rw [List.mem_singleton.mp hr]
          exact .inr ⟨i,_,hat,rfl⟩
      · cases hn
        cases hr
    | dropped record here =>
      subst here
      refine hs.ran_of h (hsame (by simp)) (fun pc' hn r hr => ?_) (Nat.le_refl _)
      cases hn
      exact .inr ⟨i,_,hat,hr⟩
    | deleted record here =>
      subst here
      have hview := commit_view hv h.task fun hr => hr
      refine hs.ran_of h (fun r hr => ?_) (fun pc' hn r hr => ?_) (Nat.le_refl _)
      · rw [h.db] at hr
        have hr : r ∈ s.view i := hr
        rw [hview] at hr
        exact .inl (List.mem_filter.mp hr).1
      · cases hn
        cases hr
    | taken n job here waits =>
      refine hs.ran_of h (hsame (by simp)) (fun pc' hn r hr => ?_) (Nat.le_refl _)
      cases hn
      cases hr
    | forgotten n here => exact hs.ran_of h (hsame (by simp)) (fun _ hn => by cases hn) (Nat.le_refl _)
    | unlinked locator here => exact hs.ran_of h (hsame (by simp)) (fun _ hn => by cases hn) (Nat.le_refl _)
    | unattended here _ action held images nextId =>
      refine hs.ran_of h (hsame (by simp [action])) (fun pc' hn r hr => ?_) (Nat.le_of_eq nextId.symm)
      rw [held pc' hn] at hr
      cases hr
  · refine hs.ran_of h (hsame (by simp [Program.abandoned])) (fun _ hn => by cases hn) ?_
    show _ ≤ ((pc.job? settings).elim s.outside s.outside.leave).nextId
    cases pc.job? settings <;> exact Nat.le_refl _

theorem begin_cases (settings : VisionSettings) (q : VisionCall) :
    (∃ result, q.begin settings = .done result) ∨ ∃ pc, q.begin settings = .at pc ∧ pc.creates? settings = none ∧
      pc.removes? = none ∧ pc.held? = none ∧ pc.Attended := by
  cases q with
  | createAsset filename declaredMime data sourceType =>
    simp only [VisionCall.begin]
    split
    · exact .inl ⟨_,rfl⟩
    · exact .inr ⟨_,rfl,rfl,rfl,rfl,trivial⟩
  | deleteAsset assetId =>
    simp only [VisionCall.begin]
    split
    · exact .inr ⟨_,rfl,rfl,rfl,rfl,trivial⟩
    · exact .inl ⟨_,rfl⟩
  | thread | drop => exact .inr ⟨_,rfl,rfl,rfl,rfl,trivial⟩

/-- What a call shows that has just been accepted. -/
theorem at_called {s' : VisionState} {q : VisionCall} (htasks : s'.tasks = Function.update s.tasks s.count (some (q,q.begin settings)))
    (hat : At s' i pc) : At s i pc ∨ i = s.count ∧ pc.creates? settings = none ∧ pc.removes? = none ∧ pc.held? = none ∧ pc.Attended := by
  obtain ⟨q',hq⟩ := hat
  rw [htasks] at hq
  obtain ⟨rfl,hx⟩ | ⟨-,hq⟩ := Database.update_cases hq
  · obtain ⟨rfl,hbegin⟩ := Prod.mk.inj hx
    obtain ⟨result,hb⟩ | ⟨pc',hb,hrest⟩ := begin_cases settings q'
    · rw [hb] at hbegin
      cases hbegin
    · rw [hb] at hbegin
      cases hbegin
      exact .inr ⟨rfl,hrest⟩
  · exact .inl ⟨q',hq⟩

theorem Issued.called (hs : Issued settings s) {s' : VisionState} {q : VisionCall} (hdb : s'.db = s.db)
    (ho : s'.outside = s.outside) (htasks : s'.tasks = Function.update s.tasks s.count (some (q,q.begin settings))) :
    Issued settings s' := by
  have hk {r : VisionAssetRecord} (hr : Known s' r) : Known s r := by
    obtain hr | ⟨i,pc,hat,hr⟩ := hr
    · exact .inl (hdb ▸ hr)
    · obtain hat | ⟨-,-,-,hheld,-⟩ := at_called htasks hat
      · exact .inr ⟨i,pc,hat,hr⟩
      · rw [hheld] at hr
        cases hr
  refine ⟨fun r hr => ?_,fun r r' hr hr' => hs.unique r r' (hk hr) (hk hr')⟩
  rw [ho]
  exact hs.issued r (hk hr)

/-- After a restart no call holds a row. -/
theorem Issued.restarted (hs : Issued settings s) {s' : VisionState} (hdb : s'.db = s.db)
    (hid : s'.outside.nextId = s.outside.nextId) (htasks : s'.tasks = fun _ => none) : Issued settings s' := by
  have hk {r : VisionAssetRecord} (hr : Known s' r) : Known s r := by
    obtain hr | ⟨i,pc,⟨q,hq⟩,-⟩ := hr
    · exact .inl (hdb ▸ hr)
    · rw [htasks] at hq
      cases hq
  refine ⟨fun r hr => ?_,fun r r' hr hr' => hs.unique r r' (hk hr) (hk hr')⟩
  rw [hid]
  exact hs.issued r (hk hr)

end Files

end AgentGraph.Vision
