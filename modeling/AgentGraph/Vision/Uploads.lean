import AgentGraph.Vision.Storage

/-! # Assets are stored, and uploads can be retried

Along runs of steps that are safe for the files every row has its file whenever no call is in progress, and an
upload that nobody disturbs returns its asset. One commit that fails is enough to lose that.
-/
set_option autoImplicit false
namespace AgentGraph.Vision
open Transition Database.Outline
open Database hiding Effect Ctl Label step Run

def emptyVision : VisionState := Database.State.initial [] ⟨fun _ => none,[],0,0⟩

/-- Every row has its file, with the digest that the row says. -/
def Stored (settings : VisionSettings) (s : VisionState) : Prop :=
  ∀ r ∈ s.db, ∃ file, s.outside.files r.storageLocator = some file ∧ (settings.sha256 file.content).text = r.sha256

/-- Every upload that passes its checks returns an asset with the digest of its data, if
nobody disturbs it. -/
def Retryable (settings : VisionSettings) (s : VisionState) : Prop :=
  ∀ filename declaredMime data sourceType image, acceptImage settings filename declaredMime data sourceType = .ok image →
    ∃ (envs : List ℕ) (t : VisionState) (record : VisionAssetRecord),
      exec (Database.step (vision settings))
        (.call (.createAsset filename declaredMime data sourceType) :: envs.map fun n => .run s.count n) s = some t ∧
      t.tasks s.count = some (.createAsset filename declaredMime data sourceType,.done (.ok (.asset record))) ∧
      record.sha256 = (settings.sha256 data).text

section Uploads
variable {settings : VisionSettings} {s t : VisionState} {i n : ℕ} {pc : VisionPc} {r : VisionAssetRecord} {image : Image}
  {filename sourceType : String} {declaredMime : Option String} {data : Bytes}

theorem acceptImage_data (h : acceptImage settings filename declaredMime data sourceType = .ok image) : image.data = data := by
  unfold acceptImage at h
  split at h
  · cases h
  · split at h
    · cases h
    · split at h
      · cases h
      · split at h <;> cases h
        rfl

/-- A locator tells the digest, which has a fixed length. -/
theorem digest_of_locator {image' : Image} (h : image'.locator settings = image.locator settings) :
    image'.digest settings = image.digest settings := by
  have hlists := congrArg String.toList h
  simp only [Image.locator, String.toList_append, List.append_assoc] at hlists
  refine String.toList_injective (List.append_inj_left hlists ?_)
  exact (settings.sha256 image'.data).size.trans (settings.sha256 image.data).size.symm

theorem Issued.digest (hs : Issued settings s) (hr : r ∈ s.db) (hl : r.storageLocator = image.locator settings) :
    r.sha256 = image.digest settings := by
  obtain ⟨-,image',himage⟩ := hs.issued r (.inl hr)
  have hlocator : image'.locator settings = image.locator settings := by
    rw [← hl,himage]
    rfl
  rw [himage]
  exact digest_of_locator hlocator

/-- Between calls no file is left whose digest no row has. -/
theorem Consistent.absent (hs : Consistent settings s) (hidle : s.Idle)
    (hnew : ∀ r ∈ s.db, r.sha256 ≠ image.digest settings) : s.outside.files (image.locator settings) = none := by
  by_contra hfile
  cases hs.files.tended _ (Option.isSome_iff_ne_none.mpr hfile) with
  | row r stored named => exact hnew r stored (hs.issued.digest stored named)
  | created i pc at_ creates =>
    obtain ⟨q,hq⟩ := at_
    exact hidle i q pc hq
  | removed i pc at_ removes =>
    obtain ⟨q,hq⟩ := at_
    exact hidle i q pc hq

theorem Consistent.insert (hs : Consistent settings s) (hnew : ∀ r ∈ s.db, r.sha256 ≠ image.digest settings) :
    s.db.insert (image.record settings s.outside.nextId) = some (s.db ++ [image.record settings s.outside.nextId]) := by
  refine if_neg ?_
  simp only [List.any_eq_true, Bool.or_eq_true, beq_iff_eq, not_exists, not_and, not_or, or_assoc]
  intro r hr
  refine ⟨Nat.ne_of_lt (hs.issued.issued r (.inl hr)).1,hnew r hr,fun hl => hnew r hr (hs.issued.digest hr hl)⟩

theorem Consistent.asset (hs : Consistent settings s) (hid : r.id = s.outside.nextId) :
    VisionDb.asset (s.db ++ [r]) r.id = some r := by
  have hnone : s.db.find? (fun record => record.id == r.id) = none := by
    refine List.find?_eq_none.mpr fun other hother => ?_
    have hlt := (hs.issued.issued other (.inl hother)).1
    have hne : other.id ≠ r.id := Nat.ne_of_lt (hid ▸ hlt)
    simpa using hne
  rw [VisionDb.asset,List.find?_append,hnone]
  simp

theorem fileSafe_call (q : VisionCall) (s : VisionState) : FileSafe settings (.call q) s := by
  refine ⟨fun _ _ hl => ?_,fun _ hl => ?_,fun _ _ _ hl => ?_,fun _ _ _ hl => ?_⟩ <;> cases hl

theorem fileSafe_run (hat : At s i pc) (hunlink : ∀ locator, pc ≠ .deleteUnlink locator ∧ pc ≠ .threadRun (.unlink locator))
    (hinsert : ∀ image, pc = .assetInsert image → (s.db.insert (image.record settings s.outside.nextId)).isSome = true) :
    FileSafe settings (.run i n) s := by
  refine ⟨fun _ _ hl => ?_,fun _ hl => ?_,fun j _ image hl hat' => ?_,fun j _ locator hl hat' => ?_⟩
  · cases hl
  · cases hl
  · cases hl
    exact hinsert image (at_unique hat hat')
  · cases hl
    cases hat' with
    | inl hdelete => exact absurd (at_unique hat hdelete) (hunlink locator).1
    | inr hthread => exact absurd (at_unique hat hthread) (hunlink locator).2

theorem at_alone {q : VisionCall} {x : Database.Solo VisionDb VisionStore VisionPc VisionResult} (hx : x.ctl = .at pc) :
    At (s.alone q x) s.count pc := ⟨q,by rw [← hx]; exact Function.update_self _ _ _⟩

theorem fileSafe_alone {q : VisionCall} {x : Database.Solo VisionDb VisionStore VisionPc VisionResult} (hx : x.ctl = .at pc)
    (hunlink : ∀ locator, pc ≠ .deleteUnlink locator ∧ pc ≠ .threadRun (.unlink locator)) (hpc : ∀ image, pc ≠ .assetInsert image) :
    FileSafe settings (.run s.count n) (s.alone q x) :=
  fileSafe_run (at_alone hx) hunlink fun image h => absurd h (hpc image)

/-- An upload of new content that nobody disturbs, up to its commit. -/
theorem upload_inserted (filename : String) (declaredMime : Option String) (data : Bytes) (sourceType : String)
    (hs : Consistent settings s) (hidle : s.Idle) (hnew : ∀ r ∈ s.db, r.sha256 ≠ image.digest settings) :
    let record := image.record settings s.outside.nextId
    ∃ o : VisionStore, o.jobs = s.outside.jobs ∧ (o.files (image.locator settings)).isSome = true ∧
      Database.Served (vision settings) (FileSafe settings) s (.createAsset filename declaredMime data sourceType)
        (List.replicate 4 0) ⟨.at (.assetSelect image),s.db,s.working,false,s.outside⟩
        ⟨.at (.assetCommit image record),s.db,s.db ++ [record],true,o⟩ := by
  intro record
  let q : VisionCall := .createAsset filename declaredMime data sourceType
  let o₁ : VisionStore := { s.outside with
    files := Function.update s.outside.files (image.locator settings) (some ⟨s.outside.nextInode,[]⟩)
    nextInode := s.outside.nextInode + 1 }
  let o₂ : VisionStore := o₁.write (image.locator settings) s.outside.nextInode image.data
  let o₃ : VisionStore := { o₂ with nextId := o₂.nextId + 1 }
  have hid : o₂.nextId = s.outside.nextId := write_nextId _ _ _ _
  have hselect : (vision settings).resume q s.outside s.db 0 (.assetSelect image) =
      some (VisionEffect.goto (.assetCreate image) s.outside) := by
    have hnone : s.db.find? (fun record => record.sha256 == image.digest settings) = none :=
      List.find?_eq_none.mpr fun r hr => by simpa using hnew r hr
    simp only [vision, VisionCall.resume, q, resumeCreate, hnone]
  have hcreate : (vision settings).resume q s.outside s.db 0 (.assetCreate image) =
      some (VisionEffect.goto (.assetWrite image s.outside.nextInode) o₁) := by
    simp [vision,VisionCall.resume,q,resumeCreate,VisionStore.create,hs.absent hidle hnew,o₁]
  have hinsert : (vision settings).resume q o₂ s.db 0 (.assetInsert image) =
      some (VisionEffect.write (s.db ++ [record]) (.assetCommit image record) o₃) := by
    simp only [vision, VisionCall.resume, q, resumeCreate, hid, hs.insert hnew]
    simp only [record, o₃, hid]
  have hwritten : o₂ = { o₁ with
      files := Function.update o₁.files (image.locator settings) (some ⟨s.outside.nextInode,image.data⟩) } := by
    simp only [o₂, o₁, VisionStore.write, Function.update_self, if_true]
  refine ⟨o₃,?_,?_,?_⟩
  · show o₂.jobs = s.outside.jobs
    rw [hwritten]
  · show (o₂.files (image.locator settings)).isSome = true
    rw [hwritten]
    simp
  · refine Database.Served.cons rfl hselect (fileSafe_alone rfl (by simp) (by simp)) ?_
    refine Database.Served.cons rfl hcreate (fileSafe_alone rfl (by simp) (by simp)) ?_
    refine Database.Served.cons rfl (e := VisionEffect.goto (.assetInsert image) o₂) rfl (fileSafe_alone rfl (by simp) (by simp)) ?_
    refine Database.Served.cons rfl hinsert (fileSafe_run (at_alone rfl) (by simp) fun image' h => ?_) Database.Served.nil
    cases h
    show (s.db.insert (image.record settings o₂.nextId)).isSome = true
    rw [hid,hs.insert hnew]
    rfl

/-- It returns its asset. -/
theorem upload_served (filename : String) (declaredMime : Option String) (data : Bytes) (sourceType : String)
    (hs : Consistent settings s) (hidle : s.Idle) (hnew : ∀ r ∈ s.db, r.sha256 ≠ image.digest settings) :
    let record := image.record settings s.outside.nextId
    ∃ o : VisionStore,
      Database.Served (vision settings) (FileSafe settings) s (.createAsset filename declaredMime data sourceType)
        (List.replicate 7 0) ⟨.at (.assetSelect image),s.db,s.working,false,s.outside⟩
        ⟨.done (.ok (.asset record)),s.db ++ [record],s.db ++ [record],false,o⟩ := by
  intro record
  obtain ⟨o,-,-,hserved⟩ := upload_inserted filename declaredMime data sourceType hs hidle hnew
  refine ⟨o,hserved.append ?_⟩
  have hrefresh : (vision settings).resume (.createAsset filename declaredMime data sourceType) o (s.db ++ [record]) 0
      (.assetRefresh record) = some (VisionEffect.goto (.assetPublish record) o) := by
    simp only [vision, VisionCall.resume, resumeCreate, hs.asset (r := record) rfl]
  refine Database.Served.cons rfl (e := ⟨.at (.assetRefresh record),.commit,o⟩) rfl (fileSafe_alone rfl (by simp) (by simp)) ?_
  refine Database.Served.cons rfl hrefresh (fileSafe_alone rfl (by simp) (by simp)) ?_
  refine Database.Served.cons rfl (e := VisionEffect.ret (.asset record) o) rfl (fileSafe_alone rfl (by simp) (by simp)) ?_
  exact Database.Served.nil

/-- A file that no row names refuses the upload of its content. -/
theorem upload_refused {envs : List ℕ} (h : exec (Database.step (vision settings))
      (.call (.createAsset filename declaredMime data sourceType) :: envs.map fun n => .run s.count n) s = some t)
    (hw : s.writer = none) (ha : acceptImage settings filename declaredMime data sourceType = .ok image)
    (hnew : ∀ r ∈ s.db, r.sha256 ≠ image.digest settings) (hfile : (s.outside.files (image.locator settings)).isSome = true) :
    t.tasks s.count ≠ some (.createAsset filename declaredMime data sourceType,.done (.ok (.asset r))) := by
  have hbegin : (vision settings).begin s.outside (.createAsset filename declaredMime data sourceType) =
      .at (.assetSelect image) := by
    simp only [vision, VisionCall.begin, ha]
  rw [Database.exec_call_alone hw,hbegin] at h
  obtain ⟨y,hserve,rfl⟩ := Option.map_eq_some_iff.mp h
  have hselect : ∀ n, (vision settings).resume (.createAsset filename declaredMime data sourceType) s.outside s.db n
      (.assetSelect image) = some (VisionEffect.goto (.assetCreate image) s.outside) := by
    intro n
    have hnone : s.db.find? (fun record => record.sha256 == image.digest settings) = none :=
      List.find?_eq_none.mpr fun r hr => by simpa using hnew r hr
    simp only [vision, VisionCall.resume, resumeCreate, hnone]
  have hcreate : ∀ n, (vision settings).resume (.createAsset filename declaredMime data sourceType) s.outside s.db n
      (.assetCreate image) = some (VisionEffect.raise .fileExists s.outside) := by
    intro n
    simp [vision,VisionCall.resume,resumeCreate,VisionStore.create,hfile]
  have hend : y.ctl ≠ .done (.ok (.asset r)) := by
    rintro hy
    cases envs with
    | nil =>
      obtain rfl := Option.some.inj hserve
      cases hy
    | cons n envs =>
      rw [Database.serve_cons rfl (hselect n)] at hserve
      cases envs with
      | nil =>
        obtain rfl := Option.some.inj hserve
        cases hy
      | cons m envs =>
        have hserve := (Database.serve_cons rfl (hcreate m)).symm.trans hserve
        cases envs with
        | nil =>
          obtain rfl := Option.some.inj hserve
          cases hy
        | cons k envs => cases hserve
  intro htask
  have hown : (s.alone (.createAsset filename declaredMime data sourceType) y).tasks s.count =
      some (.createAsset filename declaredMime data sourceType,y.ctl) := Function.update_self _ _ _
  exact hend (Prod.mk.inj (Option.some.inj (hown.symm.trans htask))).2

theorem consistent_empty (settings : VisionSettings) : Consistent settings emptyVision := by
  have hnone {i : ℕ} {pc : VisionPc} (hat : At emptyVision i pc) : False := by
    obtain ⟨q,hq⟩ := hat
    cases hq
  have hknown {r : VisionAssetRecord} (hr : Known emptyVision r) : False := by
    obtain hr | ⟨i,pc,hat,-⟩ := hr
    · cases hr
    · exact hnone hat
  refine ⟨initial_holds trivial,⟨fun r hr => (hknown hr).elim,fun r _ hr => (hknown hr).elim⟩,?_⟩
  exact ⟨fun r hr => (by cases hr),fun locator hfile => (by cases hfile),fun i pc locator hat _ => (hnone hat).elim,
    fun i _ pc _ _ hat _ _ _ => (hnone hat).elim,fun i pc hat => (hnone hat).elim,fun job hjob => (by cases hjob)⟩

theorem emptyVision_idle : emptyVision.Idle := by
  intro i q pc hq
  cases hq

theorem alone_idle {q : VisionCall} {x : Database.Solo VisionDb VisionStore VisionPc VisionResult} {result : VisionResult}
    (hidle : s.Idle) (hx : x.ctl = .done result) : (s.alone q x).Idle := by
  intro i q' pc hq
  obtain ⟨-,hctl⟩ | ⟨-,hq⟩ := Database.update_cases hq
  · rw [hx] at hctl
    cases hctl
  · exact hidle i q' pc hq

/-- Along every run of steps that are safe for the files the assets are stored between calls, and uploads succeed. -/
theorem assets_consistent (settings : VisionSettings) (h : Database.Run (vision settings) (FileSafe settings) emptyVision s)
    (hidle : s.Idle) : Stored settings s ∧ Retryable settings s := by
  have hs : Consistent settings s := (consistent_empty settings).run h
  refine ⟨hs.files.content,fun filename declaredMime data sourceType image ha => ?_⟩
  have hw := hs.outline.unlocked hidle
  have hbegin : (vision settings).begin s.outside (.createAsset filename declaredMime data sourceType) =
      .at (.assetSelect image) := by
    simp only [vision, VisionCall.begin, ha]
  have hdigest : image.digest settings = (settings.sha256 data).text := by
    rw [Image.digest,acceptImage_data ha]
  cases hfind : s.db.find? fun record => record.sha256 == image.digest settings with
  | some record =>
    have hselect : (vision settings).resume (.createAsset filename declaredMime data sourceType) s.outside s.db 0
        (.assetSelect image) = some (VisionEffect.ret (.asset record) s.outside) := by
      simp only [vision, VisionCall.resume, resumeCreate, hfind]
    refine ⟨[0],s.alone (.createAsset filename declaredMime data sourceType)
      ⟨.done (.ok (.asset record)),s.db,s.working,false,s.outside⟩,record,?_,Function.update_self _ _ _,?_⟩
    · rw [Database.exec_call_alone hw,hbegin,Database.serve_cons rfl hselect]
      rfl
    · rw [← hdigest]
      simpa using List.find?_some hfind
  | none =>
    have hnew : ∀ r ∈ s.db, r.sha256 ≠ image.digest settings := by simpa using hfind
    obtain ⟨o,hserved⟩ := upload_served filename declaredMime data sourceType hs hidle hnew
    rw [← hbegin] at hserved
    exact ⟨_,_,_,(hserved.run hw (fileSafe_call _ s)).1,Function.update_self _ _ _,hdigest⟩

/-- Any upload to an empty store fails for ever if its first commit does. -/
theorem upload_stranded (ha : acceptImage settings filename declaredMime data sourceType = .ok image) :
    ∃ s, Database.Run (vision settings) anyStep emptyVision s ∧ s.Idle ∧ s.outside.jobs = [] ∧ ¬ Retryable settings s := by
  let q : VisionCall := .createAsset filename declaredMime data sourceType
  let record : VisionAssetRecord := image.record settings emptyVision.outside.nextId
  have hbegin : (vision settings).begin emptyVision.outside q = .at (.assetSelect image) := by
    simp only [vision, VisionCall.begin, q, ha]
  have hnew : ∀ r ∈ emptyVision.db, r.sha256 ≠ image.digest settings := fun r hr => by cases hr
  obtain ⟨o,hjobs,hfile,hserved⟩ :=
    upload_inserted filename declaredMime data sourceType (consistent_empty settings) emptyVision_idle hnew
  rw [← hbegin] at hserved
  have hrun := (hserved.run rfl (fileSafe_call q emptyVision)).2
  let x : Database.Solo VisionDb VisionStore VisionPc VisionResult := ⟨.at (.assetCommit image record),[],[record],true,o⟩
  have habort : Database.step (vision settings) (.abort emptyVision.count) (emptyVision.alone q x) =
      some (emptyVision.alone q (x.apply ((vision settings).abandoned q x.outside (.assetCommit image record)))) :=
    Database.abort_alone rfl
  refine ⟨_,(hrun.mono fun _ _ _ => trivial).tail ⟨_,trivial,habort⟩,alone_idle emptyVision_idle rfl,hjobs,fun hretry => ?_⟩
  obtain ⟨envs,t,record,hexec,htask,-⟩ := hretry filename declaredMime data sourceType image ha
  exact upload_refused hexec rfl ha hnew hfile htask

end Uploads

def onePixel : VisionSettings where
  visionEnabled := true
  maxFileSizeBytes := 16
  maxImagePixels := 1
  decode := fun _ => some ⟨1,1,"PNG"⟩
  sha256 := fun _ => ⟨String.ofList (List.replicate 64 'a'),by simp⟩

theorem acceptImage_onePixel : acceptImage onePixel "pixel.png" none [137] "upload" =
    .ok ⟨"pixel.png","image/png","PNG",[137],"upload"⟩ := rfl

/-- The commit of an upload fails after its file has been written. -/
theorem failed_commit_strands_upload :
    ∃ s, Database.Run (vision onePixel) anyStep emptyVision s ∧ s.Idle ∧ s.outside.jobs = [] ∧ ¬ Retryable onePixel s :=
  upload_stranded acceptImage_onePixel

theorem assets_consistent_uploaded : ∃ s : VisionState, s.db.length = 1 ∧ Stored onePixel s ∧ Retryable onePixel s := by
  let q : VisionCall := .createAsset "pixel.png" none [137] "upload"
  let image : Image := ⟨"pixel.png","image/png","PNG",[137],"upload"⟩
  have hbegin : (vision onePixel).begin emptyVision.outside q = .at (.assetSelect image) := rfl
  have hnew : ∀ r ∈ emptyVision.db, r.sha256 ≠ image.digest onePixel := fun r hr => by cases hr
  obtain ⟨o,hserved⟩ := upload_served "pixel.png" none [137] "upload" (consistent_empty onePixel) emptyVision_idle hnew
  rw [← hbegin] at hserved
  have hrun := (hserved.run rfl (fileSafe_call q emptyVision)).2
  obtain ⟨hstored,hretry⟩ := assets_consistent onePixel hrun (alone_idle emptyVision_idle rfl)
  exact ⟨_,rfl,hstored,hretry⟩

end AgentGraph.Vision
