import AgentGraph.Vision.Rows

/-! # The files of the assets

A file is there because a row names it, because a call is about to insert its row, or
because a call is about to remove it. A call that ends in between leaves a file that no row
names, and an upload of the same content then fails for ever.
-/
set_option autoImplicit false
namespace AgentGraph.Vision
open Transition Database.Outline
open Database hiding Effect Ctl Label step Run

/-- What the file holds that the call creates. -/
def VisionPc.Filled : VisionPc → File → Prop
  | .assetWrite _ inode, file => file = ⟨inode,[]⟩
  | .assetInsert image, file | .assetCommit image _, file => file.content = image.data
  | _, _ => True

/-- Somebody answers for the file. -/
inductive Tended (settings : VisionSettings) (s : VisionState) (locator : String) : Prop
  | row (r : VisionAssetRecord) (stored : r ∈ s.db) (named : r.storageLocator = locator)
  | created (i : ℕ) (pc : VisionPc) (at_ : At s i pc) (creates : pc.creates? settings = some locator)
  | removed (i : ℕ) (pc : VisionPc) (at_ : At s i pc) (removes : pc.removes? = some locator)

/-- Every file is answered for, and has the content that its row or its call says. -/
structure FilesAccounted (settings : VisionSettings) (s : VisionState) : Prop where
  content : ∀ r ∈ s.db, ∃ file, s.outside.files r.storageLocator = some file ∧ (settings.sha256 file.content).text = r.sha256
  tended : ∀ locator, (s.outside.files locator).isSome = true → Tended settings s locator
  created : ∀ i pc locator, At s i pc → pc.creates? settings = some locator →
    (∃ file, s.outside.files locator = some file ∧ pc.Filled file) ∧ ∀ r ∈ s.db, r.storageLocator ≠ locator
  single : ∀ i j pc pc' locator, At s i pc → At s j pc' → pc.creates? settings = some locator →
    pc'.creates? settings = some locator → i = j
  attended : ∀ i pc, At s i pc → pc.Attended
  jobs : ∀ job ∈ s.outside.jobs, ∃ locator, job = .unlink locator

/-- No call ends between the creation of its file and the commit of its row, or between
the commit of a deletion and the removal of its file; no row breaks a constraint; and no
file is removed that a row names or is about to name. -/
structure FileSafe (settings : VisionSettings) (l : Database.Label VisionCall ℕ) (s : VisionState) : Prop where
  abort : ∀ i pc, l = .abort i → At s i pc →
    pc.creates? settings = none ∧ (∀ image, pc ≠ .assetCreate image) ∧
      ∀ locator, pc.removes? = some locator → s.outside.files locator = none
  crash : ∀ n, l = .restart n → ∀ i pc, At s i pc →
    pc.creates? settings = none ∧ ∀ locator, pc.removes? = some locator → s.outside.files locator = none
  insert : ∀ i n image, l = .run i n → At s i (.assetInsert image) →
    (s.db.insert (image.record settings s.outside.nextId)).isSome = true
  unlink : ∀ i n locator, l = .run i n → At s i (.deleteUnlink locator) ∨ At s i (.threadRun (.unlink locator)) →
    (∀ r ∈ s.db, r.storageLocator ≠ locator) ∧ ∀ j pc, At s j pc → pc.creates? settings ≠ some locator

section Files
variable {settings : VisionSettings} {s t : VisionState} {l : Database.Label VisionCall ℕ} {i j n : ℕ} {q : VisionCall}
  {pc pc' : VisionPc} {e : VisionEffect} {locator : String} {r : VisionAssetRecord}

/-- Who answered for a file answers for it after the statement of another call. -/
theorem tended_ran (h : Ran (vision settings) s l i q pc e t) (hdb : ∀ r ∈ s.db, r.storageLocator = locator → Tended settings t locator)
    (hpc : pc.creates? settings = some locator ∨ pc.removes? = some locator → Tended settings t locator)
    (hs : Tended settings s locator) : Tended settings t locator := by
  have hown {pc' : VisionPc} (hat : At s i pc') (ht : pc'.creates? settings = some locator ∨ pc'.removes? = some locator) :
      Tended settings t locator := by
    obtain rfl : pc' = pc := at_unique hat ⟨q,h.task⟩
    exact hpc ht
  cases hs with
  | row r stored named => exact hdb r stored named
  | created j pc' at_ creates =>
    by_cases hj : j = i
    · subst hj
      exact hown at_ (.inl creates)
    · exact .created j pc' (ran_other h hj at_) creates
  | removed j pc' at_ removes =>
    by_cases hj : j = i
    · subst hj
      exact hown at_ (.inr removes)
    · exact .removed j pc' (ran_other h hj at_) removes

/-! ### The files after a statement -/

theorem single_ran (hs : FilesAccounted settings s) (h : Ran (vision settings) s l i q pc e t)
    (hcreates : ∀ pc' locator, e.next = .at pc' → pc'.creates? settings = some locator → pc.creates? settings = some locator)
    {j k : ℕ} {pc₁ pc₂ : VisionPc} (h₁ : At t j pc₁) (h₂ : At t k pc₂) (hc₁ : pc₁.creates? settings = some locator)
    (hc₂ : pc₂.creates? settings = some locator) : j = k := by
  have hback {j : ℕ} {pc₁ : VisionPc} (h₁ : At t j pc₁) (hc₁ : pc₁.creates? settings = some locator) :
      ∃ pc₀, At s j pc₀ ∧ pc₀.creates? settings = some locator := by
    obtain ⟨rfl,hn⟩ | ⟨-,h₁⟩ := ran_at h h₁
    · exact ⟨pc,⟨q,h.task⟩,hcreates pc₁ locator hn hc₁⟩
    · exact ⟨pc₁,h₁,hc₁⟩
  obtain ⟨_,h₁,hc₁⟩ := hback h₁ hc₁
  obtain ⟨_,h₂,hc₂⟩ := hback h₂ hc₂
  exact hs.single j k _ _ locator h₁ h₂ hc₁ hc₂

theorem attended_ran (hs : FilesAccounted settings s) (h : Ran (vision settings) s l i q pc e t)
    (hnext : ∀ pc', e.next = .at pc' → pc'.Attended) (hat : At t j pc') : pc'.Attended := by
  obtain ⟨-,hn⟩ | ⟨-,hat⟩ := ran_at h hat
  · exact hnext pc' hn
  · exact hs.attended j pc' hat

/-- A statement that leaves the files and the rows. -/
theorem FilesAccounted.ran_still (hs : FilesAccounted settings s) (h : Ran (vision settings) s l i q pc e t) (hdb : t.db = s.db)
    (hfiles : e.outside.files = s.outside.files) (hjobs : ∀ job ∈ e.outside.jobs, ∃ locator, job = .unlink locator)
    (hcreates : ∀ pc' locator, e.next = .at pc' → pc'.creates? settings = some locator →
      pc.creates? settings = some locator ∧ ∀ file, pc.Filled file → pc'.Filled file)
    (hattended : ∀ pc', e.next = .at pc' → pc'.Attended)
    (htended : ∀ locator, (s.outside.files locator).isSome = true →
      pc.creates? settings = some locator ∨ pc.removes? = some locator → Tended settings t locator) : FilesAccounted settings t where
  content := by
    rw [hdb,h.outside,hfiles]
    exact hs.content
  tended := by
    intro locator hfile
    rw [h.outside,hfiles] at hfile
    refine tended_ran h (fun r hr hnamed => .row r ?_ hnamed) (htended locator hfile) (hs.tended locator hfile)
    rw [hdb]
    exact hr
  created := by
    intro j pc' locator hat hc
    rw [hdb,h.outside,hfiles]
    obtain ⟨rfl,hn⟩ | ⟨-,hat⟩ := ran_at h hat
    · obtain ⟨hc,hfilled⟩ := hcreates pc' locator hn hc
      obtain ⟨⟨file,hfile,hcontent⟩,hrows⟩ := hs.created j pc locator ⟨q,h.task⟩ hc
      exact ⟨⟨file,hfile,hfilled file hcontent⟩,hrows⟩
    · exact hs.created j pc' locator hat hc
  single := fun _ _ _ _ _ h₁ h₂ hc₁ hc₂ =>
    single_ran hs h (fun pc' locator hn hc => (hcreates pc' locator hn hc).1) h₁ h₂ hc₁ hc₂
  attended := fun _ _ hat => attended_ran hs h hattended hat
  jobs := by
    rw [h.outside]
    exact hjobs

theorem FilesAccounted.ran_created (hs : FilesAccounted settings s) {image : Image} (hfresh : s.outside.files (image.locator settings) = none)
    (h : Ran (vision settings) s l i q (.assetCreate image) ⟨.at (.assetWrite image s.outside.nextInode),.keep,
      { s.outside with
        files := Function.update s.outside.files (image.locator settings) (some ⟨s.outside.nextInode,[]⟩)
        nextInode := s.outside.nextInode + 1 }⟩ t) : FilesAccounted settings t := by
  have hdb : t.db = s.db := h.db
  have hfiles : t.outside.files =
      Function.update s.outside.files (image.locator settings) (some ⟨s.outside.nextInode,[]⟩) := by rw [h.outside]
  have hother {locator : String} (hfile : (s.outside.files locator).isSome = true) :
      t.outside.files locator = s.outside.files locator := by
    rw [hfiles,Function.update_of_ne]
    rintro rfl
    rw [hfresh] at hfile
    cases hfile
  have hrow : ∀ r ∈ s.db, r.storageLocator ≠ image.locator settings := by
    intro r hr he
    obtain ⟨_,hfile,-⟩ := hs.content r hr
    rw [he,hfresh] at hfile
    cases hfile
  have hcreated {j : ℕ} {pc' : VisionPc} {locator : String} (hat : At s j pc') (hc : pc'.creates? settings = some locator) :
      locator ≠ image.locator settings := by
    rintro rfl
    obtain ⟨⟨_,hfile,-⟩,-⟩ := hs.created j pc' _ hat hc
    rw [hfresh] at hfile
    cases hfile
  refine ⟨fun r hr => ?_,fun locator hfile => ?_,fun j pc' locator hat hc => ?_,fun j k pc₁ pc₂ locator h₁ h₂ hc₁ hc₂ => ?_,
    fun j pc' hat => attended_ran hs h (fun pc' hn => ?_) hat,by rw [h.outside]; exact hs.jobs⟩
  · rw [hdb] at hr
    obtain ⟨file,hfile,hcontent⟩ := hs.content r hr
    exact ⟨file,(hother (by rw [hfile]; rfl)).trans hfile,hcontent⟩
  · by_cases hl : locator = image.locator settings
    · exact .created i _ (ran_next h rfl) (by rw [hl]; rfl)
    · rw [hfiles,Function.update_of_ne hl] at hfile
      refine tended_ran h (fun r hr hnamed => .row r (by rw [hdb]; exact hr) hnamed) (fun hpc => ?_) (hs.tended locator hfile)
      obtain hpc | hpc := hpc <;> cases hpc
  · obtain ⟨rfl,hn⟩ | ⟨-,hat⟩ := ran_at h hat
    · cases hn
      cases hc
      refine ⟨⟨_,by rw [hfiles,Function.update_self],rfl⟩,?_⟩
      rw [hdb]
      exact hrow
    · obtain ⟨⟨file,hfile,hcontent⟩,hrows⟩ := hs.created j pc' locator hat hc
      rw [hdb]
      exact ⟨⟨file,(hother (by rw [hfile]; rfl)).trans hfile,hcontent⟩,hrows⟩
  · obtain ⟨hj,hn₁⟩ | ⟨hj,h₁⟩ := ran_at h h₁ <;> obtain ⟨hk,hn₂⟩ | ⟨hk,h₂⟩ := ran_at h h₂
    · exact hj.trans hk.symm
    · cases hn₁
      cases hc₁
      exact absurd rfl (hcreated h₂ hc₂)
    · cases hn₂
      cases hc₂
      exact absurd rfl (hcreated h₁ hc₁)
    · exact hs.single j k pc₁ pc₂ locator h₁ h₂ hc₁ hc₂
  · cases hn
    trivial

theorem FilesAccounted.ran_written (hs : FilesAccounted settings s) {image : Image} {inode : ℕ}
    (h : Ran (vision settings) s l i q (.assetWrite image inode)
      ⟨.at (.assetInsert image),.keep,s.outside.write (image.locator settings) inode image.data⟩ t) : FilesAccounted settings t := by
  have hdb : t.db = s.db := h.db
  obtain ⟨⟨file,hfile,hempty⟩,hrows⟩ := hs.created i _ _ ⟨q,h.task⟩ rfl
  obtain rfl : file = ⟨inode,[]⟩ := hempty
  have hwrite : s.outside.write (image.locator settings) inode image.data =
      { s.outside with files := Function.update s.outside.files (image.locator settings) (some ⟨inode,image.data⟩) } := by
    simp [VisionStore.write,hfile]
  have hfiles : t.outside.files = Function.update s.outside.files (image.locator settings) (some ⟨inode,image.data⟩) := by
    rw [h.outside,hwrite]
  have hjobs : t.outside.jobs = s.outside.jobs := by rw [h.outside,hwrite]
  have hcreates : ∀ pc' locator, (Database.Ctl.at (.assetInsert image) : Database.Ctl VisionPc VisionResult) = .at pc' →
      pc'.creates? settings = some locator → (VisionPc.assetWrite image inode).creates? settings = some locator := by
    rintro pc' locator hn hc
    cases hn
    exact hc
  refine ⟨fun r hr => ?_,fun locator hfile' => ?_,fun j pc' locator hat hc => ?_,
    fun j k pc₁ pc₂ locator h₁ h₂ hc₁ hc₂ => single_ran hs h hcreates h₁ h₂ hc₁ hc₂,
    fun j pc' hat => attended_ran hs h (fun pc' hn => ?_) hat,by rw [hjobs]; exact hs.jobs⟩
  · rw [hdb] at hr
    rw [hfiles,Function.update_of_ne (hrows r hr)]
    exact hs.content r hr
  · have hfile' : (s.outside.files locator).isSome = true := by
      by_cases hl : locator = image.locator settings
      · rw [hl,hfile]
        rfl
      · rwa [hfiles,Function.update_of_ne hl] at hfile'
    refine tended_ran h (fun r hr hnamed => .row r (by rw [hdb]; exact hr) hnamed) (fun hpc => ?_) (hs.tended locator hfile')
    obtain hpc | hpc := hpc <;> cases hpc
    exact .created i _ (ran_next h rfl) rfl
  · rw [hdb,hfiles]
    obtain ⟨rfl,hn⟩ | ⟨hj,hat⟩ := ran_at h hat
    · cases hn
      cases hc
      exact ⟨⟨_,Function.update_self _ _ _,rfl⟩,hrows⟩
    · have hl : locator ≠ image.locator settings := by
        rintro rfl
        exact hj (hs.single j i _ _ _ hat ⟨q,h.task⟩ hc rfl)
      rw [Function.update_of_ne hl]
      exact hs.created j pc' locator hat hc
  · cases hn
    trivial

theorem FilesAccounted.ran_committed (hv : (visionOutline settings).Holds s) (hs : FilesAccounted settings s) {image : Image}
    {record : VisionAssetRecord} (h : Ran (vision settings) s l i q (.assetCommit image record)
      ⟨.at (.assetRefresh record),.commit,s.outside⟩ t) : FilesAccounted settings t := by
  obtain ⟨hview,id,hrecord⟩ := commit_view hv h.task fun hr => hr
  have hdb : t.db = s.db ++ [record] := h.db.trans hview
  obtain ⟨⟨file,hfile,hcontent⟩,hrows⟩ := hs.created i _ _ ⟨q,h.task⟩ rfl
  have hlocator : record.storageLocator = image.locator settings := by rw [hrecord]; rfl
  have hmem {r : VisionAssetRecord} (hr : r ∈ t.db) : r ∈ s.db ∨ r = record := by
    rw [hdb] at hr
    exact (List.mem_append.mp hr).imp_right List.mem_singleton.mp
  have hold {r : VisionAssetRecord} (hr : r ∈ s.db) : r ∈ t.db := by
    rw [hdb]
    exact List.mem_append_left _ hr
  have hnone : ∀ pc' locator, (Database.Ctl.at (.assetRefresh record) : Database.Ctl VisionPc VisionResult) = .at pc' →
      pc'.creates? settings ≠ some locator := by
    rintro pc' locator hn hc
    cases hn
    cases hc
  refine ⟨fun r hr => ?_,fun locator hfile' => ?_,fun j pc' locator hat hc => ?_,
    fun j k pc₁ pc₂ locator h₁ h₂ hc₁ hc₂ => single_ran hs h (fun pc' locator hn hc => absurd hc (hnone pc' locator hn))
      h₁ h₂ hc₁ hc₂,
    fun j pc' hat => attended_ran hs h (fun pc' hn => ?_) hat,by rw [h.outside]; exact hs.jobs⟩
  · rw [h.outside]
    obtain hr | rfl := hmem hr
    · exact hs.content r hr
    · refine ⟨file,by rw [hlocator]; exact hfile,?_⟩
      have hdata : file.content = image.data := hcontent
      rw [hdata,hrecord]
      rfl
  · rw [h.outside] at hfile'
    refine tended_ran h (fun r hr hnamed => .row r (hold hr) hnamed) (fun hpc => ?_) (hs.tended locator hfile')
    · obtain hpc | hpc := hpc <;> cases hpc
      refine .row record ?_ hlocator
      rw [hdb]
      exact List.mem_append_right _ (List.mem_singleton_self _)
  · obtain ⟨-,hn⟩ | ⟨hj,hat⟩ := ran_at h hat
    · exact absurd hc (hnone pc' locator hn)
    · obtain ⟨hfile',hrows'⟩ := hs.created j pc' locator hat hc
      rw [h.outside]
      refine ⟨hfile',fun r hr => ?_⟩
      obtain hr | rfl := hmem hr
      · exact hrows' r hr
      · rw [hlocator]
        rintro rfl
        exact hj (hs.single j i _ _ _ hat ⟨q,h.task⟩ hc rfl)
  · cases hn
    trivial

theorem FilesAccounted.ran_deleted (hv : (visionOutline settings).Holds s) (hi : Issued settings s) (hs : FilesAccounted settings s)
    {record : VisionAssetRecord} (h : Ran (vision settings) s l i q (.deleteCommit record)
      ⟨.at (.deleteExists record.storageLocator),.commit,s.outside⟩ t) : FilesAccounted settings t := by
  have hview := commit_view hv h.task fun hr => hr
  have hdb : t.db = s.db.delete record.id := h.db.trans hview
  have hmem {r : VisionAssetRecord} (hr : r ∈ t.db) : r ∈ s.db := by
    rw [hdb] at hr
    exact (List.mem_filter.mp hr).1
  have hnone : ∀ pc' locator, (Database.Ctl.at (.deleteExists record.storageLocator) : Database.Ctl VisionPc VisionResult) = .at pc' →
      pc'.creates? settings ≠ some locator := by
    rintro pc' locator hn hc
    cases hn
    cases hc
  refine ⟨fun r hr => ?_,fun locator hfile => ?_,fun j pc' locator hat hc => ?_,
    fun j k pc₁ pc₂ locator h₁ h₂ hc₁ hc₂ => single_ran hs h (fun pc' locator hn hc => absurd hc (hnone pc' locator hn))
      h₁ h₂ hc₁ hc₂,
    fun j pc' hat => attended_ran hs h (fun pc' hn => ?_) hat,by rw [h.outside]; exact hs.jobs⟩
  · rw [h.outside]
    exact hs.content r (hmem hr)
  · rw [h.outside] at hfile
    refine tended_ran h (fun r hr hnamed => ?_) (fun hpc => ?_) (hs.tended locator hfile)
    · by_cases hid : r.id = record.id
      · -- the row that the call holds is the one it deletes
        obtain rfl := hi.unique r record (.inl hr) (.inr ⟨i,_,⟨q,h.task⟩,rfl⟩) hid
        exact .removed i _ (ran_next h rfl) (by rw [← hnamed]; rfl)
      · refine .row r ?_ hnamed
        rw [hdb]
        exact List.mem_filter.mpr ⟨hr,by simpa using hid⟩
    · obtain hpc | hpc := hpc <;> cases hpc
  · rw [h.outside]
    obtain ⟨-,hn⟩ | ⟨-,hat⟩ := ran_at h hat
    · exact absurd hc (hnone pc' locator hn)
    · obtain ⟨hfile,hrows⟩ := hs.created j pc' locator hat hc
      exact ⟨hfile,fun r hr => hrows r (hmem hr)⟩
  · cases hn
    trivial

theorem FilesAccounted.ran_unlinked (hs : FilesAccounted settings s) (hpc : pc = .deleteUnlink locator ∨ pc = .threadRun (.unlink locator))
    (hrows : ∀ r ∈ s.db, r.storageLocator ≠ locator) (hother : ∀ j pc', At s j pc' → pc'.creates? settings ≠ some locator)
    (h : Ran (vision settings) s l i q pc ⟨.done (.ok .none),.keep,
      { s.outside with files := Function.update s.outside.files locator none }⟩ t) : FilesAccounted settings t := by
  have hdb : t.db = s.db := h.db
  have hfiles : t.outside.files = Function.update s.outside.files locator none := by rw [h.outside]
  refine ⟨fun r hr => ?_,fun other hfile => ?_,fun j pc' other hat hc => ?_,
    fun j k pc₁ pc₂ locator h₁ h₂ hc₁ hc₂ => single_ran hs h (fun pc' locator hn hc => by cases hn) h₁ h₂ hc₁ hc₂,
    fun j pc' hat => attended_ran hs h (fun pc' hn => by cases hn) hat,by rw [h.outside]; exact hs.jobs⟩
  · rw [hdb] at hr
    rw [hfiles,Function.update_of_ne (hrows r hr)]
    exact hs.content r hr
  · have hl : other ≠ locator := by
      rintro rfl
      rw [hfiles,Function.update_self] at hfile
      cases hfile
    rw [hfiles,Function.update_of_ne hl] at hfile
    refine tended_ran h (fun r hr hnamed => .row r (by rw [hdb]; exact hr) hnamed) (fun htends => ?_) (hs.tended other hfile)
    obtain rfl | rfl := hpc <;> obtain htends | htends := htends <;> cases htends
    exact absurd rfl hl
  · obtain ⟨-,hn⟩ | ⟨-,hat⟩ := ran_at h hat
    · cases hn
    · have hl : other ≠ locator := by
        rintro rfl
        exact hother j pc' hat hc
      rw [hdb,hfiles,Function.update_of_ne hl]
      exact hs.created j pc' other hat hc

/-- A cancelled call that creates no file leaves at most the removal of a file that is gone. -/
theorem FilesAccounted.ran_aborted (hs : FilesAccounted settings s)
    (h : Ran (vision settings) s (.abort i) i q pc ((vision settings).abandoned q s.outside pc) t)
    (hc : pc.creates? settings = none ∧ (∀ image, pc ≠ .assetCreate image) ∧
      ∀ locator, pc.removes? = some locator → s.outside.files locator = none) : FilesAccounted settings t := by
  obtain ⟨hcreates,hcreate,hremoves⟩ := hc
  have houtside : t.outside = (pc.job? settings).elim s.outside s.outside.leave := h.outside
  have hjobs : ∀ job ∈ t.outside.jobs, job ∈ s.outside.jobs ∨ pc.job? settings = some job := by
    rw [houtside]
    intro job hjob
    cases hp : pc.job? settings with
    | none =>
      rw [hp] at hjob
      exact .inl hjob
    | some left =>
      rw [hp] at hjob
      exact (List.mem_append.mp hjob).imp_right fun hjob => by rw [List.mem_singleton.mp hjob]
  have hfiles : t.outside.files = s.outside.files := by
    rw [houtside]
    cases pc.job? settings <;> rfl
  refine hs.ran_still h h.db (h.outside ▸ hfiles) (fun job hjob => ?_) (fun _ _ hn => by cases hn) (fun _ hn => by cases hn)
    (fun locator hfile htends => ?_)
  · rw [← h.outside] at hjob
    obtain hjob | hjob := hjobs job hjob
    · exact hs.jobs job hjob
    · have hattended := hs.attended i pc ⟨q,h.task⟩
      cases pc with
      | assetCreate image => exact absurd rfl (hcreate image)
      | assetWrite image inode => cases hcreates
      | deleteUnlink locator => exact ⟨locator,(Option.some.inj hjob).symm⟩
      | threadRun job' =>
        cases job' with
        | unlink locator => exact ⟨locator,(Option.some.inj hjob).symm⟩
        | create locator data => exact hattended.elim
        | write locator inode data => exact hattended.elim
      | _ => cases hjob
  · obtain htends | htends := htends
    · rw [hcreates] at htends
      cases htends
    · rw [hremoves locator htends] at hfile
      cases hfile

theorem FilesAccounted.ran (hv : (visionOutline settings).Holds s) (hi : Issued settings s) (hs : FilesAccounted settings s)
    (hc : FileSafe settings l s) (h : Ran (vision settings) s l i q pc e t) : FilesAccounted settings t := by
  have hat : At s i pc := ⟨q,h.task⟩
  obtain ⟨⟨n,hl⟩,hacts⟩ | ⟨rfl,rfl⟩ := ran_acts hv h
  · cases hacts with
    | ended result creates removes =>
      refine hs.ran_still h h.db rfl hs.jobs (fun _ _ hn => by cases hn) (fun _ hn => by cases hn) (fun locator hfile htends => ?_)
      obtain htends | htends := htends
      · rw [creates] at htends
        cases htends
      · rw [removes locator htends] at hfile
        cases hfile
    | moved pc' creates creates' reads removes held images attended =>
      refine hs.ran_still h h.db rfl hs.jobs (fun pc'' locator hn hc' => ?_) (fun pc'' hn => ?_) (fun locator hfile htends => ?_)
      · cases hn
        rw [creates'] at hc'
        cases hc'
      · cases hn
        exact attended
      · obtain htends | htends := htends
        · rw [creates] at htends
          cases htends
        · exact .removed i pc' (ran_next h rfl) (removes locator htends)
    | created image here fresh =>
      subst here
      exact hs.ran_created fresh h
    | written image inode here =>
      subst here
      exact hs.ran_written h
    | inserted image here db' insert =>
      subst here
      refine hs.ran_still h h.db rfl hs.jobs (fun pc' locator hn hc' => ?_) (fun pc' hn => ?_) (fun locator hfile htends => ?_)
      · cases hn
        exact ⟨hc',fun _ hfilled => hfilled⟩
      · cases hn
        trivial
      · obtain htends | htends := htends
        · exact .created i _ (ran_next h rfl) htends
        · cases htends
    | refused image here insert =>
      subst here
      have hinsert := hc.insert i n image hl hat
      rw [insert] at hinsert
      cases hinsert
    | committed image record here =>
      subst here
      exact hs.ran_committed hv h
    | dropped record here =>
      subst here
      refine hs.ran_still h h.db rfl hs.jobs (fun pc' locator hn hc' => ?_) (fun pc' hn => ?_) (fun locator hfile htends => ?_)
      · cases hn
        cases hc'
      · cases hn
        trivial
      · obtain htends | htends := htends <;> cases htends
    | deleted record here =>
      subst here
      exact hs.ran_deleted hv hi h
    | taken k job here waits =>
      subst here
      obtain ⟨locator,rfl⟩ := hs.jobs job (List.mem_of_getElem? waits)
      refine hs.ran_still h h.db rfl (fun job hjob => hs.jobs job (List.mem_of_mem_eraseIdx hjob)) (fun pc' other hn hc' => ?_)
        (fun pc' hn => ?_) (fun other hfile htends => ?_)
      · cases hn
        cases hc'
      · cases hn
        trivial
      · obtain htends | htends := htends <;> cases htends
    | forgotten k here =>
      subst here
      refine hs.ran_still h h.db rfl (fun job hjob => hs.jobs job (List.mem_of_mem_eraseIdx hjob)) (fun _ _ hn => by cases hn)
        (fun _ hn => by cases hn) (fun other hfile htends => ?_)
      obtain htends | htends := htends <;> cases htends
    | unlinked locator here =>
      have hunlinks : At s i (.deleteUnlink locator) ∨ At s i (.threadRun (.unlink locator)) := by
        obtain rfl | rfl := here
        · exact .inl hat
        · exact .inr hat
      obtain ⟨hrows,hother⟩ := hc.unlink i n locator hl hunlinks
      exact hs.ran_unlinked here hrows hother h
    | unattended here => exact absurd (hs.attended i pc hat) here
  · exact hs.ran_aborted h (hc.abort i pc rfl hat)

/-- A call that is accepted answers for no file yet. -/
theorem FilesAccounted.called (hv : (visionOutline settings).Holds s) (hs : FilesAccounted settings s) {s' : VisionState} {q : VisionCall}
    (hdb : s'.db = s.db) (ho : s'.outside = s.outside)
    (htasks : s'.tasks = Function.update s.tasks s.count (some (q,q.begin settings))) : FilesAccounted settings s' := by
  have hold {i : ℕ} {pc : VisionPc} (hat : At s i pc) : At s' i pc := by
    obtain ⟨q',hq⟩ := hat
    have hi : i ≠ s.count := by
      rintro rfl
      rw [hv.fresh _ (Nat.le_refl _)] at hq
      cases hq
    exact ⟨q',by rw [htasks,Function.update_of_ne hi,hq]⟩
  have hnew {i : ℕ} {pc : VisionPc} {locator : String} (hat : At s' i pc) (hc : pc.creates? settings = some locator) :
      At s i pc := by
    obtain hat | ⟨-,hnone,-⟩ := at_called htasks hat
    · exact hat
    · rw [hnone] at hc
      cases hc
  refine ⟨?_,fun locator hfile => ?_,fun i pc locator hat hc => ?_,
    fun i j pc pc' locator h₁ h₂ hc₁ hc₂ => hs.single i j pc pc' locator (hnew h₁ hc₁) (hnew h₂ hc₂) hc₁ hc₂,
    fun i pc hat => ?_,by rw [ho]; exact hs.jobs⟩
  · rw [hdb,ho]
    exact hs.content
  · rw [ho] at hfile
    cases hs.tended locator hfile with
    | row r stored named => exact .row r (hdb ▸ stored) named
    | created i pc at_ creates => exact .created i pc (hold at_) creates
    | removed i pc at_ removes => exact .removed i pc (hold at_) removes
  · rw [hdb,ho]
    exact hs.created i pc locator (hnew hat hc) hc
  · obtain hat | ⟨-,-,-,-,hattended⟩ := at_called htasks hat
    · exact hs.attended i pc hat
    · exact hattended

/-- A restart that finds no file between its creation and its row. -/
theorem FilesAccounted.restarted (hs : FilesAccounted settings s)
    (hc : ∀ i pc, At s i pc → pc.creates? settings = none ∧
      ∀ locator, pc.removes? = some locator → s.outside.files locator = none)
    {s' : VisionState} (hdb : s'.db = s.db) (ho : s'.outside = { s.outside with jobs := [] }) (htasks : s'.tasks = fun _ => none) :
    FilesAccounted settings s' := by
  have hfiles : s'.outside.files = s.outside.files := by rw [ho]
  have hnone {i : ℕ} {pc : VisionPc} (hat : At s' i pc) : False := by
    obtain ⟨q,hq⟩ := hat
    rw [htasks] at hq
    cases hq
  refine ⟨?_,fun locator hfile => ?_,fun i pc locator hat _ => (hnone hat).elim,
    fun i _ pc _ _ hat _ _ _ => (hnone hat).elim,fun i pc hat => (hnone hat).elim,fun job hjob => ?_⟩
  · rw [hdb,hfiles]
    exact hs.content
  · rw [hfiles] at hfile
    cases hs.tended locator hfile with
    | row r stored named => exact .row r (hdb ▸ stored) named
    | created i pc at_ creates =>
      rw [(hc i pc at_).1] at creates
      cases creates
    | removed i pc at_ removes =>
      rw [(hc i pc at_).2 locator removes] at hfile
      cases hfile
  · rw [ho] at hjob
    cases hjob

/-- What steps that are safe for the files keep. -/
structure Consistent (settings : VisionSettings) (s : VisionState) : Prop where
  outline : (visionOutline settings).Holds s
  issued : Issued settings s
  files : FilesAccounted settings s

theorem Consistent.step (hs : Consistent settings s) (hc : FileSafe settings l s)
    (h : Database.step (vision settings) l s = some t) : Consistent settings t := by
  refine ⟨hs.outline.step (vision_valid settings) h,?_,?_⟩
  · cases step_moved h with
    | called q label state => exact hs.issued.called (by rw [state]) (by rw [state]) (by rw [state]; rfl)
    | ran i q pc e hran => exact hs.issued.ran hs.outline hran
    | restarted n label state => exact hs.issued.restarted (by rw [state]) (by rw [state]; rfl) (by rw [state])
  · cases step_moved h with
    | called q label state => exact hs.files.called hs.outline (by rw [state]) (by rw [state]) (by rw [state]; rfl)
    | ran i q pc e hran => exact hs.files.ran hs.outline hs.issued hc hran
    | restarted n label state =>
      exact hs.files.restarted (hc.crash n label) (by rw [state]) (by rw [state]; rfl) (by rw [state])

theorem Consistent.run (hs : Consistent settings s) (h : Database.Run (vision settings) (FileSafe settings) s t) :
    Consistent settings t :=
  Reaches.invariant (I := Consistent settings) (fun _ _ _ hs hc hstep => hs.step hc hstep) h hs

end Files

end AgentGraph.Vision
