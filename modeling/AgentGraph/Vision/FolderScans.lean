import AgentGraph.Vision.Folders

/-! # What a scan finds

Every asset of a folder has the content of a file below an allowed root, and a scan counts each
regular file of its folder once.
-/
set_option autoImplicit false
namespace AgentGraph.Vision
open Transition FileTree
open Database hiding Effect Ctl Label step Run

/-! ## Files -/

section Files
variable {settings : FolderSettings} {disk : Disk} {path root : Path}

/-- The directory is below an allowed root, and so is the path that the disk has for it. -/
structure Allowed (settings : FolderSettings) (disk : Disk) (root : Path) : Prop where
  directory : ∃ readable names child, disk.root.get root = some (.directory readable names child)
  below : ∃ top ∈ settings.allowedRoots, top <+: root

theorem root_physical (disk : Disk) : disk.root.Physical [] := Node.physical_nil rfl

/-- What has no links on its way is found where it is. -/
theorem stat_physical (h : disk.root.Physical path) : stat settings disk path = disk.root.get path := by
  unfold stat
  rw [Node.resolve_self h]
  rfl

theorem allowedDirectory_ok (h : allowedDirectory settings disk path = .ok root) : Allowed settings disk root := by
  unfold allowedDirectory at h
  split at h
  · cases h
  next resolved hresolved =>
    have hphysical : disk.root.Physical resolved := Node.resolve_physical rfl (root_physical disk) hresolved
    split at h
    next hok =>
      cases h
      rw [Bool.and_eq_true, List.any_eq_true, stat_physical hphysical] at hok
      obtain ⟨hdirectory,top,htop,hleads⟩ := hok
      refine ⟨?_,top,htop,List.isPrefixOf_iff_prefix.mp hleads⟩
      cases hnode : disk.root.get root with
      | none =>
        rw [hnode] at hdirectory
        cases hdirectory
      | some node =>
        rw [hnode] at hdirectory
        cases node with
        | directory readable names child => exact ⟨readable,names,child,rfl⟩
        | file | link | other => cases hdirectory
    · cases h

/-- The system finds a listed path without following a link. -/
theorem lstat_listed (settings : FolderSettings) (hpath : path ∈ listing disk root) : lstat settings disk path = disk.root.get path ∧
    ∃ below name, path = root ++ below ++ [name] ∧ (disk.root.get path).isSome := by
  unfold listing at hpath
  cases hnode : disk.root.get root with
  | none =>
    rw [hnode] at hpath
    cases hpath
  | some node =>
    rw [hnode] at hpath
    obtain ⟨reached,hreached,rfl⟩ := Node.mem_walk.mp hpath
    obtain ⟨below,name,rfl⟩ : ∃ below name, reached = below ++ [name] :=
      ⟨_,_,(List.dropLast_append_getLast hreached.ne_nil).symm⟩
    rw [← List.append_assoc]
    have hget : disk.root.get (root ++ below ++ [name]) = node.get (below ++ [name]) := by
      rw [List.append_assoc, Node.get_append, hnode]
      rfl
    have hsome := hreached.get_isSome
    rw [← hget] at hsome
    refine ⟨?_,below,name,rfl,hsome⟩
    obtain ⟨found,hfound⟩ := Option.isSome_iff_exists.mp hsome
    obtain ⟨readable,names,child,hparent,-⟩ := Node.get_snoc hfound
    have hphysical : disk.root.Physical (root ++ below) := ⟨_,hparent,rfl⟩
    unfold lstat
    rw [List.dropLast_concat, Node.resolve_self hphysical]
    simp

theorem isRegular_listed (hpath : path ∈ listing disk root) : isRegular settings disk path = (disk.root.get path).any Node.isFile := by
  obtain ⟨hlstat,-,-,-,hsome⟩ := lstat_listed settings hpath
  obtain ⟨node,hnode⟩ := Option.isSome_iff_exists.mp hsome
  unfold isRegular
  rw [hlstat, hnode]
  cases node with
  | link absolute target => simp [Node.isFile, Node.isLink]
  | file | directory | other =>
    have hphysical : disk.root.Physical path := ⟨_,hnode,rfl⟩
    rw [stat_physical hphysical, hnode]
    simp [Node.isLink]

/-- The data of a file below an allowed root, and its name. -/
def Confined (settings : FolderSettings) (disk : Disk) (name : String) (data : Bytes) : Prop :=
  ∃ top ∈ settings.allowedRoots, ∃ path, top <+: path ∧ disk.root.get path = some (.file data true) ∧ path.getLastD "" = name ∧
    data.length ≤ settings.maxFileSizeBytes

theorem readRegularFile_ok {data : Bytes} (hroot : Allowed settings disk root) (hpath : path ∈ listing disk root)
    (h : readRegularFile settings disk path = .ok data) : Confined settings disk (path.getLastD "") data := by
  obtain ⟨hlstat,below,name,rfl,-⟩ := lstat_listed settings hpath
  obtain ⟨top,htop,hleads⟩ := hroot.below
  unfold readRegularFile at h
  rw [hlstat] at h
  split at h
  next content readable hget =>
    split at h
    · cases h
    next hreadable =>
      split at h
      · cases h
      next hsize =>
        cases h
        have hlength : content.length ≤ settings.maxFileSizeBytes := Nat.not_lt.mp hsize
        have htake : content.take (settings.maxFileSizeBytes + 1) = content := List.take_of_length_le (Nat.le_succ_of_le hlength)
        have htrue : readable = true := by simpa using hreadable
        rw [htake]
        refine ⟨top,htop,_,?_,htrue ▸ hget,rfl,hlength⟩
        rw [List.append_assoc]
        exact hleads.trans (List.prefix_append root (below ++ [name]))
  all_goals cases h

end Files

/-! ## The sources of the rows -/

/-- Every row, and every row to come, is that of an upload with the property. -/
structure Sourced (settings : VisionSettings) (P : Image → Prop) (s : VisionState) : Prop where
  rows : ∀ r, Known s r → ∃ image id, P image ∧ r = image.record settings id
  images : ∀ i pc image, At s i pc → pc.image? = some image → P image

section Sources
variable {settings : VisionSettings} {P : Image → Prop} {s t : VisionState} {l : Database.Label VisionCall ℕ} {i n : ℕ}
  {q : VisionCall} {pc pc' : VisionPc} {e : VisionEffect} {o : VisionStore} {db : VisionDb} {image : Image}

/-- A call keeps its upload. -/
theorem resume_image (h : q.resume settings o db n pc = some e) (hnext : e.next = .at pc') (himage : pc'.image? = some image) :
    pc.image? = some image := by
  cases resume_acts h with
  | moved pc₁ creates creates' reads removes held images attended =>
    cases hnext
    exact images image himage
  | created image' here fresh | written image' inode here =>
    cases hnext
    rw [here]
    exact himage
  | unattended here _ action held images =>
    rw [images pc' hnext] at himage
    cases himage
  | inserted _ here | committed _ record here | dropped record here | deleted record here | taken n job here =>
    cases hnext
    cases himage
  | ended | refused | forgotten | unlinked => cases hnext

/-- The only new row is that of the upload that the statement inserts. -/
theorem known_source (hv : (visionOutline settings).Holds s) (h : Ran (vision settings) s l i q pc e t) {r : VisionAssetRecord} (hr : Known t r) :
    Known s r ∨ ∃ image, pc = .assetInsert image ∧ r = image.record settings s.outside.nextId := by
  have hat : At s i pc := ⟨q,h.task⟩
  have hsame (ha : e.action ≠ .commit) : ∀ r ∈ t.db, Known s r := by
    intro r hr
    rw [h.db_kept ha] at hr
    exact .inl hr
  obtain ⟨-,hacts⟩ | ⟨-,rfl⟩ := ran_acts hv h
  · cases hacts with
    | ended result creates removes => exact .inl (known_ran h (hsame (by simp)) (fun _ hn => by cases hn) hr)
    | moved pc' creates creates' reads removes held images attended =>
      refine .inl (known_ran h (hsame (by simp)) ?_ hr)
      intro pc'' hn r hr
      cases hn
      exact (held r hr).imp id fun hheld => ⟨i,pc,hat,hheld⟩
    | created image here fresh =>
      refine .inl (known_ran h (hsame (by simp)) ?_ hr)
      intro pc' hn r hr
      cases hn
      cases hr
    | written image inode here =>
      refine .inl (known_ran h (hsame (by simp)) ?_ hr)
      intro pc' hn r hr
      cases hn
      cases hr
    | inserted image here db' insert =>
      obtain hr | ⟨j,pc',hat',hr⟩ := hr
      · exact .inl (hsame (by simp) r hr)
      · obtain ⟨-,hn⟩ | ⟨-,hat'⟩ := ran_at h hat'
        · cases hn
          cases hr
          exact .inr ⟨image,here,rfl⟩
        · exact .inl (.inr ⟨j,pc',hat',hr⟩)
    | refused image here insert => exact .inl (known_ran h (hsame (by simp)) (fun _ hn => by cases hn) hr)
    | committed image record here =>
      subst here
      obtain ⟨hview,-⟩ := commit_view hv h.task fun hr => hr
      refine .inl (known_ran h ?_ ?_ hr)
      · intro r hr
        rw [h.db] at hr
        have hr : r ∈ s.view i := hr
        rw [hview] at hr
        obtain hr | hr := List.mem_append.mp hr
        · exact .inl hr
        · rw [List.mem_singleton.mp hr]
          exact .inr ⟨i,_,hat,rfl⟩
      · intro pc' hn r hr
        cases hn
        cases hr
    | dropped record here =>
      subst here
      refine .inl (known_ran h (hsame (by simp)) ?_ hr)
      intro pc' hn r hr
      cases hn
      exact .inr ⟨i,_,hat,hr⟩
    | deleted record here =>
      subst here
      have hview := commit_view hv h.task fun hr => hr
      refine .inl (known_ran h ?_ ?_ hr)
      · intro r hr
        rw [h.db] at hr
        have hr : r ∈ s.view i := hr
        rw [hview] at hr
        exact .inl (List.mem_filter.mp hr).1
      · intro pc' hn r hr
        cases hn
        cases hr
    | taken n job here waits =>
      refine .inl (known_ran h (hsame (by simp)) ?_ hr)
      intro pc' hn r hr
      cases hn
      cases hr
    | forgotten n here => exact .inl (known_ran h (hsame (by simp)) (fun _ hn => by cases hn) hr)
    | unlinked locator here => exact .inl (known_ran h (hsame (by simp)) (fun _ hn => by cases hn) hr)
    | unattended here _ action held images nextId =>
      refine .inl (known_ran h (hsame (by simp [action])) ?_ hr)
      intro pc' hn r hr
      rw [held pc' hn] at hr
      cases hr
  · exact .inl (known_ran h (hsame (by simp [Program.abandoned])) (fun _ hn => by cases hn) hr)

theorem Sourced.ran (hv : (visionOutline settings).Holds s) (hs : Sourced settings P s) (h : Ran (vision settings) s l i q pc e t) :
    Sourced settings P t := by
  have hat : At s i pc := ⟨q,h.task⟩
  constructor
  · intro r hr
    rcases known_source hv h hr with hknown | ⟨image,rfl,rfl⟩
    · exact hs.rows r hknown
    · exact ⟨image,_,hs.images i _ image hat rfl,rfl⟩
  · intro j pc' image hat' himage
    obtain ⟨rfl,hnext⟩ | ⟨-,hold⟩ := ran_at h hat'
    · obtain ⟨n,-,he⟩ | ⟨-,rfl⟩ := h.label
      · exact hs.images j pc image hat (resume_image he hnext himage)
      · cases hnext
    · exact hs.images j pc' image hold himage

/-- A new call is an upload with the property, or none. -/
theorem Sourced.called (hs : Sourced settings P s) (hq : ∀ image, q.begin settings = .at (.assetSelect image) → P image)
    {s' : VisionState} (hdb : s'.db = s.db) (htasks : s'.tasks = Function.update s.tasks s.count (some (q,q.begin settings))) :
    Sourced settings P s' := by
  constructor
  · rintro r (hr | ⟨j,pc,hat,hr⟩)
    · exact hs.rows r (.inl (hdb ▸ hr))
    · obtain hat | ⟨-,-,-,hheld,-⟩ := at_called htasks hat
      · exact hs.rows r (.inr ⟨j,pc,hat,hr⟩)
      · rw [hheld] at hr
        cases hr
  · rintro j pc image ⟨q',hq'⟩ himage
    rw [htasks] at hq'
    obtain ⟨-,hx⟩ | ⟨-,hold⟩ := Database.update_cases hq'
    · obtain ⟨rfl,hbegin⟩ := Prod.mk.inj hx
      cases q' with
      | createAsset filename declaredMime data sourceType =>
        simp only [VisionCall.begin] at hbegin hq
        split at hbegin
        · cases hbegin
        · cases hbegin
          cases himage
          exact hq _ (by simp_all)
      | deleteAsset assetId =>
        simp only [VisionCall.begin] at hbegin
        split at hbegin <;> cases hbegin
        cases himage
      | thread | drop =>
        cases hbegin
        cases himage
    · exact hs.images j pc image ⟨q',hold⟩ himage

theorem Sourced.restarted (hs : Sourced settings P s) {s' : VisionState} (hdb : s'.db = s.db) (htasks : s'.tasks = fun _ => none) :
    Sourced settings P s' := by
  have hnone {j : ℕ} {pc : VisionPc} (hat : At s' j pc) : False := by
    obtain ⟨q,hq⟩ := hat
    rw [htasks] at hq
    cases hq
  constructor
  · rintro r (hr | ⟨j,pc,hat,-⟩)
    · exact hs.rows r (.inl (hdb ▸ hr))
    · exact (hnone hat).elim
  · intro j pc image hat _
    exact (hnone hat).elim

theorem Sourced.step (hv : (visionOutline settings).Holds s) (hs : Sourced settings P s)
    (hl : ∀ q image, l = .call q → q.begin settings = .at (.assetSelect image) → P image)
    (h : Database.step (vision settings) l s = some t) : Sourced settings P t := by
  cases step_moved h with
  | called q label state => exact hs.called (hl q · label) (by rw [state]) (by rw [state]; rfl)
  | ran i q pc e hran => exact hs.ran hv hran
  | restarted n label state => exact hs.restarted (by rw [state]) (by rw [state])

end Sources

/-! ## The scans -/

/-- How many of the paths lead to a regular file. -/
def regularFiles (disk : Disk) (paths : List Path) : ℕ := paths.countP fun path => (disk.root.get path).any Node.isFile

/-- The files that an outcome was counted for. -/
def Counts.total (counts : Counts) : ℕ := counts.accepted + counts.skipped + counts.failed

/-- What a scan has counted so far. -/
inductive Counted (settings : FolderSettings) (disk : Disk) (root : Path) (counts : Counts) : ScanPc → Prop
  | «at» (seen rest : List Path) (paths : listing disk root = seen ++ rest) (discovered : counts.discovered = regularFiles disk seen)
      (limit : counts.discovered ≤ settings.maxScanFiles) (total : counts.total = counts.discovered) :
    Counted settings disk root counts (.at rest)
  | creating (seen rest : List Path) (call : ℕ) (paths : listing disk root = seen ++ rest)
      (discovered : counts.discovered = regularFiles disk seen) (limit : counts.discovered ≤ settings.maxScanFiles)
      (total : counts.total + 1 = counts.discovered) : Counted settings disk root counts (.creating call rest)
  | done (discovered : counts.discovered = regularFiles disk (listing disk root)) (limit : counts.discovered ≤ settings.maxScanFiles)
      (total : counts.total = counts.discovered) : Counted settings disk root counts .done
  | truncated (before : Counts) (skipped : counts = before.skip) (discovered : before.discovered = settings.maxScanFiles)
      (files : settings.maxScanFiles ≤ regularFiles disk (listing disk root)) (total : before.total = settings.maxScanFiles) :
    Counted settings disk root counts .done
  | raised : Counted settings disk root counts .raised

structure Scan.Sound (settings : FolderSettings) (disk : Disk) (scan : Scan) : Prop where
  allowed : Allowed settings disk scan.root
  counted : Counted settings disk scan.root scan.counts scan.pc

/-- An upload of a folder has the name and the data of one of its files. -/
def FromFolder (settings : FolderSettings) (disk : Disk) (image : Image) : Prop :=
  image.sourceType = "folder" → Confined settings disk image.filename image.data

structure Desk.Sound (settings : FolderSettings) (disk : Disk) (desk : Desk) : Prop where
  outline : (visionOutline settings.toVisionSettings).Holds desk.vision
  sourced : Sourced settings.toVisionSettings (FromFolder settings disk) desk.vision
  scans : ∀ scan ∈ desk.scans, scan.Sound settings disk

section Scans
variable {settings : FolderSettings} {disk : Disk} {desk desk' : Desk} {scan : Scan} {i : ℕ} {l : DeskLabel} {root path : Path}
  {rest : List Path} {counts : Counts}

theorem regularFiles_append (xs ys : List Path) : regularFiles disk (xs ++ ys) = regularFiles disk xs + regularFiles disk ys :=
  List.countP_append

theorem begin_select {filename sourceType : String} {declaredMime : Option String} {data : Bytes} {image : Image} {own : VisionSettings}
    (h : (VisionCall.createAsset filename declaredMime data sourceType).begin own = .at (.assetSelect image)) :
    image.filename = filename ∧ image.data = data ∧ image.sourceType = sourceType := by
  simp only [VisionCall.begin] at h
  split at h
  · cases h
  next accepted haccept =>
    cases h
    unfold acceptImage at haccept
    split at haccept
    · cases haccept
    · split at haccept
      · cases haccept
      · split at haccept
        · cases haccept
        · split at haccept <;> cases haccept
          exact ⟨rfl,rfl,rfl⟩

/-- The other calls upload nothing of a folder. -/
theorem uploading_select {l : Database.Label VisionCall ℕ} {q : VisionCall} {image : Image} (h : Uploading (.vision l) desk) (hl : l = .call q)
    (hbegin : q.begin settings.toVisionSettings = .at (.assetSelect image)) : FromFolder settings disk image := by
  subst hl
  intro hfolder
  cases q with
  | createAsset filename declaredMime data sourceType =>
    obtain ⟨-,-,hsource⟩ := begin_select hbegin
    exact absurd (hsource.symm.trans hfolder) h
  | deleteAsset assetId =>
    simp only [VisionCall.begin] at hbegin
    split at hbegin <;> cases hbegin
  | thread | drop => cases hbegin

theorem Desk.Sound.setScan (hdesk : desk.Sound settings disk) (hscan : scan.Sound settings disk) : (desk.setScan i scan).Sound settings disk := by
  refine ⟨hdesk.outline,hdesk.sourced,?_⟩
  intro other hother
  cases List.mem_or_eq_of_mem_set hother with
  | inl hold => exact hdesk.scans other hold
  | inr hnew => exact hnew ▸ hscan

/-- The next path is a file, and its outcome is counted or about to be. -/
theorem discovered_next {seen : List Path} (hregular : (disk.root.get path).any Node.isFile = true) (hdiscovered : counts.discovered = regularFiles disk seen) :
    counts.discover.discovered = regularFiles disk (seen ++ [path]) := by
  rw [regularFiles_append, ← hdiscovered]
  simp [regularFiles, Counts.discover, hregular]

theorem create_counted {result : VisionResult} {counts' : Counts} (h : counts.create result = some counts') :
    counts'.discovered = counts.discovered ∧ counts'.total = counts.total + 1 := by
  unfold Counts.create at h
  split at h <;> cases h <;> refine ⟨rfl,?_⟩ <;> simp only [Counts.total, Counts.accept, Counts.skip, Counts.fail] <;> omega

/-- A call of the service for a file of the folder. -/
theorem Desk.Sound.created (hdesk : desk.Sound settings disk) {name : String} {data : Bytes} {s : VisionState} (hconfined : Confined settings disk name data)
    (h : Database.step (Vision.vision settings.toVisionSettings) (.call (.createAsset name none data "folder")) desk.vision = some s) :
    ({ desk with vision := s } : Desk).Sound settings disk := by
  refine ⟨hdesk.outline.step (vision_valid settings.toVisionSettings) h,?_,hdesk.scans⟩
  refine hdesk.sourced.step hdesk.outline ?_ h
  intro q image hl hbegin _
  cases hl
  obtain ⟨rfl,rfl,-⟩ := begin_select hbegin
  exact hconfined

theorem resumeScan_sound (hdesk : desk.Sound settings disk) (hscan : scan.Sound settings disk)
    (h : desk.resumeScan settings disk i scan = some desk') : desk'.Sound settings disk := by
  obtain ⟨root,counts,pc⟩ := scan
  obtain ⟨hallowed,hcounted⟩ := hscan
  unfold Desk.resumeScan at h
  cases hcounted with
  | «at» seen rest paths discovered limit total =>
    cases rest with
    | nil =>
      cases h
      rw [List.append_nil] at paths
      exact hdesk.setScan ⟨hallowed,.done (paths ▸ discovered) limit total⟩
    | cons path rest =>
      dsimp only at h discovered limit total paths
      have hlisted : path ∈ listing disk root := by
        rw [paths]
        exact List.mem_append_right seen List.mem_cons_self
      have hpaths : listing disk root = (seen ++ [path]) ++ rest := by
        rw [paths, List.append_assoc]
        rfl
      split at h
      next hlimit =>
        cases h
        have hfull : counts.discovered = settings.maxScanFiles := Nat.le_antisymm limit hlimit
        refine hdesk.setScan ⟨hallowed,.truncated counts rfl hfull ?_ (total.trans hfull)⟩
        dsimp only
        rw [paths, regularFiles_append]
        omega
      next hlimit =>
        have hbelow : counts.discover.discovered ≤ settings.maxScanFiles := Nat.not_le.mp hlimit
        split at h
        next hother =>
          cases h
          rw [isRegular_listed hlisted, Bool.not_eq_true'] at hother
          refine hdesk.setScan ⟨hallowed,.at (seen ++ [path]) rest hpaths ?_ limit total⟩
          dsimp only
          rw [regularFiles_append, ← discovered]
          simp [regularFiles, hother]
        next hregular =>
          rw [isRegular_listed hlisted, Bool.not_eq_true', Bool.not_eq_false] at hregular
          have hdiscovered := discovered_next hregular discovered
          split at h
          · cases h
            refine hdesk.setScan ⟨hallowed,.at (seen ++ [path]) rest hpaths hdiscovered hbelow ?_⟩
            simp only [Counts.total, Counts.skip, Counts.discover] at total ⊢
            omega
          · cases h
            refine hdesk.setScan ⟨hallowed,.at (seen ++ [path]) rest hpaths hdiscovered hbelow ?_⟩
            simp only [Counts.total, Counts.fail, Counts.discover] at total ⊢
            omega
          next data hread =>
            obtain ⟨s,hs,rfl⟩ := Option.map_eq_some_iff.mp h
            have hconfined := readRegularFile_ok hallowed hlisted hread
            refine (hdesk.created hconfined hs).setScan ⟨hallowed,.creating (seen ++ [path]) rest _ hpaths hdiscovered hbelow ?_⟩
            simp only [Counts.total, Counts.discover] at total ⊢
            omega
  | creating seen rest call paths discovered limit total =>
    dsimp only at h discovered limit total paths
    split at h
    · split at h
      next counts' hcreate =>
        cases h
        obtain ⟨hsame,htotal⟩ := create_counted hcreate
        refine hdesk.setScan ⟨hallowed,.at seen rest paths ?_ ?_ ?_⟩
        · exact hsame.trans discovered
        · dsimp only
          omega
        · dsimp only
          omega
      · cases h
        exact hdesk.setScan ⟨hallowed,.raised⟩
    · cases h
  | done discovered limit total => cases h
  | truncated before skipped discovered files total => cases h
  | raised => cases h

theorem step_sound (hdesk : desk.Sound settings disk) (huploading : Uploading l desk) (h : Desk.step settings disk l desk = some desk') :
    desk'.Sound settings disk := by
  cases l with
  | vision l =>
    obtain ⟨s,hs,rfl⟩ := Option.map_eq_some_iff.mp h
    refine ⟨hdesk.outline.step (vision_valid settings.toVisionSettings) hs,?_,?_⟩
    · refine hdesk.sourced.step hdesk.outline ?_ hs
      exact fun q image hl hbegin => uploading_select huploading hl hbegin
    · intro scan hscan
      cases l with
      | restart n => cases hscan
      | call q => exact hdesk.scans scan hscan
      | run j n => exact hdesk.scans scan hscan
      | abort j => exact hdesk.scans scan hscan
  | registerFolder displayName root =>
    cases h
    unfold Desk.registerFolder
    split
    · exact hdesk
    · split
      · exact hdesk
      · exact ⟨hdesk.outline,hdesk.sourced,hdesk.scans⟩
  | scanFolder id =>
    cases h
    unfold Desk.scanFolder
    split
    · exact hdesk
    · split
      · exact hdesk
      · split
        · exact hdesk
        next root hroot =>
          refine ⟨hdesk.outline,hdesk.sourced,?_⟩
          intro scan hscan
          cases List.mem_append.mp hscan with
          | inl hold => exact hdesk.scans scan hold
          | inr hnew =>
            rw [List.mem_singleton.mp hnew]
            exact ⟨allowedDirectory_ok hroot,.at [] (listing disk root) rfl rfl (Nat.zero_le _) rfl⟩
  | resume i =>
    obtain ⟨scan,hi,hresume⟩ := Option.bind_eq_some_iff.mp h
    exact resumeScan_sound hdesk (hdesk.scans scan (List.mem_of_getElem? hi)) hresume

theorem initial_sound (settings : FolderSettings) (disk : Disk) : Desk.initial.Sound settings disk := by
  refine ⟨Database.Outline.initial_holds trivial,?_,?_⟩
  · constructor
    · rintro r (hr | ⟨j,pc,⟨q,hq⟩,-⟩)
      · cases hr
      · cases hq
    · rintro j pc image ⟨q,hq⟩ _
      cases hq
  · intro scan hscan
    cases hscan

/-- However scans, uploads, deletions, cancellations and restarts interleave: an asset of a folder has the name and the digest of a
regular file below an allowed root, with no link between them, that is not too large. -/
theorem folder_assets_confined (h : Reaches (Desk.step settings disk) Uploading Desk.initial desk) {r : VisionAssetRecord}
    (hr : r ∈ desk.vision.db) (hfolder : r.sourceType = "folder") :
    ∃ name data, Confined settings disk name data ∧ r.filename = safeFilename name ∧ r.sha256 = (settings.sha256 data).text := by
  have hdesk : desk.Sound settings disk := h.invariant (fun _ _ _ hdesk hl hstep => step_sound hdesk hl hstep) (initial_sound settings disk)
  obtain ⟨image,id,himage,hrecord⟩ := hdesk.sourced.rows r (.inl hr)
  have hsource : r.sourceType = image.sourceType := by rw [hrecord, Image.record]
  have hname : r.filename = safeFilename image.filename := by rw [hrecord, Image.record]
  have hdigest : r.sha256 = (settings.sha256 image.data).text := by rw [hrecord, Image.record, Image.digest]
  exact ⟨image.filename,image.data,himage (hsource ▸ hfolder),hname,hdigest⟩

/-- A folder with a link, a directory and a file that cannot be read and a file that is too large. -/
def photoDisk : Disk := ⟨true,["photos","notes"],fun name =>
  if name = "photos" then
    .directory true ["pixel.png","album","away","locked","huge.png"] fun name =>
      if name = "pixel.png" then .file [137] true
      else if name = "album" then .directory true ["copy.png"] fun _ => .file [137] false
      else if name = "away" then .link true ["notes"]
      else if name = "locked" then .directory false ["hidden.png"] fun _ => .file [137] true
      else .file (List.replicate 17 0) true
  else .file [0] true⟩

def photoSettings : FolderSettings where
  visionEnabled := true
  maxFileSizeBytes := 16
  maxImagePixels := 1
  decode := fun _ => some ⟨1,1,"PNG"⟩
  sha256 := fun _ => ⟨String.ofList (List.replicate 64 'b'),by simp⟩
  maxScanFiles := 9
  allowedRoots := [["photos"]]
  links := 40

def photoScan : List DeskLabel :=
  [.registerFolder "Photos" ["photos"],.scanFolder 0,.resume 0] ++ List.replicate 7 (.vision (.run 0 0)) ++ List.replicate 7 (.resume 0)

theorem photoScan_run : (exec (Desk.step photoSettings photoDisk) photoScan Desk.initial).isSome = true := by decide +kernel

def photoDesk : Desk := after (Desk.step photoSettings photoDisk) photoScan Desk.initial photoScan_run

theorem photoDesk_reached : Reaches (Desk.step photoSettings photoDisk) Uploading Desk.initial photoDesk :=
  after_reaches Uploading photoScan_run (by decide +kernel)

theorem folder_assets_confined_sample : ∃ r ∈ photoDesk.vision.db, r.sourceType = "folder" ∧ ∃ name data,
    Confined photoSettings photoDisk name data ∧ r.filename = safeFilename name ∧ r.sha256 = (photoSettings.sha256 data).text := by
  have hrow : ∃ r ∈ photoDesk.vision.db, r.sourceType = "folder" := by decide +kernel
  obtain ⟨r,hr,hfolder⟩ := hrow
  exact ⟨r,hr,hfolder,folder_assets_confined photoDesk_reached hr hfolder⟩

/-- A regular file below the folder, with no link on the way and through directories that can be listed. -/
def FileBelow (disk : Disk) (root path : Path) : Prop :=
  ∃ node below content readable, disk.root.get root = some node ∧ node.Reached below ∧ path = root ++ below ∧
    disk.root.get path = some (.file content readable)

/-- The files of a listing are those below the folder, each once. -/
theorem regularFiles_below (disk : Disk) (root : Path) : ∃ files : List Path, files.Nodup ∧ (∀ path, path ∈ files ↔ FileBelow disk root path) ∧
    files.length = regularFiles disk (listing disk root) := by
  refine ⟨(listing disk root).filter fun path => (disk.root.get path).any Node.isFile,?_,?_,List.countP_eq_length_filter.symm⟩
  · apply List.Nodup.filter
    unfold listing
    cases disk.root.get root with
    | none => exact List.nodup_nil
    | some node => exact Node.walk_nodup
  · intro path
    rw [List.mem_filter]
    unfold FileBelow listing
    cases hnode : disk.root.get root with
    | none =>
      refine iff_of_false ?_ ?_
      · rintro ⟨hlisted,-⟩
        cases hlisted
      · rintro ⟨node,below,content,readable,hsome,-⟩
        cases hsome
    | some node =>
      constructor
      · rintro ⟨hlisted,hfile⟩
        obtain ⟨below,hbelow,rfl⟩ := Node.mem_walk.mp hlisted
        obtain ⟨found,hfound,hregular⟩ := (Option.any_eq_true _ _).mp hfile
        cases found with
        | file content readable => exact ⟨node,below,content,readable,rfl,hbelow,rfl,hfound⟩
        | directory | link | other => cases hregular
      · rintro ⟨_,below,content,readable,⟨⟩,hbelow,rfl,hfile⟩
        refine ⟨Node.mem_walk.mpr ⟨below,hbelow,rfl⟩,?_⟩
        rw [hfile]
        rfl

/-- A scan that has ended with its counts has discovered every regular file below its folder and counted one outcome for each, or as
many as a scan may discover, and one skip more for what it has left. -/
theorem scan_counts (h : Reaches (Desk.step settings disk) Uploading Desk.initial desk) (hscan : scan ∈ desk.scans) (hdone : scan.pc = .done) :
    ∃ files : List Path, files.Nodup ∧ (∀ path, path ∈ files ↔ FileBelow disk scan.root path) ∧
      (files.length ≤ settings.maxScanFiles ∧ scan.counts.discovered = files.length ∧ scan.counts.total = files.length ∨
        settings.maxScanFiles ≤ files.length ∧ ∃ before : Counts, scan.counts = before.skip ∧ before.discovered = settings.maxScanFiles ∧
          before.total = settings.maxScanFiles) := by
  have hdesk : desk.Sound settings disk := h.invariant (fun _ _ _ hdesk hl hstep => step_sound hdesk hl hstep) (initial_sound settings disk)
  have hcounted := (hdesk.scans scan hscan).counted
  obtain ⟨files,hnodup,hfiles,hlength⟩ := regularFiles_below disk scan.root
  refine ⟨files,hnodup,hfiles,?_⟩
  rw [hlength]
  rw [hdone] at hcounted
  cases hcounted with
  | done discovered limit total => exact .inl ⟨discovered ▸ limit,discovered,total.trans discovered⟩
  | truncated before skipped discovered files total => exact .inr ⟨files,before,skipped,discovered,total⟩

/-- A scan that may discover two files. -/
def shortSettings : FolderSettings := { photoSettings with maxScanFiles := 2 }

theorem shortScan_run : (exec (Desk.step shortSettings photoDisk) photoScan.dropLast Desk.initial).isSome = true := by decide +kernel

def shortDesk : Desk := after (Desk.step shortSettings photoDisk) photoScan.dropLast Desk.initial shortScan_run

theorem scan_counts_sample : ∃ scan ∈ shortDesk.scans, scan.counts.skipped = 2 ∧ ∃ files : List Path, files.Nodup ∧
    (∀ path, path ∈ files ↔ FileBelow photoDisk scan.root path) ∧ 2 ≤ files.length ∧ ∃ before : Counts, scan.counts = before.skip ∧
      before.discovered = 2 ∧ before.total = 2 := by
  have hreached : Reaches (Desk.step shortSettings photoDisk) Uploading Desk.initial shortDesk :=
    after_reaches Uploading shortScan_run (by decide +kernel)
  have hended : ∃ scan ∈ shortDesk.scans, scan.pc = .done ∧ scan.counts.discovered = 2 ∧ scan.counts.total = 3 ∧ scan.counts.skipped = 2 := by
    decide +kernel
  obtain ⟨scan,hscan,hdone,hdiscovered,htotal,hskipped⟩ := hended
  obtain ⟨files,hnodup,hfiles,⟨-,hall,hcounted⟩ | ⟨hlong,hcut⟩⟩ := scan_counts hreached hscan hdone
  · omega
  · exact ⟨scan,hscan,hskipped,files,hnodup,hfiles,hlong,hcut⟩

end Scans
end AgentGraph.Vision
