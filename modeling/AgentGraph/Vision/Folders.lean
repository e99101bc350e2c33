import AgentGraph.Foundation.FileTree
import AgentGraph.Vision.Rows

/-! # Folders of images

A folder is registered if its path leads to a directory below an allowed root. A scan lists what
lies below it and creates an asset for each regular file, one after the other, while other calls
create and delete assets. The disk does not change, and the storage root is no part of it; every
directory can be entered, and a scan leaves out what lies below one that it cannot list.
-/
set_option autoImplicit false
namespace AgentGraph.Vision
open FileTree
open Database hiding Effect Ctl Label step Run

abbrev FolderId := Nat

/-- The entries of the root directory. -/
structure Disk where
  readable : Bool
  names : List String
  child : String → Node Bytes

def Disk.root (disk : Disk) : Node Bytes := .directory disk.readable disk.names disk.child

structure FolderSettings extends VisionSettings where
  maxScanFiles : ℕ
  allowedRoots : List Path
  /-- How many links of a path the system follows. -/
  links : ℕ

/-- `VisionFolderRecord`. -/
structure VisionFolder where
  id : FolderId
  displayName : String
  root : Path

/-- What `scan_folder` catches when it reads a file. -/
inductive ReadError
  | visionError
  | osError

section Files
variable (settings : FolderSettings) (disk : Disk)

def folderForbidden : VisionFailure := .visionError "vision_folder_forbidden" "Folder is outside configured vision roots"

/-- `os.stat`. -/
def stat (path : Path) : Option (Node Bytes) := (disk.root.resolve settings.links [] path).bind disk.root.get

/-- `_allowed_directory`. -/
def allowedDirectory (path : Path) : Except VisionFailure Path :=
  match disk.root.resolve settings.links [] path with
  | none => .error .fileNotFound
  | some resolved =>
    if (stat settings disk resolved).any Node.isDirectory && settings.allowedRoots.any fun root => root.isPrefixOf resolved then .ok resolved
    else .error folderForbidden

/-- `os.lstat`, which does not follow the last part. -/
def lstat (path : Path) : Option (Node Bytes) :=
  (disk.root.resolve settings.links [] path.dropLast).bind fun parent => disk.root.get (parent ++ path.getLast?.toList)

/-- `path.is_file() and not path.is_symlink()`. -/
def isRegular (path : Path) : Bool := (stat settings disk path).any Node.isFile && !(lstat settings disk path).any Node.isLink

/-- `_read_regular_file`, which opens the path with `O_NOFOLLOW`. -/
def readRegularFile (path : Path) : Except ReadError Bytes :=
  match lstat settings disk path with
  | some (.file content readable) =>
    if !readable then .error .osError
    else if settings.maxFileSizeBytes < content.length then .error .visionError
    else .ok (content.take (settings.maxFileSizeBytes + 1))
  | some .other => .error .visionError
  | some (.directory _ _ _) | some (.link _ _) | none => .error .osError

/-- `root.rglob("*")`. -/
def listing (root : Path) : List Path := (disk.root.get root).elim [] fun node => node.walk root

end Files

structure Counts where
  discovered : ℕ
  accepted : ℕ
  skipped : ℕ
  failed : ℕ

namespace Counts

def discover (counts : Counts) : Counts := { counts with discovered := counts.discovered + 1 }

def accept (counts : Counts) : Counts := { counts with accepted := counts.accepted + 1 }

def skip (counts : Counts) : Counts := { counts with skipped := counts.skipped + 1 }

def fail (counts : Counts) : Counts := { counts with failed := counts.failed + 1 }

/-- A call of `create_asset` has ended; other exceptions than these end the scan. -/
def create (counts : Counts) : VisionResult → Option Counts
  | .ok _ => some counts.accept
  | .error (.visionError _ _) => some counts.skip
  | .error .fileExists | .error .fileNotFound => some counts.fail
  | .error .integrityError | .error .invalidRequest | .error .interrupted => none

end Counts

inductive ScanPc
  | «at» (rest : List Path)
  | creating (call : ℕ) (rest : List Path)
  | done
  | raised
deriving DecidableEq

structure Scan where
  root : Path
  counts : Counts
  pc : ScanPc

/-- The service with its folders and the scans in progress. -/
structure Desk where
  vision : VisionState
  folders : List VisionFolder
  scans : List Scan

inductive DeskLabel
  /-- What the other calls do, and a restart. -/
  | vision (l : Database.Label VisionCall ℕ)
  | registerFolder (displayName : String) (root : Path)
  | scanFolder (id : FolderId)
  | resume (i : ℕ)

namespace Desk
variable (settings : FolderSettings) (disk : Disk)

def setScan (desk : Desk) (i : ℕ) (scan : Scan) : Desk := { desk with scans := desk.scans.set i scan }

/-- The row has the resolved path. -/
def registerFolder (desk : Desk) (displayName : String) (root : Path) : Desk :=
  if !settings.visionEnabled then desk
  else
    match allowedDirectory settings disk root with
    | .error _ => desk
    | .ok path => { desk with folders := desk.folders ++ [⟨desk.folders.length,displayName,path⟩] }

def scanFolder (desk : Desk) (id : FolderId) : Desk :=
  if !settings.visionEnabled then desk
  else
    match desk.folders.find? fun folder => folder.id == id with
    | none => desk
    | some folder =>
      match allowedDirectory settings disk folder.root with
      | .error _ => desk
      | .ok root => { desk with scans := desk.scans ++ [⟨root,⟨0,0,0,0⟩,.at (listing disk root)⟩] }

def resumeScan (desk : Desk) (i : ℕ) (scan : Scan) : Option Desk :=
  match scan.pc with
  | .at [] => some (desk.setScan i { scan with pc := .done })
  | .at (path :: rest) =>
    if settings.maxScanFiles ≤ scan.counts.discovered then some (desk.setScan i { scan with counts := scan.counts.skip, pc := .done })
    else if !isRegular settings disk path then some (desk.setScan i { scan with pc := .at rest })
    else
      match readRegularFile settings disk path with
      | .error .visionError => some (desk.setScan i { scan with counts := scan.counts.discover.skip, pc := .at rest })
      | .error .osError => some (desk.setScan i { scan with counts := scan.counts.discover.fail, pc := .at rest })
      | .ok data =>
        (Database.step (Vision.vision settings.toVisionSettings) (.call (.createAsset (path.getLastD "") none data "folder")) desk.vision).map fun after =>
          { desk with vision := after }.setScan i { scan with counts := scan.counts.discover, pc := .creating desk.vision.count rest }
  | .creating call rest =>
    match desk.vision.tasks call with
    | some (_,.done result) =>
      match scan.counts.create result with
      | some counts => some (desk.setScan i { scan with counts := counts, pc := .at rest })
      | none => some (desk.setScan i { scan with pc := .raised })
    | _ => none
  | .done | .raised => none

def step : DeskLabel → Desk → Option Desk
  | .vision l, desk =>
    (Database.step (Vision.vision settings.toVisionSettings) l desk.vision).map fun after =>
      { desk with vision := after, scans := match l with
        | .restart _ => []
        | _ => desk.scans }
  | .registerFolder displayName root, desk => some (desk.registerFolder settings disk displayName root)
  | .scanFolder id, desk => some (desk.scanFolder settings disk id)
  | .resume i, desk => desk.scans[i]?.bind (desk.resumeScan settings disk i)

def initial : Desk := ⟨Database.State.initial [] ⟨fun _ => none,[],0,0⟩,[],[]⟩

end Desk

/-- The other calls create no asset of a folder. -/
def Uploading : DeskLabel → Desk → Prop
  | .vision (.call (.createAsset _ _ _ sourceType)), _ => sourceType ≠ "folder"
  | _, _ => True

instance Uploading.decidable : (l : DeskLabel) → (desk : Desk) → Decidable (Uploading l desk)
  | .vision (.call (.createAsset _ _ _ sourceType)), _ => inferInstanceAs (Decidable (sourceType ≠ "folder"))
  | .vision (.call (.deleteAsset _)), _ | .vision (.call .thread), _ | .vision (.call .drop), _ | .vision (.run _ _), _ | .vision (.abort _), _
  | .vision (.restart _), _ | .registerFolder _ _, _ | .scanFolder _, _ | .resume _, _ => .isTrue trivial

end AgentGraph.Vision
