import AgentGraph.Domain.Text
import AgentGraph.Foundation.Database

/-! # `VisionService`: the assets and their files

The bytes of an asset lie in a file that is named by their digest. `create_asset` creates
it exclusively before the row is inserted, `delete_asset` removes it after the row has been
deleted. The file operations run in worker threads, which a cancelled call leaves behind.
-/
set_option autoImplicit false
namespace AgentGraph.Vision
open Database hiding Effect Ctl Label step Run

abbrev AssetId := Nat
abbrev Bytes := List UInt8

/-- A value of `hashlib.sha256(..).hexdigest()`. -/
structure Digest where
  text : String
  size : text.toList.length = 64

/-- What the image library finds in the data. -/
structure Decoded where
  width : Nat
  height : Nat
  format : String

structure VisionSettings where
  visionEnabled : Bool
  maxFileSizeBytes : Nat
  maxImagePixels : Nat
  /-- `Image.open` and `verify`, or one of the exceptions that `_validate_image` catches. -/
  decode : Bytes → Option Decoded
  sha256 : Bytes → Digest

structure VisionAssetRecord where
  id : AssetId
  filename : String
  mimeType : String
  sizeBytes : Nat
  sha256 : String
  sourceType : String
  storageLocator : String
deriving DecidableEq

inductive VisionFailure
  | visionError (code message : String)
  | fileExists
  | fileNotFound
  | integrityError
  | invalidRequest
  /-- The await is cancelled, or the database gives up. -/
  | interrupted
deriving DecidableEq

inductive VisionReturn
  | asset (record : VisionAssetRecord)
  | none
deriving DecidableEq

abbrev VisionResult := Except VisionFailure VisionReturn

inductive VisionCall
  | createAsset (filename : String) (declaredMime : Option String) (data : Bytes) (sourceType : String)
  | deleteAsset (assetId : AssetId)
  /-- A worker thread that takes up what a cancelled call has left. -/
  | thread
  /-- What a cancelled call has left is cancelled with it, since no worker thread had taken it up. -/
  | drop

/-- An upload that has passed its checks. -/
structure Image where
  filename : String
  mimeType : String
  format : String
  data : Bytes
  sourceType : String

/-- An open file: a name that has been removed and created again is another one. -/
structure File where
  inode : ℕ
  content : Bytes

/-- A file operation of a worker thread. -/
inductive FileJob
  | create (locator : String) (data : Bytes)
  | write (locator : String) (inode : ℕ) (data : Bytes)
  | unlink (locator : String)

/-- The storage root, and what is left for the worker threads. -/
structure VisionStore where
  files : String → Option File
  jobs : List FileJob
  nextInode : ℕ
  nextId : AssetId

abbrev VisionDb := List VisionAssetRecord

inductive VisionPc
  -- `create_asset`
  | assetSelect (image : Image)
  | assetCreate (image : Image)
  | assetWrite (image : Image) (inode : ℕ)
  | assetInsert (image : Image)
  | assetCommit (image : Image) (record : VisionAssetRecord)
  | assetRefresh (record : VisionAssetRecord)
  | assetPublish (record : VisionAssetRecord)
  -- `delete_asset`
  | deleteGet
  | deleteRead (record : VisionAssetRecord)
  | deleteRow (record : VisionAssetRecord)
  | deleteCommit (record : VisionAssetRecord)
  | deleteExists (locator : String)
  | deleteUnlink (locator : String)
  -- a worker thread
  | threadTake
  | threadRun (job : FileJob)
  | dropTake

abbrev VisionEffect := Database.Effect VisionDb VisionStore VisionPc VisionResult

def allowedFormats : List (String × String) := [("JPEG","image/jpeg"),("PNG","image/png"),("WEBP","image/webp")]

/-- `Path(value).name`. -/
def pathName (value : String) : String :=
  String.ofList (((value.toList.splitOn '/').filter fun part => part ≠ [] ∧ part ≠ ['.']).getLastD [])

/-- `_safe_filename`. -/
def safeFilename (value : String) : String :=
  let name := String.ofList ((strip (pathName value)).toList.take 255)
  if name = "" then "image" else name

/-- `_validate_image`. -/
def validateImage (settings : VisionSettings) (data : Bytes) : Except VisionFailure (String × String) :=
  match settings.decode data with
  | none => .error (.visionError "vision_invalid_image" "Uploaded content is not a supported image")
  | some image =>
    if settings.maxImagePixels < image.width * image.height then
      .error (.visionError "vision_image_too_large" "Image dimensions exceed the configured limit")
    else
      match allowedFormats.lookup image.format with
      | none => .error (.visionError "vision_invalid_image" "Image format is not allowed")
      | some mimeType => .ok (image.format,mimeType)

/-- The checks of `create_asset`. -/
def acceptImage (settings : VisionSettings) (filename : String) (declaredMime : Option String) (data : Bytes)
    (sourceType : String) : Except VisionFailure Image :=
  if !settings.visionEnabled then .error (.visionError "vision_disabled" "Vision is disabled by server configuration")
  else if settings.maxFileSizeBytes < data.length then
    .error (.visionError "vision_image_too_large" "Image exceeds the configured size limit")
  else
    match validateImage settings data with
    | .error e => .error e
    | .ok (format,mimeType) =>
      if declaredMime.getD "" ≠ "" ∧ declaredMime ≠ some mimeType then
        .error (.visionError "vision_invalid_image" "Declared MIME type does not match decoded image")
      else .ok ⟨filename,mimeType,format,data,sourceType⟩

namespace Image

def digest (settings : VisionSettings) (image : Image) : String := (settings.sha256 image.data).text

def locator (settings : VisionSettings) (image : Image) : String :=
  image.digest settings ++ "." ++ image.format.toLower

def record (settings : VisionSettings) (image : Image) (id : AssetId) : VisionAssetRecord :=
  ⟨id,safeFilename image.filename,image.mimeType,image.data.length,image.digest settings,image.sourceType,
    image.locator settings⟩

end Image

namespace VisionStore

/-- `os.open` with `O_CREAT` and `O_EXCL`. -/
def create (store : VisionStore) (locator : String) : Option (ℕ × VisionStore) :=
  if (store.files locator).isSome then none
  else
    some (store.nextInode,{ store with
      files := Function.update store.files locator (some ⟨store.nextInode,[]⟩), nextInode := store.nextInode + 1 })

/-- `file.write` to the descriptor. -/
def write (store : VisionStore) (locator : String) (inode : ℕ) (data : Bytes) : VisionStore :=
  match store.files locator with
  | some file => if file.inode = inode then { store with files := Function.update store.files locator (some ⟨inode,data⟩) } else store
  | none => store

def unlink (store : VisionStore) (locator : String) : Option VisionStore :=
  if (store.files locator).isSome then some { store with files := Function.update store.files locator none } else none

def leave (store : VisionStore) (job : FileJob) : VisionStore := { store with jobs := store.jobs ++ [job] }

end VisionStore

namespace VisionEffect

def goto (pc : VisionPc) (o : VisionStore) : VisionEffect := ⟨.at pc,.keep,o⟩

def write (db : VisionDb) (pc : VisionPc) (o : VisionStore) : VisionEffect := ⟨.at pc,.write db,o⟩

def raise (e : VisionFailure) (o : VisionStore) : VisionEffect := ⟨.done (.error e),.keep,o⟩

def ret (value : VisionReturn) (o : VisionStore) : VisionEffect := ⟨.done (.ok value),.keep,o⟩

end VisionEffect

open VisionEffect

def assetNotFound : VisionFailure := .visionError "vision_asset_not_found" "Vision asset was not found"

namespace VisionDb

def asset (db : VisionDb) (id : AssetId) : Option VisionAssetRecord := db.find? fun record => record.id == id

/-- `INSERT`; the identifier, the digest and the locator are unique. -/
def insert (db : VisionDb) (record : VisionAssetRecord) : Option VisionDb :=
  if db.any fun other =>
      other.id == record.id || other.sha256 == record.sha256 || other.storageLocator == record.storageLocator then none
  else some (db ++ [record])

def delete (db : VisionDb) (id : AssetId) : VisionDb := db.filter fun record => record.id != id

end VisionDb

/-- `create_asset`, statement by statement. -/
def resumeCreate (settings : VisionSettings) (o : VisionStore) (db : VisionDb) : VisionPc → Option VisionEffect
  | .assetSelect image =>
    match db.find? fun record => record.sha256 == image.digest settings with
    | some existing => some (ret (.asset existing) o)
    | none => some (goto (.assetCreate image) o)
  | .assetCreate image =>
    match o.create (image.locator settings) with
    | none => some (raise .fileExists o)
    | some (inode,o) => some (goto (.assetWrite image inode) o)
  | .assetWrite image inode => some (goto (.assetInsert image) (o.write (image.locator settings) inode image.data))
  | .assetInsert image =>
    let record := image.record settings o.nextId
    let o := { o with nextId := o.nextId + 1 }
    match db.insert record with
    -- the statement has taken the lock
    | none => some ⟨.done (.error .integrityError),.write db,o⟩
    | some db => some (write db (.assetCommit image record) o)
  | .assetCommit _ record => some ⟨.at (.assetRefresh record),.commit,o⟩
  | .assetRefresh record =>
    match db.asset record.id with
    | none => some (raise .invalidRequest o)
    | some row => some (goto (.assetPublish row) o)
  | .assetPublish record => some (ret (.asset record) o)
  | _ => none

/-- `delete_asset`, statement by statement. -/
def resumeDelete (o : VisionStore) (db : VisionDb) (assetId : AssetId) : VisionPc → Option VisionEffect
  | .deleteGet =>
    match db.asset assetId with
    | none => some (raise assetNotFound o)
    | some record => some (goto (.deleteRead record) o)
  | .deleteRead record =>
    match db.asset record.id with
    | none => some (goto (.deleteExists record.storageLocator) o)
    | some _ => some (goto (.deleteRow record) o)
  -- a row that is gone by now is not missed
  | .deleteRow record => some (write (db.delete record.id) (.deleteCommit record) o)
  | .deleteCommit record => some ⟨.at (.deleteExists record.storageLocator),.commit,o⟩
  | .deleteExists locator =>
    if (o.files locator).isSome then some (goto (.deleteUnlink locator) o) else some (ret .none o)
  | .deleteUnlink locator =>
    match o.unlink locator with
    | none => some (raise .fileNotFound o)
    | some o => some (ret .none o)
  | _ => none

/-- What a worker thread does that nobody waits for. -/
def resumeThread (o : VisionStore) (n : ℕ) : VisionPc → Option VisionEffect
  | .threadTake => (o.jobs[n]?).map fun job => goto (.threadRun job) { o with jobs := o.jobs.eraseIdx n }
  | .threadRun (.create locator data) =>
    match o.create locator with
    | none => some (raise .fileExists o)
    | some (inode,o) => some (goto (.threadRun (.write locator inode data)) o)
  | .threadRun (.write locator inode data) => some (ret .none (o.write locator inode data))
  | .threadRun (.unlink locator) =>
    match o.unlink locator with
    | none => some (raise .fileNotFound o)
    | some o => some (ret .none o)
  | _ => none

/-- A job that is cancelled before it is run; to write, a thread has taken it up. -/
def resumeDrop (o : VisionStore) (n : ℕ) : VisionPc → Option VisionEffect
  | .dropTake =>
    match o.jobs[n]? with
    | some (.create _ _) | some (.unlink _) => some (ret .none { o with jobs := o.jobs.eraseIdx n })
    | some (.write _ _ _) | none => none
  | _ => none

def VisionCall.begin (settings : VisionSettings) : VisionCall → Database.Ctl VisionPc VisionResult
  | .createAsset filename declaredMime data sourceType =>
    match acceptImage settings filename declaredMime data sourceType with
    | .error e => .done (.error e)
    | .ok image => .at (.assetSelect image)
  | .deleteAsset _ =>
    if settings.visionEnabled then .at .deleteGet
    else .done (.error (.visionError "vision_disabled" "Vision is disabled by server configuration"))
  | .thread => .at .threadTake
  | .drop => .at .dropTake

def VisionCall.resume (settings : VisionSettings) (q : VisionCall) (o : VisionStore) (db : VisionDb) (n : ℕ)
    (pc : VisionPc) : Option VisionEffect :=
  match q with
  | .createAsset _ _ _ _ => resumeCreate settings o db pc
  | .deleteAsset assetId => resumeDelete o db assetId pc
  | .thread => resumeThread o n pc
  | .drop => resumeDrop o n pc

/-- What is left for a worker thread when the await of a statement raises. -/
def VisionPc.job? (settings : VisionSettings) : VisionPc → Option FileJob
  | .assetCreate image => some (.create (image.locator settings) image.data)
  | .assetWrite image inode => some (.write (image.locator settings) inode image.data)
  | .deleteUnlink locator => some (.unlink locator)
  | .threadRun job => some job
  | _ => none

/-- The assets, as calls on the database and the storage root; the number that a step is
given is the job that a thread takes. -/
def vision (settings : VisionSettings) : Database.Program VisionDb VisionStore VisionCall ℕ VisionPc VisionResult where
  begin := fun _ q => q.begin settings
  resume := fun q o db n pc => q.resume settings o db n pc
  abandon := fun _ o pc => ((pc.job? settings).elim o o.leave,.error .interrupted)
  restart := fun _ o => { o with jobs := [] }

end AgentGraph.Vision
