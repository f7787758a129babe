import SolidSidecar.Go.Os
import SolidSidecar.Run.Proc
import SolidSidecar.Storage.Wire

/-!
# The filesystem backend

`filesystem.go`: a resource is a file below the root path, its metadata a file beside it with
`.meta.json` at the end of its name. Tombstones and quotas are kept in memory and written to files of
their own, from which `Initialize` reads them back. A method is a procedure on the backend and the disk.

The root path is part of the `Site` and not of the state: `Initialize` sets it before anything else. Locks,
contexts, logs and nil arguments are left out. Of an error the text before what it wraps is kept, but not
what `SanitizeError` rewrites in it. `Backup`, `Restore` and `ScanIntegrity` of the backend, which the
engine does not call, are left out.
-/

namespace Storage
open Go Json Rfc3339 Run Strings

def maxStorageRootLength : Nat := 1024

def maxTenantLength : Nat := 256

def minSupportedStorageLayoutVersion : StorageLayoutVersion := 1

/-- What a method of the backend reports: an error of the storage layer, one of the system, or one of
`encoding/json`, each with the format that wraps it. -/
inductive FsError where
  | storage (err : StorageError)
  | text (message : String)
  | os (format : String) (err : OsError)
  | json (format : String)
  deriving DecidableEq, Repr

/-- Where a backend keeps its files. `NewFilesystemBackend` and `Initialize` leave no root path empty. -/
structure Site where
  rootPath : Str
  named : rootPath ≠ []
  sys : System

structure FilesystemBackend where
  machine : Machine
  quotaUsage : GoMap Str QuotaUsageInfo := ∅
  tombstones : GoMap Str Tombstone := ∅
  closed : Bool := false

abbrev Fs (α : Type) := Proc FilesystemBackend FsError α

def os {α : Type} (call : Machine → α × Machine) : Fs α := fun b =>
  (.ok (call b.machine).1, { b with machine := (call b.machine).2 })

def trimSlashes (s : Str) : Str := trimRight (s.dropWhile (· == '/'.toUInt8)) '/'.toUInt8

/-- The part of a resource's path below the root path. -/
def safeURI (uri : Str) : Str :=
  let cleanURI := trimSlashes uri
  let cleanURI := if cleanURI = [] then str "root" else cleanURI
  replaceAll (replaceAll cleanURI ":" "_") "?" "_"

namespace Site

variable (site : Site)

def uriToPath (uri : Str) : Str := Filepath.join [site.rootPath, safeURI uri]

def pathToURI (path : Str) : Str :=
  let relativePath := trimPrefix path site.rootPath
  if relativePath = [] then "/"
  else
    let uri := replaceAll relativePath "\\" "/"
    if hasPrefix uri "/" then uri else "/" ++ uri

def metadataPath (uri : Str) : Str := site.uriToPath uri ++ ".meta.json"

def blobPath (address : ContentAddress) : Str := Filepath.join [site.rootPath, "blobs", address]

def metadataDir : Str := Filepath.join [site.rootPath, ".metadata"]

def tombstonesDir : Str := Filepath.join [site.rootPath, ".tombstones"]

def quotaPath (storageRoot : Str) : Str :=
  Filepath.join [site.rootPath, ".metadata", "quota_" ++ replaceAll storageRoot "/" "_" ++ ".json"]

def tombstonePath (uri : Str) : Str :=
  Filepath.join [site.rootPath, ".tombstones",
    replaceAll (trimPrefix uri "/") "/" "_" ++ ".json"]

def versionPath : Str := Filepath.join [site.rootPath, ".metadata", "layout_version"]

end Site

def validateStorageRoot (storageRoot : Str) : Except StorageError Unit :=
  if storageRoot = [] then .ok ()
  else do
    refuse (storageRoot.length > maxStorageRootLength) .uriTooLong
    let _ ← validateURI storageRoot
    .ok ()

def validateTombstone (t : Tombstone) : Except FsError Unit := do
  refuse (t.uri = []) (.storage .emptyURI)
  refuse (t.uri.length > maxURILength) (.storage .uriTooLong)
  refuse (t.deletedBy.length > maxTenantLength) (.text "deletedBy exceeds maximum length")
  refuse (t.reason.length > 1024) (.text "reason exceeds maximum length")
  refuse (t.restoreToken.length > 256) (.text "restoreToken exceeds maximum length")

def tombstoneURI (fileName : Str) : Str :=
  let uri := trimSuffix (replaceAll fileName "_" "/") ".json"
  if uri = [] then "/" else if hasPrefix uri "/" then uri else "/" ++ uri

/-- The storage root under which a quota file is loaded. -/
def quotaRoot (fileName : Str) : Str :=
  let storageRoot := trimSuffix (trimPrefix fileName "quota_") ".json"
  let storageRoot := replaceAll storageRoot "_" "/"
  if storageRoot = [] then "/" else storageRoot

/-- `fmt.Sscanf(text, "%d", &n)`, which skips blanks (here those of ASCII) but no line end. -/
def scanInt (text : Str) : Option Int :=
  let s := text.dropWhile fun b => b == 0x20 || b == 0x09 || (0x0B ≤ b && b ≤ 0x0D)
  let (negative, s) : Bool × Str := match s with
    | 0x2D :: rest => (true, rest)
    | 0x2B :: rest => (false, rest)
    | _ => (false, s)
  let ds := s.takeWhile isDigit
  if ds = [] then none
  else
    let n : Int := if negative then -(natOf ds : Int) else natOf ds
    if -2 ^ 63 ≤ n ∧ n < 2 ^ 63 then some n else none

namespace FilesystemBackend

/-- What a call of the storage layer's own checks reports. -/
def checked {α : Type} (result : Except StorageError α) : Fs α := Proc.of (result.mapError .storage)

def checkClosed : Fs Unit := fun b =>
  (if b.closed then .error (.storage .storageClosed) else .ok (), b)

def isTombstoned (uri : Str) : Fs Bool := Proc.read fun b => (b.tombstones.lookup uri).isSome

def orFail {α : Type} (format : String) : Except OsError α → Fs α
  | .ok a => pure a
  | .error err => Proc.fail (.os format err)

variable (site : Site)

def saveQuotaInfo (now : Time) (storageRoot : Str) (usage : QuotaUsageInfo) : Fs (Except OsError Unit) :=
  os (Machine.writeFile site.sys now (site.quotaPath storageRoot) (marshalUsage indented usage))

def setUsage (storageRoot : Str) (usage : QuotaUsageInfo) : Fs Unit :=
  Proc.modify fun b => { b with quotaUsage := b.quotaUsage.insert storageRoot usage }

def checkAndUpdateQuota (now : Time) (storageRoot : Str) (additionalBytes : Int) : Fs Unit := do
  let usage ← Proc.read fun b => (b.quotaUsage.lookup storageRoot).getD {}
  setUsage storageRoot usage
  let used := wrap64 (usage.usedBytes + additionalBytes)
  Proc.of (refuse (usage.maxBytes > 0 ∧ used > usage.maxBytes) (.storage .quotaExceeded))
  Proc.of (refuse (usage.maxResources > 0 ∧ wrap64 (usage.usedResources + 1) > usage.maxResources)
    (.storage .quotaExceeded))
  let usage := { usage with usedBytes := used, usedResources := wrap64 (usage.usedResources + 1) }
  setUsage storageRoot usage
  -- An error of the write is only logged.
  let _ ← saveQuotaInfo site now storageRoot usage
  pure ()

def rollbackQuota (now : Time) (storageRoot : Str) (bytesFreed : Int) : Fs Unit := do
  match ← Proc.read fun b => b.quotaUsage.lookup storageRoot with
  | none => pure ()
  | some usage =>
    let usage :=
      { usage with
        usedBytes := max 0 (wrap64 (usage.usedBytes - bytesFreed))
        usedResources := max 0 (wrap64 (usage.usedResources - 1)) }
    setUsage storageRoot usage
    let _ ← saveQuotaInfo site now storageRoot usage
    pure ()

def getQuota (storageRoot : Str) : Fs QuotaInfo := do
  checked (validateStorageRoot storageRoot)
  checkClosed
  match ← Proc.read fun b => b.quotaUsage.lookup storageRoot with
  | none => pure { storageRoot }
  | some usage =>
    pure
      { storageRoot, usedBytes := usage.usedBytes, maxBytes := usage.maxBytes
        usedResources := usage.usedResources, maxResources := usage.maxResources }

def checkQuota (now : Time) (storageRoot : Str) (additionalBytes : Int) : Fs Unit := do
  Proc.of (refuse (additionalBytes < 0) (.text "additional bytes cannot be negative"))
  checked (validateStorageRoot storageRoot)
  checkClosed
  checkAndUpdateQuota site now storageRoot additionalBytes

variable [Unicode] (sha256 : Str → Str)

/-- The metadata of a resource for `Get`, empty when there is no file of them. -/
def readMetadata (uri : Str) : Fs Metadata := do
  match ← os (Machine.readFile site.sys (site.metadataPath uri)) with
  | .ok text =>
    match unmarshalMetadata text with
    | some m => pure m
    | none => Proc.fail (.json "failed to parse metadata: %w")
  | .error .notExist => pure {}
  | .error err => Proc.fail (.os "failed to read metadata: %w" err)

def lastModifiedOf (uri : Str) (m : Metadata) : Fs Time := do
  if m.lastModified.isZero then
    match ← os (Machine.stat site.sys (site.uriToPath uri)) with
    | .ok info => pure info.modTime
    | .error _ => pure m.lastModified
  else pure m.lastModified

def readResource (uri : Str) : Fs Resource := do
  match ← os (Machine.readFile site.sys (site.uriToPath uri)) with
  | .error .notExist => Proc.fail (.storage .notFound)
  | .error err => Proc.fail (.os "failed to read resource: %w" err)
  | .ok data =>
    let m ← readMetadata site uri
    let lastModified ← lastModifiedOf site uri m
    pure
      { uri
        body := some data
        metadata :=
          { m with
            uri := if m.uri = [] then uri else m.uri
            size := if m.size = 0 then data.length else m.size
            lastModified
            etag := if m.etag = [] then generateETag sha256 data else m.etag
            resourceType := if m.resourceType = [] then resourceTypeResource else m.resourceType } }

def get (uri : Str) : Fs Resource := do
  checkClosed
  Proc.of (refuse (uri = []) (.storage .emptyURI))
  if ← isTombstoned uri then Proc.fail (.storage .notFound)
  else readResource site sha256 uri

def generateETagFromFilePath (path : Str) : Fs Str := do
  match ← os (Machine.stat site.sys path) with
  | .ok info => pure (generateETag sha256 (path ++ site.sys.localTime info.modTime))
  | .error _ => pure (generateETag sha256 path)

/-- The metadata of a resource without a file of them. -/
def basicMetadata (uri : Str) (format : String) : Fs Metadata := do
  match ← os (Machine.stat site.sys (site.uriToPath uri)) with
  | .error .notExist => Proc.fail (.storage .notFound)
  | _ =>
    let info ← orFail format (← os (Machine.stat site.sys (site.uriToPath uri)))
    pure { uri, resourceType := resourceTypeResource, size := info.size, lastModified := info.modTime }

def sizeOf (uri : Str) (m : Metadata) : Fs Int := do
  if m.size = 0 then
    match ← os (Machine.stat site.sys (site.uriToPath uri)) with
    | .ok info => pure info.size
    | .error _ => pure m.size
  else pure m.size

def getMetadata (uri : Str) : Fs Metadata := do
  checkClosed
  if ← isTombstoned uri then Proc.fail (.storage .notFound)
  else
    match ← os (Machine.readFile site.sys (site.metadataPath uri)) with
    | .error .notExist =>
      let m ← basicMetadata site uri "failed to stat resource: %w"
      let etag ← generateETagFromFilePath site sha256 (site.uriToPath uri)
      pure { m with etag }
    | .error err => Proc.fail (.os "failed to read metadata: %w" err)
    | .ok text =>
      match unmarshalMetadata text with
      | none => Proc.fail (.json "failed to parse metadata: %w")
      | some m =>
        let size ← sizeOf site uri m
        pure { m with uri := if m.uri = [] then uri else m.uri, size }

def getMetadataNoLock (uri : Str) : Fs Metadata := do
  Proc.of (refuse (uri = []) (.storage .emptyURI))
  match ← os (Machine.readFile site.sys (site.metadataPath uri)) with
  | .error .notExist => basicMetadata site uri "%w"
  | .error err => Proc.fail (.os "%w" err)
  | .ok text =>
    match unmarshalMetadata text with
    | none => Proc.fail (.json "%w")
    | some m => pure m

/-- The loop of `List` over the entries of a directory. -/
def listEntries (containerPath : Str) : List (Str × Bool) → List Metadata → Fs (List Metadata)
  | [], found => pure found
  | (name, isDir) :: rest, found => do
    if isDir || hasSuffix name ".meta.json" then listEntries containerPath rest found
    else
      let uri := site.pathToURI (Filepath.join [containerPath, name])
      if ← isTombstoned uri then listEntries containerPath rest found
      else
        match ← Proc.attempt (getMetadataNoLock site uri) with
        | .error _ => listEntries containerPath rest found
        | .ok m =>
          if found.length ≥ maxResourceCountPerList then pure found
          else listEntries containerPath rest (found ++ [m])

def list (containerURI : Str) : Fs (List Metadata) := do
  let uri ← checked (validateURI containerURI)
  checkClosed
  let path := site.uriToPath uri
  let containerPath := if hasSuffix path "/" then path else path ++ "/"
  match ← os (Machine.readDir site.sys containerPath) with
  | .error .notExist => pure []
  | .error err => Proc.fail (.os "failed to read directory: %w" err)
  | .ok entries => listEntries site containerPath entries []

def existsAt (uri : Str) : Fs Bool := do
  let uri ← checked (validateURI uri)
  checkClosed
  if ← isTombstoned uri then pure false
  else
    match ← os (Machine.stat site.sys (site.uriToPath uri)) with
    | .ok _ => pure true
    | .error .notExist => pure false
    | .error err => Proc.fail (.os "%w" err)

/-- The entity tag of what is stored, if anything is, for the preconditions: errors in the metadata are
ignored (`getResourceNoLock`). -/
def currentETag (uri : Str) : Fs (Option Str) := do
  if ← isTombstoned uri then pure none
  else
    match ← os (Machine.readFile site.sys (site.uriToPath uri)) with
    | .error .notExist => pure none
    | .error err => Proc.fail (.os "failed to check preconditions: %w" err)
    | .ok _ =>
      match ← os (Machine.readFile site.sys (site.metadataPath uri)) with
      | .ok text => pure (some (looseField "ETag" intoString [] text))
      | .error _ => pure (some [])

def ifMatchFails (current : Option Str) (tag : Str) : Bool :=
  tag ≠ [] && if tag = "*" then current.isNone else current ≠ some tag

/-- `If-None-Match` against the tag of what is stored. -/
def ifNoneMatchFails (current : Option Str) (tag : Str) : Bool :=
  tag ≠ [] && if tag = "*" then current.isSome else current = some tag

def checkPreconditions (uri : Str) (p : WritePrecondition) : Fs Unit := do
  if p.ifMatch = [] ∧ p.ifNoneMatch = [] then pure ()
  else
    let current ← currentETag site uri
    Proc.of (refuse (ifMatchFails current p.ifMatch = true) (.storage .preconditionFailed))
    Proc.of (refuse (ifNoneMatchFails current p.ifNoneMatch = true) (.storage .preconditionFailed))

/-- The metadata that `Put` writes: what the caller left out is filled in. -/
def prepareMetadata (now : Time) (uri : Str) (body : Option Str) (m : Metadata) : Metadata :=
  { m with
    uri := if m.uri = [] then uri else m.uri
    size := if m.size = 0 then (bytesOf body).length else m.size
    lastModified := if m.lastModified.isZero then now else m.lastModified
    etag := if m.etag = [] then (body.map (generateETag sha256)).getD [] else m.etag
    resourceType := if m.resourceType = [] then resourceTypeResource else m.resourceType
    storageRoot := storageRootOf uri m
    layoutVersion := if m.layoutVersion = 0 then currentStorageLayoutVersion else m.layoutVersion }

/-- What a write counts: its body and an estimate of its metadata. -/
def resourceSize (body : Option Str) (m : Metadata) : Int := (bytesOf body).length + estimateMetadataSize m

/-- Count a write against the quota of its storage root. -/
def charge (now : Time) (storageRoot : Str) (resourceSize : Int) : Fs Unit :=
  if resourceSize > 0 then checkAndUpdateQuota site now storageRoot resourceSize else pure ()

/-- The body of a resource; a write that fails gives back what the body took. -/
def writeBody (now : Time) (uri storageRoot : Str) (body : Option Str) : Fs Unit := do
  match ← os (Machine.writeFile site.sys now (site.uriToPath uri) (bytesOf body)) with
  | .ok () => pure ()
  | .error err =>
    if body.isSome ∧ storageRoot ≠ [] then do
      rollbackQuota site now storageRoot (bytesOf body).length
      Proc.fail (.os "failed to write resource: %w" err)
    else Proc.fail (.os "failed to write resource: %w" err)

def writeMetadata (now : Time) (uri : Str) (m : Metadata) : Fs Unit := do
  match marshalMetadata indented 0 m with
  | none => Proc.fail (.json "failed to marshal metadata: %w")
  | some text =>
    orFail "failed to write metadata: %w" (← os (Machine.writeFile site.sys now (site.metadataPath uri) text))

def put (now : Time) (uri : Str) (r : WriteResource) : Fs Unit := do
  checkClosed
  Proc.of (refuse (uri = []) (.text "URI cannot be empty"))
  checkPreconditions site uri r.preconditions
  orFail "failed to create directory: %w" (← os (Machine.mkdirAll site.sys (Filepath.dir (site.uriToPath uri))))
  let body ← checked r.readBody
  let storageRoot := storageRootOf uri r.metadata
  charge site now storageRoot (resourceSize body r.metadata)
  writeBody site now uri storageRoot body
  writeMetadata site now uri (prepareMetadata sha256 now uri body r.metadata)
  Proc.modify fun b => { b with tombstones := b.tombstones.erase uri }

def removeAny (format : String) (path : Str) : Fs Unit := do
  match ← os (Machine.remove site.sys path) with
  | .ok () => pure ()
  | .error .notExist => pure ()
  | .error err => Proc.fail (.os format err)

def delete (now : Time) (uri : Str) : Fs Unit := do
  let validated ← checked (validateURI uri)
  checkClosed
  -- The metadata are those of the URI as it was given.
  let text := match ← os (Machine.readFile site.sys (site.metadataPath uri)) with
    | .ok text => text
    | .error _ => []
  let size := looseField "Size" intoInt64 0 text
  let root := looseField "StorageRoot" intoString [] text
  removeAny site "failed to remove resource: %w" (site.uriToPath validated)
  removeAny site "failed to remove metadata: %w" (site.metadataPath uri)
  if size > 0 then
    rollbackQuota site now (if root = [] then defaultStorageRoot validated else root) size

def storeBlob (now : Time) (data : Str) : Fs ContentAddress := do
  checked (validateBodySize data)
  let address := computeContentAddress sha256 data
  checked (validateContentAddress address)
  checkClosed
  orFail "%w" (← os (Machine.mkdirAll site.sys (Filepath.dir (site.blobPath address))))
  orFail "%w" (← os (Machine.writeFile site.sys now (site.blobPath address) data))
  pure address

def getBlob (address : ContentAddress) : Fs Str := do
  checked (validateContentAddress address)
  checkClosed
  match ← os (Machine.readFile site.sys (site.blobPath address)) with
  | .error .notExist => Proc.fail (.storage .notFound)
  | .error err => Proc.fail (.os "%w" err)
  | .ok data =>
    checked (validateBodySize data)
    pure data

def blobExists (address : ContentAddress) : Fs Bool := do
  checked (validateContentAddress address)
  checkClosed
  match ← os (Machine.stat site.sys (site.blobPath address)) with
  | .ok _ => pure true
  | .error .notExist => pure false
  | .error err => Proc.fail (.os "%w" err)

def deleteBlob (address : ContentAddress) : Fs Unit := do
  checked (validateContentAddress address)
  checkClosed
  orFail "%w" (← os (Machine.remove site.sys (site.blobPath address)))

def getTombstone (uri : Str) : Fs Tombstone := do
  let uri ← checked (validateURI uri)
  checkClosed
  match ← Proc.read fun b => b.tombstones.lookup uri with
  | some tombstone => pure tombstone
  | none => Proc.fail (.storage .notFound)

def dated (now : Time) (t : Tombstone) : Tombstone :=
  { t with deletedAt := if t.deletedAt.isZero then now else t.deletedAt }

def storeTombstone (now : Time) (tombstone : Tombstone) : Fs Unit := do
  Proc.of (validateTombstone tombstone)
  let uri ← checked (validateURI tombstone.uri)
  checkClosed
  let tombstone := dated now tombstone
  Proc.modify fun b => { b with tombstones := b.tombstones.insert uri tombstone }
  -- The file is named after the URI as it was given.
  let path := site.tombstonePath tombstone.uri
  orFail "%w" (← os (Machine.mkdirAll site.sys (Filepath.dir path)))
  match marshalTombstone indented 0 tombstone with
  | none => Proc.fail (.json "%w")
  | some text =>
    orFail "%w" (← os (Machine.writeFile site.sys now path text))
    let _ ← os (Machine.remove site.sys (site.uriToPath uri))
    let _ ← os (Machine.remove site.sys (site.metadataPath uri))
    pure ()

def deleteTombstone (uri : Str) : Fs Unit := do
  let uri ← checked (validateURI uri)
  checkClosed
  Proc.modify fun b => { b with tombstones := b.tombstones.erase uri }
  let _ ← os (Machine.remove site.sys (site.tombstonePath uri))
  pure ()

/-- `ListTombstones`, in the order of a `range` loop that stops at `maxResourceCountPerList`. -/
def listTombstones (order : RangeOrder (Str × Tombstone)) (storageRoot : Str) : Fs (List Tombstone) := do
  checked (validateStorageRoot storageRoot)
  checkClosed
  let entries ← Proc.read fun b => order.visit b.tombstones.pairs
  let inside := entries.filter fun e => storageRoot = [] || hasPrefix e.1 storageRoot
  pure ((inside.map Prod.snd).take maxResourceCountPerList)

def loadTombstone (name : Str) : Fs Unit := do
  if hasSuffix name ".json" then
    match ← os (Machine.readFile site.sys (Filepath.join [site.tombstonesDir, name])) with
    | .error _ => pure ()
    | .ok text =>
      match unmarshalTombstone text with
      | none => pure ()
      | some tombstone =>
        let uri := tombstoneURI name
        Proc.modify fun b => { b with tombstones := b.tombstones.insert uri { tombstone with uri } }

def loadTombstones : Fs Unit := do
  match ← os (Machine.readDir site.sys site.tombstonesDir) with
  | .error _ => pure ()
  | .ok entries => Proc.forEach (fun e : Str × Bool => loadTombstone site e.1) entries

def loadQuota (name : Str) : Fs Unit := do
  if hasPrefix name "quota_" && hasSuffix name ".json" then
    match ← os (Machine.readFile site.sys (Filepath.join [site.metadataDir, name])) with
    | .error _ => pure ()
    | .ok text =>
      match unmarshalUsage text with
      | none => pure ()
      | some usage => setUsage (quotaRoot name) usage

def loadQuotaInfo : Fs Unit := do
  match ← os (Machine.readDir site.sys site.metadataDir) with
  | .error _ => pure ()
  | .ok entries => Proc.forEach (fun e : Str × Bool => loadQuota site e.1) entries

def initializeBackend : Fs Unit := do
  checkClosed
  orFail "%w" (← os (Machine.mkdirAll site.sys site.rootPath))
  orFail "%w" (← os (Machine.mkdirAll site.sys site.metadataDir))
  orFail "%w" (← os (Machine.mkdirAll site.sys (Filepath.join [site.rootPath, "blobs"])))
  orFail "%w" (← os (Machine.mkdirAll site.sys site.tombstonesDir))
  loadTombstones site
  loadQuotaInfo site

def close : Fs Unit := Proc.modify fun b =>
  if b.closed then b else { b with quotaUsage := ∅, tombstones := ∅, closed := true }

def healthCheck : Fs Unit := do
  checkClosed
  let _ ← orFail "storage backend not accessible: %w" (← os (Machine.stat site.sys site.rootPath))
  pure ()

def getLayoutVersion : Fs StorageLayoutVersion := do
  checkClosed
  match ← os (Machine.readFile site.sys site.versionPath) with
  | .error .notExist => pure currentStorageLayoutVersion
  | .error err => Proc.fail (.os "%w" err)
  | .ok text => pure ((scanInt text).getD currentStorageLayoutVersion)

def setLayoutVersion (now : Time) (version : StorageLayoutVersion) : Fs Unit := do
  checkClosed
  Proc.of (refuse (version < minSupportedStorageLayoutVersion)
    (.text "version %d is below minimum supported version %d"))
  orFail "%w" (← os (Machine.mkdirAll site.sys (Filepath.dir site.versionPath)))
  orFail "%w" (← os (Machine.writeFile site.sys now site.versionPath (ofInt version)))

end FilesystemBackend

end Storage
