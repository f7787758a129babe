import SolidSidecar.Storage.Memory

/-!
# The storage engine

`engine.go` and the default stores of `stores.go`, over the memory backend. The metadata and blob stores
delegate to the backend; the tombstone store is a map of the engine's own, beside the tombstones of the
backend, which the engine never writes. A store that the configuration leaves out is a nil interface: a
call of it is a run-time panic, and the outcome of the operation is then `none`.

The invalidators that are registered all get the same events: `invalidations` is what they were given.
The action and the time of an event, which are only logged, are left out, and so are contexts, metrics
and logs.
-/

namespace Storage
open Go

structure EngineConfig where
  enableBlobStorage : Bool := true
  enableQuotaManagement : Bool := false
  enableTombstones : Bool := true
  deriving DecidableEq, Repr

structure CacheInvalidationEvent where
  resourceURI : Str
  isPolicy : Bool
  policyURI : Str
  deriving DecidableEq, Repr

structure StorageEngineImpl where
  config : EngineConfig := {}
  defaultBackend : MemoryBackend := newMemoryBackend
  tombstones : GoMap Str Tombstone := ∅
  quotas : GoMap Str QuotaInfo := ∅
  invalidations : List CacheInvalidationEvent := []

def newStorageEngine (config : EngineConfig) : StorageEngineImpl := { config }

def isPolicyResource (resourceType : ResourceType) : Bool :=
  resourceType = resourceTypeACL || resourceType = resourceTypeACP

/-- `validateResource`: an empty body counts as none. -/
def validateResource (r : WriteResource) : Except StorageError WriteResource := do
  refuse (r.uri = []) .invalidURI
  .ok { r with body := if r.body = some [] then none else r.body }

namespace StorageEngineImpl

variable (s : StorageEngineImpl) (r : WriteResource)

/-- `isTombstoned`: the default store reports no error but `ErrNotFound`. -/
def isTombstoned (uri : Str) : Bool :=
  s.config.enableTombstones && (s.tombstones.lookup uri).isSome

def checkQuota (storageRoot : Str) (additionalBytes : Int) : Except StorageError Unit :=
  let quota := (s.quotas.lookup storageRoot).getD { storageRoot }
  if quota.maxBytes = 0 then .ok ()
  else refuse (wrap64 (quota.usedBytes + additionalBytes) > quota.maxBytes) .quotaExceeded

def recordUsage (storageRoot : Str) (bytesUsed : Int) : StorageEngineImpl :=
  let quota := match s.quotas.lookup storageRoot with
    | none => { storageRoot, usedBytes := bytesUsed }
    | some quota => { quota with usedBytes := wrap64 (quota.usedBytes + bytesUsed) }
  { s with quotas := s.quotas.insert storageRoot quota }

def triggerCacheInvalidation (event : CacheInvalidationEvent) : StorageEngineImpl :=
  { s with invalidations := s.invalidations ++ [event] }

variable (sha256 : Str → Str)

def get (s : StorageEngineImpl) (uri : Str) : Except StorageError Resource := do
  validateStorageURI uri
  refuse (s.isTombstoned uri = true) .notFound
  let resource ← s.defaultBackend.get uri
  let m := resource.metadata
  .ok
    { uri
      body := resource.body
      metadata :=
        { m with
          etag := if m.etag = [] then generateETag sha256 resource.bytes else m.etag
          contentType :=
            if m.contentType = [] then detectContentType uri resource.bytes else m.contentType } }

/-- `GetMetadata`; a tombstone has metadata of its own. -/
def getMetadata (s : StorageEngineImpl) (uri : Str) : Except StorageError Metadata := do
  validateStorageURI uri
  if s.config.enableTombstones then
    match s.tombstones.lookup uri with
    | some tombstone =>
      .ok
        { resourceType := resourceTypeUnknown
          lastModified := tombstone.deletedAt
          owner := tombstone.deletedBy
          custom := Finmap.singleton "tombstoned" "true" }
    | none => s.defaultBackend.getMetadata uri
  else s.defaultBackend.getMetadata uri

def existsAt (s : StorageEngineImpl) (uri : Str) : Except StorageError Bool := do
  validateStorageURI uri
  s.defaultBackend.existsAt uri

def list (s : StorageEngineImpl) (order : RangeOrder (Str × MemoryResource)) (containerURI : Str) :
    Except StorageError (List Metadata) := do
  validateStorageURI containerURI
  let metadataList ← s.defaultBackend.list order containerURI
  .ok (metadataList.filter fun m => !s.isTombstoned m.uri)

/-- The If-None-Match part of `handlePreconditions`; `false` means that the other parts are skipped, as
they are for a resource that does not exist. -/
def checkIfNoneMatch (uri tag : Str) : Except StorageError Bool :=
  if tag = [] then .ok true
  else if tag = "*" then
    match s.existsAt uri with
    | .error err => .error (.errorf "failed to check existence for If-None-Match: %w" err)
    | .ok there => if there then .error .preconditionFailed else .ok true
  else
    match s.getMetadata uri with
    | .error err =>
      if err.is .notFound then .ok false
      else .error (.errorf "failed to get metadata for If-None-Match: %w" err)
    | .ok m => if m.etag = tag then .error .preconditionFailed else .ok true

def checkIfMatch (uri tag : Str) : Except StorageError Unit :=
  if tag = [] then .ok ()
  else if tag = "*" then
    match s.existsAt uri with
    | .error err => .error (.errorf "failed to check existence for If-Match: %w" err)
    | .ok there => refuse (there = false) .preconditionFailed
  else
    match s.getMetadata uri with
    | .error err =>
      if err.is .notFound then .error .preconditionFailed
      else .error (.errorf "failed to get metadata for If-Match: %w" err)
    | .ok m => refuse (m.etag ≠ tag) .preconditionFailed

/-- The compare-and-swap part of `handlePreconditions`, which compares only. -/
def checkCompareAndSwap (uri : Str) :
    Option CompareAndSwapPrecondition → Except StorageError Unit
  | none => .ok ()
  | some cas =>
    match s.getMetadata uri with
    | .error err =>
      if err.is .notFound then .error .preconditionFailed
      else .error (.errorf "failed to get metadata for CompareAndSwap: %w" err)
    | .ok m => refuse ((m.custom.lookup cas.key).getD [] ≠ cas.expectedValue) .preconditionFailed

def handlePreconditions : Except StorageError Unit := do
  let goOn ← s.checkIfNoneMatch r.uri r.preconditions.ifNoneMatch
  if goOn then
    s.checkIfMatch r.uri r.preconditions.ifMatch
    s.checkCompareAndSwap r.uri r.preconditions.compareAndSwap
  else .ok ()

/-- The body size that the quota check takes: a reader without a stated size is read for it, and what
it gives becomes the body. -/
def readForQuota : Except StorageError WriteResource :=
  match r.bodyReader with
  | none => .ok r
  | some read =>
    if r.bodySize = 0 then
      match read with
      | .error text => .error (.errorf "failed to read body for quota check: %w" (.external text))
      | .ok data => .ok { r with body := some data, bodyReader := none, bodySize := data.length }
    else .ok r

def accounts : Bool :=
  s.config.enableQuotaManagement && r.metadata.storageRoot ≠ []

/-- The checks of `Put` before anything is stored, and the resource they leave. -/
def checkPut : Except StorageError WriteResource := do
  validateStorageURI r.uri
  let r ← validateResource r
  let r ← if s.accounts r then readForQuota r else .ok r
  if s.accounts r then
    s.checkQuota r.metadata.storageRoot (wrap64 (r.bodySize + estimateMetadataSize r.metadata))
  s.handlePreconditions r
  .ok r

/-- The blob of a content-addressed resource, whose digest has to be right. -/
def storeContent (s : StorageEngineImpl) (r : WriteResource) :
    StorageEngineImpl × Option (Except StorageError WriteResource) :=
  if r.metadata.contentAddress ≠ [] ∧ r.metadata.digest ≠ [] then
    if computeDigest sha256 (bytesOf r.body) ≠ r.metadata.digest then
      (s, some (.error .integrityViolation))
    else if s.config.enableBlobStorage then
      match s.defaultBackend.storeBlob sha256 (bytesOf r.body) with
      | (b, .error err) =>
        ({ s with defaultBackend := b }, some (.error (.errorf "failed to store blob: %w" err)))
      | (b, .ok address) =>
        ({ s with defaultBackend := b },
          some (.ok { r with metadata := { r.metadata with contentAddress := address } }))
    else (s, none)
  else (s, some (.ok r))

def put (s : StorageEngineImpl) (now : Time) (r : WriteResource) :
    StorageEngineImpl × Option (Except StorageError Unit) :=
  match s.checkPut r with
  | .error err => (s, some (.error err))
  | .ok r =>
    match s.storeContent sha256 r with
    | (s, none) => (s, none)
    | (s, some (.error err)) => (s, some (.error err))
    | (s, some (.ok r)) =>
      match s.defaultBackend.put sha256 now r.uri r with
      | (b, .error err) => ({ s with defaultBackend := b }, some (.error err))
      | (b, .ok ()) =>
        let s := { s with defaultBackend := b }
        let s := if s.accounts r then s.recordUsage r.metadata.storageRoot r.bodySize else s
        (s.triggerCacheInvalidation ⟨r.uri, isPolicyResource r.metadata.resourceType, r.uri⟩, some (.ok ()))

/-- `Delete`: the metadata store deletes from the same backend once more, and the kind of the resource
is looked up after that. -/
def delete (s : StorageEngineImpl) (uri : Str) : StorageEngineImpl × Option (Except StorageError Unit) :=
  match validateStorageURI uri with
  | .error err => (s, some (.error err))
  | .ok () =>
    let b := (s.defaultBackend.delete uri).1
    match deletionError (s.defaultBackend.delete uri).2 with
    | some err => ({ s with defaultBackend := b }, some (.error err))
    | none =>
      let b := (b.delete uri).1
      let isPolicy := match b.getMetadata uri with
        | .ok m => isPolicyResource m.resourceType
        | .error _ => false
      (({ s with defaultBackend := b }).triggerCacheInvalidation ⟨uri, isPolicy, uri⟩, some (.ok ()))

/-- `DeleteWithTombstone`: the tombstone is stored under the URI that it names, if it names one. -/
def deleteWithTombstone (now : Time) (uri : Str) (tombstone : Tombstone) :
    StorageEngineImpl × Option (Except StorageError Unit) :=
  match validateStorageURI uri with
  | .error err => (s, some (.error err))
  | .ok () =>
    if s.config.enableTombstones then
      let tombstone :=
        { tombstone with
          uri := if tombstone.uri = [] then uri else tombstone.uri
          deletedAt := if tombstone.deletedAt.isZero then now else tombstone.deletedAt }
      let tombstones := s.tombstones.insert tombstone.uri tombstone
      let b := (s.defaultBackend.delete uri).1
      match deletionError (s.defaultBackend.delete uri).2 with
      | some err =>
        ({ s with defaultBackend := b, tombstones := tombstones.erase uri }, some (.error err))
      | none => ({ s with defaultBackend := (b.delete uri).1, tombstones }, some (.ok ()))
    else (s, none)

end StorageEngineImpl

end Storage
