import SolidSidecar.Go.Map
import SolidSidecar.Go.Time
import SolidSidecar.Run.Machine
import SolidSidecar.Runtime.Validation

/-!
# The runtime's storage

`InMemoryStorageBackend` of `storage.go` and the conditional operations of `storage_conditional.go`. A
resource is given by value: the backend keeps copies. The custom metadata, which no check reads, and the
mutex are left out. The time of a call is an argument.
-/

namespace Runtime
open Go

/-- What `net/http` reports when it has no response to give, and what a context reports. -/
inductive TransportError where
  | timeout
  | eof
  | unexpectedEOF
  | contextCanceled
  | contextDeadlineExceeded
  | other (text : Str)
  deriving DecidableEq, Repr

inductive StorageError where
  | text (text : String)
  | preconditionFailed
  | conditionalUnsupported
  | httpError (statusCode : Int) (message : String)
  | validation (err : ValidationError)
  | parse (err : Url.ParseError)
  | transport (err : TransportError)
  | errorf (format : String) (cause : StorageError)
  deriving DecidableEq, Repr

namespace StorageError

def isPreconditionFailed : StorageError → Bool
  | .preconditionFailed => true
  | .errorf _ cause => cause.isPreconditionFailed
  | _ => false

end StorageError

structure StorageResourceMetadata where
  size : Int := 0
  contentType : Str := []
  etag : Str := []
  lastModified : Time := Time.zero
  created : Time := Time.zero
  deriving DecidableEq, Repr

structure StorageResource where
  uri : Str := []
  contentType : Str := []
  body : Str := []
  metadata : StorageResourceMetadata := {}
  etag : Str := []
  lastModified : Time := Time.zero
  deriving DecidableEq, Repr

structure StoragePreconditions where
  ifMatch : List Str := []
  ifNoneMatch : List Str := []
  deriving DecidableEq, Repr

/-- `etagListMatches`: the first wildcard of a list ends it. -/
def etagListMatches (current : Str) (there : Bool) : List Str → Bool
  | [] => false
  | value :: rest =>
    if value = "*" then there
    else if there && value ≠ [] && value = current then true
    else etagListMatches current there rest

def evaluateStoragePreconditions (current : Str) (there : Bool) (p : StoragePreconditions) :
    Except StorageError Unit := do
  refuse (p.ifMatch ≠ [] ∧ (!there || !etagListMatches current there p.ifMatch) = true)
    (.errorf "%w: If-Match did not match current validator" .preconditionFailed)
  refuse (p.ifNoneMatch ≠ [] ∧ etagListMatches current there p.ifNoneMatch = true)
    (.errorf "%w: If-None-Match matched current validator" .preconditionFailed)

def StorageResource.currentETag (r : StorageResource) : Str :=
  if r.etag ≠ [] then r.etag else r.metadata.etag

/-- `currentETag`, which is empty where there is no resource. -/
def currentETag (r : Option StorageResource) : Str := (r.map StorageResource.currentETag).getD []

structure InMemoryStorageBackend where
  data : GoMap Str StorageResource := ∅
  closed : Bool := false

namespace InMemoryStorageBackend

variable (m : InMemoryStorageBackend)

def closedError : StorageError := .text "in-memory backend is closed"

def get (uri : Str) : Except StorageError StorageResource := do
  refuse (m.closed = true) closedError
  orError (.httpError 404 "resource not found") (m.data.lookup uri)

def put (now : Time) (uri : Str) (r : StorageResource) : InMemoryStorageBackend × Except StorageError Unit :=
  if m.closed then (m, .error closedError)
  else ({ m with data := m.data.insert uri { r with lastModified := now } }, .ok ())

def delete (uri : Str) : InMemoryStorageBackend × Except StorageError Unit :=
  if m.closed then (m, .error closedError)
  else ({ m with data := m.data.erase uri }, .ok ())

variable (sha256 : Str → Str)

def strongStorageETag (body : Str) : Str := "\"sha256-" ++ hexEncode (sha256 body) ++ "\""

/-- The resource that `PutConditional` stores in the place of `current`. -/
def conditionalEntry (now : Time) (uri : Str) (r : StorageResource) (current : Option StorageResource) :
    StorageResource :=
  let etag := if r.etag = [] then strongStorageETag sha256 r.body else r.etag
  let created := match current with
    | some old => if r.metadata.created.isZero then old.metadata.created else r.metadata.created
    | none => r.metadata.created
  { r with
    uri
    lastModified := now
    etag
    metadata :=
      { r.metadata with
        etag
        size := r.body.length
        contentType := if r.metadata.contentType = [] then r.contentType else r.metadata.contentType
        created := if created.isZero then now else created
        lastModified := now } }

def putConditional (m : InMemoryStorageBackend) (now : Time) (uri : Str) (r : StorageResource)
    (p : StoragePreconditions) : InMemoryStorageBackend × Except StorageError Unit :=
  if m.closed then (m, .error closedError)
  else
    let current := m.data.lookup uri
    match evaluateStoragePreconditions (currentETag current) current.isSome p with
    | .error err => (m, .error err)
    | .ok () => ({ m with data := m.data.insert uri (conditionalEntry sha256 now uri r current) }, .ok ())

def deleteConditional (uri : Str) (p : StoragePreconditions) : InMemoryStorageBackend × Except StorageError Unit :=
  if m.closed then (m, .error closedError)
  else
    let current := m.data.lookup uri
    match evaluateStoragePreconditions (currentETag current) current.isSome p with
    | .error err => (m, .error err)
    | .ok () => ({ m with data := m.data.erase uri }, .ok ())

end InMemoryStorageBackend

end Runtime
