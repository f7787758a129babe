import SolidSidecar.Go.Str
import SolidSidecar.Go.Time

/-!
# The storage interface

The records of `interface.go`. A `[]byte` that may be nil is an `Option`: no bytes and empty bytes are
told apart where the source tells them apart. A reader is what reading it to its end gives, the bytes
or the text of an error. The string maps of the metadata are values that are stored and compared, so
they are finite maps up to order; a nil map is the empty one.
-/

namespace Storage
open Go

/-- What a call of the storage layer reports. `errorf` is `fmt.Errorf` with the format and the error
that `%w` wraps, `external` an error that comes from a caller's reader. `SanitizeError` returns all the
others as they are, so it is left out. -/
inductive StorageError where
  | notFound
  | preconditionFailed
  | quotaExceeded
  | storageClosed
  | invalidURI
  | integrityViolation
  | emptyURI
  | uriTooLong
  | bodyTooLarge
  | addressTooLong
  | addressCharacter
  | transactionCompleted
  | transactionCommitted
  | transactionRolledBack
  | external (text : Str)
  | errorf (format : String) (cause : StorageError)
  deriving DecidableEq, Repr

def StorageError.is : StorageError → StorageError → Bool
  | .errorf format cause, target => .errorf format cause == target || cause.is target
  | err, target => err == target

/-- The error of a deletion, which is none when there was nothing to delete. -/
def deletionError : Except StorageError Unit → Option StorageError
  | .error err => if err.is .notFound then none else some err
  | .ok () => none

abbrev StrMap := Finmap fun _ : Str => Str

def StrMap.textLength (m : StrMap) : Nat :=
  (m.entries.map fun e => e.1.length + e.2.length).sum

abbrev ResourceType := Str

def resourceTypeUnknown : ResourceType := "Unknown"

def resourceTypeResource : ResourceType := "Resource"

def resourceTypeACL : ResourceType := "ACL"

def resourceTypeACP : ResourceType := "ACP"

abbrev ContentAddress := Str

abbrev StorageLayoutVersion := Int

def currentStorageLayoutVersion : StorageLayoutVersion := 1

structure Metadata where
  uri : Str := []
  resourceType : ResourceType := []
  contentType : Str := []
  size : Int := 0
  digest : Str := []
  lastModified : Time := Time.zero
  created : Time := Time.zero
  etag : Str := []
  owner : Str := []
  storageRoot : Str := []
  tenant : Str := []
  auxiliaryLinks : StrMap := ∅
  policyReferences : List Str := []
  validatorState : StrMap := ∅
  contentAddress : ContentAddress := []
  layoutVersion : StorageLayoutVersion := 0
  custom : StrMap := ∅
  deriving DecidableEq

structure Tombstone where
  uri : Str := []
  deletedAt : Time := Time.zero
  deletedBy : Str := []
  reason : Str := []
  restoreToken : Str := []
  deriving DecidableEq, Repr

structure QuotaInfo where
  storageRoot : Str := []
  tenant : Str := []
  usedBytes : Int := 0
  maxBytes : Int := 0
  usedResources : Int := 0
  maxResources : Int := 0
  deriving DecidableEq, Repr

structure CompareAndSwapPrecondition where
  key : Str
  expectedValue : Str
  newValue : Str
  deriving DecidableEq, Repr

structure WritePrecondition where
  ifMatch : Str := []
  ifNoneMatch : Str := []
  compareAndSwap : Option CompareAndSwapPrecondition := none
  deriving DecidableEq, Repr

/-- `Resource` and `ReadResource`, whose reader is never set. -/
structure Resource where
  uri : Str
  body : Option Str
  metadata : Metadata
  deriving DecidableEq

structure WriteResource where
  uri : Str
  body : Option Str := none
  bodyReader : Option (Except Str Str) := none
  bodySize : Int := 0
  metadata : Metadata := {}
  preconditions : WritePrecondition := {}
  deriving DecidableEq

def bytesOf (body : Option Str) : Str := body.getD []

def Resource.bytes (r : Resource) : Str := bytesOf r.body

/-- The body of a write: what it has, or else what its reader gives. -/
def WriteResource.readBody (r : WriteResource) : Except StorageError (Option Str) :=
  match r.body, r.bodyReader with
  | none, some (.ok data) => .ok (some data)
  | none, some (.error text) => .error (.errorf "failed to read body: %w" (.external text))
  | body, _ => .ok body

end Storage
