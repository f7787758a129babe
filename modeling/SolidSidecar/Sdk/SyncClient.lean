import SolidSidecar.Go.Heap
import SolidSidecar.Go.Map
import SolidSidecar.Go.Str

/-!
# The sync client of the SDK

`SyncClient` keeps, for each resource, a sync state and a list of pending changes, each in a map of its
own. A call of `Sync` reads both, talks to the server and writes both back. A `Task` is such a call
between two of its steps; a step is one section under the lock or one HTTP exchange. `FullSync`,
`SyncBatch` and `SyncAll` are lists of jobs that make one task after the other.

Sync states are structs that the client and its calls share. Their fields are written outside the lock,
which is done here together with the exchange before it. Times, handlers that are only notified, and
what a call returns to its caller are left out.
-/

namespace Sdk
open Go

structure RDFTriple where
  subject : Str
  predicate : Str
  object : Str
  objectType : Str := []
  literalDatatype : Str := []
  literalLanguage : Str := []
  deriving DecidableEq, Repr

inductive SyncConflictStrategy where
  | serverWins
  | clientWins
  | latestWins
  | manual
  | merge
  /-- Any other text. -/
  | other
  deriving DecidableEq, Repr

structure SyncState where
  synced : Bool := false
  localETag : Str := []
  serverETag : Str := []
  conflict : Bool := false
  pendingChanges : Bool := false
  error : Str := []
  deriving DecidableEq, Repr

/-- What does not change while calls run. `codec` is the RDF codec, as far as it matters here: which
lists of triples it can serialize. -/
structure SyncConfig where
  conflictStrategy : SyncConflictStrategy := .latestWins
  onConflict : Option (Str → Str → Str → SyncConflictStrategy) := none
  codec : Option (List RDFTriple → Bool) := none
  batchSize : Nat := 10

/-- What the lock protects, and the structs behind the sync states. -/
structure SyncStore where
  heap : Heap SyncState := {}
  syncState : GoMap Str Ref := ∅
  pendingChanges : GoMap Str (List RDFTriple) := ∅

/-- The outcome of an HTTP exchange, as the resource client reports it: an error, 404, 409 (or 200 for a
creation), 412 with the ETag of the response, or success with the ETag and, after `Get`, the triples of
the body if it parses. -/
inductive Answer where
  | failed
  | notFound
  | exists
  | preconditionFailed (etag : Str)
  | ok (etag : Str) (triples : Option (List RDFTriple))

namespace SyncStore

variable (s : SyncStore)

def pending (uri : Str) : List RDFTriple := (s.pendingChanges.lookup uri).getD []

def stateOf (ref : Ref) : SyncState := (s.heap.read ref).getD {}

def modify (ref : Ref) (f : SyncState → SyncState) : SyncStore :=
  { s with heap := s.heap.write ref (f (s.stateOf ref)) }

/-- `getSyncState`: the stored struct, or a new one that is not stored. -/
def getSyncState (uri : Str) : SyncStore × Ref :=
  match s.syncState.lookup uri with
  | some ref => (s, ref)
  | none => ({ s with heap := (s.heap.alloc {}).1 }, (s.heap.alloc {}).2)

def updateSyncState (uri : Str) (ref : Ref) : SyncStore :=
  { s with syncState := s.syncState.insert uri ref }

def clearPendingChanges (uri : Str) : SyncStore :=
  { s with pendingChanges := s.pendingChanges.erase uri }

def store (uri : Str) (state : SyncState) : SyncStore :=
  { s with heap := (s.heap.alloc state).1, syncState := s.syncState.insert uri (s.heap.alloc state).2 }

/-- A field of the stored struct is written, if there is one. -/
def modifyStored (uri : Str) (f : SyncState → SyncState) : SyncStore :=
  match s.syncState.lookup uri with
  | some ref => s.modify ref f
  | none => s

def addChanges (uri : Str) (triples : List RDFTriple) : SyncStore :=
  let s := { s with pendingChanges := s.pendingChanges.insert uri (s.pending uri ++ triples) }
  match s.syncState.lookup uri with
  | some ref => s.modify ref fun state => { state with pendingChanges := true }
  | none => s.store uri { pendingChanges := true }

/-- The change is the one that is to be removed; the kind of the object does not count. -/
def sameChange (change triple : RDFTriple) : Bool :=
  change.subject = triple.subject && change.predicate = triple.predicate && change.object = triple.object

def removeChange (uri : Str) (triple : RDFTriple) : SyncStore :=
  match s.pendingChanges.lookup uri with
  | none => s
  | some changes =>
    let newChanges := changes.filter fun change => !sameChange change triple
    let s := { s with pendingChanges := s.pendingChanges.insert uri newChanges }
    if newChanges = [] then s.modifyStored uri fun state => { state with pendingChanges := false } else s

def discardChanges (uri : Str) : SyncStore :=
  (s.clearPendingChanges uri).modifyStored uri fun state => { state with pendingChanges := false }

def trackResource (uri : Str) : SyncStore :=
  match s.syncState.lookup uri with
  | some _ => s
  | none => s.store uri {}

def untrackResource (uri : Str) : SyncStore :=
  { s with syncState := s.syncState.erase uri, pendingChanges := s.pendingChanges.erase uri }

def reset : SyncStore := { s with syncState := ∅, pendingChanges := ∅ }

end SyncStore

/-- A call for one resource, before its next step. Where a list of triples is kept it is the copy of
the pending changes that the call works on. -/
inductive Task where
  /-- `Sync` before `getSyncState`. -/
  | sync (uri : Str)
  /-- `Sync` before `getPendingChanges`. -/
  | snapshot (uri : Str) (state : Ref)
  /-- The pull phase of `FullSync` before `getSyncState`. -/
  | fullPull (uri : Str)
  /-- The push phase of `FullSync` before `getPendingChanges`. -/
  | fullPush (uri : Str)
  /-- The push phase of `FullSync` before `getSyncState`. -/
  | pushState (uri : Str) (pending : List RDFTriple)
  /-- `syncPullOnly` before `Get`. -/
  | pullOnly (uri : Str) (state : Ref)
  /-- `syncWithPendingChanges` before `Head`. -/
  | head (uri : Str) (state : Ref) (pending : List RDFTriple)
  /-- `createResourceWithPending` before `Create`. -/
  | create (uri : Str) (pending : List RDFTriple)
  /-- `createResourceWithPending` before `Head`. -/
  | existing (uri : Str)
  /-- `applyPendingChanges` before `Put`. -/
  | put (uri : Str) (state : Ref) (etag : Str) (pending : List RDFTriple)
  /-- `pullChanges` before `Get`, to resolve a conflict. -/
  | serverWins (uri : Str) (state : Ref)
  /-- `resolveConflictMerge` before `Get`, before `Put` and before the second `Head`. -/
  | mergeGet (uri : Str) (state : Ref) (etag : Str) (pending : List RDFTriple)
  | mergePut (uri : Str) (state : Ref) (etag : Str) (server pending : List RDFTriple)
  | mergeHead (uri : Str) (state : Ref) (pending : List RDFTriple)
  /-- Before `updateSyncState`, after which the changes that were written are cleared. -/
  | update (uri : Str) (state : Ref) (written : Option (List RDFTriple))
  /-- Before `clearPendingChanges`, after which the state of a created resource is stored. -/
  | clear (uri : Str) (written : List RDFTriple) (created : Option SyncState)
  /-- Before `updateSyncState` with a new struct. -/
  | updateNew (uri : Str) (state : SyncState)

namespace SyncConfig

variable (cfg : SyncConfig)

/-- `buildResourceFromPending` and the serialization of a merge; without a codec there is a simple one
that does not fail. -/
def serializes (triples : List RDFTriple) : Bool :=
  match cfg.codec with
  | some codec => codec triples
  | none => true

def applyPendingChanges (uri : Str) (ref : Ref) (etag : Str) (pending : List RDFTriple) : Option Task :=
  if cfg.serializes pending then some (.put uri ref etag pending) else none

def strategy (s : SyncStore) (uri : Str) (ref : Ref) (etag : Str) : SyncConflictStrategy :=
  match cfg.onConflict with
  | some handler => handler uri (s.stateOf ref).localETag etag
  | none => cfg.conflictStrategy

/-- `handleConflict`, up to the next exchange or locked section. -/
def handleConflict (s : SyncStore) (uri : Str) (ref : Ref) (etag : Str)
    (pending : List RDFTriple) : SyncStore × Option Task :=
  match cfg.strategy s uri ref etag with
  | .serverWins | .latestWins | .other => (s, some (.serverWins uri ref))
  | .clientWins => (s, cfg.applyPendingChanges uri ref etag pending)
  | .merge => (s, some (.mergeGet uri ref etag pending))
  | .manual =>
    (s.modify ref fun state => { state with
      synced := false, conflict := true, serverETag := etag
      error := "manual conflict resolution required" }, some (.update uri ref none))

end SyncConfig

def SyncState.pulled (etag : Str) (state : SyncState) : SyncState :=
  { state with
    synced := true, localETag := etag, serverETag := etag, conflict := false, pendingChanges := false
    error := [] }

def SyncState.lost (state : SyncState) : SyncState :=
  { state with
    synced := false, localETag := [], serverETag := [], error := "resource not found on server" }

/-- One step of a call: the store, what is left of the call, and the triples of a write that the server
has accepted. Locked sections do not look at the answer. -/
def Task.step (cfg : SyncConfig) (s : SyncStore) (answer : Answer) :
    Task → SyncStore × Option Task × Option (Str × List RDFTriple)
  | .sync uri => ((s.getSyncState uri).1, some (.snapshot uri (s.getSyncState uri).2), none)
  | .snapshot uri ref =>
    (s, some (if s.pending uri = [] then .pullOnly uri ref else .head uri ref (s.pending uri)), none)
  | .fullPull uri => ((s.getSyncState uri).1, some (.pullOnly uri (s.getSyncState uri).2), none)
  | .fullPush uri => (s, if s.pending uri = [] then none else some (.pushState uri (s.pending uri)), none)
  | .pushState uri pending =>
    ((s.getSyncState uri).1, some (.head uri (s.getSyncState uri).2 pending), none)
  | .pullOnly uri ref =>
    match answer with
    | .notFound => (s.modify ref SyncState.lost, some (.update uri ref none), none)
    | .ok etag _ =>
      if (s.stateOf ref).serverETag = etag then
        (s.modify ref fun state => { state with synced := true }, some (.update uri ref none), none)
      else (s.modify ref (SyncState.pulled etag), some (.update uri ref none), none)
    | _ => (s, none, none)
  | .head uri ref pending =>
    match answer with
    | .notFound => (s, if cfg.serializes pending then some (.create uri pending) else none, none)
    | .ok etag _ =>
      if (s.stateOf ref).serverETag ≠ [] ∧ (s.stateOf ref).serverETag ≠ etag then
        ((cfg.handleConflict s uri ref etag pending).1, (cfg.handleConflict s uri ref etag pending).2, none)
      else (s, cfg.applyPendingChanges uri ref etag pending, none)
    | _ => (s, none, none)
  | .create uri pending =>
    match answer with
    | .exists => (s, some (.existing uri), none)
    | .ok etag _ =>
      (s, some (.clear uri pending (some { synced := true, localETag := etag, serverETag := etag })),
        some (uri, pending))
    | _ => (s, none, none)
  | .existing uri =>
    match answer with
    | .ok etag _ =>
      (s, some (.updateNew uri { serverETag := etag, conflict := true, error := "resource already exists" }), none)
    | _ => (s, none, none)
  | .put uri ref _ pending =>
    match answer with
    | .ok etag _ =>
      (s.modify ref (SyncState.pulled etag), some (.update uri ref (some pending)), some (uri, pending))
    | .preconditionFailed current =>
      ((cfg.handleConflict s uri ref current pending).1, (cfg.handleConflict s uri ref current pending).2, none)
    | _ => (s, none, none)
  | .serverWins uri ref =>
    match answer with
    | .ok etag _ => (s.modify ref (SyncState.pulled etag), some (.update uri ref none), none)
    | _ => (s, none, none)
  | .mergeGet uri ref etag pending =>
    match answer with
    | .ok _ triples =>
      if cfg.codec.isNone then (s, none, none)
      else match triples with
        | none => (s, cfg.applyPendingChanges uri ref etag pending, none)
        | some server =>
          (s, if cfg.serializes (server ++ pending) then
            some (.mergePut uri ref etag server pending) else none, none)
    | _ => (s, none, none)
  | .mergePut uri ref _ server pending =>
    match answer with
    | .ok _ _ =>
      (s.modify ref fun state => { state with synced := true, conflict := false, pendingChanges := false },
        some (.mergeHead uri ref pending), some (uri, server ++ pending))
    | _ => (s, none, none)
  | .mergeHead uri ref pending =>
    match answer with
    | .ok etag _ =>
      (s.modify ref fun state => { state with localETag := etag, serverETag := etag },
        some (.update uri ref (some pending)), none)
    | _ => (s, some (.update uri ref (some pending)), none)
  | .update uri ref written => (s.updateSyncState uri ref, written.map (.clear uri · none), none)
  | .clear uri _ created => (s.clearPendingChanges uri, created.map (.updateNew uri ·), none)
  | .updateNew uri state => (s.store uri state, none, none)

/-- What a call of the client still has to do, one resource at a time. -/
inductive Job where
  | sync (uri : Str)
  | pull (uri : Str)
  | push (uri : Str)
  /-- The test of the context after a batch. -/
  | checkContext
  /-- `FullSync` and `SyncAll` before they list the tracked resources, in the order of `range`. -/
  | fullSync (order : RangeOrder Str)
  | syncAll (order : RangeOrder Str)

def SyncConfig.syncBatch (cfg : SyncConfig) (uris : List Str) : List Job :=
  (uris.toChunks cfg.batchSize).flatMap fun batch => batch.map .sync ++ [.checkContext]

structure Thread where
  task : Option Task := none
  jobs : List Job := []

/-- One step of a call: of its task, or the start of its next job. -/
def Thread.step (cfg : SyncConfig) (s : SyncStore) (answer : Answer) (thread : Thread) :
    SyncStore × Thread × Option (Str × List RDFTriple) :=
  match thread.task with
  | some task =>
    let (s, task, accepted) := task.step cfg s answer
    (s, { thread with task }, accepted)
  | none =>
    match thread.jobs with
    | [] => (s, thread, none)
    | .sync uri :: jobs => (s, ⟨some (.sync uri), jobs⟩, none)
    | .pull uri :: jobs => (s, ⟨some (.fullPull uri), jobs⟩, none)
    | .push uri :: jobs => (s, ⟨some (.fullPush uri), jobs⟩, none)
    | .checkContext :: jobs =>
      (s, ⟨none, match answer with | .failed => [] | _ => jobs⟩, none)
    | .fullSync order :: jobs =>
      let uris := order.visit s.syncState.keys
      (s, ⟨none, uris.map .pull ++ uris.map .push ++ jobs⟩, none)
    | .syncAll order :: jobs => (s, ⟨none, cfg.syncBatch (order.visit s.syncState.keys) ++ jobs⟩, none)

end Sdk
