import SolidSidecar.Run.Batch
import SolidSidecar.Storage.Engine

/-!
# Transactions

`transaction.go`: a transaction collects writes and deletions, answers reads from them first, and at
`Commit` applies all writes and then all deletions to the backend, each in the order of a `range` loop.
Each of the two loops is a batch that stops at the first item that the backend refuses.

The set of deleted URIs is a map in which only `true` is stored. A write is kept as it was given; the
caller's pointer to it is not followed.
-/

namespace Storage
open Go GoMap

structure StorageTransaction where
  pending : GoMap Str WriteResource := ∅
  deleted : GoMap Str Unit := ∅
  committed : Bool := false
  rolledBack : Bool := false

/-- What `Commit` takes from its surroundings: the orders in which it visits the two maps, and the time
at which each URI is written. -/
structure CommitRun where
  writes : RangeOrder (Str × WriteResource) := default
  deletions : RangeOrder Str := default
  clock : Str → Time := fun _ => Time.zero

namespace StorageTransaction

variable (sha256 : Str → Str)

variable (t : StorageTransaction)

def get (t : StorageTransaction) (s : StorageEngineImpl) (uri : Str) : Except StorageError Resource :=
  match t.pending.lookup uri with
  | some r => .ok ⟨r.uri, r.body, r.metadata⟩
  | none => if (t.deleted.lookup uri).isSome then .error .notFound else s.get sha256 uri

def put (r : WriteResource) : StorageTransaction × Except StorageError Unit :=
  if t.committed || t.rolledBack then (t, .error .transactionCompleted)
  else ({ t with pending := t.pending.insert r.uri r }, .ok ())

def delete (uri : Str) : StorageTransaction × Except StorageError Unit :=
  if t.committed || t.rolledBack then (t, .error .transactionCompleted)
  else
    ({ t with deleted := t.deleted.insert uri (), pending := t.pending.erase uri }, .ok ())

def rollback : StorageTransaction × Except StorageError Unit :=
  if t.rolledBack then (t, .error .transactionRolledBack)
  else if t.committed then (t, .error .transactionCommitted)
  else ({ t with rolledBack := true, pending := ∅, deleted := ∅ }, .ok ())

def writeStep (clock : Str → Time) (b : MemoryBackend) (w : Str × WriteResource) :
    MemoryBackend × Except StorageError Unit :=
  b.put sha256 (clock w.1) w.1 w.2

def deleteStep (b : MemoryBackend) (uri : Str) : MemoryBackend × Except StorageError Unit :=
  match deletionError (b.delete uri).2 with
  | some err => ((b.delete uri).1, .error err)
  | none => ((b.delete uri).1, .ok ())

def applyTo (run : CommitRun) (b : MemoryBackend) : MemoryBackend × Except StorageError Unit :=
  match Run.batch (writeStep sha256 run.clock) b (run.writes.visit t.pending.pairs) with
  | (b, .error err) => (b, .error err)
  | (b, .ok ()) => Run.batch deleteStep b (run.deletions.visit t.deleted.keys)

def commit (t : StorageTransaction) (s : StorageEngineImpl) (run : CommitRun) :
    StorageTransaction × StorageEngineImpl × Except StorageError Unit :=
  if t.committed then (t, s, .error .transactionCommitted)
  else if t.rolledBack then (t, s, .error .transactionRolledBack)
  else
    match t.applyTo sha256 run s.defaultBackend with
    | (b, .error err) =>
      ({ t with rolledBack := true }, { s with defaultBackend := b },
        .error (.errorf "failed to commit transaction: %w" err))
    | (b, .ok ()) => ({ t with committed := true }, { s with defaultBackend := b }, .ok ())

end StorageTransaction

def beginTransaction : StorageTransaction := {}

namespace MemoryBackend

variable {b : MemoryBackend} {w : Str × WriteResource} {a : Option (Str × Metadata)} {uri : Str}

/-- The body and metadata that are stored under a URI. -/
def stored (b : MemoryBackend) (u : Str) : Option (Str × Metadata) :=
  (b.data.lookup u).map fun m => (bytesOf m.body, m.metadata)

def visible (b : MemoryBackend) (u : Str) : Option (Str × Metadata) :=
  if (b.tombstones.lookup u).isSome then none else b.stored u

variable (sha256 : Str → Str) (clock : Str → Time)

/-- What a write stores, or the error with which it is refused. -/
def writeTarget (b : MemoryBackend) (w : Str × WriteResource) : Except StorageError (Option (Str × Metadata)) :=
  (b.checkWrite w.1 w.2).map fun body =>
    some (bytesOf body, b.prepareMetadata sha256 (clock w.1) w.1 body w.2.metadata)

/-- What a deletion leaves, or the error with which it is refused. -/
def deleteTarget (b : MemoryBackend) (uri : Str) : Except StorageError (Option (Str × Metadata)) := do
  let _ ← validateURI uri
  refuse (b.closed = true) .storageClosed
  .ok none

def deletedKey (uri : Str) : Str := (validateURI uri).toOption.getD uri

open StorageTransaction

theorem writeTarget_eq_ok : b.writeTarget sha256 clock w = .ok a ↔ ∃ body, b.checkWrite w.1 w.2 = .ok body ∧
      a = some (bytesOf body, b.prepareMetadata sha256 (clock w.1) w.1 body w.2.metadata) := by
  unfold writeTarget
  cases b.checkWrite w.1 w.2 with
  | error err => simp [Except.map]
  | ok body => simp [Except.map, eq_comm]

theorem writeTarget_eq_error {err} :
    b.writeTarget sha256 clock w = .error err ↔ b.checkWrite w.1 w.2 = .error err := by
  unfold writeTarget
  cases b.checkWrite w.1 w.2 <;> simp [Except.map]

/-- What a write does to the backend, seen as it is stored and as it is shown. -/
theorem writeStep_views (admitted : b.writeTarget sha256 clock w = .ok a) : (writeStep sha256 clock b w).2 = .ok () ∧
      (writeStep sha256 clock b w).1.stored = Function.update b.stored w.1 a ∧
      (writeStep sha256 clock b w).1.visible = Function.update b.visible w.1 a := by
  obtain ⟨body, checked, rfl⟩ := (writeTarget_eq_ok sha256 clock).mp admitted
  obtain ⟨b', done, data, tombstones, -⟩ := put_admitted sha256 (clock w.1) checked
  unfold writeStep
  rw [done]
  have written : b'.stored = Function.update b.stored w.1
      (some (bytesOf body, b.prepareMetadata sha256 (clock w.1) w.1 body w.2.metadata)) := by
    funext u
    unfold stored
    rw [data, lookup_insert_eq, Function.update_apply]
    split <;> rfl
  refine ⟨rfl, written, ?_⟩
  funext u
  unfold visible
  rw [tombstones, written]
  by_cases same : u = w.1
  · subst same
    simp
  · simp [same]

theorem writes_keyed : Run.Keyed (writeStep sha256 clock) stored Prod.fst (writeTarget sha256 clock) where
  refused _ _ _ refused := put_refused ((writeTarget_eq_error sha256 clock).mp refused)
  applied _ _ _ admitted := (writeStep_views sha256 clock admitted).imp_right And.left

theorem writes_keyed_visible : Run.Keyed (writeStep sha256 clock) visible Prod.fst (writeTarget sha256 clock) where
  refused _ _ _ := (writes_keyed sha256 clock).refused _ _ _
  applied _ _ _ admitted := (writeStep_views sha256 clock admitted).imp_right And.right

theorem writeStep_closed (b : MemoryBackend) (w : Str × WriteResource) :
    (writeStep sha256 clock b w).1.closed = b.closed := by
  unfold writeStep
  cases checked : b.checkWrite w.1 w.2 with
  | error err => rw [put_refused checked]
  | ok body =>
    obtain ⟨_, done, -, -, frame⟩ := put_admitted sha256 (clock w.1) checked
    rw [done]
    exact frame.closed

/-- A write does not decide what a write to another URI does. -/
theorem writeTarget_writeStep {w'} (other : w.1 ≠ w'.1) :
    (writeStep sha256 clock b w).1.writeTarget sha256 clock w' = b.writeTarget sha256 clock w' := by
  unfold writeStep
  cases checked : b.checkWrite w.1 w.2 with
  | error err => rw [put_refused checked]
  | ok body =>
    obtain ⟨b', done, data, -, frame⟩ := put_admitted sha256 (clock w.1) checked
    rw [done]
    have found : b'.data.lookup w'.1 = b.data.lookup w'.1 := by
      rw [data, AList.lookup_insert_ne (Ne.symm other)]
    unfold writeTarget checkWrite prepareMetadata
    rw [found, frame.closed, frame.layoutVersion]

theorem writes_independent {l} (once : (l.map Prod.fst).Nodup) :
    Run.Independent (writeStep sha256 clock) (writeTarget sha256 clock) l := by
  have apart : l.Pairwise fun w w' => w.1 ≠ w'.1 := List.pairwise_map.mp once
  exact apart.imp fun other _ => writeTarget_writeStep sha256 clock other

theorem deletedKey_of_valid {key} (valid : validateURI uri = .ok key) : deletedKey uri = key := by
  rw [deletedKey, valid]
  rfl

theorem deleteTarget_eq_ok :
    b.deleteTarget uri = .ok a ↔ (∃ key, validateURI uri = .ok key) ∧ b.closed = false ∧ a = none := by
  unfold deleteTarget
  simp only [bind_eq_ok, refuse_eq_ok, Bool.not_eq_true]
  constructor
  · rintro ⟨key, valid, -, running, same⟩
    exact ⟨⟨key, valid⟩, running, (Except.ok.inj same).symm⟩
  · rintro ⟨⟨key, valid⟩, running, rfl⟩
    exact ⟨key, valid, (), running, rfl⟩

/-- What a deletion does to the backend, seen as it is stored and as it is shown. -/
theorem deleteStep_views (admitted : b.deleteTarget uri = .ok a) : (deleteStep b uri).2 = .ok () ∧
      (deleteStep b uri).1.stored = Function.update b.stored (deletedKey uri) a ∧
      (deleteStep b uri).1.visible = Function.update b.visible (deletedKey uri) a := by
  obtain ⟨⟨key, valid⟩, running, rfl⟩ := deleteTarget_eq_ok.mp admitted
  obtain ⟨b', done, data, tombstones, -⟩ := delete_admitted valid running
  unfold deleteStep
  rw [done, deletedKey_of_valid valid]
  have removed : b'.stored = Function.update b.stored key none := by
    funext u
    unfold stored
    rw [data, lookup_erase_eq, Function.update_apply]
    split <;> rfl
  refine ⟨rfl, removed, ?_⟩
  funext u
  show b'.visible u = _
  unfold visible
  rw [tombstones, removed]
  by_cases same : u = key
  · subst same
    simp
  · simp [same]

theorem deleteStep_refused {err}
    (refused : b.deleteTarget uri = .error err) : deleteStep b uri = (b, .error err) := by
  unfold deleteStep
  rcases bind_eq_error.mp refused with malformed | ⟨_, valid, refused⟩
  · rw [delete_refused malformed, deletionError, validateURI_error malformed]
    rfl
  · rcases bind_eq_error.mp refused with closed | ⟨-, -, impossible⟩
    · obtain ⟨shut, rfl⟩ := refuse_eq_error.mp closed
      have stuck : b.delete uri = (b, .error .storageClosed) := by
        rw [delete, valid]
        exact if_pos shut
      rw [stuck]
      rfl
    · cases impossible

theorem deletes_keyed : Run.Keyed deleteStep stored deletedKey deleteTarget where
  refused _ _ _ := deleteStep_refused
  applied _ _ _ admitted := (deleteStep_views admitted).imp_right And.left

theorem deletes_keyed_visible : Run.Keyed deleteStep visible deletedKey deleteTarget where
  refused _ _ _ := deleteStep_refused
  applied _ _ _ admitted := (deleteStep_views admitted).imp_right And.right

theorem deleteStep_closed (b : MemoryBackend) (uri : Str) : (deleteStep b uri).1.closed = b.closed := by
  cases result : b.deleteTarget uri with
  | error err => rw [deleteStep_refused result]
  | ok a =>
    obtain ⟨⟨_, valid⟩, running, -⟩ := deleteTarget_eq_ok.mp result
    obtain ⟨_, done, -, -, frame⟩ := delete_admitted valid running
    rw [deleteStep, done]
    exact frame.closed

/-- A deletion decides nothing about another, even of the same URI. -/
theorem deletes_independent (l : List Str) : Run.Independent deleteStep deleteTarget l := by
  apply List.pairwise_of_forall
  intro uri uri' b
  unfold deleteTarget
  rw [deleteStep_closed]

end MemoryBackend

namespace StorageTransaction

variable {t : StorageTransaction} {run : CommitRun} {u : Str} {b : MemoryBackend}

theorem mem_writes {r} : (u, r) ∈ run.writes.visit t.pending.pairs ↔ t.pending.lookup u = some r := by
  rw [run.writes.mem_visit, mem_pairs]

theorem mem_deletions : u ∈ run.deletions.visit t.deleted.keys ↔ u ∈ t.deleted := by
  rw [run.deletions.mem_visit]
  rfl

variable (t run) in
theorem writes_once : ((run.writes.visit t.pending.pairs).map Prod.fst).Nodup :=
  ((run.writes.perm _).map Prod.fst).nodup_iff.mpr t.pending.pairs_nodup_keys

variable (sha256 : Str → Str)

/-- `Commit` of a transaction that is not completed. -/
theorem commit_eq (run : CommitRun) {s} (uncommitted : t.committed = false) (standing : t.rolledBack = false) :
    (t.commit sha256 s run).2 = ({ s with defaultBackend := (t.applyTo sha256 run s.defaultBackend).1 },
        (t.applyTo sha256 run s.defaultBackend).2.mapError (.errorf "failed to commit transaction: %w")) := by
  unfold commit
  rw [uncommitted, standing]
  rcases t.applyTo sha256 run s.defaultBackend with ⟨_, - | -⟩ <;> rfl

abbrev writeAll (t : StorageTransaction) (run : CommitRun) (b : MemoryBackend) :=
  Run.batch (writeStep sha256 run.clock) b (run.writes.visit t.pending.pairs)

/-- The writes of a commit, when the backend refuses one of them. -/
theorem applyTo_of_refused (stops : (t.writeAll sha256 run b).2 ≠ .ok ()) :
    t.applyTo sha256 run b = t.writeAll sha256 run b := by
  unfold applyTo
  split
  · exact symm ‹_›
  · exact absurd (congrArg Prod.snd ‹_›) stops

/-- The deletions of a commit, when the backend takes all writes. -/
theorem applyTo_of_written (fine : (t.writeAll sha256 run b).2 = .ok ()) : t.applyTo sha256 run b =
      Run.batch deleteStep (t.writeAll sha256 run b).1 (run.deletions.visit t.deleted.keys) := by
  unfold applyTo
  split <;> rename_i done
  · rw [writeAll, done] at fine
    cases fine
  · rw [writeAll, done]

/-- What every write and every deletion of a transaction keeps, its commit keeps. -/
theorem applyTo_inv (Inv : MemoryBackend → Prop)
    (writes : ∀ b u r, t.pending.lookup u = some r → Inv b → Inv (writeStep sha256 run.clock b (u, r)).1)
    (deletions : ∀ b u, u ∈ t.deleted → Inv b → Inv (deleteStep b u).1) (start : Inv b) :
    Inv (t.applyTo sha256 run b).1 := by
  have written : Inv (t.writeAll sha256 run b).1 := by
    apply Run.batch_inv _ start
    rintro b' ⟨u, r⟩ mem
    exact writes b' u r (mem_writes.mp mem)
  by_cases fine : (t.writeAll sha256 run b).2 = .ok ()
  · rw [applyTo_of_written sha256 fine]
    apply Run.batch_inv _ written
    intro b' u mem
    exact deletions b' u (mem_deletions.mp mem)
  · rwa [applyTo_of_refused sha256 fine]

end StorageTransaction

end Storage
