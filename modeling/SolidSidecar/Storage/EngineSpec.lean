import SolidSidecar.Storage.Engine

/-!
# What one call of the engine does

Each call of the engine that writes is described once, by what it changes of the engine: `put_cases` for
`Put`, `delete_cases` and `deleteWithTombstone_cases` for the deletions. The properties of runs are
derived from these.
-/

namespace Storage
open Go MemoryBackend GoMap

namespace StorageEngineImpl

structure SameIndex (s s' : StorageEngineImpl) : Prop where
  config : s'.config = s.config
  tombstones : s'.tombstones = s.tombstones
  data : s'.defaultBackend.data = s.defaultBackend.data
  marks : s'.defaultBackend.tombstones = s.defaultBackend.tombstones
  closed : s'.defaultBackend.closed = s.defaultBackend.closed

theorem SameIndex.refl (s : StorageEngineImpl) : SameIndex s s := ⟨rfl, rfl, rfl, rfl, rfl⟩

variable (sha256 : Str → Str) {s : StorageEngineImpl}

/-- What a reader of `u` gets depends on the tombstones of `u` and on what is stored under it. -/
theorem get_congr {s s' : StorageEngineImpl} {u} (config : s'.config = s.config)
    (tombstone : s'.tombstones.lookup u = s.tombstones.lookup u)
    (closed : s'.defaultBackend.closed = s.defaultBackend.closed)
    (mark : s'.defaultBackend.tombstones.lookup u = s.defaultBackend.tombstones.lookup u)
    (data : s'.defaultBackend.data.lookup u = s.defaultBackend.data.lookup u) :
    s'.get sha256 u = s.get sha256 u := by
  unfold get isTombstoned MemoryBackend.get
  rw [config, tombstone, closed, mark, data]

/-- A reader of a URI with a tombstone is told that there is nothing. -/
theorem get_of_tombstoned {u} (hidden : s.isTombstoned u = true) :
    s.get sha256 u = (validateStorageURI u).bind fun _ => .error .notFound := by
  unfold get
  rw [hidden]
  cases validateStorageURI u <;> rfl

/-- The resource of a write with an empty body counted as none. -/
def stripped (r : WriteResource) : WriteResource :=
  { r with body := if r.body = some [] then none else r.body }

/-- Reading a body for its size leaves everything but the body. -/
theorem readForQuota_frame {r r'} (read : readForQuota r = .ok r') :
    r'.uri = r.uri ∧ r'.metadata = r.metadata ∧ r'.preconditions = r.preconditions := by
  unfold readForQuota at read
  split at read
  · cases read
    exact ⟨rfl, rfl, rfl⟩
  · split at read
    · split at read
      · cases read
      · cases read
        exact ⟨rfl, rfl, rfl⟩
    · cases read
      exact ⟨rfl, rfl, rfl⟩

/-- What the checks of `Put` leave of a resource that they pass. -/
structure Passed (s : StorageEngineImpl) (r r' : WriteResource) : Prop where
  valid : validateStorageURI r.uri = .ok ()
  uri : r'.uri = r.uri
  metadata : r'.metadata = r.metadata
  read : (if s.accounts r then readForQuota (stripped r) else .ok (stripped r)) = .ok r'
  quota : s.accounts r = true →
    s.checkQuota r.metadata.storageRoot (wrap64 (r'.bodySize + estimateMetadataSize r.metadata)) = .ok ()

theorem checkPut_passed {r r'} (passed : s.checkPut r = .ok r') :
    Passed s r r' ∧ s.handlePreconditions r = .ok () := by
  have same : s.accounts (stripped r) = s.accounts r := rfl
  simp only [checkPut, validateResource, bind_eq_ok] at passed
  obtain ⟨⟨⟩, valid, r₀, ⟨⟨⟩, -, kept⟩, rest⟩ := passed
  obtain rfl : stripped r = r₀ := Except.ok.inj kept
  cases accounted : s.accounts r with
  | false =>
    simp only [Bool.false_eq_true, if_false, bind_eq_ok, Except.ok.injEq, exists_eq_left', same, accounted] at rest
    obtain ⟨⟨⟩, allowed, rfl⟩ := rest
    refine ⟨⟨valid, rfl, rfl, ?_, fun yes => ?_⟩, allowed⟩
    · rw [accounted]
      rfl
    · rw [accounted] at yes
      cases yes
  | true =>
    rw [same, accounted] at rest
    simp only [if_true, bind_eq_ok] at rest
    obtain ⟨r₁, read, rest⟩ := rest
    obtain ⟨uri, metadata, conditions⟩ := readForQuota_frame read
    have counted : s.accounts r₁ = true := by
      rw [accounts, metadata]
      exact accounted
    rw [counted] at rest
    simp only [if_true, bind_eq_ok, Except.ok.injEq] at rest
    obtain ⟨⟨⟩, quota, ⟨⟩, allowed, rfl⟩ := rest
    rw [handlePreconditions, uri, conditions] at allowed
    refine ⟨⟨valid, uri, metadata, ?_, fun _ => ?_⟩, allowed⟩
    · rw [accounted]
      exact read
    · rw [metadata] at quota
      exact quota

/-- What is recorded of a usage depends on the quotas alone. -/
theorem recordUsage_congr {s s' : StorageEngineImpl} (same : s'.quotas = s.quotas) (root : Str) (n : Int) :
    (s'.recordUsage root n).quotas = (s.recordUsage root n).quotas := by
  unfold recordUsage
  rw [same]

theorem storeBlob_index (b : MemoryBackend) (data : Str) :
    (b.storeBlob sha256 data).1.data = b.data ∧ (b.storeBlob sha256 data).1.tombstones = b.tombstones ∧
      (b.storeBlob sha256 data).1.closed = b.closed ∧
      (b.storeBlob sha256 data).1.layoutVersion = b.layoutVersion := by
  unfold storeBlob
  simp only
  split <;> exact ⟨rfl, rfl, rfl, rfl⟩

structure SameBooks (s s' : StorageEngineImpl) : Prop extends SameIndex s s' where
  quotas : s'.quotas = s.quotas
  invalidations : s'.invalidations = s.invalidations
  layoutVersion : s'.defaultBackend.layoutVersion = s.defaultBackend.layoutVersion

theorem SameBooks.refl (s : StorageEngineImpl) : SameBooks s s := ⟨.refl s, rfl, rfl, rfl⟩

/-- Storing a blob changes the content address of a resource and nothing else of it. -/
theorem storeContent_cases (s : StorageEngineImpl) (r : WriteResource) : SameBooks s (s.storeContent sha256 r).1 ∧
      ∀ r', (s.storeContent sha256 r).2 = some (.ok r') →
        ∃ address, r' = { r with metadata := { r.metadata with contentAddress := address } } := by
  obtain ⟨data, marks, closed, version⟩ := storeBlob_index sha256 s.defaultBackend _
  unfold storeContent
  split
  · split
    · exact ⟨.refl s, fun r' done => by simp at done⟩
    · split
      · generalize s.defaultBackend.storeBlob sha256 _ = stored at data marks closed version
        rcases stored with ⟨_, _ | address⟩
        · exact ⟨⟨⟨rfl, rfl, data, marks, closed⟩, rfl, rfl, version⟩, fun r' done => by simp at done⟩
        · refine ⟨⟨⟨rfl, rfl, data, marks, closed⟩, rfl, rfl, version⟩, fun r' done => ?_⟩
          exact ⟨address, (Except.ok.inj (Option.some.inj done)).symm⟩
      · exact ⟨.refl s, fun r' done => by simp at done⟩
  · refine ⟨.refl s, fun r' done => ?_⟩
    exact ⟨r.metadata.contentAddress, (Except.ok.inj (Option.some.inj done)).symm⟩

/-- A write of `r` that went through: `r'` is what reached the backend, `body` what it stored. -/
structure Written (s s' : StorageEngineImpl) (now : Time) (r r' : WriteResource) (body : Option Str) :
    Prop where
  passed : ∃ r₁ address, Passed s r r₁ ∧ r' = { r₁ with metadata := { r₁.metadata with contentAddress := address } }
  read : r'.readBody = .ok body
  config : s'.config = s.config
  data : s'.defaultBackend.data = s.defaultBackend.data.insert r.uri
    ⟨r.uri, body, s.defaultBackend.prepareMetadata sha256 now r.uri body r'.metadata⟩
  marks : s'.defaultBackend.tombstones = s.defaultBackend.tombstones.erase r.uri
  closed : s'.defaultBackend.closed = s.defaultBackend.closed
  tombstones : s'.tombstones = s.tombstones
  quotas : s'.quotas =
    if s.accounts r then (s.recordUsage r.metadata.storageRoot r'.bodySize).quotas else s.quotas
  invalidations : s'.invalidations = s.invalidations ++ [⟨r.uri, isPolicyResource r.metadata.resourceType, r.uri⟩]

/-- `Put` fails and leaves the engine but for its blobs, or stores the resource under its URI. -/
theorem put_cases (s : StorageEngineImpl) (now : Time) (r : WriteResource) :
    ((s.put sha256 now r).2 ≠ some (.ok ()) ∧ SameBooks s (s.put sha256 now r).1) ∨
      ((s.put sha256 now r).2 = some (.ok ()) ∧
        ∃ r' body, Written sha256 s (s.put sha256 now r).1 now r r' body) := by
  unfold put
  cases checked : s.checkPut r with
  | error err => exact .inl ⟨by simp, .refl s⟩
  | ok r₁ =>
    have passed := (checkPut_passed checked).1
    obtain ⟨same, kept⟩ := storeContent_cases sha256 s r₁
    simp only
    generalize s.storeContent sha256 r₁ = content at same kept
    obtain ⟨s', outcome⟩ := content
    have books : SameBooks s s' := same
    rcases outcome with - | err | r₂
    · exact .inl ⟨by simp, books⟩
    · exact .inl ⟨by simp, books⟩
    · obtain ⟨address, rfl⟩ := kept r₂ rfl
      have accounted : ∀ b, accounts { s' with defaultBackend := b }
          { r₁ with metadata := { r₁.metadata with contentAddress := address } } = s.accounts r := by
        intro b
        simp [accounts, books.config, passed.metadata]
      simp only
      cases written : s'.defaultBackend.checkWrite r₁.uri
          { r₁ with metadata := { r₁.metadata with contentAddress := address } } with
      | error err =>
        rw [put_refused written]
        exact .inl ⟨by simp, books⟩
      | ok stored =>
        obtain ⟨_, done, data, marks, frame⟩ := put_admitted sha256 now written
        rw [done]
        simp only [accounted]
        refine .inr ⟨trivial, _, stored, ⟨r₁, address, passed, rfl⟩,
          readBody_of_checkWrite written, ?_, ?_, ?_, ?_, ?_, ?_, ?_⟩
        · split <;> exact books.config
        · have version : s'.defaultBackend.prepareMetadata sha256 now r₁.uri stored =
              s.defaultBackend.prepareMetadata sha256 now r₁.uri stored := by
            funext m
            rw [prepareMetadata, prepareMetadata, books.layoutVersion]
          rw [version, books.data, passed.uri] at data
          split <;> exact data
        · rw [books.marks, passed.uri] at marks
          split <;> exact marks
        · split <;> exact frame.closed.trans books.closed
        · split <;> exact books.tombstones
        · split
          · rw [← passed.metadata]
            exact recordUsage_congr books.quotas r₁.metadata.storageRoot r₁.bodySize
          · exact books.quotas
        · split <;> simp [triggerCacheInvalidation, recordUsage, books.invalidations, passed.uri, passed.metadata]

structure Erased (s s' : StorageEngineImpl) (key : Str) : Prop where
  config : s'.config = s.config
  data : ∀ k, s'.defaultBackend.data.lookup k =
    if k = key then none else s.defaultBackend.data.lookup k
  size : s'.defaultBackend.data.size ≤ s.defaultBackend.data.size
  marks : s'.defaultBackend.tombstones = s.defaultBackend.tombstones
  closed : s'.defaultBackend.closed = s.defaultBackend.closed
  quotas : s'.quotas = s.quotas

theorem delete_twice {b : MemoryBackend} {u key} (valid : validateURI u = .ok key) (running : b.closed = false) :
    (b.delete u).2 = .ok () ∧
      (∀ k, ((b.delete u).1.delete u).1.data.lookup k = if k = key then none else b.data.lookup k) ∧
      ((b.delete u).1.delete u).1.data.size ≤ b.data.size ∧
      ((b.delete u).1.delete u).1.tombstones = b.tombstones ∧
      ((b.delete u).1.delete u).1.closed = b.closed := by
  obtain ⟨_, once, data₁, marks₁, frame₁⟩ := delete_admitted valid running
  obtain ⟨_, twice, data₂, marks₂, frame₂⟩ :=
    delete_admitted valid (frame₁.closed.trans running)
  rw [once]
  simp only
  rw [twice]
  refine ⟨trivial, fun k => ?_, ?_, marks₂.trans marks₁, frame₂.closed.trans frame₁.closed⟩
  · rw [data₂, data₁, lookup_erase_eq, lookup_erase_eq]
    split <;> rfl
  · rw [data₂, data₁]
    exact (size_erase_le _ _).trans (size_erase_le _ _)

/-- A deletion from the backend reports an error and changes nothing, or its URI is well formed and the
backend open. -/
theorem deletion_cases (b : MemoryBackend) (u : Str) :
    ((deletionError (b.delete u).2).isSome = true ∧ (b.delete u).1 = b) ∨
      ∃ key, validateURI u = .ok key ∧ b.closed = false := by
  cases valid : validateURI u with
  | error err =>
    refine .inl ?_
    rw [delete_refused valid, deletionError, validateURI_error valid]
    exact ⟨rfl, rfl⟩
  | ok key =>
    by_cases shut : b.closed = true
    · refine .inl ?_
      have stuck : b.delete u = (b, .error .storageClosed) := by
        rw [MemoryBackend.delete, valid]
        exact if_pos shut
      rw [stuck]
      exact ⟨rfl, rfl⟩
    · exact .inr ⟨key, rfl, Bool.eq_false_iff.mpr shut⟩

/-- `Delete` fails and changes nothing, or removes what is stored under the validated URI. -/
theorem delete_cases (s : StorageEngineImpl) (u : Str) :
    ((s.delete u).2 ≠ some (.ok ()) ∧ SameBooks s (s.delete u).1) ∨
      ((s.delete u).2 = some (.ok ()) ∧ validateStorageURI u = .ok () ∧
        ∃ key isPolicy, validateURI u = .ok key ∧ Erased s (s.delete u).1 key ∧
          (s.delete u).1.tombstones = s.tombstones ∧
          (s.delete u).1.invalidations = s.invalidations ++ [⟨u, isPolicy, u⟩]) := by
  unfold delete
  cases validateStorageURI u with
  | error err => exact .inl ⟨by simp, .refl s⟩
  | ok done =>
    rcases deletion_cases s.defaultBackend u with ⟨failed, same⟩ | ⟨key, valid, running⟩
    · obtain ⟨err, failed⟩ := Option.isSome_iff_exists.mp failed
      rw [failed, same]
      exact .inl ⟨by simp, .refl s⟩
    · obtain ⟨deleted, data, size, marks, closed⟩ := delete_twice valid running
      rw [deleted]
      simp only [deletionError]
      exact .inr ⟨trivial, trivial, key, _, valid, ⟨rfl, data, size, marks, closed, rfl⟩, rfl, rfl⟩

/-- The tombstone that a deletion stores: it names the URI and has a time. -/
def placed (now : Time) (u : Str) (tombstone : Tombstone) : Tombstone :=
  { tombstone with
    uri := if tombstone.uri = [] then u else tombstone.uri
    deletedAt := if tombstone.deletedAt.isZero then now else tombstone.deletedAt }

/-- `DeleteWithTombstone` fails and changes nothing but tombstones, or removes what is stored under the
validated URI and stores the tombstone; it reports nothing to the invalidators. -/
theorem deleteWithTombstone_cases (s : StorageEngineImpl) (now : Time) (u : Str) (tombstone : Tombstone) :
    ((s.deleteWithTombstone now u tombstone).2 ≠ some (.ok ()) ∧
        ∃ tombstones, (s.deleteWithTombstone now u tombstone).1 = { s with tombstones } ∧
          ∀ k, k ≠ u → k ≠ (placed now u tombstone).uri → tombstones.lookup k = s.tombstones.lookup k) ∨
      ((s.deleteWithTombstone now u tombstone).2 = some (.ok ()) ∧ validateStorageURI u = .ok () ∧
        ∃ key, validateURI u = .ok key ∧ Erased s (s.deleteWithTombstone now u tombstone).1 key ∧
          (s.deleteWithTombstone now u tombstone).1.tombstones =
            s.tombstones.insert (placed now u tombstone).uri (placed now u tombstone) ∧
          (s.deleteWithTombstone now u tombstone).1.invalidations = s.invalidations) := by
  unfold deleteWithTombstone
  cases validateStorageURI u with
  | error err => exact .inl ⟨by simp, s.tombstones, rfl, fun _ _ _ => rfl⟩
  | ok done =>
    simp only
    split
    · rcases deletion_cases s.defaultBackend u with ⟨failed, same⟩ | ⟨key, valid, running⟩
      · obtain ⟨err, failed⟩ := Option.isSome_iff_exists.mp failed
        rw [failed, same]
        refine .inl ⟨by simp, _, rfl, fun k other named => ?_⟩
        exact (AList.lookup_erase_ne other).trans (AList.lookup_insert_ne named)
      · obtain ⟨deleted, data, size, marks, closed⟩ := delete_twice valid running
        rw [deleted]
        simp only [deletionError]
        exact .inr ⟨trivial, trivial, key, valid, ⟨rfl, data, size, marks, closed, rfl⟩, rfl, trivial⟩
    · exact .inl ⟨by simp, s.tombstones, rfl, fun _ _ _ => rfl⟩

end StorageEngineImpl

end Storage
