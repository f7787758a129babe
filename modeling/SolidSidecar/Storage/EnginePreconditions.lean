import SolidSidecar.Storage.EngineHistory

/-!
# Conditional writes in runs of the engine

What the preconditions of a write are for: the ETag of a read holds for a later write as long as the
resource is left alone, and a compare-and-swap that succeeds sets its value, so that a second one with the
same expectation fails.
-/

namespace Storage
open Go AList MemoryBackend Run List

namespace StorageEngineImpl

variable {sha256 : Str → Str} {s s' : StorageEngineImpl} {u : Str} {op : EngineOp}

def Writes (u : Str) : EngineOp → Prop
  | .put _ r => r.uri = u
  | _ => False

/-- A deletion of what is stored under `u`, or a tombstone for it. -/
def Deletes (u : Str) : EngineOp → Prop
  | .put _ _ => False
  | .delete uri => validateURI uri = .ok u
  | .deleteWithTombstone _ uri tombstone => uri = u ∨ tombstone.uri = u ∨ validateURI uri = .ok u

/-- What an operation that does not write `u` leaves of it. -/
structure Beside (u : Str) (op : EngineOp) (s s' : StorageEngineImpl) : Prop where
  config : s'.config = s.config
  closed : s'.defaultBackend.closed = s.defaultBackend.closed
  mark : s'.defaultBackend.tombstones.lookup u = s.defaultBackend.tombstones.lookup u
  data : s'.defaultBackend.data.lookup u = s.defaultBackend.data.lookup u ∨
    Deletes u op ∧ s'.defaultBackend.data.lookup u = none
  tombstone : ¬ Deletes u op → s'.tombstones.lookup u = s.tombstones.lookup u

theorem SameBooks.beside (books : SameBooks s s') : Beside u op s s' :=
  ⟨books.config, books.closed, by rw [books.marks], .inl (by rw [books.data]), fun _ => by rw [books.tombstones]⟩

theorem Erased.beside {key} (erased : Erased s s' key) (reached : key = u → Deletes u op)
    (tombstone : ¬ Deletes u op → s'.tombstones.lookup u = s.tombstones.lookup u) : Beside u op s s' := by
  refine ⟨erased.config, erased.closed, by rw [erased.marks], ?_, tombstone⟩
  rw [erased.data]
  split_ifs with same
  · exact .inr ⟨reached same.symm, rfl⟩
  · exact .inl rfl

theorem beside_of_run (other : ¬ Writes u op) : Beside u op s (op.run sha256 s).1 := by
  cases op with
  | put now r =>
    have apart : u ≠ r.uri := fun same => other same.symm
    rcases put_cases sha256 s now r with ⟨-, books⟩ | ⟨-, _, _, written⟩
    · exact books.beside
    · refine ⟨written.config, written.closed, ?_, .inl ?_, fun _ => congrArg _ written.tombstones⟩
      · exact (congrArg _ written.marks).trans (lookup_erase_ne apart)
      · exact (congrArg _ written.data).trans (lookup_insert_ne apart)
  | delete uri =>
    rcases delete_cases s uri with ⟨-, books⟩ | ⟨-, -, key, _, valid, erased, tombstones, -⟩
    · exact books.beside
    · exact erased.beside (fun same => same ▸ valid) fun _ => congrArg _ tombstones
  | deleteWithTombstone now uri tombstone =>
    have elsewhere : ¬ Deletes u (.deleteWithTombstone now uri tombstone) →
        u ≠ (placed now uri tombstone).uri := by
      unfold Deletes placed
      split_ifs <;> tauto
    rcases deleteWithTombstone_cases s now uri tombstone with
      ⟨-, tombstones, same, kept⟩ | ⟨-, -, key, valid, erased, tombstones, -⟩
    · have after : (EngineOp.run sha256 s (.deleteWithTombstone now uri tombstone)).1 = _ := same
      rw [after]
      exact ⟨rfl, rfl, rfl, .inl rfl, fun free => kept u (fun same => free (.inl same.symm)) (elsewhere free)⟩
    · refine erased.beside (fun same => .inr (.inr (same ▸ valid))) fun free => ?_
      exact (congrArg _ tombstones).trans (lookup_insert_ne (elsewhere free))

/-- A write with the tag for `If-Match` passes the preconditions, in the engine and in the backend, and one
with the tag for `If-None-Match` does not. -/
structure TagHolds (s : StorageEngineImpl) (u tag : Str) : Prop where
  passes : ∀ r, r.uri = u → r.preconditions = { ifMatch := tag } →
    s.handlePreconditions r = .ok () ∧
      MemoryBackend.ifMatchFails (s.defaultBackend.data.lookup u) tag = false
  refused : ∀ r, r.uri = u → r.preconditions.ifNoneMatch = tag →
    s.handlePreconditions r = .error .preconditionFailed

structure Shows (u : Str) (m : MemoryResource) (s : StorageEngineImpl) : Prop where
  valid : validateStorageURI u = .ok ()
  shown : s.isTombstoned u = false
  running : s.defaultBackend.closed = false
  unmarked : s.defaultBackend.tombstones.lookup u = none
  stored : s.defaultBackend.data.lookup u = some m

theorem shows_of_get {res} (read : s.get sha256 u = .ok res) :
    ∃ m, Shows u m s ∧ res.metadata.etag =
      if m.metadata.etag = [] then generateETag sha256 (bytesOf m.body) else m.metadata.etag := by
  simp only [get, MemoryBackend.get, bind_eq_ok, orError_eq_ok] at read
  obtain ⟨⟨⟩, valid, ⟨⟩, shown, _, ⟨⟨⟩, running, ⟨⟩, -, ⟨⟩, unmarked, m, stored, ⟨⟩⟩, ⟨⟩⟩ := read
  exact ⟨m, ⟨valid, by simpa using shown, by simpa using running, by simpa using unmarked, stored⟩, rfl⟩

/-- A resource that no tombstone hides has the metadata of the backend. -/
theorem getMetadata_of_shown (shown : s.isTombstoned u = false) :
    s.getMetadata u = (do validateStorageURI u; s.defaultBackend.getMetadata u) := by
  unfold getMetadata
  split
  · have unmarked : s.tombstones.lookup u = none := by simpa [isTombstoned, *] using shown
    rw [unmarked]
  · rfl

theorem handlePreconditions_ifMatch {r tag}
    (conditions : r.preconditions = { ifMatch := tag }) : s.handlePreconditions r = s.checkIfMatch r.uri tag := by
  rw [handlePreconditions, conditions]
  show (s.checkIfMatch r.uri tag >>= fun _ => .ok ()) = _
  cases s.checkIfMatch r.uri tag <;> rfl

/-- The tag that is made for a resource without one starts with a quotation mark. -/
theorem generateETag_head (sha256 : Str → Str) (data : Str) :
    ∃ rest, generateETag sha256 data = '"'.toUInt8 :: rest := by
  unfold generateETag
  split_ifs
  · exact ⟨_, rfl⟩
  · exact ⟨_, rfl⟩

section

variable {m : MemoryResource} (shows : Shows u m s)

include shows

theorem Shows.step (other : ¬ Writes u op ∧ ¬ Deletes u op) : Shows u m (op.run sha256 s).1 := by
  have beside : Beside u op s (op.run sha256 s).1 := beside_of_run other.1
  refine ⟨shows.valid, ?_, beside.closed.trans shows.running, beside.mark.trans shows.unmarked, ?_⟩
  · rw [isTombstoned, beside.config, beside.tombstone other.2]
    exact shows.shown
  · exact (beside.data.resolve_right fun gone => other.2 gone.1).trans shows.stored

theorem Shows.getMetadata : s.getMetadata u = .ok m.metadata := by
  rw [getMetadata_of_shown shows.shown, shows.valid, MemoryBackend.getMetadata, shows.running, shows.unmarked,
    shows.stored]
  rfl

/-- What a tag is compared with; `*` asks only whether the resource is there. -/
theorem Shows.check_iff {tag : Str} (some : tag ≠ []) :
    (s.checkIfMatch u tag = .ok () ↔ if tag = "*" then s.existsAt u = .ok true else m.metadata.etag = tag) ∧
      (s.checkIfNoneMatch u tag = .error .preconditionFailed ↔
        if tag = "*" then s.existsAt u = .ok true else m.metadata.etag = tag) := by
  rw [checkIfMatch, checkIfNoneMatch, if_neg some, shows.getMetadata]
  split_ifs
  · rcases s.existsAt u with _ | there
    · simp
    · cases there <;> simp
  · simp

/-- A tag that is stored holds, and `*` where the resource is found under its URI. -/
theorem Shows.tagHolds_iff {tag : Str} (some : tag ≠ []) :
    TagHolds s u tag ↔ if tag = "*" then s.existsAt u = .ok true else m.metadata.etag = tag := by
  obtain ⟨ifMatch, ifNoneMatch⟩ := shows.check_iff some
  constructor
  · intro holds
    have passed := (holds.passes { uri := u, preconditions := { ifMatch := tag } } rfl rfl).1
    rw [handlePreconditions_ifMatch rfl] at passed
    exact ifMatch.mp passed
  · intro found
    refine ⟨?_, ?_⟩
    · rintro r rfl conditions
      rw [handlePreconditions_ifMatch conditions, ifMatch.mpr found, ifMatchFails, shows.stored]
      split_ifs at found ⊢
      · simp
      · simp [found]
    · rintro r rfl rfl
      rw [handlePreconditions, ifNoneMatch.mpr found]
      rfl

end

/-- The tag of a read holds for a write after it, with nothing done to the resource in between, exactly
when the metadata stored have a tag; if that is `*`, the resource has to be found. -/
theorem tagHolds_iff_stored (sha256 : Str → Str) {s : StorageEngineImpl} {u : Str} {res : Resource}
    {between : List EngineOp} (read : s.get sha256 u = .ok res)
    (other : ∀ op ∈ between, ¬ Writes u op ∧ ¬ Deletes u op) :
    TagHolds (Run.exec (EngineOp.run sha256) s between) u res.metadata.etag ↔
      ∃ m, s.defaultBackend.data.lookup u = some m ∧ m.metadata.etag ≠ [] ∧
        (m.metadata.etag = str "*" → (Run.exec (EngineOp.run sha256) s between).existsAt u = .ok true) := by
  obtain ⟨m, shows, tag⟩ := shows_of_get read
  have later : Shows u m (exec (EngineOp.run sha256) s between) :=
    run_inv shows (fun before op after split shows => shows.step (other op (by simp [split]))) between []
      (append_nil _).symm
  rw [shows.stored, tag]
  by_cases unset : m.metadata.etag = []
  · obtain ⟨rest, quoted⟩ := generateETag_head sha256 _
    have proper : '"'.toUInt8 :: rest ≠ "*" := fun star => absurd (cons.inj star).1 (by decide)
    rw [if_pos unset, quoted, later.tagHolds_iff (cons_ne_nil _ _), if_neg proper]
    simp [unset]
  · rw [if_neg unset, later.tagHolds_iff unset]
    simp [unset]

def noted (text : Str) : StorageEngineImpl :=
  ((newStorageEngine {}).put (fun _ => []) Time.zero { uri := str "/note", body := some text }).1

theorem tagHolds_iff_stored_note :
    ∃ res, (noted (str "x")).get (fun _ => []) (str "/note") = .ok res ∧
      TagHolds (noted (str "x")) (str "/note") res.metadata.etag := by
  refine ⟨_, rfl, (@tagHolds_iff_stored (fun _ => []) _ (str "/note") _ [] rfl (by simp)).mpr ?_⟩
  exact ⟨_, rfl, by decide +kernel, by decide +kernel⟩

/-- The tag that a reader gets of an empty note is not stored: a writer who sends it is refused. -/
theorem empty_note_not_tagHolds :
    ∃ res, (noted []).get (fun _ => []) (str "/note") = .ok res ∧
      ¬ TagHolds (noted []) (str "/note") res.metadata.etag := by
  refine ⟨_, rfl, fun holds => ?_⟩
  have passed := (holds.passes { uri := str "/note", preconditions := { ifMatch := _ } } rfl rfl).1
  revert passed
  decide +kernel

def customAt (s : StorageEngineImpl) (u key : Str) : Option Str :=
  (s.defaultBackend.data.lookup u).map fun m => (m.metadata.custom.lookup key).getD []

/-- The operation is a write of `u` that carries `cas` and succeeds. -/
def Swaps (sha256 : Str → Str) (s : StorageEngineImpl) (op : EngineOp) (u : Str)
    (cas : CompareAndSwapPrecondition) : Prop :=
  ∃ now r, op = .put now r ∧ r.uri = u ∧ r.preconditions.compareAndSwap = some cas ∧
    (s.put sha256 now r).2 = some (.ok ())

structure Rivals (cas cas' : CompareAndSwapPrecondition) : Prop where
  key : cas'.key = cas.key
  expected : cas'.expectedValue = cas.expectedValue
  first : cas.newValue ≠ cas.expectedValue
  second : cas'.newValue ≠ cas.expectedValue

/-- In a run from `s`, a compare-and-swap that succeeds sets its value, and of two rivals with no other
write between them at most one succeeds. -/
structure SwapsOnce (sha256 : Str → Str) (s : StorageEngineImpl) (ops : List EngineOp) : Prop where
  sets : ∀ before op after u cas, ops = before ++ op :: after →
    Swaps sha256 (Run.exec (EngineOp.run sha256) s before) op u cas →
    (Run.exec (EngineOp.run sha256) s (before ++ [op])).customAt u cas.key = some cas.newValue
  excludes : ∀ before op between op' after u cas cas', ops = before ++ op :: (between ++ op' :: after) →
    Rivals cas cas' → (∀ mid ∈ between, ¬ Writes u mid) →
    Swaps sha256 (Run.exec (EngineOp.run sha256) s before) op u cas →
    ¬ Swaps sha256 (Run.exec (EngineOp.run sha256) s (before ++ op :: between)) op' u cas'

/-- A write with a compare-and-swap gives the new value in its own metadata; no tombstone stands in for the
metadata that the swap is compared with, and no missing resource ends the check before that. -/
def SetsItsValue (s : StorageEngineImpl) : EngineOp → Prop
  | .put _ r => ∀ cas ∈ r.preconditions.compareAndSwap,
      (r.metadata.custom.lookup cas.key).getD [] = cas.newValue ∧ s.isTombstoned r.uri = false ∧
        (r.preconditions.ifNoneMatch = [] ∨ r.preconditions.ifNoneMatch = "*" ∨
          (s.defaultBackend.data.lookup r.uri).isSome = true)
  | _ => True

instance (s : StorageEngineImpl) (op : EngineOp) : Decidable (SetsItsValue s op) := by
  cases op <;> unfold SetsItsValue <;> infer_instance

/-- What a swap with the expectation `value` finds under `u` is something else. -/
structure Guards (u key value : Str) (s : StorageEngineImpl) : Prop where
  unmarked : s.defaultBackend.tombstones.lookup u = none
  differs : s.customAt u key ≠ some value

theorem Guards.step {key value} (guarded : Guards u key value s) (other : ¬ Writes u op) :
    Guards u key value (op.run sha256 s).1 := by
  have beside : Beside u op s (op.run sha256 s).1 := beside_of_run other
  refine ⟨beside.mark.trans guarded.unmarked, ?_⟩
  unfold customAt
  rcases beside.data with same | ⟨-, gone⟩
  · rw [same]
    exact guarded.differs
  · simp [gone]

/-- A swap that succeeds leaves the value that the write carries. -/
theorem Swaps.guards {cas} (swaps : Swaps sha256 s op u cas) (own : SetsItsValue s op) :
    (op.run sha256 s).1.defaultBackend.tombstones.lookup u = none ∧
      (op.run sha256 s).1.customAt u cas.key = some cas.newValue := by
  obtain ⟨now, r, rfl, rfl, carried, done⟩ := swaps
  rcases put_cases sha256 s now r with ⟨failed, -⟩ | ⟨-, _, _, written⟩
  · exact absurd done failed
  · obtain ⟨_, _, passed, rfl⟩ := written.passed
    refine ⟨(congrArg _ written.marks).trans (lookup_erase _ _), ?_⟩
    show customAt (s.put sha256 now r).1 r.uri cas.key = _
    rw [customAt, written.data, lookup_insert, ← (own cas carried).1, ← passed.metadata]
    rfl

/-- A resource that is stored is not reported as missing. -/
theorem not_missing {m err} (shown : s.isTombstoned u = false)
    (unmarked : s.defaultBackend.tombstones.lookup u = none)
    (stored : s.defaultBackend.data.lookup u = some m) (read : s.getMetadata u = .error err) :
    err.is .notFound = false := by
  rw [getMetadata_of_shown shown] at read
  simp only [MemoryBackend.getMetadata, validateStorageURI, bind_eq_error] at read
  aesop

/-- A swap that expects something else than it finds fails. -/
theorem Guards.excludes {cas} (own : SetsItsValue s op)
    (guarded : Guards u cas.key cas.expectedValue s) : ¬ Swaps sha256 s op u cas := by
  rintro ⟨_, r, rfl, rfl, carried, done⟩
  obtain ⟨-, shown, reached⟩ := own cas carried
  have allowed : s.handlePreconditions r = .ok () := by
    cases checked : s.checkPut r with
    | error err => simp [put, checked] at done
    | ok r' => exact (checkPut_passed checked).2
  simp only [handlePreconditions, bind_eq_ok] at allowed
  obtain ⟨goOn, first, rest⟩ := allowed
  have passes : goOn = true := by
    cases goOn with
    | true => rfl
    | false =>
      unfold checkIfNoneMatch at first
      split_ifs at first with empty star
      · cases first
      · split at first
        · cases first
        · split at first <;> cases first
      · obtain ⟨m, stored⟩ :=
          Option.isSome_iff_exists.mp ((reached.resolve_left empty).resolve_left star)
        split at first
        · rw [not_missing shown guarded.unmarked stored ‹_›] at first
          cases first
        · split at first <;> cases first
  subst passes
  simp only [if_true, bind_eq_ok, carried, checkCompareAndSwap] at rest
  obtain ⟨⟨⟩, -, compared⟩ := rest
  rw [getMetadata_of_shown shown] at compared
  split at compared
  · split at compared <;> cases compared
  · rename_i m read
    simp only [bind_eq_ok, MemoryBackend.getMetadata, orError_eq_ok] at read
    obtain ⟨-, -, -, -, -, -, m, stored, ⟨⟩⟩ := read
    apply guarded.differs
    rw [customAt, stored]
    simpa using compared

/-- In a run whose compare-and-swaps each give their new value themselves, they exclude each other. -/
theorem swapsOnce_of_sets (sha256 : Str → Str) {s : StorageEngineImpl} {ops : List EngineOp}
    (own : Run.Along (EngineOp.run sha256) SetsItsValue s ops) : SwapsOnce sha256 s ops := by
  rw [along_iff] at own
  constructor
  · intro before op after u cas split swaps
    rw [exec_snoc]
    exact (swaps.guards (own before op after split)).2
  · intro before op between op' after u cas cas' split rivals others swaps
    obtain ⟨unmarked, set⟩ := swaps.guards (own before op _ split)
    apply Guards.excludes (own _ op' after (by simpa using split))
    rw [exec_append]
    apply run_inv _ _ between [] (append_nil _).symm
    · refine ⟨unmarked, ?_⟩
      rw [rivals.key, rivals.expected, set]
      simpa using rivals.first
    · intro before mid after split guarded
      exact guarded.step (others mid (by simp [split]))

/-- A note is written and then locked by two writers, whose metadata name them if `kept`. -/
def lockRun (kept : Bool) : List EngineOp :=
  let lock (holder : Str) : EngineOp := .put Time.zero
    { uri := "/note"
      body := some holder
      metadata := { custom := if kept then Finmap.singleton "lock" holder else ∅ }
      preconditions := { compareAndSwap := some ⟨"lock", [], holder⟩ } }
  [.put Time.zero { uri := "/note", body := some "x" }, lock "a", lock "b"]

theorem swapsOnce_of_sets_lock : SwapsOnce (fun _ => []) (newStorageEngine {}) (lockRun true) :=
  swapsOnce_of_sets (fun _ => []) (by decide +kernel)

/-- The new value of a compare-and-swap is not stored: two writers take the same lock. -/
theorem not_swapsOnce_lock : ¬ SwapsOnce (fun _ => []) (newStorageEngine {}) (lockRun false) := by
  intro h
  refine h.excludes [_] _ [] _ [] "/note" ⟨"lock", [], "a"⟩ ⟨"lock", [], "b"⟩ rfl
    ⟨rfl, rfl, by decide, by decide⟩ (by simp) ?_ ?_
  · exact ⟨_, _, rfl, rfl, rfl, by decide +kernel⟩
  · exact ⟨_, _, rfl, rfl, rfl, by decide +kernel⟩

end StorageEngineImpl

end Storage
