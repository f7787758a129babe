import SolidSidecar.Storage.EngineSpec

/-!
# What an engine run leaves to be read

A run of `Put`, `Delete` and `DeleteWithTombstone` calls against the history of those that succeeded:
what was written last is read back and listed, what was deleted last is not found. The engine deletes in
two places, its tombstone store and the backend, and a write clears only the second.
-/

namespace Storage
open Go List Strings

/-- The bytes that a write carries: those of its body, or what its reader gives when there are none. -/
def WriteResource.content (r : WriteResource) : Str :=
  match r.body, r.bodyReader with
  | some (b :: rest), _ => b :: rest
  | _, some (.ok data) => data
  | _, _ => []

theorem bytesOf_readBody {r r' : WriteResource} {body}
    (stripped : r'.body = if r.body = some [] then none else r.body)
    (reader : r'.bodyReader = r.bodyReader) (read : r'.readBody = .ok body) :
    bytesOf body = r.content := by
  unfold WriteResource.readBody at read
  unfold WriteResource.content
  rw [stripped, reader] at read
  generalize r.body = held at read ⊢
  generalize r.bodyReader = given at read ⊢
  rcases held with - | - | ⟨b, rest⟩
  -- without bytes of its own, a write carries what its reader gives
  iterate 2
    · rcases given with - | _ | data
      · have read : none = body := by simpa using read
        subst read
        rfl
      · simp at read
      · have read : some data = body := by simpa using read
        subst read
        rfl
  · have read : some (b :: rest) = body := by simpa using read
    subst read
    rfl

namespace StorageEngineImpl

variable {u : Str}

/-- What is stored under `u` has become `entry`; the tombstones of other URIs are as they were. -/
structure Changed (s s' : StorageEngineImpl) (u : Str) (entry : Option MemoryResource) : Prop where
  config : s'.config = s.config
  data : ∀ k, s'.defaultBackend.data.lookup k =
    if k = u then entry else s.defaultBackend.data.lookup k
  size : s'.defaultBackend.data.size ≤ s.defaultBackend.data.size + entry.toList.length
  tombstones : ∀ k, k ≠ u → s'.tombstones.lookup k = s.tombstones.lookup k
  marks : (∀ k, s.defaultBackend.tombstones.lookup k = none) → ∀ k, s'.defaultBackend.tombstones.lookup k = none
  closed : s'.defaultBackend.closed = s.defaultBackend.closed

variable (sha256 : Str → Str) {s : StorageEngineImpl}

variable {sha256} in
/-- A write that is not accounted for stores the bytes that it carries. -/
theorem Written.content {s' : StorageEngineImpl} {now : Time} {r r' : WriteResource} {body : Option Str}
    (written : Written sha256 s s' now r r' body) (unmetered : s.accounts r = false) :
    bytesOf body = r.content := by
  obtain ⟨r₁, address, passed, kept⟩ := written.passed
  have read := passed.read
  rw [unmetered, if_neg Bool.false_ne_true] at read
  obtain rfl := Except.ok.inj read
  apply bytesOf_readBody _ _ written.read
  · rw [kept]
    rfl
  · rw [kept]
    rfl

/-- A write that succeeds is stored under its URI; any other leaves what readers see. -/
theorem put_spec (s : StorageEngineImpl) (now : Time) (r : WriteResource)
    (off : s.config.enableQuotaManagement = false) :
    ((s.put sha256 now r).2 ≠ some (.ok ()) ∧ SameIndex s (s.put sha256 now r).1) ∨
      ((s.put sha256 now r).2 = some (.ok ()) ∧ validateStorageURI r.uri = .ok () ∧
        (s.put sha256 now r).1.tombstones = s.tombstones ∧
        ∃ m, bytesOf m.body = r.content ∧ m.metadata.uri = (if r.metadata.uri = [] then r.uri else r.metadata.uri) ∧
          Changed s (s.put sha256 now r).1 r.uri (some m)) := by
  rcases put_cases sha256 s now r with ⟨failed, books⟩ | ⟨done, r', body, written⟩
  · exact .inl ⟨failed, books.toSameIndex⟩
  · obtain ⟨_, _, passed, kept⟩ := written.passed
    have unmetered : s.accounts r = false := by rw [accounts, off, Bool.false_and]
    refine .inr ⟨done, passed.valid, written.tombstones,
      ⟨r.uri, body, s.defaultBackend.prepareMetadata sha256 now r.uri body r'.metadata⟩,
      written.content unmetered, ?_, written.config, fun k => ?_, ?_, fun k _ => ?_, fun clear k => ?_,
      written.closed⟩
    · show (if r'.metadata.uri = [] then r.uri else r'.metadata.uri) = _
      rw [kept, passed.metadata]
    · rw [written.data, GoMap.lookup_insert_eq]
    · rw [written.data]
      exact GoMap.size_insert_le _ _ _
    · rw [written.tombstones]
    · rw [written.marks, GoMap.lookup_erase_eq, clear k]
      split <;> rfl

/-- What a deletion of `u` leaves, where the tombstones of other URIs are kept. -/
theorem Erased.changed {s'} (erased : Erased s s' u)
    (tombstones : ∀ k, k ≠ u → s'.tombstones.lookup k = s.tombstones.lookup k) : Changed s s' u none :=
  ⟨erased.config, erased.data, erased.size, tombstones, fun clear k => by rw [erased.marks, clear k], erased.closed⟩

/-- `Delete` of a URI that validation leaves as it is. -/
theorem delete_spec (normal : validateURI u = .ok u) : ((s.delete u).2 ≠ some (.ok ()) ∧ SameIndex s (s.delete u).1) ∨
      ((s.delete u).2 = some (.ok ()) ∧ validateStorageURI u = .ok () ∧ Changed s (s.delete u).1 u none) := by
  rcases delete_cases s u with ⟨failed, books⟩ | ⟨done, accepted, _, _, valid, erased, tombstones, -⟩
  · exact .inl ⟨failed, books.toSameIndex⟩
  · obtain rfl := Except.ok.inj (normal.symm.trans valid)
    exact .inr ⟨done, accepted, erased.changed fun k _ => by rw [tombstones]⟩

/-- `DeleteWithTombstone` of such a URI, with a tombstone that names it or none. -/
theorem deleteWithTombstone_spec {now} {tombstone : Tombstone}
    (normal : validateURI u = .ok u) (running : s.defaultBackend.closed = false)
    (own : tombstone.uri = [] ∨ tombstone.uri = u) :
    ((s.deleteWithTombstone now u tombstone).2 ≠ some (.ok ()) ∧
        SameIndex s (s.deleteWithTombstone now u tombstone).1) ∨
      ((s.deleteWithTombstone now u tombstone).2 = some (.ok ()) ∧ validateStorageURI u = .ok () ∧
        Changed s (s.deleteWithTombstone now u tombstone).1 u none) := by
  obtain ⟨deleted, data, size, marks, closed⟩ := delete_twice normal running
  have placed : (if tombstone.uri = [] then u else tombstone.uri) = u := by
    rcases own with none | same
    · rw [if_pos none]
    · rw [same]
      split <;> rfl
  unfold deleteWithTombstone
  cases validateStorageURI u with
  | error err => exact .inl ⟨by simp, .refl s⟩
  | ok done =>
    simp only
    split
    · rw [deleted]
      simp only [deletionError, placed]
      refine .inr ⟨trivial, trivial, rfl, data, size, fun k other => ?_, fun clear k => ?_, closed⟩
      · exact AList.lookup_insert_ne other
      · exact (congrArg _ marks).trans (clear k)
    · exact .inl ⟨by simp, .refl s⟩

end StorageEngineImpl

inductive EngineOp where
  | put (now : Time) (resource : WriteResource)
  | delete (uri : Str)
  | deleteWithTombstone (now : Time) (uri : Str) (tombstone : Tombstone)

namespace EngineOp

def uri : EngineOp → Str
  | .put _ r => r.uri
  | .delete uri => uri
  | .deleteWithTombstone _ uri _ => uri

def run (sha256 : Str → Str) (s : StorageEngineImpl) :
    EngineOp → StorageEngineImpl × Option (Except StorageError Unit)
  | .put now r => s.put sha256 now r
  | .delete uri => s.delete uri
  | .deleteWithTombstone now uri tombstone => s.deleteWithTombstone now uri tombstone

/-- What the operation is to leave under its URI: the bytes written, or nothing. -/
def leaves : EngineOp → Option Str
  | .put _ r => some r.content
  | .delete _ => none
  | .deleteWithTombstone _ _ _ => none

/-- What a successful operation on `u` is to leave there. -/
def effect (u : Str) : EngineOp × Option (Except StorageError Unit) → Option (Option Str)
  | (op, some (.ok ())) => if op.uri = u then some op.leaves else none
  | _ => none

/-- A write to a URI without a tombstone in the engine's store, whose metadata give it no other URI,
while the backend has room in a listing; a tombstone for the URI that is deleted. -/
def Admits (s : StorageEngineImpl) : EngineOp → Prop
  | .put _ r => s.isTombstoned r.uri = false ∧ (r.metadata.uri = [] ∨ r.metadata.uri = r.uri) ∧
      s.defaultBackend.data.size < maxResourceCountPerList
  | .delete _ => True
  | .deleteWithTombstone _ uri tombstone => tombstone.uri = [] ∨ tombstone.uri = uri

end EngineOp

/-- The container of a URI: what stands before its last slash, or the root when that is nothing. -/
def containerOf (u : Str) : Option Str :=
  match cutLast u '/'.toUInt8 with
  | none => none
  | some (_, []) => none
  | some ([], _) => some "/"
  | some (container, _) => some container

namespace StorageEngineImpl

variable (sha256 : Str → Str) {op : EngineOp} {u c : Str}

/-- A reader of `u` finds the bytes, and `u` in every listing of its container. -/
structure ReadsBack (s : StorageEngineImpl) (u bytes : Str) : Prop where
  get : (s.get sha256 u).map Resource.bytes = .ok bytes
  listed : ∀ c, containerOf u = some c → validateURI c = .ok c → ∀ order,
    ∃ l, s.list order c = .ok l ∧ ∃ m ∈ l, m.uri = u

/-- What `u` reads as, given what the last successful operation on it was to leave. -/
def Reads (s : StorageEngineImpl) (u : Str) : Option (Option Str) → Prop
  | some (some bytes) => s.ReadsBack sha256 u bytes
  | some none => s.get sha256 u = .error .notFound
  | none => True

/-- In every state of a run, every URI reads as the operations on it that succeeded have left it. -/
def ReadsFollow (config : EngineConfig) (ops : List EngineOp) : Prop :=
  ∀ before after, ops = before ++ after → ∀ u,
    (Run.exec (EngineOp.run sha256) (newStorageEngine config) before).Reads sha256 u (Run.latest (EngineOp.effect u)
        (Run.trace (EngineOp.run sha256) (newStorageEngine config) before))

/-- The engine after a history: what was left under a URI is stored there and nowhere hidden. -/
structure Mirrors (history : List (EngineOp × Option (Except StorageError Unit))) (s : StorageEngineImpl) : Prop where
  tombstoned : s.config.enableTombstones = true
  unmetered : s.config.enableQuotaManagement = false
  running : s.defaultBackend.closed = false
  clear : ∀ k, s.defaultBackend.tombstones.lookup k = none
  few : s.defaultBackend.data.size ≤ maxResourceCountPerList
  named : ∀ k m, s.defaultBackend.data.lookup k = some m → m.metadata.uri = k
  left : ∀ u bytes, Run.latest (EngineOp.effect u) history = some bytes → validateStorageURI u = .ok () ∧
      (s.defaultBackend.data.lookup u).map (fun m => bytesOf m.body) = bytes
  visible : ∀ u, (s.defaultBackend.data.lookup u).isSome = true → s.tombstones.lookup u = none

theorem effect_of_failed {outcome}
    (failed : outcome ≠ some (.ok ())) (u : Str) : EngineOp.effect u (op, outcome) = none := by
  rcases outcome with - | _ | _
  · rfl
  · rfl
  · exact absurd rfl failed

variable {sha256} {s s' : StorageEngineImpl} {history : List (EngineOp × Option (Except StorageError Unit))}

section

variable (h : Mirrors history s)

include h

/-- An operation that fails leaves the engine in step with its history. -/
theorem Mirrors.failed {outcome} (failed : outcome ≠ some (.ok ()))
    (index : SameIndex s s') : Mirrors (history ++ [(op, outcome)]) s' where
  tombstoned := by rw [index.config, h.tombstoned]
  unmetered := by rw [index.config, h.unmetered]
  running := index.closed.trans h.running
  clear k := by rw [index.marks, h.clear k]
  few := by
    rw [index.data]
    exact h.few
  named k m found := h.named k m (by rwa [index.data] at found)
  left u bytes last := by
    rw [Run.latest_snoc, effect_of_failed failed] at last
    rw [index.data]
    exact h.left u bytes last
  visible u stored := by
    rw [index.data] at stored
    rw [index.tombstones, h.visible u stored]

/-- An operation that succeeds, and leaves under its URI what it is to leave. -/
theorem Mirrors.succeeded (op : EngineOp) {entry}
    (change : Changed s s' op.uri entry) (valid : validateStorageURI op.uri = .ok ())
    (written : entry.map (fun m => bytesOf m.body) = op.leaves)
    (few : s'.defaultBackend.data.size ≤ maxResourceCountPerList)
    (named : ∀ m, entry = some m → m.metadata.uri = op.uri)
    (visible : entry.isSome = true → s'.tombstones.lookup op.uri = none) :
    Mirrors (history ++ [(op, some (.ok ()))]) s' where
  tombstoned := by rw [change.config, h.tombstoned]
  unmetered := by rw [change.config, h.unmetered]
  running := change.closed.trans h.running
  clear := change.marks h.clear
  few := few
  named k m found := by
    rw [change.data] at found
    split at found
    · rename_i same
      rw [same]
      exact named m found
    · exact h.named k m found
  left u bytes last := by
    rw [Run.latest_snoc] at last
    rw [change.data]
    by_cases same : u = op.uri
    · subst same
      rw [if_pos rfl]
      have last : some op.leaves = some bytes := by simpa [EngineOp.effect] using last
      exact ⟨valid, written.trans (Option.some.inj last)⟩
    · rw [if_neg same]
      have quiet : EngineOp.effect u (op, some (.ok ())) = none := if_neg (Ne.symm same)
      rw [quiet] at last
      exact h.left u bytes last
  visible u stored := by
    rw [change.data] at stored
    split at stored
    · rename_i same
      rw [same]
      exact visible stored
    · rename_i other
      rw [change.tombstones u other]
      exact h.visible u stored

theorem Mirrors.removed (op : EngineOp) (change : Changed s s' op.uri none)
    (valid : validateStorageURI op.uri = .ok ()) (empties : op.leaves = none) :
    Mirrors (history ++ [(op, some (.ok ()))]) s' := by
  apply h.succeeded op change valid empties.symm
  · exact change.size.trans h.few
  · rintro _ ⟨⟩
  · rintro ⟨⟩

theorem Mirrors.step (normal : validateURI op.uri = .ok op.uri) (admits : op.Admits s) :
    Mirrors (history ++ [(op, (op.run sha256 s).2)]) (op.run sha256 s).1 := by
  cases op with
  | put now r =>
    obtain ⟨unmarked, own, _⟩ := admits
    show Mirrors (history ++ [(_, (s.put sha256 now r).2)]) (s.put sha256 now r).1
    rcases put_spec sha256 s now r h.unmetered with
      ⟨failed, index⟩ | ⟨done, valid, tombstones, m, bytes, uri, change⟩
    · exact h.failed failed index
    · rw [done]
      apply h.succeeded (.put now r) change valid
      · exact congrArg some bytes
      · have grown := change.size
        have one : (some m).toList.length = 1 := rfl
        omega
      · rintro _ ⟨⟩
        rw [uri]
        rcases own with none | same
        · exact if_pos none
        · rw [same]
          split <;> rfl
      · intro _
        have absent : s.tombstones.lookup r.uri = none := by
          simpa [isTombstoned, h.tombstoned] using unmarked
        rw [tombstones]
        exact absent
  | delete uri =>
    have normal : validateURI uri = .ok uri := normal
    show Mirrors (history ++ [(_, (s.delete uri).2)]) (s.delete uri).1
    rcases delete_spec normal with ⟨failed, index⟩ | ⟨done, valid, change⟩
    · exact h.failed failed index
    · rw [done]
      exact h.removed (.delete uri) change valid rfl
  | deleteWithTombstone now uri tombstone =>
    have normal : validateURI uri = .ok uri := normal
    have own : tombstone.uri = [] ∨ tombstone.uri = uri := admits
    show Mirrors (history ++ [(_, (s.deleteWithTombstone now uri tombstone).2)])
      (s.deleteWithTombstone now uri tombstone).1
    rcases deleteWithTombstone_spec normal h.running own with ⟨failed, index⟩ | ⟨done, valid, change⟩
    · exact h.failed failed index
    · rw [done]
      exact h.removed _ change valid rfl

end

theorem containerOf_cases (inside : containerOf u = some c) :
    (c = "/" ∧ ∃ rest, u = "/" ++ rest) ∨ (c ≠ [] ∧ ∃ rest, u = c ++ "/" ++ rest) := by
  unfold containerOf at inside
  split at inside
  · cases inside
  · cases inside
  · rename_i rest _ found
    obtain rfl := Option.some.inj inside
    exact .inl ⟨rfl, rest, cutLast_eq_some found⟩
  · rename_i _ rest _ nonempty found
    obtain rfl := Option.some.inj inside
    refine .inr ⟨nonempty, rest, ?_⟩
    rw [cutLast_eq_some found, append_assoc]
    rfl

theorem validateStorageURI_eq_ok : validateStorageURI u = .ok () ↔ u ≠ [] ∧ ¬ ".." <:+: u ∧ ¬ "\x00" <:+: u := by
  simp [validateStorageURI, then_eq_ok, contains_iff]

/-- The container of a URI that the engine accepts is one, and its listing covers the URI. -/
theorem list_start (inside : containerOf u = some c) (valid : validateStorageURI u = .ok ()) :
    validateStorageURI c = .ok () ∧ hasPrefix u (if hasSuffix c "/" then c else c ++ "/") = true := by
  rcases containerOf_cases inside with ⟨rfl, rest, rfl⟩ | ⟨nonempty, rest, rfl⟩
  · refine ⟨by decide +kernel, ?_⟩
    rw [hasPrefix, isPrefixOf_iff_prefix]
    exact prefix_append _ _
  · obtain ⟨-, dots, zero⟩ := validateStorageURI_eq_ok.mp valid
    have start : c <:+: c ++ "/" ++ rest := by
      rw [append_assoc]
      exact (prefix_append _ _).isInfix
    refine ⟨validateStorageURI_eq_ok.mpr ⟨nonempty, fun inner => dots (inner.trans start),
      fun inner => zero (inner.trans start)⟩, ?_⟩
    rw [hasPrefix, isPrefixOf_iff_prefix]
    split
    · rw [append_assoc]
      exact prefix_append _ _
    · exact prefix_append _ _

theorem Mirrors.get (h : Mirrors history s) (sha256 : Str → Str) (valid : validateStorageURI u = .ok ()) :
    (s.get sha256 u).map Resource.bytes =
      (orError .notFound (s.defaultBackend.data.lookup u)).map fun m => bytesOf m.body := by
  have named : u ≠ [] := by
    rintro rfl
    cases valid
  have backend := MemoryBackend.get_eq h.running h.clear named
  unfold StorageEngineImpl.get
  rw [valid, backend]
  cases found : s.defaultBackend.data.lookup u with
  | none =>
    by_cases marked : s.isTombstoned u = true <;> simp [marked, refuse, bind, Except.bind, Except.map, orError]
  | some m =>
    have unmarked : s.isTombstoned u = false := by
      simp [isTombstoned, h.visible u (by rw [found]; rfl)]
    simp [unmarked, refuse, bind, Except.bind, Except.map, orError, Resource.bytes]

/-- What is stored under a URI is in every listing of its container. -/
theorem Mirrors.listed (h : Mirrors history s) {m}
    (valid : validateStorageURI u = .ok ()) (found : s.defaultBackend.data.lookup u = some m)
    (inside : containerOf u = some c) (normal : validateURI c = .ok c)
    (order : RangeOrder (Str × MemoryResource)) :
    ∃ l, s.list order c = .ok l ∧ ∃ m ∈ l, m.uri = u := by
  obtain ⟨container, covered⟩ := list_start inside valid
  have unmarked : s.isTombstoned u = false := by
    simp [isTombstoned, h.visible u (by rw [found]; rfl)]
  have uri := h.named u m found
  unfold list MemoryBackend.list
  rw [container, normal]
  simp only [h.running]
  refine ⟨_, rfl, m.metadata, ?_, uri⟩
  rw [mem_filter, take_of_length_le, uri, unmarked]
  · refine ⟨mem_map.mpr ⟨(u, m), ?_, rfl⟩, rfl⟩
    rw [mem_filter, order.mem_visit, GoMap.mem_pairs]
    exact ⟨found, by simp [h.clear u, covered]⟩
  · -- no listing reaches the limit
    calc _ ≤ s.defaultBackend.data.size := by
          rw [length_map]
          refine (length_filter_le _ _).trans ?_
          rw [(order.perm _).length_eq, GoMap.length_pairs]
      _ ≤ maxResourceCountPerList := h.few

theorem Mirrors.reads (h : Mirrors history s) (u : Str) :
    s.Reads sha256 u (Run.latest (EngineOp.effect u) history) := by
  cases last : Run.latest _ history with
  | none => trivial
  | some left =>
    obtain ⟨valid, stored⟩ := h.left u left last
    have got := h.get sha256 valid
    cases found : s.defaultBackend.data.lookup u with
    | none =>
      rw [found] at stored got
      obtain rfl : none = left := stored
      show s.get sha256 u = .error .notFound
      cases result : s.get sha256 u with
      | error err =>
        rw [result] at got
        have same : err = .notFound := Except.error.inj got
        rw [same]
      | ok r =>
        rw [result] at got
        cases got
    | some m =>
      rw [found] at stored got
      obtain rfl : some _ = left := stored
      exact ⟨got, fun c inside normal order => h.listed valid found inside normal order⟩

/-- With tombstones and without quotas, in a run on URIs that validation leaves as they are: every URI
reads as it was left, if each step is admitted in the state before it. -/
theorem readsFollow_of_admitted (sha256 : Str → Str) {config : EngineConfig} {ops : List EngineOp}
    (tombstoned : config.enableTombstones = true) (unmetered : config.enableQuotaManagement = false)
    (normal : ∀ op ∈ ops, validateURI op.uri = .ok op.uri)
    (admitted : ∀ before op after, ops = before ++ op :: after →
      op.Admits (Run.exec (EngineOp.run sha256) (newStorageEngine config) before)) :
    ReadsFollow sha256 config ops := by
  have mirrors : ∀ before after, ops = before ++ after →
      Mirrors (Run.trace (EngineOp.run sha256) (newStorageEngine config) before)
        (Run.exec (EngineOp.run sha256) (newStorageEngine config) before) := by
    apply Run.history_inv
    · refine ⟨tombstoned, unmetered, rfl, fun _ => rfl, Nat.zero_le _, ?_, ?_, ?_⟩
      · rintro _ - ⟨⟩
      · rintro u - ⟨⟩
      · rintro u ⟨⟩
    · intro before op after split h
      exact h.step (normal op (by simp [split])) (admitted before op after split)
  intro before after split u
  exact (mirrors before after split).reads u

def noteRun : List EngineOp :=
  [.put Time.zero { uri := "/notes/a", body := some "one" }, .deleteWithTombstone Time.zero "/notes/a" {}]

theorem readsFollow_of_admitted_note : ReadsFollow (fun _ => []) {} noteRun := by
  apply readsFollow_of_admitted (fun _ => []) rfl rfl
  · decide +kernel
  · refine (Run.along_iff).mp ⟨?_, .inl rfl, trivial⟩
    exact ⟨rfl, .inl rfl, by decide +kernel⟩

/-- A note that is written again after it was deleted with a tombstone stays hidden. -/
theorem not_readsFollow_rewritten : ¬ ReadsFollow (fun _ => []) {}
      [.deleteWithTombstone Time.zero (str "/notes/a") {},
       .put Time.zero { uri := str "/notes/a", body := some (str "two") }] := by
  intro h
  have read := h _ [] (append_nil _).symm "/notes/a"
  have last : Run.latest (EngineOp.effect "/notes/a") (Run.trace (EngineOp.run fun _ => []) (newStorageEngine {})
        [.deleteWithTombstone Time.zero "/notes/a" {}, .put Time.zero { uri := "/notes/a", body := some "two" }]) =
      some (some (str "two")) := by decide +kernel
  rw [last] at read
  have got := read.get
  revert got
  decide +kernel

end StorageEngineImpl

end Storage
