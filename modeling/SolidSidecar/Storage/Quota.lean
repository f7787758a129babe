import SolidSidecar.Storage.EngineHistory

/-!
# What the quota manager counts

The default quota manager of `stores.go` beside what is stored. The engine adds to the usage of a storage
root what a write says its body weighs, and never takes anything off: the usage is what is stored as long
as writes say so rightly, nothing is overwritten and nothing deleted.
-/

namespace Storage
open Go GoMap AList Run

namespace WriteResource

/-- The size that the quota check takes for the body. -/
def countedSize (r : WriteResource) : Int :=
  match r.bodyReader with
  | some (.ok data) => if r.bodySize = 0 then data.length else r.bodySize
  | _ => r.bodySize

/-- The size of the body is left to be read from a reader, or is stated as it is. -/
def SizeStated (r : WriteResource) : Prop :=
  (r.bodySize = 0 ∧ r.bodyReader.isSome = true) ∨ r.bodySize = r.content.length

end WriteResource

/-- What a stored resource weighs for a storage root. -/
def MemoryResource.weight (root : Str) (m : MemoryResource) : Nat :=
  if m.metadata.storageRoot = root then (bytesOf m.body).length else 0

namespace StorageEngineImpl

variable (s : StorageEngineImpl)

def getQuota (storageRoot : Str) : QuotaInfo :=
  (s.quotas.lookup storageRoot).getD { storageRoot }

def setQuota (storageRoot : Str) (quota : QuotaInfo) : StorageEngineImpl :=
  { s with quotas := s.quotas.insert storageRoot quota }

/-- The total length of the bodies that are stored under a storage root. -/
def storedBytes (root : Str) : Nat :=
  s.defaultBackend.data.total (MemoryResource.weight root)

/-- What is stored under a URI is counted for the root with this length. -/
def heldAt (root uri : Str) : Nat :=
  s.defaultBackend.data.weightAt (MemoryResource.weight root) uri

/-- The bodies stored under the root keep to its limit, and their length is what is recorded. -/
def WithinQuota (root : Str) (maxBytes : Int) : Prop :=
  (s.storedBytes root : Int) ≤ maxBytes ∧ (s.getQuota root).usedBytes = s.storedBytes root

/-- An engine with quotas, and a limit for one root. -/
def limited (config : EngineConfig) (root : Str) (maxBytes : Int) : StorageEngineImpl :=
  (newStorageEngine config).setQuota root { storageRoot := root, maxBytes }

variable (sha256 : Str → Str)

/-- In every state of a run the bodies under the root keep to its limit and are recorded. -/
def KeepsQuota (config : EngineConfig) (root : Str) (maxBytes : Int) (ops : List EngineOp) : Prop :=
  ∀ before after, ops = before ++ after →
    (Run.exec (EngineOp.run sha256) (limited config root maxBytes) before).WithinQuota root maxBytes

end StorageEngineImpl

/-- A write under the root says so, states the size of its body, one that an `int64` can count, and takes
the place of nothing that is counted; a deletion removes nothing that is counted. -/
def EngineOp.Counted (s : StorageEngineImpl) (root : Str) : EngineOp → Prop
  | .put _ r => s.heldAt root r.uri = 0 ∧ (r.metadata.storageRoot = root → r.SizeStated ∧
        (s.getQuota root).usedBytes + r.countedSize + estimateMetadataSize r.metadata < 2 ^ 63) ∧
      (r.metadata.storageRoot = [] → defaultStorageRoot r.uri = root → r.content = [])
  | .delete uri => ∀ key, validateURI uri = .ok key → s.heldAt root key = 0
  | .deleteWithTombstone _ uri _ => ∀ key, validateURI uri = .ok key → s.heldAt root key = 0

namespace StorageEngineImpl

variable {sha256 : Str → Str} {s s' : StorageEngineImpl} {root : Str} {maxBytes : Int}

/-- The books of an engine: the root has its limit, and its usage is what is stored. -/
structure Balanced (root : Str) (maxBytes : Int) (s : StorageEngineImpl) : Prop where
  metered : s.config.enableQuotaManagement = true
  books : ∃ quota, s.quotas.lookup root = some quota ∧ quota.maxBytes = maxBytes ∧
    quota.usedBytes = s.storedBytes root
  within : (s.storedBytes root : Int) ≤ maxBytes

theorem Balanced.withinQuota (h : Balanced root maxBytes s) : s.WithinQuota root maxBytes := by
  obtain ⟨_, found, -, used⟩ := h.books
  refine ⟨h.within, ?_⟩
  rw [getQuota, found]
  exact used

/-- What leaves the quotas and the bytes under the root leaves the books. -/
theorem Balanced.kept (h : Balanced root maxBytes s) (config : s'.config = s.config)
    (quotas : s'.quotas.lookup root = s.quotas.lookup root)
    (bytes : s'.storedBytes root = s.storedBytes root) : Balanced root maxBytes s' := by
  obtain ⟨quota, found, limit, used⟩ := h.books
  refine ⟨by rw [config, h.metered], ⟨quota, by rw [quotas, found], limit, by rw [bytes, used]⟩, ?_⟩
  rw [bytes]
  exact h.within

theorem Balanced.erased (h : Balanced root maxBytes s) {key} (erased : Erased s s' key)
    (uncounted : s.heldAt root key = 0) : Balanced root maxBytes s' := by
  apply h.kept erased.config
  · rw [erased.quotas]
  · have gone : s'.heldAt root key = 0 := by
      rw [heldAt, weightAt, erased.data, if_pos rfl]
      rfl
    have elsewhere : ∀ k, k ≠ key → s'.defaultBackend.data.lookup k = s.defaultBackend.data.lookup k := by
      intro k other
      rw [erased.data, if_neg other]
    have change := total_change (MemoryResource.weight root) key elsewhere
    unfold heldAt at gone uncounted
    unfold storedBytes
    omega

theorem storageRootOf_of_ne {uri} {m : Metadata} (named : m.storageRoot ≠ []) : storageRootOf uri m = m.storageRoot :=
  if_neg named

section Write

variable {now : Time} {r r' : WriteResource} {body : Option Str} (written : Written sha256 s s' now r r' body)

include written

/-- A write that is accounted for and states its size is counted with what it stores. -/
theorem Written.counted (accounted : s.accounts r = true) (stated : r.SizeStated) :
    r'.bodySize = (bytesOf body).length ∧ r'.bodySize = r.countedSize := by
  obtain ⟨r₁, _, passed, kept⟩ := written.passed
  have read := passed.read
  rw [accounted, if_pos rfl] at read
  have size : r'.bodySize = r₁.bodySize := by rw [kept]
  rw [size]
  have reader : (stripped r).bodyReader = r.bodyReader := rfl
  have declared : (stripped r).bodySize = r.bodySize := rfl
  unfold readForQuota at read
  unfold WriteResource.countedSize
  by_cases unread : r.bodySize = 0 ∧ r.bodyReader.isSome = true
  · -- the reader is read for the size, and its bytes are stored
    obtain ⟨unsized, given⟩ := unread
    obtain ⟨given, found⟩ := Option.isSome_iff_exists.mp given
    simp only [reader, declared, found, unsized] at read
    rcases given with _ | data
    · cases read
    · obtain rfl := Except.ok.inj read
      have stored := written.read
      rw [kept] at stored
      obtain rfl : some data = body := Except.ok.inj stored
      simp [found, unsized, bytesOf]
  · -- the body is stored as it was given
    have same : stripped r = r₁ := by
      rw [reader, declared] at read
      split at read
      · exact Except.ok.inj read
      · rw [if_neg fun unsized => unread ⟨unsized, by simp [*]⟩] at read
        exact Except.ok.inj read
    subst same
    have bytes : bytesOf body = r.content := by
      apply bytesOf_readBody _ _ written.read
      · rw [kept]
        rfl
      · rw [kept]
        rfl
    have length : r.bodySize = r.content.length := stated.resolve_left unread
    refine ⟨by rw [declared, bytes, length], ?_⟩
    rw [declared]
    split
    · rename_i data found
      rw [if_neg fun unsized => unread ⟨unsized, by rw [found]; rfl⟩]
    · rfl

section

variable (uncounted : s.heldAt root r.uri = 0)

include uncounted

/-- What a write adds to the total of a root, where nothing was counted before. -/
theorem Written.storedBytes : s'.storedBytes root = s.storedBytes root +
      if storageRootOf r.uri r.metadata = root then (bytesOf body).length else 0 := by
  obtain ⟨r₁, _, passed, kept⟩ := written.passed
  have elsewhere : ∀ k, k ≠ r.uri → s'.defaultBackend.data.lookup k = s.defaultBackend.data.lookup k := by
    intro k other
    rw [written.data, lookup_insert_ne other]
  have change := total_change (MemoryResource.weight root) r.uri elsewhere
  have added : s'.heldAt root r.uri =
      if storageRootOf r.uri r.metadata = root then (bytesOf body).length else 0 := by
    rw [heldAt, weightAt, written.data, lookup_insert, kept]
    show (if storageRootOf r.uri r₁.metadata = root then _ else _) = _
    rw [passed.metadata]
  rw [← added]
  unfold heldAt at uncounted ⊢
  unfold StorageEngineImpl.storedBytes
  omega

variable (h : Balanced root maxBytes s)

include h

/-- A write under another root is not counted for this one. -/
theorem Balanced.put_elsewhere (accounted : s.accounts r = true) (other : r.metadata.storageRoot ≠ root) :
    Balanced root maxBytes s' := by
  have named : r.metadata.storageRoot ≠ [] := by
    simpa using (Bool.and_eq_true_iff.mp accounted).2
  apply h.kept written.config
  · rw [written.quotas, if_pos accounted]
    exact lookup_insert_ne (Ne.symm other)
  · rw [written.storedBytes uncounted, storageRootOf_of_ne named, if_neg other, add_zero]

/-- A write without a storage root is not counted at all. -/
theorem Balanced.put_unaccounted (unaccounted : s.accounts r = false)
    (empty : defaultStorageRoot r.uri = root → r.content = []) : Balanced root maxBytes s' := by
  have rootless : r.metadata.storageRoot = [] := by
    rw [accounts, h.metered] at unaccounted
    simpa using unaccounted
  apply h.kept written.config
  · rw [written.quotas, if_neg (by rw [unaccounted]; exact Bool.false_ne_true)]
  · rw [written.storedBytes uncounted, written.content unaccounted, storageRootOf, if_pos rootless]
    split
    · rw [empty ‹_›]
      rfl
    · rfl

/-- A write under the root is counted with what it stores, and has passed the check. -/
theorem Balanced.put_counted (limit : 0 < maxBytes) (accounted : s.accounts r = true) (mine : r.metadata.storageRoot = root) (stated : r.SizeStated)
    (fits : (s.getQuota root).usedBytes + r.countedSize + estimateMetadataSize r.metadata < 2 ^ 63) :
    Balanced root maxBytes s' := by
  obtain ⟨_, size⟩ := written.counted accounted stated
  obtain ⟨quota, found, bound, _⟩ := h.books
  have named : r.metadata.storageRoot ≠ [] := by
    simpa using (Bool.and_eq_true_iff.mp accounted).2
  have bytes := written.storedBytes uncounted
  rw [storageRootOf_of_ne named, if_pos mine] at bytes
  have overhead : 0 ≤ estimateMetadataSize r.metadata := by
    unfold estimateMetadataSize
    omega
  rw [getQuota, found] at fits
  have fits : quota.usedBytes + r.countedSize + estimateMetadataSize r.metadata < 2 ^ 63 := fits
  -- the check was made with the same size
  have checked : quota.usedBytes + r'.bodySize ≤ maxBytes := by
    obtain ⟨r₁, _, passed, kept⟩ := written.passed
    have checked := passed.quota accounted
    have same : r₁.bodySize = r'.bodySize := by rw [kept]
    have whole : wrap64 _ = r'.bodySize + estimateMetadataSize r.metadata := wrap64_of_lt (by omega) (by omega)
    rw [mine, same, checkQuota, found] at checked
    simp only [Option.getD_some] at checked
    rw [if_neg (by omega), refuse_eq_ok, wrap64_of_lt (by omega) (by omega)] at checked
    omega
  refine ⟨by rw [written.config, h.metered],
    ⟨{ quota with usedBytes := wrap64 (quota.usedBytes + r'.bodySize) }, ?_, bound, ?_⟩, ?_⟩
  · rw [written.quotas, if_pos accounted, mine, recordUsage, found]
    exact lookup_insert _
  · show wrap64 _ = _
    rw [wrap64_of_lt (by omega) (by omega)]
    omega
  · omega

end

theorem Balanced.put (h : Balanced root maxBytes s) (limit : 0 < maxBytes)
    (counted : (EngineOp.put now r).Counted s root) : Balanced root maxBytes s' := by
  obtain ⟨uncounted, stated, rootless⟩ := counted
  cases accounted : s.accounts r with
  | false =>
    apply h.put_unaccounted written uncounted accounted
    apply rootless
    rw [accounts, h.metered] at accounted
    simpa using accounted
  | true =>
    by_cases mine : r.metadata.storageRoot = root
    · obtain ⟨size, fits⟩ := stated mine
      exact h.put_counted written uncounted limit accounted mine size fits
    · exact h.put_elsewhere written uncounted accounted mine

end Write

theorem Balanced.step (h : Balanced root maxBytes s) (limit : 0 < maxBytes) {op : EngineOp}
    (counted : op.Counted s root) : Balanced root maxBytes (op.run sha256 s).1 := by
  cases op with
  | put now r =>
    rcases put_cases sha256 s now r with ⟨-, books⟩ | ⟨-, _, _, written⟩
    · apply h.kept books.config
      · exact congrArg _ books.quotas
      · exact congrArg (total _) books.data
    · exact h.put written limit counted
  | delete uri =>
    rcases delete_cases s uri with ⟨-, books⟩ | ⟨-, -, key, _, valid, erased, -⟩
    · apply h.kept books.config
      · exact congrArg _ books.quotas
      · exact congrArg (total _) books.data
    · exact h.erased erased (counted key valid)
  | deleteWithTombstone now uri tombstone =>
    rcases deleteWithTombstone_cases s now uri tombstone with
      ⟨-, _, same, -⟩ | ⟨-, -, key, valid, erased, -⟩
    · show Balanced root maxBytes (s.deleteWithTombstone now uri tombstone).1
      rw [same]
      exact h.kept rfl rfl rfl
    · exact h.erased erased (counted key valid)

/-- In a run whose steps are all counted, the bodies stored under a root keep to its limit, and their
length is the usage that is recorded. -/
theorem keepsQuota_of_counted (sha256 : Str → Str) {config : EngineConfig} {root : Str} {maxBytes : Int}
    {ops : List EngineOp} (metered : config.enableQuotaManagement = true) (limit : 0 < maxBytes)
    (counted : ∀ before op after, ops = before ++ op :: after →
      op.Counted (Run.exec (EngineOp.run sha256) (limited config root maxBytes) before) root) :
    KeepsQuota sha256 config root maxBytes ops := by
  have balanced : ∀ before after, ops = before ++ after →
      Balanced root maxBytes (exec (EngineOp.run sha256) (limited config root maxBytes) before) := by
    apply run_inv
    · refine ⟨metered, ⟨_, lookup_insert _, rfl, rfl⟩, ?_⟩
      exact limit.le
    · intro before op after split h
      exact h.step limit (counted before op after split)
  intro before after split
  exact (balanced before after split).withinQuota

/-- A body that is given by a reader under a root with a limit. -/
def meteredWrite (uri : String) : WriteResource :=
  { uri := str uri, bodyReader := some (.ok "hello"), metadata := { storageRoot := "/pod" } }

theorem keepsQuota_of_counted_twice : KeepsQuota (fun _ => []) { enableQuotaManagement := true } (str "/pod") 1000
      [.put Time.zero (meteredWrite "/pod/a"), .put Time.zero (meteredWrite "/pod/b")] := by
  apply keepsQuota_of_counted (fun _ => []) rfl (by decide)
  refine (along_iff (P := fun s op => EngineOp.Counted s (str "/pod") op)).mp ⟨?_, ?_, trivial⟩
  all_goals exact ⟨rfl, fun _ => ⟨.inl ⟨rfl, rfl⟩, by decide +kernel⟩, fun none => by cases none⟩

/-- A body that is written and then deleted stays in the usage. -/
theorem not_keepsQuota_deleted : ¬ KeepsQuota (fun _ => []) { enableQuotaManagement := true } (str "/pod") 1000
      [.put Time.zero (meteredWrite "/pod/a"), .delete (str "/pod/a")] := by
  intro h
  obtain ⟨-, used⟩ := h _ [] (List.append_nil _).symm
  revert used
  decide +kernel

end StorageEngineImpl

end Storage
