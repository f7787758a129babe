import SolidSidecar.Storage.Transaction

/-!
# What a commit leaves

Two properties of `Commit`, each with the exact condition under which it holds. A commit that fails is
atomic: it leaves every stored body and its metadata as they were. A commit that succeeds makes true
what the transaction answered: the engine then reads, for every URI that the transaction touched, what
the transaction read before. Over a run, what comes after the first commit or rollback has no effect
(`ends_once`).
-/

namespace Storage
open Go MemoryBackend RangeOrder

namespace StorageTransaction

variable (sha256 : Str → Str)

section Loops

variable {t : StorageTransaction} {run : CommitRun} {b : MemoryBackend}

def written (t : StorageTransaction) (run : CommitRun) (b : MemoryBackend) : MemoryBackend :=
  (Run.batch (writeStep sha256 run.clock) b (run.writes.visit t.pending.pairs)).1

theorem written_closed (t : StorageTransaction) (run : CommitRun) (b : MemoryBackend) :
    (t.written sha256 run b).closed = b.closed := by
  have keep : ∀ b', ∀ w ∈ run.writes.visit t.pending.pairs, b'.closed = b.closed →
      (writeStep sha256 run.clock b' w).1.closed = b.closed :=
    fun b' w _ same => (writeStep_closed sha256 run.clock b' w).trans same
  exact Run.batch_inv keep rfl

/-- All writes of a commit are taken when none is refused at its start. -/
theorem writes_ok_iff (run : CommitRun) : (t.writeAll sha256 run b).2 = .ok () ↔
      ∀ u r, t.pending.lookup u = some r → ∃ body, b.checkWrite u r = .ok body := by
  rw [(writes_keyed sha256 run.clock).batch_ok_iff (writes_independent sha256 run.clock (writes_once t run))]
  constructor
  · intro all u r found
    obtain ⟨_, admitted⟩ := all (u, r) (mem_writes.mpr found)
    obtain ⟨body, checked, -⟩ := (writeTarget_eq_ok sha256 run.clock).mp admitted
    exact ⟨body, checked⟩
  · rintro all ⟨u, r⟩ mem
    obtain ⟨body, checked⟩ := all u r (mem_writes.mp mem)
    exact ⟨_, (writeTarget_eq_ok sha256 run.clock).mpr ⟨body, checked, rfl⟩⟩

/-- All deletions of a commit are taken when the backend is open and their URIs are well formed. -/
theorem deletions_ok_iff : (Run.batch deleteStep b (run.deletions.visit t.deleted.keys)).2 = .ok () ↔
      ∀ u, u ∈ t.deleted → (∃ key, validateURI u = .ok key) ∧ b.closed = false := by
  rw [deletes_keyed.batch_ok_iff (deletes_independent _)]
  constructor
  · intro all u mem
    obtain ⟨_, admitted⟩ := all u (mem_deletions.mpr mem)
    obtain ⟨valid, running, -⟩ := deleteTarget_eq_ok.mp admitted
    exact ⟨valid, running⟩
  · intro all u mem
    obtain ⟨valid, running⟩ := all u (mem_deletions.mp mem)
    exact ⟨none, deleteTarget_eq_ok.mpr ⟨valid, running, rfl⟩⟩

/-- A commit goes through when every write passes its checks, and every deletion meets an open backend
with a URI that is well formed. -/
theorem applyTo_ok_iff (run : CommitRun) : (t.applyTo sha256 run b).2 = .ok () ↔
      (∀ u r, t.pending.lookup u = some r → ∃ body, b.checkWrite u r = .ok body) ∧
        ∀ u, u ∈ t.deleted → (∃ key, validateURI u = .ok key) ∧ b.closed = false := by
  rw [← writes_ok_iff sha256 run]
  by_cases fine : (t.writeAll sha256 run b).2 = .ok ()
  · have same : (t.writeAll sha256 run b).1.closed = b.closed := written_closed sha256 t run b
    rw [applyTo_of_written sha256 fine, deletions_ok_iff, and_iff_right fine, same]
  · rw [applyTo_of_refused sha256 fine]
    exact iff_of_false fine fun both => fine both.1

end Loops

def Refuses (b : MemoryBackend) (u : Str) (r : WriteResource) : Prop :=
  ∃ err, b.checkWrite u r = .error err

/-- The write is refused, or would store what is stored already. -/
def Repeats (clock : Str → Time) (b : MemoryBackend) (u : Str) (r : WriteResource) : Prop :=
  ∀ body, b.checkWrite u r = .ok body →
    b.stored u = some (bytesOf body, b.prepareMetadata sha256 (clock u) u body r.metadata)

/-- A commit that reports an error, in whatever order it went, has changed nothing that is stored. -/
def Atomic (t : StorageTransaction) (s : StorageEngineImpl) (clock : Str → Time) : Prop :=
  ∀ writes deletions err, (t.commit sha256 s { writes, deletions, clock }).2.2 = .error err →
    ∀ u, (t.commit sha256 s { writes, deletions, clock }).2.1.defaultBackend.stored u = s.defaultBackend.stored u

/-- If a write is refused or a deletion malformed, then no other write changes anything, and no deletion
that is reached removes anything. -/
def AtomicWhen (t : StorageTransaction) (b : MemoryBackend) (clock : Str → Time) : Prop :=
  ((∃ u r, t.pending.lookup u = some r ∧ Refuses b u r) ∨ ∃ u, u ∈ t.deleted ∧ ∃ err, validateURI u = .error err) →
    (∀ u r, t.pending.lookup u = some r → Repeats sha256 clock b u r) ∧
      ((∀ u r, t.pending.lookup u = some r → ¬ Refuses b u r) →
        ∀ u key, u ∈ t.deleted → validateURI u = .ok key → b.stored key = none)

section Atomic

variable {t : StorageTransaction} {s : StorageEngineImpl} {b : MemoryBackend} {run : CommitRun}
  {u : Str} {r : WriteResource} {err : StorageError}

theorem not_refuses_of_ok {body} (checked : b.checkWrite u r = .ok body) : ¬ Refuses b u r := by
  rintro ⟨_, refused⟩
  rw [checked] at refused
  cases refused

theorem refuses_of_closed (shut : b.closed = true) (u : Str) (r : WriteResource) : Refuses b u r := by
  refine ⟨.storageClosed, ?_⟩
  rw [checkWrite, refuse, if_pos shut]
  rfl

theorem refuses_of_not_ok (stops : ¬ ∃ body, b.checkWrite u r = .ok body) : Refuses b u r := by
  cases checked : b.checkWrite u r with
  | error err => exact ⟨err, checked⟩
  | ok body => exact absurd ⟨body, checked⟩ stops

theorem ok_of_not_refuses (taken : ¬ Refuses b u r) : ∃ body, b.checkWrite u r = .ok body := by
  by_contra stops
  exact taken (refuses_of_not_ok stops)

theorem deleteTarget_of_malformed (malformed : validateURI u = .error err)
    (b : MemoryBackend) : b.deleteTarget u = .error err := by
  rw [deleteTarget, malformed]
  rfl

/-- What a write leaves in a view of the backend when the loop of writes succeeds. -/
theorem written_at (run : CommitRun) {view}
    (keyed : Run.Keyed (writeStep sha256 run.clock) view Prod.fst (writeTarget sha256 run.clock))
    (fine : ∀ u r, t.pending.lookup u = some r → ∃ body, b.checkWrite u r = .ok body)
    {body} (found : t.pending.lookup u = some r)
    (checked : b.checkWrite u r = .ok body) :
    view (t.written sha256 run b) u =
      some (bytesOf body, b.prepareMetadata sha256 (run.clock u) u body r.metadata) := by
  apply keyed.batch_at (writes_independent sha256 run.clock (writes_once t run))
  · rintro ⟨v, q⟩ mem
    obtain ⟨stored, checked⟩ := fine v q (mem_writes.mp mem)
    exact ⟨_, (writeTarget_eq_ok sha256 run.clock).mpr ⟨stored, checked, rfl⟩⟩
  · exact ⟨(u, r), mem_writes.mpr found, rfl⟩
  · rintro ⟨v, q⟩ mem same
    subst same
    obtain rfl := Option.some.inj (found.symm.trans (mem_writes.mp mem))
    exact (writeTarget_eq_ok sha256 run.clock).mpr ⟨body, checked, rfl⟩

/-- A commit of writes that repeat what is stored, and of deletions of what is not, changes nothing,
wherever it stops. -/
theorem applyTo_idle (repeats : ∀ u r, t.pending.lookup u = some r → Repeats sha256 run.clock b u r)
    (absent : (∀ u r, t.pending.lookup u = some r → ¬ Refuses b u r) → b.closed = false →
      ∀ u key, u ∈ t.deleted → validateURI u = .ok key → b.stored key = none) :
    (t.applyTo sha256 run b).1.stored = b.stored := by
  have kept : (t.written sha256 run b).stored = b.stored := by
    apply (writes_keyed sha256 run.clock).batch_idle (writes_independent sha256 run.clock (writes_once t run))
    rintro ⟨u, r⟩ mem a admitted
    obtain ⟨body, checked, rfl⟩ := (writeTarget_eq_ok sha256 run.clock).mp admitted
    exact (repeats u r (mem_writes.mp mem) body checked).symm
  by_cases fine : (t.writeAll sha256 run b).2 = .ok ()
  · rw [applyTo_of_written sha256 fine]
    refine trans ?_ kept
    apply deletes_keyed.batch_idle (deletes_independent _)
    intro u mem a admitted
    obtain ⟨⟨key, valid⟩, running, rfl⟩ := deleteTarget_eq_ok.mp admitted
    have running : b.closed = false := (written_closed sha256 t run b).symm.trans running
    have taken : ∀ u r, t.pending.lookup u = some r → ¬ Refuses b u r := by
      intro u r found
      obtain ⟨body, checked⟩ := (writes_ok_iff sha256 run).mp fine u r found
      exact not_refuses_of_ok checked
    show none = (t.written sha256 run b).stored (deletedKey u)
    rw [kept, deletedKey_of_valid valid, absent taken running u key (mem_deletions.mp mem) valid]
  · rw [applyTo_of_refused sha256 fine]
    exact kept

/-- A closed backend takes no write and no deletion. -/
theorem applyTo_closed (shut : b.closed = true) : (t.applyTo sha256 run b).1.stored = b.stored := by
  apply applyTo_idle
  · intro u r _ body checked
    exact absurd (refuses_of_closed shut u r) (not_refuses_of_ok checked)
  · intro _ running
    rw [shut] at running
    cases running

theorem stops_of_failed (running : b.closed = false) (failed : (t.applyTo sha256 run b).2 ≠ .ok ()) :
    (∃ u r, t.pending.lookup u = some r ∧ Refuses b u r) ∨
      ∃ u, u ∈ t.deleted ∧ ∃ err, validateURI u = .error err := by
  by_contra none
  obtain ⟨taken, formed⟩ := not_or.mp none
  apply failed
  apply (applyTo_ok_iff sha256 run).mpr
  refine ⟨fun u r found => ?_, fun u mem => ⟨?_, running⟩⟩
  · exact ok_of_not_refuses fun refused => taken ⟨u, r, found, refused⟩
  · cases valid : validateURI u with
    | error err => exact absurd ⟨u, mem, err, valid⟩ formed
    | ok key => exact ⟨key, rfl⟩

variable {clock : Str → Time}

section

variable (atomic : Atomic sha256 t s clock) (uncommitted : t.committed = false) (standing : t.rolledBack = false)

include atomic uncommitted standing

/-- What atomicity says of one order in which the commit fails. -/
theorem stored_of_atomic {writes deletions}
    (applied : t.applyTo sha256 { writes, deletions, clock } s.defaultBackend = (b, .error err)) (u : Str) :
    b.stored u = s.defaultBackend.stored u := by
  have outcome := commit_eq sha256 { writes, deletions, clock } (s := s) uncommitted standing
  rw [applied] at outcome
  have kept := atomic writes deletions _ (congrArg Prod.snd outcome) u
  rwa [congrArg Prod.fst outcome] at kept

/-- A refused write can come right after any other one. -/
theorem repeats_of_refused {v q} (found : t.pending.lookup u = some r) (other : t.pending.lookup v = some q)
    (refused : Refuses s.defaultBackend v q) : Repeats sha256 clock s.defaultBackend u r := by
  intro body checked
  have apart : u ≠ v := by
    rintro rfl
    obtain rfl := Option.some.inj (found.symm.trans other)
    exact not_refuses_of_ok checked refused
  obtain ⟨err, refused⟩ := refused
  have distinct : (v, q) ≠ (u, r) := fun same => apart (congrArg Prod.fst same).symm
  obtain ⟨writes, _, visits⟩ := exists_first_two (GoMap.mem_pairs.mpr found) (GoMap.mem_pairs.mpr other) distinct
  have keyed := writes_keyed sha256 clock
  have first := (writeTarget_eq_ok sha256 clock (w := (u, r))).mpr ⟨body, checked, rfl⟩
  have second : (writeStep sha256 clock s.defaultBackend (u, r)).1.writeTarget sha256 clock (v, q) = .error err := by
    rw [writeTarget_writeStep sha256 clock apart]
    exact (writeTarget_eq_error sha256 clock).mpr refused
  have stops : t.writeAll sha256 { writes, clock } s.defaultBackend =
      ((writeStep sha256 clock s.defaultBackend (u, r)).1, .error err) := by
    show Run.batch _ _ _ = _
    rw [visits, keyed.batch_applied first, keyed.batch_refused second]
  have applied : t.applyTo sha256 { writes, clock } s.defaultBackend =
      ((writeStep sha256 clock s.defaultBackend (u, r)).1, .error err) := by
    rw [applyTo_of_refused sha256 (by rw [stops]; simp), stops]
  rw [← stored_of_atomic sha256 atomic uncommitted standing applied u,
    (keyed.applied _ _ _ first).2, Function.update_self]

/-- The malformed deletion can come first, after all writes. -/
theorem written_of_malformed (taken : ∀ u r, t.pending.lookup u = some r → ¬ Refuses s.defaultBackend u r)
    (mem : u ∈ t.deleted) (malformed : validateURI u = .error err) (k : Str) :
    (t.written sha256 { clock } s.defaultBackend).stored k = s.defaultBackend.stored k := by
  obtain ⟨deletions, rest, visits⟩ := exists_first (AList.mem_keys.mp mem)
  have fine := (writes_ok_iff sha256 { clock, deletions }).mpr fun v q found => ok_of_not_refuses (taken v q found)
  have applied : t.applyTo sha256 { clock, deletions } s.defaultBackend =
      (t.written sha256 { clock, deletions } s.defaultBackend, .error err) := by
    rw [applyTo_of_written sha256 fine, visits]
    exact deletes_keyed.batch_refused (deleteTarget_of_malformed malformed _) rest
  exact stored_of_atomic sha256 atomic uncommitted standing applied k

theorem absent_of_malformed (running : s.defaultBackend.closed = false)
    (taken : ∀ u r, t.pending.lookup u = some r → ¬ Refuses s.defaultBackend u r) {v key}
    (mem : u ∈ t.deleted) (malformed : validateURI u = .error err)
    (mem' : v ∈ t.deleted) (valid : validateURI v = .ok key) : s.defaultBackend.stored key = none := by
  have apart : u ≠ v := by
    rintro rfl
    rw [valid] at malformed
    cases malformed
  obtain ⟨deletions, rest, visits⟩ := exists_first_two (AList.mem_keys.mp mem') (AList.mem_keys.mp mem) apart
  have fine := (writes_ok_iff sha256 { clock, deletions }).mpr fun v q found => ok_of_not_refuses (taken v q found)
  have first := deleteTarget_eq_ok.mpr
    ⟨⟨key, valid⟩, (written_closed sha256 t { clock, deletions } s.defaultBackend).trans running, rfl⟩
  have applied : t.applyTo sha256 { clock, deletions } s.defaultBackend =
      ((deleteStep (t.written sha256 { clock, deletions } s.defaultBackend) v).1, .error err) := by
    rw [applyTo_of_written sha256 fine, visits]
    exact (deletes_keyed.batch_applied first _).trans
      (deletes_keyed.batch_refused (deleteTarget_of_malformed malformed _) rest)
  rw [← stored_of_atomic sha256 atomic uncommitted standing applied key,
    (deletes_keyed.applied _ _ _ first).2, deletedKey_of_valid valid, Function.update_self]

end

/-- `Commit` is atomic exactly when the transaction is completed already, the backend is closed, or
nothing that can precede its first failure changes anything. -/
theorem atomic_iff (t : StorageTransaction) (s : StorageEngineImpl) (clock : Str → Time) : Atomic sha256 t s clock ↔
      t.committed = true ∨ t.rolledBack = true ∨ s.defaultBackend.closed = true ∨
        AtomicWhen sha256 t s.defaultBackend clock := by
  by_cases done : t.committed = true
  · refine iff_of_true (fun writes deletions err failed u => ?_) (.inl done)
    rw [commit, if_pos done]
  by_cases ended : t.rolledBack = true
  · refine iff_of_true (fun writes deletions err failed u => ?_) (.inr (.inl ended))
    rw [commit, if_neg done, if_pos ended]
  have uncommitted : t.committed = false := Bool.eq_false_iff.mpr done
  have standing : t.rolledBack = false := Bool.eq_false_iff.mpr ended
  simp only [done, ended, Bool.false_eq_true, false_or]
  constructor
  · intro atomic
    refine or_iff_not_imp_left.mpr fun opened stops => ?_
    have running : s.defaultBackend.closed = false := Bool.eq_false_iff.mpr opened
    by_cases refusal : ∃ u r, t.pending.lookup u = some r ∧ Refuses s.defaultBackend u r
    · obtain ⟨v, q, other, refused⟩ := refusal
      refine ⟨fun u r found => ?_, fun taken => absurd refused (taken v q other)⟩
      exact repeats_of_refused sha256 atomic uncommitted standing found other refused
    · obtain ⟨u, mem, err, malformed⟩ := stops.resolve_left refusal
      have taken : ∀ u r, t.pending.lookup u = some r → ¬ Refuses s.defaultBackend u r :=
        fun u r found refused => refusal ⟨u, r, found, refused⟩
      refine ⟨fun v q found body checked => ?_, fun _ v key mem' valid => ?_⟩
      · rw [← written_of_malformed sha256 atomic uncommitted standing taken mem malformed v]
        exact written_at sha256 { clock } (writes_keyed sha256 clock)
          (fun v q found => ok_of_not_refuses (taken v q found)) found checked
      · exact absent_of_malformed sha256 atomic uncommitted standing running taken mem malformed mem' valid
  · intro condition writes deletions err failed u
    rw [commit_eq sha256 _ uncommitted standing] at failed ⊢
    have failed : (t.applyTo sha256 { writes, deletions, clock } s.defaultBackend).2 ≠ .ok () := by
      intro fine
      rw [fine] at failed
      cases failed
    have idle : (t.applyTo sha256 { writes, deletions, clock } s.defaultBackend).1.stored =
        s.defaultBackend.stored := by
      by_cases shut : s.defaultBackend.closed = true
      · exact applyTo_closed sha256 shut
      · have running : s.defaultBackend.closed = false := Bool.eq_false_iff.mpr shut
        obtain ⟨repeats, absent⟩ :=
          (condition.resolve_left shut) (stops_of_failed sha256 running failed)
        exact applyTo_idle sha256 repeats fun taken _ => absent taken
    exact congrFun idle u

end Atomic

/-- A write that asks for an existing resource, and one that asks for nothing. -/
def conditionalWrites : StorageTransaction :=
  ((beginTransaction.put { uri := str "/b", body := some (str "two"), preconditions := { ifMatch := str "*" } }).1.put
      { uri := str "/a", body := some (str "one") }).1

/-- The first write stays when the second is refused. -/
theorem not_atomic_conditionalWrites :
    ¬ Atomic (fun _ => []) conditionalWrites (newStorageEngine {}) (fun _ => Time.zero) := by
  intro atomic
  have kept := atomic default default
    (.errorf "failed to commit transaction: %w" .preconditionFailed) (by decide +kernel) "/a"
  revert kept
  decide +kernel

end StorageTransaction

inductive TransactionOp where
  | put (resource : WriteResource)
  | delete (uri : Str)

namespace TransactionOp

def uri : TransactionOp → Str
  | .put r => r.uri
  | .delete uri => uri

def run (t : StorageTransaction) : TransactionOp → StorageTransaction × Except StorageError Unit
  | .put r => t.put r
  | .delete uri => t.delete uri

end TransactionOp

namespace StorageTransaction

def after (ops : List TransactionOp) : StorageTransaction :=
  Run.exec TransactionOp.run beginTransaction ops

/-- The transaction has collected something for the URI. -/
def Touches (t : StorageTransaction) (u : Str) : Prop :=
  (t.pending.lookup u).isSome = true ∨ u ∈ t.deleted

/-- A transaction stays open while it collects, and collects for the URIs of its calls. -/
theorem after_spec (ops : List TransactionOp) : (after ops).committed = false ∧ (after ops).rolledBack = false ∧
      ∀ u, (after ops).Touches u ↔ ∃ op ∈ ops, op.uri = u := by
  induction ops using List.reverseRecOn with
  | nil => exact ⟨rfl, rfl, fun u => by simp [after, Touches, beginTransaction]⟩
  | append_singleton before op ih =>
    obtain ⟨uncommitted, standing, touched⟩ := ih
    have grown : ∀ u, (∃ op' ∈ before ++ [op], op'.uri = u) ↔ (after before).Touches u ∨ op.uri = u := by
      intro u
      rw [touched u]
      simp
    have next : after _ = (op.run (after before)).1 := Run.exec_snoc before op
    rw [next]
    simp only [grown]
    cases op with
    | put r =>
      have step : (TransactionOp.run (after before) (.put r)).1 =
          { after before with pending := (after before).pending.insert r.uri r } := by
        simp [TransactionOp.run, put, uncommitted, standing]
      rw [step]
      refine ⟨uncommitted, standing, fun u => ?_⟩
      simp only [Touches, GoMap.lookup_insert_eq, TransactionOp.uri]
      by_cases same : u = r.uri
      · simp [same]
      · simp [same, Ne.symm same]
    | delete uri =>
      have step : (TransactionOp.run (after before) (.delete uri)).1 = { after before with
            deleted := (after before).deleted.insert uri ()
            pending := (after before).pending.erase uri } := by
        simp [TransactionOp.run, delete, uncommitted, standing]
      rw [step]
      refine ⟨uncommitted, standing, fun u => ?_⟩
      simp only [Touches, TransactionOp.uri]
      by_cases same : u = uri
      · simp [same]
      · simp [same, Ne.symm same]

variable (sha256 : Str → Str)

theorem get_bytes {s : StorageEngineImpl} (running : s.defaultBackend.closed = false) (u : Str) :
    (s.get sha256 u).map Resource.bytes = (do
      validateStorageURI u
      refuse (s.isTombstoned u = true) .notFound
      (orError .notFound (s.defaultBackend.visible u)).map Prod.fst) := by
  unfold StorageEngineImpl.get
  cases valid : validateStorageURI u with
  | error err => rfl
  | ok fine =>
    have named : u ≠ [] := by
      rintro rfl
      cases valid
    by_cases marked : s.isTombstoned u = true
    · simp [marked, refuse, bind, Except.bind, Except.map]
    · simp only [marked, MemoryBackend.get, running, named, visible, stored]
      cases s.defaultBackend.tombstones.lookup u with
      | some tombstone => rfl
      | none => cases s.defaultBackend.data.lookup u <;> rfl

theorem get_bytes_eq_ok {s : StorageEngineImpl} (running : s.defaultBackend.closed = false) {u bytes} :
    (s.get sha256 u).map Resource.bytes = .ok bytes ↔ validateStorageURI u = .ok () ∧
      s.isTombstoned u = false ∧ ∃ m, s.defaultBackend.visible u = some (bytes, m) := by
  rw [get_bytes sha256 running, then_eq_ok, then_eq_ok]
  cases s.defaultBackend.visible u with
  | none => simp [orError, Except.map]
  | some shown => simp [orError, Except.map, Prod.ext_iff]

theorem get_bytes_eq_notFound {s : StorageEngineImpl}
    (running : s.defaultBackend.closed = false) {u} (hidden : s.defaultBackend.visible u = none) :
    (s.get sha256 u).map Resource.bytes = .error .notFound ↔ validateStorageURI u = .ok () := by
  rw [get_bytes sha256 running, hidden]
  cases valid : validateStorageURI u with
  | error err =>
    have kind : err = .invalidURI := by
      simp only [validateStorageURI, bind_eq_error, refuse_eq_error] at valid
      grind
    subst kind
    exact iff_of_false (by rintro ⟨⟩) (by rintro ⟨⟩)
  | ok fine =>
    by_cases marked : s.isTombstoned u = true
    · simp [marked, refuse, bind, Except.bind]
    · simp [marked, refuse, bind, Except.bind, orError, Except.map]

/-- A write shows in the transaction the bytes that it stores, unless they are in its reader. -/
theorem bytesOf_readBody_iff {r : WriteResource} {body} (read : r.readBody = .ok body) :
    bytesOf body = bytesOf r.body ↔ ∀ data, r.body = none → r.bodyReader = some (.ok data) → data = [] := by
  unfold WriteResource.readBody at read
  generalize r.body = held at read ⊢
  generalize r.bodyReader = given at read ⊢
  rcases held with - | _
  · rcases given with - | _ | _
    · cases read
      simp
    · cases read
    · cases read
      simp [bytesOf]
  · cases read
    simp

section Kept

variable (sha256 : Str → Str) {t : StorageTransaction} {s : StorageEngineImpl} {b : MemoryBackend}
  {run : CommitRun} {u : Str}

/-- The loops of a commit that the backend takes from beginning to end. -/
structure Taken (t : StorageTransaction) (b : MemoryBackend) : Prop where
  running : b.closed = false
  writes : ∀ u r, t.pending.lookup u = some r → ∃ body, b.checkWrite u r = .ok body
  normal : ∀ u, u ∈ t.deleted → validateURI u = .ok u

theorem Taken.written (h : Taken t b) (run : CommitRun) : (t.writeAll sha256 run b).2 = .ok () :=
  (writes_ok_iff sha256 run).mpr h.writes

theorem Taken.opened (h : Taken t b) (run : CommitRun) : (t.written sha256 run b).closed = false :=
  (written_closed sha256 t run b).trans h.running

theorem Taken.applied (h : Taken t b) (run : CommitRun) :
    (t.applyTo sha256 run b).2 = .ok () ∧ (t.applyTo sha256 run b).1.closed = false := by
  refine ⟨(applyTo_ok_iff sha256 run).mpr ⟨h.writes, fun u mem => ⟨⟨u, h.normal u mem⟩, h.running⟩⟩, ?_⟩
  rw [applyTo_of_written sha256 (h.written sha256 run)]
  have keep : ∀ b', ∀ u ∈ run.deletions.visit t.deleted.keys, b'.closed = false →
      (deleteStep b' u).1.closed = false :=
    fun b' u _ running => (deleteStep_closed b' u).trans running
  exact Run.batch_inv keep (h.opened sha256 run)

theorem Taken.hidden (h : Taken t b) (run : CommitRun) (mem : u ∈ t.deleted) :
    (t.applyTo sha256 run b).1.visible u = none := by
  rw [applyTo_of_written sha256 (h.written sha256 run)]
  have target : ∀ v ∈ run.deletions.visit t.deleted.keys, (t.written sha256 run b).deleteTarget v = .ok none := by
    intro v visited
    exact deleteTarget_eq_ok.mpr ⟨⟨v, h.normal v (mem_deletions.mp visited)⟩, h.opened sha256 run, rfl⟩
  apply deletes_keyed_visible.batch_at (deletes_independent _)
  · exact fun v visited => ⟨none, target v visited⟩
  · exact ⟨u, mem_deletions.mpr mem, deletedKey_of_valid (h.normal u mem)⟩
  · exact fun v visited _ => target v visited

/-- What was written and not deleted is shown after a commit. -/
theorem Taken.shown (h : Taken t b) (run : CommitRun) {r body}
    (found : t.pending.lookup u = some r) (checked : b.checkWrite u r = .ok body) (kept : u ∉ t.deleted) :
    (t.applyTo sha256 run b).1.visible u =
      some (bytesOf body, b.prepareMetadata sha256 (run.clock u) u body r.metadata) := by
  rw [applyTo_of_written sha256 (h.written sha256 run), deletes_keyed_visible.batch_off]
  · exact written_at sha256 run (writes_keyed_visible sha256 run.clock) h.writes found checked
  · intro v visited same
    have mem := mem_deletions.mp visited
    have same : v = u := (deletedKey_of_valid (h.normal v mem)).symm.trans same
    exact kept (same ▸ mem)

/-- The engine after a commit reads for `u` what the transaction read before it. -/
def Agrees (t : StorageTransaction) (s s' : StorageEngineImpl) (u : Str) : Prop :=
  (s'.get sha256 u).map Resource.bytes = (t.get sha256 s u).map Resource.bytes

/-- A write is read back when it is not deleted by the same commit, not hidden by a tombstone, and has
its bytes in its body. -/
theorem Taken.agrees_pending (h : Taken t s.defaultBackend) {r} (found : t.pending.lookup u = some r) :
    Agrees sha256 t s { s with defaultBackend := (t.applyTo sha256 run s.defaultBackend).1 } u ↔
      validateStorageURI u = .ok () ∧ u ∉ t.deleted ∧ s.isTombstoned u = false ∧
        ∀ data, r.body = none → r.bodyReader = some (.ok data) → data = [] := by
  obtain ⟨body, checked⟩ := h.writes u r found
  have before : (t.get sha256 s u).map Resource.bytes = .ok (bytesOf r.body) := by
    rw [get, found]
    rfl
  have running := (h.applied sha256 run).2
  rw [Agrees, before, get_bytes_eq_ok sha256 running, ← bytesOf_readBody_iff (readBody_of_checkWrite checked)]
  by_cases mem : u ∈ t.deleted
  · simp [h.hidden sha256 run mem, mem]
  · simp [h.shown sha256 run found checked mem, mem, StorageEngineImpl.isTombstoned]

/-- A deletion is read back wherever the engine takes the URI. -/
theorem Taken.agrees_deleted (h : Taken t s.defaultBackend) (absent : t.pending.lookup u = none)
    (mem : u ∈ t.deleted) :
    Agrees sha256 t s { s with defaultBackend := (t.applyTo sha256 run s.defaultBackend).1 } u ↔
      validateStorageURI u = .ok () := by
  have before : (t.get sha256 s u).map Resource.bytes = .error .notFound := by
    have marked : (t.deleted.lookup u).isSome = true := AList.lookup_isSome.mpr mem
    rw [get, absent]
    simp only [marked]
    rfl
  rw [Agrees, before]
  exact get_bytes_eq_notFound sha256 (h.applied sha256 run).2 (h.hidden sha256 run mem)

/-- A commit that succeeds makes the engine read what the transaction read, for the URIs of its calls. -/
def CommitKeeps (ops : List TransactionOp) (s : StorageEngineImpl) (run : CommitRun) : Prop :=
  ((after ops).commit sha256 s run).2.2 = .ok () → ∀ u, (∃ op ∈ ops, op.uri = u) →
    Agrees sha256 (after ops) s ((after ops).commit sha256 s run).2.1 u

/-- The engine takes every URI, and no write is also deleted, hidden by a tombstone, or left with its
bytes in a reader. -/
def KeepsWhen (t : StorageTransaction) (s : StorageEngineImpl) : Prop :=
  (∀ u, t.Touches u → validateStorageURI u = .ok ()) ∧
    ∀ u r, t.pending.lookup u = some r → u ∉ t.deleted ∧ s.isTombstoned u = false ∧
      ∀ data, r.body = none → r.bodyReader = some (.ok data) → data = []

theorem Taken.agrees_iff (h : Taken t s.defaultBackend) (run : CommitRun) : (∀ u, t.Touches u →
      Agrees sha256 t s { s with defaultBackend := (t.applyTo sha256 run s.defaultBackend).1 } u) ↔
      KeepsWhen t s := by
  constructor
  · intro agrees
    refine ⟨fun u touched => ?_, fun u r found => ?_⟩
    · cases found : t.pending.lookup u with
      | some r => exact ((h.agrees_pending sha256 found).mp (agrees u touched)).1
      | none =>
        have mem : u ∈ t.deleted := touched.resolve_left (by rw [found]; simp)
        exact (h.agrees_deleted sha256 found mem).mp (agrees u touched)
    · exact ((h.agrees_pending sha256 found).mp (agrees u (.inl (by rw [found]; rfl)))).2
  · rintro ⟨valid, kept⟩ u touched
    cases found : t.pending.lookup u with
    | some r => exact (h.agrees_pending sha256 found).mpr ⟨valid u touched, kept u r found⟩
    | none =>
      have mem : u ∈ t.deleted := touched.resolve_left (by rw [found]; simp)
      exact (h.agrees_deleted sha256 found mem).mpr (valid u touched)

/-- For calls on URIs that validation leaves as they are, and whatever the order of the commit: a
commit that succeeds keeps what was read exactly when the backend refuses it, being closed or by one of
the writes, or the condition holds of what was collected. -/
theorem commitKeeps_iff {ops : List TransactionOp} (normal : ∀ op ∈ ops, validateURI op.uri = .ok op.uri)
    (s : StorageEngineImpl) (run : CommitRun) :
    CommitKeeps sha256 ops s run ↔ s.defaultBackend.closed = true ∨
        (∃ u r, (after ops).pending.lookup u = some r ∧ Refuses s.defaultBackend u r) ∨
        KeepsWhen (after ops) s := by
  obtain ⟨uncommitted, standing, touched⟩ := after_spec ops
  unfold CommitKeeps
  rw [commit_eq sha256 run uncommitted standing]
  simp only [mapError_eq_ok, ← touched]
  by_cases shut : s.defaultBackend.closed = true
  · refine iff_of_true (fun fine u touches => ?_) (.inl shut)
    obtain ⟨writes, deletions⟩ := (applyTo_ok_iff sha256 run).mp fine
    rcases touches with found | mem
    · obtain ⟨r, found⟩ := Option.isSome_iff_exists.mp found
      obtain ⟨body, checked⟩ := writes u r found
      exact absurd (refuses_of_closed shut u r) (not_refuses_of_ok checked)
    · rw [shut] at deletions
      cases (deletions u mem).2
  by_cases refusal : ∃ u r, (after ops).pending.lookup u = some r ∧ Refuses s.defaultBackend u r
  · refine iff_of_true (fun fine u touches => ?_) (.inr (.inl refusal))
    obtain ⟨v, q, found, refused⟩ := refusal
    obtain ⟨body, checked⟩ := ((applyTo_ok_iff sha256 run).mp fine).1 v q found
    exact absurd refused (not_refuses_of_ok checked)
  · have h : Taken (after ops) s.defaultBackend := by
      refine ⟨Bool.eq_false_iff.mpr shut, fun u r found => ?_, fun u mem => ?_⟩
      · exact ok_of_not_refuses fun refused => refusal ⟨u, r, found, refused⟩
      · obtain ⟨op, call, rfl⟩ := (touched u).mp (.inr mem)
        exact normal op call
    simp only [shut, refusal, Bool.false_eq_true, false_or]
    rw [← h.agrees_iff sha256 run]
    exact ⟨fun keeps => keeps (h.applied sha256 run).1, fun agrees _ => agrees⟩

def noteCalls : List TransactionOp :=
  [.put { uri := "/notes/a", body := some "one" }, .delete "/notes/b"]

theorem commitKeeps_iff_notes : CommitKeeps (fun _ => []) noteCalls (newStorageEngine {}) {} := by
  apply (commitKeeps_iff (fun _ => []) (by decide +kernel) _ _).mpr
  have valid : ∀ op ∈ noteCalls, validateStorageURI op.uri = .ok () := by decide +kernel
  have pending : (after noteCalls).pending.pairs =
      [(str "/notes/a", { uri := "/notes/a", body := some "one" })] := by decide +kernel
  refine .inr (.inr ⟨fun u touches => ?_, fun u r found => ?_⟩)
  · obtain ⟨op, call, rfl⟩ := ((after_spec noteCalls).2.2 u).mp touches
    exact valid op call
  · have only := GoMap.mem_pairs.mpr found
    rw [pending, List.mem_singleton] at only
    obtain ⟨rfl, rfl⟩ := Prod.mk.inj only
    exact ⟨by decide +kernel, rfl, by rintro _ ⟨⟩⟩

/-- A note that is deleted and then written in one transaction is gone after the commit. -/
theorem not_commitKeeps_rewritten : ¬ CommitKeeps (fun _ => [])
      [.delete (str "/notes/a"), .put { uri := str "/notes/a", body := some (str "two") }]
      (newStorageEngine {}) {} := by
  intro keeps
  have agrees := keeps (by decide +kernel) _ ⟨_, List.mem_cons_self, rfl⟩
  revert agrees
  unfold Agrees
  decide +kernel

end Kept

end StorageTransaction

inductive TransactionCall where
  | collect (op : TransactionOp)
  | rollback
  | commit (run : CommitRun)

namespace TransactionCall
open Run

def ends : TransactionCall → Bool
  | .collect _ => false
  | .rollback | .commit _ => true

variable (sha256 : Str → Str) (p : StorageTransaction × StorageEngineImpl)

/-- A call on a transaction beside its engine, with the answer and the engine it leaves. -/
def step (call : TransactionCall) :
    (StorageTransaction × StorageEngineImpl) × Except StorageError Unit × StorageEngineImpl :=
  let (t, s, answer) := match call with
    | .collect op => ((op.run p.1).1, p.2, (op.run p.1).2)
    | .rollback => (p.1.rollback.1, p.2, p.1.rollback.2)
    | .commit run => p.1.commit sha256 p.2 run
  ((t, s), answer, s)

variable {sha256 p}

theorem ended_step {call : TransactionCall} (ends : call.ends = true) :
    (step sha256 p call).1.1.committed = true ∨ (step sha256 p call).1.1.rolledBack = true := by
  cases call with
  | collect op => cases ends
  | rollback =>
    simp only [step, StorageTransaction.rollback]
    split_ifs <;> simp [*]
  | commit run =>
    simp only [step, StorageTransaction.commit]
    split_ifs
    · simp [*]
    · simp [*]
    · split <;> simp

theorem step_ended (ended : p.1.committed = true ∨ p.1.rolledBack = true) (call : TransactionCall) :
    ∃ err, step sha256 p call = (p, .error err, p.2) := by
  cases call with
  | collect op =>
    cases op <;> simp [step, TransactionOp.run, StorageTransaction.put, StorageTransaction.delete, ended]
  | rollback =>
    simp only [step, StorageTransaction.rollback]
    split_ifs <;> simp_all
  | commit run =>
    simp only [step, StorageTransaction.commit]
    split_ifs <;> simp_all

variable (sha256 p)

/-- After a rollback or a commit, also one that failed, every call fails and leaves the engine alone. -/
theorem ends_once (calls : List TransactionCall) : (trace (step sha256) p calls).Pairwise fun a b =>
      a.1.ends = true → b.2.1.isOk = false ∧ b.2.2 = a.2.2 := by
  apply pairwise_trace_iff.mpr
  intro before a between b _ _ ends
  have ended := @ended_step sha256 (exec (step sha256) p before) a ends
  have still := @exec_inv _ _ _ (step sha256) _ (· = (step sha256 (exec (step sha256) p before) a).1) (by
    rintro _ call rfl
    obtain ⟨_, same⟩ := step_ended ended call
    rw [same]) rfl between
  obtain ⟨_, same⟩ := step_ended ended b
  rw [exec_append, exec_cons, still, same]
  exact ⟨rfl, rfl⟩

end TransactionCall

end Storage
