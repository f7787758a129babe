import SolidSidecar.Storage.Commit
import SolidSidecar.Storage.EngineHistory

/-!
# What the authorization caches are told

`cache_invalidator.go`: the invalidator that the engine notifies, over every operation that changes what
is stored. The engine reports a write with the type that is written, a deletion after the fact, and
neither a deletion with a tombstone nor a commit; `Unseen` says which steps have nothing else to report.

A cache function is given as what it answers after the calls made before it, `true` when it returns no
error. Logs and the time of the last event are left out.
-/

namespace Storage
open Go List AList MemoryBackend StorageEngineImpl StorageTransaction

inductive CacheCall where
  | policy (policyURI : Str)
  | decision (resourceURI : Str) (isPolicy : Bool)
  deriving DecidableEq, Repr

structure CacheInvalidatorMetrics where
  invalidationEvents : Nat := 0
  policyInvalidations : Nat := 0
  resourceInvalidations : Nat := 0
  errors : Nat := 0
  deriving DecidableEq, Repr

structure AuthzCacheInvalidator where
  policyCacheInvalidator : Option (List CacheCall → Str → Bool) := none
  decisionCacheInvalidator : Option (List CacheCall → Str → Bool → Bool) := none
  metrics : CacheInvalidatorMetrics := {}
  /-- The calls of the two functions so far. -/
  calls : List CacheCall := []

namespace AuthzCacheInvalidator

/-- The call of the policy cache, counted by how it went. -/
def invalidatePolicy (a : AuthzCacheInvalidator) (policy : List CacheCall → Str → Bool) (uri : Str) :
    AuthzCacheInvalidator :=
  let m := a.metrics
  { a with
    calls := a.calls ++ [.policy uri]
    metrics :=
      if policy a.calls uri then { m with policyInvalidations := m.policyInvalidations + 1 }
      else { m with errors := m.errors + 1 } }

/-- One call of the decision cache, counted by how it went. -/
def invalidateDecision (decision : List CacheCall → Str → Bool → Bool) (isPolicy : Bool)
    (a : AuthzCacheInvalidator) (uri : Str) : AuthzCacheInvalidator :=
  let m := a.metrics
  { a with
    calls := a.calls ++ [.decision uri isPolicy]
    metrics :=
      if decision a.calls uri isPolicy then
        { m with resourceInvalidations := m.resourceInvalidations + 1 }
      else { m with errors := m.errors + 1 } }

def onCacheInvalidation (a : AuthzCacheInvalidator) (event : CacheInvalidationEvent) : AuthzCacheInvalidator :=
  let a := { a with metrics := { a.metrics with
    invalidationEvents := a.metrics.invalidationEvents + 1 } }
  let a := match a.policyCacheInvalidator with
    | some policy =>
      if event.isPolicy && event.policyURI ≠ [] then a.invalidatePolicy policy event.policyURI else a
    | none => a
  match a.decisionCacheInvalidator with
  | some decision =>
    let resourcesToInvalidate :=
      event.resourceURI :: if event.isPolicy then [event.policyURI] else []
    resourcesToInvalidate.foldl (invalidateDecision decision event.isPolicy) a
  | none => a

variable {a : AuthzCacheInvalidator}

theorem invalidateDecision_calls (decision : List CacheCall → Str → Bool → Bool) (isPolicy : Bool) (uris : List Str) :
    a.calls <+: (uris.foldl (invalidateDecision decision isPolicy) a).calls := by
  induction uris generalizing a with
  | nil => exact prefix_rfl
  | cons uri rest ih =>
    have called : a.calls <+: (invalidateDecision decision isPolicy a uri).calls :=
      prefix_append _ _
    exact called.trans ih

/-- An event about a policy reaches the policy cache, if there is one. -/
theorem onCacheInvalidation_policy {event : CacheInvalidationEvent} (isPolicy : event.isPolicy = true)
    (named : event.policyURI ≠ []) (registered : a.policyCacheInvalidator.isSome = true) :
    a.calls ++ [.policy event.policyURI] <+: (a.onCacheInvalidation event).calls := by
  obtain ⟨_, registered⟩ := Option.isSome_iff_exists.mp registered
  unfold onCacheInvalidation
  simp only [registered, isPolicy, named, ne_eq]
  split
  · refine IsPrefix.trans ?_ (invalidateDecision_calls _ _ _)
    exact prefix_rfl
  · exact prefix_rfl

end AuthzCacheInvalidator

inductive EngineMutation where
  | call (op : EngineOp)
  | commit (transaction : StorageTransaction) (run : CommitRun)

namespace EngineMutation

variable (sha256 : Str → Str)

def run (s : StorageEngineImpl) : EngineMutation → StorageEngineImpl × Option (Except StorageError Unit)
  | .call op => op.run sha256 s
  | .commit t run => ((t.commit sha256 s run).2.1, some (t.commit sha256 s run).2.2)

end EngineMutation

/-- An engine with an invalidator that is given every event. -/
structure NotifyingEngine where
  engine : StorageEngineImpl
  invalidator : AuthzCacheInvalidator

namespace NotifyingEngine

variable (sha256 : Str → Str)

def events (e : NotifyingEngine) (op : EngineMutation) : List CacheInvalidationEvent :=
  (op.run sha256 e.engine).1.invalidations.drop e.engine.invalidations.length

def run (e : NotifyingEngine) (op : EngineMutation) : NotifyingEngine × Option (Except StorageError Unit) :=
  (⟨(op.run sha256 e.engine).1, (e.events sha256 op).foldl AuthzCacheInvalidator.onCacheInvalidation e.invalidator⟩,
    (op.run sha256 e.engine).2)

end NotifyingEngine

namespace StorageEngineImpl

/-- An access control resource is stored under the URI. -/
def PolicyAt (s : StorageEngineImpl) (u : Str) : Prop :=
  ∃ m, s.defaultBackend.data.lookup u = some m ∧ isPolicyResource m.metadata.resourceType = true

def ShowsPolicy (s : StorageEngineImpl) (u : Str) : Prop :=
  s.isTombstoned u = false ∧ s.PolicyAt u

end StorageEngineImpl

namespace NotifyingEngine

variable (sha256 : Str → Str)

/-- If the operation succeeds, then for every access control resource that readers get differently
after it, an event with `IsPolicy` was given to the invalidator, and the policy cache was called. -/
def Announces (e : NotifyingEngine) (op : EngineMutation) : Prop :=
  (e.run sha256 op).2 = some (.ok ()) → ∀ u, e.engine.PolicyAt u ∨ (e.run sha256 op).1.engine.PolicyAt u →
      (e.run sha256 op).1.engine.get sha256 u ≠ e.engine.get sha256 u →
        (∃ event ∈ e.events sha256 op, event.resourceURI = u ∧ event.isPolicy = true) ∧
          (e.invalidator.policyCacheInvalidator.isSome = true → CacheCall.policy u ∈
              (e.run sha256 op).1.invalidator.calls.drop e.invalidator.calls.length)

/-- Every operation of a run announces what it changes. -/
def AnnouncesAll (e : NotifyingEngine) (ops : List EngineMutation) : Prop :=
  ∀ before op after, ops = before ++ op :: after → (Run.exec (run sha256) e before).Announces sha256 op

end NotifyingEngine

namespace EngineMutation

/-- What the engine need not announce, or does: a write that puts no other type in the place of an
access control resource that readers see; a deletion that reaches none, with its tombstone or without;
a commit that neither reaches nor writes one. -/
def Unseen (s : StorageEngineImpl) : EngineMutation → Prop
  | .call (.put _ r) => s.ShowsPolicy r.uri → isPolicyResource r.metadata.resourceType = true
  | .call (.delete uri) => ∀ key, validateURI uri = .ok key → ¬ s.ShowsPolicy key
  | .call (.deleteWithTombstone _ uri tombstone) =>
    (∀ key, validateURI uri = .ok key → ¬ s.ShowsPolicy key) ∧
      ¬ s.ShowsPolicy (if tombstone.uri = [] then uri else tombstone.uri)
  | .commit t _ =>
    (∀ u r, t.pending.lookup u = some r → s.isTombstoned u = false →
      ¬ s.PolicyAt u ∧ isPolicyResource r.metadata.resourceType = false) ∧
    ∀ u key, u ∈ t.deleted → validateURI u = .ok key → ¬ s.ShowsPolicy key

end EngineMutation

namespace StorageEngineImpl

variable {sha256 : Str → Str} {s s' : StorageEngineImpl} {u : Str}

/-- A resource that a tombstone hides before and after reads the same. -/
theorem get_of_hidden (config : s'.config = s.config) (hidden : s.isTombstoned u = true)
    (kept : (s.tombstones.lookup u).isSome = true → (s'.tombstones.lookup u).isSome = true) :
    s'.get sha256 u = s.get sha256 u := by
  obtain ⟨enabled, marked⟩ := Bool.and_eq_true_iff.mp hidden
  have hidden' : s'.isTombstoned u = true := by
    rw [isTombstoned, config, enabled, kept marked]
    rfl
  rw [get_of_tombstoned sha256 hidden, get_of_tombstoned sha256 hidden']

theorem Erased.policyAt {key} (erased : Erased s s' key) (policy : s'.PolicyAt u) : u ≠ key ∧ s.PolicyAt u := by
  obtain ⟨m, found, type⟩ := policy
  rw [erased.data] at found
  split at found
  · cases found
  · exact ⟨‹_›, m, found, type⟩

/-- A deletion that reaches no access control resource in view changes none for readers. -/
theorem Erased.get_of_policy {key} (erased : Erased s s' key)
    (kept : (s.tombstones.lookup u).isSome = true → (s'.tombstones.lookup u).isSome = true)
    (other : s.isTombstoned u = false → s'.tombstones.lookup u = s.tombstones.lookup u)
    (unseen : ¬ s.ShowsPolicy key) (policy : s.PolicyAt u) : s'.get sha256 u = s.get sha256 u := by
  cases hidden : s.isTombstoned u with
  | true => exact get_of_hidden erased.config hidden kept
  | false =>
    have apart : u ≠ key := by
      rintro rfl
      exact unseen ⟨hidden, policy⟩
    apply get_congr sha256 erased.config (other hidden) erased.closed
    · rw [erased.marks]
    · rw [erased.data, if_neg apart]

/-- A write puts an entry of its own type in the place of what was stored. -/
theorem Written.policyAt {now r r' body} (written : Written sha256 s s' now r r' body) (policy : s'.PolicyAt r.uri) :
    isPolicyResource r.metadata.resourceType = true := by
  obtain ⟨r₁, _, passed, rfl⟩ := written.passed
  obtain ⟨_, found, type⟩ := policy
  rw [written.data, lookup_insert] at found
  obtain rfl := Option.some.inj found
  have type : isPolicyResource (if r₁.metadata.resourceType = [] then resourceTypeResource
      else r₁.metadata.resourceType) = true := type
  rw [passed.metadata] at type
  split at type
  · exact absurd type (by decide +kernel)
  · exact type

theorem Written.get_elsewhere {now r r' body} (written : Written sha256 s s' now r r' body) (other : u ≠ r.uri) :
    s'.get sha256 u = s.get sha256 u := by
  apply get_congr sha256 written.config _ written.closed
  · rw [written.marks, lookup_erase_ne other]
  · rw [written.data, lookup_insert_ne other]
  · rw [written.tombstones]

end StorageEngineImpl

namespace MemoryBackend

open StorageTransaction

variable {sha256 : Str → Str} {clock : Str → Time} {b : MemoryBackend} {k : Str}

structure SameAt (b b' : MemoryBackend) (k : Str) : Prop where
  data : b'.data.lookup k = b.data.lookup k
  mark : b'.tombstones.lookup k = b.tombstones.lookup k
  closed : b'.closed = b.closed

theorem SameAt.trans {b₁ b₂ b₃} (first : SameAt b₁ b₂ k) (second : SameAt b₂ b₃ k) : SameAt b₁ b₃ k :=
  ⟨second.data.trans first.data, second.mark.trans first.mark, second.closed.trans first.closed⟩

/-- A write leaves the other URIs, and puts an entry of its own type under its own if any. -/
theorem writeStep_at (w : Str × WriteResource) : (k ≠ w.1 → SameAt b (writeStep sha256 clock b w).1 k) ∧
      ∀ m, (writeStep sha256 clock b w).1.data.lookup w.1 = some m → b.data.lookup w.1 = some m ∨
          m.metadata.resourceType =
            if w.2.metadata.resourceType = [] then resourceTypeResource
            else w.2.metadata.resourceType := by
  unfold writeStep
  cases checked : b.checkWrite w.1 w.2 with
  | error err =>
    rw [put_refused checked]
    exact ⟨fun _ => ⟨rfl, rfl, rfl⟩, fun m found => .inl found⟩
  | ok body =>
    obtain ⟨_, done, data, marks, frame⟩ := put_admitted sha256 (clock w.1) checked
    rw [done]
    refine ⟨fun other => ⟨?_, ?_, frame.closed⟩, fun m found => .inr ?_⟩
    · rw [data, lookup_insert_ne other]
    · rw [marks, lookup_erase_ne other]
    · rw [data, lookup_insert] at found
      obtain rfl := Option.some.inj found
      rfl

/-- A deletion leaves all but the URI that it removes. -/
theorem deleteStep_at (uri : Str) : ((∀ key, validateURI uri = .ok key → k ≠ key) → SameAt b (deleteStep b uri).1 k) ∧
      ∀ m, (deleteStep b uri).1.data.lookup k = some m → b.data.lookup k = some m := by
  cases result : b.deleteTarget uri with
  | error err =>
    rw [deleteStep_refused result]
    exact ⟨fun _ => ⟨rfl, rfl, rfl⟩, fun m found => found⟩
  | ok a =>
    obtain ⟨⟨key, valid⟩, running, -⟩ := deleteTarget_eq_ok.mp result
    obtain ⟨b', done, data, marks, frame⟩ := delete_admitted valid running
    rw [deleteStep, done]
    refine ⟨fun other => ⟨?_, ?_, frame.closed⟩, fun m found => ?_⟩
    · show b'.data.lookup k = _
      rw [data, lookup_erase_ne (other key valid)]
    · show b'.tombstones.lookup k = _
      rw [marks]
    · have found : b'.data.lookup k = some m := found
      rw [data, GoMap.lookup_erase_eq] at found
      split at found
      · cases found
      · exact found

end MemoryBackend

namespace StorageTransaction

variable (sha256 : Str → Str) {t : StorageTransaction} {b : MemoryBackend} {u : Str}

/-- A commit that succeeds is the first of its transaction. -/
theorem open_of_commit {s run}
    (done : (t.commit sha256 s run).2.2 = .ok ()) : t.committed = false ∧ t.rolledBack = false := by
  unfold commit at done
  split at done
  · cases done
  · split at done
    · cases done
    · exact ⟨Bool.eq_false_iff.mpr ‹_›, Bool.eq_false_iff.mpr ‹_›⟩

theorem applyTo_sameAt (run : CommitRun) (unwritten : t.pending.lookup u = none)
    (standing : ∀ u' ∈ t.deleted, validateURI u' ≠ .ok u) :
    SameAt b (t.applyTo sha256 run b).1 u := by
  apply applyTo_inv sha256 (fun b' => SameAt b b' u) _ _ ⟨rfl, rfl, rfl⟩
  · intro b' u' r found same
    have other : u ≠ u' := by
      rintro rfl
      rw [unwritten] at found
      cases found
    exact same.trans ((writeStep_at (u', r)).1 other)
  · intro b' u' mem same
    refine same.trans ((deleteStep_at u').1 ?_)
    rintro _ valid rfl
    exact standing u' mem valid

/-- A commit that writes no access control resource under a URI leaves none where there was none. -/
theorem applyTo_unprotected (run : CommitRun)
    (before : ∀ m, b.data.lookup u = some m → isPolicyResource m.metadata.resourceType = false)
    (plain : ∀ r, t.pending.lookup u = some r → isPolicyResource r.metadata.resourceType = false) :
    ∀ m, (t.applyTo sha256 run b).1.data.lookup u = some m → isPolicyResource m.metadata.resourceType = false := by
  apply applyTo_inv sha256 (fun b' => ∀ m, b'.data.lookup u = some m →
    isPolicyResource m.metadata.resourceType = false) _ _ before
  · intro b' u' r found kept m stored
    by_cases same : u = u'
    · subst same
      rcases (writeStep_at (k := u) (u, r)).2 m stored with old | type
      · exact kept m old
      · rw [type]
        split
        · decide +kernel
        · exact plain r found
    · rw [((writeStep_at (u', r)).1 same).data] at stored
      exact kept m stored
  · intro b' u' _ kept m stored
    exact kept m ((deleteStep_at u').2 m stored)

end StorageTransaction

namespace NotifyingEngine

variable (sha256 : Str → Str) {e : NotifyingEngine}

/-- A step that changes no access control resource for readers has nothing to announce. -/
theorem announces_of_same {op} (same : (op.run sha256 e.engine).2 = some (.ok ()) → ∀ u,
      e.engine.PolicyAt u ∨ (op.run sha256 e.engine).1.PolicyAt u →
        (op.run sha256 e.engine).1.get sha256 u = e.engine.get sha256 u) :
    e.Announces sha256 op :=
  fun done u policy changed => absurd (same done u policy) changed

theorem announces_put (now : Time) (r : WriteResource)
    (unseen : e.engine.ShowsPolicy r.uri → isPolicyResource r.metadata.resourceType = true) :
    e.Announces sha256 (.call (.put now r)) := by
  intro done u policy changed
  rcases put_cases sha256 e.engine now r with ⟨failed, -⟩ | ⟨-, _, _, written⟩
  · exact absurd done failed
  · have same : u = r.uri := by
      by_contra other
      exact changed (written.get_elsewhere other)
    subst same
    have type : isPolicyResource r.metadata.resourceType = true := by
      rcases policy with before | after
      · cases hidden : e.engine.isTombstoned r.uri with
        | false => exact unseen ⟨hidden, before⟩
        | true =>
          refine absurd (get_of_hidden written.config hidden fun marked => ?_) changed
          rw [written.tombstones]
          exact marked
      · exact written.policyAt after
    have named : r.uri ≠ [] := by
      obtain ⟨_, -, passed, -⟩ := written.passed
      intro none
      have valid := passed.valid
      rw [none] at valid
      cases valid
    have events : e.events sha256 (.call (.put now r)) = [⟨r.uri, true, r.uri⟩] := by
      show drop _ (e.engine.put sha256 now r).1.invalidations = _
      rw [written.invalidations, drop_left, type]
    refine ⟨⟨_, by rw [events]; exact mem_singleton_self _, rfl, rfl⟩, fun registered => ?_⟩
    obtain ⟨_, calls⟩ := @AuthzCacheInvalidator.onCacheInvalidation_policy e.invalidator
      ⟨r.uri, true, r.uri⟩ rfl named registered
    show _ ∈ ((e.events sha256 _).foldl _ e.invalidator).calls.drop _
    rw [events, foldl_cons, foldl_nil, ← calls, append_assoc, drop_left]
    exact mem_append_left _ (mem_singleton_self _)

theorem announces_delete (uri : Str) (unseen : ∀ key, validateURI uri = .ok key → ¬ e.engine.ShowsPolicy key) :
    e.Announces sha256 (.call (.delete uri)) := by
  apply announces_of_same
  intro done u policy
  rcases delete_cases e.engine uri with
    ⟨failed, -⟩ | ⟨-, -, key, _, valid, erased, tombstones, -⟩
  · exact absurd done failed
  · have before : e.engine.PolicyAt u := policy.elim id fun after => (erased.policyAt after).2
    apply erased.get_of_policy _ _ (unseen key valid) before
    · rw [tombstones]
      exact id
    · intro _
      rw [tombstones]

theorem announces_deleteWithTombstone (now : Time) (uri : Str) (tombstone : Tombstone)
    (unseen : ∀ key, validateURI uri = .ok key → ¬ e.engine.ShowsPolicy key)
    (unmarked : ¬ e.engine.ShowsPolicy (if tombstone.uri = [] then uri else tombstone.uri)) :
    e.Announces sha256 (.call (.deleteWithTombstone now uri tombstone)) := by
  apply announces_of_same
  intro done u policy
  rcases deleteWithTombstone_cases e.engine now uri tombstone with
    ⟨failed, -⟩ | ⟨-, -, key, valid, erased, tombstones, -⟩
  · exact absurd done failed
  · have before : e.engine.PolicyAt u := policy.elim id fun after => (erased.policyAt after).2
    apply erased.get_of_policy _ _ (unseen key valid) before
    · intro marked
      rw [tombstones, GoMap.lookup_insert_eq]
      split
      · rfl
      · exact marked
    · intro shown
      have other : u ≠ (placed now uri tombstone).uri := by
        rintro rfl
        exact unmarked ⟨shown, before⟩
      rw [tombstones, lookup_insert_ne other]

theorem announces_commit (t : StorageTransaction) (run : CommitRun)
    (writes : ∀ u r, t.pending.lookup u = some r → e.engine.isTombstoned u = false →
      ¬ e.engine.PolicyAt u ∧ isPolicyResource r.metadata.resourceType = false)
    (deletions : ∀ u key, u ∈ t.deleted → validateURI u = .ok key → ¬ e.engine.ShowsPolicy key) :
    e.Announces sha256 (.commit t run) := by
  apply announces_of_same
  intro done u policy
  obtain ⟨uncommitted, standing⟩ := open_of_commit sha256 (Option.some.inj done)
  have after : ((EngineMutation.commit t run).run sha256 e.engine).1 =
      { e.engine with defaultBackend := (t.applyTo sha256 run e.engine.defaultBackend).1 } :=
    congrArg Prod.fst (commit_eq sha256 run uncommitted standing)
  rw [after] at policy ⊢
  cases hidden : e.engine.isTombstoned u with
  | true => exact get_of_hidden rfl hidden id
  | false =>
    by_cases untouched : t.pending.lookup u = none ∧ ∀ u' ∈ t.deleted, validateURI u' ≠ .ok u
    · have same := applyTo_sameAt sha256 (b := e.engine.defaultBackend) run untouched.1 untouched.2
      exact get_congr sha256 rfl rfl same.closed same.mark same.data
    · -- what the commit reaches is no access control resource, before or after
      have unprotected : ¬ e.engine.PolicyAt u := by
        intro before
        apply untouched
        refine ⟨Option.eq_none_iff_forall_ne_some.mpr fun r found => ?_, fun u' mem valid => ?_⟩
        · exact (writes u r found hidden).1 before
        · exact deletions u' u mem valid ⟨hidden, before⟩
      rcases policy with before | ⟨m, stored, type⟩
      · exact absurd before unprotected
      · have plain := applyTo_unprotected sha256 run (fun m found => by
            by_contra type
            exact unprotected ⟨m, found, by simpa using type⟩)
          (fun r found => (writes u r found hidden).2) m stored
        rw [type] at plain
        cases plain

/-- Along every run whose steps leave nothing else to announce, the invalidator is told of every change
to an access control resource. -/
theorem announcesAll_of_unseen (config : EngineConfig) (invalidator : AuthzCacheInvalidator)
    {ops : List EngineMutation}
    (unseen : ∀ before op after, ops = before ++ op :: after →
      op.Unseen (Run.exec (NotifyingEngine.run sha256) ⟨newStorageEngine config, invalidator⟩ before).engine) :
    AnnouncesAll sha256 ⟨newStorageEngine config, invalidator⟩ ops := by
  intro before op after split
  have unseen := unseen before op after split
  match op, unseen with
  | .call (.put now r), unseen => exact announces_put sha256 now r unseen
  | .call (.delete uri), unseen => exact announces_delete sha256 uri unseen
  | .call (.deleteWithTombstone now uri tombstone), ⟨reached, marked⟩ =>
    exact announces_deleteWithTombstone sha256 now uri tombstone reached marked
  | .commit t run, ⟨writes, deletions⟩ => exact announces_commit sha256 t run writes deletions

/-- An access control list is written and then written again. -/
def protectedRun : List EngineMutation :=
  [.call (.put Time.zero { uri := "/a.acl", metadata := { resourceType := resourceTypeACL } }), .call (.put Time.zero
     { uri := "/a.acl", body := some "x", metadata := { resourceType := resourceTypeACL } })]

theorem announcesAll_of_unseen_written : AnnouncesAll (fun _ => []) ⟨newStorageEngine {}, {}⟩ protectedRun := by
  apply announcesAll_of_unseen (fun _ => []) {} {}
  refine (Run.along_iff (P := fun e (op : EngineMutation) => op.Unseen (engine e))).mp ?_
  exact ⟨fun _ => rfl, fun _ => rfl, trivial⟩

/-- An access control list that is written and then deleted: the event of the deletion does not say that
it is one. -/
theorem not_announcesAll_deleted : ¬ AnnouncesAll (fun _ => [])
      ⟨newStorageEngine {}, { policyCacheInvalidator := some fun _ _ => true }⟩
      [.call (.put Time.zero { uri := str "/a.acl", metadata := { resourceType := resourceTypeACL } }),
       .call (.delete (str "/a.acl"))] := by
  intro h
  obtain ⟨⟨event, mem, -, isPolicy⟩, -⟩ := h [_] _ [] rfl (by decide +kernel) "/a.acl"
    (.inl ⟨_, rfl, by decide +kernel⟩) (by decide +kernel)
  have silent : ∀ event ∈ events (fun _ => []) (Run.exec (run fun _ => [])
        ⟨newStorageEngine {}, { policyCacheInvalidator := some fun _ _ => true }⟩
        [.call (.put Time.zero { uri := "/a.acl", metadata := { resourceType := resourceTypeACL } })])
      (.call (.delete "/a.acl")), event.isPolicy = false := by decide +kernel
  rw [silent event mem] at isPolicy
  cases isPolicy

end NotifyingEngine

end Storage
