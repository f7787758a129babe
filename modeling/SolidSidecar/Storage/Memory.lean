import SolidSidecar.Go.Map
import SolidSidecar.Run.Machine
import SolidSidecar.Storage.Utils

/-!
# The memory backend

`memory.go`: resources, blobs and tombstones in maps. `Get` and `Put` take a URI as it is; `Delete`,
`List` and `Exists` first put it through `ValidateURI`. No function of the backend sets a limit in its
quota table, which is a field of the type, so the quota checks never refuse a write.

Contexts, locks and logs are left out, and so is the nil resource that `Put` refuses. The time of a
write is an argument.
-/

namespace Storage
open Go AList

structure MemoryResource where
  uri : Str
  body : Option Str
  metadata : Metadata
  deriving DecidableEq

structure QuotaUsageInfo where
  usedBytes : Int := 0
  usedResources : Int := 0
  maxBytes : Int := 0
  maxResources : Int := 0
  deriving DecidableEq, Repr

def QuotaUsageInfo.Unlimited (usage : QuotaUsageInfo) : Prop :=
  usage.maxBytes = 0 ∧ usage.maxResources = 0

structure MemoryBackend where
  data : GoMap Str MemoryResource := ∅
  blobs : GoMap Str Str := ∅
  quotaUsage : GoMap Str QuotaUsageInfo := ∅
  tombstones : GoMap Str Tombstone := ∅
  layoutVersion : StorageLayoutVersion := currentStorageLayoutVersion
  closed : Bool := false
  unlimited : ∀ root usage, quotaUsage.lookup root = some usage → usage.Unlimited

def newMemoryBackend : MemoryBackend where
  unlimited := by simp

namespace MemoryBackend

variable {b : MemoryBackend} {uri : Str} {r : WriteResource}

/-- The usage of a storage root, a new one where there is none. -/
def usage (b : MemoryBackend) (root : Str) : QuotaUsageInfo := (b.quotaUsage.lookup root).getD {}

theorem usage_unlimited (b : MemoryBackend) (root : Str) : (b.usage root).Unlimited := by
  unfold usage
  cases found : b.quotaUsage.lookup root with
  | none => exact ⟨rfl, rfl⟩
  | some usage => exact b.unlimited root usage found

def setUsage (b : MemoryBackend) (root : Str) (usage : QuotaUsageInfo) (free : usage.Unlimited) : MemoryBackend :=
  { b with
    quotaUsage := b.quotaUsage.insert root usage
    unlimited := by
      intro root' usage' found
      rw [GoMap.lookup_insert_eq] at found
      split at found
      · cases found
        exact free
      · exact b.unlimited root' usage' found }

def checkAndUpdateQuota (b : MemoryBackend) (root : Str) (additionalBytes : Int) :
    MemoryBackend × Except StorageError Unit :=
  let usage := b.usage root
  let b' := b.setUsage root usage (b.usage_unlimited root)
  let used := wrap64 (usage.usedBytes + additionalBytes)
  if usage.maxBytes > 0 ∧ used > usage.maxBytes then (b', .error .quotaExceeded)
  else if usage.maxResources > 0 ∧ wrap64 (usage.usedResources + 1) > usage.maxResources then
    (b', .error .quotaExceeded)
  else
    (b'.setUsage root { usage with usedBytes := used, usedResources := wrap64 (usage.usedResources + 1) }
      (b.usage_unlimited root), .ok ())

def rollbackQuota (b : MemoryBackend) (root : Str) (bytesFreed : Int) : MemoryBackend :=
  if (b.quotaUsage.lookup root).isSome then
    b.setUsage root { b.usage root with
        usedBytes := max 0 (wrap64 ((b.usage root).usedBytes - bytesFreed))
        usedResources := max 0 (wrap64 ((b.usage root).usedResources - 1)) }
      (b.usage_unlimited root)
  else b

def get (b : MemoryBackend) (uri : Str) : Except StorageError Resource := do
  refuse (b.closed = true) .storageClosed
  refuse (uri = []) .emptyURI
  refuse ((b.tombstones.lookup uri).isSome = true) .notFound
  let resource ← orError .notFound (b.data.lookup uri)
  .ok ⟨resource.uri, resource.body, resource.metadata⟩

def getMetadata (b : MemoryBackend) (uri : Str) : Except StorageError Metadata := do
  refuse (b.closed = true) .storageClosed
  refuse ((b.tombstones.lookup uri).isSome = true) .notFound
  let resource ← orError .notFound (b.data.lookup uri)
  .ok resource.metadata

def existsAt (b : MemoryBackend) (uri : Str) : Except StorageError Bool := do
  let uri ← validateURI uri
  refuse (b.closed = true) .storageClosed
  .ok ((b.tombstones.lookup uri).isNone && (b.data.lookup uri).isSome)

/-- `List`: what is stored under the container, in the order of a `range` loop that stops at
`maxResourceCountPerList`. -/
def list (b : MemoryBackend) (order : RangeOrder (Str × MemoryResource)) (containerURI : Str) :
    Except StorageError (List Metadata) := do
  let uri ← validateURI containerURI
  refuse (b.closed = true) .storageClosed
  let start := if Strings.hasSuffix uri "/" then uri else uri ++ "/"
  let inside := (order.visit b.data.pairs).filter fun entry =>
    (b.tombstones.lookup entry.1).isNone && Strings.hasPrefix entry.1 start
  .ok ((inside.map fun entry => entry.2.metadata).take maxResourceCountPerList)

def ifMatchFails (current : Option MemoryResource) (tag : Str) : Bool :=
  tag ≠ [] && if tag = "*" then current.isNone else current.map (·.metadata.etag) ≠ some tag

/-- `If-None-Match` against the resource that is stored. -/
def ifNoneMatchFails (current : Option MemoryResource) (tag : Str) : Bool :=
  tag ≠ [] && if tag = "*" then current.isSome else current.map (·.metadata.etag) = some tag

/-- The checks of `Put` before the quota, and the body they leave to be stored. -/
def checkWrite (b : MemoryBackend) (uri : Str) (r : WriteResource) : Except StorageError (Option Str) := do
  refuse (b.closed = true) .storageClosed
  refuse (uri = []) .emptyURI
  refuse (ifMatchFails (b.data.lookup uri) r.preconditions.ifMatch = true) .preconditionFailed
  refuse (ifNoneMatchFails (b.data.lookup uri) r.preconditions.ifNoneMatch = true) .preconditionFailed
  r.readBody

variable (sha256 : Str → Str)

/-- The metadata that `Put` stores: what the caller left out is filled in. -/
def prepareMetadata (b : MemoryBackend) (now : Time) (uri : Str) (body : Option Str) (m : Metadata) : Metadata :=
  { m with
    uri := if m.uri = [] then uri else m.uri
    size := if m.size = 0 then (bytesOf body).length else m.size
    lastModified := if m.lastModified.isZero then now else m.lastModified
    etag := if m.etag = [] then (body.map (generateETag sha256)).getD [] else m.etag
    resourceType := if m.resourceType = [] then resourceTypeResource else m.resourceType
    storageRoot := storageRootOf uri m
    layoutVersion := if m.layoutVersion = 0 then b.layoutVersion else m.layoutVersion }

def put (b : MemoryBackend) (now : Time) (uri : Str) (r : WriteResource) : MemoryBackend × Except StorageError Unit :=
  match b.checkWrite uri r with
  | .error err => (b, .error err)
  | .ok body =>
    let resourceSize := (bytesOf body).length + estimateMetadataSize r.metadata
    let charged :=
      if resourceSize > 0 then b.checkAndUpdateQuota (storageRootOf uri r.metadata) resourceSize
      else (b, .ok ())
    match charged with
    | (b, .error err) => (b, .error err)
    | (b, .ok ()) =>
      ({ b with
          data := b.data.insert uri ⟨uri, body, b.prepareMetadata sha256 now uri body r.metadata⟩
          tombstones := b.tombstones.erase uri }, .ok ())

def delete (b : MemoryBackend) (uri : Str) : MemoryBackend × Except StorageError Unit :=
  match validateURI uri with
  | .error err => (b, .error err)
  | .ok uri =>
    if b.closed then (b, .error .storageClosed)
    else
      let metadata := ((b.data.lookup uri).map (·.metadata)).getD {}
      let b := { b with data := b.data.erase uri }
      if metadata.size > 0 then
        (b.rollbackQuota (storageRootOf uri metadata) metadata.size, .ok ())
      else (b, .ok ())

def storeBlob (b : MemoryBackend) (data : Str) : MemoryBackend × Except StorageError ContentAddress :=
  let address := computeContentAddress sha256 data
  let checks : Except StorageError Unit := do
    validateBodySize data
    validateContentAddress address
    refuse (b.closed = true) .storageClosed
  match checks with
  | .error err => (b, .error err)
  | .ok () => ({ b with blobs := b.blobs.insert address data }, .ok address)

structure Framed (b b' : MemoryBackend) : Prop where
  blobs : b'.blobs = b.blobs
  layoutVersion : b'.layoutVersion = b.layoutVersion
  closed : b'.closed = b.closed

/-- Charging a quota always succeeds, and changes nothing but the usage. -/
theorem checkAndUpdateQuota_eq (b : MemoryBackend) (root : Str) (n : Int) :
    ∃ b', b.checkAndUpdateQuota root n = (b', .ok ()) ∧ b'.data = b.data ∧
      b'.tombstones = b.tombstones ∧ Framed b b' := by
  obtain ⟨_, _⟩ := b.usage_unlimited root
  unfold checkAndUpdateQuota
  have roomy : ¬ ((b.usage root).maxBytes > 0 ∧ wrap64 ((b.usage root).usedBytes + n) > (b.usage root).maxBytes) := by
    omega
  have few : ¬ ((b.usage root).maxResources > 0 ∧
      wrap64 ((b.usage root).usedResources + 1) > (b.usage root).maxResources) := by
    omega
  rw [if_neg roomy, if_neg few]
  exact ⟨_, rfl, rfl, rfl, rfl, rfl, rfl⟩

theorem rollbackQuota_eq (b : MemoryBackend) (root : Str) (n : Int) :
    (b.rollbackQuota root n).data = b.data ∧ (b.rollbackQuota root n).tombstones = b.tombstones ∧
      Framed b (b.rollbackQuota root n) := by
  unfold rollbackQuota
  split <;> exact ⟨rfl, rfl, rfl, rfl, rfl⟩

variable {sha256}

theorem put_refused {now err} (refused : b.checkWrite uri r = .error err) :
    b.put sha256 now uri r = (b, .error err) := by
  rw [put, refused]

theorem put_admitted (sha256 : Str → Str) (now : Time) {body} (admitted : b.checkWrite uri r = .ok body) :
    ∃ b', b.put sha256 now uri r = (b', .ok ()) ∧ b'.data =
        b.data.insert uri ⟨uri, body, b.prepareMetadata sha256 now uri body r.metadata⟩ ∧
      b'.tombstones = b.tombstones.erase uri ∧ Framed b b' := by
  obtain ⟨charged, paid, data, tombstones, frame⟩ := checkAndUpdateQuota_eq b
    _ _
  have positive : ((bytesOf body).length : Int) + estimateMetadataSize r.metadata > 0 := by
    unfold estimateMetadataSize
    omega
  have version : charged.prepareMetadata sha256 now uri body r.metadata =
      b.prepareMetadata sha256 now uri body r.metadata := by
    unfold prepareMetadata
    rw [frame.layoutVersion]
  unfold put
  rw [admitted]
  simp only
  rw [if_pos positive, paid]
  refine ⟨_, rfl, ?_, ?_, frame.blobs, frame.layoutVersion, frame.closed⟩
  · show charged.data.insert uri _ = _
    rw [data, version]
  · show charged.tombstones.erase uri = _
    rw [tombstones]

theorem delete_refused {err} (refused : validateURI uri = .error err) : b.delete uri = (b, .error err) := by
  rw [delete, refused]

/-- A deletion removes what is stored under the validated URI. -/
theorem delete_admitted {key} (valid : validateURI uri = .ok key) (running : b.closed = false) :
    ∃ b', b.delete uri = (b', .ok ()) ∧ b'.data = b.data.erase key ∧ b'.tombstones = b.tombstones ∧ Framed b b' := by
  have usable : ¬ b.closed = true := by
    rw [running]
    exact Bool.false_ne_true
  unfold delete
  rw [valid]
  simp only
  rw [if_neg usable]
  split
  · obtain ⟨data, tombstones, frame⟩ := rollbackQuota_eq { b with data := b.data.erase key }
      _
      (((b.data.lookup key).map MemoryResource.metadata).getD {}).size
    exact ⟨_, rfl, data, tombstones, frame.blobs, frame.layoutVersion, frame.closed⟩
  · exact ⟨_, rfl, rfl, rfl, rfl, rfl, rfl⟩

theorem readBody_of_checkWrite {body} (admitted : b.checkWrite uri r = .ok body) : r.readBody = .ok body := by
  simp only [checkWrite, then_eq_ok] at admitted
  exact admitted.2.2.2.2

/-- `Get` on a backend that is open and has no tombstones. -/
theorem get_eq (running : b.closed = false) (clear : ∀ k, b.tombstones.lookup k = none) (named : uri ≠ []) :
    b.get uri = (orError .notFound (b.data.lookup uri)).map fun m => ⟨m.uri, m.body, m.metadata⟩ := by
  unfold get
  cases b.data.lookup uri <;> simp [refuse, running, clear, named, bind, Except.bind, Except.map]

/-- `Exists` on such a backend, of a URI that validation leaves as it is. -/
theorem existsAt_eq (running : b.closed = false)
    (clear : ∀ k, b.tombstones.lookup k = none) (normal : validateURI uri = .ok uri) :
    b.existsAt uri = .ok (b.data.lookup uri).isSome := by
  unfold existsAt
  simp [normal, refuse, running, clear, bind, Except.bind]

end MemoryBackend

/-- A malformed URI is not reported as a missing one. -/
theorem validateURI_error {uri err} (refused : validateURI uri = .error err) : err.is .notFound = false := by
  unfold validateURI at refused
  simp only [bind_eq_error, refuse_eq_error] at refused
  rcases refused with ⟨-, rfl⟩ | ⟨-, -, ⟨-, rfl⟩ | ⟨-, -, ⟨-, rfl⟩ | ⟨-, -, impossible⟩⟩⟩
  · decide
  · decide
  · decide
  · cases impossible

theorem ne_nil_of_normal {uri} (normal : validateURI uri = .ok uri) : uri ≠ [] := by
  rintro rfl
  cases normal

inductive MemoryOp where
  | put (now : Time) (uri : Str) (resource : WriteResource)
  | delete (uri : Str)

namespace MemoryOp

def uri : MemoryOp → Str
  | .put _ uri _ => uri
  | .delete uri => uri

def run (sha256 : Str → Str) (b : MemoryBackend) : MemoryOp → MemoryBackend × Except StorageError Unit
  | .put now uri r => b.put sha256 now uri r
  | .delete uri => b.delete uri

/-- The answer that a successful operation on `u` lays down for `Get`. -/
def effect (u : Str) : MemoryOp × Except StorageError Unit → Option (Except StorageError (Option Str))
  | (.put _ uri r, .ok ()) => if uri = u then some r.readBody else none
  | (.delete uri, .ok ()) => if uri = u then some (.error .notFound) else none
  | (_, .error _) => none

/-- The operation does not reach `u` under another spelling: a deletion whose URI is validated to `u`
is given `u` itself. -/
def Spells (u : Str) : MemoryOp → Prop
  | .put _ _ _ => True
  | .delete uri => validateURI uri = .ok u → uri = u

end MemoryOp

/-- What a plain map would answer after a history: the body of the last successful write that no
successful deletion follows. -/
def recorded (u : Str) (history : List (MemoryOp × Except StorageError Unit)) : Except StorageError (Option Str) :=
  (Run.latest (MemoryOp.effect u) history).getD (.error .notFound)

theorem recorded_snoc (u : Str) (history : List (MemoryOp × Except StorageError Unit))
    (e : MemoryOp × Except StorageError Unit) :
    recorded u (history ++ [e]) = (MemoryOp.effect u e).getD (recorded u history) := by
  unfold recorded
  rw [Run.latest_snoc]
  cases MemoryOp.effect u e <;> rfl

theorem MemoryOp.effect_failed (u : Str) (op : MemoryOp) (err : StorageError) : effect u (op, .error err) = none := by
  cases op <;> rfl

theorem MemoryOp.effect_of_ne {u op} (other : op.uri ≠ u)
    (outcome : Except StorageError Unit) : effect u (op, outcome) = none := by
  cases outcome with
  | error err => exact effect_failed u op err
  | ok done =>
    cases op <;> exact if_neg other

namespace MemoryBackend

variable {b : MemoryBackend} {u : Str} {op : MemoryOp} {history : List (MemoryOp × Except StorageError Unit)}

def bodyAt (b : MemoryBackend) (u : Str) : Except StorageError (Option Str) :=
  (orError .notFound (b.data.lookup u)).map MemoryResource.body

/-- The backend answers for `u` as a plain map would after the history. -/
structure AnswersAs (u : Str) (history : List (MemoryOp × Except StorageError Unit)) (b : MemoryBackend) : Prop where
  running : b.closed = false
  clear : ∀ k, b.tombstones.lookup k = none
  stored : b.bodyAt u = recorded u history

variable (sha256 : Str → Str)

/-- What an operation that succeeds leaves behind: `key` answers as told and every other key is kept. -/
structure Changed (b b' : MemoryBackend) (key : Str) (answer : Except StorageError (Option Str)) :
    Prop where
  stored : b'.bodyAt key = answer
  elsewhere : ∀ k, k ≠ key → b'.data.lookup k = b.data.lookup k
  tombstones : ∀ k, b.tombstones.lookup k = none → b'.tombstones.lookup k = none
  frame : Framed b b'

theorem changed_of_put (now : Time) {uri r body} (admitted : b.checkWrite uri r = .ok body) :
    ∃ b', b.put sha256 now uri r = (b', .ok ()) ∧ Changed b b' uri r.readBody := by
  obtain ⟨b', done, data, tombstones, frame⟩ := put_admitted sha256 now admitted
  refine ⟨b', done, ?_, fun k other => ?_, fun k clear => ?_, frame⟩
  · rw [bodyAt, data, lookup_insert, readBody_of_checkWrite admitted]
    rfl
  · rw [data, lookup_insert_ne other]
  · rw [tombstones, GoMap.lookup_erase_eq, clear]
    split <;> rfl

theorem changed_of_delete {uri key} (valid : validateURI uri = .ok key) (running : b.closed = false) :
    ∃ b', b.delete uri = (b', .ok ()) ∧ Changed b b' key (.error .notFound) := by
  obtain ⟨b', done, data, tombstones, frame⟩ := delete_admitted valid running
  refine ⟨b', done, ?_, fun k other => ?_, fun k clear => ?_, frame⟩
  · rw [bodyAt, data, lookup_erase]
    rfl
  · rw [data, lookup_erase_ne other]
  · rw [tombstones, clear]

/-- An operation fails and leaves the backend, or succeeds and changes one key. For a URI that
validation leaves as it is and that no deletion reaches under another spelling, that key is `u` exactly
when the operation is given `u`. -/
theorem run_cases (running : b.closed = false) (normal : validateURI u = .ok u) (spelled : op.Spells u) :
    (∃ err, op.run sha256 b = (b, .error err)) ∨
      ∃ b' key answer, op.run sha256 b = (b', .ok ()) ∧ Changed b b' key answer ∧
        (op.uri = u → key = u ∧ MemoryOp.effect u (op, .ok ()) = some answer) ∧
        (op.uri ≠ u → u ≠ key) := by
  cases op with
  | put now uri r =>
    cases checked : b.checkWrite uri r with
    | error err =>
      refine .inl ⟨err, ?_⟩
      show b.put sha256 now uri r = (b, .error err)
      exact put_refused checked
    | ok body =>
      obtain ⟨b', done, changed⟩ := changed_of_put sha256 now checked
      exact .inr ⟨b', uri, r.readBody, done, changed, fun same => ⟨same, if_pos same⟩, Ne.symm⟩
  | delete uri =>
    cases valid : validateURI uri with
    | error err => exact .inl ⟨err, delete_refused valid⟩
    | ok key =>
      obtain ⟨b', done, changed⟩ := changed_of_delete valid running
      refine .inr ⟨b', key, _, done, changed, fun same => ⟨?_, if_pos same⟩, fun other => ?_⟩
      · have same : uri = u := same
        rw [same, normal] at valid
        exact (Except.ok.inj valid).symm
      · rintro rfl
        exact other (spelled valid)

theorem AnswersAs.step (h : AnswersAs u history b) (normal : validateURI u = .ok u) (spelled : op.Spells u) :
    AnswersAs u (history ++ [(op, (op.run sha256 b).2)]) (op.run sha256 b).1 := by
  obtain ⟨_, failed⟩ | ⟨b', _, _, done, changed, same, other⟩ :=
    run_cases sha256 h.running normal spelled
  · rw [failed]
    refine ⟨h.running, h.clear, ?_⟩
    rw [recorded_snoc, ← h.stored, MemoryOp.effect_failed]
    rfl
  · rw [done]
    refine ⟨changed.frame.closed.trans h.running, fun k => changed.tombstones k (h.clear k), ?_⟩
    rw [recorded_snoc, ← h.stored]
    show b'.bodyAt u = (MemoryOp.effect u (op, .ok ())).getD (b.bodyAt u)
    by_cases given : op.uri = u
    · obtain ⟨rfl, laid⟩ := same given
      rw [laid, changed.stored]
      rfl
    · rw [MemoryOp.effect_of_ne given, bodyAt, changed.elsewhere u (other given)]
      rfl

/-- An operation on another URI leaves what is stored under `u`. -/
theorem run_lookup_of_ne (running : b.closed = false)
    (normal : validateURI u = .ok u) (spelled : op.Spells u) (given : op.uri ≠ u) :
    (op.run sha256 b).1.data.lookup u = b.data.lookup u := by
  obtain ⟨_, failed⟩ | ⟨_, _, _, done, changed, -, other⟩ :=
    run_cases sha256 running normal spelled
  · rw [failed]
  · rw [done]
    exact changed.elsewhere u (other given)

theorem AnswersAs.get (h : AnswersAs u history b) (named : u ≠ []) :
    (b.get u).map Resource.body = recorded u history := by
  rw [get_eq h.running h.clear named, ← h.stored, bodyAt]
  cases b.data.lookup u <;> rfl

theorem AnswersAs.existsAt_iff (h : AnswersAs u history b) (normal : validateURI u = .ok u) :
    b.existsAt u = .ok true ↔ (b.get u).isOk = true := by
  rw [existsAt_eq h.running h.clear normal, get_eq h.running h.clear (ne_nil_of_normal normal)]
  cases b.data.lookup u with
  | none => decide
  | some m => exact iff_of_true rfl rfl

def answers (b : MemoryBackend) (u : Str) : Except StorageError Resource × Except StorageError Bool :=
  (b.get u, b.existsAt u)

/-- In a run of writes and deletions, the backend answers for `u` as a plain map: `Get` gives the body
of the last successful write that no successful deletion follows, `Exists` tells whether `Get` succeeds,
and operations on other URIs change neither. -/
structure ActsAsMap (sha256 : Str → Str) (ops : List MemoryOp) (u : Str) : Prop where
  get : ∀ before after, ops = before ++ after →
    ((Run.exec (MemoryOp.run sha256) newMemoryBackend before).get u).map Resource.body =
      recorded u (Run.trace (MemoryOp.run sha256) newMemoryBackend before)
  existence : ∀ before after, ops = before ++ after →
    ((Run.exec (MemoryOp.run sha256) newMemoryBackend before).existsAt u = .ok true ↔
      ((Run.exec (MemoryOp.run sha256) newMemoryBackend before).get u).isOk = true)
  frame : ∀ before op after, ops = before ++ op :: after → op.uri ≠ u →
    (op.run sha256 (Run.exec (MemoryOp.run sha256) newMemoryBackend before)).1.answers u =
      (Run.exec (MemoryOp.run sha256) newMemoryBackend before).answers u

/-- A URI that validation leaves as it is answers as in a plain map when no deletion reaches it under
another spelling. -/
theorem actsAsMap_of_spelled (sha256 : Str → Str) {ops : List MemoryOp} {u : Str}
    (normal : validateURI u = .ok u) (spelled : ∀ op ∈ ops, op.Spells u) :
    ActsAsMap sha256 ops u := by
  have follows : ∀ before after, ops = before ++ after →
      AnswersAs u (Run.trace (MemoryOp.run sha256) newMemoryBackend before)
        (Run.exec (MemoryOp.run sha256) newMemoryBackend before) := by
    apply Run.history_inv
    · exact ⟨rfl, fun _ => rfl, rfl⟩
    · intro before op after split h
      exact h.step sha256 normal (spelled op (by simp [split]))
  have named := ne_nil_of_normal normal
  refine ⟨fun before after split => ?_, fun before after split => ?_, ?_⟩
  · exact (follows before after split).get named
  · exact (follows before after split).existsAt_iff normal
  · intro before op after split other
    have h := follows before (op :: after) split
    have spelled := spelled op (by simp [split])
    have after := h.step sha256 normal spelled
    have kept := run_lookup_of_ne sha256 h.running normal spelled other
    unfold answers
    rw [get_eq after.running after.clear named, existsAt_eq after.running after.clear normal, kept,
      ← get_eq h.running h.clear named, ← existsAt_eq h.running h.clear normal]

def textResource (uri text : Str) : WriteResource := { uri, body := some text }

def plainRun : List MemoryOp :=
  [.put Time.zero "/notes/a" (textResource "/notes/a" "one"),
   .put Time.zero "/notes/a" (textResource "/notes/a" "two"), .delete "/notes/a"]

theorem actsAsMap_of_spelled_plain : validateURI (str "/notes/a") = .ok (str "/notes/a") ∧
      ActsAsMap (fun _ => []) plainRun (str "/notes/a") := by
  have normal : validateURI "/notes/a" = .ok "/notes/a" := by decide +kernel
  refine ⟨normal, actsAsMap_of_spelled (fun _ => []) normal ?_⟩
  intro op mem
  simp only [plainRun, List.mem_cons, List.not_mem_nil, or_false] at mem
  rcases mem with rfl | rfl | rfl
  · trivial
  · trivial
  · exact fun _ => rfl

/-- A web address is deleted where it is not stored, and the address of a container with its slash
deletes what is stored without it. -/
theorem not_actsAsMap_spellings : ¬ ActsAsMap (fun _ => [])
        [.put Time.zero "https://pod/x" (textResource "https://pod/x" "one"), .delete "https://pod/x"]
        (str "https://pod/x") ∧
      ¬ ActsAsMap (fun _ => [])
        [.put Time.zero "/box" (textResource "/box" "one"), .delete "/box/"] (str "/box") := by
  constructor
  · intro h
    have kept := h.get _ [] (List.append_nil _).symm
    revert kept
    decide +kernel
  · intro h
    have kept := h.frame [.put Time.zero "/box" _] _ [] rfl (by decide +kernel)
    revert kept
    decide +kernel

end MemoryBackend

end Storage
