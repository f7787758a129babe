import SolidSidecar.Go.Order
import SolidSidecar.Runtime.Storage

/-!
# Creating resources in containers

`CreateResource` of `container_operations.go` over the in-memory storage. A call takes one of 256 locks, chosen by
a hash of its container's address, asks whether the resource is there, stores it and reads it back. Calls run side
by side: each taking of a lock and each call of the storage is one step. A lock is given back in the step in which
the call returns.

Two calls create one resource at most once as long as they take the same lock. The address of the resource is made
from that of the container without its trailing slashes, so that containers which differ in these alone have
resources in common and locks that differ.
-/

namespace Runtime
open Go InMemoryStorageBackend GoMap List Strings

inductive ContainerError where
  | containerURI (cause : ValidationError)
  | notAbsolute
  | queryOrFragment
  | emptyName
  | pathSeparator
  | controlCharacter
  | unsafeName
  | notPathData
  | invalidURI (cause : ValidationError)
  | resourceValidation (cause : ValidationError)
  | storage (cause : StorageError)
  deriving DecidableEq, Repr

def withTrailingSlash (path : Str) : Str :=
  let path := if path = [] then str "/" else path
  if hasSuffix path "/" then path else path ++ "/"

def normalizeContainerURI (containerURI : Str) : Except ContainerError Str := do
  (validateURI containerURI).mapError .containerURI
  match Url.parse containerURI with
  | .error _ => .error .notAbsolute
  | .ok parsed => do
    refuse (parsed.scheme = [] ∨ parsed.host = []) .notAbsolute
    refuse (parsed.rawQuery ≠ [] ∨ parsed.fragment ≠ []) .queryOrFragment
    pure { parsed with path := withTrailingSlash parsed.path }.string

def validateResourceName (resourceName : Str) : Except ContainerError Unit := do
  refuse (resourceName = []) .emptyName
  refuse (contains resourceName "/" = true ∨ contains resourceName "\\" = true) .pathSeparator
  refuse ((runes resourceName).any control = true) .controlCharacter
  refuse (resourceName = "." ∨ resourceName = "..") .unsafeName
  let _ ← (Url.unescape .pathSegment resourceName).mapError fun _ => ContainerError.notPathData
  pure ()

def joinContainerResourceURI (containerURI resourceName : Str) : Str :=
  trimRight containerURI '/'.toUInt8 ++ "/" ++ Url.escape resourceName .pathSegment

def lockFor (containerURI : Str) : Fin 256 :=
  let h : UInt32 := containerURI.foldl (fun h b => (h ^^^ b.toUInt32) * 16777619) 2166136261
  Fin.ofNat 256 h.toNat

/-- A call of `CreateResource`, with the times that it reads and at which the storage keeps the resource. -/
structure CreateCall where
  containerURI : Str
  resourceName : Str
  resource : StorageResource
  now : Time
  storedAt : Time

/-- What the checks of a call come to: its lock and the address of its resource. -/
structure CreatePlan where
  lock : Fin 256
  resourceURI : Str
  deriving DecidableEq, Repr

namespace CreateCall

def plan (call : CreateCall) : Except ContainerError CreatePlan := do
  let containerURI ← normalizeContainerURI call.containerURI
  validateResourceName call.resourceName
  pure ⟨lockFor containerURI, joinContainerResourceURI containerURI call.resourceName⟩

def stored (call : CreateCall) (resourceURI : Str) : StorageResource :=
  let r := call.resource
  let contentType := if r.contentType = [] ∧ r.metadata.contentType ≠ [] then r.metadata.contentType else r.contentType
  { r with
    uri := resourceURI
    contentType
    lastModified := call.now
    metadata :=
      { r.metadata with
        contentType := if r.metadata.contentType = [] then contentType else r.metadata.contentType
        size := r.body.length
        created := if r.metadata.created.isZero then call.now else r.metadata.created
        lastModified := call.now } }

end CreateCall

namespace InMemoryStorageBackend

/-- `StorageAbstractionLayer.Exists`; no error of this backend is tried again. -/
def layerExists (m : InMemoryStorageBackend) (uri : Str) : Except ContainerError Bool := do
  (validateURI uri).mapError .invalidURI
  refuse (m.closed = true) (.storage closedError)
  pure (m.data.lookup uri).isSome

def layerPut (m : InMemoryStorageBackend) (now : Time) (uri : Str) (r : StorageResource) :
    InMemoryStorageBackend × Except ContainerError Unit :=
  match (validateURI uri).mapError ContainerError.invalidURI with
  | .error err => (m, .error err)
  | .ok () =>
    match (validateResourceSize r.body.length).mapError ContainerError.resourceValidation with
    | .error err => (m, .error err)
    | .ok () => ((m.put now uri r).1, (m.put now uri r).2.mapError .storage)

def layerGet (m : InMemoryStorageBackend) (uri : Str) : Except ContainerError StorageResource := do
  (validateURI uri).mapError .invalidURI
  (m.get uri).mapError .storage

end InMemoryStorageBackend

/-- Where a call is: before its lock, before `Exists`, before `Put`, before `Get`, or back. -/
inductive CreatePhase where
  | called
  | locked (p : CreatePlan)
  | absent (p : CreatePlan)
  | put (p : CreatePlan)
  | returned (result : Except ContainerError StorageResource)

variable {ι : Type} [DecidableEq ι]

/-- The service while calls run, each named by an `ι`. -/
structure CreateService (ι : Type) where
  storage : InMemoryStorageBackend
  holders : Fin 256 → Option ι
  phases : ι → CreatePhase

namespace CreateService

variable (calls : ι → CreateCall)

def start (storage : InMemoryStorageBackend) : CreateService ι := ⟨storage, fun _ => none, fun _ => .called⟩

def enter (s : CreateService ι) (i : ι) (phase : CreatePhase) : CreateService ι :=
  { s with phases := Function.update s.phases i phase }

def leave (s : CreateService ι) (i : ι) (p : CreatePlan) (result : Except ContainerError StorageResource) :
    CreateService ι :=
  { s.enter i (.returned result) with holders := Function.update s.holders p.lock none }

def existsStep (s : CreateService ι) (i : ι) (p : CreatePlan) : CreateService ι :=
  match s.storage.layerExists p.resourceURI with
  | .error err => s.leave i p (.error err)
  | .ok true => s.leave i p (.error (.storage (.httpError 409 "resource already exists")))
  | .ok false => s.enter i (.absent p)

def putStep (call : CreateCall) (s : CreateService ι) (i : ι) (p : CreatePlan) : CreateService ι :=
  let done := s.storage.layerPut call.storedAt p.resourceURI (call.stored p.resourceURI)
  match done.2 with
  | .error err => { s with storage := done.1 }.leave i p (.error err)
  | .ok () => { s with storage := done.1 }.enter i (.put p)

def lockStep (call : CreateCall) (s : CreateService ι) (i : ι) : CreateService ι :=
  match call.plan with
  | .error err => s.enter i (.returned (.error err))
  | .ok p =>
    match s.holders p.lock with
    | some _ => s
    | none => { s.enter i (.locked p) with holders := Function.update s.holders p.lock (some i) }

/-- The next step of one call; a call that waits for its lock, or is back, takes none. -/
def step (s : CreateService ι) (i : ι) : CreateService ι × Unit :=
  (match s.phases i with
    | .called => s.lockStep (calls i) i
    | .locked p => s.existsStep i p
    | .absent p => s.putStep (calls i) i p
    | .put p => s.leave i p (s.storage.layerGet p.resourceURI)
    | .returned _ => s, ())

def Succeeded (s : CreateService ι) (i : ι) (uri : Str) : Prop :=
  ∃ p r, (calls i).plan = .ok p ∧ p.resourceURI = uri ∧ s.phases i = .returned (.ok r)

structure Eligible (call : CreateCall) (p : CreatePlan) : Prop where
  planned : call.plan = .ok p
  uri : validateURI p.resourceURI = .ok ()
  size : validateResourceSize call.resource.body.length = .ok ()

inductive Effect (calls : ι → CreateCall) (s : CreateService ι) (i : ι) : CreateService ι → Prop
  | stays : Effect calls s i s
  | refused {err} (from' : s.phases i = .called) : Effect calls s i (s.enter i (.returned (.error err)))
  | locks {p} (from' : s.phases i = .called) (planned : (calls i).plan = .ok p) (free : s.holders p.lock = none) :
      Effect calls s i { s.enter i (.locked p) with holders := Function.update s.holders p.lock (some i) }
  | misses {p} (from' : s.phases i = .locked p) (missing : s.storage.data.lookup p.resourceURI = none) :
      Effect calls s i (s.enter i (.absent p))
  | fails {p err} (from' : s.phases i = .locked p ∨ s.phases i = .absent p) :
      Effect calls s i (s.leave i p (.error err))
  | stores {p r} {m : InMemoryStorageBackend} (from' : s.phases i = .absent p)
      (uri : validateURI p.resourceURI = .ok ())
      (size : validateResourceSize (calls i).resource.body.length = .ok ())
      (data : m.data = s.storage.data.insert p.resourceURI r) :
      Effect calls s i ({ s with storage := m }.enter i (.put p))
  | returns {p} (from' : s.phases i = .put p) (result : Except ContainerError StorageResource) :
      Effect calls s i (s.leave i p result)

theorem layerExists_eq_ok {m : InMemoryStorageBackend} {uri there}
    (found : m.layerExists uri = .ok there) : (m.data.lookup uri).isSome = there := by
  unfold layerExists at found
  rw [then_eq_ok, then_eq_ok] at found
  exact Except.ok.inj found.2.2

/-- `Put` stores and succeeds, or leaves the storage as it was. -/
theorem layerPut_cases (m : InMemoryStorageBackend) (now : Time) (uri : Str) (r : StorageResource) :
    (∃ err, m.layerPut now uri r = (m, .error err)) ∨
    (validateURI uri = .ok () ∧ validateResourceSize r.body.length = .ok () ∧ m.closed = false ∧
      m.layerPut now uri r = ({ m with data := m.data.insert uri { r with lastModified := now } }, .ok ())) := by
  unfold layerPut
  cases validateURI uri with
  | error err => exact .inl ⟨_, rfl⟩
  | ok _ =>
    cases validateResourceSize r.body.length with
    | error err => exact .inl ⟨_, rfl⟩
    | ok _ =>
      unfold put
      cases closed : m.closed with
      | true => exact .inl ⟨_, rfl⟩
      | false => exact .inr ⟨rfl, rfl, rfl, rfl⟩

theorem step_effect (s : CreateService ι) (i : ι) : Effect calls s i (s.step calls i).1 := by
  unfold step
  split
  · rename_i called
    unfold lockStep
    split
    · exact .refused called
    · rename_i p planned
      split
      · exact .stays
      · rename_i free
        exact .locks called planned free
  · rename_i p locked
    unfold existsStep
    split
    · exact .fails (.inl locked)
    · exact .fails (.inl locked)
    · rename_i missing
      exact .misses locked (Option.isSome_eq_false_iff.mp (layerExists_eq_ok missing) |> Option.isNone_iff_eq_none.mp)
  · rename_i p absent
    unfold putStep
    rcases layerPut_cases s.storage (calls i).storedAt p.resourceURI _ with
      ⟨_, failed⟩ | ⟨uri, size, -, done⟩
    · rw [failed]
      exact .fails (.inr absent)
    · rw [done]
      exact .stores absent uri size rfl
  · rename_i p put
    exact .returns put _
  · exact .stays

/-- The call has stored its resource, and may be back from it. -/
def Created (s : CreateService ι) (i : ι) (p : CreatePlan) : Prop :=
  Eligible (calls i) p ∧ (s.phases i = .put p ∨ ∃ r, s.phases i = .returned (.ok r))

/-- Calls that the storage lets through to the same resource take the same lock. -/
def SharedLocks : Prop :=
  ∀ i j p q, Eligible (calls i) p → Eligible (calls j) q → p.resourceURI = q.resourceURI → p.lock = q.lock

structure Sound (calls : ι → CreateCall) (s : CreateService ι) : Prop where
  held : ∀ i p, s.phases i = .locked p ∨ s.phases i = .absent p ∨ s.phases i = .put p →
    (calls i).plan = .ok p ∧ s.holders p.lock = some i
  missing : ∀ i p, s.phases i = .absent p → Eligible (calls i) p → s.storage.data.lookup p.resourceURI = none
  putBy : ∀ i p, s.phases i = .put p → Eligible (calls i) p
  returnedBy : ∀ i r, s.phases i = .returned (.ok r) → ∃ p, Eligible (calls i) p
  present : ∀ i p, Created calls s i p → (s.storage.data.lookup p.resourceURI).isSome = true
  unique : ∀ i j p q, Created calls s i p → Created calls s j q → p.resourceURI = q.resourceURI → i = j

variable (s : CreateService ι)

theorem phases_enter (i j : ι) (phase : CreatePhase) :
    (s.enter i phase).phases j = if j = i then phase else s.phases j :=
  Function.update_apply ..

theorem phases_leave (i j : ι) (p : CreatePlan) (result : Except ContainerError StorageResource) :
    (s.leave i p result).phases j = if j = i then .returned result else s.phases j :=
  s.phases_enter i j _

theorem holders_leave (i : ι) (p : CreatePlan) (result : Except ContainerError StorageResource)
    (n : Fin 256) : (s.leave i p result).holders n = if n = p.lock then none else s.holders n :=
  Function.update_apply ..

omit [DecidableEq ι] in
theorem sound_start (storage : InMemoryStorageBackend) : Sound calls (start storage : CreateService ι) where
  held i p at' := by rcases at' with at' | at' | at' <;> cases at'
  missing i p at' := nomatch at'
  putBy i p at' := nomatch at'
  returnedBy i r at' := nomatch at'
  present i p created := by rcases created.2 with at' | ⟨r, at'⟩ <;> cases at'
  unique i j p q created := by rcases created.2 with at' | ⟨r, at'⟩ <;> cases at'

namespace Sound

variable {calls : ι → CreateCall} {s : CreateService ι} {i : ι}

omit [DecidableEq ι] in
theorem lock_ne (sound : Sound calls s) {j : ι} (other : j ≠ i) {p q : CreatePlan} (holder : s.holders p.lock = some i)
    (at' : s.phases j = .locked q ∨ s.phases j = .absent q ∨ s.phases j = .put q) : q.lock ≠ p.lock := by
  intro same
  have holds := (sound.held j q at').2
  rw [same, holder] at holds
  exact other (Option.some.inj holds).symm

/-- A call that enters a phase before `Put`, or is refused, creates nothing. -/
theorem created_enter {phase} (early : (∀ p, phase ≠ .put p) ∧ ∀ r, phase ≠ .returned (.ok r)) {j p} (created : Created calls (s.enter i phase) j p) : Created calls s j p := by
  obtain ⟨eligible, at'⟩ := created
  rw [phases_enter] at at'
  split_ifs at at'
  · rcases at' with put | ⟨r, returned⟩
    · exact absurd put (early.1 p)
    · exact absurd returned (early.2 r)
  · exact ⟨eligible, at'⟩

section

variable (sound : Sound calls s)

include sound

/-- A phase before `Put` in which the storage stays as it is. -/
theorem enter {phase holders} (early : (∀ p, phase ≠ .put p) ∧ ∀ r, phase ≠ .returned (.ok r))
    (held : ∀ j p, (s.enter i phase).phases j = .locked p ∨ (s.enter i phase).phases j = .absent p ∨
      (s.enter i phase).phases j = .put p → (calls j).plan = .ok p ∧ holders p.lock = some j)
    (missing : ∀ p, phase = .absent p → s.storage.data.lookup p.resourceURI = none) :
    Sound calls { s.enter i phase with holders := holders } := by
  refine ⟨held, fun j p at' eligible => ?_, fun j p at' => ?_, fun j r at' => ?_, fun j p created => ?_,
    fun j k p q created created' same => ?_⟩
  · rw [phases_enter] at at'
    split_ifs at at'
    · exact missing p at'
    · exact sound.missing j p at' eligible
  · rw [phases_enter] at at'
    split_ifs at at'
    · exact absurd at' (early.1 p)
    · exact sound.putBy j p at'
  · rw [phases_enter] at at'
    split_ifs at at'
    · exact absurd at' (early.2 r)
    · exact sound.returnedBy j r at'
  · exact sound.present j p (created_enter early created)
  · exact sound.unique j k p q (created_enter early created) (created_enter early created') same

/-- What the others hold is not affected by the return of a call. -/
theorem held_leave {p} (holder : s.holders p.lock = some i)
    (result : Except ContainerError StorageResource) (j : ι) (q : CreatePlan)
    (at' : (s.leave i p result).phases j = .locked q ∨ (s.leave i p result).phases j = .absent q ∨
      (s.leave i p result).phases j = .put q) :
    (calls j).plan = .ok q ∧ (s.leave i p result).holders q.lock = some j := by
  rw [phases_leave] at at'
  split_ifs at at' with here
  · rcases at' with at' | at' | at' <;> cases at'
  · rw [holders_leave, if_neg (sound.lock_ne here holder at')]
    exact sound.held j q at'

theorem fails {p} (err : ContainerError)
    (from' : s.phases i = .locked p ∨ s.phases i = .absent p) : Sound calls (s.leave i p (.error err)) := by
  have holder := (sound.held i p (from'.imp_right .inl)).2
  exact sound.enter ⟨nofun, nofun⟩ (sound.held_leave holder (.error err)) nofun

theorem locks {p} (planned : (calls i).plan = .ok p) (free : s.holders p.lock = none) :
    Sound calls { s.enter i (.locked p) with holders := Function.update s.holders p.lock (some i) } := by
  refine sound.enter ⟨nofun, nofun⟩ (fun j q at' => ?_) nofun
  rw [phases_enter] at at'
  rw [Function.update_apply]
  split_ifs at at' with here
  · rcases at' with at' | at' | at' <;> cases at'
    rw [if_pos rfl, here]
    exact ⟨planned, rfl⟩
  · have holds := sound.held j q at'
    rw [if_neg]
    · exact holds
    · intro same
      rw [same, free] at holds
      cases holds.2

theorem misses {p} (from' : s.phases i = .locked p)
    (missing : s.storage.data.lookup p.resourceURI = none) : Sound calls (s.enter i (.absent p)) := by
  refine sound.enter ⟨nofun, nofun⟩ (fun j q at' => ?_) fun q same => ?_
  · rw [phases_enter] at at'
    split_ifs at at' with here
    · rcases at' with at' | at' | at' <;> cases at'
      rw [here]
      exact sound.held i p (.inl from')
    · exact sound.held j q at'
  · cases same
    exact missing

/-- `Put`: the resource was missing, and nobody else stores it meanwhile. -/
theorem stores (shared : SharedLocks calls) {p r}
    {m : InMemoryStorageBackend} (from' : s.phases i = .absent p) (eligible : Eligible (calls i) p)
    (data : m.data = s.storage.data.insert p.resourceURI r) :
    Sound calls ({ s with storage := m }.enter i (.put p)) := by
  have holder := (sound.held i p (.inr (.inl from'))).2
  have absent := sound.missing i p from' eligible
  have earlier {j q} (created : Created calls ({ s with storage := m }.enter i (.put p)) j q) :
      j = i ∧ q = p ∨ Created calls s j q := by
    obtain ⟨able, at'⟩ := created
    rw [phases_enter] at at'
    split_ifs at at' with here
    · subst here
      exact .inl ⟨rfl, Except.ok.inj (able.planned.symm.trans eligible.planned)⟩
    · exact .inr ⟨able, at'⟩
  -- whoever has created the resource before would have been seen
  have unseen {j q} (created : Created calls s j q) : q.resourceURI ≠ p.resourceURI := by
    intro uri
    have there := sound.present j q created
    rw [uri, absent] at there
    cases there
  refine ⟨fun j q at' => ?_, fun j q at' other => ?_, fun j q at' => ?_, fun j r at' => ?_, fun j q created => ?_,
    fun j k q q' created created' uri => ?_⟩
  · rw [phases_enter] at at'
    split_ifs at at' with here
    · rcases at' with at' | at' | at' <;> cases at'
      rw [here]
      exact ⟨eligible.planned, holder⟩
    · exact sound.held j q at'
  · rw [phases_enter] at at'
    split_ifs at at' with here
    have apart : q.resourceURI ≠ p.resourceURI := fun uri =>
      sound.lock_ne here holder (.inr (.inl at')) (shared j i q p other eligible uri)
    change m.data.lookup q.resourceURI = none
    rw [data, lookup_insert_eq, if_neg apart]
    exact sound.missing j q at' other
  · rw [phases_enter] at at'
    split_ifs at at' with here
    · cases at'
      exact here ▸ eligible
    · exact sound.putBy j q at'
  · rw [phases_enter] at at'
    split_ifs at at'
    exact sound.returnedBy j r at'
  · change (m.data.lookup q.resourceURI).isSome = true
    rw [data, lookup_insert_eq]
    split_ifs with uri
    · rfl
    · rcases earlier created with ⟨-, rfl⟩ | created
      · exact absurd rfl uri
      · exact sound.present j q created
  · rcases earlier created with ⟨rfl, rfl⟩ | old
    · rcases earlier created' with ⟨rfl, -⟩ | old
      · rfl
      · exact absurd uri.symm (unseen old)
    · rcases earlier created' with ⟨rfl, rfl⟩ | old'
      · exact absurd uri (unseen old)
      · exact sound.unique j k q q' old old' uri

theorem returns {p} (from' : s.phases i = .put p)
    (result : Except ContainerError StorageResource) : Sound calls (s.leave i p result) := by
  have holds := sound.held i p (.inr (.inr from'))
  have eligible := sound.putBy i p from'
  have earlier {j q} (created : Created calls (s.leave i p result) j q) : Created calls s j q := by
    obtain ⟨able, at'⟩ := created
    rw [phases_leave] at at'
    by_cases here : j = i
    · subst here
      have same : q = p := Except.ok.inj (able.planned.symm.trans holds.1)
      exact ⟨able, .inl (same ▸ from')⟩
    · rw [if_neg here] at at'
      exact ⟨able, at'⟩
  refine ⟨sound.held_leave holds.2 result, fun j q at' => ?_, fun j q at' => ?_, fun j r at' => ?_,
    fun j q created => sound.present j q (earlier created),
    fun j k q q' created created' => sound.unique j k q q' (earlier created) (earlier created')⟩
  · rw [phases_leave] at at'
    split_ifs at at'
    exact sound.missing j q at'
  · rw [phases_leave] at at'
    split_ifs at at'
    exact sound.putBy j q at'
  · rw [phases_leave] at at'
    split_ifs at at' with here
    · exact ⟨p, here ▸ eligible⟩
    · exact sound.returnedBy j r at'

theorem step (shared : SharedLocks calls) (i : ι) : Sound calls (s.step calls i).1 := by
  have effect := step_effect calls s i
  generalize (s.step calls i).1 = next at effect ⊢
  cases effect with
  | stays => exact sound
  | refused from' =>
    refine sound.enter ⟨nofun, nofun⟩ (fun j q at' => ?_) nofun
    rw [phases_enter] at at'
    split_ifs at at'
    · rcases at' with at' | at' | at' <;> cases at'
    · exact sound.held j q at'
  | locks from' planned free => exact sound.locks planned free
  | misses from' missing => exact sound.misses from' missing
  | fails from' => exact sound.fails _ from'
  | stores from' uri size data =>
    exact sound.stores shared from' ⟨(sound.held i _ (.inr (.inl from'))).1, uri, size⟩ data
  | returns from' result => exact sound.returns from' result

end

end Sound

/-- However the calls are scheduled and whatever is stored before, at most one of them creates a resource. -/
def Exclusive : Prop :=
  ∀ (storage : InMemoryStorageBackend) (schedule : List ι) (i j : ι) (uri : Str),
    Succeeded calls (Run.exec (step calls) (start storage) schedule) i uri →
    Succeeded calls (Run.exec (step calls) (start storage) schedule) j uri → i = j

theorem SharedLocks.exclusive {calls : ι → CreateCall} (shared : SharedLocks calls) : Exclusive calls := by
  rintro storage schedule i j _ ⟨p, r, planned, same, back⟩ ⟨q, r', planned', same', back'⟩
  have sound := @Run.exec_inv _ _ _ (step calls) (start storage) (Sound calls)
    (fun s i sound => sound.step shared i) (sound_start calls storage) schedule
  obtain ⟨_, eligible⟩ := sound.returnedBy i r back
  obtain ⟨_, eligible'⟩ := sound.returnedBy j r' back'
  cases planned.symm.trans eligible.planned
  cases planned'.symm.trans eligible'.planned
  exact sound.unique i j p q ⟨eligible, .inr ⟨r, back⟩⟩ ⟨eligible', .inr ⟨r', back'⟩⟩ (same.trans same'.symm)

section Race

variable {calls : ι → CreateCall} {s : CreateService ι} {i : ι} {p : CreatePlan}

theorem step_lock (at' : s.phases i = .called) (planned : (calls i).plan = .ok p) (free : s.holders p.lock = none) :
    (s.step calls i).1 = { s.enter i (.locked p) with holders := Function.update s.holders p.lock (some i) } := by
  unfold step lockStep
  simp [at', planned, free]

theorem step_exists (at' : s.phases i = .locked p) (valid : validateURI p.resourceURI = .ok ())
    (isOpen : s.storage.closed = false) (missing : s.storage.data.lookup p.resourceURI = none) :
    (s.step calls i).1 = s.enter i (.absent p) := by
  have answer : s.storage.layerExists p.resourceURI = .ok false := by
    unfold layerExists
    rw [valid, isOpen, missing]
    rfl
  unfold step existsStep
  simp [at', answer]

theorem step_put (at' : s.phases i = .absent p) (eligible : Eligible (calls i) p) (isOpen : s.storage.closed = false) :
    ∃ m, m.closed = false ∧ (m.data.lookup p.resourceURI).isSome = true ∧
      (s.step calls i).1 = { s with storage := m }.enter i (.put p) := by
  rcases layerPut_cases s.storage (calls i).storedAt p.resourceURI _ with
    ⟨_, failed⟩ | ⟨uri, size, -, done⟩
  · unfold layerPut at failed
    have size : validateResourceSize ((calls i).stored p.resourceURI).body.length = .ok () := eligible.size
    rw [eligible.uri, size, put, if_neg (by simp [isOpen])] at failed
    cases (Prod.mk.inj failed).2
  · let r := { (calls i).stored p.resourceURI with lastModified := (calls i).storedAt }
    refine ⟨{ s.storage with data := s.storage.data.insert p.resourceURI r }, isOpen, ?_, ?_⟩
    · rw [lookup_insert_eq, if_pos rfl]
      rfl
    · unfold step putStep
      simp only [at', done]
      rfl

theorem step_get (at' : s.phases i = .put p) (valid : validateURI p.resourceURI = .ok ())
    (isOpen : s.storage.closed = false) {r} (there : s.storage.data.lookup p.resourceURI = some r) :
    (s.step calls i).1 = s.leave i p (.ok r) := by
  have answer : s.storage.layerGet p.resourceURI = .ok r := by
    unfold layerGet InMemoryStorageBackend.get
    rw [valid, isOpen, there]
    rfl
  unfold step
  simp [at', answer]

/-- Where two calls are, and whether their resource is stored. -/
structure Pair (s : CreateService ι) (i j : ι) (a b : CreatePhase) (uri : Str) (there : Bool) : Prop where
  first : s.phases i = a
  second : s.phases j = b
  isOpen : s.storage.closed = false
  stored : (s.storage.data.lookup uri).isSome = there

namespace Pair

variable {j : ι} {a b : CreatePhase} {uri : Str} {there : Bool}

omit [DecidableEq ι] in
theorem swap (pair : Pair s i j a b uri there) : Pair s j i b a uri there :=
  ⟨pair.second, pair.first, pair.isOpen, pair.stored⟩

theorem enter (pair : Pair s i j a b uri there) (apart : j ≠ i) (phase : CreatePhase) :
    Pair (s.enter i phase) i j phase b uri there where
  first := by rw [phases_enter, if_pos rfl]
  second := by rw [phases_enter, if_neg apart, pair.second]
  isOpen := pair.isOpen
  stored := pair.stored

theorem exists_step (pair : Pair s i j (.locked p) b uri false) (apart : j ≠ i) (eligible : Eligible (calls i) p)
    (named : p.resourceURI = uri) : Pair (s.step calls i).1 i j (.absent p) b uri false := by
  have missing : s.storage.data.lookup p.resourceURI = none := by
    rw [named]
    simpa using pair.stored
  rw [step_exists pair.first eligible.uri pair.isOpen missing]
  exact pair.enter apart _

theorem put_step (pair : Pair s i j (.absent p) b uri there) (apart : j ≠ i) (eligible : Eligible (calls i) p)
    (named : p.resourceURI = uri) : Pair (s.step calls i).1 i j (.put p) b uri true := by
  obtain ⟨m, isOpen, stored, done⟩ := step_put pair.first eligible pair.isOpen
  rw [done]
  have pair' : Pair { s with storage := m } i j (.absent p) b uri true :=
    ⟨pair.first, pair.second, isOpen, named ▸ stored⟩
  exact pair'.enter apart _

theorem get_step (pair : Pair s i j (.put p) b uri true) (apart : j ≠ i) (eligible : Eligible (calls i) p)
    (named : p.resourceURI = uri) : ∃ r, Pair (s.step calls i).1 i j (.returned (.ok r)) b uri true := by
  obtain ⟨r, there⟩ := Option.isSome_iff_exists.mp pair.stored
  refine ⟨r, ?_⟩
  rw [step_get pair.first eligible.uri pair.isOpen (named ▸ there)]
  exact { pair.enter apart _ with }

end Pair

end Race

/-- Two calls with different locks both find the resource missing, and both create it. -/
theorem both_succeed {calls : ι → CreateCall} {i j p q} (first : Eligible (calls i) p)
    (second : Eligible (calls j) q) (uri : p.resourceURI = q.resourceURI) (locks : p.lock ≠ q.lock) :
    i ≠ j ∧ Succeeded calls (Run.exec (step calls) (start {}) [i, j, i, j, i, j, i, j]) i q.resourceURI ∧
    Succeeded calls (Run.exec (step calls) (start {}) [i, j, i, j, i, j, i, j]) j q.resourceURI := by
  have apart : j ≠ i := by
    rintro rfl
    cases first.planned.symm.trans second.planned
    exact locks rfl
  have lockI : (step calls (start {}) i).1 = _ := step_lock rfl first.planned rfl
  have pair₁ : Pair (step calls (start {}) i).1 i j (.locked p) .called q.resourceURI false := by
    rw [lockI]
    have begun : Pair (start {}) i j .called .called q.resourceURI false := ⟨rfl, rfl, rfl, rfl⟩
    exact { begun.enter apart (.locked p) with }
  have pair₂ : Pair (step calls (step calls (start {}) i).1 j).1 i j (.locked p) (.locked q) q.resourceURI false := by
    have free : (step calls (start {}) i).1.holders q.lock = none := by
      rw [lockI]
      exact (Function.update_apply ..).trans (if_neg locks.symm)
    rw [step_lock pair₁.second second.planned free]
    exact { (pair₁.swap.enter apart.symm (.locked q)).swap with }
  have pair₄ := ((pair₂.exists_step apart first uri).swap.exists_step apart.symm second rfl).swap
  have pair₆ := ((pair₄.put_step apart first uri).swap.put_step apart.symm second rfl).swap
  obtain ⟨r, pair₇⟩ := pair₆.get_step apart first uri
  obtain ⟨r', pair₈⟩ := pair₇.swap.get_step apart.symm second rfl
  exact ⟨apart.symm, ⟨p, r, first.planned, uri, pair₈.second⟩, ⟨q, r', second.planned, rfl, pair₈.first⟩⟩

/-- Creation is exclusive exactly where calls for one resource take one lock. -/
theorem exclusive_iff_sharedLocks : Exclusive calls ↔ SharedLocks calls := by
  refine ⟨fun exclusive i j p q first second uri => ?_, SharedLocks.exclusive⟩
  by_contra locks
  obtain ⟨apart, succeeds, succeeds'⟩ := both_succeed first second uri locks
  exact apart (exclusive {} _ i j _ succeeds succeeds')

/-- One resource named through a container that is spelled with one slash and with two. -/
def spellings : Bool → CreateCall
  | false => ⟨"https://h/c/", "n", {}, .zero, .zero⟩
  | true => ⟨"https://h/c//", "n", {}, .zero, .zero⟩

theorem spellings_not_exclusive : ¬Exclusive spellings := by
  intro exclusive
  have planned : (spellings false).plan = .ok ⟨lockFor "https://h/c/", "https://h/c/n"⟩ := by decide +kernel
  have planned' : (spellings true).plan = .ok ⟨lockFor "https://h/c//", "https://h/c/n"⟩ := by decide +kernel
  have valid : validateURI "https://h/c/n" = .ok () := by decide +kernel
  have locks : lockFor "https://h/c/" ≠ lockFor "https://h/c//" := by decide +kernel
  obtain ⟨apart, succeeds, succeeds'⟩ := both_succeed ⟨planned, valid, rfl⟩ ⟨planned', valid, rfl⟩ rfl locks
  exact apart (exclusive {} _ _ _ _ succeeds succeeds')

end CreateService

/-! ## Listing members

`List` filters by the key of an entry, `ListMembers` by the URI in it. -/

def isDirectContainerMember (containerURI resourceURI : Str) : Bool :=
  match normalizeContainerURI containerURI with
  | .error _ => false
  | .ok containerURI =>
    let remainder := resourceURI.drop containerURI.length
    (validateURI resourceURI).isOk && hasPrefix resourceURI containerURI && resourceURI ≠ containerURI &&
      remainder ≠ [] && !contains (trimSuffix remainder "/") "/"

namespace InMemoryStorageBackend

variable {m : InMemoryStorageBackend}

def listed (m : InMemoryStorageBackend) (order : RangeOrder (Str × StorageResource)) (containerURI : Str) :
    List StorageResource :=
  ((order.visit m.data.pairs).filter fun entry => hasPrefix entry.1 containerURI).map Prod.snd

def list (m : InMemoryStorageBackend) (order : RangeOrder (Str × StorageResource)) (containerURI : Str) :
    Except StorageError (List StorageResource) := do
  refuse (m.closed = true) closedError
  pure (m.listed order containerURI)

def listMembers (m : InMemoryStorageBackend) (order : RangeOrder (Str × StorageResource)) (containerURI : Str) :
    Except ContainerError (List StorageResource) := do
  let containerURI ← normalizeContainerURI containerURI
  (validateURI containerURI).mapError .invalidURI
  let members ← (m.list order containerURI).mapError .storage
  let seen := GoMap.ofPairs ((members.filter fun member =>
    member.uri ≠ containerURI && isDirectContainerMember containerURI member.uri).map fun member => (member.uri, member))
  pure (seen.sortedKeys.filterMap seen.lookup)

inductive WriteStep where
  | put (now : Time) (uri : Str) (r : StorageResource)
  | delete (uri : Str)

def writeStep (m : InMemoryStorageBackend) : WriteStep → InMemoryStorageBackend × Except StorageError Unit
  | .put now uri r => m.put now uri r
  | .delete uri => m.delete uri

/-- The resources under the keys that are direct members, in the order of the keys. -/
def members (m : InMemoryStorageBackend) (containerURI : Str) : List StorageResource :=
  let direct := m.data.filter fun key _ => isDirectContainerMember containerURI key
  direct.sortedKeys.filterMap direct.lookup

def WriteStep.Named : WriteStep → Prop
  | .put _ uri r => r.uri = uri
  | .delete _ => True

def Keyed (m : InMemoryStorageBackend) : Prop := m.closed = false ∧ ∀ key r, m.data.lookup key = some r → r.uri = key

theorem Keyed.step (keyed : m.Keyed) {i} (named : i.Named) : (m.writeStep i).1.Keyed := by
  obtain ⟨isOpen, own⟩ := keyed
  cases i with
  | put now uri r =>
    simp only [writeStep, put, isOpen, Bool.false_eq_true, if_false]
    refine ⟨rfl, fun key r' found => ?_⟩
    rw [lookup_insert_eq] at found
    split_ifs at found with same
    · cases found
      exact named.trans same.symm
    · exact own key r' found
  | delete uri =>
    simp only [writeStep, delete, isOpen, Bool.false_eq_true, if_false]
    refine ⟨rfl, fun key r' found => ?_⟩
    rw [lookup_erase_eq] at found
    split_ifs at found
    exact own key r' found

theorem Keyed.mem_listed (keyed : m.Keyed) {order c key r} :
    r ∈ m.listed order c ∧ r.uri = key ↔ m.data.lookup key = some r ∧ hasPrefix key c = true := by
  simp only [listed, mem_map, mem_filter, order.mem_visit, Prod.exists, mem_pairs]
  constructor
  · rintro ⟨⟨key, _, ⟨found, starts⟩, rfl⟩, rfl⟩
    rw [keyed.2 _ _ found]
    exact ⟨found, starts⟩
  · rintro ⟨found, starts⟩
    exact ⟨⟨key, r, ⟨found, starts⟩, rfl⟩, keyed.2 _ _ found⟩

theorem Keyed.nodup_listed (keyed : m.Keyed) (order : RangeOrder (Str × StorageResource))
    (c : Str) : ((m.listed order c).map StorageResource.uri).Nodup := by
  have keys : (order.visit m.data.pairs).map _ = (order.visit m.data.pairs).map Prod.fst :=
    map_congr_left fun entry mem => keyed.2 _ _ (GoMap.mem_pairs.mp (order.mem_visit.mp mem))
  have nodup := ((order.perm m.data.pairs).map Prod.fst).nodup_iff.mpr m.data.pairs_nodup_keys
  rw [← keys] at nodup
  rw [listed, map_map]
  exact nodup.sublist (List.filter_sublist.map _)

/-- Where every entry is under its own URI, the URIs of the listed resources are their keys. -/
theorem Keyed.listMembers (keyed : m.Keyed) {c}
    (normalized : normalizeContainerURI c = .ok c) (order : RangeOrder (Str × StorageResource)) :
    m.listMembers order c = .ok (m.members c) := by
  have valid : (validateURI c).mapError ContainerError.invalidURI = .ok () := by
    simp only [normalizeContainerURI, then_eq_ok, mapError_eq_ok] at normalized
    rw [normalized.1]
    rfl
  have list : (m.list order c).mapError ContainerError.storage = .ok (m.listed order c) := by
    simp only [list, keyed.1]
    rfl
  let keep : StorageResource → Bool := fun member => member.uri ≠ c && isDirectContainerMember c member.uri
  let seen := ofPairs (((m.listed order c).filter keep).map fun member => (member.uri, member))
  have same : seen.lookup = (m.data.filter fun key _ => isDirectContainerMember c key).lookup := by
    funext key
    ext r
    have distinct : ((((m.listed order c).filter keep).map fun member => (member.uri, member)).map Prod.fst).Nodup := by
      rw [map_map]
      exact (keyed.nodup_listed order c).sublist (List.filter_sublist.map _)
    have direct : isDirectContainerMember c key = true → hasPrefix key c = true ∧ key ≠ c := by
      simp only [isDirectContainerMember, normalized, Bool.and_eq_true, decide_eq_true_eq]
      tauto
    rw [lookup_ofPairs distinct, lookup_filter, Option.filter_eq_some_iff]
    simp only [mem_map, mem_filter, keep, Prod.mk.injEq, Bool.and_eq_true, decide_eq_true_eq]
    constructor
    · rintro ⟨_, ⟨mem, -, is⟩, rfl, rfl⟩
      exact ⟨(keyed.mem_listed.mp ⟨mem, rfl⟩).1, is⟩
    · rintro ⟨found, is⟩
      obtain ⟨mem, rfl⟩ := keyed.mem_listed.mpr ⟨found, (direct is).1⟩
      exact ⟨r, ⟨mem, (direct is).2, is⟩, rfl, rfl⟩
  refine bind_eq_ok.mpr ⟨c, normalized, then_eq_ok.mpr ⟨valid, bind_eq_ok.mpr ⟨_, list, ?_⟩⟩⟩
  change Except.ok _ = _
  rw [sortedKeys_congr (congrFun same), same]
  rfl

/-- After a run that puts every resource under its own URI, a listing gives the direct members in order. -/
theorem listMembers_of_named (inputs : List WriteStep) (named : ∀ i ∈ inputs, i.Named) (c : Str)
    (normalized : normalizeContainerURI c = .ok c) (order : RangeOrder (Str × StorageResource)) :
    (Run.exec writeStep {} inputs).listMembers order c = .ok ((Run.exec writeStep {} inputs).members c) := by
  have start : Keyed {} := ⟨rfl, nofun⟩
  have keyed := @Run.run_inv _ _ _ writeStep {} Keyed inputs start fun before i after split keyed =>
    keyed.step (named i (split ▸ by simp))
  exact (keyed inputs [] (append_nil inputs).symm).listMembers normalized order

def sampleWrite (key uri : String) : WriteStep := .put .zero (str key) { uri := str uri }

/-- Of four resources under the container, the two that are its direct members are listed, in order. -/
theorem listMembers_of_named_sample :
    (Run.exec writeStep {} [sampleWrite "https://h/c/b" "https://h/c/b", sampleWrite "https://h/c/d/e" "https://h/c/d/e",
        sampleWrite "https://h/c/" "https://h/c/", sampleWrite "https://h/c/a" "https://h/c/a"]).listMembers default
      (str "https://h/c/") = .ok [{ uri := str "https://h/c/a" }, { uri := str "https://h/c/b" }] :=
  (listMembers_of_named _ (by simp [sampleWrite, WriteStep.Named]) _ (by decide +kernel) _).trans (by decide +kernel)

/-- A resource that is put with another URI in it is not listed. -/
theorem unnamed_not_listed :
    let backend := Run.exec writeStep {} [sampleWrite "https://h/c/a" "https://h/b"]
    backend.listMembers default (str "https://h/c/") = .ok [] ∧
      backend.members (str "https://h/c/") = [{ uri := str "https://h/b" }] := by
  decide +kernel

end InMemoryStorageBackend

end Runtime
