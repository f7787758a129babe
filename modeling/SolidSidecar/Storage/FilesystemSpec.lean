import SolidSidecar.Storage.FilesystemPaths

/-!
# What the methods of the filesystem backend do

Each method is described by what it leaves at the places of the disk and in the maps in memory. A read
leaves everything as it was but for the log of the paths it used.
-/

namespace Storage
open Go Filepath Json Rfc3339 Run Proc Disk

namespace Site

variable (site : Site)

def bodyLoc (uri : Str) : Loc := site.sys.locate (site.uriToPath uri)

def metaLoc (uri : Str) : Loc := site.sys.locate (site.metadataPath uri)

def dirLoc (uri : Str) : Loc := site.sys.locate (dir (site.uriToPath uri))

def quotaLoc (storageRoot : Str) : Loc := site.sys.locate (site.quotaPath storageRoot)

def rootLoc : Loc := site.sys.locate site.rootPath

variable {site} {uri : Str}

theorem isName_bodyLoc : ∀ c ∈ site.bodyLoc uri, IsName c := site.sys.isName_locate _

theorem isName_metaLoc : ∀ c ∈ site.metaLoc uri, IsName c := site.sys.isName_locate _

theorem isName_dirLoc : ∀ c ∈ site.dirLoc uri, IsName c := site.sys.isName_locate _

theorem isName_quotaLoc {storageRoot} : ∀ c ∈ site.quotaLoc storageRoot, IsName c :=
  site.sys.isName_locate _

end Site

namespace FilesystemBackend

variable {α β : Type}

def node (b : FilesystemBackend) (loc : Loc) : Option Node := b.machine.disk.node loc

structure Reads (b b' : FilesystemBackend) : Prop where
  disk : b'.machine.disk = b.machine.disk
  quotaUsage : b'.quotaUsage = b.quotaUsage
  tombstones : b'.tombstones = b.tombstones
  closed : b'.closed = b.closed

theorem Reads.refl (b : FilesystemBackend) : Reads b b := ⟨rfl, rfl, rfl, rfl⟩

theorem Reads.trans (b b' b'' : FilesystemBackend) (first : Reads b b') (second : Reads b' b'') : Reads b b'' :=
  ⟨second.disk.trans first.disk, second.quotaUsage.trans first.quotaUsage,
    second.tombstones.trans first.tombstones, second.closed.trans first.closed⟩

variable {b b' : FilesystemBackend}

theorem Reads.node (reads : Reads b b') (loc : Loc) : b'.node loc = b.node loc := by
  unfold FilesystemBackend.node
  rw [reads.disk]

theorem reads_os {call : Machine → α × Machine} (kept : ∀ m, (call m).2.disk = m.disk) :
    Steps Reads (os call) :=
  fun b => ⟨kept b.machine, rfl, rfl, rfl⟩

section Preconditions

variable [Unicode]

theorem reads_checkPreconditions (site : Site) (uri : Str) (p : WritePrecondition) :
    Steps Reads (checkPreconditions site uri p) := by
  unfold checkPreconditions
  split
  · exact Steps.pure Reads.refl _
  · apply Steps.bind Reads.trans
    · apply Steps.bind Reads.trans (Steps.read Reads.refl _)
      intro gone
      split
      · exact Steps.pure Reads.refl _
      · apply Steps.bind Reads.trans (reads_os fun _ => rfl)
        intro found
        split
        · exact Steps.pure Reads.refl _
        · exact Steps.fail Reads.refl _
        · apply Steps.bind Reads.trans (reads_os fun _ => rfl)
          intro text
          split <;> exact Steps.pure Reads.refl _
    · intro current
      apply Steps.bind Reads.trans (Steps.of Reads.refl _)
      exact fun _ => Steps.of Reads.refl _

end Preconditions

theorem os_apply (call : Machine → α × Machine) (b : FilesystemBackend) :
    os call b = (.ok (call b.machine).1, { b with machine := (call b.machine).2 }) := rfl

theorem os_bind_apply (call : Machine → α × Machine) (f : α → Fs β) (b : FilesystemBackend) :
    (os call >>= f) b = f (call b.machine).1 { b with machine := (call b.machine).2 } := rfl

theorem isTombstoned_apply (uri : Str) (b : FilesystemBackend) :
    isTombstoned uri b = (.ok (b.tombstones.lookup uri).isSome, b) := rfl

theorem orFail_bind_eq_ok {format result} {f : α → Fs β} {v} :
    (orFail format result >>= f) b = (.ok v, b') ↔ ∃ a, result = .ok a ∧ f a b = (.ok v, b') := by
  have whole : orFail format result = of (result.mapError (.os format)) := by cases result <;> rfl
  rw [whole, of_bind_eq_ok]
  simp

theorem checked_bind_eq_ok {result} {f : α → Fs β} {v} :
    (checked result >>= f) b = (.ok v, b') ↔ ∃ a, result = .ok a ∧ f a b = (.ok v, b') := by
  rw [checked, of_bind_eq_ok]
  simp

theorem checkClosed_bind_eq_ok {f : Unit → Fs β} {v} :
    (checkClosed >>= f) b = (.ok v, b') ↔ b.closed = false ∧ f () b = (.ok v, b') := by
  cases closed : b.closed with
  | true =>
    have failed : checkClosed b = (.error (.storage .storageClosed), b) := by rw [checkClosed, closed]; rfl
    rw [bind_of_error failed]
    simp
  | false =>
    have passed : checkClosed b = (.ok (), b) := by rw [checkClosed, closed]; rfl
    rw [bind_of_ok passed]
    simp

theorem refuse_bind_eq_ok {bad} [Decidable bad] {err} {f : Unit → Fs β} {v} :
    (of (refuse bad err) >>= f) b = (.ok v, b') ↔ ¬ bad ∧ f () b = (.ok v, b') := by
  rw [of_bind_eq_ok]
  simp [Unique.exists_iff]

section Calls

variable {site : Site} {b : FilesystemBackend} {path data : Str} {time : Time}

theorem readFile_of_file (here : b.node (site.sys.locate path) = some (.file data time)) :
    os (Machine.readFile site.sys path) b = (.ok (.ok data), { b with machine := b.machine.touch path }) := by
  have read : b.machine.disk.readFile _ = .ok data := readFile_eq_ok.mpr ⟨time, here⟩
  rw [os_apply, Machine.readFile, read]

theorem readFile_of_dir (here : b.node (site.sys.locate path) = some .dir) : os (Machine.readFile site.sys path) b =
      (.ok (.error .isDirectory), { b with machine := b.machine.touch path }) := by
  have here : b.machine.disk.node _ = some .dir := here
  rw [os_apply, Machine.readFile, readFile, here]

theorem readFile_of_none (here : b.node (site.sys.locate path) = none) : os (Machine.readFile site.sys path) b =
      (.ok (.error (b.machine.disk.reason (site.sys.locate path))), { b with machine := b.machine.touch path }) := by
  have here : b.machine.disk.node _ = none := here
  rw [os_apply, Machine.readFile, readFile, here]

theorem stat_of_file (here : b.node (site.sys.locate path) = some (.file data time)) :
    os (Machine.stat site.sys path) b =
      (.ok (.ok ⟨false, data.length, time⟩), { b with machine := b.machine.touch path }) := by
  have here : b.machine.disk.node _ = some _ := here
  rw [os_apply, Machine.stat, stat, here]
  rfl

theorem reads_touch (b : FilesystemBackend) (path : Str) :
    Reads b { b with machine := b.machine.touch path } := ⟨rfl, rfl, rfl, rfl⟩

theorem lastModifiedOf_apply {uri} (m : Metadata) (here : b.node (site.bodyLoc uri) = some (.file data time)) :
    ∃ b₁, lastModifiedOf site uri m b =
      (.ok (if m.lastModified.isZero then time else m.lastModified), b₁) ∧ Reads b b₁ := by
  unfold lastModifiedOf
  split_ifs
  · refine ⟨_, ?_, reads_touch b (site.uriToPath uri)⟩
    rw [bind_of_ok (stat_of_file here)]
    rfl
  · exact ⟨b, rfl, Reads.refl b⟩

end Calls

def usageOf (b : FilesystemBackend) (storageRoot : Str) : QuotaUsageInfo := (b.quotaUsage.lookup storageRoot).getD {}

def charged (usage : QuotaUsageInfo) (bytes : Int) : QuotaUsageInfo :=
  { usage with
    usedBytes := wrap64 (usage.usedBytes + bytes)
    usedResources := wrap64 (usage.usedResources + 1) }

def Affords (usage : QuotaUsageInfo) (bytes : Int) : Prop :=
  ¬ (usage.maxBytes > 0 ∧ wrap64 (usage.usedBytes + bytes) > usage.maxBytes) ∧
    ¬ (usage.maxResources > 0 ∧ wrap64 (usage.usedResources + 1) > usage.maxResources)

section Effects

variable (site : Site) (now : Time) {storageRoot : Str}

/-- The state after the usage of a storage root was set and saved. -/
def savedUsage (storageRoot : Str) (usage : QuotaUsageInfo) (b : FilesystemBackend) : FilesystemBackend :=
  { b with
    quotaUsage := b.quotaUsage.insert storageRoot usage
    machine := (Machine.writeFile site.sys now (site.quotaPath storageRoot) (marshalUsage indented usage)
      b.machine).2 }

variable {site} {now} {b b' : FilesystemBackend}

/-- What is left of the call once the usage has been read. -/
theorem checkAndUpdateQuota_apply (storageRoot : Str) (bytes : Int) (b : FilesystemBackend) :
    checkAndUpdateQuota site now storageRoot bytes b = (do
        of (refuse ((b.usageOf storageRoot).maxBytes > 0 ∧
          wrap64 ((b.usageOf storageRoot).usedBytes + bytes) > (b.usageOf storageRoot).maxBytes)
            (.storage .quotaExceeded))
        of (refuse ((b.usageOf storageRoot).maxResources > 0 ∧
          wrap64 ((b.usageOf storageRoot).usedResources + 1) > (b.usageOf storageRoot).maxResources)
            (.storage .quotaExceeded))
        setUsage storageRoot (charged (b.usageOf storageRoot) bytes)
        let _ ← saveQuotaInfo site now storageRoot (charged (b.usageOf storageRoot) bytes)
        pure () : Fs Unit)
        { b with quotaUsage := b.quotaUsage.insert storageRoot (b.usageOf storageRoot) } := rfl

theorem checkAndUpdateQuota_eq_ok {bytes} : checkAndUpdateQuota site now storageRoot bytes b = (.ok (), b') ↔
      Affords (b.usageOf storageRoot) bytes ∧
        savedUsage site now storageRoot (charged (b.usageOf storageRoot) bytes)
          { b with quotaUsage := b.quotaUsage.insert storageRoot (b.usageOf storageRoot) } = b' := by
  rw [checkAndUpdateQuota_apply, refuse_bind_eq_ok, refuse_bind_eq_ok, Affords, and_assoc]
  apply and_congr_right'
  apply and_congr_right'
  exact ⟨fun done => (Prod.ext_iff.mp done).2, fun same => same ▸ rfl⟩

theorem resourceSize_pos (body : Option Str) (m : Metadata) : resourceSize body m > 0 := by
  unfold resourceSize estimateMetadataSize
  omega

def countedState (site : Site) (now : Time) (storageRoot : Str) (bytes : Int) (b : FilesystemBackend) :
    FilesystemBackend :=
  savedUsage site now storageRoot (charged (b.usageOf storageRoot) bytes)
    { b with quotaUsage := b.quotaUsage.insert storageRoot (b.usageOf storageRoot) }

variable {body : Option Str}

theorem charge_bind_eq_ok {β m} {f : Unit → Fs β} {v} :
    (charge site now storageRoot (resourceSize body m) >>= f) b = (.ok v, b') ↔
      Affords (b.usageOf storageRoot) (resourceSize body m) ∧
        f () (countedState site now storageRoot (resourceSize body m) b) = (.ok v, b') := by
  have positive := resourceSize_pos body m
  rw [charge, if_pos positive, Proc.bind_eq_ok]
  constructor
  · rintro ⟨_, _, counted, rest⟩
    obtain ⟨affords, rfl⟩ := checkAndUpdateQuota_eq_ok.mp counted
    exact ⟨affords, rest⟩
  · rintro ⟨affords, rest⟩
    exact ⟨(), _, checkAndUpdateQuota_eq_ok.mpr ⟨affords, rfl⟩, rest⟩

section Disks

variable (site : Site) (now : Time) (uri : Str)

def dirsMade (d : Disk) : Disk := (d.mkdirAll (site.dirLoc uri) Site.isName_dirLoc).2

/-- The disk with the file of a quota, if it can be written. -/
def quotaSaved (storageRoot : Str) (usage : QuotaUsageInfo) (d : Disk) : Disk :=
  (d.writeFile now (site.quotaLoc storageRoot) Site.isName_quotaLoc (marshalUsage indented usage)).2

/-- The disk with the body of a resource, if it can be written. -/
def bodyWritten (data : Str) (d : Disk) : Disk :=
  (d.writeFile now (site.bodyLoc uri) Site.isName_bodyLoc data).2

/-- The disk with the metadata of a resource, if they can be written. -/
def metaWritten (text : Str) (d : Disk) : Disk :=
  (d.writeFile now (site.metaLoc uri) Site.isName_metaLoc text).2

end Disks

theorem writeBody_eq_ok {uri} : writeBody site now uri storageRoot body b = (.ok (), b') ↔
      b.machine.disk.Writable (site.bodyLoc uri) ∧
        { b with machine := (Machine.writeFile site.sys now (site.uriToPath uri) (bytesOf body) b.machine).2 } = b' := by
  unfold writeBody
  rw [os_bind_apply]
  by_cases free : b.machine.disk.Writable (site.bodyLoc uri)
  · have done : (Machine.writeFile site.sys now _ (bytesOf body) b.machine).1 = .ok () :=
      writeFile_eq_ok.mpr free
    rw [done]
    simp [free]
  · cases result : (Machine.writeFile site.sys now _ (bytesOf body) b.machine).1 with
    | ok u => exact absurd (writeFile_eq_ok.mp result) free
    | error err =>
      simp only [free]
      split
      · rw [Proc.bind_eq_ok]
        simp
      · simp

theorem writeMetadata_eq_ok {uri m} : writeMetadata site now uri m b = (.ok (), b') ↔
      ∃ text, marshalMetadata indented 0 m = some text ∧ b.machine.disk.Writable (site.metaLoc uri) ∧
        { b with machine := (Machine.writeFile site.sys now (site.metadataPath uri) text b.machine).2 } = b' := by
  unfold writeMetadata
  cases marshalMetadata indented 0 m with
  | none => simp
  | some text =>
    simp only
    rw [os_bind_apply]
    have writable : (Machine.writeFile site.sys now _ text b.machine).1 = .ok () ↔
        b.machine.disk.Writable (site.metaLoc uri) := writeFile_eq_ok
    rw [← writable]
    cases (Machine.writeFile site.sys now _ text b.machine).1 <;> simp [orFail]

variable {sha256 : Str → Str} {uri : Str} {r : WriteResource}

/-- The disk of a `Put` when the write has been counted. -/
abbrev countedDisk (site : Site) (now : Time) (uri : Str) (r : WriteResource) (b : FilesystemBackend)
    (body : Option Str) : Disk :=
  quotaSaved site now (storageRootOf uri r.metadata)
    (charged (b.usageOf (storageRootOf uri r.metadata)) (resourceSize body r.metadata))
    (dirsMade site uri b.machine.disk)

variable [Unicode]

structure Puts (site : Site) (sha256 : Str → Str) (now : Time) (uri : Str) (r : WriteResource)
    (b b' : FilesystemBackend) (body : Option Str) (text : Str) : Prop where
  opened : b.closed = false
  named : uri ≠ []
  passed : (checkPreconditions site uri r.preconditions b).1 = .ok ()
  read : r.readBody = .ok body
  marshalled : marshalMetadata indented 0 (prepareMetadata sha256 now uri body r.metadata) = some text
  clear : b.machine.disk.Clear (site.dirLoc uri)
  affords : Affords (b.usageOf (storageRootOf uri r.metadata)) (resourceSize body r.metadata)
  bodyWritable : (countedDisk site now uri r b body).Writable (site.bodyLoc uri)
  metaWritable : (bodyWritten site now uri (bytesOf body) (countedDisk site now uri r b body)).Writable
    (site.metaLoc uri)
  disk : b'.machine.disk =
    metaWritten site now uri text (bodyWritten site now uri (bytesOf body) (countedDisk site now uri r b body))
  quotaUsage : b'.quotaUsage =
    (b.quotaUsage.insert (storageRootOf uri r.metadata) (b.usageOf (storageRootOf uri r.metadata))).insert
      (storageRootOf uri r.metadata)
      (charged (b.usageOf (storageRootOf uri r.metadata)) (resourceSize body r.metadata))
  tombstones : b'.tombstones = b.tombstones.erase uri
  closed : b'.closed = b.closed

theorem puts_of_put (done : put site sha256 now uri r b = (.ok (), b')) :
    ∃ body text, Puts site sha256 now uri r b b' body text := by
  unfold put at done
  rw [checkClosed_bind_eq_ok, refuse_bind_eq_ok, Proc.bind_eq_ok] at done
  obtain ⟨opened, named, _, b₀, passed, done⟩ := done
  have reads : Reads b b₀ := by
    have kept := reads_checkPreconditions site uri r.preconditions b
    rwa [passed] at kept
  rw [os_bind_apply, orFail_bind_eq_ok] at done
  obtain ⟨_, made, done⟩ := done
  rw [checked_bind_eq_ok] at done
  obtain ⟨body, read, done⟩ := done
  rw [charge_bind_eq_ok] at done
  obtain ⟨affords, done⟩ := done
  obtain ⟨_, b₂, written, done⟩ := bind_eq_ok.mp done
  rw [writeBody_eq_ok] at written
  obtain ⟨bodyWritable, rfl⟩ := written
  obtain ⟨_, b₃, noted, done⟩ := bind_eq_ok.mp done
  rw [writeMetadata_eq_ok] at noted
  obtain ⟨text, marshalled, metaWritable, rfl⟩ := noted
  rw [modify_eq_ok] at done
  subst done
  obtain ⟨⟨d, log⟩, quotas, tombstones, closed⟩ := b
  obtain ⟨⟨d', log'⟩, quotas', tombstones', closed'⟩ := b₀
  obtain ⟨rfl, rfl, rfl, rfl⟩ := reads
  exact ⟨body, text,
    { opened, named, passed := congrArg Prod.fst passed, read, marshalled
      clear := mkdirAll_eq_ok.mp made
      affords, bodyWritable, metaWritable
      disk := rfl, quotaUsage := rfl, tombstones := rfl, closed := rfl }⟩

theorem put_of_ready {text : Str} (opened : b.closed = false) (named : uri ≠ [])
    (free : r.preconditions.ifMatch = [] ∧ r.preconditions.ifNoneMatch = []) (read : r.readBody = .ok body)
    (marshalled : marshalMetadata indented 0 (prepareMetadata sha256 now uri body r.metadata) = some text)
    (clear : b.machine.disk.Clear (site.dirLoc uri))
    (affords : Affords (b.usageOf (storageRootOf uri r.metadata)) (resourceSize body r.metadata))
    (bodyWritable : (countedDisk site now uri r b body).Writable (site.bodyLoc uri))
    (metaWritable : (bodyWritten site now uri (bytesOf body) (countedDisk site now uri r b body)).Writable
      (site.metaLoc uri)) :
    ∃ b', put site sha256 now uri r b = (.ok (), b') := by
  have passed : checkPreconditions site uri r.preconditions b = (.ok (), b) := by
    rw [checkPreconditions, if_pos free]
    rfl
  have made : (Machine.mkdirAll site.sys (dir (site.uriToPath uri)) b.machine).1 = .ok () :=
    mkdirAll_eq_ok.mpr clear
  let b₁ := countedState site now (storageRootOf uri r.metadata) (resourceSize body r.metadata)
    { b with machine := (Machine.mkdirAll site.sys (dir (site.uriToPath uri)) b.machine).2 }
  let b₂ : FilesystemBackend :=
    { b₁ with machine := (Machine.writeFile site.sys now (site.uriToPath uri) (bytesOf body) b₁.machine).2 }
  let b₃ : FilesystemBackend :=
    { b₂ with machine := (Machine.writeFile site.sys now (site.metadataPath uri) text b₂.machine).2 }
  refine ⟨{ b₃ with tombstones := b₃.tombstones.erase uri }, ?_⟩
  refine checkClosed_bind_eq_ok.mpr ⟨opened, refuse_bind_eq_ok.mpr ⟨named, ?_⟩⟩
  rw [bind_of_ok passed, os_bind_apply, made, orFail_bind_eq_ok]
  refine ⟨(), rfl, checked_bind_eq_ok.mpr ⟨body, read, charge_bind_eq_ok.mpr ⟨affords, ?_⟩⟩⟩
  refine bind_eq_ok.mpr ⟨(), b₂, writeBody_eq_ok.mpr ⟨bodyWritable, rfl⟩, ?_⟩
  refine bind_eq_ok.mpr ⟨(), b₃, writeMetadata_eq_ok.mpr ⟨text, marshalled, metaWritable, rfl⟩, ?_⟩
  exact modify_eq_ok.mpr rfl

section Put

variable {body : Option Str} {text : Str} (puts : Puts site sha256 now uri r b b' body text)

include puts

theorem Puts.node_dirsMade (p : Loc) :
    (dirsMade site uri b.machine.disk).node p = if p <+: site.dirLoc uri then some .dir else b.node p := by
  rw [dirsMade, node_mkdirAll]
  simp only [puts.clear, and_true]
  rfl

theorem Puts.node (p : Loc) : b'.node p =
      if p = site.metaLoc uri then some (.file text now)
      else if p = site.bodyLoc uri then some (.file (bytesOf body) now)
      else if p = site.quotaLoc (storageRootOf uri r.metadata) ∧
          (dirsMade site uri b.machine.disk).Writable (site.quotaLoc (storageRootOf uri r.metadata)) then
        some (.file (marshalUsage indented
          (charged (b.usageOf (storageRootOf uri r.metadata)) (resourceSize body r.metadata))) now)
      else if p <+: site.dirLoc uri then some .dir
      else b.node p := by
  rw [FilesystemBackend.node, puts.disk, metaWritten, node_writeFile]
  simp only [puts.metaWritable]
  rw [bodyWritten, node_writeFile]
  simp only [puts.bodyWritable, and_true]
  rw [countedDisk, quotaSaved, node_writeFile, puts.node_dirsMade]

theorem Puts.node_eq_dir (p : Loc) : b'.node p = some .dir ↔ p <+: site.dirLoc uri ∨ b.node p = some .dir := by
  rw [FilesystemBackend.node, puts.disk, metaWritten, node_writeFile_eq_dir, bodyWritten,
    node_writeFile_eq_dir, countedDisk, quotaSaved, node_writeFile_eq_dir, puts.node_dirsMade]
  split_ifs with above <;> simp [above]

theorem Puts.node_bodyLoc : b.node (site.bodyLoc uri) ≠ some .dir ∧ ¬ site.bodyLoc uri <+: site.dirLoc uri := by
  have free := puts.bodyWritable.1
  rw [countedDisk, quotaSaved, ne_eq, node_writeFile_eq_dir, puts.node_dirsMade] at free
  split_ifs at free with above
  · exact absurd rfl free
  · exact ⟨free, above⟩

end Put

def seen (site : Site) (sha256 : Str → Str) (uri : Str) (b : FilesystemBackend) : Option (Option Str × Metadata) :=
  match (get site sha256 uri b).1 with
  | .ok resource => some (resource.body, resource.metadata)
  | .error _ => none

def sideMetadata : Option Node → Option Metadata
  | some (.file text _) => unmarshalMetadata text
  | some .dir => none
  | none => some {}

/-- What is seen of a resource, by what is at the places of its body and of its metadata. -/
def view (sha256 : Str → Str) (uri : Str) : Option Node → Option Node → Option (Option Str × Metadata)
  | some (.file data time), side => (sideMetadata side).map fun m =>
    (some data,
      { m with
        uri := if m.uri = [] then uri else m.uri
        size := if m.size = 0 then data.length else m.size
        lastModified := if m.lastModified.isZero then time else m.lastModified
        etag := if m.etag = [] then generateETag sha256 data else m.etag
        resourceType := if m.resourceType = [] then resourceTypeResource else m.resourceType })
  | _, _ => none

theorem seen_of_open (opened : b.closed = false) (named : uri ≠ []) (absent : b.tombstones.lookup uri = none) :
    seen site sha256 uri b =
      match (readResource site sha256 uri b).1 with
      | .ok resource => some (resource.body, resource.metadata)
      | .error _ => none := by
  have running : checkClosed b = (.ok (), b) := by rw [checkClosed, opened]; rfl
  have passed : (of (refuse (uri = []) (FsError.storage .emptyURI)) : Fs Unit) b = (.ok (), b) := by
    rw [of_apply, refuse, if_neg named]
  have here : isTombstoned uri b = (.ok false, b) := by rw [isTombstoned_apply, absent]; rfl
  have whole : get site sha256 uri b = readResource site sha256 uri b := by
    rw [get, bind_of_ok running, bind_of_ok passed, bind_of_ok here]
    rfl
  rw [seen, whole]

theorem seen_of_not_open (shut : ¬ (b.closed = false ∧ uri ≠ [] ∧ b.tombstones.lookup uri = none)) :
    seen site sha256 uri b = none := by
  unfold seen
  split
  · rename_i resource done
    have whole : get site sha256 uri b = (.ok resource, (get site sha256 uri b).2) := Prod.ext done rfl
    unfold get at whole
    rw [checkClosed_bind_eq_ok, refuse_bind_eq_ok, bind_of_ok (isTombstoned_apply _ _)] at whole
    obtain ⟨opened, named, whole⟩ := whole
    split at whole
    · simp at whole
    · rename_i here
      exact absurd ⟨opened, named, by simpa using here⟩ shut
  · rfl

theorem readMetadata_fails (lost : sideMetadata (b.node (site.metaLoc uri)) = none) :
    ∃ err b₁, readMetadata site uri b = (.error err, b₁) := by
  unfold readMetadata
  cases side : b.node _ with
  | none =>
    rw [side] at lost
    cases lost
  | some n =>
    rw [side] at lost
    cases n with
    | dir =>
      rw [bind_of_ok (readFile_of_dir side)]
      exact ⟨_, _, rfl⟩
    | file text time =>
      have lost : unmarshalMetadata text = none := lost
      rw [bind_of_ok (readFile_of_file side)]
      simp only
      rw [lost]
      exact ⟨_, _, rfl⟩

theorem seen_eq_none (absent : isFile (b.node (site.bodyLoc uri)) = false) : seen site sha256 uri b = none := by
  by_cases readable : b.closed = false ∧ uri ≠ [] ∧ b.tombstones.lookup uri = none
  · rw [seen_of_open readable.1 readable.2.1 readable.2.2, readResource]
    cases here : b.node (site.bodyLoc uri) with
    | none =>
      rw [bind_of_ok (readFile_of_none here)]
      cases b.machine.disk.reason _ <;> rfl
    | some n =>
      cases n with
      | dir =>
        rw [bind_of_ok (readFile_of_dir here)]
        rfl
      | file data time =>
        rw [here] at absent
        cases absent
  · exact seen_of_not_open readable

section Siblings

variable {parent : Loc} {c d : Str} (beside : site.metaLoc uri = parent ++ [d])

include beside

theorem readMetadata_apply {m} (directory : b.node parent = some .dir)
    (found : sideMetadata (b.node (site.metaLoc uri)) = some m) :
    ∃ b₁, readMetadata site uri b = (.ok m, b₁) ∧ Reads b b₁ := by
  unfold readMetadata
  refine ⟨_, ?_, reads_touch b (site.metadataPath uri)⟩
  cases side : b.node _ with
  | none =>
    rw [side] at found
    cases found
    have missing : b.machine.disk.reason (site.metaLoc uri) = .notExist := by
      rw [beside]
      exact reason_of_parent directory
    have read := readFile_of_none side
    rw [Site.metaLoc] at missing
    rw [missing] at read
    rw [bind_of_ok read]
    rfl
  | some n =>
    rw [side] at found
    cases n with
    | dir => cases found
    | file text time =>
      have found : unmarshalMetadata text = some m := found
      rw [bind_of_ok (readFile_of_file side)]
      simp only
      rw [found]
      rfl

theorem seen_eq_view (opened : b.closed = false) (named : uri ≠ []) (absent : b.tombstones.lookup uri = none)
    (place : site.bodyLoc uri = parent ++ [c]) :
    seen site sha256 uri b = view sha256 uri (b.node (site.bodyLoc uri)) (b.node (site.metaLoc uri)) := by
  cases here : b.node _ with
  | none => exact seen_eq_none (by rw [here]; rfl)
  | some n =>
    cases n with
    | dir => exact seen_eq_none (by rw [here]; rfl)
    | file data time =>
      rw [seen_of_open opened named absent, readResource]
      have directory : b.node parent = some .dir := by
        rw [place] at here
        exact node_of_snoc here
      rw [bind_of_ok (readFile_of_file here)]
      simp only [view]
      have reads := reads_touch b (site.uriToPath uri)
      have same := reads.node (site.metaLoc uri)
      cases found : sideMetadata (b.node _) with
      | none =>
        obtain ⟨_, b₁, failed⟩ :=
          readMetadata_fails (by rwa [same])
        rw [bind_of_error failed]
        rfl
      | some m =>
        obtain ⟨b₁, done, reads₁⟩ := readMetadata_apply beside (by rwa [reads.node]) (by rwa [same])
        rw [bind_of_ok done]
        have here₁ : b₁.node (site.bodyLoc uri) = some (.file data time) := by rwa [reads₁.node]
        obtain ⟨_, dated, _⟩ := lastModifiedOf_apply m here₁
        rw [bind_of_ok dated]
        rfl

end Siblings

end Effects

end FilesystemBackend

end Storage
