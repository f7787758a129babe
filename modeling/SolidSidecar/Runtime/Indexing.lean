import SolidSidecar.Go.Postings
import SolidSidecar.Go.Time
import SolidSidecar.Runtime.Privacy
import SolidSidecar.Runtime.Validation

/-!
# The resource index layer

`indexing.go`: a map from URIs to metadata, and beside it one map per kind of value (container, type,
agent, storage root, RDF term, full-text term) from values to the URIs listed under them. The maps are one
family, `indexes`, with one entry per kind; what each operation does to a kind is said once.

The main map is a `ResourceIndex`: what it holds stands under its own URI and passed `validateMetadata`.
A clock reading and the order of a `range` are arguments of the operations that depend on them.
-/

namespace Runtime
open Go

structure ResourceMetadata where
  uri : Str
  containerURI : Str
  resourceType : Str
  contentType : Str
  size : Int
  lastModified : Time
  created : Time
  ownerWebID : Str
  contributors : List Str
  accessControlURI : Str
  isPublic : Bool
  privacyLevel : PrivacyLevel
  indexedAt : Time
  lastIndexed : Time
  storageRoot : Str
  rdfTerms : GoMap Str Bool
  fullTextTerms : List Str
  -- a nil map and an empty one are told apart
  auxiliaryLinks : Option (GoMap Str Str)
  deriving DecidableEq

structure ResourceAccessInfo where
  resourceURI : Str
  allowedAgents : List Str
  allowedGroups : List Str
  publicAccess : Bool
  ownerWebID : Str
  lastUpdated : Time
  deriving DecidableEq

structure ResourceIndexConfig where
  maxIndexSize : Int
  enableFullTextIndex : Bool
  enableAgentIndex : Bool
  enableStorageRootIndex : Bool
  enableAuxiliaryIndex : Bool
  enableRDFTermIndex : Bool

def defaultResourceIndexConfig : ResourceIndexConfig where
  maxIndexSize := 100000
  enableFullTextIndex := true
  enableAgentIndex := true
  enableStorageRootIndex := true
  enableAuxiliaryIndex := true
  enableRDFTermIndex := false

inductive IndexError where
  | invalidResourceURI (cause : ValidationError)
  | invalidContainerURI (cause : ValidationError)
  | invalidContentType (cause : ValidationError)
  | invalidOwnerWebID (cause : ValidationError)
  | invalidContributorWebID (cause : ValidationError)
  | invalidAccessControlURI (cause : ValidationError)
  | invalidQueryWebID (cause : ValidationError)
  | invalidQueryResourceURI (cause : ValidationError)
  | invalidQueryContainerURI (cause : ValidationError)
  | closed
  | notFound (uri : Str)
  | accessDenied (uri : Str)
  deriving DecidableEq, Repr

def validateMetadata (metadata : ResourceMetadata) : Except IndexError Unit := do
  (validateURI metadata.uri).mapError .invalidResourceURI
  ifPresent (fun s => (validateContainerURI s).mapError .invalidContainerURI) metadata.containerURI
  ifPresent (fun s => (validateContentType s).mapError .invalidContentType) metadata.contentType
  ifPresent (fun s => (validateWebID s).mapError .invalidOwnerWebID) metadata.ownerWebID
  checkAll (fun s => (validateWebID s).mapError .invalidContributorWebID) metadata.contributors
  ifPresent (fun s => (validatePolicyURI s).mapError .invalidAccessControlURI) metadata.accessControlURI

structure ResourceMetadata.Valid (m : ResourceMetadata) : Prop where
  uri : validateURI m.uri = .ok ()
  container : m.containerURI = [] ∨ validateContainerURI m.containerURI = .ok ()
  contentType : m.contentType = [] ∨ validateContentType m.contentType = .ok ()
  owner : m.ownerWebID = [] ∨ validateWebID m.ownerWebID = .ok ()
  contributors : ∀ c ∈ m.contributors, validateWebID c = .ok ()
  accessControl : m.accessControlURI = [] ∨ validatePolicyURI m.accessControlURI = .ok ()

theorem validateMetadata_eq_ok {m} : validateMetadata m = .ok () ↔ m.Valid := by
  unfold validateMetadata
  simp only [then_eq_ok, ifPresent_eq_ok, checkAll_eq_ok, mapError_eq_ok]
  constructor
  · rintro ⟨uri, container, contentType, owner, contributors, accessControl⟩
    exact ⟨uri, container, contentType, owner, contributors, accessControl⟩
  · rintro ⟨uri, container, contentType, owner, contributors, accessControl⟩
    exact ⟨uri, container, contentType, owner, contributors, accessControl⟩

theorem ResourceMetadata.Valid.uri_ne_nil {m : ResourceMetadata} (valid : m.Valid) : m.uri ≠ [] := by
  intro empty
  have uri := valid.uri
  rw [empty] at uri
  exact validateURI_nil uri

def ResourceMetadata.indexed (m : ResourceMetadata) (now : Time) : ResourceMetadata :=
  { m with indexedAt := now, lastIndexed := now }

def orElse (s old : Str) : Str := if s = [] then old else s

/-- What an update stores: values that are not given are those of the existing entry. The storage root
and the terms are not among them. -/
def ResourceMetadata.updated (m existing : ResourceMetadata) (now : Time) : ResourceMetadata :=
  { m with
    lastIndexed := now
    containerURI := orElse m.containerURI existing.containerURI
    resourceType := orElse m.resourceType existing.resourceType
    contentType := orElse m.contentType existing.contentType
    ownerWebID := orElse m.ownerWebID existing.ownerWebID
    contributors := if m.contributors = [] then existing.contributors else m.contributors
    accessControlURI := orElse m.accessControlURI existing.accessControlURI
    privacyLevel := orElse m.privacyLevel existing.privacyLevel }

theorem orElse_valid {ε : Type} (check : Str → Except ε Unit) {s old : Str}
    (valid : s = [] ∨ check s = .ok ()) (valid' : old = [] ∨ check old = .ok ()) :
    orElse s old = [] ∨ check (orElse s old) = .ok () := by
  unfold orElse
  split_ifs with absent
  · exact valid'
  · exact .inr (valid.resolve_left absent)

theorem ResourceMetadata.Valid.indexed {m : ResourceMetadata} (valid : m.Valid) (now : Time) :
    (m.indexed now).Valid :=
  { valid with }

theorem ResourceMetadata.Valid.updated {m existing : ResourceMetadata} (valid : m.Valid)
    (stored : existing.Valid) (now : Time) : (m.updated existing now).Valid where
  uri := valid.uri
  container := orElse_valid validateContainerURI valid.container stored.container
  contentType := orElse_valid validateContentType valid.contentType stored.contentType
  owner := orElse_valid validateWebID valid.owner stored.owner
  contributors := by
    intro c mem
    simp only [ResourceMetadata.updated] at mem
    split_ifs at mem
    · exact stored.contributors c mem
    · exact valid.contributors c mem
  accessControl := orElse_valid validatePolicyURI valid.accessControl stored.accessControl

/-- `resourceIndex`: an entry stands under its own URI and is valid. -/
structure ResourceIndex where
  entries : GoMap Str ResourceMetadata
  sound : ∀ uri m, entries.lookup uri = some m → m.uri = uri ∧ m.Valid

namespace ResourceIndex

variable (index : ResourceIndex)

def empty : ResourceIndex := ⟨∅, by intro uri m found; cases found⟩

def lookup (index : ResourceIndex) (uri : Str) : Option ResourceMetadata := index.entries.lookup uri

def put (m : ResourceMetadata) (valid : m.Valid) : ResourceIndex where
  entries := index.entries.insert m.uri m
  sound := by
    intro uri m' found
    rw [GoMap.lookup_insert_eq] at found
    split_ifs at found with same
    · cases found
      exact ⟨same.symm, valid⟩
    · exact index.sound uri m' found

def delete (uri : Str) : ResourceIndex where
  entries := index.entries.erase uri
  sound := fun uri' m found => index.sound uri' m (GoMap.erase_sub index.entries uri uri' m found)

theorem lookup_put (m : ResourceMetadata) (valid : m.Valid) (uri : Str) :
    (index.put m valid).lookup uri = if uri = m.uri then some m else index.lookup uri :=
  GoMap.lookup_insert_eq index.entries m.uri uri m

theorem lookup_delete (uri uri' : Str) :
    (index.delete uri).lookup uri' = if uri' = uri then none else index.lookup uri' :=
  GoMap.lookup_erase_eq index.entries uri uri'

end ResourceIndex

inductive IndexKind where
  | container
  | type
  | agent
  | storageRoot
  | rdfTerm
  | fullText
  deriving DecidableEq, Repr

def given (s : Str) : List Str := if s = [] then [] else [s]

/-- The values of each kind under which a resource is listed. -/
def ResourceMetadata.values (m : ResourceMetadata) : IndexKind → List Str
  | .container => given m.containerURI
  | .type => given m.resourceType
  | .agent => given m.ownerWebID ++ m.contributors
  | .storageRoot => given m.storageRoot
  | .rdfTerm => m.rdfTerms.keys
  | .fullText => m.fullTextTerms

def ResourceIndexConfig.enabled (config : ResourceIndexConfig) : IndexKind → Bool
  | .container => true
  | .type => true
  | .agent => config.enableAgentIndex
  | .storageRoot => config.enableStorageRootIndex
  | .rdfTerm => config.enableRDFTermIndex
  | .fullText => config.enableFullTextIndex

/-- The indexes that `removeFromOtherIndexes` goes through. The full-text index is not among them. -/
def ResourceIndexConfig.cleared (config : ResourceIndexConfig) : IndexKind → Bool
  | .fullText => false
  | kind => config.enabled kind

structure ResourceIndexLayer where
  config : ResourceIndexConfig
  resourceIndex : ResourceIndex
  indexes : IndexKind → Postings Str Str
  accessIndex : GoMap Str ResourceAccessInfo
  auxiliaryIndex : Postings Str Str
  closed : Bool

namespace ResourceIndexLayer

variable (s : ResourceIndexLayer)

def new (config : ResourceIndexConfig) : ResourceIndexLayer where
  config := config
  resourceIndex := .empty
  indexes := fun _ => ∅
  accessIndex := ∅
  auxiliaryIndex := ∅
  closed := false

def removeFromOtherIndexes (uri : Str) (metadata : ResourceMetadata) :
    ResourceIndexLayer :=
  { s with
    indexes := fun kind =>
      if s.config.cleared kind then (s.indexes kind).leaveAll (metadata.values kind) uri else s.indexes kind
    accessIndex := s.accessIndex.erase uri
    auxiliaryIndex :=
      if s.config.enableAuxiliaryIndex ∧ metadata.auxiliaryLinks.isSome then s.auxiliaryIndex.erase uri
      else s.auxiliaryIndex }

def forget (uri : Str) (metadata : ResourceMetadata) : ResourceIndexLayer :=
  { s.removeFromOtherIndexes uri metadata with resourceIndex := s.resourceIndex.delete uri }

/-- The loop of `evictOldestEntry`: of the entries indexed first, the one met first. -/
def oldest : List (Str × ResourceMetadata) → Option (Str × ResourceMetadata) :=
  List.foldl (fun found entry =>
      match found with
      | none => some entry
      | some old => if entry.2.lastIndexed.before old.2.lastIndexed then some entry else some old)
    none

def evictOldestEntry (order : RangeOrder (Str × ResourceMetadata)) : ResourceIndexLayer :=
  match oldest (order.visit s.resourceIndex.entries.pairs) with
  | none => s
  | some (uri, metadata) => if uri = [] then s else s.forget uri metadata

/-- The entries of the auxiliary index: the links of a resource under its own URI. -/
def addLinks (m : ResourceMetadata) (order : RangeOrder (Str × Str)) : Postings Str Str :=
  match s.config.enableAuxiliaryIndex, m.auxiliaryLinks with
  | true, some links =>
    (order.visit links.pairs).foldl (fun p link => p.enter m.uri link.1) s.auxiliaryIndex
  | _, _ => s.auxiliaryIndex

def setAccess (uri : Str) (accessInfo : Option ResourceAccessInfo) : GoMap Str ResourceAccessInfo :=
  match accessInfo with
  | none => s.accessIndex
  | some info => s.accessIndex.insert uri info

def add (m : ResourceMetadata) (valid : m.Valid)
    (accessInfo : Option ResourceAccessInfo) (links : RangeOrder (Str × Str)) : ResourceIndexLayer :=
  { s with
    resourceIndex := s.resourceIndex.put m valid
    indexes := fun kind =>
      if s.config.enabled kind then (s.indexes kind).enterAll (m.values kind) m.uri else s.indexes kind
    accessIndex := s.setAccess m.uri accessInfo
    auxiliaryIndex := s.addLinks m links }

def full : Bool := s.config.maxIndexSize ≤ s.resourceIndex.entries.size

def makeRoom (order : RangeOrder (Str × ResourceMetadata)) : ResourceIndexLayer :=
  if s.full then s.evictOldestEntry order else s

/-- What the language and the clock decide in one call. -/
structure Circumstances where
  now : Time
  entries : RangeOrder (Str × ResourceMetadata) := default
  links : RangeOrder (Str × Str) := default

def indexResource (c : Circumstances) (s : ResourceIndexLayer) (metadata : ResourceMetadata)
    (accessInfo : Option ResourceAccessInfo) : ResourceIndexLayer × Except IndexError Unit :=
  match passed : validateMetadata metadata with
  | .error err => (s, .error err)
  | .ok () =>
    if s.closed then (s, .error .closed)
    else
      ((s.makeRoom c.entries).add (metadata.indexed c.now)
        ((validateMetadata_eq_ok.mp passed).indexed c.now) accessInfo c.links, .ok ())

def updateResource (c : Circumstances) (s : ResourceIndexLayer) (metadata : ResourceMetadata)
    (accessInfo : Option ResourceAccessInfo) : ResourceIndexLayer × Except IndexError Unit :=
  match passed : validateMetadata metadata with
  | .error err => (s, .error err)
  | .ok () =>
    if s.closed then (s, .error .closed)
    else
      match stored : s.resourceIndex.lookup metadata.uri with
      | none => (s, .error (.notFound metadata.uri))
      | some existing =>
        -- the other indexes are left as they are
        ({ s with
            resourceIndex := s.resourceIndex.put (metadata.updated existing c.now)
              ((validateMetadata_eq_ok.mp passed).updated (s.resourceIndex.sound _ _ stored).2 c.now)
            accessIndex := s.setAccess metadata.uri accessInfo }, .ok ())

def removeResource (uri : Str) : ResourceIndexLayer × Except IndexError Unit :=
  if s.closed then (s, .error .closed)
  else
    match s.resourceIndex.lookup uri with
    | none => (s, .ok ())
    | some metadata => (s.forget uri metadata, .ok ())

/-- Every list is gone through, also that of a closed layer. The auxiliary index is left alone. -/
def invalidateIndexesForResource (uri : Str) : ResourceIndexLayer :=
  { s with
    resourceIndex := s.resourceIndex.delete uri
    indexes := fun kind => (s.indexes kind).purge uri
    accessIndex := s.accessIndex.erase uri }

end ResourceIndexLayer

end Runtime
