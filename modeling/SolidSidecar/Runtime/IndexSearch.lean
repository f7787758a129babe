import SolidSidecar.Runtime.Indexing

/-!
# Queries of the resource index

`Search`, `GetResource` and `GetContainerResources` of `indexing.go`. A search takes candidates from the
first list of the query that applies, filters them, sorts and cuts out a page. `mem_pages` says what the
pages of a query hold: the candidates that pass the filter and that the caller has access to.
-/

namespace Runtime
open Go List

structure IndexQuery where
  resourceURIs : List Str
  containerURIs : List Str
  resourceTypes : List Str
  contentTypes : List Str
  ownerWebIDs : List Str
  contributorWebIDs : List Str
  minSize : Int
  maxSize : Int
  minPrivacyLevel : PrivacyLevel
  maxPrivacyLevel : PrivacyLevel
  webID : Str
  includePrivate : Bool
  limit : Int
  offset : Int
  sortBy : Str
  sortOrder : Str
  storageRoots : List Str

structure IndexedResource where
  uri : Str
  containerURI : Str
  resourceType : Str
  contentType : Str
  size : Int
  lastModified : Time
  ownerWebID : Str
  privacyLevel : PrivacyLevel
  storageRoot : Str
  accessInfo : Option ResourceAccessInfo
  deriving DecidableEq

structure IndexResult where
  results : List IndexedResource
  totalCount : Nat
  hasMore : Bool
  deriving DecidableEq

namespace IndexQuery

variable (query : IndexQuery)

/-- `Limit` after validation: 50 if it is not given, at most 1000. -/
def clampLimit (limit : Int) : Int := min (if limit ≤ 0 then 50 else limit) 1000

def checkQuery : Except IndexError Unit := do
  ifPresent (fun s => (validateWebID s).mapError .invalidQueryWebID) query.webID
  checkAll (fun s => (validateURI s).mapError .invalidQueryResourceURI) query.resourceURIs
  checkAll (fun s => (validateContainerURI s).mapError .invalidQueryContainerURI) query.containerURIs

/-- `validateQuery`, which also sets the limit and the offset. -/
def validateQuery : Except IndexError IndexQuery := do
  query.checkQuery
  .ok { query with limit := clampLimit query.limit, offset := max query.offset 0 }

/-- The tests of the filter on the metadata alone. A bound on the size is off only when it is negative. -/
def matchesFilter (m : ResourceMetadata) : Bool :=
  !below query.minPrivacyLevel m.privacyLevel && !above query.maxPrivacyLevel m.privacyLevel &&
  (query.contentTypes.isEmpty || query.contentTypes.any (m.contentType == ·)) &&
  (query.ownerWebIDs.isEmpty || query.ownerWebIDs.any (m.ownerWebID == ·)) &&
  (query.contributorWebIDs.isEmpty || query.contributorWebIDs.any fun c => m.contributors.any (· == c)) &&
  !(decide (0 ≤ query.minSize) && decide (m.size < query.minSize)) &&
  !(decide (0 ≤ query.maxSize) && decide (query.maxSize < m.size))

def sortsBefore (b a : ResourceMetadata) : Bool :=
  if query.sortBy = "last_modified" ∨ query.sortBy = "modified" then
    if query.sortOrder = "desc" then b.lastModified.after a.lastModified
    else b.lastModified.before a.lastModified
  else if query.sortBy = "created" then
    if query.sortOrder = "desc" then b.created.after a.created else b.created.before a.created
  else if query.sortBy = "size" then
    if query.sortOrder = "desc" then decide (b.size > a.size) else decide (b.size < a.size)
  else b.lastModified.after a.lastModified

end IndexQuery

/-- `results[offset : offset + limit]`, as far as there are results. -/
def applyPagination (results : List ResourceMetadata) (query : IndexQuery) : List ResourceMetadata :=
  (results.drop query.offset.toNat).take query.limit.toNat

namespace ResourceIndexLayer

variable {query : IndexQuery} {order : RangeOrder (Str × ResourceMetadata)}

/-- The stored resources among some URIs, put into a map. -/
def collect (s : ResourceIndexLayer) (uris : List Str) (candidates : GoMap Str ResourceMetadata) :
    GoMap Str ResourceMetadata :=
  uris.foldl (fun candidates uri =>
      match s.resourceIndex.lookup uri with
      | some metadata => candidates.insert uri metadata
      | none => candidates)
    candidates

/-- The stored resources that an index lists under some values. -/
def collectUnder (s : ResourceIndexLayer) (kind : IndexKind) (values : List Str) : GoMap Str ResourceMetadata :=
  values.foldl (fun candidates value => s.collect ((s.indexes kind).under value) candidates) ∅

def ownedCandidates (s : ResourceIndexLayer) (query : IndexQuery) : GoMap Str ResourceMetadata :=
  if query.ownerWebIDs ≠ [] ∧ s.config.enableAgentIndex then s.collectUnder .agent query.ownerWebIDs else ∅

def rootedCandidates (s : ResourceIndexLayer) (query : IndexQuery) : GoMap Str ResourceMetadata :=
  if query.storageRoots ≠ [] ∧ s.config.enableStorageRootIndex then
    s.collectUnder .storageRoot query.storageRoots
  else ∅

/-- The resources of the given owners, then those of the given storage roots, then all: the first of
these that is not empty. -/
def otherCandidates (s : ResourceIndexLayer) (query : IndexQuery) : GoMap Str ResourceMetadata :=
  if (s.ownedCandidates query).size > 0 then s.ownedCandidates query
  else if (s.rootedCandidates query).size > 0 then s.rootedCandidates query
  else s.resourceIndex.entries

def getCandidateURIs (s : ResourceIndexLayer) (query : IndexQuery) : GoMap Str ResourceMetadata :=
  if query.resourceURIs ≠ [] then s.collect query.resourceURIs ∅
  else if query.containerURIs ≠ [] then s.collectUnder .container query.containerURIs
  else if query.resourceTypes ≠ [] then s.collectUnder .type query.resourceTypes
  else s.otherCandidates query

def isAgentInGroup (_agent _group : Str) : Bool := false

/-- What the access information of a resource allows. -/
def allows (s : ResourceIndexLayer) (resourceURI webID : Str) (info : ResourceAccessInfo) : Bool :=
  info.publicAccess ||
  (webID ≠ [] && (info.allowedAgents.contains webID || info.allowedGroups.any (isAgentInGroup webID))) ||
  match s.resourceIndex.lookup resourceURI with
  | some metadata => metadata.ownerWebID == webID || metadata.contributors.contains webID
  | none => false

def hasAccess (s : ResourceIndexLayer) (resourceURI webID : Str) (includePrivate : Bool) : Bool :=
  (includePrivate && webID ≠ []) ||
  (match s.accessIndex.lookup resourceURI with
    | some info => s.allows resourceURI webID info
    | none => false) ||
  match s.resourceIndex.lookup resourceURI with
  | some metadata => metadata.isPublic || metadata.privacyLevel == privacyLevelPublic
  | none => false

def filterAndScoreCandidates (s : ResourceIndexLayer) (order : RangeOrder (Str × ResourceMetadata))
    (candidates : GoMap Str ResourceMetadata) (query : IndexQuery) : List ResourceMetadata :=
  ((order.visit candidates.pairs).filter fun e =>
    s.hasAccess e.1 query.webID query.includePrivate && query.matchesFilter e.2).map Prod.snd

def convertToIndexedResource (s : ResourceIndexLayer) (m : ResourceMetadata) : IndexedResource where
  uri := m.uri
  containerURI := m.containerURI
  resourceType := m.resourceType
  contentType := m.contentType
  size := m.size
  lastModified := m.lastModified
  ownerWebID := m.ownerWebID
  privacyLevel := m.privacyLevel
  storageRoot := m.storageRoot
  accessInfo := s.accessIndex.lookup m.uri

/-- The resources a query is about, in order, before they are cut into pages. -/
def ranked (s : ResourceIndexLayer) (order : RangeOrder (Str × ResourceMetadata)) (query : IndexQuery) :
    List ResourceMetadata :=
  exchangeSort query.sortsBefore (s.filterAndScoreCandidates order (s.getCandidateURIs query) query)

def pageOf (s : ResourceIndexLayer) (order : RangeOrder (Str × ResourceMetadata)) (query : IndexQuery) :
    IndexResult :=
  let results := s.ranked order query
  let page := applyPagination results query
  { results := page.map s.convertToIndexedResource
    totalCount := results.length
    hasMore := decide (results.length > query.offset + page.length) }

def search (order : RangeOrder (Str × ResourceMetadata)) (s : ResourceIndexLayer) (query : IndexQuery) :
    Except IndexError IndexResult := do
  let query ← query.validateQuery
  refuse (s.closed = true) .closed
  .ok (s.pageOf order query)

def getResource (s : ResourceIndexLayer) (uri webID : Str) (includePrivate : Bool) :
    Except IndexError IndexedResource := do
  (validateURI uri).mapError .invalidResourceURI
  refuse (s.closed = true) .closed
  let metadata ← orError (.notFound uri) (s.resourceIndex.lookup uri)
  refuse (s.hasAccess uri webID includePrivate = false) (.accessDenied uri)
  .ok (s.convertToIndexedResource metadata)

def getContainerResources (s : ResourceIndexLayer) (containerURI webID : Str) (includePrivate : Bool) :
    Except IndexError (List IndexedResource) := do
  (validateContainerURI containerURI).mapError .invalidContainerURI
  refuse (s.closed = true) .closed
  .ok (((s.indexes .container).under containerURI).filterMap fun uri =>
    match s.resourceIndex.lookup uri with
    | some metadata =>
      if s.hasAccess uri webID includePrivate then some (s.convertToIndexedResource metadata) else none
    | none => none)

variable {s : ResourceIndexLayer} {uri : Str} {m : ResourceMetadata}

theorem lookup_collect (uris : List Str) (candidates : GoMap Str ResourceMetadata) :
    (s.collect uris candidates).lookup uri = some m ↔ (uri ∈ uris ∧ s.resourceIndex.lookup uri = some m) ∨
        (¬ (uri ∈ uris ∧ (s.resourceIndex.lookup uri).isSome) ∧ candidates.lookup uri = some m) := by
  unfold collect
  induction uris generalizing candidates with
  | nil => simp
  | cons first rest ih =>
    rw [foldl_cons, ih]
    by_cases same : uri = first
    · subst same
      cases s.resourceIndex.lookup uri with
      | none => simp
      | some m' => by_cases later : uri ∈ rest <;> simp [later]
    · cases s.resourceIndex.lookup first with
      | none => simp [same]
      | some m' => simp [same]

theorem collect_sub (uris : List Str) {candidates}
    (stored : candidates.Sub s.resourceIndex.entries) : GoMap.Sub (s.collect uris candidates) s.resourceIndex.entries := by
  intro uri m found
  rcases (lookup_collect uris candidates).mp found with ⟨_, here⟩ | ⟨_, before⟩
  · exact here
  · exact stored uri m before

theorem lookup_collectUnder (kind : IndexKind) (values : List Str) :
    (s.collectUnder kind values).lookup uri = some m ↔
      s.resourceIndex.lookup uri = some m ∧ ∃ value ∈ values, uri ∈ (s.indexes kind).under value := by
  have loop (candidates : GoMap Str ResourceMetadata) (stored : candidates.Sub s.resourceIndex.entries) :
      (values.foldl (fun candidates value => s.collect ((s.indexes kind).under value) candidates)
        candidates).lookup uri = some m ↔
      s.resourceIndex.lookup uri = some m ∧
        ((∃ value ∈ values, uri ∈ (s.indexes kind).under value) ∨ candidates.lookup uri = some m) := by
    induction values generalizing candidates with
    | nil =>
      simp only [not_mem_nil, false_and, exists_false, false_or]
      exact ⟨fun found => ⟨stored uri m found, found⟩, And.right⟩
    | cons value rest ih =>
      rw [foldl_cons, ih _ (collect_sub _ stored), lookup_collect]
      constructor
      · rintro ⟨here, found⟩
        refine ⟨here, ?_⟩
        rcases found with ⟨v, mem, listed⟩ | ⟨listed, _⟩ | ⟨_, before⟩
        · exact .inl ⟨v, mem_cons_of_mem value mem, listed⟩
        · exact .inl ⟨value, mem_cons_self, listed⟩
        · exact .inr before
      · rintro ⟨here, found⟩
        refine ⟨here, ?_⟩
        by_cases listed : uri ∈ (s.indexes kind).under value
        · exact .inr (.inl ⟨listed, here⟩)
        · rcases found with ⟨v, mem, listed'⟩ | before
          · rcases mem_cons.mp mem with rfl | later
            · exact absurd listed' listed
            · exact .inl ⟨v, later, listed'⟩
          · exact .inr (.inr ⟨fun both => listed both.1, before⟩)
  have nothing : (∅ : GoMap Str ResourceMetadata).Sub s.resourceIndex.entries := by
    intro uri m found
    cases found
  rw [collectUnder, loop ∅ nothing]
  simp

theorem collectUnder_sub (kind : IndexKind) (values : List Str) :
    GoMap.Sub (s.collectUnder kind values) s.resourceIndex.entries :=
  fun _ _ found => ((lookup_collectUnder kind values).mp found).1

theorem ownedCandidates_sub (query : IndexQuery) : GoMap.Sub (s.ownedCandidates query) s.resourceIndex.entries := by
  unfold ownedCandidates
  split_ifs
  · exact collectUnder_sub .agent _
  · exact fun _ _ found => by cases found

theorem rootedCandidates_sub (query : IndexQuery) : GoMap.Sub (s.rootedCandidates query) s.resourceIndex.entries := by
  unfold rootedCandidates
  split_ifs
  · exact collectUnder_sub .storageRoot _
  · exact fun _ _ found => by cases found

theorem stored_of_candidate (candidate : (s.getCandidateURIs query).lookup uri = some m) :
    s.resourceIndex.lookup uri = some m := by
  unfold getCandidateURIs otherCandidates at candidate
  split_ifs at candidate
  · rcases (lookup_collect _ _).mp candidate with ⟨_, stored⟩ | ⟨_, nothing⟩
    · exact stored
    · cases nothing
  · exact collectUnder_sub .container _ uri m candidate
  · exact collectUnder_sub .type _ uri m candidate
  · exact ownedCandidates_sub query uri m candidate
  · exact rootedCandidates_sub query uri m candidate
  · exact candidate

theorem validateQuery_eq_ok {query'} : query.validateQuery = .ok query' ↔ query.checkQuery = .ok () ∧
      query' = { query with limit := IndexQuery.clampLimit query.limit, offset := max query.offset 0 } := by
  unfold IndexQuery.validateQuery
  rw [then_eq_ok, Except.ok.injEq, eq_comm (a := query')]

theorem mem_ranked : m ∈ s.ranked order query ↔ (s.getCandidateURIs query).lookup m.uri = some m ∧
        s.hasAccess m.uri query.webID query.includePrivate = true ∧ query.matchesFilter m = true := by
  unfold ranked filterAndScoreCandidates
  rw [(exchangeSort_perm _ _).mem_iff, mem_map]
  constructor
  · rintro ⟨⟨uri, m⟩, mem, rfl⟩
    rw [mem_filter, order.mem_visit, GoMap.mem_pairs, Bool.and_eq_true] at mem
    obtain ⟨candidate, passes⟩ := mem
    -- the key of a candidate is its URI
    obtain ⟨rfl, -⟩ := s.resourceIndex.sound uri m (stored_of_candidate candidate)
    exact ⟨candidate, passes⟩
  · rintro ⟨candidate, passes⟩
    refine ⟨(m.uri, m), ?_, rfl⟩
    rw [mem_filter, order.mem_visit, GoMap.mem_pairs, Bool.and_eq_true]
    exact ⟨candidate, passes⟩

theorem mem_search {result} (found : search order s query = .ok result) {r} (mem : r ∈ result.results) :
    s.closed = false ∧ ∃ m ∈ s.ranked order query, r = s.convertToIndexedResource m := by
  obtain ⟨_, valid, found⟩ := bind_eq_ok.mp found
  obtain ⟨opened, found⟩ := then_eq_ok.mp found
  obtain ⟨-, rfl⟩ := validateQuery_eq_ok.mp valid
  cases found
  rw [refuse_eq_ok, Bool.not_eq_true] at opened
  obtain ⟨m, onPage, rfl⟩ := mem_map.mp mem
  exact ⟨opened, m, mem_of_mem_drop (mem_of_mem_take onPage), rfl⟩

theorem exists_page (valid : query.checkQuery = .ok ()) (opened : s.closed = false) (mem : m ∈ s.ranked order query) :
    ∃ offset result, search order s { query with limit := 1, offset := offset } = .ok result ∧
      s.convertToIndexedResource m ∈ result.results := by
  obtain ⟨i, inside, here⟩ := mem_iff_getElem.mp mem
  let page : IndexQuery := { query with limit := IndexQuery.clampLimit 1, offset := max i 0 }
  refine ⟨i, s.pageOf order page, ?_, mem_map_of_mem ?_⟩
  · unfold search
    rw [bind_eq_ok]
    refine ⟨page, validateQuery_eq_ok.mpr ⟨valid, rfl⟩, ?_⟩
    rw [then_eq_ok, refuse_eq_ok, opened]
    exact ⟨Bool.false_ne_true, rfl⟩
  · have place : page.offset.toNat = i := by
      show (max (i : Int) 0).toNat = i
      omega
    have first : (s.ranked order query).drop i = m :: (s.ranked order query).drop (i + 1) := by
      rw [← here]
      exact drop_eq_getElem_cons inside
    have cut : applyPagination (s.ranked order query) page = [m] := by
      rw [applyPagination, place, first]
      rfl
    have same : s.ranked order page = s.ranked order query := rfl
    rw [same, cut]
    exact mem_singleton_self m

end ResourceIndexLayer

end Runtime
