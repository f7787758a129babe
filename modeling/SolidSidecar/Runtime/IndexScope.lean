import SolidSidecar.Runtime.IndexConsistency
import SolidSidecar.Runtime.IndexSearch

/-!
# The scope of a search

A query may name URIs, containers, types, owners and storage roots, and should return nothing outside any
list that it gives. `Search` takes its candidates from the first list that applies and checks of the others
the owners only, and a lookup of owners or storage roots that finds nothing falls through to the next one and
in the end to all resources. What comes out is in scope exactly when the stored resources make up for the
checks that are left out (`staysInScope_iff`).
-/

namespace Runtime
open Go List IndexQuery

namespace IndexQuery

/-- A result is inside every list that the query gives. -/
structure InScope (query : IndexQuery) (r : IndexedResource) : Prop where
  uris : query.resourceURIs ≠ [] → r.uri ∈ query.resourceURIs
  containers : query.containerURIs ≠ [] → r.containerURI ∈ query.containerURIs
  types : query.resourceTypes ≠ [] → r.resourceType ∈ query.resourceTypes
  owners : query.ownerWebIDs ≠ [] → r.ownerWebID ∈ query.ownerWebIDs
  roots : query.storageRoots ≠ [] → r.storageRoot ∈ query.storageRoots

variable {query : IndexQuery} {m : ResourceMetadata}

theorem owner_of_matchesFilter (passes : query.matchesFilter m = true) (given : query.ownerWebIDs ≠ []) :
    m.ownerWebID ∈ query.ownerWebIDs := by
  unfold matchesFilter at passes
  simp only [Bool.and_eq_true, Bool.or_eq_true, List.isEmpty_iff, any_eq_true, beq_iff_eq] at passes
  obtain ⟨⟨⟨⟨⟨-, -⟩, owner⟩, -⟩, -⟩, -⟩ := passes
  obtain ⟨_, mem, same⟩ := owner.resolve_left given
  rw [same]
  exact mem

end IndexQuery

/-- A resource is listed under one of some values of a kind. -/
def ResourceMetadata.Under (m : ResourceMetadata) (kind : IndexKind) (values : List Str) : Prop :=
  ∃ value ∈ values, value ∈ m.values kind

namespace ResourceIndexLayer

variable (s : ResourceIndexLayer) (query : IndexQuery)

def StaysInScope : Prop :=
  ∀ order limit offset result, s.search order { query with limit := limit, offset := offset } = .ok result →
    ∀ r ∈ result.results, query.InScope r

/-- A resource that a search may return: it is stored, the caller has access and it passes the filter. -/
structure Shown (m : ResourceMetadata) : Prop where
  stored : s.resourceIndex.lookup m.uri = some m
  access : s.hasAccess m.uri query.webID query.includePrivate = true
  passes : query.matchesFilter m = true

/-- An index lists a stored resource under one of some values. -/
def Finds (kind : IndexKind) (values : List Str) : Prop :=
  s.config.enabled kind = true ∧ ∃ m, s.resourceIndex.lookup m.uri = some m ∧ m.Under kind values

/-- What the search does not check, the resources that it shows have anyway. -/
structure Safe : Prop where
  byURI : ∀ m, s.Shown query m → m.uri ∈ query.resourceURIs →
    (query.containerURIs ≠ [] → m.containerURI ∈ query.containerURIs) ∧
      (query.resourceTypes ≠ [] → m.resourceType ∈ query.resourceTypes) ∧
      (query.storageRoots ≠ [] → m.storageRoot ∈ query.storageRoots)
  byContainer : query.resourceURIs = [] → ∀ m, s.Shown query m → m.Under .container query.containerURIs →
    (query.resourceTypes ≠ [] → m.resourceType ∈ query.resourceTypes) ∧
      (query.storageRoots ≠ [] → m.storageRoot ∈ query.storageRoots)
  byType : query.resourceURIs = [] → query.containerURIs = [] → ∀ m, s.Shown query m →
    m.Under .type query.resourceTypes → query.storageRoots ≠ [] → m.storageRoot ∈ query.storageRoots
  /-- Storage roots alone are looked up when no owner is found, and then only if they hold something. -/
  byRoot : query.resourceURIs = [] → query.containerURIs = [] → query.resourceTypes = [] → query.storageRoots ≠ [] →
    ¬ s.Finds .agent query.ownerWebIDs ∧ s.Finds .storageRoot query.storageRoots ∨
      ∀ m, s.Shown query m → (s.Finds .agent query.ownerWebIDs → m.Under .agent query.ownerWebIDs) →
        m.storageRoot ∈ query.storageRoots

variable {s query} {m : ResourceMetadata}

theorem under_given {kind values text} (listed : m.values kind = given text) :
    m.Under kind values ↔ text ≠ [] ∧ text ∈ values := by
  unfold ResourceMetadata.Under
  rw [listed, given]
  split_ifs with absent <;> simp [absent]

/-- What an exact index yields are the stored resources with one of the values. -/
theorem mem_collectUnder {kind values} (exact : s.Exact kind) : (s.collectUnder kind values).lookup m.uri = some m ↔
      s.resourceIndex.lookup m.uri = some m ∧ m.Under kind values := by
  refine (lookup_collectUnder kind values).trans (and_congr_right fun stored => ?_)
  refine exists_congr fun value => and_congr_right fun _ => ((exact value).2 m.uri).trans ?_
  constructor
  · rintro ⟨_, stored', has⟩
    cases stored.symm.trans stored'
    exact has
  · exact fun has => ⟨m, stored, has⟩

theorem size_pos_iff {found : GoMap Str ResourceMetadata} (sub : found.Sub s.resourceIndex.entries) :
    found.size > 0 ↔ ∃ m, found.lookup m.uri = some m := by
  constructor
  · intro some
    obtain ⟨⟨uri, m⟩, mem⟩ := exists_mem_of_length_pos some
    have entry : found.lookup uri = .some m := AList.mem_lookup_iff.mpr mem
    obtain ⟨rfl, -⟩ := s.resourceIndex.sound uri m (sub uri m entry)
    exact ⟨m, entry⟩
  · rintro ⟨m, entry⟩
    exact length_pos_of_mem (AList.mem_lookup_iff.mp entry)

section Consistent

variable (consistent : s.Consistent)

include consistent

theorem lookup_ownedCandidates : (s.ownedCandidates query).lookup m.uri = some m ↔
      s.config.enabled .agent = true ∧ s.resourceIndex.lookup m.uri = some m ∧ m.Under .agent query.ownerWebIDs := by
  unfold ownedCandidates
  split_ifs with asked
  · rw [mem_collectUnder (consistent .agent (by decide) asked.2)]
    exact (and_iff_right asked.2).symm
  · refine iff_of_false (fun found => by cases found) ?_
    rintro ⟨enabled, -, _, mem, -⟩
    exact asked ⟨ne_nil_of_mem mem, enabled⟩

theorem lookup_rootedCandidates : (s.rootedCandidates query).lookup m.uri = some m ↔
      s.config.enabled .storageRoot = true ∧ s.resourceIndex.lookup m.uri = some m ∧
        m.Under .storageRoot query.storageRoots := by
  unfold rootedCandidates
  split_ifs with asked
  · rw [mem_collectUnder (consistent .storageRoot (by decide) asked.2)]
    exact (and_iff_right asked.2).symm
  · refine iff_of_false (fun found => by cases found) ?_
    rintro ⟨enabled, -, _, mem, -⟩
    exact asked ⟨ne_nil_of_mem mem, enabled⟩

theorem lookup_otherCandidates : (s.otherCandidates query).lookup m.uri = some m ↔
      s.resourceIndex.lookup m.uri = some m ∧ (s.Finds .agent query.ownerWebIDs → m.Under .agent query.ownerWebIDs) ∧
        (¬ s.Finds .agent query.ownerWebIDs → s.Finds .storageRoot query.storageRoots →
          m.Under .storageRoot query.storageRoots) := by
  have owned : (s.ownedCandidates query).size > 0 ↔ s.Finds .agent query.ownerWebIDs := by
    simp only [size_pos_iff (ownedCandidates_sub query), lookup_ownedCandidates consistent, exists_and_left, Finds]
  have rooted : (s.rootedCandidates query).size > 0 ↔ s.Finds .storageRoot query.storageRoots := by
    simp only [size_pos_iff (rootedCandidates_sub query), lookup_rootedCandidates consistent, exists_and_left, Finds]
  unfold otherCandidates
  rw [← owned, ← rooted]
  split_ifs with some some'
  · simp [some, lookup_ownedCandidates consistent, (owned.mp some).1]
  · simp [some, some', lookup_rootedCandidates consistent, (rooted.mp some').1]
  · exact ⟨fun stored => ⟨stored, fun found => absurd found some, fun _ found => absurd found some'⟩, And.left⟩

/-- The candidates that are shown are in scope exactly when the state is safe for the query. -/
theorem inScope_iff_safe : (∀ m, (s.getCandidateURIs query).lookup m.uri = some m → s.Shown query m →
      query.InScope (s.convertToIndexedResource m)) ↔ s.Safe query := by
  have owners {m} (shown : s.Shown query m) : query.ownerWebIDs ≠ [] → m.ownerWebID ∈ query.ownerWebIDs :=
    owner_of_matchesFilter shown.passes
  unfold getCandidateURIs
  by_cases uris : query.resourceURIs = []
  · have noURI (m : ResourceMetadata) : m.uri ∉ query.resourceURIs := by simp [uris]
    rw [if_neg (not_not_intro uris)]
    by_cases containers : query.containerURIs = []
    · have noContainer (m : ResourceMetadata) : ¬ m.Under .container query.containerURIs := by
        simp [ResourceMetadata.Under, containers]
      rw [if_neg (not_not_intro containers)]
      by_cases types : query.resourceTypes = []
      · have noType (m : ResourceMetadata) : ¬ m.Under .type query.resourceTypes := by
          simp [ResourceMetadata.Under, types]
        rw [if_neg (not_not_intro types)]
        simp only [lookup_otherCandidates consistent]
        constructor
        · refine fun all => ⟨fun m _ mem => absurd mem (noURI m), fun _ m _ mem => absurd mem (noContainer m),
            fun _ _ m _ mem => absurd mem (noType m), fun _ _ _ roots => ?_⟩
          by_cases direct : ¬ s.Finds .agent query.ownerWebIDs ∧ s.Finds .storageRoot query.storageRoots
          · exact .inl direct
          · exact .inr fun m shown owned => (all m ⟨shown.stored, owned, fun lost found => absurd ⟨lost, found⟩ direct⟩
              shown).roots roots
        · rintro safe m ⟨-, owned, rooted⟩ shown
          refine ⟨absurd uris, absurd containers, absurd types, owners shown, fun roots => ?_⟩
          rcases safe.byRoot uris containers types roots with ⟨lost, found⟩ | all
          · exact ((under_given rfl).mp (rooted lost found)).2
          · exact all m shown owned
      · rw [if_pos types]
        simp only [mem_collectUnder (consistent .type (by decide) rfl)]
        constructor
        · refine fun all => ⟨fun m _ mem => absurd mem (noURI m), fun _ m _ mem => absurd mem (noContainer m),
            fun _ _ m shown mem => (all m ⟨shown.stored, mem⟩ shown).roots, fun _ _ none => absurd none types⟩
        · rintro safe m ⟨-, mem⟩ shown
          exact ⟨absurd uris, absurd containers, fun _ => ((under_given rfl).mp mem).2, owners shown,
            safe.byType uris containers m shown mem⟩
    · rw [if_pos containers]
      simp only [mem_collectUnder (consistent .container (by decide) rfl)]
      constructor
      · refine fun all => ⟨fun m _ mem => absurd mem (noURI m), fun _ m shown mem => ?_,
          fun _ none => absurd none containers, fun _ none => absurd none containers⟩
        have scope := all m ⟨shown.stored, mem⟩ shown
        exact ⟨scope.types, scope.roots⟩
      · rintro safe m ⟨-, mem⟩ shown
        obtain ⟨types, roots⟩ := safe.byContainer uris m shown mem
        exact ⟨absurd uris, fun _ => ((under_given rfl).mp mem).2, types, owners shown, roots⟩
  · rw [if_pos uris]
    constructor
    · refine fun all => ⟨fun m shown mem => ?_, fun none => absurd none uris, fun none => absurd none uris,
        fun none => absurd none uris⟩
      have scope := all m ((lookup_collect _ _).mpr (.inl ⟨mem, shown.stored⟩)) shown
      exact ⟨scope.containers, scope.types, scope.roots⟩
    · intro safe m candidate shown
      rcases (lookup_collect _ _).mp candidate with ⟨mem, -⟩ | ⟨-, nothing⟩
      · obtain ⟨containers, types, roots⟩ := safe.byURI m shown mem
        exact ⟨fun _ => mem, containers, types, owners shown, roots⟩
      · cases nothing

end Consistent

/-- A query stays in scope exactly when it is refused or the state is safe for it. -/
theorem staysInScope_iff (s : ResourceIndexLayer) (query : IndexQuery) (consistent : s.Consistent) :
    s.StaysInScope query ↔ s.closed = true ∨ query.checkQuery ≠ .ok () ∨ s.Safe query := by
  rw [← inScope_iff_safe consistent]
  constructor
  · intro stays
    cases opened : s.closed with
    | true => exact .inl rfl
    | false =>
      by_cases checked : query.checkQuery = .ok ()
      · refine .inr (.inr fun m candidate shown => ?_)
        have ranked : m ∈ s.ranked default query := mem_ranked.mpr ⟨candidate, shown.access, shown.passes⟩
        obtain ⟨offset, result, found, mem⟩ := exists_page checked opened ranked
        exact stays default 1 offset result found _ mem
      · exact .inr (.inl checked)
  · intro safe order limit offset result found r mem
    obtain ⟨opened, m, ranked, rfl⟩ := mem_search found mem
    obtain ⟨candidate, access, passes⟩ := mem_ranked.mp ranked
    rcases safe with closed | refused | safe
    · rw [opened] at closed
      cases closed
    · obtain ⟨_, valid, -⟩ := bind_eq_ok.mp found
      exact absurd (validateQuery_eq_ok.mp valid).1 refused
    · exact safe m candidate ⟨stored_of_candidate candidate, access, passes⟩

/-- A layer that holds the note, which everyone may read. -/
def publicNoteLayer : ResourceIndexLayer :=
  (step (new defaultResourceIndexConfig) (.index ⟨.zero, default, default⟩ note
    (some { resourceURI := note.uri, allowedAgents := [], allowedGroups := [], publicAccess := true,
            ownerWebID := [], lastUpdated := .zero }))).1

theorem consistent_publicNoteLayer : publicNoteLayer.Consistent := by
  intro kind asked _
  have start : (new defaultResourceIndexConfig).Exact kind := by
    cases kind <;> first | exact consistent_new _ _ asked rfl | exact absurd rfl asked
  have enabled : defaultResourceIndexConfig.enabled kind = true := by
    cases kind <;> first | rfl | exact absurd rfl asked
  exact (exact_step_iff start enabled _).mpr (fits_note rfl _ _ kind)

/-- Everything under a storage root that holds nothing. -/
def elsewhere : IndexQuery where
  resourceURIs := []
  containerURIs := []
  resourceTypes := []
  contentTypes := []
  ownerWebIDs := []
  contributorWebIDs := []
  minSize := 0
  maxSize := -1
  minPrivacyLevel := []
  maxPrivacyLevel := []
  webID := []
  includePrivate := false
  limit := 10
  offset := 0
  sortBy := []
  sortOrder := []
  storageRoots := ["https://elsewhere/"]

def underPod : IndexQuery := { elsewhere with storageRoots := ["https://pod/"] }

/-- A search of a storage root that holds something stays in it. -/
theorem staysInScope_iff_underPod : publicNoteLayer.Consistent ∧ publicNoteLayer.Safe underPod ∧
    publicNoteLayer.StaysInScope underPod := by
  have safe : publicNoteLayer.Safe underPod := by
    refine ⟨fun m _ mem => ?_, fun _ m _ under => ?_, fun _ _ m _ under => ?_, fun _ _ _ _ => .inl ⟨?_, ?_⟩⟩
    · cases mem
    · obtain ⟨_, mem, -⟩ := under
      cases mem
    · obtain ⟨_, mem, -⟩ := under
      cases mem
    · rintro ⟨-, _, -, _, mem, -⟩
      cases mem
    · exact ⟨rfl, note, rfl, "https://pod/", by decide, by decide⟩
  exact ⟨consistent_publicNoteLayer, safe,
    (staysInScope_iff publicNoteLayer underPod consistent_publicNoteLayer).mpr (.inr (.inr safe))⟩

/-- The search falls through to all resources and returns the note. -/
theorem elsewhere_returns_note : publicNoteLayer.Consistent ∧
    ∃ result, search default publicNoteLayer elsewhere = .ok result ∧
      ∃ r ∈ result.results, ¬ elsewhere.InScope r := by
  refine ⟨consistent_publicNoteLayer, _, rfl, publicNoteLayer.convertToIndexedResource note, ?_, fun scope => ?_⟩
  · decide +kernel
  · exact absurd (scope.roots (by decide)) (by decide)

end ResourceIndexLayer

end Runtime
