import SolidSidecar.Runtime.IndexConsistency
import SolidSidecar.Runtime.IndexSearch

/-!
# Who sees an indexed resource

A resource should be returned to a caller only if it is public or names the caller among its agents,
contributors or owners. `hasAccess` lets two more callers in: one that has a WebID and asks for private
resources, whoever it is, and one without a WebID where the access information of a resource meets an
owner that was left empty. `returned_visible_iff` is the exact condition on the stored resources under
which no caller is let in that way.
-/

namespace Runtime
open Go List

namespace ResourceIndexLayer

def Public (s : ResourceIndexLayer) (m : ResourceMetadata) : Prop :=
  (∃ info, s.accessIndex.lookup m.uri = some info ∧ info.publicAccess = true) ∨
    m.isPublic = true ∨ m.privacyLevel = privacyLevelPublic

def Names (s : ResourceIndexLayer) (m : ResourceMetadata) (webID : Str) : Prop :=
  (∃ info, s.accessIndex.lookup m.uri = some info ∧ webID ∈ info.allowedAgents) ∨
    webID ∈ m.contributors ∨ webID = m.ownerWebID

def Visible (s : ResourceIndexLayer) (webID : Str) (m : ResourceMetadata) : Prop :=
  s.Public m ∨ (webID ≠ [] ∧ s.Names m webID)

/-- A resource is handed out by one of the three queries. -/
inductive Returned (s : ResourceIndexLayer) (webID : Str) (includePrivate : Bool) (r : IndexedResource) : Prop
  | search (order : RangeOrder (Str × ResourceMetadata)) (query : IndexQuery) (result : IndexResult)
      (asks : query.webID = webID ∧ query.includePrivate = includePrivate)
      (found : s.search order query = .ok result) (mem : r ∈ result.results)
  | getResource (uri : Str) (found : s.getResource uri webID includePrivate = .ok r)
  | getContainerResources (containerURI : Str) (results : List IndexedResource)
      (found : s.getContainerResources containerURI webID includePrivate = .ok results) (mem : r ∈ results)

variable {s : ResourceIndexLayer} {webID : Str} {includePrivate : Bool}

/-- The queries hand out what is stored and what `hasAccess` lets through, and `GetResource` all of it. -/
theorem returned_iff {r} : s.Returned webID includePrivate r ↔
      s.closed = false ∧ ∃ m, s.resourceIndex.lookup m.uri = some m ∧
        s.hasAccess m.uri webID includePrivate = true ∧ r = s.convertToIndexedResource m := by
  constructor
  · rintro (⟨_, _, _, ⟨rfl, rfl⟩, found, mem⟩ | ⟨uri, found⟩ | ⟨_, _, found, mem⟩)
    · obtain ⟨opened, m, ranked, rfl⟩ := mem_search found mem
      obtain ⟨candidate, access, -⟩ := mem_ranked.mp ranked
      exact ⟨opened, m, stored_of_candidate candidate, access, rfl⟩
    · obtain ⟨-, found⟩ := then_eq_ok.mp found
      obtain ⟨opened, found⟩ := then_eq_ok.mp found
      obtain ⟨m, stored, found⟩ := bind_eq_ok.mp found
      obtain ⟨access, found⟩ := then_eq_ok.mp found
      rw [orError_eq_ok] at stored
      rw [refuse_eq_ok, Bool.not_eq_true] at opened
      rw [refuse_eq_ok, Bool.not_eq_false] at access
      cases found
      obtain ⟨rfl, -⟩ := s.resourceIndex.sound uri m stored
      exact ⟨opened, m, stored, access, rfl⟩
    · obtain ⟨-, found⟩ := then_eq_ok.mp found
      obtain ⟨opened, found⟩ := then_eq_ok.mp found
      rw [refuse_eq_ok, Bool.not_eq_true] at opened
      cases found
      obtain ⟨uri, -, given⟩ := List.mem_filterMap.mp mem
      cases stored : s.resourceIndex.lookup uri with
      | none =>
        rw [stored] at given
        cases given
      | some m =>
        rw [stored] at given
        split_ifs at given with access
        cases given
        obtain ⟨rfl, -⟩ := s.resourceIndex.sound uri m stored
        exact ⟨opened, m, stored, access, rfl⟩
  · rintro ⟨opened, m, stored, access, rfl⟩
    refine .getResource m.uri ?_
    have valid := (s.resourceIndex.sound m.uri m stored).2.uri
    unfold getResource
    simp [bind_eq_ok, valid, opened, stored, access]

theorem hasAccess_iff {m} (stored : s.resourceIndex.lookup m.uri = some m) :
    s.hasAccess m.uri webID includePrivate = true ↔ (includePrivate = true ∧ webID ≠ []) ∨ s.Public m ∨
        ∃ info, s.accessIndex.lookup m.uri = some info ∧
          ((webID ≠ [] ∧ webID ∈ info.allowedAgents) ∨ webID = m.ownerWebID ∨ webID ∈ m.contributors) := by
  unfold hasAccess allows Public
  rw [stored]
  cases s.accessIndex.lookup m.uri with
  | none => simp
  | some info =>
    simp only [any_eq_true, Bool.or_eq_true, Bool.and_eq_true, decide_eq_true_eq, contains_iff_mem,
      beq_iff_eq, Option.some.injEq, exists_eq_left']
    tauto

/-- No caller is let in without being named: one with a WebID that asks for private resources sees them all,
and one without sees nothing that has access information and no owner. -/
structure Guarded (s : ResourceIndexLayer) (webID : Str) (includePrivate : Bool) (m : ResourceMetadata) : Prop where
  asked : webID ≠ [] → includePrivate = true → s.Visible webID m
  anonymous : webID = [] → m.ownerWebID = [] → (s.accessIndex.lookup m.uri).isSome = true → s.Public m

theorem guarded_iff {m} (stored : s.resourceIndex.lookup m.uri = some m) :
    (s.hasAccess m.uri webID includePrivate = true → s.Visible webID m) ↔ s.Guarded webID includePrivate m := by
  have valid := (s.resourceIndex.sound m.uri m stored).2
  rw [hasAccess_iff stored]
  constructor
  · intro sees
    refine ⟨fun known asks => sees (.inl ⟨asks, known⟩), fun unknown unowned informed => ?_⟩
    obtain ⟨info, given⟩ := Option.isSome_iff_exists.mp informed
    have seen : s.Visible webID m := sees (.inr (.inr ⟨info, given, .inr (.inl (unknown.trans unowned.symm))⟩))
    exact seen.resolve_right fun named => named.1 unknown
  · rintro ⟨asked, anonymous⟩ (⟨asks, known⟩ | everyone | ⟨info, given, named⟩)
    · exact asked known asks
    · exact .inl everyone
    · by_cases known : webID = []
      · subst known
        rcases named with ⟨known, _⟩ | owner | contributor
        · exact absurd rfl known
        · refine .inl (anonymous rfl owner.symm ?_)
          rw [given]
          rfl
        · -- contributors are WebIDs, which are not empty
          exact absurd (valid.contributors [] contributor) validateWebID_nil
      · refine .inr ⟨known, ?_⟩
        rcases named with ⟨_, agent⟩ | owner | contributor
        · exact .inl ⟨info, given, agent⟩
        · exact .inr (.inr owner)
        · exact .inr (.inl contributor)

/-- Everything returned to a caller is public or names the caller, exactly when the layer is closed or
guards every stored resource against the caller. -/
theorem returned_visible_iff (s : ResourceIndexLayer) (webID : Str) (includePrivate : Bool) :
    (∀ r, s.Returned webID includePrivate r → ∃ m, s.resourceIndex.lookup r.uri = some m ∧ s.Visible webID m) ↔
      s.closed = true ∨ ∀ uri m, s.resourceIndex.lookup uri = some m → s.Guarded webID includePrivate m := by
  constructor
  · intro all
    by_cases closed : s.closed = true
    · exact .inl closed
    · refine .inr fun uri m stored => ?_
      obtain ⟨rfl, -⟩ := s.resourceIndex.sound uri m stored
      refine (guarded_iff stored).mp fun access => ?_
      have returned : s.Returned webID includePrivate _ :=
        returned_iff.mpr ⟨Bool.eq_false_of_not_eq_true closed, m, stored, access, rfl⟩
      obtain ⟨_, stored', visible⟩ := all _ returned
      cases stored.symm.trans stored'
      exact visible
  · intro guards r returned
    obtain ⟨opened, m, stored, access, rfl⟩ := returned_iff.mp returned
    refine ⟨m, stored, ?_⟩
    rcases guards with closed | guards
    · rw [opened] at closed
      cases closed
    · exact (guarded_iff stored).mpr (guards m.uri m stored) access

def noteLayer : ResourceIndexLayer :=
  (indexResource ⟨.zero, default, default⟩ (new defaultResourceIndexConfig) note none).1

/-- A stranger that asks for private resources gets the private note of someone else. -/
theorem stranger_sees_private : ¬ ∀ r, noteLayer.Returned (str "https://stranger/") true r →
      ∃ m, noteLayer.resourceIndex.lookup r.uri = some m ∧ noteLayer.Visible (str "https://stranger/") m := by
  intro all
  have stored : noteLayer.resourceIndex.lookup note.uri = some note := rfl
  have access : noteLayer.hasAccess note.uri "https://stranger/" true = true := by decide +kernel
  obtain ⟨_, stored', visible⟩ := all _ (returned_iff.mpr ⟨by decide +kernel, note, stored, access, rfl⟩)
  cases stored.symm.trans stored'
  unfold Visible Public Names at visible
  revert visible
  decide +kernel

/-- A caller that asks for private resources with a WebID is given all of them. Any other caller is given
what is public or names it; left open is what an anonymous caller is given of resources with access
information and no owner. -/
theorem returned_visible_unless_asked (s : ResourceIndexLayer) (webID : Str) (includePrivate : Bool) :
    (¬ (webID ≠ [] ∧ includePrivate = true) → ∀ r, s.Returned webID includePrivate r →
      ∃ m, s.resourceIndex.lookup r.uri = some m ∧ (s.Visible webID m ∨
          (webID = [] ∧ m.ownerWebID = [] ∧ (s.accessIndex.lookup m.uri).isSome = true))) ∧
    (webID ≠ [] → includePrivate = true → s.closed = false → ∀ uri m, s.resourceIndex.lookup uri = some m →
        s.Returned webID includePrivate (s.convertToIndexedResource m)) := by
  constructor
  · intro unasked r returned
    obtain ⟨-, m, stored, access, rfl⟩ := returned_iff.mp returned
    refine ⟨m, stored, ?_⟩
    by_cases unowned : webID = [] ∧ m.ownerWebID = [] ∧ (s.accessIndex.lookup m.uri).isSome = true
    · exact .inr unowned
    · refine .inl ((guarded_iff stored).mpr ⟨?_, ?_⟩ access)
      · exact fun known asks => absurd ⟨known, asks⟩ unasked
      · exact fun unknown owner informed => absurd ⟨unknown, owner, informed⟩ unowned
  · intro known asks opened uri m stored
    obtain ⟨rfl, -⟩ := s.resourceIndex.sound uri m stored
    exact returned_iff.mpr ⟨opened, m, stored, (hasAccess_iff stored).mpr (.inl ⟨asks, known⟩), rfl⟩

end ResourceIndexLayer

end Runtime
