import SolidSidecar.Go.Map
import SolidSidecar.Go.Strings

/-!
# Routing between storages

The routes of `multi_storage.go`. `ResolveStorageBackend` ranges over a map and keeps the first route of the highest
priority that it meets; a pattern is compared as a text, whether or not it ends at a slash. Tenants and conditions of
routes, which are not looked at, are left out.
-/

namespace Runtime
open Go List Strings

structure StorageRoute where
  routeID : Str
  pattern : Str
  storageBackend : Str
  priority : Int
  deriving DecidableEq

inductive RouteError where
  | new (text : String)
  | exists (routeID : Str)
  deriving DecidableEq

structure MultiStorageLayer where
  storageRoutes : GoMap Str StorageRoute := ∅
  defaultStorage : Str := []
  closed : Bool := false

namespace MultiStorageLayer

def addStorageRoute (m : MultiStorageLayer) (route : Option StorageRoute) :
    MultiStorageLayer × Except RouteError Unit :=
  if m.closed then (m, .error (.new "multi-storage layer is closed"))
  else match route with
    | none => (m, .error (.new "route cannot be nil"))
    | some route =>
      if route.routeID = [] then (m, .error (.new "route ID cannot be empty"))
      else if route.storageBackend = [] then (m, .error (.new "storage backend cannot be empty"))
      else if (m.storageRoutes.lookup route.routeID).isSome then (m, .error (.exists route.routeID))
      else ({ m with storageRoutes := m.storageRoutes.insert route.routeID route }, .ok ())

def routeMatches (route : StorageRoute) (resourceURI : Str) : Bool :=
  route.pattern = "*" || route.pattern = resourceURI || hasPrefix resourceURI route.pattern

def bestRoute (m : MultiStorageLayer) (order : RangeOrder (Str × StorageRoute)) (resourceURI : Str) :
    Option StorageRoute :=
  (order.visit m.storageRoutes.pairs).foldl (fun best entry =>
    if routeMatches entry.2 resourceURI && best.all (entry.2.priority > ·.priority) then some entry.2 else best) none

def resolveStorageBackend (m : MultiStorageLayer) (order : RangeOrder (Str × StorageRoute)) (resourceURI : Str) :
    Except RouteError Str :=
  if m.closed then .error (.new "multi-storage layer is closed")
  else .ok (((m.bestRoute order resourceURI).map (·.storageBackend)).getD m.defaultStorage)

def AtBoundary (pattern uri : Str) : Prop :=
  uri = pattern ∨ pattern ++ str "/" <+: uri ∨ "/" <:+ pattern ∧ pattern <+: uri

def Candidate (m : MultiStorageLayer) (uri : Str) (route : StorageRoute) : Prop :=
  (∃ id, m.storageRoutes.lookup id = some route) ∧ routeMatches route uri = true

def Best (m : MultiStorageLayer) (uri : Str) (route : StorageRoute) : Prop :=
  m.Candidate uri route ∧ ∀ other, m.Candidate uri other → other.priority ≤ route.priority

/-- Every order gives one backend, that of a route of maximal priority, and the default one where no route matches;
patterns match at slashes. -/
structure Routed (m : MultiStorageLayer) (uri : Str) : Prop where
  unique : ∃ backend, ∀ order, m.resolveStorageBackend order uri = .ok backend
  best : ∀ order backend, m.resolveStorageBackend order uri = .ok backend →
    (∃ route, m.Best uri route ∧ route.storageBackend = backend) ∨
      (∀ route, ¬ m.Candidate uri route) ∧ backend = m.defaultStorage
  bounded : ∀ route, m.Candidate uri route → route.pattern = "*" ∨ AtBoundary route.pattern uri

variable {m : MultiStorageLayer} {uri : Str} {order : RangeOrder (Str × StorageRoute)} {route : StorageRoute}

theorem bestRoute_eq : m.bestRoute order uri =
    (((order.visit m.storageRoutes.pairs).map Prod.snd).filter (routeMatches · uri)).argmax StorageRoute.priority := by
  rw [bestRoute, argmax, foldl_filter, foldl_map]
  congr 1
  funext best entry
  cases best <;> by_cases h : routeMatches entry.2 uri = true <;> simp [argAux, h]

theorem mem_candidates : route ∈ ((order.visit m.storageRoutes.pairs).map Prod.snd).filter (routeMatches · uri) ↔
    m.Candidate uri route := by
  simp [order.mem_visit, GoMap.mem_pairs, Candidate]

theorem bestRoute_spec (m : MultiStorageLayer) (order : RangeOrder (Str × StorageRoute)) (uri : Str) :
    (∃ route, m.bestRoute order uri = some route ∧ m.Best uri route) ∨
      m.bestRoute order uri = none ∧ ∀ route, ¬ m.Candidate uri route := by
  cases found : m.bestRoute order uri with
  | none =>
    refine .inr ⟨rfl, fun route candidate => ?_⟩
    rw [bestRoute_eq, argmax_eq_none] at found
    exact not_mem_nil (found ▸ mem_candidates.mpr candidate)
  | some route =>
    rw [bestRoute_eq] at found
    exact .inl ⟨route, rfl, mem_candidates.mp (argmax_mem found),
      fun other candidate => le_of_mem_argmax (mem_candidates.mpr candidate) found⟩

/-- A route of maximal priority that comes first stays. -/
theorem Best.exists_order (best : m.Best uri route) : ∃ order, m.bestRoute order uri = some route := by
  obtain ⟨⟨⟨_, listed⟩, fits⟩, maximal⟩ := best
  obtain ⟨order, _, visits⟩ := RangeOrder.exists_first (GoMap.mem_pairs.mpr listed)
  have all := fun other => @mem_candidates m uri order other
  refine ⟨order, ?_⟩
  rw [bestRoute_eq]
  simp only [visits, map_cons, filter_cons, fits, if_true] at all ⊢
  rw [argmax_cons]
  cases later : argmax StorageRoute.priority _ with
  | none => rfl
  | some other =>
    have least := maximal other ((all other).mp (mem_cons_of_mem _ (argmax_mem later)))
    exact if_neg least.not_gt

theorem routed_iff_agree (m : MultiStorageLayer) (uri : Str) : m.Routed uri ↔ m.closed = false ∧
      (∀ a b, m.Best uri a → m.Best uri b → a.storageBackend = b.storageBackend) ∧
      ∀ id route, m.storageRoutes.lookup id = some route → route.pattern <+: uri →
        route.pattern = str "*" ∨ AtBoundary route.pattern uri := by
  constructor
  · rintro ⟨⟨backend, same⟩, -, bounded⟩
    have isOpen : m.closed = false := by
      cases closed : m.closed with
      | false => rfl
      | true => simpa [resolveStorageBackend, closed] using same default
    have only : ∀ a, m.Best uri a → a.storageBackend = backend := by
      intro a best
      obtain ⟨order, found⟩ := best.exists_order
      simpa [resolveStorageBackend, isOpen, found] using same order
    refine ⟨isOpen, fun a b first second => (only a first).trans (only b second).symm, fun id route listed below => ?_⟩
    exact bounded route ⟨⟨id, listed⟩, by simp [routeMatches, hasPrefix, below]⟩
  · rintro ⟨isOpen, agree, bounded⟩
    have resolves (order backend) : m.resolveStorageBackend order uri = .ok backend ↔
        ((m.bestRoute order uri).map (·.storageBackend)).getD m.defaultStorage = backend := by
      simp [resolveStorageBackend, isOpen]
    refine ⟨?_, fun order backend => ?_, ?_⟩
    · refine ⟨((m.bestRoute default uri).map (·.storageBackend)).getD m.defaultStorage, fun order => ?_⟩
      rw [resolves]
      rcases bestRoute_spec m order uri with ⟨a, found, best⟩ | ⟨found, none⟩ <;>
        rcases bestRoute_spec m default uri with ⟨b, found', best'⟩ | ⟨found', none'⟩ <;> rw [found, found']
      · exact agree a b best best'
      · exact absurd best.1 (none' a)
      · exact absurd best'.1 (none b)
    · rw [resolves]
      rintro rfl
      rcases bestRoute_spec m order uri with ⟨route, found, best⟩ | ⟨found, none⟩
      · exact .inl ⟨route, best, by rw [found]; rfl⟩
      · exact .inr ⟨none, by rw [found]; rfl⟩
    · rintro route ⟨⟨id, listed⟩, fits⟩
      simp only [routeMatches, Bool.or_eq_true, decide_eq_true_eq, hasPrefix, isPrefixOf_iff_prefix] at fits
      rcases fits with (any | rfl) | below
      · exact .inl any
      · exact .inr (.inl rfl)
      · exact bounded id route listed below

def tied : MultiStorageLayer :=
  let m := ({} : MultiStorageLayer).addStorageRoute (some ⟨"a", "/pods/a", "disk", 1⟩)
  (m.1.addStorageRoute (some ⟨str "b", str "/pods/", str "remote", 1⟩)).1

/-- The order decides where `/pods/a` is kept, and `/pods/alice` matches the route of `/pods/a`. -/
theorem tied_not_routed : ¬ tied.Routed (str "/pods/a") ∧ ¬ tied.Routed (str "/pods/alice") := by
  refine ⟨fun routed => ?_, fun routed => ?_⟩
  · obtain ⟨_, same⟩ := routed.unique
    have forwards : tied.resolveStorageBackend default "/pods/a" = .ok "remote" := by decide
    have backwards : tied.resolveStorageBackend ⟨reverse, reverse_perm⟩ "/pods/a" = .ok "disk" := by decide
    rw [same] at forwards backwards
    exact absurd (forwards.symm.trans backwards) (by decide)
  · have at' := routed.bounded ⟨"a", "/pods/a", "disk", 1⟩ ⟨⟨"a", by decide⟩, by decide⟩
    revert at'
    unfold AtBoundary
    decide

end MultiStorageLayer

end Runtime
