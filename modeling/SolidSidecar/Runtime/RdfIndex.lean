import SolidSidecar.Run.Machine
import SolidSidecar.Runtime.Rdf

/-!
# Queries against the stored graphs

A query reads one index; what it should return are the stored graphs with a triple that has the term
in its place, each once. An index keeps one graph for a pair of terms, so the two agree over a run
exactly when no pair is claimed twice in it (`queries_exact_iff`): by two graphs, by one graph that
meets a term under several partners, or by a graph and an earlier version of it; and when no term is
stored that a query refuses.

The three indexes differ in the pair they read off a triple; everything is proved once, for a function
`key` that reads it off.
-/

namespace Runtime
open Go List GoMap RDFGraphIndexLayer Run

def subjectKey (t : RDFTriple) : Str × Str := (t.subject, t.predicate)

def predicateKey (t : RDFTriple) : Str × Str := (t.predicate, t.object)

def objectKey (t : RDFTriple) : Str × Str := (t.object, t.subject)

def RDFGraph.pairs (key : RDFTriple → Str × Str) (g : RDFGraph) : List (Str × Str) :=
  g.triples.map key

section OneIndex

variable {graphs : GoMap Str RDFGraph} {key : RDFTriple → Str × Str} {index : Index} {g : RDFGraph}

/-- The index holds under each pair the stored graph that has it. -/
def Indexed (graphs : GoMap Str RDFGraph) (key : RDFTriple → Str × Str) (index : Index) : Prop :=
  ∀ a b g, index.lookupIn a b = some g ↔ graphs.lookup g.uri = some g ∧ (a, b) ∈ g.pairs key

/-- A graph whose pairs no other stored graph has, and which has all those of the version it
replaces. -/
structure Claims (graphs : GoMap Str RDFGraph) (key : RDFTriple → Str × Str) (g : RDFGraph) : Prop where
  apart : ∀ other, graphs.lookup other.uri = some other → other.uri ≠ g.uri → ∀ p ∈ g.pairs key, p ∉ other.pairs key
  covers : ∀ old, graphs.lookup g.uri = some old → ∀ p ∈ old.pairs key, p ∈ g.pairs key

def Single (key : RDFTriple → Str × Str) (g : RDFGraph) : Prop :=
  ∀ t ∈ g.triples, ∀ t' ∈ g.triples, (key t).1 = (key t').1 → (key t).2 = (key t').2

def entered (key : RDFTriple → Str × Str) (index : Index) (g : RDFGraph) : Index :=
  (g.pairs key).foldl (fun m p => m.insertIn p.1 p.2 g) (index.ensureIn g.uri)

theorem lookupIn_entered (key : RDFTriple → Str × Str) (index : Index) (g : RDFGraph) (a b : Str) :
    (entered key index g).lookupIn a b =
      if (a, b) ∈ g.pairs key then some g else index.lookupIn a b := by
  rw [entered, lookupIn_insertIn_all, lookupIn_ensureIn]
  split_ifs <;> rfl

theorem Indexed.add (indexed : Indexed graphs key index) (claims : Claims graphs key g) :
    Indexed (graphs.insert g.uri g) key (entered key index g) := by
  intro a b g'
  rw [lookupIn_entered, lookup_insert_eq]
  by_cases mine : (a, b) ∈ g.pairs key
  · rw [if_pos mine]
    constructor
    · intro same
      cases same
      exact ⟨if_pos rfl, mine⟩
    · rintro ⟨stored, theirs⟩
      split_ifs at stored with same
      · exact stored
      · exact absurd theirs (claims.apart g' stored same (a, b) mine)
  · rw [if_neg mine, indexed a b g']
    constructor
    · rintro ⟨stored, theirs⟩
      refine ⟨?_, theirs⟩
      rw [if_neg]
      · exact stored
      · intro same
        rw [same] at stored
        exact mine (claims.covers g' stored (a, b) theirs)
    · rintro ⟨stored, theirs⟩
      split_ifs at stored with same
      · cases stored
        exact absurd theirs mine
      · exact ⟨stored, theirs⟩

theorem Indexed.remove (indexed : Indexed graphs key index) (stored : graphs.lookup g.uri = some g) :
    Indexed (graphs.erase g.uri) key ((g.pairs key).foldl (fun m p => m.eraseIn p.1 p.2) index) := by
  intro a b g'
  rw [lookupIn_eraseIn_all, lookup_erase_eq]
  by_cases mine : (a, b) ∈ g.pairs key
  · have entry := (indexed a b g).mpr ⟨stored, mine⟩
    simp only [mine, if_true, false_iff, reduceCtorEq, not_and]
    intro kept theirs
    split_ifs at kept with same
    -- the pair leads to one graph
    have entry' := (indexed a b g').mpr ⟨kept, theirs⟩
    rw [entry] at entry'
    cases entry'
    exact same rfl
  · rw [if_neg mine, indexed a b g']
    constructor
    · rintro ⟨kept, theirs⟩
      refine ⟨?_, theirs⟩
      rw [if_neg]
      · exact kept
      · intro same
        rw [same, stored] at kept
        cases kept
        exact mine theirs
    · rintro ⟨kept, theirs⟩
      split_ifs at kept
      exact ⟨kept, theirs⟩

theorem lookup_under (index : Index) (term b : Str) : (under index term).lookup b = index.lookupIn term b := by
  unfold under lookupIn
  cases index.lookup term <;> simp

/-- The stored graphs with a triple that has `term` in some place. -/
def Holds (graphs : GoMap Str RDFGraph) (place : RDFTriple → Str) (term : Str) (g : RDFGraph) : Prop :=
  graphs.lookup g.uri = some g ∧ ∃ t ∈ g.triples, place t = term

/-- What is read under a term: the stored graphs that have it, each once. -/
theorem Indexed.read (indexed : Indexed graphs key index)
    (single : ∀ g, graphs.lookup g.uri = some g → Single key g) (term : Str) :
    (under index term).values.Nodup ∧
      ∀ g, g ∈ (under index term).values ↔ Holds graphs (fun t => (key t).1) term g := by
  constructor
  · apply GoMap.values_nodup.mpr
    intro b b' g first second
    rw [lookup_under, indexed] at first second
    obtain ⟨t, mem, pair⟩ := mem_map.mp first.2
    obtain ⟨t', mem', pair'⟩ := mem_map.mp second.2
    have partners := single g first.1 t mem t' mem' (by rw [pair, pair'])
    rwa [pair, pair'] at partners
  · intro g
    simp only [mem_values, lookup_under, indexed term _ g, exists_and_left, RDFGraph.pairs, mem_map]
    apply and_congr_right
    intro _
    constructor
    · rintro ⟨b, t, mem, pair⟩
      exact ⟨t, mem, congrArg Prod.fst pair⟩
    · rintro ⟨t, mem, rfl⟩
      exact ⟨(key t).2, t, mem, rfl⟩

/-- If what is read is right after a graph was entered, the graph claimed no pair twice. -/
theorem Indexed.claims_of_read (indexed : Indexed graphs key index)
    (named : ∀ u g, graphs.lookup u = some g → g.uri = u)
    (single : ∀ g, graphs.lookup g.uri = some g → Single key g)
    (read : ∀ term, (∃ g', (g' = g ∨ graphs.lookup g'.uri = some g') ∧ ∃ t ∈ g'.triples, (key t).1 = term) →
      (under (entered key index g) term).values.Nodup ∧ ∀ g', g' ∈ (under (entered key index g) term).values ↔
          Holds (graphs.insert g.uri g) (fun t => (key t).1) term g') :
    Claims graphs key g ∧ Single key g := by
  have entry : ∀ p ∈ g.pairs key, (under (entered key index g) p.1).lookup p.2 = some g := by
    intro p mine
    rw [lookup_under, lookupIn_entered, if_pos mine]
  refine ⟨⟨?_, ?_⟩, ?_⟩
  · -- a pair that another graph has would hide it, since it has no other entry under the term
    intro other stored apart p mine theirs
    obtain ⟨t, mem, rfl⟩ := mem_map.mp theirs
    obtain ⟨_, members⟩ := read (key t).1 ⟨other, .inr stored, t, mem, rfl⟩
    have kept : other ∈ (under (entered key index g) (key t).1).values := by
      refine (members other).mpr ⟨?_, t, mem, rfl⟩
      rw [lookup_insert_eq, if_neg apart]
      exact stored
    obtain ⟨b, found⟩ := GoMap.mem_values.mp kept
    rw [lookup_under, lookupIn_entered] at found
    split_ifs at found with mine'
    · cases found
      exact apart rfl
    · obtain ⟨_, pair⟩ := (indexed _ b other).mp found
      obtain ⟨t', mem', same⟩ := mem_map.mp pair
      have partners : (key t).2 = (key t').2 := single other stored t mem t' mem' (by rw [same])
      rw [same] at partners
      have pair : key t = ((key t).1, b) := Prod.ext rfl partners
      exact mine' (pair ▸ mine)
  · -- a pair of the old version that the new one lacks would still lead to the old one
    intro old stored p theirs
    by_contra lost
    have name := named g.uri old stored
    have present : graphs.lookup old.uri = some old := by rw [name, stored]
    obtain ⟨t, mem, rfl⟩ := mem_map.mp theirs
    obtain ⟨_, members⟩ := read (key t).1 ⟨old, .inr present, t, mem, rfl⟩
    have left : old ∈ (under (entered key index g) (key t).1).values := by
      apply GoMap.mem_values.mpr
      refine ⟨(key t).2, ?_⟩
      rw [lookup_under, lookupIn_entered, if_neg lost]
      exact (indexed _ _ old).mpr ⟨present, theirs⟩
    obtain ⟨again, _⟩ := (members old).mp left
    rw [lookup_insert_eq, if_pos name] at again
    cases again
    exact lost theirs
  · intro t mem t' mem' same
    obtain ⟨once, _⟩ := read (key t).1 ⟨g, .inl rfl, t, mem, rfl⟩
    have first := entry (key t) (mem_map_of_mem mem)
    have second := entry (key t') (mem_map_of_mem mem')
    rw [← same] at second
    exact GoMap.values_nodup.mp once _ _ g first second

end OneIndex

namespace RDFGraphIndexLayer

/-- Each term has one partner, and every term may be asked for. -/
structure Plain (g : RDFGraph) : Prop where
  subject : Single subjectKey g
  predicate : Single predicateKey g
  object : Single objectKey g
  terms : ∀ t ∈ g.triples, ∀ term ∈ [t.subject, t.predicate, t.object], validateRDFTerm term = .ok ()

/-- The indexes agree with the stored graphs, and those are plain. -/
structure Faithful (r : RDFGraphIndexLayer) : Prop where
  running : r.closed = false
  named : ∀ u g, r.graphs.lookup u = some g → g.uri = u
  subject : Indexed r.graphs subjectKey r.subjectIndex
  predicate : Indexed r.graphs predicateKey r.predicateIndex
  object : Indexed r.graphs objectKey r.objectIndex
  plain : ∀ g, r.graphs.lookup g.uri = some g → Plain g

/-- A graph that can be stored without touching the entries of another one or leaving its own old
ones behind. -/
structure Admits (r : RDFGraphIndexLayer) (g : RDFGraph) : Prop where
  plain : Plain g
  subject : Claims r.graphs subjectKey g
  predicate : Claims r.graphs predicateKey g
  object : Claims r.graphs objectKey g

theorem foldl_indexTriple (g : RDFGraph) (ts : List RDFTriple) (r : RDFGraphIndexLayer) : ts.foldl (indexTriple g) r =
      { r with
        subjectIndex := (ts.map subjectKey).foldl (fun m p => m.insertIn p.1 p.2 g) r.subjectIndex
        predicateIndex :=
          (ts.map predicateKey).foldl (fun m p => m.insertIn p.1 p.2 g) r.predicateIndex
        objectIndex := (ts.map objectKey).foldl (fun m p => m.insertIn p.1 p.2 g) r.objectIndex } := by
  induction ts generalizing r with
  | nil => rfl
  | cons t rest ih =>
    rw [foldl_cons, ih]
    rfl

theorem foldl_unindexTriple (uri : Str) (ts : List RDFTriple) (r : RDFGraphIndexLayer) :
    ts.foldl (unindexTriple uri) r = { r with
        subjectIndex := (ts.map subjectKey).foldl (fun m p => m.eraseIn p.1 p.2) r.subjectIndex
        predicateIndex := (ts.map predicateKey).foldl (fun m p => m.eraseIn p.1 p.2) r.predicateIndex
        objectIndex := (ts.map objectKey).foldl (fun m p => m.eraseIn p.1 p.2) r.objectIndex
        typeIndex := ts.foldl (dropType uri) r.typeIndex } := by
  induction ts generalizing r with
  | nil => rfl
  | cons t rest ih =>
    rw [foldl_cons, ih]
    rfl

variable {r : RDFGraphIndexLayer}

/-- What storing a graph does to an open layer with room for it. -/
theorem addToIndexes_eq (running : r.closed = false) (room : r.graphs.size < r.config.maxGraphs) (g : RDFGraph) :
    r.addToIndexes g = { r with
        graphs := r.graphs.insert g.uri g
        subjectIndex := entered subjectKey r.subjectIndex g
        predicateIndex := entered predicateKey r.predicateIndex g
        objectIndex := entered objectKey r.objectIndex g } := by
  have fits : ¬ r.graphs.size ≥ r.config.maxGraphs := by omega
  unfold addToIndexes
  rw [running, if_neg fits, foldl_indexTriple]
  rfl

theorem Faithful.add (faithful : Faithful r) {g}
    (admits : r.graphs.size < r.config.maxGraphs → Admits r g) : Faithful (r.addToIndexes g) := by
  by_cases room : r.graphs.size < r.config.maxGraphs
  · obtain ⟨plain, subject, predicate, object⟩ := admits room
    rw [addToIndexes_eq faithful.running room]
    refine ⟨faithful.running, ?_, faithful.subject.add subject, faithful.predicate.add predicate,
      faithful.object.add object, ?_⟩
    · intro u g' stored
      rw [lookup_insert_eq] at stored
      split_ifs at stored with same
      · cases stored
        exact same.symm
      · exact faithful.named u g' stored
    · intro g' stored
      rw [lookup_insert_eq] at stored
      split_ifs at stored
      · cases stored
        exact plain
      · exact faithful.plain g' stored
  · unfold addToIndexes
    rw [faithful.running, if_neg Bool.false_ne_true, if_pos (by omega)]
    exact faithful

theorem Faithful.remove (faithful : Faithful r) (uri : Str) : Faithful (r.removeGraph uri).1 := by
  unfold removeGraph
  rw [faithful.running, if_neg Bool.false_ne_true]
  split
  · exact faithful
  · rename_i g stored
    have name := faithful.named uri g stored
    subst name
    rw [foldl_unindexTriple]
    refine ⟨faithful.running, ?_, faithful.subject.remove stored, faithful.predicate.remove stored,
      faithful.object.remove stored, ?_⟩
    · intro u g' kept
      rw [lookup_erase_eq] at kept
      split_ifs at kept
      exact faithful.named u g' kept
    · intro g' kept
      rw [lookup_erase_eq] at kept
      split_ifs at kept
      exact faithful.plain g' kept

/-- The graphs a query returned, none where it refused. -/
def returned (answer : Except RDFError (List RDFGraph)) : List RDFGraph :=
  match answer with
  | .ok found => found
  | .error _ => []

/-- A list holds the stored graphs with a triple that has `term` in some place, each once. -/
def Exactly (r : RDFGraphIndexLayer) (place : RDFTriple → Str) (term : Str) (found : List RDFGraph) : Prop :=
  found.Nodup ∧ ∀ g, g ∈ found ↔ Holds r.graphs place term g

/-- All three queries return for every term, in every order, what a scan of the stored graphs
returns. -/
def QueriesExact (r : RDFGraphIndexLayer) : Prop :=
  ∀ order term, Exactly r RDFTriple.subject term (returned (r.queryBySubject order term)) ∧
    Exactly r RDFTriple.predicate term (returned (r.queryByPredicate order term)) ∧
    Exactly r RDFTriple.object term (returned (r.queryByObject order term))

theorem Faithful.query (faithful : Faithful r) {key index} (indexed : Indexed r.graphs key index)
    (single : ∀ g, r.graphs.lookup g.uri = some g → Single key g)
    (terms : ∀ g, r.graphs.lookup g.uri = some g → ∀ t ∈ g.triples, validateRDFTerm (key t).1 = .ok ())
    (order : RangeOrder RDFGraph) (term : Str) :
    Exactly r (fun t => (key t).1) term (returned (r.query index order term)) := by
  unfold RDFGraphIndexLayer.query
  split
  · rename_i _ refused
    refine ⟨nodup_nil, fun g => ?_⟩
    simp only [returned, not_mem_nil, false_iff]
    rintro ⟨stored, t, mem, rfl⟩
    rw [terms g stored t mem] at refused
    cases refused
  · rw [faithful.running, if_neg Bool.false_ne_true]
    obtain ⟨once, members⟩ := indexed.read single term
    have visited := order.perm (under index term).values
    refine ⟨visited.nodup_iff.mpr once, fun g => ?_⟩
    rw [returned, visited.mem_iff, members g]

theorem Faithful.queriesExact (faithful : Faithful r) : QueriesExact r := by
  intro order term
  refine ⟨?_, ?_, ?_⟩
  · apply faithful.query faithful.subject fun g stored => (faithful.plain g stored).subject
    intro g stored t mem
    exact (faithful.plain g stored).terms t mem t.subject (by simp)
  · apply faithful.query faithful.predicate fun g stored => (faithful.plain g stored).predicate
    intro g stored t mem
    exact (faithful.plain g stored).terms t mem t.predicate (by simp)
  · apply faithful.query faithful.object fun g stored => (faithful.plain g stored).object
    intro g stored t mem
    exact (faithful.plain g stored).terms t mem t.object (by simp)

section Exact

variable {r : RDFGraphIndexLayer} {index : Index} {place : RDFTriple → Str} {term : Str}

/-- An exact query refuses no term that a stored graph has. -/
theorem valid_of_exactly (exact : Exactly r place term (returned (r.query index default term)))
    {g} (holds : Holds r.graphs place term g) : validateRDFTerm term = .ok () := by
  have found := (exact.2 g).mpr holds
  unfold query at found
  split at found
  · cases found
  · assumption

theorem read_of_exactly (exact : Exactly r place term (returned (r.query index default term)))
    (running : r.closed = false) (valid : validateRDFTerm term = .ok ()) :
    (under index term).values.Nodup ∧ ∀ g, g ∈ (under index term).values ↔ Holds r.graphs place term g := by
  unfold query at exact
  rw [valid, running] at exact
  exact exact

end Exact

/-- If the queries are exact after a graph was stored, the layer had a place for it. -/
theorem Faithful.admits_of_exact (faithful : Faithful r) {g}
    (room : r.graphs.size < r.config.maxGraphs) (exact : QueriesExact (r.addToIndexes g)) :
    Admits r g := by
  rw [addToIndexes_eq faithful.running room] at exact
  have stored : (r.graphs.insert g.uri g).lookup g.uri = some g := by simp
  have terms : ∀ t ∈ g.triples, ∀ term ∈ [t.subject, t.predicate, t.object], validateRDFTerm term = .ok () := by
    intro t mem term place
    simp only [mem_cons, not_mem_nil, or_false] at place
    rcases place with rfl | rfl | rfl
    · exact valid_of_exactly (exact default t.subject).1 ⟨stored, t, mem, rfl⟩
    · exact valid_of_exactly (exact default t.predicate).2.1 ⟨stored, t, mem, rfl⟩
    · exact valid_of_exactly (exact default t.object).2.2 ⟨stored, t, mem, rfl⟩
  have valid : ∀ g', (g' = g ∨ r.graphs.lookup g'.uri = some g') → ∀ t ∈ g'.triples,
      ∀ term ∈ [t.subject, t.predicate, t.object], validateRDFTerm term = .ok () := by
    rintro g' (rfl | before)
    · exact terms
    · exact (faithful.plain g' before).terms
  obtain ⟨subject, single⟩ := faithful.subject.claims_of_read faithful.named
    (fun g stored => (faithful.plain g stored).subject) (by
      rintro term ⟨g', known, t, mem, same⟩
      exact read_of_exactly (exact default term).1 faithful.running
        (valid g' known t mem term (by simp [← same, subjectKey])))
  obtain ⟨predicate, single'⟩ := faithful.predicate.claims_of_read faithful.named
    (fun g stored => (faithful.plain g stored).predicate) (by
      rintro term ⟨g', known, t, mem, same⟩
      exact read_of_exactly (exact default term).2.1 faithful.running
        (valid g' known t mem term (by simp [← same, predicateKey])))
  obtain ⟨object, single''⟩ := faithful.object.claims_of_read faithful.named
    (fun g stored => (faithful.plain g stored).object) (by
      rintro term ⟨g', known, t, mem, same⟩
      exact read_of_exactly (exact default term).2.2 faithful.running
        (valid g' known t mem term (by simp [← same, objectKey])))
  exact ⟨⟨single, single', single'', terms⟩, subject, predicate, object⟩

inductive Op where
  | parse (uri : Str) (content : Bytes) (contentType : Str)
  | removeGraph (uri : Str)

section Runs

variable [Unicode] (sha256 : Str → Str)

def step (r : RDFGraphIndexLayer) : Op → RDFGraphIndexLayer × Bool
  | .parse uri content contentType =>
    let parsed := r.parse sha256 uri content contentType
    (parsed.1, match parsed.2 with
      | some (.ok _) => true
      | _ => false)
  | .removeGraph uri =>
    let removed := r.removeGraph uri
    (removed.1, removed.2.isOk)

/-- A document that passes all checks and is stored has a place in the indexes. -/
def Admissible (r : RDFGraphIndexLayer) : Op → Prop
  | .parse uri content contentType =>
    checkArguments uri content contentType = .ok () →
      content.bytes.length ≤ r.config.maxGraphSize → r.graphs.size < r.config.maxGraphs →
        Admits r (graphOf sha256 uri content.bytes)
  | .removeGraph _ => True

variable {r : RDFGraphIndexLayer}

omit [Unicode] in
theorem Faithful.typed (faithful : Faithful r) (types : GoMap Str (List Str)) :
    Faithful { r with typeIndex := types } :=
  { faithful with }

/-- A parse that fails leaves the layer as it was, and one that succeeds stores the graph. -/
theorem Faithful.parse_cases (faithful : Faithful r) (uri : Str) (content : Bytes) (contentType : Str) :
    (¬ (checkArguments uri content contentType = .ok () ∧ content.bytes.length ≤ r.config.maxGraphSize) ∧
        (r.parse sha256 uri content contentType).1 = r) ∨
      ((checkArguments uri content contentType = .ok () ∧ content.bytes.length ≤ r.config.maxGraphSize) ∧
        ∃ types, (r.parse sha256 uri content contentType).1 =
          addToIndexes { r with typeIndex := types } (graphOf sha256 uri content.bytes)) := by
  cases checked : checkArguments uri content contentType with
  | error err =>
    refine .inl ⟨nofun, ?_⟩
    unfold parse
    rw [checked]
  | ok u =>
    rw [parse_eq sha256 checked faithful.running]
    unfold parseTurtle
    split_ifs
    · exact .inl ⟨fun ⟨_, small⟩ => by omega, rfl⟩
    · exact .inr ⟨⟨rfl, by omega⟩, _, rfl⟩

theorem Faithful.step (faithful : Faithful r) {op}
    (admissible : Admissible sha256 r op) : Faithful (r.step sha256 op).1 := by
  cases op with
  | removeGraph uri => exact faithful.remove uri
  | parse uri content contentType =>
    show Faithful (r.parse sha256 uri content contentType).1
    rcases faithful.parse_cases sha256 uri content contentType with
      ⟨_, same⟩ | ⟨⟨checked, small⟩, types, stored⟩
    · rw [same]
      exact faithful
    · rw [stored]
      exact (faithful.typed types).add fun room => { admissible checked small room with }

theorem Faithful.admissible_of_exact (faithful : Faithful r) {op}
    (exact : QueriesExact (r.step sha256 op).1) : Admissible sha256 r op := by
  cases op with
  | removeGraph uri => trivial
  | parse uri content contentType =>
    intro checked small room
    have exact : QueriesExact (r.parse sha256 uri content contentType).1 := exact
    rcases faithful.parse_cases sha256 uri content contentType with
      ⟨refused, _⟩ | ⟨_, types, stored⟩
    · exact absurd ⟨checked, small⟩ refused
    · rw [stored] at exact
      exact { (faithful.typed types).admits_of_exact room exact with }

omit [Unicode] in
theorem faithful_new (config : RDFGraphIndexConfig) : Faithful { config } := by
  have none (key : RDFTriple → Str × Str) : Indexed ∅ key ∅ := by
    intro a b g
    simp [GoMap.lookupIn]
  exact ⟨rfl, by simp, none subjectKey, none predicateKey, none objectKey, by simp⟩

/-- A run keeps the invariant when every step is admissible where the invariant holds. -/
theorem run_faithful (config : RDFGraphIndexConfig) {inputs}
    (admissible : ∀ before op after, inputs = before ++ op :: after →
      Faithful (exec (step sha256) { config } before) →
      Admissible sha256 (exec (step sha256) { config } before) op) :
    ∀ before after, inputs = before ++ after → Faithful (exec (step sha256) { config } before) := by
  apply run_inv (faithful_new config)
  intro before op after split faithful
  exact faithful.step sha256 (admissible before op after split faithful)

/-- The queries are exact in every state of a run exactly when every document stored in it had a place
in the indexes. -/
theorem queries_exact_iff (config : RDFGraphIndexConfig) (inputs : List Op) :
    (∀ before after, inputs = before ++ after → QueriesExact (Run.exec (step sha256) { config } before)) ↔
      ∀ before op after, inputs = before ++ op :: after →
        Admissible sha256 (Run.exec (step sha256) { config } before) op := by
  constructor
  · intro exact
    -- an exact state after a step shows that the step was admissible, and so keeps the invariant
    have next : ∀ before op after, inputs = before ++ op :: after → Faithful (exec (step sha256) { config } before) →
        Admissible sha256 (exec (step sha256) { config } before) op := by
      intro before op after split faithful
      apply faithful.admissible_of_exact
      have later := exact (before ++ [op]) after (by simp [split])
      rwa [exec_snoc] at later
    intro before op after split
    exact next before op after split (run_faithful sha256 config next before (op :: after) split)
  · intro admissible
    have kept := run_faithful sha256 config fun before op after split _ =>
      admissible before op after split
    intro before after split
    exact (kept before after split).queriesExact

end Runs

section Sample

attribute [local instance] Unicode.ascii

/-- The layer after some Turtle documents were parsed. -/
def parsed (documents : List (String × String)) : RDFGraphIndexLayer :=
  Run.exec (step id) { config := {} } (documents.map fun (uri, content) =>
    .parse (str uri) ⟨str content, []⟩ "text/turtle")

/-- A stored graph with a subject is missing from the answer, or is not in it once. -/
def misses (r : RDFGraphIndexLayer) (uri subject : String) : Bool :=
  match r.graphs.lookup (str uri) with
  | none => false
  | some g =>
    g.uri = str uri && (g.triples.any fun t => t.subject = str subject) &&
      (returned (r.queryBySubject default (str subject))).count g ≠ 1

theorem not_exact_of_misses {r} (uri subject : String) (missed : r.misses uri subject = true) : ¬ QueriesExact r := by
  intro exact
  unfold misses at missed
  split at missed
  · cases missed
  · rename_i g stored
    simp only [Bool.and_eq_true, decide_eq_true_eq, any_eq_true] at missed
    obtain ⟨⟨name, t, mem, same⟩, count⟩ := missed
    obtain ⟨once, members⟩ := (exact default (str subject)).1
    have found := (members g).mpr ⟨by rw [name, stored], t, mem, same⟩
    exact count (count_eq_one_of_mem once found)

/-- Two documents with one subject and predicate, one document with two predicates of a subject, and a
subject with a fragment, each make a query wrong. -/
theorem queries_inexact : ¬ QueriesExact (parsed [("test://a", "<s> <p> <o> ."), ("test://b", "<s> <p> <q> .")]) ∧
      ¬ QueriesExact (parsed [("test://a", "<s> <p> <o> .\n<s> <q> <x> .")]) ∧
      ¬ QueriesExact (parsed [("test://a", "<http://x/#me> <p> <o> .")]) := by
  refine ⟨?_, ?_, ?_⟩
  · apply not_exact_of_misses "test://a" "s"
    decide +kernel
  · apply not_exact_of_misses "test://a" "s"
    decide +kernel
  · apply not_exact_of_misses "test://a" "http://x/#me"
    decide +kernel

-- a document that is parsed again without one of its statements is still found by it
example : (returned ((parsed [("test://a", "<s> <p> <o> ."), ("test://a", "<t> <p> <o> .")]).queryBySubject
      default (str "s"))).length = 1 := by
  decide +kernel

end Sample

end RDFGraphIndexLayer

end Runtime
