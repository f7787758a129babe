import SolidSidecar.Run.Machine
import SolidSidecar.Runtime.Indexing

/-!
# The indexes against the stored metadata

The index of a kind is exact when it lists, under every value, the URIs of the stored resources that have
the value, each once. For every operation there is the condition on the state before it under which it
leads from exact indexes to exact ones; over a run the indexes are exact in every state exactly when every
operation meets its condition (`indexes_exact_iff`).

Four things break them. Removal and eviction pass over the full-text index; an update leaves all of them as
they are; a resource that is indexed again is entered again and stays under its old values; and a value
that a resource has twice is entered twice.
-/

namespace Runtime
open Go List ResourceIndex Run

namespace ResourceIndexLayer

variable (s : ResourceIndexLayer)

def Has (kind : IndexKind) (value uri : Str) : Prop :=
  ∃ m, s.resourceIndex.lookup uri = some m ∧ value ∈ m.values kind

/-- The index of a kind agrees with the stored metadata. -/
def Exact (kind : IndexKind) : Prop := (s.indexes kind).Lists (s.Has kind)

/-- All of them agree. The RDF terms are nothing a query can ask for. -/
def Consistent : Prop :=
  ∀ kind, kind ≠ .rdfTerm → s.config.enabled kind = true → s.Exact kind

/-- What the layer is asked to do, with what the language and the clock decide. -/
inductive Op where
  | index (c : Circumstances) (metadata : ResourceMetadata) (accessInfo : Option ResourceAccessInfo)
  | update (c : Circumstances) (metadata : ResourceMetadata) (accessInfo : Option ResourceAccessInfo)
  | remove (uri : Str)
  | invalidate (uri : Str)

def step : Op → ResourceIndexLayer × Except IndexError Unit
  | .index c metadata accessInfo => s.indexResource c metadata accessInfo
  | .update c metadata accessInfo => s.updateResource c metadata accessInfo
  | .remove uri => s.removeResource uri
  | .invalidate uri => (s.invalidateIndexesForResource uri, .ok ())

section Has

variable {s : ResourceIndexLayer} {kind : IndexKind} {value uri : Str} {s' : ResourceIndexLayer}

theorem has_of_deleted (gone : Str) (deleted : s'.resourceIndex = s.resourceIndex.delete gone) :
    s'.Has kind value uri ↔ s.Has kind value uri ∧ uri ≠ gone := by
  unfold Has
  rw [deleted, lookup_delete]
  split_ifs with same <;> simp [same]

theorem has_of_put {m} (valid : m.Valid) (put : s'.resourceIndex = s.resourceIndex.put m valid) :
    s'.Has kind value uri ↔ if uri = m.uri then value ∈ m.values kind else s.Has kind value uri := by
  unfold Has
  rw [put, lookup_put]
  split_ifs
  · simp
  · rfl

theorem not_has_iff : (∀ value, ¬ s.Has kind value uri) ↔
    ∀ old, s.resourceIndex.lookup uri = some old → old.values kind = [] := by
  constructor
  · intro none old stored
    exact eq_nil_iff_forall_not_mem.mpr fun value mem => none value ⟨old, stored, mem⟩
  · rintro none value ⟨old, stored, mem⟩
    rw [none old stored] at mem
    cases mem

end Has

section Step

variable {s : ResourceIndexLayer} {kind : IndexKind}

theorem cleared_iff (config : ResourceIndexConfig) :
    config.cleared kind = true ↔ config.enabled kind = true ∧ kind ≠ .fullText := by
  cases kind <;> simp [ResourceIndexConfig.cleared]

variable {m : ResourceMetadata} {e : Str × ResourceMetadata}

/-- Removal keeps the index of a kind, except the full-text index when the resource has terms. -/
theorem exact_forget_iff (exact : s.Exact kind) (enabled : s.config.enabled kind = true) {uri}
    (stored : s.resourceIndex.lookup uri = some m) :
    (s.forget uri m).Exact kind ↔ (kind = .fullText → m.fullTextTerms = []) := by
  have loses (value uri' : Str) : (s.forget uri m).Has kind value uri' ↔ s.Has kind value uri' ∧ uri' ≠ uri :=
    has_of_deleted uri rfl
  have had (value : Str) : s.Has kind value uri ↔ value ∈ m.values kind := by
    unfold Has
    simp [stored]
  unfold Exact
  by_cases text : kind = .fullText
  · subst text
    have same : (s.forget uri m).indexes .fullText = s.indexes .fullText := rfl
    rw [same, exact.same_iff]
    constructor
    · intro kept _
      refine eq_nil_iff_forall_not_mem.mpr fun value mem => ?_
      exact ((loses value uri).mp ((kept value uri).mpr ((had value).mpr mem))).2 rfl
    · intro none value uri'
      rw [loses, and_iff_left_iff_imp]
      rintro has rfl
      have mem : value ∈ m.fullTextTerms := (had value).mp has
      rw [none rfl] at mem
      cases mem
  · have left : (s.forget uri m).indexes kind = (s.indexes kind).leaveAll (m.values kind) uri :=
      if_pos ((cleared_iff s.config).mpr ⟨enabled, text⟩)
    rw [left, exact.leaveAll_iff loses]
    constructor
    · exact fun _ same => absurd same text
    · exact fun _ value => (had value).mp

/-- A resource that is entered keeps the index of a kind when its values are distinct, and when the entry
it replaces had none. -/
theorem exact_add_iff (exact : s.Exact kind) (enabled : s.config.enabled kind = true)
    (valid : m.Valid) (accessInfo : Option ResourceAccessInfo)
    (links : RangeOrder (Str × Str)) :
    (s.add m valid accessInfo links).Exact kind ↔
      (m.values kind).Nodup ∧ ∀ old, s.resourceIndex.lookup m.uri = some old → old.values kind = [] := by
  have has (value uri : Str) : (s.add m valid accessInfo links).Has kind value uri ↔
      if uri = m.uri then value ∈ m.values kind else s.Has kind value uri := has_of_put valid rfl
  have entered : (s.add m valid accessInfo links).indexes kind =
      (s.indexes kind).enterAll (m.values kind) m.uri := if_pos enabled
  unfold Exact
  rw [entered, exact.enterAll_iff fun value => by rw [has, if_pos rfl], not_has_iff]
  constructor
  · exact fun ⟨distinct, unlisted, _⟩ => ⟨distinct, unlisted⟩
  · rintro ⟨distinct, unlisted⟩
    refine ⟨distinct, unlisted, fun value uri apart => ?_⟩
    rw [has, if_neg apart]

theorem oldest_foldl_mem (found : Option (Str × ResourceMetadata)) (l : List (Str × ResourceMetadata))
    (result : l.foldl (fun found entry =>
        match found with
        | none => some entry
        | some old => if entry.2.lastIndexed.before old.2.lastIndexed then some entry else some old)
      found = some e) : found = some e ∨ e ∈ l := by
  induction l generalizing found with
  | nil => exact .inl result
  | cons entry rest ih =>
    rcases ih _ result with here | later
    · cases found with
      | none =>
        cases here
        exact .inr mem_cons_self
      | some old =>
        dsimp only at here
        split_ifs at here
        · cases here
          exact .inr mem_cons_self
        · exact .inl here
    · exact .inr (mem_cons_of_mem entry later)

def evicted (s : ResourceIndexLayer) (order : RangeOrder (Str × ResourceMetadata)) :
    Option (Str × ResourceMetadata) :=
  if s.full then oldest (order.visit s.resourceIndex.entries.pairs) else none

theorem stored_of_evicted {order} (gone : s.evicted order = some e) : s.resourceIndex.lookup e.1 = some e.2 := by
  unfold evicted at gone
  split_ifs at gone
  rcases oldest_foldl_mem none _ gone with absurd | mem
  · cases absurd
  · exact GoMap.mem_pairs.mp (order.mem_visit.mp mem)

theorem makeRoom_eq (s : ResourceIndexLayer) (order : RangeOrder (Str × ResourceMetadata)) : s.makeRoom order =
      match s.evicted order with
      | none => s
      | some e => s.forget e.1 e.2 := by
  cases gone : s.evicted order with
  | none =>
    unfold evicted at gone
    unfold makeRoom evictOldestEntry
    split_ifs at gone ⊢
    · rw [gone]
    · rfl
  | some e =>
    obtain ⟨uri, m⟩ := e
    have stored := stored_of_evicted gone
    -- what is stored has a URI, so the test for an empty one does not stop the eviction
    have present : uri ≠ [] := by
      obtain ⟨own, valid⟩ := s.resourceIndex.sound uri m stored
      rw [← own]
      exact valid.uri_ne_nil
    unfold evicted at gone
    unfold makeRoom evictOldestEntry
    split_ifs at gone ⊢
    rw [gone]
    exact if_neg present

@[simp] theorem config_makeRoom (order : RangeOrder (Str × ResourceMetadata)) :
    (s.makeRoom order).config = s.config := by
  rw [makeRoom_eq]
  cases s.evicted order <;> rfl

/-- A resource may be indexed: what makes room for it has no full-text terms, no value is given twice, and
an entry under its URI that stays has no values. -/
structure Indexable (s : ResourceIndexLayer) (kind : IndexKind)
    (order : RangeOrder (Str × ResourceMetadata)) (m : ResourceMetadata) : Prop where
  evicts : ∀ e, s.evicted order = some e → kind = .fullText → e.2.fullTextTerms = []
  distinct : (m.values kind).Nodup
  unlisted : ∀ old, s.resourceIndex.lookup m.uri = some old →
    s.evicted order = some (m.uri, old) ∨ old.values kind = []

/-- Indexing keeps the index of a kind exactly when the resource may be indexed. -/
theorem exact_index_iff (exact : s.Exact kind) (enabled : s.config.enabled kind = true)
    (order : RangeOrder (Str × ResourceMetadata)) (valid : m.Valid)
    (accessInfo : Option ResourceAccessInfo) (links : RangeOrder (Str × Str)) :
    ((s.makeRoom order).add m valid accessInfo links).Exact kind ↔ s.Indexable kind order m := by
  cases gone : s.evicted order with
  | none =>
    rw [makeRoom_eq, gone, exact_add_iff exact enabled]
    constructor
    · rintro ⟨distinct, unlisted⟩
      refine ⟨fun e evicts => ?_, distinct, fun old stored => .inr (unlisted old stored)⟩
      rw [gone] at evicts
      cases evicts
    · rintro ⟨-, distinct, unlisted⟩
      refine ⟨distinct, fun old stored => (unlisted old stored).resolve_left ?_⟩
      rw [gone]
      exact Option.some_ne_none _ ∘ symm
  | some e =>
    obtain ⟨uri, old⟩ := e
    have stored : s.resourceIndex.lookup uri = some old := stored_of_evicted gone
    rw [makeRoom_eq, gone]
    by_cases text : kind = .fullText
    · -- the stale entries of the evicted resource are not repaired by what is entered
      subst text
      have has (value uri' : Str) (apart : uri' ≠ m.uri) :
          ((s.forget uri old).add m valid accessInfo links).Has .fullText value uri' ↔
            s.Has .fullText value uri' ∧ uri' ≠ uri := by
        rw [has_of_put valid rfl, if_neg apart, has_of_deleted uri rfl]
      have entered : ((s.forget uri old).add m valid accessInfo links).indexes .fullText =
          (s.indexes .fullText).enterAll m.fullTextTerms m.uri := if_pos enabled
      have gets (value : Str) : ((s.forget uri old).add m valid accessInfo links).Has .fullText value m.uri ↔
          value ∈ m.fullTextTerms := by
        rw [has_of_put valid rfl, if_pos rfl]
        rfl
      unfold Exact
      rw [entered, exact.enterAll_iff gets]
      constructor
      · rintro ⟨distinct, unlisted, others⟩
        refine ⟨?_, distinct, fun old stored => .inr (not_has_iff.mp unlisted old stored)⟩
        intro e evicts _
        cases gone.symm.trans evicts
        refine eq_nil_iff_forall_not_mem.mpr fun value mem => ?_
        have had : s.Has .fullText value uri := ⟨old, stored, mem⟩
        by_cases same : uri = m.uri
        · exact unlisted value (same ▸ had)
        · exact ((has value uri same).mp ((others value uri same).mpr had)).2 rfl
      · rintro ⟨evicts, distinct, unlisted⟩
        have none : old.fullTextTerms = [] := evicts _ gone rfl
        refine ⟨distinct, ?_, ?_⟩
        · rw [not_has_iff]
          intro old' stored'
          rcases unlisted old' stored' with same | empty
          · cases gone.symm.trans same
            exact none
          · exact empty
        · intro value uri' apart
          rw [has value uri' apart, and_iff_left_iff_imp]
          rintro ⟨_, stored', mem⟩ rfl
          cases stored.symm.trans stored'
          rw [ResourceMetadata.values, none] at mem
          cases mem
    · have exact' : (s.forget uri old).Exact kind :=
        (exact_forget_iff exact enabled stored).mpr fun same => absurd same text
      have lookup : (s.forget uri old).resourceIndex.lookup m.uri =
          if m.uri = uri then none else s.resourceIndex.lookup m.uri :=
        lookup_delete s.resourceIndex uri m.uri
      rw [exact_add_iff exact' enabled, lookup]
      constructor
      · rintro ⟨distinct, unlisted⟩
        refine ⟨fun _ _ same => absurd same text, distinct, fun old' stored' => ?_⟩
        by_cases same : m.uri = uri
        · rw [same, stored] at stored'
          cases stored'
          rw [gone, same]
          exact .inl rfl
        · rw [if_neg same] at unlisted
          exact .inr (unlisted old' stored')
      · rintro ⟨-, distinct, unlisted⟩
        refine ⟨distinct, fun old' stored' => ?_⟩
        split_ifs at stored' with same
        refine (unlisted old' stored').resolve_left fun evicts => same ?_
        cases gone.symm.trans evicts
        rfl

/-- An update keeps the index of a kind when the values stay the same. -/
theorem exact_update_iff (exact : s.Exact kind) {s' : ResourceIndexLayer} {existing}
    (valid : m.Valid) (stored : s.resourceIndex.lookup m.uri = some existing)
    (put : s'.resourceIndex = s.resourceIndex.put m valid) (indexes : s'.indexes = s.indexes) :
    s'.Exact kind ↔ ∀ value, value ∈ m.values kind ↔ value ∈ existing.values kind := by
  have had (value : Str) : s.Has kind value m.uri ↔ value ∈ existing.values kind := by
    unfold Has
    simp [stored]
  unfold Exact
  rw [indexes, exact.same_iff]
  constructor
  · intro same value
    rw [← had, ← same, has_of_put valid put, if_pos rfl]
  · intro same value uri
    rw [has_of_put valid put]
    split_ifs with own
    · rw [own, had, same]
    · rfl

theorem exact_invalidate (exact : s.Exact kind) (uri : Str) : (s.invalidateIndexesForResource uri).Exact kind :=
  exact.purge fun _ _ => has_of_deleted uri rfl

/-- The condition under which an operation keeps the index of a kind. -/
def Fits (s : ResourceIndexLayer) (kind : IndexKind) : Op → Prop
  | .index c metadata _ => metadata.Valid → s.closed = false → s.Indexable kind c.entries metadata
  | .update c metadata _ => metadata.Valid → s.closed = false →
    ∀ existing, s.resourceIndex.lookup metadata.uri = some existing →
      ∀ value, value ∈ (metadata.updated existing c.now).values kind ↔ value ∈ existing.values kind
  | .remove uri => s.closed = false → ∀ metadata, s.resourceIndex.lookup uri = some metadata →
    kind = .fullText → metadata.fullTextTerms = []
  | .invalidate _ => True

theorem exact_step_iff (exact : s.Exact kind) (enabled : s.config.enabled kind = true) (op : Op) :
    (s.step op).1.Exact kind ↔ s.Fits kind op := by
  have unchanged {Q} : Q → (s.Exact kind ↔ Q) := iff_of_true exact
  have shut {Q} (closed : s.closed = true) (opened : s.closed = false) : Q := nomatch closed.symm.trans opened
  cases op with
  | index c metadata accessInfo =>
    simp only [step, indexResource]
    split
    · rename_i err refused
      exact unchanged fun valid => nomatch refused.symm.trans (validateMetadata_eq_ok.mpr valid)
    · rename_i passed
      split_ifs with closed
      · exact unchanged fun _ opened => shut closed opened
      · rw [exact_index_iff exact enabled]
        have valid : metadata.Valid := validateMetadata_eq_ok.mp passed
        exact ⟨fun fits _ _ => { fits with }, fun fits => { fits valid (Bool.eq_false_of_not_eq_true closed) with }⟩
  | update c metadata accessInfo =>
    simp only [step, updateResource]
    split
    · rename_i err refused
      exact unchanged fun valid => nomatch refused.symm.trans (validateMetadata_eq_ok.mpr valid)
    · rename_i passed
      split_ifs with closed
      · exact unchanged fun _ opened => shut closed opened
      · have opened : s.closed = false := Bool.eq_false_of_not_eq_true closed
        have valid : metadata.Valid := validateMetadata_eq_ok.mp passed
        split
        · rename_i absent
          exact unchanged fun _ _ existing stored => nomatch absent.symm.trans stored
        · rename_i existing stored
          have valid' := valid.updated (s.resourceIndex.sound _ _ stored).2 c.now
          refine trans (exact_update_iff exact valid' stored rfl rfl) ?_
          constructor
          · intro same _ _ existing' stored'
            cases stored.symm.trans stored'
            exact same
          · exact fun fits => fits valid opened existing stored
  | remove uri =>
    simp only [step, removeResource]
    split_ifs with closed
    · exact unchanged (shut closed)
    · have opened : s.closed = false := Bool.eq_false_of_not_eq_true closed
      split
      · rename_i absent
        exact unchanged fun _ metadata stored => nomatch absent.symm.trans stored
      · rename_i metadata stored
        rw [exact_forget_iff exact enabled stored]
        constructor
        · intro none _ metadata' stored'
          cases stored.symm.trans stored'
          exact none
        · exact fun fits => fits opened metadata stored
  | invalidate uri => exact iff_of_true (exact_invalidate exact uri) trivial

theorem config_step (op : Op) : (s.step op).1.config = s.config := by
  cases op with
  | index c metadata accessInfo =>
    simp only [step, indexResource]
    split
    · rfl
    · split_ifs
      · rfl
      · exact config_makeRoom c.entries
  | update c metadata accessInfo =>
    simp only [step, updateResource]
    split
    · rfl
    · split_ifs
      · rfl
      · split <;> rfl
  | remove uri =>
    simp only [step, removeResource]
    split_ifs
    · rfl
    · split <;> rfl
  | invalidate uri => rfl

end Step

variable (config : ResourceIndexConfig)

theorem consistent_new : (new config).Consistent := by
  intro kind _ _ value
  refine ⟨nodup_nil, fun uri => iff_of_false not_mem_nil ?_⟩
  rintro ⟨_, stored, _⟩
  cases stored

theorem config_exec (ops : List Op) : (exec step (new config) ops).config = config := by
  have keep (s : ResourceIndexLayer) (op : Op) (same : s.config = config) : (s.step op).1.config = config := by
    rw [config_step, same]
  exact @exec_inv _ _ _ step (new config) (fun s => s.config = config) keep rfl ops

/-- With every optional index enabled, the indexes are exact in every state of a run exactly when every
operation of the run fits the state it meets. -/
theorem indexes_exact_iff (config : ResourceIndexConfig) (enabled : ∀ kind, config.enabled kind = true)
    (ops : List Op) :
    (∀ before after, ops = before ++ after → (Run.exec step (new config) before).Consistent) ↔
      ∀ before op after, ops = before ++ op :: after →
        ∀ kind, kind ≠ .rdfTerm → (Run.exec step (new config) before).Fits kind op := by
  have on (before : List Op) (kind : IndexKind) : (exec step (new config) before).config.enabled kind = true := by
    rw [config_exec]
    exact enabled kind
  constructor
  · intro all before op after split kind asked
    have here : (exec step (new config) before).Exact kind := all before _ split kind asked (on before kind)
    rw [← exact_step_iff here (on before kind), ← exec_snoc]
    refine all _ after ?_ kind asked (on _ kind)
    rw [split, append_assoc]
    rfl
  · intro fits
    apply run_inv (consistent_new config)
    intro before op after split here kind asked _
    have here : (exec step (new config) before).Exact kind := here kind asked (on before kind)
    exact (exact_step_iff here (on before kind) op).mpr (fits before op after split kind asked)

def everyIndex : ResourceIndexConfig := { defaultResourceIndexConfig with enableRDFTermIndex := true }

def note : ResourceMetadata where
  uri := "https://pod/note"
  containerURI := "https://pod/"
  resourceType := "Note"
  contentType := "text/plain"
  size := 5
  lastModified := .zero
  created := .zero
  ownerWebID := "https://pod/me"
  contributors := []
  accessControlURI := []
  isPublic := false
  privacyLevel := privacyLevelPrivate
  indexedAt := .zero
  lastIndexed := .zero
  storageRoot := "https://pod/"
  rdfTerms := ∅
  fullTextTerms := ["solid"]
  auxiliaryLinks := none

theorem fits_note {config : ResourceIndexConfig} (room : (new config).full = false) (c : Circumstances)
    (info : Option ResourceAccessInfo) (kind : IndexKind) : (new config).Fits kind (.index c note info) := by
  refine fun _ _ => ⟨fun e evicts => ?_, by cases kind <;> decide, fun old stored => ?_⟩
  · simp [evicted, room] at evicts
  · cases stored

theorem indexes_exact_iff_note : (∀ kind, everyIndex.enabled kind = true) ∧
    ∀ before after, [Op.index ⟨.zero, default, default⟩ note none, .invalidate note.uri] = before ++ after →
      (Run.exec step (new everyIndex) before).Consistent := by
  have enabled : ∀ kind, everyIndex.enabled kind = true := by intro kind; cases kind <;> rfl
  refine ⟨enabled, (indexes_exact_iff everyIndex enabled _).mpr ?_⟩
  refine (along_iff (P := fun s op => ∀ kind, kind ≠ .rdfTerm → Fits s kind op)).mp ?_
  exact ⟨fun kind _ => fits_note rfl _ none kind, fun _ _ => trivial, trivial⟩

/-- The note is indexed and removed: its term still lists it. -/
theorem removed_stays_listed : (∀ kind, everyIndex.enabled kind = true) ∧ ¬ (Run.exec step (new everyIndex)
        [.index ⟨.zero, default, default⟩ note none, .remove note.uri]).Consistent := by
  refine ⟨by intro kind; cases kind <;> rfl, fun consistent => ?_⟩
  obtain ⟨-, listed⟩ := consistent .fullText (by decide) (by decide) "solid"
  have mem : note.uri ∈ Postings.under ((exec step (new everyIndex)
      [.index ⟨.zero, default, default⟩ note none, .remove note.uri]).indexes .fullText) "solid" := by
    decide +kernel
  obtain ⟨_, stored, -⟩ := (listed note.uri).mp mem
  cases stored

end ResourceIndexLayer

end Runtime
