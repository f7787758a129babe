import SolidSidecar.Run.Machine
import SolidSidecar.Sai.Storage

/-!
# The storage as a map of values

A storage for values is a map: what is stored under an id is read back until it is deleted, and the
values of a user are those in the map. Here callers hold pointers: they make structs, store them, get
others back, and write to all of them. The storage answers as the map does in every run that stores
values equal to their copies, under ids that are free, and does not write to a struct that is stored
(`InMemorySAIStorage.refines_of_fair`); the runs at the end of the module show what happens otherwise.
-/

namespace Sai
open Go List Option Table GoMap

variable {α : Type}

inductive Call (α : Type) where
  | new (v : α)
  | modify (r : Ref) (v : α)
  | store (ref : Option Ref)
  | get (id : Str)
  | list (user : Str) (order : RangeOrder Str)
  | delete (id : Str)

inductive Answer where
  | done
  | failed (err : StorageError)
  | pointer (r : Ref)
  | pointers (refs : List (Option Ref))
  deriving DecidableEq, Repr

def Answer.ofError : Option StorageError → Answer
  | none => .done
  | some err => .failed err

def Answer.ofPointer : Except StorageError Ref → Answer
  | .ok r => .pointer r
  | .error err => .failed err

def Table.perform (k : Kind α) (t : Table α) : Call α → Table α × Answer
  | .new v => ({ t with heap := (t.heap.alloc v).1 }, .pointer (t.heap.alloc v).2)
  | .modify r v => ({ t with heap := t.heap.write r v }, .done)
  | .store ref => ((t.store k ref).1, .ofError (t.store k ref).2)
  | .get id => ((t.get k id).1, .ofPointer (t.get k id).2)
  | .list user order => ((t.list k order user).1, .pointers (t.list k order user).2)
  | .delete id => ((t.delete k id).1, .ofError (t.delete k id).2)

/-- The map after a call on a table: a value is stored as it is at the time of the call. -/
def mapAfter (k : Kind α) (t : Table α) (m : GoMap Str α) : Call α → GoMap Str α
  | .store ref =>
    match ref.bind t.heap.read with
    | none => m
    | some v => if k.id v = [] then m else m.insert (k.id v) v
  | .delete id => m.erase id
  | .new _ | .modify _ _ | .get _ | .list _ _ => m

def ofUser (k : Kind α) (m : GoMap Str α) (user : Str) : List α :=
  m.values.filter fun v => k.user v = user

/-- The answer to a call is the one of the map: a value that is equal to the one in the map, and the
values of a user, each once and none nil. -/
def Agrees (k : Kind α) (m : GoMap Str α) (t : Table α) : Call α → Answer → Prop
  | .get id, answer =>
    match m.lookup id with
    | none => answer = .failed (.notFound k.name id)
    | some v => ∃ r, answer = .pointer r ∧ t.heap.read r = some v
  | .list user _, answer =>
    ∃ (refs : List (Option Ref)) (values : List α), answer = .pointers refs ∧
      refs.map (fun ref => ref.bind t.heap.read) = values.map some ∧ values.Perm (ofUser k m user)
  | .new _, _ | .modify _ _, _ | .store _, _ | .delete _, _ => True

/-- The calls on which a table answers as a map: a value is stored that is equal to its copy, under
an id that is free, a struct is written to that is not stored, and values without an index are listed
for a user who owns all of them. -/
def Fair (k : Kind α) (t : Table α) : Call α → Prop
  | .store ref => ∀ v, ref.bind t.heap.read = some v → k.copied v = v ∧ t.values.lookup (k.id v) = none
  | .modify r _ => ∀ id, t.values.lookup id ≠ some r
  | .list user _ => k.indexed = false → ∀ id v, t.stored id = some v → k.user v = user
  | .new _ | .get _ | .delete _ => True

/-- A table holds the values of a map, files them under their users, and hands them out unchanged. -/
structure Holds (k : Kind α) (t : Table α) (m : GoMap Str α) : Prop where
  stored : ∀ id, t.stored id = m.lookup id
  pointed : ∀ id r, t.values.lookup id = some r → (t.heap.read r).isSome = true
  named : ∀ id v, m.lookup id = some v → k.id v = id
  copied : ∀ id v, m.lookup id = some v → k.copied v = v
  once : k.indexed = true → ∀ user, (t.index user).Nodup
  filed : k.indexed = true → ∀ user id, id ∈ t.index user ↔ ∃ v, m.lookup id = some v ∧ k.user v = user

variable {k : Kind α} {t : Table α} {m : GoMap Str α}

theorem Holds.empty (k : Kind α) : Holds k {} ∅ := by
  constructor <;> simp [Table.stored, index]

section

variable (holds : Holds k t m)

include holds

/-- A heap that reads the same behind the stored pointers makes no difference. -/
theorem Holds.reheap {h} (same : ∀ id r, t.values.lookup id = some r → h.read r = t.heap.read r) :
    Holds k { t with heap := h } m where
  stored id := by
    rw [← holds.stored id, Table.stored, Table.stored]
    cases found : t.values.lookup id with
    | none => rfl
    | some r => exact same id r found
  pointed id r found := by
    rw [same id r found]
    exact holds.pointed id r found
  named := holds.named
  copied := holds.copied
  once := holds.once
  filed := holds.filed

theorem Holds.extend {h} (grown : t.heap.Extends h) : Holds k { t with heap := h } m := by
  refine holds.reheap fun id r found => ?_
  obtain ⟨v, old⟩ := isSome_iff_exists.mp (holds.pointed id r found)
  rw [old, grown r v old]

theorem Holds.congr {m'} (same : ∀ id, m'.lookup id = m.lookup id) : Holds k t m' where
  stored id := (holds.stored id).trans (same id).symm
  pointed := holds.pointed
  named id v found := holds.named id v (same id ▸ found)
  copied id v found := holds.copied id v (same id ▸ found)
  once := holds.once
  filed indexed user id := by rw [holds.filed indexed, same id]

theorem Holds.lookup_none {id} (free : t.values.lookup id = none) : m.lookup id = none := by
  rw [← holds.stored id, Table.stored, free]
  rfl

omit holds in
theorem index_withoutIndexed (indexed : k.indexed = true) (user user' id : Str) :
    (({ t with byUser := t.withoutIndexed k user id } : Table α).index user') =
      if user' = user then (t.index user).erase id else t.index user' := by
  simp only [index, withoutIndexed, indexed, Bool.true_and]
  cases found : t.byUser.lookup user with
  | none =>
    by_cases same : user' = user
    · subst same
      simp [found]
    · simp [same]
  | some ids =>
    simp only [isSome_some, if_true, GoMap.lookup_insert_eq]
    split_ifs <;> rfl

omit holds in
theorem bind_read_pair {h : Heap α} {ref : Option Ref} : (ref.bind fun r => (h.read r).map fun v => (r, v)) =
      (ref.bind h.read).bind fun v => ref.map fun r => (r, v) := by
  cases ref with
  | none => rfl
  | some r =>
    simp only [bind_some]
    cases h.read r <;> rfl

/-- Storing a value that is equal to its copy under a free id. -/
theorem Holds.store {r v} (here : t.heap.read r = some v)
    (faithful : k.copied v = v) (free : t.values.lookup (k.id v) = none) :
    Holds k { t with
      values := t.values.insert (k.id v) r
      byUser := t.withIndexed k (k.user v) (k.id v) } (m.insert (k.id v) v) := by
  have absent := holds.lookup_none free
  constructor
  · intro id
    simp only [Table.stored, lookup_insert_eq]
    by_cases same : id = k.id v
    · rw [if_pos same, if_pos same]
      exact here
    · rw [if_neg same, if_neg same]
      exact holds.stored id
  · intro id r' found
    rw [lookup_insert_eq] at found
    split_ifs at found
    · cases found
      rw [here]
      rfl
    · exact holds.pointed id r' found
  · intro id w found
    rw [lookup_insert_eq] at found
    split_ifs at found with same
    · cases found
      exact same.symm
    · exact holds.named id w found
  · intro id w found
    rw [lookup_insert_eq] at found
    split_ifs at found
    · cases found
      exact faithful
    · exact holds.copied id w found
  · intro indexed user
    have unfiled : k.id v ∉ t.index (k.user v) := by
      rw [holds.filed indexed, absent]
      simp
    change (({ t with byUser := t.withIndexed k (k.user v) (k.id v) } : Table α).index user).Nodup
    rw [index_withIndexed indexed]
    split_ifs
    · rw [← concat_eq_append]
      exact (holds.once indexed _).concat unfiled
    · exact holds.once indexed user
  · intro indexed user id
    change id ∈ ({ t with byUser := t.withIndexed k (k.user v) (k.id v) } : Table α).index user ↔ _
    rw [index_withIndexed indexed, lookup_insert_eq]
    by_cases same : id = k.id v
    · -- the new id is filed under the user of its value, and was filed under nobody
      subst same
      by_cases own : user = k.user v
      · simp [own]
      · have elsewhere : k.id v ∉ t.index user := by
          rw [holds.filed indexed, absent]
          simp
        simp [own, elsewhere, Ne.symm own]
    · rw [if_neg same, ← holds.filed indexed]
      split_ifs with own
      · simp [own, same]
      · rfl

theorem Holds.delete {id v} (found : t.stored id = some v) : Holds k { t with
      values := t.values.erase id
      byUser := t.withoutIndexed k (k.user v) id } (m.erase id) := by
  have value : m.lookup id = some v := (holds.stored id).symm.trans found
  constructor
  · intro id'
    simp only [Table.stored, lookup_erase_eq]
    split_ifs
    · rfl
    · exact holds.stored id'
  · intro id' r present
    exact holds.pointed id' r (erase_sub _ _ id' r present)
  · intro id' w present
    exact holds.named id' w (erase_sub _ _ id' w present)
  · intro id' w present
    exact holds.copied id' w (erase_sub _ _ id' w present)
  · intro indexed user
    change (({ t with byUser := t.withoutIndexed k (k.user v) id } : Table α).index user).Nodup
    rw [index_withoutIndexed indexed]
    split_ifs
    · exact (holds.once indexed _).erase id
    · exact holds.once indexed user
  · intro indexed user id'
    change id' ∈ ({ t with byUser := t.withoutIndexed k (k.user v) id } : Table α).index user ↔ _
    rw [index_withoutIndexed indexed, lookup_erase_eq]
    by_cases same : id' = id
    · -- the deleted id was filed once, under the user of its value
      subst same
      by_cases own : user = k.user v
      · simp [own, (holds.once indexed (k.user v)).mem_erase_iff]
      · have elsewhere : id' ∉ t.index user := by
          rw [holds.filed indexed, value]
          simp [Ne.symm own]
        simp [own, elsewhere]
    · rw [if_neg same, ← holds.filed indexed]
      split_ifs with own
      · rw [own, mem_erase_of_ne same]
      · rfl

theorem Holds.step {call} (fair : Fair k t call) : Holds k (t.perform k call).1 (mapAfter k t m call) := by
  cases call with
  | new v => exact holds.extend (t.heap.extends_alloc v)
  | modify r v =>
    refine holds.reheap fun id r' found => Heap.read_write_ne ?_
    rintro rfl
    exact fair id found
  | store ref =>
    cases given : ref.bind t.heap.read with
    | none =>
      have refused : t.store k ref = (t, some (.cannotBeNil k.name)) := by
        rw [Table.store, bind_read_pair, given]
        rfl
      simpa [perform, mapAfter, refused, given] using holds
    | some v =>
      obtain ⟨r, rfl, here⟩ := bind_eq_some_iff.mp given
      obtain ⟨faithful, free⟩ := fair v given
      simp only [perform, Table.store, mapAfter, bind_some, here, map_some]
      split_ifs
      · exact holds
      · exact holds.store here faithful free
  | get id =>
    simp only [perform, Table.get]
    split
    · exact holds
    · exact holds.extend (copyOut_extends k t.heap _)
  | list user order => exact holds.extend (copyAll_extends k t.values t.heap _)
  | delete id =>
    simp only [perform, Table.delete, mapAfter]
    cases found : t.stored id with
    | none =>
      refine holds.congr fun id' => ?_
      rw [lookup_erase_eq]
      split_ifs with same
      · rw [same, ← holds.stored id, found]
      · rfl
    | some v => exact holds.delete found

omit holds in
theorem map_eq_map_some {β γ : Type} {f : β → Option γ} {l : List β}
    (present : ∀ b ∈ l, (f b).isSome = true) : l.map f = (l.filterMap f).map some := by
  induction l with
  | nil => rfl
  | cons b rest ih =>
    obtain ⟨c, found⟩ := isSome_iff_exists.mp (present b (mem_cons_self ..))
    rw [map_cons, filterMap_cons_some found, map_cons, found, ih fun b mem => present b (mem_cons_of_mem _ mem)]

/-- The ids of a user, each once: what is handed out for them is the values of the user. -/
theorem Holds.listed {user} {ids : List Str} (once : ids.Nodup)
    (exact : ∀ id, id ∈ ids ↔ ∃ v, m.lookup id = some v ∧ k.user v = user) :
    ∃ values : List α, (ids.map fun id => (t.stored id).map k.copied) = values.map some ∧
      values.Perm (ofUser k m user) := by
  have distinct : ∀ id id' v, m.lookup id = some v → m.lookup id' = some v → id = id' :=
    fun id id' v found found' => (holds.named id v found).symm.trans (holds.named id' v found')
  refine ⟨ids.filterMap m.lookup, ?_, ?_⟩
  · have present : ∀ id ∈ ids, (m.lookup id).isSome = true := by
      intro id listed
      obtain ⟨v, found, _⟩ := (exact id).mp listed
      rw [found]
      rfl
    rw [← map_eq_map_some present]
    refine map_congr_left fun id _ => ?_
    rw [holds.stored id]
    cases found : m.lookup id with
    | none => rfl
    | some v => rw [map_some, holds.copied id v found]
  · rw [perm_ext_iff_of_nodup]
    · intro v
      simp only [ofUser, mem_filterMap, mem_filter, mem_values, decide_eq_true_eq]
      constructor
      · rintro ⟨id, listed, found⟩
        obtain ⟨_, found', own⟩ := (exact id).mp listed
        rw [found] at found'
        cases found'
        exact ⟨⟨id, found⟩, own⟩
      · rintro ⟨⟨id, found⟩, own⟩
        exact ⟨id, (exact id).mpr ⟨v, found, own⟩, found⟩
    · exact once.filterMap fun id id' v found found' => distinct id id' v found found'
    · exact (GoMap.values_nodup.mpr distinct).filter _

/-- The ids that a list call goes through are those of the user, each once. -/
theorem Holds.listedIds {user} (order : RangeOrder Str) (fair : Fair k t (.list user order)) :
    let ids := if k.indexed then t.index user else order.visit t.values.keys
    ids.Nodup ∧ ∀ id, id ∈ ids ↔ ∃ v, m.lookup id = some v ∧ k.user v = user := by
  by_cases indexed : k.indexed = true
  · simp only [indexed]
    exact ⟨holds.once indexed user, holds.filed indexed user⟩
  · simp only [indexed, if_false, Bool.false_eq_true]
    have everyone : ∀ id v, t.stored id = some v → k.user v = user :=
      fair (Bool.not_eq_true _ ▸ indexed)
    refine ⟨(order.perm _).nodup_iff.mpr t.values.keys_nodup, fun id => ?_⟩
    rw [order.mem_visit]
    constructor
    · intro key
      obtain ⟨r, found⟩ := isSome_iff_exists.mp (AList.lookup_isSome.mpr key)
      obtain ⟨v, here⟩ := isSome_iff_exists.mp (holds.pointed id r found)
      have stored : t.stored id = some v := by rw [Table.stored, found, bind_some, here]
      exact ⟨v, (holds.stored id).symm.trans stored, everyone id v stored⟩
    · rintro ⟨v, value, _⟩
      have stored := (holds.stored id).trans value
      obtain ⟨r, found, _⟩ := bind_eq_some_iff.mp stored
      exact AList.lookup_isSome.mp (isSome_iff_exists.mpr ⟨r, found⟩)

theorem Holds.agrees {call} (fair : Fair k t call) : Agrees k m (t.perform k call).1 call (t.perform k call).2 := by
  cases call with
  | get id =>
    have stored := holds.stored id
    simp only [Agrees, perform, Table.get]
    cases found : t.values.lookup id with
    | none =>
      rw [holds.lookup_none found]
      rfl
    | some r =>
      obtain ⟨v, here⟩ := isSome_iff_exists.mp (holds.pointed id r found)
      have value : m.lookup id = some v := by
        rw [← stored, Table.stored, found, bind_some, here]
      have read := read_copyOut (k := k) here
      rw [holds.copied id v value] at read
      rw [value]
      exact ⟨_, rfl, read⟩
  | list user order =>
    obtain ⟨once, filed⟩ := holds.listedIds order fair
    obtain ⟨values, read, perm⟩ := holds.listed once filed
    refine ⟨_, values, rfl, ?_, perm⟩
    exact (read_copyAll _ holds.pointed).trans read
  | new v => trivial
  | modify r v => trivial
  | store ref => trivial
  | delete id => trivial

end

inductive StorageCall where
  | applicationRegistration (call : Call ApplicationRegistration)
  | accessGrant (call : Call AccessGrant)
  | dataRegistration (call : Call DataRegistration)
  | dataGrant (call : Call DataGrant)

structure Maps where
  applicationRegistrations : GoMap Str ApplicationRegistration := ∅
  accessGrants : GoMap Str AccessGrant := ∅
  dataRegistrations : GoMap Str DataRegistration := ∅
  dataGrants : GoMap Str DataGrant := ∅

namespace InMemorySAIStorage

def perform (s : InMemorySAIStorage) : StorageCall → InMemorySAIStorage × Answer
  | .applicationRegistration call =>
    let result := s.applicationRegistrations.perform Sai.applicationRegistrations call
    ({ s with applicationRegistrations := result.1 }, result.2)
  | .accessGrant call =>
    let result := s.accessGrants.perform Sai.accessGrants call
    ({ s with accessGrants := result.1 }, result.2)
  | .dataRegistration call =>
    let result := s.dataRegistrations.perform Sai.dataRegistrations call
    ({ s with dataRegistrations := result.1 }, result.2)
  | .dataGrant call =>
    let result := s.dataGrants.perform Sai.dataGrants call
    ({ s with dataGrants := result.1 }, result.2)

def mapsAfter (s : InMemorySAIStorage) (maps : Maps) : StorageCall → Maps
  | .applicationRegistration call => { maps with
      applicationRegistrations := mapAfter Sai.applicationRegistrations s.applicationRegistrations
        maps.applicationRegistrations call }
  | .accessGrant call => { maps with
      accessGrants := mapAfter Sai.accessGrants s.accessGrants maps.accessGrants call }
  | .dataRegistration call => { maps with
      dataRegistrations := mapAfter Sai.dataRegistrations s.dataRegistrations maps.dataRegistrations call }
  | .dataGrant call => { maps with
      dataGrants := mapAfter Sai.dataGrants s.dataGrants maps.dataGrants call }

def beside (s : InMemorySAIStorage × Maps) (call : StorageCall) : (InMemorySAIStorage × Maps) × Answer :=
  (((s.1.perform call).1, s.1.mapsAfter s.2 call), (s.1.perform call).2)

def after (calls : List StorageCall) : InMemorySAIStorage × Maps := Run.exec beside ({}, {}) calls

/-- The answer of the storage to a call is the one of the maps. -/
def AgreesOn (s : InMemorySAIStorage × Maps) : StorageCall → Prop
  | .applicationRegistration call =>
    let result := s.1.applicationRegistrations.perform Sai.applicationRegistrations call
    Agrees Sai.applicationRegistrations s.2.applicationRegistrations result.1 call result.2
  | .accessGrant call =>
    let result := s.1.accessGrants.perform Sai.accessGrants call
    Agrees Sai.accessGrants s.2.accessGrants result.1 call result.2
  | .dataRegistration call =>
    let result := s.1.dataRegistrations.perform Sai.dataRegistrations call
    Agrees Sai.dataRegistrations s.2.dataRegistrations result.1 call result.2
  | .dataGrant call =>
    let result := s.1.dataGrants.perform Sai.dataGrants call
    Agrees Sai.dataGrants s.2.dataGrants result.1 call result.2

/-- The storage answers every call of a run as the maps do. -/
def Refines (calls : List StorageCall) : Prop :=
  ∀ before call rest, calls = before ++ call :: rest → AgreesOn (after before) call

def FairOn (s : InMemorySAIStorage) : StorageCall → Prop
  | .applicationRegistration call => Fair Sai.applicationRegistrations s.applicationRegistrations call
  | .accessGrant call => Fair Sai.accessGrants s.accessGrants call
  | .dataRegistration call => Fair Sai.dataRegistrations s.dataRegistrations call
  | .dataGrant call => Fair Sai.dataGrants s.dataGrants call

/-- Every table of the storage holds the values of its map. -/
structure HoldsAll (s : InMemorySAIStorage × Maps) : Prop where
  applicationRegistrations : Holds Sai.applicationRegistrations s.1.applicationRegistrations
    s.2.applicationRegistrations
  accessGrants : Holds Sai.accessGrants s.1.accessGrants s.2.accessGrants
  dataRegistrations : Holds Sai.dataRegistrations s.1.dataRegistrations s.2.dataRegistrations
  dataGrants : Holds Sai.dataGrants s.1.dataGrants s.2.dataGrants

theorem HoldsAll.step {s call} (holds : HoldsAll s) (fair : s.1.FairOn call) : HoldsAll (beside s call).1 := by
  cases call with
  | applicationRegistration call =>
    exact { holds with applicationRegistrations := holds.applicationRegistrations.step fair }
  | accessGrant call => exact { holds with accessGrants := holds.accessGrants.step fair }
  | dataRegistration call => exact { holds with dataRegistrations := holds.dataRegistrations.step fair }
  | dataGrant call => exact { holds with dataGrants := holds.dataGrants.step fair }

theorem HoldsAll.agreesOn {s call} (holds : HoldsAll s) (fair : s.1.FairOn call) : AgreesOn s call := by
  cases call with
  | applicationRegistration call => exact holds.applicationRegistrations.agrees fair
  | accessGrant call => exact holds.accessGrants.agrees fair
  | dataRegistration call => exact holds.dataRegistrations.agrees fair
  | dataGrant call => exact holds.dataGrants.agrees fair

/-- A run of fair calls keeps every table with its map. -/
theorem holdsAll_after {calls}
    (fair : ∀ before call rest, calls = before ++ call :: rest → (after before).1.FairOn call) :
    ∀ before rest, calls = before ++ rest → HoldsAll (after before) := by
  have start : HoldsAll ({}, {}) := ⟨.empty _, .empty _, .empty _, .empty _⟩
  refine @Run.run_inv _ _ _ beside _ HoldsAll calls start fun before call rest split holds => ?_
  exact holds.step (fair before call rest split)

/-- **Main result.** In every run of fair calls the storage answers as maps of values do. -/
theorem refines_of_fair {calls : List StorageCall}
    (fair : ∀ before call rest, calls = before ++ call :: rest → (after before).1.FairOn call) :
    Refines calls := by
  intro before call rest split
  exact (holdsAll_after fair before (call :: rest) split).agreesOn (fair before call rest split)

def sampleGrant : AccessGrant where
  id := "g"
  grantedBy := "alice"
  grantedWith := "agent"
  grantedAt := Time.zero
  providedAt := Time.zero
  updatedAt := Time.zero
  fromAgent := "alice"
  viaAgent := "alice"
  hasAccessGrantSubject := ⟨"s", "alice", "app"⟩
  hasAccessNeedGroup := ["need"]

def sampleRegistration (user : String) : ApplicationRegistration where
  id := "r"
  registeredBy := str user
  registeredWith := "agent"
  registeredAt := Time.zero
  updatedAt := Time.zero
  registeredAgent := "app"

/-- The calls that store a new registration by `user`, which is struct number `r`. -/
def registers (user : String) (r : Ref) : List StorageCall :=
  [.applicationRegistration (.new (sampleRegistration user)), .applicationRegistration (.store (some r))]

/-- Two registrations of one user, which are read and listed, before and after the first is deleted. -/
theorem refines_of_fair_registrations : Refines ((registers "alice" 0 ++
      [.new { sampleRegistration "alice" with id := "s" }, .store (some 1), .get "r", .list "alice" default,
        .delete "r", .get "r", .list "alice" default].map .applicationRegistration)) := by
  refine refines_of_fair ((Run.along_iff (P := fun s : InMemorySAIStorage × Maps => s.1.FairOn)).mp ?_)
  refine ⟨trivial, ?_, trivial, ?_, trivial, nofun, trivial, trivial, nofun, trivial⟩
  all_goals
    rintro - ⟨⟩
    exact ⟨rfl, rfl⟩

/-- The storage is no map of values: a grant that is read back has another list than the one stored; a
registration that is written to after it was stored has changed; one that is stored twice is listed
twice, and after it is deleted its user has a nil one; and one that another user stores again is
listed for the first. -/
theorem not_map_of_values :
    let stored : List StorageCall := [.accessGrant (.new sampleGrant), .accessGrant (.store (some 0))]
    let twice := registers "alice" 0 ++ [.applicationRegistration (.store (some 0))]
    let moved := registers "alice" 0 ++ registers "bob" 1
    ¬ Refines (stored ++ [.accessGrant (.get (str "g"))]) ∧
      ¬ Refines (registers "alice" 0 ++ [.applicationRegistration (.modify 0 (sampleRegistration "bob")),
        .applicationRegistration (.get (str "r"))]) ∧
      ¬ Refines (twice ++ [.applicationRegistration (.list (str "alice") default)]) ∧
      ¬ Refines (twice ++ [.applicationRegistration (.delete (str "r")),
        .applicationRegistration (.list (str "alice") default)]) ∧
      ¬ Refines (moved ++ [.applicationRegistration (.list (str "alice") default)]) := by
  intro stored twice moved
  refine ⟨fun refines => ?_, fun refines => ?_, fun refines => ?_, fun refines => ?_, fun refines => ?_⟩
  · obtain ⟨r, answer, read⟩ := refines stored _ [] rfl
    cases answer
    exact absurd read (by decide +kernel)
  · obtain ⟨r, answer, read⟩ := refines (registers "alice" 0 ++ [.applicationRegistration (.modify 0 _)]) _ [] rfl
    cases answer
    exact absurd read (by decide +kernel)
  · obtain ⟨refs, values, answer, read, perm⟩ := refines twice _ [] rfl
    cases answer
    have lengths := congrArg length read
    rw [length_map, length_map, perm.length_eq] at lengths
    exact absurd lengths (by decide +kernel)
  · obtain ⟨refs, values, answer, read, perm⟩ := refines (twice ++ [.applicationRegistration _]) _ [] rfl
    cases answer
    have lengths := congrArg length read
    rw [length_map, length_map, perm.length_eq] at lengths
    exact absurd lengths (by decide +kernel)
  · obtain ⟨refs, values, answer, read, perm⟩ := refines moved _ [] rfl
    cases answer
    have lengths := congrArg length read
    rw [length_map, length_map, perm.length_eq] at lengths
    exact absurd lengths (by decide +kernel)

end InMemorySAIStorage

end Sai
