import Mathlib

/-!
# Go maps

A Go map is a finite map without an order: `GoMap` is Mathlib's `AList`, whose entry order carries
no meaning. What the language leaves open is the order in which `range` visits a map; a function
whose result can depend on it takes a `RangeOrder`, and its theorems hold for every one. Deleting
while ranging is `filter`: the loops of interest delete exactly the entries a test selects.
-/

namespace Go
open List Option AList

abbrev GoMap (κ α : Type) := AList fun _ : κ => α

/-- One order in which `range` may visit the elements of a map. -/
structure RangeOrder (α : Type) where
  visit : List α → List α
  perm : ∀ l, (visit l).Perm l

instance (α : Type) : Inhabited (RangeOrder α) := ⟨⟨id, List.Perm.refl⟩⟩

namespace RangeOrder

variable {α : Type}

theorem mem_visit (order : RangeOrder α) {l a} : a ∈ order.visit l ↔ a ∈ l :=
  (order.perm l).mem_iff

/-- Any arrangement of the elements of a map is the order of some `range`. -/
theorem exists_visit {l l'} (arranged : l'.Perm l) : ∃ order : RangeOrder α, order.visit l = l' := by
  classical
  refine ⟨⟨fun m => if m = l then l' else m, fun m => ?_⟩, if_pos rfl⟩
  by_cases same : m = l
  · rw [if_pos same, same]
    exact arranged
  · rw [if_neg same]

theorem exists_first {l a} (mem : a ∈ l) : ∃ (order : RangeOrder α) (rest : List α), order.visit l = a :: rest := by
  classical
  obtain ⟨order, visits⟩ := exists_visit (perm_cons_erase mem).symm
  exact ⟨order, _, visits⟩

theorem exists_first_two {l a b} (mem : a ∈ l) (mem' : b ∈ l) (apart : b ≠ a) :
    ∃ (order : RangeOrder α) (rest : List α), order.visit l = a :: b :: rest := by
  classical
  have later : b ∈ l.erase a := (mem_erase_of_ne apart).mpr mem'
  have arranged : (a :: b :: (l.erase a).erase b).Perm l :=
    ((perm_cons_erase later).symm.cons a).trans (perm_cons_erase mem).symm
  obtain ⟨order, visits⟩ := exists_visit arranged
  exact ⟨order, _, visits⟩

end RangeOrder

namespace GoMap

variable {κ α : Type}

def size (m : GoMap κ α) : Nat := m.entries.length

/-- Keep the entries that pass `p`: a `range` loop that deletes the others. -/
def filter (p : κ → α → Bool) (m : GoMap κ α) : GoMap κ α :=
  ⟨m.entries.filter fun e => p e.1 e.2, m.nodupKeys.sublist filter_sublist⟩

variable [DecidableEq κ]

@[simp] theorem lookup_filter (p : κ → α → Bool) (m : GoMap κ α) (k : κ) :
    (m.filter p).lookup k = (m.lookup k).filter (p k) := by
  ext v
  have inside : (m.filter p).lookup k = some v ↔ ⟨k, v⟩ ∈ (m.filter p).entries :=
    mem_lookup_iff
  have outside : m.lookup k = some v ↔ ⟨k, v⟩ ∈ m.entries := mem_lookup_iff
  rw [inside, filter_eq_some_iff, outside]
  simp [filter]

variable (m : GoMap κ α)

theorem lookup_insert_eq (k k' : κ) (v : α) : (m.insert k v).lookup k' = if k' = k then some v else m.lookup k' := by
  by_cases same : k' = k
  · subst same
    simp
  · simp [same]

theorem lookup_erase_eq (k k' : κ) : (m.erase k).lookup k' = if k' = k then none else m.lookup k' := by
  by_cases same : k' = k
  · subst same
    simp
  · simp [same]

def Sub (m m' : GoMap κ α) : Prop := ∀ k v, m.lookup k = some v → m'.lookup k = some v

theorem Sub.refl : Sub m m := fun _ _ found => found

theorem Sub.trans {m m' m'' : GoMap κ α} (h : Sub m m') (h' : Sub m' m'') : Sub m m'' :=
  fun k v found => h' k v (h k v found)

theorem filter_sub (p : κ → α → Bool) (m : GoMap κ α) : Sub (m.filter p) m := by
  intro k v found
  rw [lookup_filter, filter_eq_some_iff] at found
  exact found.1

theorem erase_sub (k : κ) : Sub (m.erase k) m := by
  intro k' v found
  by_cases same : k' = k
  · subst same
    rw [lookup_erase] at found
    cases found
  · rwa [lookup_erase_ne same] at found

/-- The values of a map, as a `range` loop meets them before an order is chosen. -/
def values {κ α : Type} (m : GoMap κ α) : List α := m.entries.map (·.2)

theorem mem_values {m : GoMap κ α} {v} : v ∈ m.values ↔ ∃ k, m.lookup k = some v := by
  simp only [values, List.mem_map]
  constructor
  · rintro ⟨⟨k, v⟩, mem, rfl⟩
    exact ⟨k, AList.mem_lookup_iff.mpr mem⟩
  · rintro ⟨k, found⟩
    exact ⟨⟨k, v⟩, AList.mem_lookup_iff.mp found, rfl⟩

/-- No value is met twice exactly when no two keys have the same one. -/
theorem values_nodup {m : GoMap κ α} :
    m.values.Nodup ↔ ∀ k k' v, m.lookup k = some v → m.lookup k' = some v → k = k' := by
  constructor
  · intro once k k' v found found'
    have same := inj_on_of_nodup_map once (AList.mem_lookup_iff.mp found) (AList.mem_lookup_iff.mp found') rfl
    exact congrArg Sigma.fst same
  · intro distinct
    have entries : m.entries.Nodup := m.nodupKeys.nodup
    apply Nodup.map_on ?_ entries
    rintro ⟨k, v⟩ mem ⟨k', _⟩ mem' same
    subst same
    have keys := distinct k k' v (AList.mem_lookup_iff.mpr mem) (AList.mem_lookup_iff.mpr mem')
    rw [keys]

/-- The entries of a map, as a `range` loop meets them before an order is chosen. -/
def pairs {κ α : Type} (m : GoMap κ α) : List (κ × α) := m.entries.map fun e => (e.1, e.2)

theorem mem_pairs {m : GoMap κ α} {k v} : (k, v) ∈ m.pairs ↔ m.lookup k = some v := by
  have outside : m.lookup k = some v ↔ ⟨k, v⟩ ∈ m.entries := mem_lookup_iff
  rw [outside]
  simp [pairs]

omit [DecidableEq κ] in
theorem pairs_nodup_keys (m : GoMap κ α) : (m.pairs.map Prod.fst).Nodup := by
  have same : m.pairs.map Prod.fst = m.keys := by simp [pairs, AList.keys, List.keys]
  rw [same]
  exact m.keys_nodup

omit [DecidableEq κ] in
theorem map_snd_pairs (m : GoMap κ α) : m.pairs.map Prod.snd = m.values := by
  simp [pairs, values]

omit [DecidableEq κ] in
@[simp] theorem length_pairs (m : GoMap κ α) : m.pairs.length = m.size := by
  simp [pairs, size]

theorem size_erase_le (k : κ) : size (m.erase k) ≤ m.size :=
  Sublist.length_le (kerase_sublist k m.entries)

theorem size_insert_le (k : κ) (v : α) : size (m.insert k v) ≤ m.size + 1 := by
  have longer : (m.insert k v).entries = ⟨k, v⟩ :: (m.erase k).entries := by
    simp [erase]
  have shorter := size_erase_le m k
  unfold size at shorter ⊢
  rw [longer, length_cons]
  omega

def total {κ α : Type} (weight : α → Nat) (m : GoMap κ α) : Nat := (m.values.map weight).sum

def weightAt (weight : α → Nat) (m : GoMap κ α) (k : κ) : Nat := ((m.lookup k).map weight).getD 0

variable (weight : α → Nat)

theorem total_congr {m m' : GoMap κ α} (same : ∀ k, m'.lookup k = m.lookup k) : m'.total weight = m.total weight := by
  have perm : m'.entries.Perm m.entries := by
    apply lookup_ext m'.nodupKeys m.nodupKeys
    intro k v
    have same : m'.entries.dlookup k = m.entries.dlookup k := same k
    rw [same]
  exact ((perm.map _).map weight).sum_eq

theorem total_erase (m : GoMap κ α) (k : κ) : m.total weight = m.weightAt weight k + total weight (m.erase k) := by
  by_cases mem : k ∈ m.entries.keys
  · obtain ⟨v, before, after, -, split, erased⟩ := exists_of_kerase mem
    have found : m.lookup k = some v := by
      apply AList.mem_lookup_iff.mpr
      rw [split]
      exact mem_append_right _ mem_cons_self
    have erased : (m.erase k).entries = before ++ after := erased
    simp only [total, values, weightAt, found, split, erased, map_append, map_cons,
      sum_append, sum_cons, map_some, getD_some]
    omega
  · have absent : m.lookup k = none := AList.lookup_eq_none.mpr mem
    have kept : (m.erase k).entries = m.entries := kerase_of_notMem_keys mem
    simp [total, values, weightAt, absent, kept]

theorem total_change {m m' : GoMap κ α} (k : κ) (elsewhere : ∀ j, j ≠ k → m'.lookup j = m.lookup j) :
    m'.total weight + m.weightAt weight k = m.total weight + m'.weightAt weight k := by
  have rest : total weight (m'.erase k) = total weight (m.erase k) := by
    apply total_congr
    intro j
    rw [lookup_erase_eq, lookup_erase_eq]
    by_cases same : j = k
    · rw [if_pos same, if_pos same]
    · rw [if_neg same, if_neg same, elsewhere j same]
  have before := total_erase weight m k
  have after := total_erase weight m' k
  omega

theorem weightAt_of_lookup {m : GoMap κ α} {k v} (found : m.lookup k = some v) : m.weightAt weight k = weight v := by
  rw [weightAt, found]
  rfl

theorem total_insert {m : GoMap κ α} {k v} (found : m.lookup k = some v) (v' : α) :
    total weight (m.insert k v') + weight v = m.total weight + weight v' := by
  have elsewhere : ∀ j, j ≠ k → (m.insert k v').lookup j = m.lookup j := fun _ => lookup_insert_ne
  have change := total_change weight k elsewhere
  rwa [weightAt_of_lookup weight found, weightAt_of_lookup weight (lookup_insert _)] at change

variable {κ' : Type} [DecidableEq κ']

def lookupIn (m : GoMap κ (GoMap κ' α)) (a : κ) (b : κ') : Option α :=
  (m.lookup a).bind fun inner => inner.lookup b

/-- `m[a][b] = v`, where a missing `m[a]` is made first. -/
def insertIn (m : GoMap κ (GoMap κ' α)) (a : κ) (b : κ') (v : α) : GoMap κ (GoMap κ' α) :=
  m.insert a (((m.lookup a).getD ∅).insert b v)

def ensureIn (m : GoMap κ (GoMap κ' α)) (a : κ) : GoMap κ (GoMap κ' α) :=
  match m.lookup a with
  | some _ => m
  | none => m.insert a ∅

/-- `m[a] = inner`, or `delete(m, a)` when `inner` is empty. -/
def setOrDrop (m : GoMap κ (GoMap κ' α)) (a : κ) (inner : GoMap κ' α) : GoMap κ (GoMap κ' α) :=
  if inner.size = 0 then m.erase a else m.insert a inner

/-- `delete(m[a], b)`, and `delete(m, a)` once `m[a]` is empty. -/
def eraseIn (m : GoMap κ (GoMap κ' α)) (a : κ) (b : κ') : GoMap κ (GoMap κ' α) :=
  match m.lookup a with
  | none => m
  | some inner => m.setOrDrop a (inner.erase b)

variable (m : GoMap κ (GoMap κ' α))

theorem lookupIn_insertIn (a a' : κ) (b b' : κ') (v : α) :
    (m.insertIn a b v).lookupIn a' b' = if a' = a ∧ b' = b then some v else m.lookupIn a' b' := by
  unfold lookupIn insertIn
  rw [lookup_insert_eq]
  by_cases outer : a' = a
  · subst outer
    rw [if_pos rfl, bind_some, lookup_insert_eq]
    cases m.lookup a' <;> simp
  · simp [outer]

theorem lookupIn_ensureIn (a a' : κ) (b' : κ') : (m.ensureIn a).lookupIn a' b' = m.lookupIn a' b' := by
  unfold ensureIn
  split
  · rfl
  · rename_i absent
    unfold lookupIn
    rw [lookup_insert_eq]
    by_cases outer : a' = a
    · subst outer
      rw [absent]
      simp
    · rw [if_neg outer]

theorem lookup_of_size_eq_zero {m : GoMap κ α} (empty : m.size = 0) (k : κ) : m.lookup k = none := by
  have none : m.entries = [] := length_eq_zero_iff.mp empty
  rw [lookup_eq_none, AList.mem_keys, AList.keys, none]
  exact not_mem_nil

theorem lookupIn_setOrDrop (a a' : κ) (inner : GoMap κ' α) (b : κ') :
    (m.setOrDrop a inner).lookupIn a' b = if a' = a then inner.lookup b else m.lookupIn a' b := by
  unfold setOrDrop lookupIn
  split_ifs with empty same same
  · subst same
    simp [lookup_of_size_eq_zero empty]
  · rw [lookup_erase_ne same]
  · subst same
    simp
  · rw [lookup_insert_ne same]

theorem lookupIn_eraseIn (a a' : κ) (b b' : κ') :
    (m.eraseIn a b).lookupIn a' b' = if a' = a ∧ b' = b then none else m.lookupIn a' b' := by
  unfold eraseIn
  split
  · rename_i absent
    by_cases outer : a' = a
    · subst outer
      simp [lookupIn, absent]
    · simp [outer]
  · rename_i inner found
    rw [lookupIn_setOrDrop]
    by_cases outer : a' = a
    · subst outer
      have before : m.lookupIn a' b' = inner.lookup b' := by simp [lookupIn, found]
      rw [before, lookup_erase_eq]
      simp
    · simp [outer]

/-- A loop each of whose steps lays down `entry` at its own pair. -/
theorem lookupIn_foldl {entry step}
    (lays : ∀ m p a b, (step m p).lookupIn a b = if a = p.1 ∧ b = p.2 then entry else m.lookupIn a b)
    (pairs : List (κ × κ')) (m : GoMap κ (GoMap κ' α)) (a : κ) (b : κ') :
    (pairs.foldl step m).lookupIn a b = if (a, b) ∈ pairs then entry else m.lookupIn a b := by
  induction pairs generalizing m with
  | nil => simp
  | cons p rest ih =>
    rw [foldl_cons, ih, lays]
    by_cases later : (a, b) ∈ rest
    · simp [later]
    · by_cases here : (a, b) = p
      · subst here
        simp
      · have apart : ¬ (a = p.1 ∧ b = p.2) := fun same => here (Prod.ext same.1 same.2)
        simp [here, apart]

theorem lookupIn_insertIn_all (pairs : List (κ × κ')) (m : GoMap κ (GoMap κ' α)) (v : α) (a : κ) (b : κ') :
    (pairs.foldl (fun m p => m.insertIn p.1 p.2 v) m).lookupIn a b =
      if (a, b) ∈ pairs then some v else m.lookupIn a b :=
  lookupIn_foldl (fun m p a b => lookupIn_insertIn m p.1 a p.2 b v) pairs m a b

theorem lookupIn_eraseIn_all (pairs : List (κ × κ')) (m : GoMap κ (GoMap κ' α)) (a : κ) (b : κ') :
    (pairs.foldl (fun m p => m.eraseIn p.1 p.2) m).lookupIn a b =
      if (a, b) ∈ pairs then none else m.lookupIn a b :=
  lookupIn_foldl (fun m p a b => lookupIn_eraseIn m p.1 a p.2 b) pairs m a b

end GoMap

end Go
