import SolidSidecar.Go.Map
import SolidSidecar.Go.Str

/-!
# Strings in order

Strings are ordered byte by byte. A map with string keys, read in the order of its keys, is a list
that depends on nothing but what the map holds (`GoMap.inOrder_congr`). Sorting by a comparison is
left open where the comparison does not decide.
-/

namespace Go
open List Str AList

namespace Str

theorem le_iff (s t : Str) : le s t = true ↔ s ≤ t := by
  induction s generalizing t with
  | nil => simp [le]
  | cons a s ih =>
    cases t with
    | nil => simp [le]
    | cons b t => simp [le, cons_le_cons_iff, ih]

theorem le_refl (s : Str) : le s s = true := (le_iff s s).mpr (List.le_refl s)

theorem le_total (s t : Str) : le s t = true ∨ le t s = true := by
  simpa [le_iff] using List.le_total s t

theorem le_trans {s t u} (first : le s t = true) (second : le t u = true) : le s u = true := by
  rw [le_iff] at *
  exact List.le_trans first second

theorem le_antisymm {s t} (first : le s t = true) (second : le t s = true) : s = t := by
  rw [le_iff] at *
  exact List.le_antisymm first second

end Str

def Str.LE (s t : Str) : Prop := Str.le s t = true

instance : DecidableRel Str.LE := fun s t => inferInstanceAs (Decidable (Str.le s t = true))

instance : Std.Total Str.LE := ⟨Str.le_total⟩

instance : IsTrans Str Str.LE := ⟨fun _ _ _ => Str.le_trans⟩

namespace GoMap

variable {α : Type}

def sortedKeys (m : GoMap Str α) : List Str := m.keys.insertionSort Str.LE

/-- The members of a map in the order of their keys. -/
def inOrder [Inhabited α] (m : GoMap Str α) : List (Str × α) :=
  m.sortedKeys.map fun k => (k, (m.lookup k).getD default)

theorem sortedKeys_congr {m m' : GoMap Str α} (same : ∀ k, m.lookup k = m'.lookup k) :
    m.sortedKeys = m'.sortedKeys := by
  have keys : m.keys.Perm m'.keys := by
    rw [perm_ext_iff_of_nodup m.keys_nodup m'.keys_nodup]
    intro k
    rw [← AList.mem_keys, ← AList.mem_keys, ← lookup_isSome, ← lookup_isSome, same]
  have sorted : m.sortedKeys.Pairwise Str.LE := pairwise_insertionSort Str.LE _
  have sorted' : m'.sortedKeys.Pairwise Str.LE := pairwise_insertionSort Str.LE _
  refine Perm.eq_of_pairwise (fun _ _ _ _ => Str.le_antisymm) sorted sorted' ?_
  exact (perm_insertionSort _ _).trans (keys.trans (perm_insertionSort _ _).symm)

theorem inOrder_congr [Inhabited α] {m m' : GoMap Str α} (same : ∀ k, m.lookup k = m'.lookup k) :
    m.inOrder = m'.inOrder := by
  unfold inOrder
  rw [sortedKeys_congr same]
  simp [same]

theorem mem_sortedKeys {m : GoMap Str α} {k} : k ∈ m.sortedKeys ↔ (m.lookup k).isSome = true := by
  rw [sortedKeys, mem_insertionSort, ← AList.mem_keys, lookup_isSome]

theorem nodup_sortedKeys (m : GoMap Str α) : m.sortedKeys.Nodup :=
  (perm_insertionSort _ _).nodup_iff.mpr m.keys_nodup

/-- The map that holds some pairs, of two with one key the later one. -/
def ofPairs (pairs : List (Str × α)) : GoMap Str α :=
  pairs.foldl (fun m kv => m.insert kv.1 kv.2) ∅

theorem lookup_ofPairs {pairs : List (Str × α)} (distinct : (pairs.map Prod.fst).Nodup) {k v} :
    (ofPairs pairs).lookup k = some v ↔ (k, v) ∈ pairs := by
  induction pairs using reverseRecOn with
  | nil => simp [ofPairs]
  | append_singleton pairs kv ih =>
    rw [map_append, nodup_append] at distinct
    obtain ⟨before, -, apart⟩ := distinct
    rw [ofPairs, foldl_append, foldl_cons, foldl_nil, lookup_insert_eq, ← ofPairs, mem_append, ← ih before]
    split_ifs with same
    · have absent : (k, v) ∉ pairs := fun mem => apart k (mem_map_of_mem mem) kv.1 mem_cons_self same
      rw [← ih before] at absent
      simp [absent, Prod.ext_iff, same, eq_comm]
    · simp [Prod.ext_iff, same]

/-- Reading a map in order and building a map from the pairs gives the same map. -/
theorem lookup_ofPairs_inOrder [Inhabited α] (m : GoMap Str α) (k : Str) :
    (ofPairs m.inOrder).lookup k = m.lookup k := by
  have distinct : (m.inOrder.map Prod.fst).Nodup := by
    simpa [inOrder, Function.comp_def] using m.nodup_sortedKeys
  ext _
  rw [lookup_ofPairs distinct, inOrder, mem_map]
  constructor
  · rintro ⟨k, mem, is⟩
    obtain ⟨_, found⟩ := Option.isSome_iff_exists.mp (mem_sortedKeys.mp mem)
    cases is
    simp [found]
  · intro found
    exact ⟨k, mem_sortedKeys.mpr (by simp [found]), by simp [found]⟩

end GoMap

/-- One outcome of `sort.Slice` under a comparison, which need not keep equal elements in order. -/
structure SortSlice {α : Type} (less : α → α → Bool) where
  run : List α → List α
  perm : ∀ l, (run l).Perm l
  sorted : ∀ l, (run l).Pairwise fun a b => less b a = false

section ExchangeSort

variable {α : Type} (before : α → α → Bool)

/-- One round of an exchange sort: an element goes along the rest and changes places with each element
that comes before it. -/
def exchangeRound : α → List α → α × List α
  | a, [] => (a, [])
  | a, b :: rest =>
    if before b a then ((exchangeRound b rest).1, a :: (exchangeRound b rest).2)
    else ((exchangeRound a rest).1, b :: (exchangeRound a rest).2)

def exchangeRounds : Nat → List α → List α
  | 0, l => l
  | _ + 1, [] => []
  | n + 1, a :: rest =>
    (exchangeRound before a rest).1 :: exchangeRounds n (exchangeRound before a rest).2

/-- `for j { for k > j { if l[k] before l[j] { l[j], l[k] = l[k], l[j] } } }`. -/
def exchangeSort (l : List α) : List α := exchangeRounds before l.length l

theorem exchangeRound_perm (a : α) (rest : List α) :
    ((exchangeRound before a rest).1 :: (exchangeRound before a rest).2).Perm (a :: rest) := by
  induction rest generalizing a with
  | nil => exact .refl _
  | cons b rest ih =>
    rw [exchangeRound]
    split_ifs
    · exact (Perm.swap _ _ _).trans ((ih b).cons a)
    · exact (Perm.swap _ _ _).trans (((ih a).cons b).trans (.swap _ _ _))

theorem exchangeRounds_perm (n : Nat) (l : List α) : (exchangeRounds before n l).Perm l := by
  induction n generalizing l with
  | zero => exact .refl _
  | succ n ih =>
    cases l with
    | nil => exact .refl _
    | cons a rest => exact ((ih _).cons _).trans (exchangeRound_perm before a rest)

theorem exchangeSort_perm (l : List α) : (exchangeSort before l).Perm l :=
  exchangeRounds_perm before l.length l

end ExchangeSort

def Str.less (s t : Str) : Bool := !Str.le t s

/-- `s` before `t`, or the two equal and `rest`: one level of a comparison field by field. -/
def Str.Lex (s t : Str) (rest : Prop) : Prop := (s ≠ t ∧ Str.le s t = true) ∨ (s = t ∧ rest)

theorem Str.Lex.total {s t rest rest'} (either : rest ∨ rest') : Lex s t rest ∨ Lex t s rest' := by
  by_cases same : s = t
  · exact either.imp (fun holds => .inr ⟨same, holds⟩) (fun holds => .inr ⟨same.symm, holds⟩)
  · exact (le_total s t).imp (fun le => .inl ⟨same, le⟩) (fun le => .inl ⟨.symm same, le⟩)

theorem Str.Lex.trans {s t u rest rest' rest''} (first : Lex s t rest)
    (second : Lex t u rest') (both : rest → rest' → rest'') : Lex s u rest'' := by
  rcases first with ⟨apart, le⟩ | ⟨rfl, holds⟩
  · rcases second with ⟨_, le'⟩ | ⟨rfl, _⟩
    · refine .inl ⟨?_, le_trans le le'⟩
      rintro rfl
      exact apart (le_antisymm le le')
    · exact .inl ⟨apart, le⟩
  · rcases second with later | ⟨rfl, holds'⟩
    · exact .inl later
    · exact .inr ⟨rfl, both holds holds'⟩

theorem Str.Lex.antisymm {s t rest rest'} (first : Lex s t rest) (second : Lex t s rest') : s = t ∧ rest ∧ rest' := by
  rcases first with ⟨apart, le⟩ | ⟨same, holds⟩
  · rcases second with ⟨_, ge⟩ | ⟨same, _⟩
    · exact absurd (le_antisymm le ge) apart
    · exact absurd same.symm apart
  · rcases second with ⟨apart, _⟩ | ⟨_, holds'⟩
    · exact absurd same.symm apart
    · exact ⟨same, holds, holds'⟩

end Go
