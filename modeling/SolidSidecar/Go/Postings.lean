import SolidSidecar.Go.Map

/-!
# Postings

A map from values to the names that were entered under them, `map[K][]A`, kept beside the map that says
which name has which values. A name is entered under a value by `append` and taken out by copying the list
without it; a list that becomes empty is deleted.

`Lists p has` says that the postings are exact: under every value stand the names that have it, each once.
For every operation there is the condition under which it leads from exact postings to exact ones.
-/

namespace Go
open List

abbrev Postings (κ α : Type) := GoMap κ (List α)

namespace Postings

variable {κ α : Type} [DecidableEq κ] [DecidableEq α]

def under (p : Postings κ α) (k : κ) : List α := (p.lookup k).getD []

def enter (p : Postings κ α) (k : κ) (a : α) : Postings κ α := p.insert k (p.under k ++ [a])

def enterAll (p : Postings κ α) (ks : List κ) (a : α) : Postings κ α := ks.foldl (fun p k => p.enter k a) p

/-- `m[k] = names`, or `delete(m, k)` when there are none. -/
def setOrDelete (p : Postings κ α) (k : κ) (names : List α) : Postings κ α :=
  if names = [] then p.erase k else p.insert k names

def update (p : Postings κ α) (k : κ) (f : List α → List α) : Postings κ α :=
  match p.lookup k with
  | none => p
  | some names => p.setOrDelete k (f names)

def leave (p : Postings κ α) (k : κ) (a : α) : Postings κ α := p.update k fun names => names.filter (· ≠ a)

/-- Take a name out from under values one after the other. -/
def leaveAll (p : Postings κ α) (ks : List κ) (a : α) : Postings κ α := ks.foldl (fun p k => p.leave k a) p

/-- Take a name out from its first place under a value. -/
def leaveFirst (p : Postings κ α) (k : κ) (a : α) : Postings κ α := p.update k fun names => names.erase a

/-- Take a name out everywhere: a `range` loop over the map, each round of which changes its own entry. -/
def purge (p : Postings κ α) (a : α) : Postings κ α := p.leaveAll p.keys a

omit [DecidableEq α] in
theorem under_enter (p : Postings κ α) (k k' : κ) (a : α) :
    (p.enter k a).under k' = p.under k' ++ (if k' = k then [a] else []) := by
  unfold under enter
  rw [GoMap.lookup_insert_eq]
  split_ifs with same
  · subst same
    rfl
  · rw [append_nil]

omit [DecidableEq α] in
theorem under_enterAll (p : Postings κ α) (ks : List κ) (a : α) (k : κ) :
    (p.enterAll ks a).under k = p.under k ++ List.replicate (ks.count k) a := by
  unfold enterAll
  induction ks generalizing p with
  | nil => simp
  | cons first rest ih =>
    rw [foldl_cons, ih, under_enter, append_assoc, count_cons]
    by_cases same : k = first
    · subst same
      simp [replicate_succ]
    · have apart : (first == k) = false := by simpa using Ne.symm same
      rw [if_neg same, apart, nil_append]
      rfl

omit [DecidableEq α] in
theorem under_setOrDelete (p : Postings κ α) (k k' : κ) (names : List α) :
    (p.setOrDelete k names).under k' = if k' = k then names else p.under k' := by
  unfold under setOrDelete
  split_ifs with empty same same
  · rw [GoMap.lookup_erase_eq, if_pos same, empty]
    rfl
  · rw [GoMap.lookup_erase_eq, if_neg same]
  · rw [GoMap.lookup_insert_eq, if_pos same]
    rfl
  · rw [GoMap.lookup_insert_eq, if_neg same]

omit [DecidableEq α] in
theorem under_update (p : Postings κ α) (k k' : κ) {f : List α → List α} (none : f [] = []) :
    (p.update k f).under k' = if k' = k then f (p.under k') else p.under k' := by
  unfold update
  split
  · rename_i absent
    split_ifs with same
    · subst same
      rw [under, absent]
      exact none.symm
    · rfl
  · rename_i names found
    rw [under_setOrDelete]
    split_ifs with same
    · subst same
      rw [under, found]
      rfl
    · rfl

variable (p : Postings κ α)

theorem under_leave (k k' : κ) (a : α) :
    (p.leave k a).under k' = if k' = k then (p.under k').filter (· ≠ a) else p.under k' :=
  under_update p k k' rfl

theorem under_leaveFirst (k k' : κ) (a : α) :
    (p.leaveFirst k a).under k' = if k' = k then (p.under k').erase a else p.under k' :=
  under_update p k k' rfl

theorem under_leaveAll (ks : List κ) (a : α) (k : κ) :
    (p.leaveAll ks a).under k = if k ∈ ks then (p.under k).filter (· ≠ a) else p.under k := by
  unfold leaveAll
  induction ks generalizing p with
  | nil => simp
  | cons first rest ih =>
    rw [foldl_cons, ih, under_leave]
    by_cases same : k = first
    · subst same
      simp
    · by_cases later : k ∈ rest
      · simp [same]
      · simp [later]

theorem under_purge (a : α) (k : κ) : (p.purge a).under k = (p.under k).filter (· ≠ a) := by
  rw [purge, under_leaveAll]
  split_ifs with listed
  · rfl
  · have absent : p.lookup k = none := AList.lookup_eq_none.mpr listed
    rw [under, absent]
    rfl

/-- Under every value stand the names that have it, each once. -/
def Lists (p : Postings κ α) (has : κ → α → Prop) : Prop :=
  ∀ k, (p.under k).Nodup ∧ ∀ a, a ∈ p.under k ↔ has k a

variable {p : Postings κ α} {has has' : κ → α → Prop} (exact : p.Lists has)

include exact

omit [DecidableEq α] in
theorem Lists.same_iff : p.Lists has' ↔ ∀ k a, has' k a ↔ has k a := by
  constructor
  · intro after k a
    rw [← (after k).2 a, (exact k).2 a]
  · intro same k
    refine ⟨(exact k).1, fun a => ?_⟩
    rw [(exact k).2 a, same]

/-- A name that gets values is entered under them when they are distinct, it had none of them, and
nothing else changes. -/
theorem Lists.enterAll_iff {a ks} (gets : ∀ k, has' k a ↔ k ∈ ks) : (p.enterAll ks a).Lists has' ↔
      ks.Nodup ∧ (∀ k, ¬ has k a) ∧ ∀ k b, b ≠ a → (has' k b ↔ has k b) := by
  have shape (k : κ) : (p.enterAll ks a).under k = p.under k ++ replicate (ks.count k) a :=
    under_enterAll p ks a k
  have entered (k : κ) : a ∈ replicate (ks.count k) a ↔ k ∈ ks := by
    rw [mem_replicate, ne_eq, count_eq_zero, not_not]
    exact and_iff_left rfl
  have other {b} (apart : b ≠ a) (k : κ) : b ∈ (p.enterAll ks a).under k ↔ has k b := by
    rw [shape, mem_append, (exact k).2 b, or_iff_left]
    exact fun mem => apart (eq_of_mem_replicate mem)
  constructor
  · intro after
    have once (k : κ) := (after k).1
    simp only [shape] at once
    refine ⟨?_, ?_, ?_⟩
    · exact nodup_iff_count_le_one.mpr fun k =>
        nodup_replicate.mp (nodup_append.mp (once k)).2.1
    · intro k had
      have present : a ∈ p.under k := ((exact k).2 a).mpr had
      have listed : a ∈ (p.enterAll ks a).under k := by
        rw [shape]
        exact mem_append_left _ present
      have still : k ∈ ks := (gets k).mp (((after k).2 a).mp listed)
      exact (nodup_append.mp (once k)).2.2 a present a ((entered k).mpr still) rfl
    · intro k b apart
      rw [← (after k).2 b, other apart]
  · rintro ⟨distinct, fresh, same⟩ k
    constructor
    · rw [shape]
      have few : (replicate (ks.count k) a).Nodup :=
        nodup_replicate.mpr (nodup_iff_count_le_one.mp distinct k)
      refine nodup_append.mpr ⟨(exact k).1, few, ?_⟩
      rintro b mem _ new rfl
      rw [eq_of_mem_replicate new] at mem
      exact fresh k (((exact k).2 a).mp mem)
    · intro b
      by_cases mine : b = a
      · subst mine
        rw [shape, mem_append, (exact k).2 b, entered, gets, or_iff_right (fresh k)]
      · rw [other mine, same k b mine]

/-- A name that loses its values is taken out when it is taken out from under each of them. -/
theorem Lists.leaveAll_iff {a} (loses : ∀ k b, has' k b ↔ has k b ∧ b ≠ a) {ks} :
    (p.leaveAll ks a).Lists has' ↔ ∀ k, has k a → k ∈ ks := by
  constructor
  · intro after k had
    by_contra kept
    have present : a ∈ (p.leaveAll ks a).under k := by
      rw [under_leaveAll, if_neg kept]
      exact ((exact k).2 a).mpr had
    exact ((loses k a).mp (((after k).2 a).mp present)).2 rfl
  · intro all k
    rw [under_leaveAll]
    split_ifs with listed
    · refine ⟨(exact k).1.filter _, fun b => ?_⟩
      rw [mem_filter, (exact k).2 b, loses]
      simp
    · refine ⟨(exact k).1, fun b => ?_⟩
      rw [(exact k).2 b, loses, iff_self_and]
      rintro had rfl
      exact listed (all k had)

/-- A name with one value is taken out from its place under it. -/
theorem Lists.leaveFirst {a} (loses : ∀ k b, has' k b ↔ has k b ∧ b ≠ a) {k}
    (one : ∀ k', has k' a → k' = k) : (p.leaveFirst k a).Lists has' := by
  intro k'
  rw [under_leaveFirst]
  split_ifs with same
  · refine ⟨(exact k').1.erase a, fun b => ?_⟩
    rw [(exact k').1.mem_erase_iff, (exact k').2 b, loses, and_comm]
  · refine ⟨(exact k').1, fun b => ?_⟩
    rw [(exact k').2 b, loses, iff_self_and]
    rintro had rfl
    exact same (one k' had)

/-- A name that loses its values may be taken out everywhere. -/
theorem Lists.purge {a} (loses : ∀ k b, has' k b ↔ has k b ∧ b ≠ a) : (p.purge a).Lists has' := by
  intro k
  rw [under_purge]
  refine ⟨(exact k).1.filter _, fun b => ?_⟩
  rw [mem_filter, (exact k).2 b, loses]
  simp

end Postings

end Go
