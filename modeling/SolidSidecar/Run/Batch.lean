import Mathlib

/-!
# Batches that stop at the first refusal

A batch applies a list of items to a store one after the other and stops at the first one that is
refused, leaving the store as it is then. The items are `Keyed`: each writes the store at its own key
only. Items whose outcome the earlier ones cannot change are independent; then a batch succeeds exactly
when no item is refused at its start, and what it leaves can be read off the items.
-/

namespace Run
open List

variable {σ ι ε κ α : Type}

def batch (step : σ → ι → σ × Except ε Unit) : σ → List ι → σ × Except ε Unit
  | s, [] => (s, .ok ())
  | s, i :: rest =>
    match step s i with
    | (s', .error err) => (s', .error err)
    | (s', .ok ()) => batch step s' rest

/-- What the step of every item keeps, a batch keeps, wherever it stops. -/
theorem batch_inv {step : σ → ι → σ × Except ε Unit} {Inv : σ → Prop} {items}
    (keep : ∀ s, ∀ i ∈ items, Inv s → Inv (step s i).1) {s} (start : Inv s) :
    Inv (batch step s items).1 := by
  induction items generalizing s with
  | nil => exact start
  | cons i rest ih =>
    have next := keep s i mem_cons_self start
    have later : ∀ s, ∀ j ∈ rest, Inv s → Inv (step s j).1 :=
      fun s j mem => keep s j (mem_cons_of_mem i mem)
    rw [batch]
    generalize step s i = done at next ⊢
    rcases done with ⟨_, _ | _⟩
    · exact next
    · exact ih later next

/-- A step is refused and changes nothing, or writes the value `target` under the key of its item. -/
structure Keyed [DecidableEq κ] (step : σ → ι → σ × Except ε Unit) (view : σ → κ → α) (key : ι → κ)
    (target : σ → ι → Except ε α) : Prop where
  refused : ∀ s i err, target s i = .error err → step s i = (s, .error err)
  applied : ∀ s i a, target s i = .ok a →
    (step s i).2 = .ok () ∧ view (step s i).1 = Function.update (view s) (key i) a

def Independent (step : σ → ι → σ × Except ε Unit) (target : σ → ι → Except ε α) (items : List ι) : Prop :=
  items.Pairwise fun i j => ∀ s, target (step s i).1 j = target s j

namespace Keyed

variable [DecidableEq κ] {step : σ → ι → σ × Except ε Unit} {view : σ → κ → α} {key : ι → κ}
  {target : σ → ι → Except ε α} (keyed : Keyed step view key target)

include keyed

variable {items : List ι}

theorem batch_refused {s i err} (refused : target s i = .error err) (rest : List ι) :
    batch step s (i :: rest) = (s, .error err) := by
  rw [batch, keyed.refused s i err refused]

theorem batch_applied {s i a} (admitted : target s i = .ok a) (rest : List ι) :
    batch step s (i :: rest) = batch step (step s i).1 rest := by
  have fine := (keyed.applied s i a admitted).1
  rw [batch]
  generalize step s i = next at fine ⊢
  obtain ⟨_, outcome⟩ := next
  have fine : outcome = .ok () := fine
  rw [fine]

/-- An independent batch succeeds when no item is refused at its start. -/
theorem batch_ok_iff (apart : Independent step target items) (s : σ) :
    (batch step s items).2 = .ok () ↔ ∀ i ∈ items, ∃ a, target s i = .ok a := by
  induction items generalizing s with
  | nil => simp [batch]
  | cons i rest ih =>
    obtain ⟨first, later⟩ := pairwise_cons.mp apart
    cases result : target s i with
    | error err =>
      rw [keyed.batch_refused result]
      simp [result]
    | ok a =>
      rw [keyed.batch_applied result, ih later, forall_mem_cons]
      constructor
      · intro all
        refine ⟨⟨a, result⟩, fun j mem => ?_⟩
        rw [← first j mem s]
        exact all j mem
      · rintro ⟨_, all⟩ j mem
        rw [first j mem s]
        exact all j mem

/-- A key of no item keeps its value, wherever the batch stops. -/
theorem batch_off {k} (off : ∀ i ∈ items, key i ≠ k) (s : σ) : view (batch step s items).1 k = view s k := by
  induction items generalizing s with
  | nil => rfl
  | cons i rest ih =>
    obtain ⟨here, later⟩ := forall_mem_cons.mp off
    cases result : target s i with
    | error err => rw [keyed.batch_refused result]
    | ok a =>
      rw [keyed.batch_applied result, ih later, (keyed.applied s i a result).2]
      exact Function.update_of_ne (.symm here) a (view s)

/-- After a batch that succeeds, a key has the value that its items agree on. -/
theorem batch_at (apart : Independent step target items) {s k a}
    (succeeds : ∀ i ∈ items, ∃ a, target s i = .ok a) (found : ∃ i ∈ items, key i = k)
    (agree : ∀ i ∈ items, key i = k → target s i = .ok a) :
    view (batch step s items).1 k = a := by
  induction items generalizing s with
  | nil => simp at found
  | cons i rest ih =>
    obtain ⟨first, later⟩ := pairwise_cons.mp apart
    obtain ⟨⟨b, admitted⟩, succeeds⟩ := forall_mem_cons.mp succeeds
    obtain ⟨here, agree⟩ := forall_mem_cons.mp agree
    rw [keyed.batch_applied admitted]
    by_cases again : ∃ j ∈ rest, key j = k
    · apply ih later
      · intro j mem
        rw [first j mem s]
        exact succeeds j mem
      · exact again
      · intro j mem same
        rw [first j mem s]
        exact agree j mem same
    · -- the first item is the last one of this key
      have only : key i = k := by
        obtain ⟨j, mem, same⟩ := found
        rcases mem_cons.mp mem with rfl | mem
        · exact same
        · exact absurd ⟨j, mem, same⟩ again
      have value : b = a := by
        have := here only
        rw [admitted] at this
        exact Except.ok.inj this
      have off : ∀ j ∈ rest, key j ≠ k := fun j mem same => again ⟨j, mem, same⟩
      rw [keyed.batch_off off, (keyed.applied s i b admitted).2, ← only, Function.update_self, value]

/-- A batch of items that would each write what is there changes nothing, wherever it stops. -/
theorem batch_idle (apart : Independent step target items) {s}
    (idle : ∀ i ∈ items, ∀ a, target s i = .ok a → a = view s (key i)) :
    view (batch step s items).1 = view s := by
  induction items generalizing s with
  | nil => rfl
  | cons i rest ih =>
    obtain ⟨first, later⟩ := pairwise_cons.mp apart
    obtain ⟨here, idle⟩ := forall_mem_cons.mp idle
    cases result : target s i with
    | error err => rw [keyed.batch_refused result]
    | ok a =>
      have same : view (step s i).1 = view s := by
        rw [(keyed.applied s i a result).2, here a result]
        exact Function.update_eq_self (key i) (view s)
      rw [keyed.batch_applied result, ih later, same]
      intro j mem b admitted
      rw [first j mem s] at admitted
      rw [same]
      exact idle j mem b admitted

end Keyed

end Run
