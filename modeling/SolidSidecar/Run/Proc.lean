import Mathlib

/-!
# Procedures

A method that works on a state and may fail is a function from the state to its result and the state it
leaves, which a failure keeps: nothing is rolled back. Two kinds of facts are proved of such a method
from its parts: what a successful call did (`bind_eq_ok`), and what every call does to the state, whether
it fails or not (`Steps`).
-/

namespace Run

/-- A procedure on states `σ` that fails with an `ε` or returns an `α`. -/
def Proc (σ ε α : Type) : Type := σ → Except ε α × σ

namespace Proc

variable {σ ε α β ι : Type}

instance : Monad (Proc σ ε) where
  pure a := fun s => (.ok a, s)
  bind x f := fun s =>
    match x s with
    | (.ok a, s') => f a s'
    | (.error err, s') => (.error err, s')

def fail (err : ε) : Proc σ ε α := fun s => (.error err, s)

/-- The result of a check that does not look at the state. -/
def of (result : Except ε α) : Proc σ ε α := fun s => (result, s)

def read (f : σ → α) : Proc σ ε α := fun s => (.ok (f s), s)

def modify (f : σ → σ) : Proc σ ε Unit := fun s => (.ok (), f s)

/-- Call a procedure and go on with its result, whatever it is. -/
def attempt (x : Proc σ ε α) : Proc σ ε (Except ε α) := fun s => (.ok (x s).1, (x s).2)

def forEach (f : ι → Proc σ ε Unit) : List ι → Proc σ ε Unit
  | [] => pure ()
  | i :: rest => do
    f i
    forEach f rest

theorem bind_apply (x : Proc σ ε α) (f : α → Proc σ ε β) (s : σ) : (x >>= f) s = match x s with
      | (.ok a, s') => f a s'
      | (.error err, s') => (.error err, s') := rfl

@[simp] theorem pure_apply (a : α) (s : σ) : (pure a : Proc σ ε α) s = (.ok a, s) := rfl

@[simp] theorem fail_apply (err : ε) (s : σ) : (fail err : Proc σ ε α) s = (.error err, s) := rfl

@[simp] theorem of_apply (result : Except ε α) (s : σ) : of result s = (result, s) := rfl

@[simp] theorem read_apply (f : σ → α) (s : σ) : (read f : Proc σ ε α) s = (.ok (f s), s) := rfl

@[simp] theorem modify_apply (f : σ → σ) (s : σ) : (modify f : Proc σ ε Unit) s = (.ok (), f s) := rfl

theorem bind_of_ok {x} {f : α → Proc σ ε β} {s s' a} (done : x s = (.ok a, s')) : (x >>= f) s = f a s' := by
  rw [bind_apply, done]

theorem bind_of_error {x} {f : α → Proc σ ε β} {s s' err}
    (failed : x s = (.error err, s')) : (x >>= f) s = (.error err, s') := by
  rw [bind_apply, failed]

theorem of_bind_eq_ok {result} {f : α → Proc σ ε β} {s s' b} :
    (of result >>= f) s = (.ok b, s') ↔ ∃ a, result = .ok a ∧ f a s = (.ok b, s') := by
  cases result with
  | error err => simp [bind_of_error (of_apply _ s)]
  | ok a => simp [bind_of_ok (of_apply _ s)]

/-- A sequence succeeds when its steps do, one after another. -/
theorem bind_eq_ok {x} {f : α → Proc σ ε β} {s s'' b} :
    (x >>= f) s = (.ok b, s'') ↔ ∃ a s', x s = (.ok a, s') ∧ f a s' = (.ok b, s'') := by
  constructor
  · intro done
    rw [bind_apply] at done
    split at done
    · rename_i a s' first
      exact ⟨a, s', first, done⟩
    · cases done
  · rintro ⟨a, s', first, second⟩
    rw [bind_of_ok first, second]

@[simp] theorem modify_eq_ok {f s s' u} : (modify f : Proc σ ε Unit) s = (.ok u, s') ↔ f s = s' := by
  simp

/-- Every call takes the state to one that is related to it. -/
def Steps (R : σ → σ → Prop) (x : Proc σ ε α) : Prop := ∀ s, R s (x s).2

section Rules

variable {R : σ → σ → Prop} (refl : ∀ s, R s s) (trans : ∀ s s' s'', R s s' → R s' s'' → R s s'')

include refl

theorem Steps.pure (a : α) : Steps R (pure a : Proc σ ε α) := refl

theorem Steps.fail (err : ε) : Steps R (fail err : Proc σ ε α) := refl

theorem Steps.of (result : Except ε α) : Steps R (of result : Proc σ ε α) := refl

theorem Steps.read (f : σ → α) : Steps R (read f : Proc σ ε α) := refl

omit refl in
theorem Steps.modify {f : σ → σ} (keeps : ∀ s, R s (f s)) : Steps R (modify f : Proc σ ε Unit) := keeps

omit refl

include trans

/-- The second part is needed only for what the first returns. -/
theorem Steps.bind_of {x} {f : α → Proc σ ε β} (first : Steps R x)
    (second : ∀ s a s', x s = (.ok a, s') → R s' (f a s').2) : Steps R (x >>= f) := by
  intro s
  have kept := first s
  rw [bind_apply]
  split
  · rename_i a s' done
    rw [done] at kept
    exact trans _ _ _ kept (second s a s' done)
  · rename_i _ s' failed
    rw [failed] at kept
    exact kept

theorem Steps.bind {x} {f : α → Proc σ ε β} (first : Steps R x) (second : ∀ a, Steps R (f a)) : Steps R (x >>= f) :=
  bind_of trans first fun _ a s' _ => second a s'

include refl in
theorem Steps.forEach {f : ι → Proc σ ε Unit} {items : List ι} (each : ∀ i ∈ items, Steps R (f i)) :
    Steps R (forEach f items) := by
  induction items with
  | nil => exact Steps.pure refl ()
  | cons i rest ih =>
    apply Steps.bind trans (each i List.mem_cons_self)
    intro _
    exact ih fun i mem => each i (List.mem_cons_of_mem _ mem)

end Rules

end Proc

end Run
