import Mathlib

/-!
# Calls that take a lock

A call works on a state behind a reader-writer lock that it takes and gives back. The lock is not reentrant: a
call that asks for it while it holds it, for writing at least, waits for itself. `Guarded` is such a call by itself,
without others: `none` is the wait that does not end. Readers may take the lock for reading again. A call is
`Balanced` from a state when it returns, with the lock free as it was.

The same call can be read with its lock operations left out: `Mutex.ignored`.
-/

namespace Run

structure RWLock where
  writer : Bool
  readers : Nat
  deriving DecidableEq, Repr

def RWLock.free : RWLock := ⟨false, 0⟩

inductive Mutex where
  | kept
  | ignored

/-- A call on a state `σ`: its result, the lock and the state after it, or `none` when it waits for itself. -/
def Guarded (σ α : Type) : Type := RWLock → σ → Option (α × RWLock × σ)

namespace Guarded

variable {σ α β : Type}

instance : Monad (Guarded σ) where
  pure a := fun l s => some (a, l, s)
  bind x f := fun l s =>
    match x l s with
    | none => none
    | some (a, l', s') => f a l' s'

def update (f : σ → α × σ) : Guarded σ α := fun l s => some ((f s).1, l, (f s).2)

def read (f : σ → α) : Guarded σ α := update fun s => (f s, s)

def modify (f : σ → σ) : Guarded σ Unit := update fun s => ((), f s)

def lock : Mutex → Guarded σ Unit
  | .ignored => pure ()
  | .kept => fun l s => if l = .free then some ((), ⟨true, 0⟩, s) else none

def unlock : Mutex → Guarded σ Unit
  | .ignored => pure ()
  | .kept => fun l s => some ((), ⟨false, l.readers⟩, s)

def rlock : Mutex → Guarded σ Unit
  | .ignored => pure ()
  | .kept => fun l s => if l.writer then none else some ((), ⟨false, l.readers + 1⟩, s)

def runlock : Mutex → Guarded σ Unit
  | .ignored => pure ()
  | .kept => fun l s => some ((), ⟨l.writer, l.readers - 1⟩, s)

/-- A call that holds the lock for writing until it returns. -/
def exclusively (m : Mutex) (body : Guarded σ α) : Guarded σ α := do
  lock m
  let a ← body
  unlock m
  return a

/-- A call that holds the lock for reading until it returns. -/
def shared (m : Mutex) (body : Guarded σ α) : Guarded σ α := do
  rlock m
  let a ← body
  runlock m
  return a

@[simp] theorem pure_apply (a : α) (l : RWLock) (s : σ) : (pure a : Guarded σ α) l s = some (a, l, s) := rfl

@[simp] theorem update_apply (f : σ → α × σ) (l : RWLock) (s : σ) : update f l s = some ((f s).1, l, (f s).2) := rfl

@[simp] theorem read_apply (f : σ → α) (l : RWLock) (s : σ) : read f l s = some (f s, l, s) := rfl

@[simp] theorem modify_apply (f : σ → σ) (l : RWLock) (s : σ) : modify f l s = some ((), l, f s) := rfl

theorem bind_of_some {x l l' s s' a} (done : x l s = some (a, l', s'))
    (f : α → Guarded σ β) : (x >>= f) l s = f a l' s' := by
  change (match x l s with
    | none => none
    | some (a, l', s') => f a l' s') = _
  rw [done]

theorem bind_of_none {x l s} (waits : x l s = none) (f : α → Guarded σ β) : (x >>= f) l s = none := by
  change (match x l s with
    | none => none
    | some (a, l', s') => f a l' s') = _
  rw [waits]

theorem lock_free (s : σ) : lock .kept .free s = some ((), ⟨true, 0⟩, s) := rfl

theorem lock_held {l} (held : l ≠ .free) (s : σ) : lock .kept l s = none := if_neg held

theorem rlock_free (s : σ) : rlock .kept .free s = some ((), ⟨false, 1⟩, s) := rfl

variable (body : Guarded σ α)

theorem exclusively_free (s : σ) :
    exclusively .kept body .free s = (body ⟨true, 0⟩ s).map fun r => (r.1, ⟨false, r.2.1.readers⟩, r.2.2) := by
  unfold exclusively
  rw [bind_of_some (lock_free s)]
  cases done : body ⟨true, 0⟩ s with
  | none => exact bind_of_none done _
  | some r =>
    rw [bind_of_some done]
    rfl

/-- A call that has the lock in any way and asks for it for writing waits for itself. -/
theorem exclusively_held {l} (held : l ≠ .free) (body : Guarded σ α) (s : σ) : exclusively .kept body l s = none :=
  bind_of_none (lock_held held s) _

theorem shared_free (s : σ) :
    shared .kept body .free s = (body ⟨false, 1⟩ s).map fun r => (r.1, ⟨r.2.1.writer, r.2.1.readers - 1⟩, r.2.2) := by
  unfold shared
  rw [bind_of_some (rlock_free s)]
  cases done : body ⟨false, 1⟩ s with
  | none => exact bind_of_none done _
  | some r =>
    rw [bind_of_some done]
    rfl

@[simp] theorem exclusively_ignored : exclusively .ignored body = body := by
  funext l s
  cases done : body l s with
  | none => exact bind_of_none done _
  | some r => exact bind_of_some done _

@[simp] theorem shared_ignored : shared .ignored body = body := by
  funext l s
  cases done : body l s with
  | none => exact bind_of_none done _
  | some r => exact bind_of_some done _

/-- A call that starts with the lock free returns, and leaves the lock free. -/
def Balanced (call : Guarded σ α) (s : σ) : Prop := ∃ a s', call .free s = some (a, .free, s')

theorem balanced_exclusively {body : Guarded σ α} {s a s'}
    (done : body ⟨true, 0⟩ s = some (a, ⟨true, 0⟩, s')) : Balanced (exclusively .kept body) s := by
  refine ⟨a, s', ?_⟩
  rw [exclusively_free, done]
  rfl

theorem balanced_shared {body : Guarded σ α} {s a s'}
    (done : body ⟨false, 1⟩ s = some (a, ⟨false, 1⟩, s')) : Balanced (shared .kept body) s := by
  refine ⟨a, s', ?_⟩
  rw [shared_free, done]
  rfl

theorem not_balanced_of_none {call : Guarded σ α} {s} (waits : call .free s = none) : ¬Balanced call s := by
  rintro ⟨_, _, done⟩
  rw [waits] at done
  cases done

theorem not_balanced_exclusively {body : Guarded σ α} {s} (waits : body ⟨true, 0⟩ s = none) :
    ¬Balanced (exclusively .kept body) s := by
  apply not_balanced_of_none
  rw [exclusively_free, waits]
  rfl

end Guarded

end Run
