import Mathlib

/-!
# Chains of checks

A validator is a sequence of steps in `Except`, each of which may stop with an error. The lemmas say
when such a sequence succeeds and when it stops, step by step.
-/

namespace Go

variable {ε α β : Type}

/-- A sequence of checks succeeds when each of them does. -/
theorem bind_eq_ok {x} {f : α → Except ε β} {b} : x >>= f = .ok b ↔ ∃ a, x = .ok a ∧ f a = .ok b := by
  cases x <;> simp [bind, Except.bind]

/-- It fails when one of them does, those before it having succeeded. -/
theorem bind_eq_error {x} {f : α → Except ε β} {e} :
    x >>= f = .error e ↔ x = .error e ∨ ∃ a, x = .ok a ∧ f a = .error e := by
  cases x <;> simp [bind, Except.bind]

theorem then_eq_ok {x} {f : Unit → Except ε β} {b} : x >>= f = .ok b ↔ x = .ok () ∧ f () = .ok b := by
  rw [bind_eq_ok]
  constructor
  · rintro ⟨⟨⟩, first, rest⟩
    exact ⟨first, rest⟩
  · rintro ⟨first, rest⟩
    exact ⟨(), first, rest⟩

theorem isOk_iff {result : Except ε Unit} : result.isOk = true ↔ result = .ok () := by
  cases result <;> simp [Except.toBool]

/-- An optional result, or the error for its absence. -/
def orError (err : ε) : Option α → Except ε α
  | some a => .ok a
  | none => .error err

def refuse (bad : Prop) [Decidable bad] (err : ε) : Except ε Unit :=
  if bad then .error err else .ok ()

@[simp] theorem refuse_eq_ok {bad} [Decidable bad] {err : ε} {u} : refuse bad err = .ok u ↔ ¬ bad := by
  unfold refuse
  split <;> simp [*]

@[simp] theorem refuse_eq_error {bad} [Decidable bad] {err e : ε} : refuse bad err = .error e ↔ bad ∧ e = err := by
  unfold refuse
  split
  · simp [*, eq_comm]
  · simp [*]

@[simp] theorem orError_eq_ok {err : ε} {x : Option α} {a} : orError err x = .ok a ↔ x = some a := by
  cases x <;> simp [orError]

@[simp] theorem orError_eq_error {err e : ε} {x : Option α} : orError err x = .error e ↔ x = none ∧ e = err := by
  cases x <;> simp [orError, eq_comm]

@[simp] theorem mapError_eq_ok {ε' : Type} {f : ε → ε'} {x : Except ε α} {a} : x.mapError f = .ok a ↔ x = .ok a := by
  cases x <;> simp [Except.mapError]

@[simp] theorem mapError_eq_error {ε' : Type} {f : ε → ε'} {x : Except ε α} {e} :
    x.mapError f = .error e ↔ ∃ err, x = .error err ∧ e = f err := by
  cases x <;> simp [Except.mapError, eq_comm]

/-- The same check of every element of a list, in order. -/
def checkAll (check : α → Except ε Unit) : List α → Except ε Unit
  | [] => .ok ()
  | a :: rest => do
    check a
    checkAll check rest

theorem checkAll_eq_ok {check : α → Except ε Unit} {l u} : checkAll check l = .ok u ↔ ∀ a ∈ l, check a = .ok () := by
  induction l with
  | nil => simp [checkAll]
  | cons a rest ih => simp [checkAll, then_eq_ok, ih]

/-- A list of optional results is taken when all of them are. -/
theorem mapM_eq_some {f : α → Option β} {l : List α} {bs} :
    l.mapM f = some bs ↔ (∀ a ∈ l, (f a).isSome = true) ∧ l.filterMap f = bs := by
  induction l generalizing bs with
  | nil => simp
  | cons a rest ih =>
    rw [List.mapM_cons]
    cases first : f a with
    | none => simp [first]
    | some b => simp [first, Option.bind_eq_some_iff, ih, and_assoc]

theorem mapM_eq_none {f : α → Option β} {l : List α} : l.mapM f = none ↔ ∃ a ∈ l, f a = none := by
  rw [← Option.not_isSome_iff_eq_none, Option.isSome_iff_exists]
  simp [mapM_eq_some]

end Go
