import Mathlib

/-!
# Instants and durations

`time.Time` as nanoseconds since the zero time (1 January of year 1) and a `time.Duration` as an
integer number of nanoseconds. The seconds of an instant and every duration are `int64` in Go:
`Time.unix` wraps as `time.Unix` does on extreme seconds, `Time.add` saturates as `Time.Add` does,
and durations are combined through `wrap64`. A monotonic reading is not kept apart: one clock serves
a run.
-/

namespace Go

def wrap64 (n : Int) : Int := Int.bmod n (2 ^ 64)

theorem wrap64_of_lt {n} (low : 0 ≤ n) (high : n < 2 ^ 63) : wrap64 n = n := by
  unfold wrap64
  rw [Int.bmod_eq_of_le] <;> omega

def second : Int := 1000000000

def minute : Int := 60 * second

def hour : Int := 60 * minute

def unixToInternal : Int := 62135596800

@[ext] structure Time where
  ns : Int
  deriving DecidableEq, Repr, Inhabited

namespace Time

def zero : Time := ⟨0⟩

def unix (sec : Int) : Time := ⟨wrap64 (sec + unixToInternal) * second⟩

/-- The seconds field after an addition: it stops at the ends of `int64`. -/
def clampSec (s : Int) : Int :=
  if 2 ^ 63 - 1 < s then 2 ^ 63 - 1 else if s < -2 ^ 63 then -(2 ^ 63 - 1) else s

def add (t : Time) (d : Int) : Time :=
  ⟨clampSec ((t.ns + d) / second) * second + (t.ns + d) % second⟩

/-- `t.Sub(u)`, which stops at the extreme durations. -/
def sub (t u : Time) : Int :=
  if 2 ^ 63 - 1 < t.ns - u.ns then 2 ^ 63 - 1
  else if t.ns - u.ns < -2 ^ 63 then -2 ^ 63 else t.ns - u.ns

def after (t u : Time) : Bool := decide (u.ns < t.ns)

def before (t u : Time) : Bool := decide (t.ns < u.ns)

def isZero (t : Time) : Bool := t == zero

instance : LE Time := ⟨fun t u => t.ns ≤ u.ns⟩

instance : LT Time := ⟨fun t u => t.ns < u.ns⟩

instance (t u : Time) : Decidable (t ≤ u) := inferInstanceAs (Decidable (t.ns ≤ u.ns))

instance (t u : Time) : Decidable (t < u) := inferInstanceAs (Decidable (t.ns < u.ns))

theorem le_iff {t u : Time} : t ≤ u ↔ t.ns ≤ u.ns := .rfl

theorem lt_iff {t u : Time} : t < u ↔ t.ns < u.ns := .rfl

instance : LinearOrder Time where
  le_refl t := Int.le_refl t.ns
  le_trans _ _ _ := Int.le_trans
  le_antisymm _ _ h h' := Time.ext (Int.le_antisymm h h')
  le_total t u := Int.le_total t.ns u.ns
  lt_iff_le_not_ge _ _ := Int.lt_iff_le_and_not_ge
  toDecidableLE := inferInstance

@[simp] theorem after_iff {t u : Time} : t.after u = true ↔ u < t := by
  simp [after, lt_iff]

@[simp] theorem before_iff {t u : Time} : t.before u = true ↔ t < u := by
  simp [before, lt_iff]

/-- A duration that is not negative leads to no earlier instant. -/
theorem le_add {t : Time} {d} (low : 0 ≤ t.ns) (high : t.ns ≤ (2 ^ 63 - 1) * second)
    (forward : 0 ≤ d) : t ≤ t.add d := by
  rw [le_iff]
  simp only [add, clampSec]
  unfold second at *
  split_ifs <;> omega

end Time

end Go
