import SolidSidecar.Go.Str
import SolidSidecar.Go.Time

/-!
# Readers of package `io`

A reader is the bytes it has left and how it ends. Each read gives at least one byte and at most as
many as asked for; how many is up to the reader (`pace`). `io.Copy` through a buffer, a
`LimitedReader` and a pipe do not depend on it: `copy_eq` says what they pass on.
-/

namespace Go.Io
open List

inductive Ending where
  | eof
  | error (text : Str)
  deriving DecidableEq, Repr

structure Stream where
  bytes : Str
  ending : Ending := .eof
  deriving DecidableEq, Repr

def Stream.read (pace : Nat → Nat) (s : Stream) (size : Nat) : Str × Option Ending × Stream :=
  if s.bytes = [] then ([], some s.ending, s)
  else
    let portion := max 1 (min size (pace s.bytes.length))
    (s.bytes.take portion, none, { s with bytes := s.bytes.drop portion })

structure LimitedReader where
  r : Stream
  n : Int

def LimitedReader.read (pace : Nat → Nat) (l : LimitedReader) (size : Nat) : Str × Option Ending × LimitedReader :=
  if l.n ≤ 0 then ([], some .eof, l)
  else
    let (got, ended, rest) := l.r.read pace (min size l.n.toNat)
    (got, ended, { r := rest, n := l.n - got.length })

/-- `io.Copy` through a buffer of `size` bytes, with at most `fuel` reads: what is written, the error,
and the reader afterwards. -/
def copy (pace : Nat → Nat) (size : Nat) : Nat → LimitedReader → Str × Option Str × LimitedReader
  | 0, l => ([], none, l)
  | fuel + 1, l =>
    match l.read pace size with
    | (_, some .eof, l) => ([], none, l)
    | (_, some (.error text), l) => ([], some text, l)
    | (got, none, l) =>
      let (written, err, l) := copy pace size fuel l
      (got ++ written, err, l)

def Ending.err : Ending → Option Str
  | .eof => none
  | .error text => some text

/-- A copy from a limited reader passes on what is left of the limit. -/
theorem copy_eq (pace : Nat → Nat) (size fuel : Nat) (s : Stream) (n : Int) (enough : s.bytes.length < fuel) :
    copy pace size fuel ⟨s, n⟩ =
      if (s.bytes.length : Int) < n then
        (s.bytes, s.ending.err, ⟨{ s with bytes := [] }, n - s.bytes.length⟩)
      else (s.bytes.take n.toNat, none, ⟨{ s with bytes := s.bytes.drop n.toNat }, min n 0⟩) := by
  induction fuel generalizing s n with
  | zero => omega
  | succ fuel ih =>
    unfold copy LimitedReader.read
    by_cases spent : n ≤ 0
    · have zero : n.toNat = 0 := by omega
      rw [if_pos spent, if_neg (by omega), zero, Int.min_eq_left spent]
      rfl
    rw [if_neg spent]
    by_cases done : s.bytes = []
    · rw [if_pos (by simp [done]; omega)]
      obtain ⟨bytes, ending⟩ := s
      cases done
      cases ending <;> simp [Stream.read, Ending.err]
    · -- a portion of at least one byte, within the buffer and the limit
      have some : 0 < s.bytes.length := length_pos_of_ne_nil done
      simp only [Stream.read, if_neg done]
      generalize portion_eq : max 1 (min _ _) = portion
      have shorter : (s.bytes.drop portion).length = s.bytes.length - portion := length_drop
      rw [ih { s with bytes := s.bytes.drop portion } _ (by simp only; omega)]
      by_cases all : s.bytes.length ≤ portion
      · have taken : s.bytes.take portion = s.bytes := take_of_length_le all
        have left : s.bytes.drop portion = [] := drop_of_length_le all
        simp only [taken, left, length_nil]
        by_cases within : s.bytes.length < n
        · rw [if_pos (by omega), if_pos within]
          simp
        · have exact : n.toNat = s.bytes.length := by omega
          rw [if_neg (by omega), if_neg within, exact]
          simp
          omega
      · have length : (s.bytes.take portion).length = portion := by
          rw [length_take]
          omega
        simp only
        by_cases within : s.bytes.length < n
        · rw [if_pos (by omega), if_pos within]
          simp only [take_append_drop, Prod.mk.injEq, LimitedReader.mk.injEq, true_and]
          omega
        · rw [if_neg (by omega), if_neg within, drop_drop]
          simp only [Prod.mk.injEq, LimitedReader.mk.injEq, Stream.mk.injEq, true_and, and_true]
          refine ⟨?_, ?_, by omega⟩
          · rw [← take_add]
            congr 1
            omega
          · congr 1
            omega

/-- A pipe: what was written, and how it was closed. -/
structure Pipe where
  written : Str := []
  closed : Option Ending := none

/-- `CloseWithError`, or `Close` with `eof`; only the first close counts. -/
def Pipe.close (p : Pipe) (ending : Ending) : Pipe :=
  if p.closed.isSome then p else { p with closed := some ending }

def Pipe.stream (p : Pipe) : Stream := ⟨p.written, p.closed.getD .eof⟩

end Go.Io
