import Mathlib

/-!
# Binary floating point

A `float64` as the rational number it stands for. Every operation is the exact one followed by
`float64`, the rounding to 53 significant bits. The ends of the exponent range are left out: what is
computed here are rates of counters and seconds of durations.
-/

namespace Go

def roundEven (q : ℚ) : Int :=
  let rest := q - ⌊q⌋
  if rest < 1 / 2 ∨ rest = 1 / 2 ∧ ⌊q⌋ % 2 = 0 then ⌊q⌋ else ⌊q⌋ + 1

def float64 (q : ℚ) : ℚ :=
  if q = 0 then 0
  else
    let ulp : ℚ := 2 ^ (Int.log 2 |q| - 52)
    roundEven (q / ulp) * ulp

def truncate (x : ℚ) : Int := if 0 ≤ x then ⌊x⌋ else ⌈x⌉

def percentage (part total : Int) : ℚ :=
  float64 (float64 (float64 part / float64 total) * 100)

def durationSeconds (d : Int) : ℚ :=
  float64 (float64 (d.tdiv 1000000000) + float64 (float64 (d.tmod 1000000000) / 1000000000))

end Go
