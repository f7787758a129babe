import SolidSidecar.Go.Str

/-!
# `base64.RawURLEncoding`

The URL alphabet without padding. Bytes are regrouped into six-bit values (`sextets`) and each value
is written as one character (`digit`). Decoding skips carriage returns and line feeds and does not
look at the bits left over at the end, as the Go decoder outside strict mode. `decode_encode` makes
the encoder injective.
-/

namespace Go.Base64
open List

def digit (n : Nat) : UInt8 :=
  if n < 26 then UInt8.ofNat (65 + n)
  else if n < 52 then UInt8.ofNat (71 + n)
  else if n < 62 then UInt8.ofNat (n - 4)
  else if n = 62 then 45 else 95

def value (c : UInt8) : Option Nat :=
  if 65 ≤ c.toNat ∧ c.toNat ≤ 90 then some (c.toNat - 65)
  else if 97 ≤ c.toNat ∧ c.toNat ≤ 122 then some (c.toNat - 71)
  else if 48 ≤ c.toNat ∧ c.toNat ≤ 57 then some (c.toNat + 4)
  else if c = 45 then some 62
  else if c = 95 then some 63
  else none

/-- Three bytes as four six-bit values; a shorter group at the end is filled with zero bits. -/
def sextets : Str → List Nat
  | a :: b :: c :: rest =>
    a.toNat / 4 :: (a.toNat % 4 * 16 + b.toNat / 16) :: (b.toNat % 16 * 4 + c.toNat / 64) ::
      c.toNat % 64 :: sextets rest
  | [a, b] => [a.toNat / 4, a.toNat % 4 * 16 + b.toNat / 16, b.toNat % 16 * 4]
  | [a] => [a.toNat / 4, a.toNat % 4 * 16]
  | [] => []

/-- Four six-bit values as three bytes; a lone value at the end is an error. -/
def bytes : List Nat → Option Str
  | w :: x :: y :: z :: rest =>
    (bytes rest).map fun s =>
      UInt8.ofNat (w * 4 + x / 16) :: UInt8.ofNat (x % 16 * 16 + y / 4) :: UInt8.ofNat (y % 4 * 64 + z) :: s
  | [w, x, y] => some [UInt8.ofNat (w * 4 + x / 16), UInt8.ofNat (x % 16 * 16 + y / 4)]
  | [w, x] => some [UInt8.ofNat (w * 4 + x / 16)]
  | [_] => none
  | [] => some []

def encode (s : Str) : Str := (sextets s).map digit

/-- `base64.StdEncoding`: the other two special characters, and padding to groups of four. -/
def stdEncode (s : Str) : Str :=
  let digits := (encode s).map fun c => if c = 45 then 43 else if c = 95 then 47 else c
  digits ++ List.replicate ((4 - digits.length % 4) % 4) 61

def decode (s : Str) : Option Str :=
  ((s.filter fun c => c ≠ 10 ∧ c ≠ 13).mapM value).bind bytes

theorem value_digit : ∀ n < 64, value (digit n) = some n := by decide

theorem digit_ne : ∀ n < 64, digit n ≠ 10 ∧ digit n ≠ 13 ∧ digit n ≠ 58 := by decide

theorem sextets_lt (s : Str) : ∀ n ∈ sextets s, n < 64 := by
  induction s using sextets.induct with
  | case1 a b c rest ih =>
    have ha := a.toNat_lt
    have hb := b.toNat_lt
    have hc := c.toNat_lt
    simp only [sextets, mem_cons]
    rintro n (rfl | rfl | rfl | rfl | later)
    · omega
    · omega
    · omega
    · omega
    · exact ih n later
  | case2 a b =>
    have ha := a.toNat_lt
    have hb := b.toNat_lt
    simp only [sextets, mem_cons, not_mem_nil, or_false]
    rintro n (rfl | rfl | rfl) <;> omega
  | case3 a =>
    have ha := a.toNat_lt
    simp only [sextets, mem_cons, not_mem_nil, or_false]
    rintro n (rfl | rfl) <;> omega
  | case4 => simp [sextets]

theorem ofNat_eq {n} (b : UInt8) (h : n = b.toNat) : .ofNat n = b := by
  rw [h]
  exact UInt8.ofNat_toNat

theorem bytes_sextets (s : Str) : bytes (sextets s) = some s := by
  induction s using sextets.induct with
  | case1 a b c rest ih =>
    have hb := b.toNat_lt
    have hc := c.toNat_lt
    simp only [sextets, bytes, ih, Option.map_some]
    rw [ofNat_eq a (by omega), ofNat_eq b (by omega), ofNat_eq c (by omega)]
  | case2 a b =>
    have hb := b.toNat_lt
    simp only [sextets, bytes]
    rw [ofNat_eq a (by omega), ofNat_eq b (by omega)]
  | case3 a =>
    simp only [sextets, bytes]
    rw [ofNat_eq a (by omega)]
  | case4 => rfl

theorem mapM_value_digit {l : List Nat} (small : ∀ n ∈ l, n < 64) : (l.map digit).mapM value = some l := by
  induction l with
  | nil => rfl
  | cons n rest ih =>
    simp only [map_cons, mapM_cons, value_digit n (small n (by simp)), ih fun m hm => small m (mem_cons_of_mem n hm)]
    rfl

/-- The encoder never writes a byte outside its alphabet, so nothing is skipped and nothing looks
like the colon that follows an encoding in a composite key. -/
theorem mem_encode {s c} (h : c ∈ encode s) : c ≠ 10 ∧ c ≠ 13 ∧ c ≠ 58 := by
  obtain ⟨n, inside, rfl⟩ := mem_map.mp h
  exact digit_ne n (sextets_lt s n inside)

theorem decode_encode (s : Str) : decode (encode s) = some s := by
  have kept : (encode s).filter (fun c => c ≠ 10 ∧ c ≠ 13) = encode s := by
    rw [filter_eq_self]
    intro c inside
    obtain ⟨feed, ret, _⟩ := mem_encode inside
    simp [feed, ret]
  rw [decode, kept, encode, mapM_value_digit (sextets_lt s)]
  exact bytes_sextets s

theorem encode_injective : Function.Injective encode := by
  intro s t same
  have decoded := decode_encode s
  rw [same, decode_encode] at decoded
  exact (Option.some.inj decoded).symm

end Go.Base64
