import Mathlib

/-!
# Go strings as bytes, and their runes

A Go string is an immutable sequence of bytes, which need not be UTF-8. `Str` is that sequence;
a Lean string literal is coerced to its UTF-8 bytes (`str`). `range` over a string yields runes:
`decodeRune` is `utf8.DecodeRuneInString` (an invalid byte is one `runeError` of width 1), `runes`
the whole loop.

Tests that look at every rune are often tests of every byte in disguise: `runes_all_iff_of_ascii`
covers a test that refuses everything above ASCII, `runes_all_iff_of_high` one that accepts it.
-/

namespace Go
open List

variable {b : UInt8} {P : Nat → Prop}

abbrev Str := List UInt8

instance : LawfulBEq Str := inferInstance

def str (s : String) : Str := s.toUTF8.data.toList

instance : Coe String Str := ⟨str⟩

def runeError : Nat := 0xFFFD

def isCont (b : UInt8) : Bool := 0x80 ≤ b.toNat && b.toNat ≤ 0xBF

/-- The two bytes after a three- or four-byte lead that are not constrained by the lead. -/
def low6 (b : UInt8) : Nat := b.toNat - 0x80

/-- The second byte admitted after the lead `x` (`utf8.acceptRanges`): overlong forms, surrogates
and values above U+10FFFF are excluded here. -/
def acceptsSecond (x : Nat) (b : UInt8) : Bool :=
  if x = 0xE0 then 0xA0 ≤ b.toNat && b.toNat ≤ 0xBF
  else if x = 0xED then 0x80 ≤ b.toNat && b.toNat ≤ 0x9F
  else if x = 0xF0 then 0x90 ≤ b.toNat && b.toNat ≤ 0xBF
  else if x = 0xF4 then 0x80 ≤ b.toNat && b.toNat ≤ 0x8F
  else isCont b

/-- `utf8.DecodeRuneInString` on a nonempty string `b :: rest`: the rune and its width. -/
def decodeRune (b : UInt8) (rest : Str) : Nat × Nat :=
  let x := b.toNat
  if x < 0x80 then (x, 1)
  else if 0xC2 ≤ x ∧ x ≤ 0xDF then
    match rest with
    | b1 :: _ => if isCont b1 then ((x - 0xC0) * 64 + low6 b1, 2) else (runeError, 1)
    | _ => (runeError, 1)
  else if 0xE0 ≤ x ∧ x ≤ 0xEF then
    match rest with
    | b1 :: b2 :: _ =>
      if acceptsSecond x b1 && isCont b2 then ((x - 0xE0) * 4096 + low6 b1 * 64 + low6 b2, 3)
      else (runeError, 1)
    | _ => (runeError, 1)
  else if 0xF0 ≤ x ∧ x ≤ 0xF4 then
    match rest with
    | b1 :: b2 :: b3 :: _ =>
      if acceptsSecond x b1 && isCont b2 && isCont b3 then
        ((x - 0xF0) * 262144 + low6 b1 * 4096 + low6 b2 * 64 + low6 b3, 4)
      else (runeError, 1)
    | _ => (runeError, 1)
  else (runeError, 1)

/-- The runes of a string after skipping the `skip` bytes the last rune still covers. -/
def runesFrom : Nat → Str → List Nat
  | _, [] => []
  | 0, b :: rest => (decodeRune b rest).1 :: runesFrom ((decodeRune b rest).2 - 1) rest
  | skip + 1, _ :: rest => runesFrom skip rest

def runes (s : Str) : List Nat := runesFrom 0 s

theorem decodeRune_ascii {rest} (h : b.toNat < 0x80) : decodeRune b rest = (b.toNat, 1) := by
  simp [decodeRune, h]

theorem le_of_acceptsSecond {x} (h : acceptsSecond x b = true) : 0x80 ≤ b.toNat := by
  unfold acceptsSecond isCont at h
  split at h
  · simp at h; omega
  split at h
  · simp at h; omega
  split at h
  · simp at h; omega
  split at h <;> simp at h <;> omega

/-- A byte above ASCII starts a rune above ASCII, and the rune covers only such bytes. -/
theorem decodeRune_high (rest : Str) (h : 0x80 ≤ b.toNat) :
    0x80 ≤ (decodeRune b rest).1 ∧ ∀ c ∈ rest.take ((decodeRune b rest).2 - 1), 0x80 ≤ c.toNat := by
  unfold decodeRune runeError
  simp only
  split
  · omega
  split
  · cases rest with
    | nil => simp
    | cons b1 rest =>
      by_cases c1 : isCont b1 = true
      · simp only [c1]
        simp only [isCont, Bool.and_eq_true, decide_eq_true_eq] at c1
        simp
        omega
      · simp [c1]
  split
  · match rest with
    | [] => simp
    | [_] => simp
    | b1 :: b2 :: _ =>
      by_cases c : (acceptsSecond b.toNat b1 && isCont b2) = true
      · simp only [c]
        simp only [Bool.and_eq_true] at c
        have l1 := le_of_acceptsSecond c.1
        have c2 := c.2
        simp only [isCont, Bool.and_eq_true, decide_eq_true_eq] at c2
        refine ⟨?_, by simp; omega⟩
        change 0x80 ≤ (b.toNat - 0xE0) * 4096 + (b1.toNat - 0x80) * 64 + (b2.toNat - 0x80)
        by_cases e : b.toNat = 0xE0
        · have c1 := c.1
          simp [acceptsSecond, e] at c1
          omega
        · omega
      · simp [c]
  split
  · match rest with
    | [] => simp
    | [_] => simp
    | [_, _] => simp
    | b1 :: b2 :: b3 :: _ =>
      by_cases c : (acceptsSecond b.toNat b1 && isCont b2 && isCont b3) = true
      · simp only [c]
        simp only [Bool.and_eq_true] at c
        have l1 := le_of_acceptsSecond c.1.1
        have c2 := c.1.2
        have c3 := c.2
        simp only [isCont, Bool.and_eq_true, decide_eq_true_eq] at c2 c3
        refine ⟨?_, by simp; omega⟩
        change 0x80 ≤ (b.toNat - 0xF0) * 262144 + (b1.toNat - 0x80) * 4096 +
          (b2.toNat - 0x80) * 64 + (b3.toNat - 0x80)
        by_cases e : b.toNat = 0xF0
        · have c1 := c.1.1
          simp [acceptsSecond, e] at c1
          omega
        · omega
      · simp [c]
  · simp

theorem runes_of_ascii {s} (ascii : ∀ b ∈ s, b.toNat < 0x80) : runes s = s.map UInt8.toNat := by
  unfold runes
  induction s with
  | nil => rfl
  | cons b rest ih =>
    rw [runesFrom, decodeRune_ascii (ascii b mem_cons_self)]
    exact congrArg _ (ih fun b mem => ascii b (mem_cons_of_mem _ mem))

/-- A test that refuses every rune above ASCII passes all runes exactly when it passes all bytes. -/
theorem runes_all_iff_of_ascii (high : ∀ r, 0x80 ≤ r → ¬ P r) (s : Str) :
    (∀ r ∈ runes s, P r) ↔ ∀ b ∈ s, P b.toNat := by
  unfold runes
  induction s with
  | nil => simp [runesFrom]
  | cons b rest ih =>
    by_cases h : b.toNat < 0x80
    · simp only [runesFrom, decodeRune_ascii h, forall_mem_cons]
      rw [ih]
    · have lead := (decodeRune_high rest (Nat.le_of_not_lt h)).1
      simp only [runesFrom, forall_mem_cons]
      exact iff_of_false (fun all => high _ lead all.1) (fun all => high _ (Nat.le_of_not_lt h) all.1)

theorem runesFrom_all_iff (high : ∀ r, 0x80 ≤ r → P r) (s : Str) : ∀ skip, (∀ c ∈ s.take skip, 0x80 ≤ c.toNat) →
      ((∀ r ∈ runesFrom skip s, P r) ↔ ∀ b ∈ s, P b.toNat) := by
  induction s with
  | nil => intro skip _; cases skip <;> simp [runesFrom]
  | cons b rest ih =>
    intro skip covered
    cases skip with
    | zero =>
      by_cases h : b.toNat < 0x80
      · simp only [runesFrom, decodeRune_ascii h, forall_mem_cons]
        rw [ih 0 (by simp)]
      · have lead := decodeRune_high rest (Nat.le_of_not_lt h)
        simp only [runesFrom, forall_mem_cons]
        rw [ih _ lead.2]
        simp [high _ lead.1, high _ (Nat.le_of_not_lt h)]
    | succ skip =>
      simp only [take_succ_cons, forall_mem_cons] at covered
      simp [runesFrom, ih skip covered.2, high _ covered.1]

/-- A test that accepts every rune above ASCII passes all runes exactly when it passes all bytes. -/
theorem runes_all_iff_of_high (high : ∀ r, 0x80 ≤ r → P r) (s : Str) : (∀ r ∈ runes s, P r) ↔ ∀ b ∈ s, P b.toNat :=
  runesFrom_all_iff high s 0 (by simp)

/-- A separator that occurs in neither head makes a concatenation readable in one way only. -/
theorem append_cons_inj {c} {s s' t t' : Str} (out : c ∉ s) (out' : c ∉ s')
    (same : s ++ c :: t = s' ++ c :: t') : s = s' ∧ t = t' := by
  have first {s} (out : c ∉ s) (t : Str) : (s ++ c :: t).idxOf c = s.length := by
    rw [idxOf_append_of_notMem out, idxOf_cons_self]
    rfl
  have lengths : s.length = s'.length := by rw [← first out t, same, first out']
  obtain ⟨rfl, tails⟩ := append_inj same lengths
  exact ⟨rfl, (cons.inj tails).2⟩

def Str.slice (s : Str) (lo hi : Nat) : Option Str :=
  if lo ≤ hi ∧ hi ≤ s.length then some ((s.take hi).drop lo) else none

/-- A `[]byte`: its bytes, and those that the array behind it holds after them. -/
structure Bytes where
  bytes : Str
  spare : Str := []
  deriving DecidableEq, Repr

namespace Bytes

def cap (s : Bytes) : Nat := s.bytes.length + s.spare.length

def upTo (s : Bytes) (n : Nat) : Option Str :=
  if n ≤ s.cap then some ((s.bytes ++ s.spare).take n) else none

end Bytes

def hexDigit (n : Nat) : UInt8 := if n < 10 then UInt8.ofNat (0x30 + n) else UInt8.ofNat (0x57 + n)

def Str.le : Str → Str → Bool
  | [], _ => true
  | _ :: _, [] => false
  | a :: s, b :: t => a < b || (a == b && Str.le s t)

def hexEncode (s : Str) : Str :=
  s.flatMap fun b => [hexDigit (b.toNat / 16), hexDigit (b.toNat % 16)]

theorem hexDigit_inj {m n} (hm : m < 16) (hn : n < 16) (same : hexDigit m = hexDigit n) : m = n := by
  have all : ∀ m n : Fin 16, hexDigit m = hexDigit n → m = n := by decide +kernel
  exact congrArg Fin.val (all ⟨m, hm⟩ ⟨n, hn⟩ same)

theorem hexEncode_injective : Function.Injective hexEncode := by
  intro s t same
  induction s generalizing t with
  | nil =>
    cases t with
    | nil => rfl
    | cons => cases same
  | cons a s ih =>
    cases t with
    | nil => cases same
    | cons b t =>
      obtain ⟨high, same⟩ := cons.inj same
      obtain ⟨low, rest⟩ := cons.inj same
      have ha := a.toNat_lt
      have hb := b.toNat_lt
      have high := hexDigit_inj (by omega) (by omega) high
      have low := hexDigit_inj (by omega) (by omega) low
      have byte : a.toNat = b.toNat := by omega
      rw [UInt8.toNat_inj.mp byte, ih rest]

theorem hexDigit_range {n} (small : n < 16) : (0x30 ≤ (hexDigit n).toNat ∧ (hexDigit n).toNat ≤ 0x39) ∨
      (0x61 ≤ (hexDigit n).toNat ∧ (hexDigit n).toNat ≤ 0x66) := by
  revert n
  decide

theorem mem_hexEncode {s} (mem : b ∈ hexEncode s) :
    (0x30 ≤ b.toNat ∧ b.toNat ≤ 0x39) ∨ (0x61 ≤ b.toNat ∧ b.toNat ≤ 0x66) := by
  obtain ⟨byte, _, digit⟩ := mem_flatMap.mp mem
  have bound := byte.toNat_lt
  simp only [mem_cons, not_mem_nil, or_false] at digit
  rcases digit with rfl | rfl
  · apply hexDigit_range
    omega
  · apply hexDigit_range
    omega

theorem hexEncode_length (s : Str) : (hexEncode s).length = 2 * s.length := by
  simp [hexEncode, Nat.mul_comm]

end Go
