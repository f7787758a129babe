import SolidSidecar.Go.Json

/-!
# What `encoding/json` writes, and how it is read back

A value is written straight to text. `Layout` is what stands between the pieces: nothing for
`json.Marshal`, line breaks and blanks for `json.MarshalIndent`. `Encoded` says of a text that the
scanner of `Go.Json` takes it for one value wherever it stands; strings, numbers, objects and arrays
are proved to be such texts, and the decoders to give back what was written. A string comes back as
its valid UTF-8 (`toValid`).
-/

namespace Go.Json
open List Strings

variable {n r height fuel depth : Nat} {b b1 c a d : UInt8} {rest s raw tail : Str}
  {ms : List (Str × Str)} {vs : List Str}

/-- The inside of a string literal, after skipping the `skip` bytes the last rune still covers. A byte
that is not UTF-8 is written as the escape of U+FFFD. -/
def quoteFrom : Nat → Str → Str
  | _, [] => []
  | 0, b :: rest =>
    (if decodeRune b rest = (runeError, 1) then str "\\ufffd" else quoteRune (decodeRune b rest).1) ++
      quoteFrom ((decodeRune b rest).2 - 1) rest
  | skip + 1, _ :: rest => quoteFrom skip rest

def ofString (s : Str) : Str := 0x22 :: (quoteFrom 0 s ++ [0x22])

def digit (d : Nat) : UInt8 := UInt8.ofNat (0x30 + d)

def ofNat (n : Nat) : Str := if n = 0 then [0x30] else ((Nat.digits 10 n).map digit).reverse

def ofInt (n : Int) : Str := if n < 0 then 0x2D :: ofNat n.natAbs else ofNat n.natAbs

/-- What stands between the pieces of a value: in front of a member at a depth, and after a colon. -/
structure Layout where
  gap : Nat → Str
  colon : Str
  gap_blank : ∀ d, (gap d).all isSpace = true
  colon_blank : colon.all isSpace = true

def compact : Layout := ⟨fun _ => [], [], fun _ => rfl, rfl⟩

/-- The layout of `json.MarshalIndent` with no prefix and an indentation of two blanks. -/
def indented : Layout where
  gap d := 0x0A :: List.replicate (2 * d) 0x20
  colon := [0x20]
  gap_blank d := by
    rw [all_cons, all_replicate]
    split <;> rfl
  colon_blank := rfl

/-- Texts between two brackets, for a value that stands at depth `d`. -/
def enclose (l : Layout) (d : Nat) (opening closing : UInt8) : List Str → Str
  | [] => [opening, closing]
  | text :: texts =>
    opening :: (l.gap (d + 1) ++ join (text :: texts) (0x2C :: l.gap (d + 1)) ++ l.gap d ++ [closing])

def member (l : Layout) (m : Str × Str) : Str := ofString m.1 ++ 0x3A :: (l.colon ++ m.2)

/-- An object at depth `d` whose members have their values written at depth `d + 1`. -/
def ofMembers (l : Layout) (d : Nat) (ms : List (Str × Str)) : Str :=
  enclose l d 0x7B 0x7D (ms.map (member l))

def ofItems (l : Layout) (d : Nat) (items : List Str) : Str := enclose l d 0x5B 0x5D items

theorem runesFrom_append (tail rest : Str) : runesFrom tail.length (tail ++ rest) = runesFrom 0 rest := by
  induction tail with
  | nil => rfl
  | cons b tail ih => exact ih

def scalar (r : Nat) : Nat := if r > 0x10FFFF ∨ (0xD800 ≤ r ∧ r ≤ 0xDFFF) then runeError else r

theorem encodeRune_scalar (r : Nat) : encodeRune (scalar r) = encodeRune r := by
  unfold scalar
  split_ifs with bad
  · have high : ¬ r < 0x80 ∧ ¬ r < 0x800 := by omega
    rw [encodeRune.eq_def r, if_neg high.1, if_neg high.2, if_pos bad]
    decide
  · rfl

theorem toNat_ofNat (small : n < 256) : (UInt8.ofNat n).toNat = n := by
  rw [UInt8.toNat_ofNat']
  omega

theorem decodeRune_two (lead : 0xC2 ≤ b.toNat ∧ b.toNat ≤ 0xDF) (cont : isCont b1 = true) :
    decodeRune b (b1 :: rest) = ((b.toNat - 0xC0) * 64 + low6 b1, 2) := by
  have high : ¬ b.toNat < 0x80 := by omega
  simp only [decodeRune]
  rw [if_neg high, if_pos lead, if_pos cont]

theorem decodeRune_three {b2} (lead : 0xE0 ≤ b.toNat ∧ b.toNat ≤ 0xEF)
    (cont : (acceptsSecond b.toNat b1 && isCont b2) = true) :
    decodeRune b (b1 :: b2 :: rest) = ((b.toNat - 0xE0) * 4096 + low6 b1 * 64 + low6 b2, 3) := by
  have high : ¬ b.toNat < 0x80 ∧ ¬ (0xC2 ≤ b.toNat ∧ b.toNat ≤ 0xDF) := by omega
  simp only [decodeRune]
  rw [if_neg high.1, if_neg high.2, if_pos lead, if_pos cont]

theorem decodeRune_four {b2 b3} (lead : 0xF0 ≤ b.toNat ∧ b.toNat ≤ 0xF4)
    (cont : (acceptsSecond b.toNat b1 && isCont b2 && isCont b3) = true) :
    decodeRune b (b1 :: b2 :: b3 :: rest) =
      ((b.toNat - 0xF0) * 262144 + low6 b1 * 4096 + low6 b2 * 64 + low6 b3, 4) := by
  have high : ¬ b.toNat < 0x80 ∧ ¬ (0xC2 ≤ b.toNat ∧ b.toNat ≤ 0xDF) ∧ ¬ (0xE0 ≤ b.toNat ∧ b.toNat ≤ 0xEF) := by omega
  simp only [decodeRune]
  rw [if_neg high.1, if_neg high.2.1, if_neg high.2.2, if_pos lead, if_pos cont]

theorem isCont_ofNat (small : n < 64) : isCont (.ofNat (0x80 + n)) = true := by
  have byte := toNat_ofNat (n := 0x80 + n) (by omega)
  simp only [isCont, Bool.and_eq_true, decide_eq_true_eq]
  omega

theorem low6_ofNat (small : n < 64) : low6 (.ofNat (0x80 + n)) = n := by
  have byte := toNat_ofNat (n := 0x80 + n) (by omega)
  unfold low6
  omega

/-- What `encodeRune` writes is decoded as one rune, whatever follows. -/
theorem decodeRune_encodeRune (r : Nat) (rest : Str) : ∃ b tail, encodeRune r = b :: tail ∧
      decodeRune b (tail ++ rest) = (scalar r, tail.length + 1) := by
  by_cases bad : r > 0x10FFFF ∨ (0xD800 ≤ r ∧ r ≤ 0xDFFF)
  · refine ⟨0xEF, [0xBF, 0xBD], ?_, ?_⟩
    · rw [← encodeRune_scalar, scalar, if_pos bad]
      decide
    · rw [scalar, if_pos bad]
      rfl
  rw [scalar, if_neg bad]
  have low : r % 64 < 64 := by omega
  have mid : r / 64 % 64 < 64 := by omega
  by_cases one : r < 0x80
  · refine ⟨.ofNat r, [], by rw [encodeRune, if_pos one], ?_⟩
    have byte := toNat_ofNat (n := r) (by omega)
    rw [decodeRune_ascii (by omega), byte]
    rfl
  by_cases two : r < 0x800
  · refine ⟨.ofNat (0xC0 + r / 64), [.ofNat (0x80 + r % 64)], by rw [encodeRune, if_neg one, if_pos two], ?_⟩
    have lead := toNat_ofNat (n := 0xC0 + r / 64) (by omega)
    have back : ((UInt8.ofNat (0xC0 + r / 64)).toNat - 0xC0) * 64 + r % 64 = r := by omega
    rw [cons_append, decodeRune_two (by omega) (isCont_ofNat low), low6_ofNat low, back]
    rfl
  by_cases three : r < 0x10000
  · refine ⟨.ofNat _, [.ofNat _, .ofNat (0x80 + r % 64)],
      by rw [encodeRune, if_neg one, if_neg two, if_neg (by omega), if_pos three], ?_⟩
    have lead := toNat_ofNat (n := 0xE0 + r / 4096) (by omega)
    have second := toNat_ofNat (n := 0x80 + r / 64 % 64) (by omega)
    -- Overlong forms and surrogates are what the second byte excludes.
    have accepted : acceptsSecond (UInt8.ofNat (0xE0 + r / 4096)).toNat (.ofNat (0x80 + r / 64 % 64)) = true := by
      simp only [acceptsSecond, isCont]
      split_ifs <;> simp only [Bool.and_eq_true, decide_eq_true_eq] <;> omega
    have back : ((UInt8.ofNat (0xE0 + r / 4096)).toNat - 0xE0) * 4096 + r / 64 % 64 * 64 + r % 64 = r := by
      omega
    rw [cons_append, cons_append, decodeRune_three (by omega)
      (by rw [accepted, isCont_ofNat low]; rfl), low6_ofNat mid, low6_ofNat low, back]
    rfl
  · refine ⟨.ofNat _, [.ofNat _, .ofNat _, .ofNat (0x80 + r % 64)],
      by rw [encodeRune, if_neg one, if_neg two, if_neg (by omega), if_neg three], ?_⟩
    have high : r / 4096 % 64 < 64 := by omega
    have lead := toNat_ofNat (n := 0xF0 + r / 262144) (by omega)
    have second := toNat_ofNat (n := 0x80 + r / 4096 % 64) (by omega)
    have accepted : acceptsSecond (UInt8.ofNat (0xF0 + r / 262144)).toNat (.ofNat (0x80 + r / 4096 % 64)) = true := by
      simp only [acceptsSecond, isCont]
      split_ifs <;> simp only [Bool.and_eq_true, decide_eq_true_eq] <;> omega
    have back : ((UInt8.ofNat (0xF0 + r / 262144)).toNat - 0xF0) * 262144 + r / 4096 % 64 * 4096 +
        r / 64 % 64 * 64 + r % 64 = r := by
      omega
    rw [cons_append, cons_append, cons_append, decodeRune_four (by omega)
      (by rw [accepted, isCont_ofNat mid, isCont_ofNat low]; rfl), low6_ofNat high, low6_ofNat mid,
      low6_ofNat low, back]
    rfl

theorem runes_encodeRune_append (r : Nat) (rest : Str) : runes (encodeRune r ++ rest) = scalar r :: runes rest := by
  obtain ⟨_, tail, encoded, decoded⟩ := decodeRune_encodeRune r rest
  rw [encoded, cons_append, runes, runesFrom, decoded]
  exact congrArg _ (runesFrom_append tail rest)

theorem toValid_encodeRune_append (r : Nat) (rest : Str) :
    toValid (encodeRune r ++ rest) = encodeRune r ++ toValid rest := by
  rw [toValid, runes_encodeRune_append, flatMap_cons, encodeRune_scalar]
  rfl

theorem toValid_cons_ascii (ascii : b.toNat < 0x80) (rest : Str) : toValid (b :: rest) = b :: toValid rest := by
  have encoded : encodeRune b.toNat = [b] := by
    rw [encodeRune, if_pos ascii, UInt8.ofNat_toNat]
  have whole := toValid_encodeRune_append b.toNat rest
  rwa [encoded] at whole

theorem toValid_append_ascii (ascii : ∀ b ∈ s, b.toNat < 0x80) (rest : Str) :
    toValid (s ++ rest) = s ++ toValid rest := by
  induction s with
  | nil => rfl
  | cons b s ih =>
    rw [cons_append, toValid_cons_ascii (ascii b mem_cons_self),
      ih fun b mem => ascii b (mem_cons_of_mem _ mem), cons_append]

theorem toValid_of_ascii (ascii : ∀ b ∈ s, b.toNat < 0x80) : toValid s = s := by
  have whole := toValid_append_ascii ascii []
  rwa [show toValid [] = [] from rfl, append_nil] at whole

/-- The bytes of a rune are the rune itself, or all above ASCII. -/
theorem mem_encodeRune (mem : b ∈ encodeRune r) : (r < 0x80 ∧ b.toNat = r) ∨ (0x80 ≤ r ∧ 0x80 ≤ b.toNat) := by
  unfold encodeRune at mem
  split_ifs at mem with one
  · rw [mem_singleton.mp mem, toNat_ofNat (by omega)]
    exact .inl ⟨one, rfl⟩
  all_goals
    simp only [mem_cons, not_mem_nil, or_false] at mem
    refine .inr ⟨by omega, ?_⟩
  · rcases mem with rfl | rfl <;> rw [toNat_ofNat (by omega)] <;> omega
  · rcases mem with rfl | rfl | rfl <;> decide
  · rcases mem with rfl | rfl | rfl <;> rw [toNat_ofNat (by omega)] <;> omega
  · rcases mem with rfl | rfl | rfl | rfl <;> rw [toNat_ofNat (by omega)] <;> omega

theorem unescape_plain (plain : b ≠ 0x5C) (t : Str) : unescape (b :: t) = b :: unescape t := by
  rw [unescape]
  all_goals
    simp_all

theorem unescape_escape (short : c ≠ 0x75) (t : Str) : unescape (0x5C :: c :: t) = escaped c :: unescape t := by
  rw [unescape]
  all_goals
    simp_all

/-- An escape that is no half of a surrogate pair stands for its own rune. -/
theorem unescape_unit (whole : ¬ (0xD800 ≤ unit a b c d ∧ unit a b c d < 0xDC00)) (t : Str) :
    unescape (0x5C :: 0x75 :: a :: b :: c :: d :: t) = encodeRune (unit a b c d) ++ unescape t := by
  rw [unescape.eq_def]
  split
  · rename_i _ _ _ _ _ _ _ _ _ same
    obtain ⟨rfl, rfl, rfl, rfl, rfl⟩ := same
    exact if_neg fun pair => whole ⟨pair.1, pair.2.1⟩
  · rename_i same
    obtain ⟨rfl, rfl, rfl, rfl, rfl⟩ := same
    rfl
  · rename_i short same
    obtain ⟨rfl, rfl⟩ := same
    exact absurd rfl (short a b c d t rfl)
  · rename_i same
    obtain ⟨rfl, rfl⟩ := cons.inj same
    simp_all
  · simp_all

theorem afterString_plain (close : b ≠ 0x22) (plain : b ≠ 0x5C) (printable : 0x20 ≤ b.toNat)
    (t : Str) : afterString (b :: t) = afterString t := by
  rw [afterString]
  all_goals
    simp_all

theorem afterString_escape (short : c ≠ 0x75) (known : (str "\"\\/bfnrt").contains c = true) (t : Str) :
    afterString (0x5C :: c :: t) = afterString t := by
  rw [afterString]
  all_goals
    simp_all

theorem afterString_unit (hex : [a, b, c, d].all (hex? · |>.isSome) = true) (t : Str) :
    afterString (0x5C :: 0x75 :: a :: b :: c :: d :: t) = afterString t := by
  rw [afterString, if_pos hex]

/-- A piece of a string literal that stands for the rune `r` wherever it occurs. -/
structure Piece (r : Nat) (q : Str) : Prop where
  valid : ∀ t, toValid (q ++ t) = q ++ toValid t
  reads : ∀ t, unescape (q ++ t) = encodeRune r ++ unescape t
  scans : ∀ t, afterString (q ++ t) = afterString t
  printable : ∀ b ∈ q, 0x20 ≤ b.toNat

theorem Piece.plain {q} (whole : encodeRune r = q)
    (outside : ∀ b ∈ q, b ≠ 0x22 ∧ b ≠ 0x5C ∧ 0x20 ≤ b.toNat) : Piece r q := by
  have valid : ∀ t, toValid (q ++ t) = q ++ toValid t := whole ▸ toValid_encodeRune_append r
  refine ⟨valid, fun t => ?_, fun t => ?_, fun b mem => (outside b mem).2.2⟩
  · rw [whole]
    clear whole valid
    induction q with
    | nil => rfl
    | cons b q ih =>
      rw [cons_append, unescape_plain (outside b mem_cons_self).2.1,
        ih fun b mem => outside b (mem_cons_of_mem _ mem)]
      rfl
  · clear whole valid
    induction q with
    | nil => rfl
    | cons b q ih =>
      obtain ⟨close, plain, printable⟩ := outside b mem_cons_self
      rw [cons_append, afterString_plain close plain printable, ih fun b mem => outside b (mem_cons_of_mem _ mem)]

theorem Piece.of_ascii {q} (ascii : ∀ b ∈ q, 0x20 ≤ b.toNat ∧ b.toNat < 0x80)
    (reads : ∀ t, unescape (q ++ t) = encodeRune r ++ unescape t)
    (scans : ∀ t, afterString (q ++ t) = afterString t) : Piece r q :=
  ⟨toValid_append_ascii fun b mem => (ascii b mem).2, reads, scans, fun b mem => (ascii b mem).1⟩

theorem Piece.escape (short : c ≠ 0x75)
    (known : (str "\"\\/bfnrt").contains c = true) (whole : encodeRune r = [escaped c]) :
    Piece r [0x5C, c] := by
  have ascii : ∀ c ∈ str "\"\\/bfnrt", ∀ b ∈ [0x5C, c], 0x20 ≤ b.toNat ∧ b.toNat < 0x80 := by decide +kernel
  refine .of_ascii (ascii c (contains_iff_mem.mp known)) (fun t => ?_) (afterString_escape short known)
  rw [whole]
  exact unescape_escape short t

theorem Piece.unit (hex : [a, b, c, d].all (hex? · |>.isSome) = true)
    (ascii : ∀ x ∈ [0x5C, 0x75, a, b, c, d], 0x20 ≤ x.toNat ∧ x.toNat < 0x80) (value : unit a b c d = r)
    (whole : ¬ (0xD800 ≤ r ∧ r < 0xDC00)) : Piece r [0x5C, 0x75, a, b, c, d] := by
  subst value
  exact .of_ascii ascii (unescape_unit whole) (afterString_unit hex)

theorem piece_quoteRune (r : Nat) : Piece r (quoteRune r) := by
  unfold quoteRune
  split_ifs with q
  · rcases q with rfl | rfl <;> exact .escape (by decide) (by decide) (by decide)
  iterate 5
    · subst_vars
      exact .escape (by decide) (by decide) (by decide)
  · have small : r < 64 := by omega
    have all : ∀ r : Fin 64, [0x30, 0x30, hexDigit (r.val / 16), hexDigit (r.val % 16)].all
          (hex? · |>.isSome) = true ∧
        (∀ x ∈ [0x5C, 0x75, 0x30, 0x30, hexDigit (r.val / 16), hexDigit (r.val % 16)],
          0x20 ≤ x.toNat ∧ x.toNat < 0x80) ∧
        unit 0x30 0x30 (hexDigit (r.val / 16)) (hexDigit (r.val % 16)) = r.val := by
      decide +kernel
    obtain ⟨hex, ascii, value⟩ := all ⟨r, small⟩
    exact .unit hex ascii value (by omega)
  iterate 2
    · subst_vars
      exact .unit (by decide) (by decide +kernel) (by decide) (by decide)
  · apply Piece.plain rfl
    intro x mem
    have bytes := mem_encodeRune mem
    refine ⟨?_, ?_, by omega⟩
    · rintro rfl
      have : (0x22 : UInt8).toNat = 0x22 := rfl
      omega
    · rintro rfl
      have : (0x5C : UInt8).toNat = 0x5C := rfl
      omega

theorem piece_runeError : Piece runeError "\\ufffd" :=
  .unit (by decide) (by decide +kernel) (by decide) (by decide)

/-- The literal without its quotes: it is UTF-8, it stands for the valid form of the string, and it
does not end early. -/
structure Literal (rs : List Nat) (q : Str) : Prop where
  valid : toValid q = q
  reads : unescape q = rs.flatMap encodeRune
  scans : ∀ t, afterString (q ++ t) = afterString t
  printable : ∀ b ∈ q, 0x20 ≤ b.toNat

theorem Literal.cons {rs q q'} (piece : Piece r q) (rest : Literal rs q') : Literal (r :: rs) (q ++ q') where
  valid := by rw [piece.valid, rest.valid]
  reads := by rw [piece.reads, rest.reads, flatMap_cons]
  scans t := by rw [append_assoc, piece.scans, rest.scans]
  printable b mem := (mem_append.mp mem).elim (piece.printable b) (rest.printable b)

theorem literal_quoteFrom (s : Str) (skip : Nat) : Literal (runesFrom skip s) (quoteFrom skip s) := by
  induction s generalizing skip with
  | nil => cases skip <;> exact ⟨rfl, rfl, fun _ => rfl, by simp [quoteFrom]⟩
  | cons b rest ih =>
    cases skip with
    | succ skip => exact ih skip
    | zero =>
      refine .cons ?_ (ih _)
      split_ifs with broken
      · rw [broken]
        exact piece_runeError
      · exact piece_quoteRune _

/-- A literal is read back as the valid form of the string. -/
theorem unquote_quoteFrom (s : Str) : unquote (quoteFrom 0 s ++ [0x22]) = toValid s := by
  have literal := literal_quoteFrom s 0
  rw [unquote, dropLast_concat, literal.valid, literal.reads]
  rfl

theorem intoString_ofString (old s : Str) : intoString old (ofString s) = some (toValid s) := by
  rw [ofString, intoString, unquote_quoteFrom]

/-- Nothing that is written for a string breaks the line. -/
theorem printable_ofString (s : Str) : ∀ b ∈ ofString s, 0x20 ≤ b.toNat := by
  intro b mem
  rcases mem_cons.mp mem with rfl | mem
  · decide
  · rcases mem_append.mp mem with inside | last
    · exact (literal_quoteFrom s 0).printable b inside
    · rw [mem_singleton.mp last]
      decide

theorem isDigit_digit {d} (small : d < 10) : isDigit (digit d) = true := by
  have byte := toNat_ofNat (n := 0x30 + d) (by omega)
  simp only [isDigit, digit, byte, Bool.and_eq_true, decide_eq_true_eq]
  omega

theorem toNat_digit {d} (small : d < 10) : (digit d).toNat - 0x30 = d := by
  have byte := toNat_ofNat (n := 0x30 + d) (by omega)
  unfold digit
  omega

theorem natOf_append (s t : Str) : natOf (s ++ t) = natOf s * 10 ^ t.length + natOf t := by
  have shifted (t : Str) (n : Nat) :
      t.foldl (fun n d => n * 10 + (d.toNat - 0x30)) n = n * 10 ^ t.length + natOf t := by
    induction t generalizing n with
    | nil => simp [natOf]
    | cons b t ih =>
      have first : natOf (b :: t) = (b.toNat - 0x30) * 10 ^ t.length + natOf t := by
        rw [← ih, natOf, foldl_cons, Nat.zero_add]
      rw [foldl_cons, ih, first, length_cons, pow_succ, add_mul, mul_assoc, mul_comm 10 (10 ^ t.length), add_assoc]
  rw [natOf, foldl_append, shifted]
  rfl

theorem digits_ofNat (n : Nat) : ∀ b ∈ ofNat n, isDigit b = true := by
  intro b mem
  unfold ofNat at mem
  split_ifs at mem
  · rw [mem_singleton.mp mem]
    decide
  · obtain ⟨_, inside, rfl⟩ := mem_map.mp (mem_reverse.mp mem)
    exact isDigit_digit (Nat.digits_lt_base (by omega) inside)

theorem natOf_ofNat (n : Nat) : natOf (ofNat n) = n := by
  have low (ds : List Nat) (small : ∀ d ∈ ds, d < 10) : natOf (ds.map digit).reverse = .ofDigits 10 ds := by
    induction ds with
    | nil => rfl
    | cons d ds ih =>
      have later := ih fun d mem => small d (mem_cons_of_mem _ mem)
      have last : natOf [digit d] = d := by
        rw [natOf, foldl_cons, foldl_nil, toNat_digit (small d mem_cons_self)]
        omega
      rw [map_cons, reverse_cons, natOf_append, Nat.ofDigits_cons]
      simp only [length_singleton]
      omega
  unfold ofNat
  split_ifs with zero
  · rw [zero]
    rfl
  · rw [low _ fun d mem => Nat.digits_lt_base (by omega) mem, Nat.ofDigits_digits]

/-- A number starts with a zero only when it is zero. -/
theorem ofNat_cases (n : Nat) : ofNat n = [0x30] ∨ ∃ b rest, ofNat n = b :: rest ∧ b ≠ 0x30 ∧ isDigit b = true := by
  by_cases zero : n = 0
  · exact .inl (if_pos zero)
  · have some : Nat.digits 10 n ≠ [] := Nat.digits_ne_nil_iff_ne_zero.mpr zero
    have leading := Nat.getLast_digit_ne_zero 10 zero
    have small : (Nat.digits 10 n).getLast some < 10 :=
      Nat.digits_lt_base (by omega) (getLast_mem some)
    have split : ofNat n = digit ((Nat.digits 10 n).getLast some) ::
        ((Nat.digits 10 n).dropLast.map digit).reverse := by
      rw [ofNat, if_neg zero]
      nth_rewrite 1 [← dropLast_append_getLast some]
      rw [map_append, reverse_append]
      rfl
    refine .inr ⟨_, _, split, ?_, isDigit_digit small⟩
    intro same
    have back := toNat_digit small
    rw [same] at back
    exact leading back.symm

theorem ofNat_ne_minus (n : Nat) (s rest : Str) : ofNat n ++ s ≠ 0x2D :: rest := by
  intro same
  rcases ofNat_cases n with zero | ⟨_, _, whole, -, leading⟩
  · rw [zero] at same
    cases (cons.inj same).1
  · rw [whole] at same
    rw [(cons.inj same).1] at leading
    cases leading

/-- What may follow a number without becoming part of it. -/
def Ends (rest : Str) : Prop :=
  ∀ b ∈ rest.head?, isDigit b = false ∧ b ≠ 0x2E ∧ b ≠ 0x65 ∧ b ≠ 0x45

theorem dropWhile_digits (digits : ∀ b ∈ s, isDigit b = true) (ends : Ends rest) :
    (s ++ rest).dropWhile isDigit = rest := by
  rw [dropWhile_append_of_pos digits]
  cases rest with
  | nil => rfl
  | cons b rest => rw [dropWhile_cons_of_neg (by simp [(ends b rfl).1])]

theorem afterNumber_tail (ends : Ends rest) : (do
      let s ← match rest with
        | 0x2E :: rest => digits1 rest
        | _ => some rest
      match s with
      | e :: rest =>
        if e = 0x65 ∨ e = 0x45 then
          match rest with
          | sign :: rest' => if sign = 0x2B ∨ sign = 0x2D then digits1 rest' else digits1 rest
          | [] => none
        else some s
      | [] => some s) = some rest := by
  cases rest with
  | nil => rfl
  | cons b rest =>
    obtain ⟨-, _, e, E⟩ := ends b rfl
    split
    · simp_all
    · simp [e, E]

theorem afterNumber_ofNat (ends : Ends rest) : afterNumber (ofNat n ++ rest) = some rest := by
  rcases ofNat_cases n with zero | ⟨b, tail, whole, _, leading⟩
  · rw [zero]
    exact afterNumber_tail ends
  · have digits := digits_ofNat n
    rw [whole] at digits ⊢
    have minus : b ≠ 0x2D := by
      rintro rfl
      cases leading
    have left : digits1 (b :: (tail ++ rest)) = some rest := by
      rw [digits1, if_pos leading, dropWhile_digits (fun b mem => digits b (mem_cons_of_mem _ mem)) ends]
    rw [cons_append]
    unfold afterNumber
    split
    · simp_all
    · dsimp only
      split
      · simp_all
      · rw [left]
        exact afterNumber_tail ends

theorem afterNumber_ofInt {n} (ends : Ends rest) : afterNumber (ofInt n ++ rest) = some rest := by
  unfold ofInt
  split_ifs
  · have step : afterNumber (0x2D :: (ofNat n.natAbs ++ rest)) = afterNumber (ofNat n.natAbs ++ rest) := by
      unfold afterNumber
      split
      · rename_i same
        obtain ⟨-, rfl⟩ := cons.inj same
        split
        · rename_i same
          exact absurd same (ofNat_ne_minus _ _ _)
        · rfl
      · rename_i other
        exact absurd rfl (other _)
    rw [cons_append, step]
    exact afterNumber_ofNat ends
  · exact afterNumber_ofNat ends

theorem ofInt_start (n : Int) : ∃ b rest, ofInt n = b :: rest ∧ (isDigit b || b == 0x2D) = true := by
  unfold ofInt
  split_ifs
  · exact ⟨_, _, rfl, rfl⟩
  · rcases ofNat_cases n.natAbs with zero | ⟨b, tail, whole, -, leading⟩
    · exact ⟨_, _, zero, rfl⟩
    · exact ⟨b, tail, whole, by rw [leading]; rfl⟩

theorem intoInt64_ofInt {n} (low : -2 ^ 63 ≤ n) (high : n < 2 ^ 63) (old : Int) :
    intoInt64 old (ofInt n) = some n := by
  obtain ⟨_, _, whole, leading⟩ := ofInt_start n
  have proper : ofInt n ≠ "null" := by
    rw [whole]
    intro same
    rw [(cons.inj same).1] at leading
    revert leading
    decide
  have parsed : parseInt64 (ofInt n) = some n := by
    have range : -2 ^ 63 ≤ n ∧ n < 2 ^ 63 := ⟨low, high⟩
    have all : (ofNat n.natAbs).all isDigit = true := all_eq_true.mpr (digits_ofNat _)
    unfold parseInt64
    by_cases negative : n < 0
    · have value : -((natOf (ofNat n.natAbs) : Nat) : Int) = n := by
        rw [natOf_ofNat]
        omega
      rw [ofInt, if_pos negative]
      simp only [all, if_true, Option.bind_some, value]
      rw [if_pos range]
    · have value : ((natOf (ofNat n.natAbs) : Nat) : Int) = n := by
        rw [natOf_ofNat]
        omega
      rw [ofInt, if_neg negative]
      split
      · rename_i same
        exact absurd ((append_nil _).trans same) (ofNat_ne_minus _ _ _)
      · simp only [all, if_true, Option.bind_some, value]
        rw [if_pos range]
  unfold intoInt64
  rw [if_neg proper, parsed, whole]
  exact if_pos leading

theorem skipSpace_append {gap} (blank : gap.all isSpace = true) (rest : Str) :
    skipSpace (gap ++ rest) = skipSpace rest :=
  dropWhile_append_of_pos (all_eq_true.mp blank)

theorem skipSpace_cons (dark : isSpace b = false) (rest : Str) : skipSpace (b :: rest) = b :: rest :=
  dropWhile_cons_of_neg (by simp [dark])

theorem consumed_append (s rest : Str) : consumed (s ++ rest) rest = s := by
  rw [consumed, length_append, Nat.add_sub_cancel, take_left]

/-- A text that is taken for one value wherever it stands, with `height` levels of brackets. -/
structure Encoded (height : Nat) (raw : Str) : Prop where
  starts : ∃ b rest, raw = b :: rest ∧ isSpace b = false ∧ b ≠ 0x5D
  scan : ∀ fuel depth rest, raw.length < fuel → depth + height ≤ maxNestingDepth → Ends rest →
    value fuel depth (raw ++ rest) = some rest

/-- The recursion has a step left for a value that fits. -/
theorem Encoded.of (starts : ∃ b rest, raw = b :: rest ∧ isSpace b = false ∧ b ≠ 0x5D)
    (scan : ∀ fuel depth rest, raw.length ≤ fuel → depth + height ≤ maxNestingDepth → Ends rest →
      value (fuel + 1) depth (raw ++ rest) = some rest) : Encoded height raw := by
  refine ⟨starts, fun fuel depth rest room deep ends => ?_⟩
  obtain ⟨fuel, rfl⟩ := Nat.exists_eq_add_of_lt room
  exact scan _ depth rest (Nat.le_add_right _ _) deep ends

theorem Encoded.mono {height'} (h : Encoded height raw) (le : height ≤ height') : Encoded height' raw :=
  ⟨h.starts, fun fuel depth rest room deep ends => h.scan fuel depth rest room (by omega) ends⟩

theorem Encoded.skipSpace (h : Encoded height raw) (rest : Str) : skipSpace (raw ++ rest) = raw ++ rest := by
  obtain ⟨_, -, rfl, dark, -⟩ := h.starts
  exact skipSpace_cons dark _

theorem afterString_ofString (s rest : Str) : afterString (quoteFrom 0 s ++ 0x22 :: rest) = some rest := by
  rw [(literal_quoteFrom s 0).scans]
  rfl

theorem encoded_ofString (s : Str) : Encoded 0 (ofString s) := by
  refine .of ⟨_, _, rfl, rfl, by decide⟩ fun fuel depth rest _ _ _ => ?_
  have text : ofString s ++ rest = 0x22 :: (quoteFrom 0 s ++ 0x22 :: rest) := by simp [ofString]
  rw [text]
  exact afterString_ofString s rest

/-- A value that starts with neither a quote nor a bracket. -/
theorem value_word (quote : b ≠ 0x22) (brace : b ≠ 0x7B) (bracket : b ≠ 0x5B) (fuel depth : Nat) (t : Str) :
    value (fuel + 1) depth (b :: t) =
      if (str "true").isPrefixOf (b :: t) || (str "null").isPrefixOf (b :: t) then some ((b :: t).drop 4)
      else if (str "false").isPrefixOf (b :: t) then some ((b :: t).drop 5)
      else afterNumber (b :: t) := by
  rw [value]
  · exact fun rest same => quote (cons.inj same).1
  · exact fun rest same => brace (cons.inj same).1
  · exact fun rest same => bracket (cons.inj same).1

theorem encoded_ofInt (n : Int) : Encoded 0 (ofInt n) := by
  obtain ⟨b, tail, whole, leading⟩ := ofInt_start n
  have other {x} (letter : (isDigit x || x == 0x2D) = false) : b ≠ x := by
    rintro rfl
    exact nomatch leading.symm.trans letter
  refine .of ⟨b, tail, whole, ?_, other rfl⟩ fun fuel depth rest _ _ ends => ?_
  · simp [isSpace, other (x := 0x20) rfl, other (x := 0x09) rfl, other (x := 0x0A) rfl, other (x := 0x0D) rfl]
  · have number := afterNumber_ofInt (n := n) ends
    rw [whole, cons_append] at number ⊢
    have no {x} (letter : (isDigit x || x == 0x2D) = false) (word : Str) :
        (x :: word).isPrefixOf (b :: (tail ++ rest)) = false := by
      rw [isPrefixOf_cons_cons, beq_eq_false_iff_ne.mpr (other letter).symm]
      rfl
    have notTrue : (str "true").isPrefixOf _ = false := no rfl "rue"
    have notNull : (str "null").isPrefixOf _ = false := no rfl "ull"
    have notFalse : (str "false").isPrefixOf _ = false := no rfl "alse"
    rw [value_word (other rfl) (other rfl) (other rfl), notTrue, notNull, notFalse]
    exact number

theorem encoded_literal {word} (known : word = str "true" ∨ word = "false" ∨ word = "null") : Encoded 0 word := by
  rcases known with rfl | rfl | rfl
  · exact .of ⟨0x74, "rue", by decide, by decide, by decide⟩ fun fuel depth rest _ _ _ =>
      value_word (by decide) (by decide) (by decide) fuel depth _
  · exact .of ⟨0x66, "alse", by decide, by decide, by decide⟩ fun fuel depth rest _ _ _ =>
      value_word (by decide) (by decide) (by decide) fuel depth _
  · exact .of ⟨0x6E, "ull", by decide, by decide, by decide⟩ fun fuel depth rest _ _ _ =>
      value_word (by decide) (by decide) (by decide) fuel depth _

theorem encoded_null : Encoded 0 "null" := encoded_literal (.inr (.inr rfl))

theorem ends_nil : Ends [] := by simp [Ends]

theorem ends_cons (rest : Str) (out : isDigit b = false ∧ b ≠ 0x2E ∧ b ≠ 0x65 ∧ b ≠ 0x45) : Ends (b :: rest) := by
  intro c here
  cases here
  exact out

theorem ends_blank {gap} (blank : gap.all isSpace = true) (ends : Ends rest) : Ends (gap ++ rest) := by
  cases gap with
  | nil => exact ends
  | cons b gap =>
    apply ends_cons
    have space := all_eq_true.mp blank b mem_cons_self
    simp only [isSpace, Bool.or_eq_true, beq_iff_eq, or_assoc] at space
    rcases space with rfl | rfl | rfl | rfl <;> decide

/-- What is read once a member has been, from the text that follows it. -/
def afterMember (fuel depth : Nat) (read : Str × Str) : Str → Option (List (Str × Str) × Str)
  | 0x2C :: more => (members fuel depth false more).map fun p => (read :: p.1, p.2)
  | 0x7D :: rest => some ([read], rest)
  | _ => none

variable (l : Layout)

theorem members_member {before} (blank : before.all isSpace = true) {key v}
    (encoded : Encoded height v) (room : v.length < fuel)
    (deep : depth + height ≤ maxNestingDepth) (ends : Ends tail) (start : Bool) :
    members (fuel + 1) depth start (before ++ (member l (key, v) ++ tail)) =
      afterMember fuel depth (quoteFrom 0 key ++ [0x22], v) (skipSpace tail) := by
  have text : member l (key, v) ++ tail =
      0x22 :: (quoteFrom 0 key ++ 0x22 :: (0x3A :: (l.colon ++ (v ++ tail)))) := by
    simp [member, ofString]
  have keyed : consumed (quoteFrom 0 key ++ 0x22 :: (0x3A :: (l.colon ++ (v ++ tail))))
      (0x3A :: (l.colon ++ (v ++ tail))) = quoteFrom 0 key ++ [0x22] := by
    have split : quoteFrom 0 key ++ 0x22 :: (0x3A :: (l.colon ++ (v ++ tail))) =
        (quoteFrom 0 key ++ [0x22]) ++ 0x3A :: (l.colon ++ (v ++ tail)) := by simp
    rw [split]
    exact consumed_append _ _
  have spaced : skipSpace (l.colon ++ (v ++ tail)) = v ++ tail := by
    rw [skipSpace_append l.colon_blank, encoded.skipSpace]
  rw [text, members, skipSpace_append blank, skipSpace_cons (by decide)]
  simp only [afterString_ofString]
  rw [skipSpace_cons (by decide)]
  simp only [spaced, encoded.scan fuel depth tail room deep ends, keyed, consumed_append]
  rfl

/-- What a reader of texts between commas does with one of them, when the next bracket or comma follows. -/
structure Separated {α β : Type} (text : α → Str) (out : α → β) (closing : UInt8)
    (read : Nat → Bool → Str → Option (List β × Str)) (as : List α) : Prop where
  last : ∀ a ∈ as, ∀ {before close : Str}, before.all isSpace = true → close.all isSpace = true →
    ∀ {fuel : Nat}, (text a).length < fuel → ∀ start rest,
      read (fuel + 1) start (before ++ (text a ++ (close ++ closing :: rest))) = some ([out a], rest)
  more : ∀ a ∈ as, ∀ {before : Str}, before.all isSpace = true →
    ∀ {fuel : Nat}, (text a).length < fuel → ∀ start tail,
      read (fuel + 1) start (before ++ (text a ++ 0x2C :: tail)) =
        (read fuel false tail).map fun p => (out a :: p.1, p.2)

namespace Separated

variable {α β : Type} {text : α → Str} {out : α → β} {closing : UInt8}
  {read : Nat → Bool → Str → Option (List β × Str)} {as : List α}

theorem read_join (h : Separated text out closing read as) (nonempty : as ≠ []) (l : Layout) (d : Nat)
    {before close} (blank : before.all isSpace = true) (blank' : close.all isSpace = true) {fuel}
    (room : (before ++ join (as.map text) (0x2C :: l.gap d) ++ close).length + 1 < fuel) (start : Bool)
    (rest : Str) :
    read fuel start (before ++ join (as.map text) (0x2C :: l.gap d) ++ close ++ closing :: rest) =
      some (as.map out, rest) := by
  induction as generalizing before fuel start with
  | nil => exact absurd rfl nonempty
  | cons a as ih =>
    cases fuel with
    | zero => exact absurd room (Nat.not_lt_zero _)
    | succ fuel =>
      cases as with
      | nil =>
        simp only [map_cons, map_nil, join_singleton] at room ⊢
        have room : (text a).length < fuel := by
          simp only [length_append] at room
          omega
        rw [append_assoc, append_assoc, h.last a mem_cons_self blank blank' room]
      | cons next as =>
        have joined : join ((a :: next :: as).map text) (0x2C :: l.gap d) =
            text a ++ 0x2C :: (l.gap d ++ join ((next :: as).map text) (0x2C :: l.gap d)) := by
          rw [map_cons, map_cons, join_cons_cons]
          simp
        rw [joined] at room ⊢
        simp only [length_append, length_cons] at room
        have shorter : (l.gap d ++ join ((next :: as).map text) (0x2C :: l.gap d) ++ close).length + 1 < fuel := by
          simp only [length_append]
          omega
        have tail : Separated text out closing read (next :: as) :=
          ⟨fun a mem => h.last a (mem_cons_of_mem _ mem), fun a mem => h.more a (mem_cons_of_mem _ mem)⟩
        have later := ih tail (cons_ne_nil _ _) (l.gap_blank d) shorter false
        have room : (text a).length < fuel := by omega
        have split : before ++ (text a ++ 0x2C :: (l.gap d ++
              join ((next :: as).map text) (0x2C :: l.gap d))) ++ close ++ closing :: rest =
            before ++ (text a ++ 0x2C :: (l.gap d ++
              join ((next :: as).map text) (0x2C :: l.gap d) ++ close ++ closing :: rest)) := by
          simp
        rw [split, h.more a mem_cons_self blank room, later]
        rfl

/-- What stands between the brackets is read back, up to the text after it. -/
theorem read_enclose (h : Separated text out closing read as)
    (empty : ∀ fuel rest, read (fuel + 1) true (closing :: rest) = some ([], rest)) (l : Layout) (d : Nat)
    {opening} {inner : Str} (whole : enclose l d opening closing (as.map text) = opening :: inner)
    {fuel} (room : inner.length < fuel) (rest : Str) :
    read fuel true (inner ++ rest) = some (as.map out, rest) := by
  cases as with
  | nil =>
    obtain rfl : [closing] = inner := (cons.inj whole).2
    cases fuel with
    | zero => exact absurd room (Nat.not_lt_zero _)
    | succ fuel => exact empty fuel rest
  | cons a as =>
    obtain rfl := (cons.inj whole).2
    have split : l.gap (d + 1) ++ join ((a :: as).map text) (0x2C :: l.gap (d + 1)) ++ l.gap d ++ [closing] ++ rest =
      l.gap (d + 1) ++ join ((a :: as).map text) (0x2C :: l.gap (d + 1)) ++ l.gap d ++ closing :: rest := by
      simp
    refine (congrArg _ split).trans
      (h.read_join (cons_ne_nil _ _) l (d + 1) (l.gap_blank _) (l.gap_blank _) ?_ true rest)
    simp only [map_cons, length_append] at room ⊢
    omega

end Separated

variable (d : Nat)

/-- What an object holds between its braces is read back, up to the text after it. -/
theorem members_ofMembers (each : ∀ m ∈ ms, Encoded height m.2) {inner : Str}
    (whole : ofMembers l d ms = 0x7B :: inner) (room : inner.length < fuel)
    (deep : depth + height ≤ maxNestingDepth) (rest : Str) :
    members fuel depth true (inner ++ rest) = some (ms.map fun m => (quoteFrom 0 m.1 ++ [0x22], m.2), rest) := by
  have length (m : Str × Str) {fuel} (room : (member l m).length < fuel) : m.2.length < fuel := by
    simp only [member, length_append, length_cons] at room
    omega
  have separated : Separated (member l) (fun m => (quoteFrom 0 m.1 ++ [0x22], m.2)) 0x7D
      (fun fuel start s => members fuel depth start s) ms := by
    constructor
    · intro m mem before close blank blank' fuel room start rest
      rw [members_member l blank (each m mem) (length m room) deep
        (ends_blank blank' (ends_cons rest (by decide))), skipSpace_append blank']
      rfl
    · intro m mem before blank fuel room start tail
      rw [members_member l blank (each m mem) (length m room) deep (ends_cons _ (by decide))]
      rfl
  refine separated.read_enclose (fun fuel rest => ?_) l d whole room rest
  rfl

/-- An object in the compact layout stands on one line if its values do. -/
theorem printable_ofMembers (each : ∀ m ∈ ms, ∀ b ∈ m.2, 0x20 ≤ b.toNat) :
    ∀ b ∈ ofMembers compact d ms, 0x20 ≤ b.toNat := by
  have members : ∀ text ∈ ms.map (member compact), ∀ b ∈ text, 0x20 ≤ b.toNat := by
    intro text mem b inside
    obtain ⟨m, present, rfl⟩ := mem_map.mp mem
    simp only [member, compact, nil_append, mem_append, mem_cons] at inside
    rcases inside with key | rfl | val
    · exact printable_ofString m.1 b key
    · decide
    · exact each m present b val
  unfold ofMembers
  cases texts : ms.map _ with
  | nil => simp [enclose]
  | cons text rest =>
    intro b mem
    simp only [enclose, compact, nil_append, mem_cons, mem_append, not_mem_nil, or_false] at mem
    rcases mem with rfl | inside | rfl
    · decide
    · rcases mem_join inside with ⟨part, present, here⟩ | comma
      · exact members part (texts ▸ present) b here
      · rw [mem_singleton.mp comma]
        decide
    · decide

theorem ofMembers_start (ms : List (Str × Str)) : ∃ inner, ofMembers l d ms = 0x7B :: inner := by
  cases ms <;> exact ⟨_, rfl⟩

theorem ofMembers_end (ms : List (Str × Str)) : ∃ inner, ofMembers l d ms = inner ++ [0x7D] := by
  cases ms with
  | nil => exact ⟨[0x7B], rfl⟩
  | cons m ms => exact ⟨_ :: _, rfl⟩

theorem trimSpace_ofMembers (ms : List (Str × Str)) : trimSpace (ofMembers l d ms) = ofMembers l d ms := by
  apply trimSpace_of_ends
  · obtain ⟨inner, whole⟩ := ofMembers_start l d ms
    rw [whole]
    exact spaceWidth_cons (by decide) inner
  · obtain ⟨inner, whole⟩ := ofMembers_end l d ms
    rw [whole, reverse_append]
    exact spaceWidth_cons (by decide) inner.reverse

theorem encoded_ofMembers (each : ∀ m ∈ ms, Encoded height m.2) : Encoded (height + 1) (ofMembers l d ms) := by
  obtain ⟨_, whole⟩ := ofMembers_start l d ms
  refine .of ⟨_, _, whole, by decide, by decide⟩ fun fuel depth rest room deep _ => ?_
  have shallow : ¬ maxNestingDepth ≤ depth := by omega
  rw [whole] at room
  rw [whole, cons_append, value, if_neg shallow, members_ofMembers l d each whole room (by omega) rest]
  rfl

theorem fields?_ofMembers (each : ∀ m ∈ ms, Encoded height m.2) (deep : 1 + height ≤ maxNestingDepth) :
    fields? (ofMembers l d ms) = some (ms.map fun m => (toValid m.1, m.2)) := by
  obtain ⟨inner, whole⟩ := ofMembers_start l d ms
  have read := members_ofMembers l d each whole (Nat.lt_succ_self inner.length) deep []
  rw [append_nil] at read
  rw [whole, fields?, length_cons, read]
  simp [unquote_quoteFrom]

/-- What is read once an element has been, from the text that follows it. -/
def afterItem (fuel depth : Nat) (read : Str) : Str → Option (List Str × Str)
  | 0x2C :: more => (items fuel depth false more).map fun p => (read :: p.1, p.2)
  | 0x5D :: rest => some ([read], rest)
  | _ => none

/-- One element of an array is read up to what follows it. -/
theorem items_item {before} (blank : before.all isSpace = true) {v}
    (encoded : Encoded height v) (room : v.length < fuel)
    (deep : depth + height ≤ maxNestingDepth) (ends : Ends tail) (start : Bool) :
    items (fuel + 1) depth start (before ++ (v ++ tail)) = afterItem fuel depth v (skipSpace tail) := by
  obtain ⟨b, inner, rfl, dark, open'⟩ := encoded.starts
  have scanned := encoded.scan fuel depth tail room deep ends
  have read := consumed_append (b :: inner) tail
  rw [cons_append] at scanned read
  rw [cons_append, items, skipSpace_append blank, skipSpace_cons dark]
  split
  · rename_i same
    exact absurd (cons.inj same).1 open'
  · simp only [scanned, read]
    rfl

theorem items_ofItems (each : ∀ v ∈ vs, Encoded height v) {inner : Str}
    (whole : ofItems l d vs = 0x5B :: inner) (room : inner.length < fuel)
    (deep : depth + height ≤ maxNestingDepth) (rest : Str) :
    items fuel depth true (inner ++ rest) = some (vs, rest) := by
  have separated : Separated id id 0x5D (fun fuel start s => items fuel depth start s) vs := by
    constructor
    · intro v mem before close blank blank' fuel room start rest
      rw [id, items_item blank (each v mem) room deep (ends_blank blank' (ends_cons rest (by decide))),
        skipSpace_append blank']
      rfl
    · intro v mem before blank fuel room start tail
      rw [id, items_item blank (each v mem) room deep (ends_cons _ (by decide))]
      rfl
  rw [← map_id vs] at whole
  have read := separated.read_enclose (fun fuel rest => ?_) l d whole room rest
  · rwa [map_id] at read
  · rfl

theorem ofItems_start (vs : List Str) : ∃ inner, ofItems l d vs = 0x5B :: inner := by
  cases vs <;> exact ⟨_, rfl⟩

theorem encoded_ofItems (each : ∀ v ∈ vs, Encoded height v) : Encoded (height + 1) (ofItems l d vs) := by
  obtain ⟨_, whole⟩ := ofItems_start l d vs
  refine .of ⟨_, _, whole, by decide, by decide⟩ fun fuel depth rest room deep _ => ?_
  have shallow : ¬ maxNestingDepth ≤ depth := by omega
  rw [whole] at room
  rw [whole, cons_append, value, if_neg shallow, items_ofItems l d each whole room (by omega) rest]
  rfl

theorem elements?_ofItems (each : ∀ v ∈ vs, Encoded height v) (deep : 1 + height ≤ maxNestingDepth) :
    elements? (ofItems l d vs) = some vs := by
  obtain ⟨inner, whole⟩ := ofItems_start l d vs
  have read := items_ofItems l d each whole (Nat.lt_succ_self inner.length) deep []
  rw [append_nil] at read
  rw [whole, elements?, length_cons, read]
  rfl

/-- A document is a value with white space after it. -/
theorem document_encoded (encoded : Encoded height raw)
    (deep : height ≤ maxNestingDepth) (blank : tail.all isSpace = true) :
    document (raw ++ tail) = some raw := by
  have ends : Ends tail := by
    have := ends_blank blank ends_nil
    rwa [append_nil] at this
  have empty : skipSpace tail = [] := by
    have := skipSpace_append blank []
    rwa [append_nil] at this
  have scanned := encoded.scan ((raw ++ tail).length + 1) 0 tail (by rw [length_append]; omega) (by omega) ends
  unfold document
  rw [encoded.skipSpace]
  simp only [scanned, empty, if_true, consumed_append]

/-- A value with more than white space after it is no document. -/
theorem document_trailing (encoded : Encoded height raw) (deep : height ≤ maxNestingDepth)
    (ends : Ends rest) (more : skipSpace rest ≠ []) : document (raw ++ rest) = none := by
  have scanned := encoded.scan ((raw ++ rest).length + 1) 0 rest (by rw [length_append]; omega) (by omega) ends
  unfold document
  rw [encoded.skipSpace]
  simp only [scanned, if_neg more]

/-- A document that is an object is decoded to its members. -/
theorem unmarshal_ofMembers (each : ∀ m ∈ ms, Encoded height m.2) (deep : 1 + height ≤ maxNestingDepth)
    (blank : tail.all isSpace = true) :
    unmarshal (ofMembers l d ms ++ tail) = some (ms.map fun m => (toValid m.1, m.2)) := by
  rw [unmarshal, document_encoded (encoded_ofMembers l d each) (by omega) blank]
  exact fields?_ofMembers l d each deep

section Fields

variable [Unicode] {α : Type} {ms : List (Str × Str)} {key : Str}

theorem foldlM_absent (into : α → Str → Option α) (out : ∀ m ∈ ms, equalFold m.1 key = false) (old : α) :
    ms.foldlM (fun old m => if equalFold m.1 key then into old m.2 else some old) old = some old := by
  induction ms with
  | nil => rfl
  | cons m ms ih =>
    rw [foldlM_cons, if_neg (by simp [out m mem_cons_self])]
    exact ih fun m mem => out m (mem_cons_of_mem _ mem)

/-- A key that occurs under one spelling only is read once. -/
theorem field_of_mem (distinct : (ms.map Prod.fst).Pairwise fun k k' => equalFold k k' = false) {raw}
    (mem : (key, raw) ∈ ms) (into : α → Str → Option α) (zero : α) :
    field key into zero ms = into zero raw := by
  obtain ⟨before, after, rfl⟩ := append_of_mem mem
  have symmetric (s t : Str) : equalFold s t = equalFold t s := by
    rw [equalFold, equalFold, Bool.beq_comm]
  rw [map_append, map_cons, pairwise_append, pairwise_cons] at distinct
  obtain ⟨-, ⟨later, -⟩, earlier⟩ := distinct
  have here : equalFold key key = true := by simp [equalFold]
  have front : ∀ m ∈ before, equalFold m.1 key = false := fun m mem =>
    earlier m.1 (mem_map.mpr ⟨m, mem, rfl⟩) key mem_cons_self
  have back : ∀ m ∈ after, equalFold m.1 key = false := fun m mem => by
    rw [symmetric]
    exact later m.1 (mem_map.mpr ⟨m, mem, rfl⟩)
  rw [field, foldlM_append, foldlM_absent into front, Option.bind_eq_bind, Option.bind_some, foldlM_cons, if_pos here]
  cases into zero raw with
  | none => rfl
  | some value => exact foldlM_absent into back value

theorem lowerAscii_of_equalFold {s t} (ascii : ∀ b ∈ s, b.toNat < 0x80)
    (ascii' : ∀ b ∈ t, b.toNat < 0x80) (same : equalFold s t = true) :
    lowerAscii s = lowerAscii t := by
  have folded (s : Str) (ascii : ∀ b ∈ s, b.toNat < 0x80) :
      (runes s).map foldRune = (lowerAscii s).map UInt8.toNat := by
    rw [runes_of_ascii ascii, lowerAscii, map_map, map_map]
    refine map_congr_left fun b mem => ?_
    have small := ascii b mem
    simp only [Function.comp_apply, foldRune]
    split_ifs
    · rw [toNat_ofNat (by omega)]
    · rfl
  rw [equalFold, beq_iff_eq, folded s ascii, folded t ascii'] at same
  exact map_injective_iff.mpr (fun a b => UInt8.toNat_inj.mp) same

/-- Names that differ in more than the case of their letters. -/
structure Apart (names : List Str) : Prop where
  ascii : ∀ k ∈ names, ∀ b ∈ k, b.toNat < 0x80
  distinct : names.Pairwise fun k k' => lowerAscii k ≠ lowerAscii k'

/-- A member that was written under one of such names is what its field is read from. -/
theorem field_written (apart : Apart (ms.map Prod.fst)) {i : Nat} {raw}
    (found : ms[i]? = some (key, raw)) (into : α → Str → Option α) (zero : α) :
    field key into zero (ms.map fun e => (toValid e.1, e.2)) = into zero raw := by
  have same : (ms.map fun e => (toValid e.1, e.2)) = ms := by
    refine (map_congr_left fun e mem => ?_).trans (map_id _)
    rw [toValid_of_ascii (apart.ascii e.1 (mem_map.mpr ⟨e, mem, rfl⟩))]
    rfl
  rw [same]
  apply field_of_mem ?_ (mem_of_getElem? found)
  apply apart.distinct.imp_of_mem
  intro k k' mem mem' differ
  rw [Bool.eq_false_iff]
  exact fun fold => differ (lowerAscii_of_equalFold (apart.ascii k mem) (apart.ascii k' mem') fold)

/-- A name that is apart from those that were written is not read. -/
theorem field_unwritten (apart : Apart (key :: ms.map Prod.fst)) (into : α → Str → Option α) (zero : α) :
    field key into zero (ms.map fun e => (toValid e.1, e.2)) = some zero := by
  refine foldlM_absent into (fun m mem => ?_) zero
  obtain ⟨e, inside, rfl⟩ := mem_map.mp mem
  have named : e.1 ∈ ms.map Prod.fst := mem_map.mpr ⟨e, inside, rfl⟩
  have ascii := apart.ascii e.1 (mem_cons_of_mem _ named)
  rw [toValid_of_ascii ascii, Bool.eq_false_iff]
  intro fold
  have differ := (pairwise_cons.mp apart.distinct).1 e.1 named
  exact differ (lowerAscii_of_equalFold ascii (apart.ascii key mem_cons_self) fold).symm

end Fields

end Go.Json
