import SolidSidecar.Go.Strings

/-!
# Allowlist patterns

`validatePattern` and `matchPattern` of the enforcement gate. A pattern is turned into an anchored
regular expression in which `*` is any sequence and `?` any character; in a pattern that passes
`validatePattern` nothing else is special once it is quoted. A dot of a regular expression does not
match a line feed.
-/

namespace Authz.Glob
open Go List Strings

/-- The characters of the class that `validatePattern` allows. -/
def allowed (r : Nat) : Bool :=
  (0x61 ≤ r && r ≤ 0x7A) || (0x41 ≤ r && r ≤ 0x5A) || (0x30 ≤ r && r ≤ 0x39) ||
    ((str "-_./*?").map UInt8.toNat).contains r

def validatePattern (pattern : Str) : Bool := (runes pattern).all allowed

inductive Token where
  | char (r : Nat)
  | dot
  | dotStar
  deriving DecidableEq, Repr

def special (r : Nat) : Bool := ((str "\\.+*?()|[]\x7b\x7d^$").map UInt8.toNat).contains r

def quoteMeta (s : Str) : Str := s.flatMap fun b => if special b.toNat then [0x5C, b] else [b]

/-- `utf8.ValidString`, after skipping the `skip` bytes the last rune still covers. -/
def validFrom : Nat → Str → Bool
  | _, [] => true
  | 0, b :: rest => decodeRune b rest != (runeError, 1) && validFrom ((decodeRune b rest).2 - 1) rest
  | skip + 1, _ :: rest => validFrom skip rest

/-- What is after the `^`: dots, with a star or without, and characters, quoted if they are special, up to the `$`. -/
def pieces : List Nat → Option (List Token)
  | [] => none
  | [r] => if r = 0x24 then some [] else none
  | r :: r' :: rest =>
    if r = 0x5C then (pieces rest).map (.char r' :: ·)
    else if r = 0x2E then
      if r' = 0x2A then (pieces rest).map (.dotStar :: ·) else (pieces (r' :: rest)).map (.dot :: ·)
    else if special r then none
    else (pieces (r' :: rest)).map (.char r :: ·)

/-- `regexp.Compile` for the expressions of `matchPattern`; it refuses what is not UTF-8. -/
def compile (expr : Str) : Option (List Token) :=
  if validFrom 0 expr then pieces (runes expr).tail else none

/-- Any number of characters other than a line feed, and then what `next` matches. -/
def afterDots (next : List Nat → Bool) : List Nat → Bool
  | [] => next []
  | r :: rest => next (r :: rest) || (r != 0x0A && afterDots next rest)

def matchTokens : List Token → List Nat → Bool
  | [], text => text.isEmpty
  | .char _ :: _, [] => false
  | .char c :: tokens, r :: rest => r == c && matchTokens tokens rest
  | .dot :: _, [] => false
  | .dot :: tokens, r :: rest => r != 0x0A && matchTokens tokens rest
  | .dotStar :: tokens, text => afterDots (matchTokens tokens) text

inductive Matches : List Token → List Nat → Prop
  | nil : Matches [] []
  | char (c : Nat) {tokens} {text} : Matches tokens text → Matches (.char c :: tokens) (c :: text)
  | dot {r tokens text} : r ≠ 0x0A → Matches tokens text → Matches (.dot :: tokens) (r :: text)
  | stop {tokens text} : Matches tokens text → Matches (.dotStar :: tokens) text
  | more {r tokens text} : r ≠ 0x0A → Matches (.dotStar :: tokens) text → Matches (.dotStar :: tokens) (r :: text)

theorem afterDots_iff {tokens next} (meaning : ∀ text, next text = true ↔ Matches tokens text) (text : List Nat) :
    afterDots next text = true ↔ Matches (.dotStar :: tokens) text := by
  induction text with
  | nil =>
    rw [afterDots, meaning]
    exact ⟨.stop, fun | .stop h => h⟩
  | cons r rest ih =>
    rw [afterDots, Bool.or_eq_true, Bool.and_eq_true, meaning, ih, bne_iff_ne]
    constructor
    · rintro (h | ⟨other, h⟩)
      · exact .stop h
      · exact .more other h
    · rintro (h | h)
      · exact .inl ‹_›
      · exact .inr ⟨‹_›, ‹_›⟩

theorem matchTokens_iff (tokens : List Token) (text : List Nat) :
    matchTokens tokens text = true ↔ Matches tokens text := by
  induction tokens generalizing text with
  | nil =>
    cases text with
    | nil => exact ⟨fun _ => .nil, fun _ => rfl⟩
    | cons r rest => exact ⟨nofun, nofun⟩
  | cons t tokens ih =>
    cases t with
    | char c =>
      cases text with
      | nil => exact ⟨nofun, nofun⟩
      | cons r rest =>
        rw [matchTokens, Bool.and_eq_true, beq_iff_eq, ih]
        exact ⟨fun ⟨same, h⟩ => same ▸ .char r h, fun | .char _ h => ⟨rfl, h⟩⟩
    | dot =>
      cases text with
      | nil => exact ⟨nofun, nofun⟩
      | cons r rest =>
        rw [matchTokens, Bool.and_eq_true, bne_iff_ne, ih]
        exact ⟨fun ⟨other, h⟩ => .dot other h, fun | .dot other h => ⟨other, h⟩⟩
    | dotStar =>
      exact afterDots_iff ih text

def matchPattern (pattern s : Str) : Bool :=
  let regexPattern := quoteMeta pattern
  let regexPattern := replaceAll regexPattern "\\*" ".*"
  let regexPattern := replaceAll regexPattern "\\?" "."
  match compile ("^" ++ regexPattern ++ "$") with
  | none => false
  | some tokens => matchTokens tokens (runes s)

def token (r : Nat) : Token := if r = 0x2A then .dotStar else if r = 0x3F then .dot else .char r

def piece (b : UInt8) : Str :=
  if b = 0x2A then [0x2E, 0x2A] else if b = 0x3F then [0x2E] else if special b.toNat then [0x5C, b] else [b]

section Rewriting

variable {b : UInt8} (plain : b ≠ 0x5C) (c : UInt8) (new rest : Str)

include plain

theorem replaceFrom_plain : replaceFrom [0x5C, c] new 0 (b :: rest) = b :: replaceFrom [0x5C, c] new 0 rest := by
  rw [replaceFrom, if_neg (by simp [hasPrefix, Ne.symm plain])]

theorem replaceFrom_quoted : replaceFrom [0x5C, c] new 0 (0x5C :: b :: rest) =
      (if b = c then new else [0x5C, b]) ++ replaceFrom [0x5C, c] new 0 rest := by
  rw [replaceFrom]
  by_cases same : b = c
  · rw [if_pos (by simp [hasPrefix, same]), if_pos same]
    rfl
  · rw [if_neg (by simp [hasPrefix, Ne.symm same]), if_neg same, replaceFrom_plain plain]
    rfl

end Rewriting

/-- Quoting and the two replacements rewrite a pattern character by character. -/
theorem rewritten_eq {pattern : Str} (plain : 0x5C ∉ pattern) :
    replaceAll (replaceAll (quoteMeta pattern) "\\*" ".*") "\\?" "." = pattern.flatMap piece := by
  have star : str "\\*" = [0x5C, 0x2A] := rfl
  have any : str "\\?" = [0x5C, 0x3F] := rfl
  unfold replaceAll quoteMeta
  rw [star, any]
  induction pattern with
  | nil => rfl
  | cons b pattern ih =>
    rw [mem_cons, not_or] at plain
    have other : b ≠ 0x5C := Ne.symm plain.1
    rw [flatMap_cons, flatMap_cons, ← ih plain.2, piece]
    by_cases isStar : b = 0x2A
    · subst isStar
      rfl
    rw [if_neg isStar]
    by_cases quoted : special b.toNat = true
    · rw [if_pos quoted, cons_append, cons_append, replaceFrom_quoted other, if_neg isStar]
      change replaceFrom _ _ 0 (0x5C :: b :: _) = _
      rw [replaceFrom_quoted other]
      rfl
    · have notAny : b ≠ 0x3F := by
        rintro rfl
        exact quoted (by decide)
      rw [if_neg quoted, if_neg notAny, cons_append, replaceFrom_plain other, replaceFrom_plain other]
      rfl

theorem validFrom_of_ascii {s : Str} (ascii : ∀ b ∈ s, b.toNat < 0x80) : validFrom 0 s = true := by
  induction s with
  | nil => rfl
  | cons b rest ih =>
    have small := ascii b mem_cons_self
    have other : (b.toNat, 1) ≠ (runeError, 1) := by simp [runeError]; omega
    rw [validFrom, decodeRune_ascii small, bne_iff_ne.mpr other]
    exact ih fun b mem => ascii b (mem_cons_of_mem _ mem)

/-- The expression is read as one piece for each character. -/
theorem pieces_flatMap (pattern : Str) :
    pieces ((pattern.flatMap piece ++ [0x24]).map UInt8.toNat) = some (pattern.map fun b => token b.toNat) ∧
      ((pattern.flatMap piece ++ [0x24]).map UInt8.toNat).head? ≠ some 0x2A := by
  induction pattern with
  | nil => decide
  | cons b pattern ih =>
    obtain ⟨read, start⟩ := ih
    rw [flatMap_cons, append_assoc, map_append]
    cases later : (pattern.flatMap piece ++ [0x24]).map UInt8.toNat with
    | nil => simp at later
    | cons r rest =>
      rw [later] at read start
      have next : r ≠ 0x2A := fun same => start (congrArg some same)
      rw [map_cons, token, piece]
      by_cases star : b = 0x2A
      · subst star
        simp [pieces, read]
      by_cases any : b = 0x3F
      · subst any
        simp [pieces, read, next]
      have notStar : b.toNat ≠ 0x2A := fun same => star (UInt8.toNat_inj.mp same)
      have notAny : b.toNat ≠ 0x3F := fun same => any (UInt8.toNat_inj.mp same)
      rw [if_neg star, if_neg any, if_neg notStar, if_neg notAny]
      by_cases quoted : special b.toNat = true
      · simp [pieces, read, quoted]
      · have ordinary {x} (is : special x = true) : b.toNat ≠ x := fun same => quoted (same ▸ is)
        simp [pieces, read, quoted, notStar, ordinary (x := 0x5C) (by decide), ordinary (x := 0x2E) (by decide)]

theorem compile_eq {pattern : Str} (valid : validatePattern pattern = true) :
    compile ("^" ++ replaceAll (replaceAll (quoteMeta pattern) "\\*" ".*") "\\?" "." ++ "$") =
      some ((runes pattern).map token) := by
  have high : ∀ r, 0x80 ≤ r → ¬ allowed r = true := by
    intro r big is
    have marks : ∀ x ∈ (str "-_./*?").map UInt8.toNat, x < 0x80 := by decide
    simp only [allowed, Bool.or_eq_true, Bool.and_eq_true, decide_eq_true_eq, contains_iff_mem] at is
    rcases is with letter | mark
    · omega
    · exact absurd (marks r mark) (Nat.not_lt.mpr big)
  have bytes := (runes_all_iff_of_ascii high pattern).mp (List.all_eq_true.mp valid)
  have ascii : ∀ b ∈ pattern, b.toNat < 0x80 := fun b mem => Nat.lt_of_not_le fun big => high _ big (bytes b mem)
  have plain : 0x5C ∉ pattern := fun mem => absurd (bytes _ mem) (by decide)
  have whole : ∀ b ∈ str "^" ++ pattern.flatMap piece ++ "$", b.toNat < 0x80 := by
    have each : ∀ b, ∀ c ∈ pattern, b ∈ piece c → b.toNat < 0x80 := by
      intro b c mem
      unfold piece
      split_ifs <;> simp +contextual [or_imp, ascii c mem]
    have anchors : str "^" = [0x5E] ∧ str "$" = [0x24] := ⟨rfl, rfl⟩
    simpa [or_imp, forall_and, anchors] using each
  rw [rewritten_eq plain, compile, if_pos (validFrom_of_ascii whole), runes_of_ascii whole, runes_of_ascii ascii, map_map]
  exact (pieces_flatMap pattern).1

/-- The texts that a pattern stands for: `*` is any sequence of characters, `?` any one character, and
every other character itself. -/
inductive Language : List Nat → List Nat → Prop
  | nil : Language [] []
  | star (skipped : List Nat) {pattern rest} : Language pattern rest → Language (0x2A :: pattern) (skipped ++ rest)
  | any (r : Nat) {pattern rest} : Language pattern rest → Language (0x3F :: pattern) (r :: rest)
  | char {c pattern rest} : c ≠ 0x2A → c ≠ 0x3F → Language pattern rest → Language (c :: pattern) (c :: rest)

theorem matches_dotStar {tokens text} : Matches (.dotStar :: tokens) text ↔
      ∃ skipped rest, text = skipped ++ rest ∧ 0x0A ∉ skipped ∧ Matches tokens rest := by
  constructor
  · intro h
    induction text with
    | nil =>
      cases h with
      | stop h => exact ⟨[], [], rfl, not_mem_nil, h⟩
    | cons r text ih =>
      cases h with
      | stop h => exact ⟨[], _, rfl, not_mem_nil, h⟩
      | more other h =>
        obtain ⟨skipped, rest, rfl, out, h⟩ := ih h
        exact ⟨r :: skipped, rest, rfl, by simp [out, Ne.symm other], h⟩
  · rintro ⟨skipped, rest, rfl, out, h⟩
    induction skipped with
    | nil => exact .stop h
    | cons r skipped ih =>
      rw [mem_cons, not_or] at out
      exact .more (.symm out.1) (ih out.2)

/-- What is matched is the language of the pattern, without the texts that have a line feed. -/
theorem matches_iff {pattern} (plain : 0x0A ∉ pattern) (text : List Nat) :
    Matches (pattern.map token) text ↔ Language pattern text ∧ 0x0A ∉ text := by
  induction pattern generalizing text with
  | nil =>
    constructor
    · intro h
      cases h
      exact ⟨.nil, not_mem_nil⟩
    · rintro ⟨h, _⟩
      cases h
      exact .nil
  | cons c pattern ih =>
    rw [mem_cons, not_or] at plain
    rw [map_cons, token]
    split_ifs with star any
    · subst star
      rw [matches_dotStar]
      constructor
      · rintro ⟨skipped, rest, rfl, out, h⟩
        obtain ⟨h, out'⟩ := (ih plain.2 rest).mp h
        exact ⟨.star skipped h, by simp [out, out']⟩
      · rintro ⟨h, out⟩
        cases h with
        | star skipped h =>
          rw [mem_append, not_or] at out
          exact ⟨skipped, _, rfl, out.1, (ih plain.2 _).mpr ⟨h, out.2⟩⟩
        | char other => exact absurd rfl other
    · subst any
      constructor
      · intro h
        cases h with
        | dot other h =>
          obtain ⟨h, out⟩ := (ih plain.2 _).mp h
          exact ⟨.any _ h, by simp [out, Ne.symm other]⟩
      · rintro ⟨h, out⟩
        cases h with
        | any r h =>
          rw [mem_cons, not_or] at out
          exact .dot (.symm out.1) ((ih plain.2 _).mpr ⟨h, out.2⟩)
        | char _ other => exact absurd rfl other
    · constructor
      · intro h
        cases h with
        | char _ h =>
          obtain ⟨h, out⟩ := (ih plain.2 _).mp h
          exact ⟨.char star any h, by simp [out, plain.1]⟩
      · rintro ⟨h, out⟩
        cases h with
        | star => exact absurd rfl star
        | any => exact absurd rfl any
        | char _ _ h => exact .char c ((ih plain.2 _).mpr ⟨h, fun mem => out (.tail _ mem)⟩)

/-- For a pattern that passed `validatePattern`, a match tells exactly the texts of the language, unless
the text is one of them and has a line feed. -/
theorem matchPattern_iff_language {pattern s : Str} (valid : validatePattern pattern = true) :
    (matchPattern pattern s = true ↔ Language (runes pattern) (runes s)) ↔
      ¬ (Language (runes pattern) (runes s) ∧ 0x0A ∈ runes s) := by
  have plain : 0x0A ∉ runes pattern := by
    intro mem
    exact absurd (List.all_eq_true.mp valid _ mem) (by decide)
  simp only [matchPattern, compile_eq valid]
  rw [matchTokens_iff, matches_iff plain]
  tauto

theorem matchPattern_iff_language_notes :
    validatePattern (str "/notes/*") = true ∧ (matchPattern (str "/notes/*") (str "/notes/a") = true ↔
      Language (runes (str "/notes/*")) (runes (str "/notes/a"))) :=
  ⟨by decide, (matchPattern_iff_language (by decide)).mpr fun both => absurd both.2 (by decide)⟩

theorem star_stops_at_lineFeed : validatePattern (str "/*") = true ∧
    Language (runes (str "/*")) (runes (str "/\n")) ∧ matchPattern (str "/*") (str "/\n") = false :=
  ⟨by decide, .char (by decide) (by decide) (.star [0x0A] .nil), by decide⟩

end Authz.Glob
