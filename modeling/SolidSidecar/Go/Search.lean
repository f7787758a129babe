import SolidSidecar.Go.Strings

/-!
# Searching a text for a word

`strings.Index` as the text after the first occurrence of a word, and how the search goes through a
text that is cut up by bytes the word does not contain. A text of terms in angle brackets, with gaps
between them, is searched term by term: a word without brackets lies inside one term.
-/

namespace Go.Strings
open List

/-- The text after the first occurrence of a word: `s[strings.Index(s, word)+len(word):]`. -/
def after (word : Str) : Str → Option Str
  | [] => if word = [] then some [] else none
  | b :: rest =>
    if hasPrefix (b :: rest) word then some ((b :: rest).drop word.length) else after word rest

variable {word : Str}

theorem after_nil (nonempty : word ≠ []) : after word [] = none := by rw [after, if_neg nonempty]

theorem after_self (rest : Str) : after word (word ++ rest) = some rest := by
  cases word with
  | nil => cases rest <;> simp [after, hasPrefix]
  | cons b word => simp [after, hasPrefix]

/-- A word is not found exactly when it occurs nowhere. -/
theorem after_eq_none {s} : after word s = none ↔ ¬ word <:+: s := by
  induction s with
  | nil =>
    rw [after]
    by_cases empty : word = [] <;> simp
  | cons b rest ih =>
    rw [after, infix_cons_iff, hasPrefix, not_or, ← ih]
    by_cases start : word <+: b :: rest
    · simp [ start]
    · simp [start]

/-- A word at the start of a text does not go past a byte that it does not contain. -/
theorem hasPrefix_append_cons {a b : Str} {c} (absent : c ∉ word) :
    hasPrefix (a ++ c :: b) word = hasPrefix a word := by
  rw [Bool.eq_iff_iff, hasPrefix, hasPrefix, isPrefixOf_iff_prefix, isPrefixOf_iff_prefix]
  constructor
  · intro start
    rcases prefix_or_prefix_of_prefix start (prefix_append a (c :: b)) with inside | ⟨t, past⟩
    · exact inside
    · cases t with
      | nil => exact ⟨[], by simpa using past.symm⟩
      | cons d t =>
        rw [← past, prefix_append_right_inj] at start
        obtain ⟨rfl, _⟩ := cons_prefix_cons.mp start
        exact absurd (past ▸ mem_append_right a (mem_cons_self ..)) absent
  · exact fun start => start.trans (prefix_append ..)

/-- The search stops in the part before a byte that the word does not contain, or goes on after it. -/
theorem after_append_cons {a b : Str} {c} (nonempty : word ≠ []) (absent : c ∉ word) : after word (a ++ c :: b) =
      match after word a with
      | some rest => some (rest ++ c :: b)
      | none => after word b := by
  induction a with
  | nil =>
    have start : hasPrefix (c :: b) word = false := by
      have same := hasPrefix_append_cons (a := []) (b := b) absent
      rw [nil_append] at same
      rw [same]
      cases word with
      | nil => exact absurd rfl nonempty
      | cons d ds => rfl
    rw [after_nil nonempty, nil_append, after, start]
    rfl
  | cons d a ih =>
    have same : hasPrefix (d :: (a ++ c :: b)) word = hasPrefix (d :: a) word :=
      hasPrefix_append_cons (a := d :: a) absent
    rw [cons_append, after, after, same]
    cases start : hasPrefix (d :: a) word with
    | false => simpa using ih
    | true =>
      have fits : word.length ≤ (d :: a).length :=
        ( isPrefixOf_iff_prefix.mp start).length_le
      simp only [if_true]
      rw [← cons_append, drop_append_of_le_length fits]

/-- Terms in angle brackets, each with the gap that follows it. -/
def bracketed (tokens : List (Str × Str)) : Str :=
  tokens.flatMap fun token => 0x3C :: (token.1 ++ 0x3E :: token.2)

/-- The first term with the word in it: what follows the word in the term, and the later terms. -/
def afterIn (word : Str) : List Str → Option (Str × List Str)
  | [] => none
  | t :: later =>
    match after word t with
    | some rest => some (rest, later)
    | none => afterIn word later

/-- A word that brackets cannot be part of, and no gap contains. -/
structure Searchable (word : Str) (gaps : List Str) : Prop where
  nonempty : word ≠ []
  opening : (0x3C : UInt8) ∉ word
  closing : (0x3E : UInt8) ∉ word
  gaps : ∀ gap ∈ gaps, after word gap = none

theorem after_gap {gaps gap} (searchable : Searchable word gaps) (known : gap ∈ gaps) (tokens : List (Str × Str)) :
    after word (gap ++ bracketed tokens) = after word (bracketed tokens) := by
  cases tokens with
  | nil => simpa [bracketed, after_nil searchable.nonempty] using searchable.gaps gap known
  | cons token tokens =>
    have text : bracketed (token :: tokens) = 0x3C :: (token.1 ++ 0x3E :: token.2 ++ bracketed tokens) := by
      simp [bracketed]
    rw [text, after_append_cons searchable.nonempty searchable.opening, searchable.gaps gap known,
      ← nil_append (0x3C :: _), after_append_cons searchable.nonempty searchable.opening,
      after_nil searchable.nonempty]

/-- The search in one bracketed term and what comes after it. -/
theorem after_token {gaps} (searchable : Searchable word gaps) {t gap}
    (known : gap ∈ gaps) (tokens : List (Str × Str)) :
    after word (bracketed ((t, gap) :: tokens)) =
      match after word t with
      | some rest => some (rest ++ 0x3E :: (gap ++ bracketed tokens))
      | none => after word (bracketed tokens) := by
  have text : bracketed ((t, gap) :: tokens) = [] ++ 0x3C :: (t ++ 0x3E :: (gap ++ bracketed tokens)) := by
    simp [bracketed]
  rw [text, after_append_cons searchable.nonempty searchable.opening, after_nil searchable.nonempty,
    after_append_cons searchable.nonempty searchable.closing]
  cases after word t with
  | some rest => rfl
  | none => exact after_gap searchable known tokens

/-- A text of bracketed terms is searched term by term. -/
theorem after_bracketed {gaps} (searchable : Searchable word gaps)
    {tokens} (known : ∀ token ∈ tokens, token.2 ∈ gaps) :
    match afterIn word (tokens.map Prod.fst) with
    | none => after word (bracketed tokens) = none
    | some (rest, later) => ∃ gap tokens', tokens'.map Prod.fst = later ∧ gap ∈ gaps ∧
        (∀ token ∈ tokens', token.2 ∈ gaps) ∧
        after word (bracketed tokens) = some (rest ++ 0x3E :: (gap ++ bracketed tokens')) := by
  induction tokens with
  | nil => exact after_nil searchable.nonempty
  | cons token tokens ih =>
    obtain ⟨t, gap⟩ := token
    have here : gap ∈ gaps := known _ (mem_cons_self ..)
    have there : ∀ token ∈ tokens, token.2 ∈ gaps := fun _ mem => known _ (mem_cons_of_mem _ mem)
    have split := after_token searchable (t := t) here tokens
    rw [map_cons, afterIn]
    cases found : after word t with
    | some rest =>
      rw [found] at split
      exact ⟨gap, tokens, rfl, here, there, split⟩
    | none =>
      rw [found] at split
      simp only [split]
      exact ih there

end Go.Strings
