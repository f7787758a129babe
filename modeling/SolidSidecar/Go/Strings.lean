import SolidSidecar.Go.Str

/-!
# The `strings` package

The functions of `strings` on the byte sequences of `Go.Str`. Separators and cutsets are ASCII, so
a byte search is a rune search. White space is Unicode's (`unicode.IsSpace`), listed by its
encodings: each starts with a byte that never occurs inside another rune, so stripping encodings
from either end is what `TrimSpace` and `Fields` do rune by rune. The case tables above ASCII are
the parameter `Unicode`: a result that says nothing about them holds whatever they are, and one that
depends on them says so (which clients are trusted).
-/

namespace Go
open List

/-- The case tables of package `unicode`, consulted only above ASCII: upper and lower case, and a
representative of the simple-folding orbit. -/
class Unicode where
  upper : Nat → Nat
  lower : Nat → Nat
  fold : Nat → Nat

@[reducible] def Unicode.ascii : Unicode := ⟨id, id, id⟩

namespace Strings

variable {s : Str} {c : UInt8} {ws : List Str}

def hasPrefix (s p : Str) : Bool := p.isPrefixOf s

def hasSuffix (s p : Str) : Bool := p.isSuffixOf s

def contains (s sub : Str) : Bool :=
  hasPrefix s sub || match s with
    | [] => false
    | _ :: rest => contains rest sub

theorem contains_iff {sub} : contains s sub = true ↔ sub <:+: s := by
  induction s with
  | nil =>
    rw [contains]
    simp [hasPrefix]
  | cons b rest ih =>
    rw [contains, Bool.or_eq_true, ih, hasPrefix, isPrefixOf_iff_prefix, infix_cons_iff]

def trimPrefix (s p : Str) : Str := if hasPrefix s p then s.drop p.length else s

def trimSuffix (s p : Str) : Str := if hasSuffix s p then s.take (s.length - p.length) else s

/-- `strings.Cut` around the first `c`: what is before it and what is after it. -/
def cut (s : Str) (c : UInt8) : Str × Str :=
  (s.takeWhile (· != c), (s.dropWhile (· != c)).tail)

def split (c : UInt8) : Str → List Str
  | [] => [[]]
  | b :: rest =>
    if b = c then [] :: split c rest
    else match split c rest with
      | part :: parts => (b :: part) :: parts
      | [] => [[b]]

def join (parts : List Str) (sep : Str) : Str := sep.intercalate parts

theorem split_eq_splitOn (c : UInt8) (s : Str) : split c s = s.splitOn c := by
  induction s with
  | nil => rfl
  | cons b rest ih =>
    simp only [split, splitOn_cons_eq_if_modifyHead, ih, beq_iff_eq]
    split_ifs
    · rfl
    · cases parts : rest.splitOn c with
      | nil => exact absurd parts (splitOn_ne_nil c rest)
      | cons part parts => rfl

theorem split_ne_nil (c : UInt8) (s : Str) : split c s ≠ [] :=
  split_eq_splitOn c s ▸ splitOn_ne_nil c s

/-- A separator between two texts splits them apart. -/
theorem split_append_cons (c : UInt8) (s t : Str) :
    split c (s ++ c :: t) = split c s ++ split c t := by
  simp [split_eq_splitOn, splitOn_append_cons_self]

theorem split_of_notMem (out : c ∉ s) : split c s = [s] :=
  (split_eq_splitOn c s).trans (splitOn_eq_singleton out)

theorem notMem_of_mem_split {part} (mem : part ∈ split c s) : c ∉ part := by
  induction s generalizing part with
  | nil =>
    rw [split, mem_singleton] at mem
    rw [mem]
    exact not_mem_nil
  | cons b rest ih =>
    rw [split] at mem
    split_ifs at mem with here
    · rcases mem_cons.mp mem with rfl | later
      · exact not_mem_nil
      · exact ih later
    · cases parts : split c rest with
      | nil => exact absurd parts (split_ne_nil c rest)
      | cons first parts' =>
        rw [parts] at mem ih
        rcases mem_cons.mp mem with rfl | later
        · rw [mem_cons, not_or]
          exact ⟨Ne.symm here, ih mem_cons_self⟩
        · exact ih (mem_cons_of_mem _ later)

@[simp] theorem join_singleton (part sep : Str) : join [part] sep = part := intercalate_singleton

theorem join_cons_cons (part next : Str) (parts : List Str) (sep : Str) :
    join (part :: next :: parts) sep = part ++ sep ++ join (next :: parts) sep := by
  simp [join]

/-- A byte of a joined text is one of a part or of the separator. -/
theorem mem_join {b parts sep} (mem : b ∈ join parts sep) : (∃ part ∈ parts, b ∈ part) ∨ b ∈ sep := by
  induction parts with
  | nil => cases mem
  | cons part parts ih =>
    cases parts with
    | nil => exact .inl ⟨part, mem_cons_self, by rwa [join_singleton] at mem⟩
    | cons next parts =>
      rw [join_cons_cons, mem_append, mem_append] at mem
      rcases mem with (here | between) | later
      · exact .inl ⟨part, mem_cons_self, here⟩
      · exact .inr between
      · rcases ih later with ⟨part', present, inside⟩ | between
        · exact .inl ⟨part', mem_cons_of_mem _ present, inside⟩
        · exact .inr between

theorem split_join {parts} (some : parts ≠ []) (out : ∀ part ∈ parts, c ∉ part) :
    split c (join parts [c]) = parts :=
  (split_eq_splitOn c _).trans (splitOn_intercalate c out some)

theorem join_split (c : UInt8) (s : Str) : join (split c s) [c] = s := by
  rw [split_eq_splitOn]
  exact intercalate_splitOn c

theorem join_append (init : List Str) (last sep tail : Str) :
    join (init ++ [last]) sep ++ tail = join (init ++ [last ++ tail]) sep := by
  induction init with
  | nil => simp
  | cons part rest ih =>
    cases rest with
    | nil => simp [join_cons_cons]
    | cons next rest =>
      simp only [cons_append] at ih ⊢
      rw [join_cons_cons, join_cons_cons, append_assoc, ih]

theorem join_merge (init rest : List Str) (a b sep : Str) :
    join (init ++ a :: b :: rest) sep = join (init ++ (a ++ sep ++ b) :: rest) sep := by
  induction init with
  | nil => cases rest <;> simp [join_cons_cons]
  | cons first init ih => cases init <;> simp_all [join_cons_cons]

theorem count_join (c : UInt8) {parts} (some : parts ≠ []) :
    (join parts [c]).count c + 1 = parts.length + (parts.map (count c)).sum := by
  induction parts with
  | nil => exact absurd rfl some
  | cons part rest ih =>
    cases rest with
    | nil => simp [Nat.add_comm]
    | cons next rest =>
      have later := ih (cons_ne_nil _ _)
      simp only [join_cons_cons, count_append, count_singleton_self, length_cons, map_cons, sum_cons] at later ⊢
      omega

/-- Among texts of equally many parts, a joined one tells its parts exactly when none holds a separator. -/
theorem join_inj_iff {parts} (two : 2 ≤ parts.length) :
    (∀ other, other.length = parts.length → join other [c] = join parts [c] → other = parts) ↔
      ∀ part ∈ parts, c ∉ part := by
  constructor
  · intro unique part mem here
    obtain ⟨init, rest, rfl⟩ := append_of_mem mem
    obtain ⟨x, y, rfl⟩ := append_of_mem here
    -- The separator inside the part can be taken for the one to the right of it, or to the left.
    cases rest with
    | cons next rest =>
      have moved := unique (init ++ x :: (y ++ [c] ++ next) :: rest) (by simp) (by simp [join_merge])
      simp at moved
    | nil =>
      rcases eq_nil_or_concat init with rfl | ⟨init, last, rfl⟩
      · simp at two
      · have moved := unique (init ++ (last ++ [c] ++ x) :: [y]) (by simp) (by simp [join_merge])
        simp at moved
  · intro plain other length same
    have some : parts ≠ [] := ne_nil_of_length_pos (by omega)
    have some' : other ≠ [] := ne_nil_of_length_pos (by omega)
    have none : (parts.map (count c)).sum = 0 := by
      simpa [List.sum_eq_zero_iff_forall_eq_nat, count_eq_zero] using plain
    have out : ∀ part ∈ other, c ∉ part := by
      have counted := count_join c some'
      rw [same, count_join c some, none, length] at counted
      simpa [List.sum_eq_zero_iff_forall_eq_nat, count_eq_zero] using (Nat.add_left_cancel counted).symm
    rw [← split_join some' out, same, split_join some plain]

/-- A text without a separator that is written at the end belongs to the last part. -/
theorem split_append_of_notMem {tail last init} (out : c ∉ tail)
    (parts : split c s = init ++ [last]) : split c (s ++ tail) = init ++ [last ++ tail] := by
  have whole : s ++ tail = join (init ++ [last ++ tail]) [c] := by
    rw [← join_append, ← parts, join_split]
  have inside : ∀ part ∈ init ++ [last], c ∉ part := fun part mem => by
    rw [← parts] at mem
    exact notMem_of_mem_split mem
  rw [whole]
  apply split_join (by simp)
  intro part mem
  rcases mem_append.mp mem with early | final
  · exact inside part (mem_append_left _ early)
  · rw [mem_singleton.mp final, mem_append, not_or]
    exact ⟨inside last (by simp), out⟩

theorem infix_join {part : Str} {parts} (mem : part ∈ parts) (sep : Str) : part <:+: join parts sep := by
  induction parts with
  | nil => cases mem
  | cons first rest ih =>
    cases rest with
    | nil =>
      rw [join_singleton]
      exact mem_singleton.mp mem ▸ infix_rfl
    | cons next rest =>
      rw [join_cons_cons]
      rcases mem_cons.mp mem with rfl | later
      · rw [append_assoc]
        exact (prefix_append _ _).isInfix
      · exact (ih later).trans (suffix_append _ _).isInfix

theorem infix_of_mem_split {part} (mem : part ∈ split c s) : part <:+: s := by
  have inside := infix_join mem [c]
  rwa [join_split] at inside

/-- Bytes can be exchanged before or after splitting when the separator is not one of them. -/
theorem split_map {f} (fixed : ∀ b, f b = c ↔ b = c) (s : Str) :
    split c (s.map f) = (split c s).map (map f) := by
  induction s with
  | nil => rfl
  | cons b rest ih =>
    rw [map_cons, split, split, ih]
    by_cases here : b = c
    · rw [if_pos here, if_pos ((fixed b).mpr here)]
      rfl
    · rw [if_neg here, if_neg (mt (fixed b).mp here)]
      cases split c rest <;> rfl

def containsAny (s chars : Str) : Bool := s.any fun b => chars.contains b

/-- The replacement loop, after skipping the `skip` bytes the last occurrence still covers. -/
def replaceFrom (old new : Str) : Nat → Str → Str
  | _, [] => []
  | 0, b :: rest =>
    if hasPrefix (b :: rest) old then new ++ replaceFrom old new (old.length - 1) rest
    else b :: replaceFrom old new 0 rest
  | skip + 1, _ :: rest => replaceFrom old new skip rest

/-- `strings.ReplaceAll` of a nonempty `old`: occurrences are taken from the left and do not overlap. -/
def replaceAll (s old new : Str) : Str := replaceFrom old new 0 s

theorem replaceAll_singleton (s : Str) (a b : UInt8) :
    replaceAll s [a] [b] = s.map fun x => if x = a then b else x := by
  unfold replaceAll
  induction s with
  | nil => rfl
  | cons x rest ih =>
    have found : hasPrefix (x :: rest) [a] = (a == x) := by simp [hasPrefix, isPrefixOf]
    rw [replaceFrom, found, map_cons, ← ih]
    by_cases same : x = a
    · rw [if_pos (by simp [same]), if_pos same]
      rfl
    · rw [if_neg (by simpa using Ne.symm same), if_neg same]

theorem replaceAll_of_notMem {a} (absent : a ∉ s) (b : UInt8) : replaceAll s [a] [b] = s := by
  rw [replaceAll_singleton]
  refine (map_congr_left fun x mem => ?_).trans (map_id s)
  rw [if_neg]
  · rfl
  · rintro rfl
    exact absent mem

/-- `strings.LastIndex` of one byte, as what stands before and after it. -/
def cutLast (s : Str) (c : UInt8) : Option (Str × Str) :=
  if s.contains c then
    some ((s.reverse.dropWhile (· != c)).tail.reverse, s.rtakeWhile (· != c))
  else none

theorem dropWhile_of_mem {l : Str} (mem : c ∈ l) : l.dropWhile (· != c) = c :: (l.dropWhile (· != c)).tail := by
  induction l with
  | nil => simp at mem
  | cons b rest ih =>
    by_cases same : b = c
    · subst same
      simp
    · have later : c ∈ rest := (mem_cons.mp mem).resolve_left (Ne.symm same)
      rw [dropWhile_cons_of_pos (by simpa using same)]
      exact ih later

theorem cutLast_eq_some {before after} (found : cutLast s c = some (before, after)) : s = before ++ c :: after := by
  unfold cutLast at found
  split at found
  · rename_i inside
    have mem : c ∈ s.reverse := mem_reverse.mpr (contains_iff_mem.mp inside)
    have parts : s.reverse = s.reverse.takeWhile (· != c) ++ c :: (s.reverse.dropWhile (· != c)).tail := by
      rw [← dropWhile_of_mem mem, takeWhile_append_dropWhile]
    obtain ⟨rfl, rfl⟩ := Prod.mk.inj (Option.some.inj found)
    calc s = s.reverse.reverse := s.reverse_reverse.symm
      _ = _ := by
        rw [parts, reverse_append, reverse_cons, append_assoc, ← parts]
        rfl
  · cases found

def trimRight (s : Str) (c : UInt8) : Str := s.rdropWhile (· == c)

def trim (s cutset : Str) : Str := (s.dropWhile cutset.contains).rdropWhile cutset.contains

/-- The encodings of the runes of `unicode.IsSpace`. -/
def spaces : List Str :=
  [[0x09], [0x0A], [0x0B], [0x0C], [0x0D], [0x20], [0xC2, 0x85], [0xC2, 0xA0], [0xE1, 0x9A, 0x80],
    [0xE2, 0x80, 0x80], [0xE2, 0x80, 0x81], [0xE2, 0x80, 0x82], [0xE2, 0x80, 0x83],
    [0xE2, 0x80, 0x84], [0xE2, 0x80, 0x85], [0xE2, 0x80, 0x86], [0xE2, 0x80, 0x87],
    [0xE2, 0x80, 0x88], [0xE2, 0x80, 0x89], [0xE2, 0x80, 0x8A], [0xE2, 0x80, 0xA8],
    [0xE2, 0x80, 0xA9], [0xE2, 0x80, 0xAF], [0xE2, 0x81, 0x9F], [0xE3, 0x80, 0x80]]

/-- The width of the white space `s` starts with, by the encodings `ws`; 0 when there is none. -/
def spaceWidth (ws : List Str) (s : Str) : Nat :=
  match ws.find? (·.isPrefixOf s) with
  | some w => w.length
  | none => 0

/-- Drop leading encodings of `ws`; the first argument counts bytes of the current one. -/
def dropSpace (ws : List Str) : Nat → Str → Str
  | _, [] => []
  | skip + 1, _ :: rest => dropSpace ws skip rest
  | 0, b :: rest =>
    if spaceWidth ws (b :: rest) = 0 then b :: rest
    else dropSpace ws (spaceWidth ws (b :: rest) - 1) rest

def trimSpace (s : Str) : Str :=
  (dropSpace (spaces.map List.reverse) 0 (dropSpace spaces 0 s).reverse).reverse

/-- No white space at the start: none of the encodings stands there. -/
theorem spaceWidth_eq_zero (proper : [] ∉ ws) : spaceWidth ws s = 0 ↔ ∀ w ∈ ws, w.isPrefixOf s = false := by
  unfold spaceWidth
  constructor
  · intro zero
    split at zero
    · rename_i w found
      have empty : w = [] := length_eq_zero_iff.mp zero
      exact absurd (empty ▸ mem_of_find?_eq_some found) proper
    · rename_i absent
      intro w mem
      exact Bool.eq_false_iff.mpr (find?_eq_none.mp absent w mem)
  · intro outside
    have absent : ws.find? (·.isPrefixOf s) = none := by
      apply find?_eq_none.mpr
      intro w mem
      rw [outside w mem]
      exact Bool.false_ne_true
    rw [absent]

theorem spaceWidth_dropSpace (proper : [] ∉ ws) (skip : Nat) (s : Str) : spaceWidth ws (dropSpace ws skip s) = 0 := by
  induction s generalizing skip with
  | nil =>
    have none : spaceWidth ws [] = 0 := by
      apply (spaceWidth_eq_zero proper).mpr
      intro w mem
      cases w with
      | nil => exact absurd mem proper
      | cons b rest => rfl
    cases skip <;> exact none
  | cons b rest ih =>
    cases skip with
    | succ skip => exact ih skip
    | zero =>
      unfold dropSpace
      split_ifs with none
      · exact none
      · exact ih _

theorem dropSpace_of_spaceWidth (none : spaceWidth ws s = 0) : dropSpace ws 0 s = s := by
  cases s with
  | nil => rfl
  | cons b rest => simp [dropSpace, none]

theorem dropSpace_suffix (ws : List Str) (skip : Nat) (s : Str) : dropSpace ws skip s <:+ s := by
  induction s generalizing skip with
  | nil => cases skip <;> exact suffix_refl []
  | cons b rest ih =>
    cases skip with
    | succ skip => exact (ih skip).trans (suffix_cons b rest)
    | zero =>
      unfold dropSpace
      split_ifs
      · exact suffix_refl _
      · exact (ih _).trans (suffix_cons b rest)

/-- A byte that no encoding starts with is no white space. -/
theorem spaceWidth_cons {b} (out : ∀ w ∈ ws, w.head? ≠ some b ∧ w ≠ []) (rest : Str) :
    spaceWidth ws (b :: rest) = 0 := by
  apply (spaceWidth_eq_zero fun empty => (out [] empty).2 rfl).mpr
  intro w mem
  cases w with
  | nil => exact absurd rfl (out [] mem).2
  | cons c tail =>
    have differs : c ≠ b := fun same => (out _ mem).1 (congrArg some same)
    simp [isPrefixOf, differs]

/-- A text between two bytes that are no white space is not trimmed. -/
theorem trimSpace_of_ends (starts : spaceWidth spaces s = 0)
    (ends : spaceWidth (spaces.map reverse) s.reverse = 0) : trimSpace s = s := by
  unfold trimSpace
  rw [dropSpace_of_spaceWidth starts, dropSpace_of_spaceWidth ends, reverse_reverse]

def visible (b : UInt8) : Bool := 0x21 ≤ b.toNat && b.toNat ≤ 0x7E

theorem trimSpace_of_visible (plain : s.all visible = true) : trimSpace s = s := by
  have first {ws : List Str} (outside : ∀ w ∈ ws, w.head?.all visible = false) {s : Str} (plain : s.all visible = true) :
      spaceWidth ws s = 0 := by
    cases s with
    | nil =>
      refine (spaceWidth_eq_zero fun mem => ?_).mpr fun w mem => ?_
      · cases outside _ mem
      · cases w with
        | nil => cases outside _ mem
        | cons b w => rfl
    | cons c s =>
      refine spaceWidth_cons (fun w mem => ⟨fun starts => ?_, ?_⟩) s
      · have := outside w mem
        simp_all
      · rintro rfl
        cases outside _ mem
  exact trimSpace_of_ends (first (by decide +kernel) plain) (first (by decide +kernel) (by rwa [all_reverse]))

/-- Trimming twice is trimming once: what is cut off the end leaves the start as it was. -/
theorem trimSpace_trimSpace (s : Str) : trimSpace (trimSpace s) = trimSpace s := by
  have proper : [] ∉ spaces := by decide
  have proper' : [] ∉ spaces.map reverse := by decide
  let left := dropSpace spaces 0 s
  let right := dropSpace (spaces.map reverse) 0 left.reverse
  have start : spaceWidth spaces right.reverse = 0 := by
    have kept : right.reverse <+: left := by
      rw [← reverse_reverse left, reverse_prefix]
      exact dropSpace_suffix ..
    apply (spaceWidth_eq_zero proper).mpr
    intro w mem
    have outside := (spaceWidth_eq_zero proper).mp (spaceWidth_dropSpace proper 0 s) w mem
    rw [Bool.eq_false_iff, ne_eq, isPrefixOf_iff_prefix] at outside ⊢
    exact fun here => outside (here.trans kept)
  have again : trimSpace (trimSpace s) = (dropSpace _ 0 (dropSpace spaces 0 right.reverse).reverse).reverse := rfl
  rw [again, dropSpace_of_spaceWidth start, reverse_reverse,
    dropSpace_of_spaceWidth (spaceWidth_dropSpace proper' 0 left.reverse)]
  rfl

/-- `strings.Fields`, with the field read so far and the bytes left of the current white space. -/
def fieldsFrom : Nat → Str → Str → List Str
  | _, field, [] => if field = [] then [] else [field]
  | skip + 1, field, _ :: rest => fieldsFrom skip field rest
  | 0, field, b :: rest =>
    if spaceWidth spaces (b :: rest) = 0 then fieldsFrom 0 (field ++ [b]) rest
    else
      (if field = [] then [] else [field]) ++ fieldsFrom (spaceWidth spaces (b :: rest) - 1) [] rest

def fields (s : Str) : List Str := fieldsFrom 0 [] s

def encodeRune (r : Nat) : Str :=
  if r < 0x80 then [UInt8.ofNat r]
  else if r < 0x800 then [UInt8.ofNat (0xC0 + r / 64), UInt8.ofNat (0x80 + r % 64)]
  else if r > 0x10FFFF ∨ (0xD800 ≤ r ∧ r ≤ 0xDFFF) then [0xEF, 0xBF, 0xBD]
  else if r < 0x10000 then
    [UInt8.ofNat (0xE0 + r / 4096), UInt8.ofNat (0x80 + r / 64 % 64), UInt8.ofNat (0x80 + r % 64)]
  else
    [UInt8.ofNat (0xF0 + r / 262144), UInt8.ofNat (0x80 + r / 4096 % 64),
      UInt8.ofNat (0x80 + r / 64 % 64), UInt8.ofNat (0x80 + r % 64)]

def lowerAscii (s : Str) : Str :=
  s.map fun b => if 0x41 ≤ b.toNat ∧ b.toNat ≤ 0x5A then UInt8.ofNat (b.toNat + 32) else b

section Case

variable [Unicode]

def upperRune (r : Nat) : Nat :=
  if r < 0x80 then (if 0x61 ≤ r ∧ r ≤ 0x7A then r - 32 else r) else Unicode.upper r

def lowerRune (r : Nat) : Nat :=
  if r < 0x80 then (if 0x41 ≤ r ∧ r ≤ 0x5A then r + 32 else r) else Unicode.lower r

def foldRune (r : Nat) : Nat :=
  if r < 0x80 then (if 0x41 ≤ r ∧ r ≤ 0x5A then r + 32 else r) else Unicode.fold r

def toUpper (s : Str) : Str := (runes s).flatMap fun r => encodeRune (upperRune r)

def toLower (s : Str) : Str := (runes s).flatMap fun r => encodeRune (lowerRune r)

def equalFold (s t : Str) : Bool := (runes s).map foldRune == (runes t).map foldRune

end Case

end Strings

/-- `filepath.Ext`: the last element of a path from its last full stop on. -/
def Filepath.ext (path : Str) : Str :=
  match Strings.cutLast (path.rtakeWhile (· != '/'.toUInt8)) '.'.toUInt8 with
  | some (_, rest) => '.'.toUInt8 :: rest
  | none => []

end Go
