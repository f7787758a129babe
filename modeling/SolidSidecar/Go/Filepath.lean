import SolidSidecar.Go.Strings

/-!
# `path/filepath` on a slash-separated system

`Clean` works element by element on what a path is split into: `step` adds one element to the
cleaned ones. The place a path names is found the same way from the working directory (`locate`): no
links, so that the parent of a directory is what its name says. Cleaning a path does not change its
place, and a joined path is its first element followed by the elements of the others.
-/

namespace Go.Filepath
open List Strings

variable {c first last : Str} {rooted : Bool} {acc parts init : List Str}

def separator : UInt8 := 0x2F

structure IsName (c : Str) : Prop where
  nonempty : c ≠ []
  notHere : c ≠ "."
  notParent : c ≠ ".."
  single : separator ∉ c

instance (c : Str) : Decidable (IsName c) :=
  decidable_of_iff (c ≠ [] ∧ c ≠ "." ∧ c ≠ ".." ∧ separator ∉ c)
    ⟨fun ⟨a, b, c, d⟩ => ⟨a, b, c, d⟩, fun h => ⟨h.1, h.2, h.3, h.4⟩⟩

/-- Add one element of a path to the cleaned ones: `..` takes the last one away, unless that is
itself a `..` or there is none. -/
def step (rooted : Bool) (acc : List Str) (c : Str) : List Str :=
  if c = [] ∨ c = "." then acc
  else if c = ".." then
    match acc.getLast? with
    | none => if rooted then [] else [c]
    | some last => if last = ".." then acc ++ [c] else acc.dropLast
  else acc ++ [c]

def isAbs (path : Str) : Bool := hasPrefix path "/"

def elements (path : Str) : List Str :=
  (split separator path).foldl (step (isAbs path)) []

def clean (path : Str) : Str :=
  let text := (if isAbs path then str "/" else []) ++ join (elements path) "/"
  if text = [] then "." else text

/-- `filepath.Join`, which leaves out the empty elements in front. -/
def join (elems : List Str) : Str :=
  match elems.dropWhile (· = []) with
  | [] => []
  | e :: rest => clean (Strings.join (e :: rest) "/")

def dir (path : Str) : Str := clean (path.rdropWhile (· != separator))

def start (cwd : List Str) (path : Str) : List Str := if isAbs path then [] else cwd

/-- The place a path names, given the working directory. -/
def locate (cwd : List Str) (path : Str) : List Str :=
  (split separator path).foldl (step true) (start cwd path)

theorem str_slash : "/" = [separator] := by decide

theorem step_of_isName (name : IsName c) (rooted : Bool) (acc : List Str) : step rooted acc c = acc ++ [c] := by
  have proper : ¬ (c = [] ∨ c = ".") := not_or.mpr ⟨name.nonempty, name.notHere⟩
  rw [step, if_neg proper, if_neg name.notParent]

@[simp] theorem step_nil (rooted : Bool) (acc : List Str) : step rooted acc [] = acc := rfl

theorem step_trivial (trivial : c = [] ∨ c = ".") (rooted : Bool) (acc : List Str) : step rooted acc c = acc :=
  if_pos trivial

theorem step_up (rooted : Bool) (acc : List Str) : step rooted acc ".." =
    match acc.getLast? with
    | none => if rooted then [] else [".."]
    | some last => if last = ".." then acc ++ [str ".."] else acc.dropLast := by
  have proper : ¬ (str ".." = [] ∨ ".." = str ".") := by decide
  rw [step, if_neg proper, if_pos rfl]

theorem step_up_concat (proper : last ≠ "..") (rooted : Bool) (init : List Str) :
    step rooted (init ++ [last]) ".." = init := by
  rw [step_up, getLast?_concat]
  exact (if_neg proper).trans dropLast_concat

/-- What a cleaned path can have for an element: a name, or `..`. -/
def Plain (c : Str) : Prop := c ≠ [] ∧ c ≠ "." ∧ separator ∉ c

theorem Plain.isName (plain : Plain c) (proper : c ≠ "..") : IsName c :=
  ⟨plain.1, plain.2.1, proper, plain.2.2⟩

/-- The elements after a step are those before it, or the new one. -/
theorem mem_step {d} (mem : d ∈ step rooted acc c) : d ∈ acc ∨ (d = c ∧ c ≠ [] ∧ c ≠ ".") := by
  by_cases trivial : c = [] ∨ c = "."
  · rw [step_trivial trivial] at mem
    exact .inl mem
  suffices added : d ∈ acc ∨ d = c from added.imp_right fun new => ⟨new, not_or.mp trivial⟩
  rw [step, if_neg trivial] at mem
  split at mem
  · split at mem
    · split at mem
      · cases mem
      · exact .inr (mem_singleton.mp mem)
    · split at mem
      · exact (mem_append.mp mem).imp_right mem_singleton.mp
      · exact .inl ((dropLast_sublist acc).subset mem)
  · exact (mem_append.mp mem).imp_right mem_singleton.mp

theorem plain_foldl (single : ∀ c ∈ parts, separator ∉ c)
    (plain : ∀ c ∈ acc, Plain c) : ∀ c ∈ parts.foldl (step rooted) acc, Plain c := by
  induction parts generalizing acc with
  | nil => exact plain
  | cons part rest ih =>
    apply ih (fun c mem => single c (mem_cons_of_mem _ mem))
    intro c mem
    rcases mem_step mem with old | ⟨rfl, nonempty, notHere⟩
    · exact plain c old
    · exact ⟨nonempty, notHere, single c mem_cons_self⟩

theorem plain_elements (path : Str) : ∀ c ∈ elements path, Plain c :=
  plain_foldl (fun _ mem => notMem_of_mem_split mem) (by simp)

/-- From the root, the elements of a place are names. -/
theorem isName_foldl (single : ∀ c ∈ parts, separator ∉ c)
    (names : ∀ c ∈ acc, IsName c) : ∀ c ∈ parts.foldl (step true) acc, IsName c := by
  induction parts generalizing acc with
  | nil => exact names
  | cons part rest ih =>
    apply ih (fun c mem => single c (mem_cons_of_mem _ mem))
    intro c mem
    rcases mem_step mem with old | ⟨rfl, nonempty, notHere⟩
    · exact names c old
    · refine ⟨nonempty, notHere, ?_, single c mem_cons_self⟩
      -- A `..` is never kept: what it would follow is a name.
      rintro rfl
      rcases eq_nil_or_concat acc with rfl | ⟨_, d, rfl⟩
      · cases mem
      · rw [concat_eq_append] at mem names
        rw [step_up_concat (names d (by simp)).notParent] at mem
        exact (names _ (mem_append_left _ mem)).notParent rfl

theorem isName_locate {cwd} (names : ∀ c ∈ cwd, IsName c) (path : Str) : ∀ c ∈ locate cwd path, IsName c := by
  apply isName_foldl (fun _ mem => notMem_of_mem_split mem)
  unfold start
  split_ifs
  · simp
  · exact names

/-- Walking through cleaned elements is walking through the elements themselves. -/
theorem foldl_step_step {outer base} (plain : ∀ d ∈ acc, Plain d) (fixed : rooted = true → base = [] ∧ outer = true) :
    (step rooted acc c).foldl (step outer) base = step outer (acc.foldl (step outer) base) c := by
  by_cases trivial : c = [] ∨ c = "."
  · rw [step_trivial trivial, step_trivial trivial]
  by_cases up : c = ".."
  · subst up
    rcases eq_nil_or_concat acc with rfl | ⟨init, d, rfl⟩
    · cases rooted with
      | false => rfl
      | true =>
        rw [(fixed rfl).1, (fixed rfl).2]
        rfl
    · rw [concat_eq_append] at plain ⊢
      by_cases climbing : d = ".."
      · have kept : step rooted (init ++ [d]) ".." = init ++ [d] ++ [str ".."] := by
          rw [step_up, getLast?_concat]
          exact if_pos climbing
        rw [kept, foldl_append]
        rfl
      · have name : IsName d := (plain d (by simp)).isName climbing
        rw [step_up_concat climbing, foldl_append, foldl_cons, foldl_nil, step_of_isName name,
          step_up_concat climbing]
  · have kept : step rooted acc c = acc ++ [c] := by rw [step, if_neg trivial, if_neg up]
    rw [kept, foldl_append]
    rfl

theorem foldl_foldl_step {outer base} (single : ∀ c ∈ parts, separator ∉ c) (plain : ∀ d ∈ acc, Plain d)
    (fixed : rooted = true → base = [] ∧ outer = true) :
    (parts.foldl (step rooted) acc).foldl (step outer) base =
      parts.foldl (step outer) (acc.foldl (step outer) base) := by
  induction parts generalizing acc with
  | nil => rfl
  | cons part rest ih =>
    have alone : ∀ c ∈ [part], separator ∉ c := by simpa using single part mem_cons_self
    have later : ∀ d ∈ step rooted acc part, Plain d := plain_foldl alone plain
    rw [foldl_cons, ih (fun c mem => single c (mem_cons_of_mem _ mem)) later, foldl_step_step plain fixed]
    rfl

variable (cwd : List Str)

theorem foldl_elements (path : Str) : (elements path).foldl (step true) (start cwd path) = locate cwd path := by
  apply foldl_foldl_step (fun _ mem => notMem_of_mem_split mem) (by simp)
  intro rooted
  exact ⟨if_pos rooted, rfl⟩

variable {path : Str}

theorem clean_of_elements (some : elements path ≠ []) :
    clean path = (if isAbs path then str "/" else []) ++ Strings.join (elements path) "/" := by
  have nonempty : (if isAbs path then str "/" else []) ++ Strings.join (elements path) "/" ≠ [] := by
    intro empty
    have joined := (append_eq_nil_iff.mp empty).2
    have plain := plain_elements path
    revert some plain joined
    cases elements path with
    | nil => exact fun some => absurd rfl some
    | cons first rest =>
      intro _ joined plain
      cases rest with
      | nil =>
        rw [join_singleton] at joined
        exact (plain first mem_cons_self).1 joined
      | cons next rest =>
        exact (plain first mem_cons_self).1 (append_eq_nil_iff.mp joined).1
  exact if_neg nonempty

theorem clean_of_elements_eq_nil (none : elements path = []) : clean path = if isAbs path then str "/" else "." := by
  unfold clean
  rw [none]
  cases isAbs path <;> decide

/-- The elements of a cleaned path stand in it as they are. -/
theorem split_clean (some : elements path ≠ []) :
    split separator (clean path) = (if isAbs path then [[]] else []) ++ elements path := by
  have single : ∀ c ∈ elements path, separator ∉ c := fun c mem => (plain_elements path c mem).2.2
  have whole := split_join some single
  rw [clean_of_elements some]
  split_ifs
  · exact (split_append_cons separator [] _).trans (congrArg _ whole)
  · exact whole

theorem isAbs_iff : isAbs path = true ↔ ∃ rest, path = separator :: rest := by
  rw [isAbs, hasPrefix, isPrefixOf_iff_prefix]
  exact exists_congr fun rest => eq_comm

/-- A path is absolute when the first of the parts it is split into is empty and not the only one. -/
theorem isAbs_iff_split : isAbs path = true ↔ ∃ part parts, split separator path = [] :: part :: parts := by
  rw [isAbs_iff]
  constructor
  · rintro ⟨rest, rfl⟩
    cases parts : split separator rest with
    | nil => exact absurd parts (split_ne_nil _ _)
    | cons part parts' =>
      refine ⟨part, parts', ?_⟩
      rw [split, if_pos rfl, parts]
  · rintro ⟨part, parts, split⟩
    refine ⟨Strings.join (part :: parts) [separator], ?_⟩
    rw [← join_split separator path, split]
    rfl

theorem isAbs_clean (path : Str) : isAbs (clean path) = isAbs path := by
  by_cases none : elements path = []
  · rw [clean_of_elements_eq_nil none]
    split_ifs with rooted
    · rw [rooted]; decide
    · rw [Bool.eq_false_iff.mpr rooted]; decide
  · rw [Bool.eq_iff_iff, isAbs_iff_split, split_clean none]
    by_cases rooted : isAbs path = true
    · obtain ⟨first, rest, some⟩ := exists_cons_of_ne_nil none
      rw [if_pos rooted, some]
      exact iff_of_true ⟨first, rest, rfl⟩ rooted
    · rw [if_neg rooted]
      refine iff_of_false ?_ rooted
      rintro ⟨_, _, split⟩
      have mem : [] ∈ elements path := by
        rw [← nil_append (elements path), split]
        exact mem_cons_self
      exact (plain_elements path [] mem).1 rfl

theorem start_clean (path : Str) : start cwd (clean path) = start cwd path := by
  rw [start, isAbs_clean, start]

@[simp] theorem locate_clean (path : Str) : locate cwd (clean path) = locate cwd path := by
  by_cases none : elements path = []
  · rw [← foldl_elements cwd path, none, locate, start_clean, clean_of_elements_eq_nil none]
    split_ifs <;> rfl
  · rw [locate, start_clean, split_clean none, ← foldl_elements cwd path]
    split_ifs <;> rfl

section Trailing

variable {path : Str} (named : path ≠ [])

include named

theorem isAbs_append_separator : isAbs (path ++ [separator]) = isAbs path := by
  obtain ⟨_, -, rfl⟩ := exists_cons_of_ne_nil named
  rw [Bool.eq_iff_iff, isAbs_iff, isAbs_iff]
  simp

theorem locate_append_separator : locate cwd (path ++ [separator]) = locate cwd path := by
  rw [locate, start, isAbs_append_separator named, split_append_cons, foldl_append]
  rfl

end Trailing

theorem split_join_cons (first : Str) (rest : List Str) :
    split separator (Strings.join (first :: rest) "/") = (first :: rest).flatMap (split separator) := by
  rw [str_slash]
  induction rest generalizing first with
  | nil => simp
  | cons next rest ih =>
    rw [join_cons_cons, append_assoc, singleton_append, split_append_cons, ih]
    rfl

theorem isAbs_join_cons (named : first ≠ []) (rest : List Str) :
    isAbs (Strings.join (first :: rest) "/") = isAbs first := by
  obtain ⟨b, first, rfl⟩ := exists_cons_of_ne_nil named
  have start : ∃ tail, Strings.join ((b :: first) :: rest) "/" = b :: tail := by
    cases rest with
    | nil => exact ⟨first, join_singleton _ _⟩
    | cons next rest => exact ⟨_, by rfl⟩
  obtain ⟨tail, start⟩ := start
  rw [Bool.eq_iff_iff, isAbs_iff, isAbs_iff, start]
  simp

/-- The elements of a joined path, before it is cleaned. -/
theorem elements_join (named : first ≠ []) (rest : List Str) : elements (Strings.join (first :: rest) "/") =
      (rest.flatMap (split separator)).foldl (step (isAbs first)) (elements first) := by
  rw [elements, split_join_cons, isAbs_join_cons named, flatMap_cons, foldl_append]
  rfl

theorem join_cons (named : first ≠ []) (rest : List Str) :
    join (first :: rest) = clean (Strings.join (first :: rest) "/") := by
  rw [join, dropWhile_cons_of_neg (by simpa using named)]

theorem locate_join (named : first ≠ []) (cwd : List Str) (rest : List Str) : locate cwd (join (first :: rest)) =
      (rest.flatMap (split separator)).foldl (step true) (locate cwd first) := by
  rw [join_cons named, locate_clean, locate, start, split_join_cons, isAbs_join_cons named,
    flatMap_cons, foldl_append]
  rfl

def names (parts : List Str) : List Str := parts.filter fun c => c ≠ [] ∧ c ≠ "."

theorem isName_of_mem_names (single : ∀ c ∈ parts, separator ∉ c)
    (level : str ".." ∉ parts) : ∀ c ∈ names parts, IsName c := by
  intro c mem
  obtain ⟨mem, proper⟩ := mem_filter.mp mem
  have proper : c ≠ [] ∧ c ≠ "." := by simpa using proper
  refine ⟨proper.1, proper.2, ?_, single c mem⟩
  rintro rfl
  exact level mem

/-- A path that never climbs leads to what it names. -/
theorem foldl_step_of_level (level : str ".." ∉ parts)
    (acc : List Str) : parts.foldl (step rooted) acc = acc ++ names parts := by
  induction parts generalizing acc with
  | nil => simp [names]
  | cons part rest ih =>
    rw [mem_cons, not_or] at level
    rw [foldl_cons, ih level.2, names, names, filter_cons]
    by_cases trivial : part = [] ∨ part = "."
    · have skipped : ¬ (decide (part ≠ [] ∧ part ≠ ".") = true) := by
        rw [decide_eq_true_eq]
        tauto
      rw [step_trivial trivial, if_neg skipped]
    · have kept : decide (part ≠ [] ∧ part ≠ ".") = true := by
        rw [decide_eq_true_eq]
        tauto
      rw [step, if_neg trivial, if_neg (Ne.symm level.1), if_pos kept, append_assoc]
      rfl

theorem foldl_step_of_isName (all : ∀ c ∈ init, IsName c) (acc : List Str) :
    init.foldl (step rooted) acc = acc ++ init := by
  induction init generalizing acc with
  | nil => simp
  | cons c init ih =>
    rw [foldl_cons, step_of_isName (all c mem_cons_self), ih fun c mem => all c (mem_cons_of_mem _ mem), append_assoc]
    rfl

/-- The shape of a relative path: first up, and then down. -/
theorem foldl_step_shape (single : ∀ c ∈ parts, separator ∉ c) :
    ∃ up down, parts.foldl (step false) [] = replicate up (str "..") ++ down ∧ ∀ c ∈ down, IsName c := by
  induction parts using reverseRecOn with
  | nil => exact ⟨0, [], rfl, by simp⟩
  | append_singleton init c ih =>
    obtain ⟨up, down, shape, named⟩ := ih fun c mem => single c (mem_append_left _ mem)
    rw [foldl_append, shape, foldl_cons, foldl_nil]
    by_cases trivial : c = [] ∨ c = "."
    · rw [step_trivial trivial]
      exact ⟨up, down, rfl, named⟩
    have proper := not_or.mp trivial
    by_cases climbs : c = ".."
    · subst climbs
      rcases eq_nil_or_concat down with rfl | ⟨front, last, rfl⟩
      · refine ⟨up + 1, [], ?_, by simp⟩
        rw [step_up, append_nil, append_nil, replicate_succ']
        cases up with
        | zero => rfl
        | succ up =>
          rw [replicate_succ', getLast?_concat]
          exact if_pos rfl
      · rw [concat_eq_append] at named ⊢
        refine ⟨up, front, ?_, fun d inside => named d (mem_append_left _ inside)⟩
        rw [← append_assoc, step_up_concat (named last (by simp)).notParent]
    · have name : IsName c := ⟨proper.1, proper.2, climbs, single c (by simp)⟩
      rw [step_of_isName name, append_assoc]
      refine ⟨up, down ++ [c], rfl, ?_⟩
      rw [forall_mem_append, forall_mem_singleton]
      exact ⟨named, name⟩

def segments (s : Str) : List Str := (split separator s).filter (· ≠ [])

@[simp] theorem segments_nil : segments [] = [] := rfl

theorem segments_append_cons (s t : Str) : segments (s ++ separator :: t) = segments s ++ segments t := by
  rw [segments, split_append_cons, filter_append]
  rfl

variable (s : Str)

@[simp] theorem segments_cons_separator : segments (separator :: s) = segments s :=
  segments_append_cons [] s

@[simp] theorem segments_append_separator : segments (s ++ [separator]) = segments s := by
  rw [segments_append_cons, segments_nil, append_nil]

theorem segments_dropWhile : segments (s.dropWhile (· == separator)) = segments s := by
  induction s with
  | nil => rfl
  | cons b rest ih =>
    rw [dropWhile_cons]
    split_ifs with here
    · rw [ih, eq_of_beq here, segments_cons_separator]
    · rfl

theorem segments_rdropWhile : segments (s.rdropWhile (· == separator)) = segments s := by
  induction s using reverseRecOn with
  | nil => rfl
  | append_singleton init b ih =>
    rw [rdropWhile_concat]
    split_ifs with here
    · rw [ih, eq_of_beq here, segments_append_separator]
    · rfl

/-- Making one slash of two changes the empty parts only, and not the first part. -/
theorem split_replaceFrom_slashes : ∀ s, ∃ first rest rest',
      split separator s = first :: rest ∧
      split separator (replaceFrom [separator, separator] [separator] 0 s) = first :: rest' ∧
      rest'.filter (· ≠ []) = rest.filter (· ≠ [])
  | [] => ⟨[], [], [], rfl, rfl, rfl⟩
  | b :: tail => by
    by_cases double : hasPrefix (b :: tail) [separator, separator] = true
    · obtain ⟨after, whole⟩ : ∃ after, b :: tail = separator :: separator :: after := by
        obtain ⟨after, h⟩ := isPrefixOf_iff_prefix.mp double
        exact ⟨after, h.symm⟩
      obtain ⟨rfl, rfl⟩ := cons.inj whole
      obtain ⟨first, rest, rest', split, split', same⟩ := split_replaceFrom_slashes after
      have replaced : replaceFrom [separator, separator] [separator] 0 (separator :: separator :: after) =
          separator :: replaceFrom [separator, separator] [separator] 0 after := by
        rfl
      refine ⟨[], [] :: first :: rest, first :: rest', ?_, ?_, ?_⟩
      · rw [Strings.split, if_pos rfl, Strings.split, if_pos rfl, split]
      · rw [replaced, Strings.split, if_pos rfl, split']
      · rw [filter_cons_of_neg (a := []) (by simp), filter_cons, filter_cons, same]
    · obtain ⟨first, rest, rest', split, split', same⟩ := split_replaceFrom_slashes tail
      have replaced : replaceFrom [separator, separator] [separator] 0 (b :: tail) =
          b :: replaceFrom [separator, separator] [separator] 0 tail := by
        rw [replaceFrom, if_neg double]
      rw [replaced, Strings.split, Strings.split, split, split']
      by_cases here : b = separator
      · rw [if_pos here, if_pos here]
        refine ⟨[], first :: rest, first :: rest', rfl, rfl, ?_⟩
        rw [filter_cons, filter_cons, same]
      · rw [if_neg here, if_neg here]
        exact ⟨b :: first, rest, rest', rfl, rfl, same⟩
termination_by s => s.length
decreasing_by all_goals simp_all

theorem segments_replaceAll_slashes : segments (replaceAll s [separator, separator] [separator]) = segments s := by
  obtain ⟨_, _, _, split, split', same⟩ := split_replaceFrom_slashes s
  rw [segments, replaceAll, split', segments, split, filter_cons, filter_cons, same]

theorem names_segments : names (segments s) = names (split separator s) := by
  unfold names segments
  rw [filter_filter]
  apply filter_congr
  intro c _
  by_cases empty : c = [] <;> simp [empty]

theorem mem_segments {s} : c ∈ segments s ↔ c ∈ split separator s ∧ c ≠ [] := by
  simp [segments]

theorem split_clean_snoc (parts : elements path = init ++ [last]) :
    split separator (clean path) = ((if isAbs path then [[]] else []) ++ init) ++ [last] := by
  rw [split_clean (by rw [parts]; simp), parts, append_assoc]

/-- A text written at the end of a cleaned path goes to its last element. -/
theorem locate_clean_append {tail} (parts : elements path = init ++ [last]) (out : separator ∉ tail)
    (name : IsName (last ++ tail)) :
    locate cwd (clean path ++ tail) = init.foldl (step true) (start cwd path) ++ [last ++ tail] := by
  have split := split_clean_snoc parts
  have longer := split_append_of_notMem out split
  have rooted : isAbs (clean path ++ tail) = isAbs path := by
    have plain := plain_elements path
    rw [parts] at plain
    rw [Bool.eq_iff_iff, isAbs_iff_split, longer]
    by_cases rooted : isAbs path = true
    · rw [if_pos rooted]
      cases init with
      | nil => exact iff_of_true ⟨_, [], rfl⟩ rooted
      | cons first rest => exact iff_of_true ⟨first, _, rfl⟩ rooted
    · rw [if_neg rooted]
      refine iff_of_false ?_ rooted
      rintro ⟨_, parts, split⟩
      cases init with
      | nil => simp at split
      | cons first rest =>
        have empty : first = [] := (cons.inj split).1
        exact (plain first (by simp)).1 empty
  rw [locate, longer, foldl_append, start, rooted, foldl_cons, step_of_isName name, start]
  split_ifs <;> rfl

theorem join_snoc (some : init ≠ []) (last sep : Str) :
    Strings.join (init ++ [last]) sep = Strings.join init sep ++ sep ++ last := by
  induction init with
  | nil => exact absurd rfl some
  | cons part rest ih =>
    cases rest with
    | nil => simp [join_cons_cons]
    | cons next rest =>
      have later := ih (cons_ne_nil _ _)
      rw [cons_append] at later
      rw [cons_append, cons_append, join_cons_cons, later, join_cons_cons]
      simp

/-- The directory of a path is the place of all its parts but the last. -/
theorem locate_dir (parts : split separator path = init ++ [last]) :
    locate cwd (dir path) = init.foldl (step true) (start cwd path) := by
  have single : separator ∉ last := by
    apply notMem_of_mem_split
    rw [parts]
    simp
  have whole : path = Strings.join (init ++ [[]]) [separator] ++ last := by
    rw [join_append, nil_append, ← parts, join_split]
  have front : path.rdropWhile (· != separator) = Strings.join (init ++ [[]]) [separator] := by
    have dropped : last.rdropWhile (· != separator) = [] := by
      rw [rdropWhile_eq_nil_iff]
      intro b mem
      simp only [bne_iff_ne]
      rintro rfl
      exact single mem
    by_cases none : init = []
    · subst none
      rw [whole]
      simpa [Strings.join] using dropped
    · rw [whole, join_snoc none]
      rw [rdropWhile, reverse_append]
      have early : ∀ b ∈ last.reverse, (b != separator) = true := by
        intro b mem
        simp only [bne_iff_ne]
        rintro rfl
        exact single (mem_reverse.mp mem)
      rw [dropWhile_append_of_pos early]
      simp
  have split : split separator (path.rdropWhile (· != separator)) = init ++ [[]] := by
    rw [front]
    apply split_join (by simp)
    intro part mem
    rcases mem_append.mp mem with early | final
    · apply notMem_of_mem_split
      rw [parts]
      exact mem_append_left _ early
    · rw [mem_singleton.mp final]
      exact not_mem_nil
  have rooted : isAbs (path.rdropWhile (· != separator)) = isAbs path := by
    rw [Bool.eq_iff_iff, isAbs_iff_split, isAbs_iff_split, split, parts]
    cases init with
    | nil => simp
    | cons first rest =>
      cases rest <;> simp
  rw [dir, locate_clean, locate, split, foldl_append, start, rooted]
  rfl

theorem locate_dir_clean (parts : elements path = init ++ [last]) :
    locate cwd (dir (clean path)) = init.foldl (step true) (start cwd path) := by
  have split := split_clean_snoc parts
  rw [locate_dir cwd split, start_clean]
  split_ifs <;> rfl

end Go.Filepath
