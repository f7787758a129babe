import SolidSidecar.Go.Filepath
import SolidSidecar.Go.Order
import SolidSidecar.Go.Time

/-!
# Files

A disk is a tree of named files and directories, kept as a map from places to what is there: every
place that holds something has a directory above it, which the type carries. Of the errors of the
system calls those are told apart that a caller can tell: only a missing file is an
`os.IsNotExist`. Permissions and links are left out, and a call fails for no other reason than what
stands on the disk.

A `Machine` is a disk together with the paths that were handed to the system so far.
-/

namespace Go
open Filepath List

inductive Node where
  | dir
  | file (data : Str) (modTime : Time)
  deriving DecidableEq, Repr

inductive OsError where
  | notExist
  | isDirectory
  | notDirectory
  | notEmpty
  deriving DecidableEq, Repr

abbrev Loc := List Str

structure Disk where
  nodes : GoMap Loc Node
  named : ∀ loc node, nodes.lookup loc = some node → ∀ c ∈ loc, IsName c
  rooted : ∀ loc c node, nodes.lookup (loc ++ [c]) = some node → loc = [] ∨ nodes.lookup loc = some .dir

namespace Disk

def empty : Disk := ⟨∅, by simp, by simp⟩

def node (d : Disk) (loc : Loc) : Option Node := if loc = [] then some .dir else d.nodes.lookup loc

def isFile : Option Node → Bool
  | some (.file _ _) => true
  | _ => false

@[simp] theorem node_nil (d : Disk) : d.node [] = some .dir := rfl

theorem node_snoc (d : Disk) (loc : Loc) (c : Str) : d.node (loc ++ [c]) = d.nodes.lookup (loc ++ [c]) :=
  if_neg (by simp)

variable {d : Disk} {loc : Loc} {c : Str} {n : Node}

theorem node_of_snoc (here : d.node (loc ++ [c]) = some n) : d.node loc = some .dir := by
  rw [node_snoc] at here
  unfold node
  split_ifs with top
  · rfl
  · exact (d.rooted loc c n here).resolve_left top

theorem node_of_append {below : List Str}
    (here : d.node (loc ++ below) = some n) (proper : below ≠ []) : d.node loc = some .dir := by
  induction below using reverseRecOn generalizing n with
  | nil => exact absurd rfl proper
  | append_singleton below c ih =>
    rw [← append_assoc] at here
    have parent := node_of_snoc here
    by_cases last : below = []
    · rwa [last, append_nil] at parent
    · exact ih parent last

theorem node_eq_none_of_append {below} (blocked : d.node loc ≠ some .dir)
    (proper : below ≠ []) : d.node (loc ++ below) = none := by
  cases here : d.node (loc ++ below) with
  | none => rfl
  | some n => exact absurd (node_of_append here proper) blocked

/-- Why nothing is found at a place: something above it is a file, or it is not there. -/
def reason (d : Disk) (loc : Loc) : OsError :=
  if loc.inits.any (fun p => p ≠ loc && isFile (d.node p)) then .notDirectory else .notExist

/-- In a directory, what is not there does not exist. -/
theorem reason_of_parent (parent : d.node loc = some .dir) : d.reason (loc ++ [c]) = .notExist := by
  have clear : ¬ ((loc ++ [c]).inits.any (fun p => p ≠ loc ++ [c] && isFile (d.node p))) = true := by
    rw [any_eq_true]
    rintro ⟨p, mem, found⟩
    simp only [Bool.and_eq_true, decide_eq_true_eq] at found
    obtain ⟨apart, file⟩ := found
    obtain ⟨below, whole⟩ := (mem_inits p _).mp mem
    have shorter : ∃ below, loc = p ++ below := by
      rcases eq_nil_or_concat below with rfl | ⟨init, last, rfl⟩
      · exact absurd (by simpa using whole) apart
      · rw [concat_eq_append, ← append_assoc] at whole
        exact ⟨init, (append_inj' whole rfl).1.symm⟩
    obtain ⟨below, rfl⟩ := shorter
    have above : d.node p = some .dir := by
      by_cases last : below = []
      · rwa [last, append_nil] at parent
      · exact node_of_append parent last
    rw [above] at file
    cases file
  exact if_neg clear

def readFile (d : Disk) (loc : Loc) : Except OsError Str :=
  match d.node loc with
  | some (.file data _) => .ok data
  | some .dir => .error .isDirectory
  | none => .error (d.reason loc)

def stat (d : Disk) (loc : Loc) : Except OsError Node :=
  match d.node loc with
  | some n => .ok n
  | none => .error (d.reason loc)

def children (d : Disk) (loc : Loc) : List Str :=
  d.nodes.keys.filterMap fun p => if p ≠ [] ∧ p.dropLast = loc then p.getLast? else none

/-- `os.ReadDir`: the entries in the order of their names, with whether each is a directory. -/
def readDir (d : Disk) (loc : Loc) : Except OsError (List (Str × Bool)) :=
  match d.node loc with
  | some .dir =>
    .ok (((d.children loc).insertionSort Str.LE).map fun c => (c, d.node (loc ++ [c]) == some .dir))
  | some (.file _ _) => .error .notDirectory
  | none => .error (d.reason loc)

theorem mem_children : c ∈ d.children loc ↔ (d.node (loc ++ [c])).isSome = true := by
  rw [node_snoc, AList.lookup_isSome, children, mem_filterMap]
  constructor
  · rintro ⟨_, mem, found⟩
    split_ifs at found with inside
    obtain ⟨_, rfl⟩ := getLast?_eq_some_iff.mp found
    rw [dropLast_concat] at inside
    rwa [inside.2] at mem
  · intro mem
    refine ⟨loc ++ [c], mem, ?_⟩
    rw [if_pos ⟨by simp, dropLast_concat⟩, getLast?_concat]

theorem mem_readDir {entries} (read : d.readDir loc = .ok entries) {isDir} :
    (c, isDir) ∈ entries ↔ (d.node (loc ++ [c])).isSome = true ∧ isDir = (d.node (loc ++ [c]) == some .dir) := by
  unfold readDir at read
  split at read
  · cases read
    simp only [mem_map, mem_insertionSort, mem_children, Prod.mk.injEq]
    constructor
    · rintro ⟨c, mem, rfl, rfl⟩
      exact ⟨mem, rfl⟩
    · rintro ⟨mem, rfl⟩
      exact ⟨c, mem, rfl, rfl⟩
  · cases read
  · cases read

theorem isName_of_node (here : (d.node (loc ++ [c])).isSome = true) : IsName c := by
  rw [node_snoc] at here
  obtain ⟨n, found⟩ := Option.isSome_iff_exists.mp here
  exact d.named _ n found c (by simp)

/-- Put something at a place in a directory; a directory is not replaced by a file. -/
def put (d : Disk) (loc : Loc) (n : Node) (names : ∀ c ∈ loc, IsName c)
    (parent : d.node loc.dropLast = some .dir) (kept : d.node loc = some .dir → n = .dir) : Disk where
  nodes := d.nodes.insert loc n
  named := by
    intro p n' found
    rw [GoMap.lookup_insert_eq] at found
    split_ifs at found with same
    · rw [same]
      exact names
    · exact d.named p n' found
  rooted := by
    intro p c n' found
    by_cases top : p = []
    · exact .inl top
    refine .inr ?_
    rw [GoMap.lookup_insert_eq] at found ⊢
    have above : d.nodes.lookup p = some .dir := by
      split_ifs at found with same
      · subst same
        rw [dropLast_concat] at parent
        rwa [node, if_neg top] at parent
      · exact (d.rooted p c n' found).resolve_left top
    split_ifs with same
    · subst same
      rw [kept (by rw [node, if_neg top, above])]
    · exact above

def withDirs (m : GoMap Loc Node) (ps : List Loc) : GoMap Loc Node :=
  ps.foldl (fun m p => m.insert p .dir) m

theorem lookup_withDirs (m : GoMap Loc Node) (ps : List Loc) (p : Loc) :
    (withDirs m ps).lookup p = if p ∈ ps then some .dir else m.lookup p := by
  unfold withDirs
  induction ps generalizing m with
  | nil => simp
  | cons q ps ih =>
    rw [foldl_cons, ih, GoMap.lookup_insert_eq]
    by_cases later : p ∈ ps
    · simp [later]
    · by_cases here : p = q
      · simp [here]
      · simp [later]

/-- Make a place and everything above it directories. -/
def mkdirs (d : Disk) (loc : Loc) (names : ∀ c ∈ loc, IsName c) : Disk where
  nodes := withDirs d.nodes loc.inits
  named := by
    intro p n found c inside
    rw [lookup_withDirs] at found
    split_ifs at found with above
    · exact names c (((mem_inits p loc).mp above).subset inside)
    · exact d.named p n found c inside
  rooted := by
    intro p c n found
    by_cases top : p = []
    · exact .inl top
    refine .inr ?_
    rw [lookup_withDirs] at found ⊢
    split_ifs with mem
    · rfl
    · split_ifs at found with below
      · have shorter := (mem_inits _ _).mp below
        exact absurd ((mem_inits _ _).mpr ((prefix_append p [c]).trans shorter)) mem
      · exact (d.rooted p c n found).resolve_left top

theorem node_mkdirs (d : Disk) (loc : Loc) (names : ∀ c ∈ loc, IsName c) (p : Loc) :
    (d.mkdirs loc names).node p = if p <+: loc then some .dir else d.node p := by
  unfold node
  by_cases top : p = []
  · rw [if_pos top, top, if_pos nil_prefix]
  · rw [if_neg top, if_neg top, mkdirs, lookup_withDirs]
    simp

def erase (d : Disk) (loc : Loc) (bare : ∀ c, d.node (loc ++ [c]) = none) : Disk where
  nodes := d.nodes.erase loc
  named := by
    intro p node found
    exact d.named p node (GoMap.erase_sub d.nodes loc p node found)
  rooted := by
    intro p c node found
    have before := GoMap.erase_sub d.nodes loc (p ++ [c]) node found
    rcases d.rooted p c node before with top | above
    · exact .inl top
    · refine .inr ?_
      rw [GoMap.lookup_erase_eq, if_neg ?_]
      · exact above
      · rintro rfl
        have none := bare c
        rw [node_snoc, before] at none
        cases none

def writeFile (d : Disk) (now : Time) (loc : Loc) (names : ∀ c ∈ loc, IsName c) (data : Str) :
    Except OsError Unit × Disk :=
  if there : d.node loc = some .dir then (.error .isDirectory, d)
  else if parent : d.node loc.dropLast = some .dir then
    (.ok (), d.put loc (.file data now) names parent fun dir => absurd dir there)
  else (.error (d.reason loc), d)

def mkdirAll (d : Disk) (loc : Loc) (names : ∀ c ∈ loc, IsName c) : Except OsError Unit × Disk :=
  if loc.inits.any (fun p => isFile (d.node p)) then (.error .notDirectory, d)
  else (.ok (), d.mkdirs loc names)

theorem bare_of_children (none : d.children loc = []) (c : Str) : d.node (loc ++ [c]) = .none := by
  cases here : d.node (loc ++ [c]) with
  | none => rfl
  | some n =>
    have mem : c ∈ d.children loc := mem_children.mpr (by rw [here]; rfl)
    rw [none] at mem
    cases mem

/-- `os.Remove`: a file, or a directory with nothing in it. -/
def remove (d : Disk) (loc : Loc) : Except OsError Unit × Disk :=
  match d.node loc with
  | none => (.error (d.reason loc), d)
  | some _ =>
    if bare : loc ≠ [] ∧ d.children loc = [] then (.ok (), d.erase loc (bare_of_children bare.2))
    else (.error .notEmpty, d)

theorem node_put {names parent kept} (p : Loc) :
    (d.put loc n names parent kept).node p = if p = loc then some n else d.node p := by
  unfold node
  by_cases top : p = []
  · subst top
    rw [if_pos rfl, if_pos rfl]
    split_ifs with same
    · subst same
      rw [kept rfl]
    · rfl
  · rw [if_neg top, if_neg top, put, GoMap.lookup_insert_eq]

/-- A disk with one file and the directories above it. -/
def single (loc : Loc) (c data : Str) (time : Time) (names : ∀ n ∈ loc ++ [c], IsName n) : Disk :=
  (empty.mkdirs loc fun n mem => names n (mem_append_left _ mem)).put (loc ++ [c]) (.file data time) names
    (by rw [dropLast_concat, node_mkdirs, if_pos prefix_rfl])
    (by
      intro here
      have longer : ¬ loc ++ [c] <+: loc := by
        intro shorter
        have bound := shorter.length_le
        rw [length_append, length_singleton] at bound
        omega
      rw [node_mkdirs, if_neg longer, node_snoc] at here
      cases here)

theorem node_single {data time names} (p : Loc) : (single loc c data time names).node p =
      if p = loc ++ [c] then some (.file data time) else if p <+: loc then some .dir else none := by
  rw [single, node_put, node_mkdirs]
  split_ifs with _ above
  · rfl
  · rfl
  · have proper : p ≠ [] := fun top => above (top ▸ nil_prefix)
    rw [node, if_neg proper]
    rfl

/-- A file can be written where the directory is there and no directory is in the way. -/
def Writable (d : Disk) (loc : Loc) : Prop := d.node loc ≠ some .dir ∧ d.node loc.dropLast = some .dir

instance (d : Disk) (loc : Loc) : Decidable (d.Writable loc) := inferInstanceAs (Decidable (_ ∧ _))

def Clear (d : Disk) (loc : Loc) : Prop := ∀ p, p <+: loc → isFile (d.node p) = false

theorem any_isFile_iff : (loc.inits.any fun p => isFile (d.node p)) = false ↔ d.Clear loc := by
  rw [any_eq_false]
  constructor
  · intro none p above
    exact Bool.eq_false_iff.mpr (none p ((mem_inits p loc).mpr above))
  · intro clear p mem
    rw [clear p ((mem_inits p loc).mp mem)]
    exact Bool.false_ne_true

instance (d : Disk) (loc : Loc) : Decidable (d.Clear loc) := decidable_of_iff _ any_isFile_iff

section Calls

variable {d : Disk} {loc : Loc} {now : Time} {data : Str}

theorem writeFile_eq_ok {names} : (d.writeFile now loc names data).1 = .ok () ↔ d.Writable loc := by
  unfold writeFile Writable
  split_ifs with there parent
  · simp [there]
  · simp [there, parent]
  · simp [parent]

theorem node_writeFile {names} (p : Loc) : (d.writeFile now loc names data).2.node p =
      if p = loc ∧ d.Writable loc then some (.file data now) else d.node p := by
  unfold writeFile Writable
  split_ifs
  · simp_all
  · simp_all
  · rw [node_put]
    simp_all
  · rw [node_put]
    simp_all
  · simp_all
  · simp_all

/-- Writing a file neither makes nor removes a directory. -/
theorem node_writeFile_eq_dir {names p} :
    (d.writeFile now loc names data).2.node p = some .dir ↔ d.node p = some .dir := by
  rw [node_writeFile]
  split_ifs with written
  · obtain ⟨rfl, free, _⟩ := written
    simp [free]
  · rfl

theorem mkdirAll_eq_ok {names} : (d.mkdirAll loc names).1 = .ok () ↔ d.Clear loc := by
  rw [← any_isFile_iff]
  unfold mkdirAll
  split_ifs with blocked <;> simp [blocked]

theorem node_mkdirAll {names} (p : Loc) :
    (d.mkdirAll loc names).2.node p = if p <+: loc ∧ d.Clear loc then some .dir else d.node p := by
  unfold mkdirAll
  split_ifs with blocked inside inside
  · rw [any_isFile_iff.mpr inside.2] at blocked
    cases blocked
  · rfl
  · rw [node_mkdirs, if_pos inside.1]
  · rw [node_mkdirs, if_neg]
    exact fun above => inside ⟨above, any_isFile_iff.mp (Bool.eq_false_iff.mpr blocked)⟩

end Calls

section Single

variable {loc : Loc} {c data : Str} {time : Time} {names : ∀ n ∈ loc ++ [c], IsName n}

theorem clear_single {dirs : Loc} (notAbove : ¬ loc ++ [c] <+: dirs) : (single loc c data time names).Clear dirs := by
  intro p above
  rw [node_single]
  split_ifs with here
  · rw [here] at above
    exact absurd above notAbove
  · rfl
  · rfl

theorem node_single_ne_dir {p : Loc} (notAbove : ¬ p <+: loc) :
    (single loc c data time names).node p ≠ some .dir := by
  rw [node_single]
  split_ifs <;> simp

end Single

theorem readFile_eq_ok {data} : d.readFile loc = .ok data ↔ ∃ time, d.node loc = some (.file data time) := by
  unfold readFile
  split
  · rename_i _ _ here
    simp [here]
  · rename_i here
    simp [here]
  · rename_i here
    simp [here]

end Disk

/-- The system that a program runs on: its working directory, what it reports for the size and the time
of a directory, and how it writes an instant in the local time zone. -/
structure System where
  cwd : Loc
  absolute : ∀ c ∈ cwd, IsName c
  dirInfo : Disk → Loc → Int × Time
  localTime : Time → Str

namespace System

variable (sys : System)

def locate (path : Str) : Loc := Filepath.locate sys.cwd path

theorem isName_locate (path : Str) : ∀ c ∈ sys.locate path, IsName c :=
  Filepath.isName_locate sys.absolute path

end System

structure FileInfo where
  isDir : Bool
  size : Int
  modTime : Time
  deriving DecidableEq, Repr

/-- A disk, and the paths that were handed to the system so far. -/
structure Machine where
  disk : Disk
  touched : List Str := []

namespace Machine

variable (sys : System)

def touch (m : Machine) (path : Str) : Machine := { m with touched := m.touched ++ [path] }

def readFile (path : Str) (m : Machine) : Except OsError Str × Machine :=
  (m.disk.readFile (sys.locate path), m.touch path)

def readDir (path : Str) (m : Machine) : Except OsError (List (Str × Bool)) × Machine :=
  (m.disk.readDir (sys.locate path), m.touch path)

def stat (path : Str) (m : Machine) : Except OsError FileInfo × Machine :=
  let info := (m.disk.stat (sys.locate path)).map fun
    | .file data time => ⟨false, data.length, time⟩
    | .dir => ⟨true, (sys.dirInfo m.disk (sys.locate path)).1, (sys.dirInfo m.disk (sys.locate path)).2⟩
  (info, m.touch path)

def writeFile (now : Time) (path data : Str) (m : Machine) : Except OsError Unit × Machine :=
  let result := m.disk.writeFile now (sys.locate path) (sys.isName_locate path) data
  (result.1, { m.touch path with disk := result.2 })

def mkdirAll (path : Str) (m : Machine) : Except OsError Unit × Machine :=
  let result := m.disk.mkdirAll (sys.locate path) (sys.isName_locate path)
  (result.1, { m.touch path with disk := result.2 })

def remove (path : Str) (m : Machine) : Except OsError Unit × Machine :=
  let result := m.disk.remove (sys.locate path)
  (result.1, { m.touch path with disk := result.2 })

end Machine

end Go
