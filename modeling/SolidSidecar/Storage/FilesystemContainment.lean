import SolidSidecar.Storage.FilesystemSpec

/-!
# Which calls stay inside the root path

Every call that passes the checks in front of the filesystem backend, with the condition on the root path,
the state of the backend and the disk under which all that it hands to the system lies inside the root path.
The checks stop a `..` in the URI of a resource. They do not stop one in a content address or in the URI of a
tombstone, nor a URI such as `/.`, which names the root itself and so keeps its metadata beside the root. A
listing turns paths back into URIs: it cuts off the root path as it was configured, which a root path such as
`./..` does not survive, and makes slashes of the backslashes in the name of a file.
-/

namespace Storage
open Go Filepath Json Rfc3339 Run List FilesystemBackend Site Disk

namespace Site

variable (site : Site) {rest : List Str}

/-- The names of the root path that a path goes up over. -/
def left (rest : List Str) : List Str :=
  let root := site.sys.locate site.rootPath
  root.drop (root.length - (relative rest).count (str ".."))

def down (rest : List Str) : List Str := (relative rest).filter (· ≠ str "..")

/-- The cleaned root path ends in no name: it is `/`, `.` or a climb such as `../..`. -/
def Nameless : Prop := ∀ last ∈ (elements site.rootPath).getLast?, last = ".."

/-- A URI without `..` names something below the root path, or the root path has no name beside which a
file could be. -/
def Below (uri : Str) : Prop := resourceNames uri ≠ [] ∨ site.Nameless

/-- The path of a URI comes back through all that it went up over, and then there is a name left. -/
def Keeps (uri : Str) : Prop :=
  site.left [safeURI uri] <+: down [safeURI uri] ∧
    (site.left [safeURI uri] = down [safeURI uri] → down [safeURI uri] = [] ∧ site.Nameless)

theorem relative_eq (rest : List Str) :
    relative rest = replicate ((relative rest).count (str "..")) (str "..") ++ down rest ∧
      ∀ c ∈ down rest, IsName c := by
  obtain ⟨up, names, shape, named⟩ : ∃ up names, relative rest = replicate up (str "..") ++ names ∧
      ∀ c ∈ names, IsName c := foldl_step_shape fun _ mem => single_of_mem_partsOf mem
  have proper : str ".." ∉ names := fun mem => (named _ mem).notParent rfl
  have same : down rest = names := by
    have kept : names.filter (· ≠ str "..") = names := by
      rw [filter_eq_self]
      exact fun c mem => decide_eq_true (named c mem).notParent
    rw [down, shape, filter_append, kept, filter_eq_nil_iff.mpr (by simp), nil_append]
  have climbs : (relative rest).count (str "..") = up := by
    rw [shape, count_append, count_replicate_self, count_eq_zero_of_not_mem proper, Nat.add_zero]
  rw [climbs, same]
  exact ⟨shape, named⟩

/-- Going up from a place takes its last names away. -/
theorem foldl_step_up {place : List Str} (named : ∀ c ∈ place, IsName c) (n : Nat) :
    (replicate n (str "..")).foldl (step true) place = place.take (place.length - n) := by
  induction n generalizing place with
  | zero => simp
  | succ n ih =>
    rw [replicate_succ, foldl_cons]
    rcases eq_nil_or_concat' place with rfl | ⟨init, last, rfl⟩
    · exact (ih named).trans (by simp)
    · rw [step_up_concat (named last (by simp)).notParent, ih fun c mem => named c (mem_append_left _ mem),
        length_append, length_singleton, Nat.add_sub_add_right, take_append_of_le_length (Nat.sub_le _ _)]

/-- A path shares with the root path what it does not go up over. -/
theorem locate_join_down (rest : List Str) : ∃ common, site.sys.locate site.rootPath = common ++ site.left rest ∧
      site.sys.locate (join (site.rootPath :: rest)) = common ++ down rest := by
  obtain ⟨shape, named⟩ := relative_eq rest
  refine ⟨_, (take_append_drop _ _).symm, ?_⟩
  rw [locate_join_eq]
  nth_rewrite 1 [shape]
  rw [foldl_append, foldl_step_up (site.sys.isName_locate _), foldl_step_of_isName named]

variable {site}

theorem inside_join_iff : site.Inside (join (site.rootPath :: rest)) ↔ site.left rest <+: down rest := by
  obtain ⟨common, root, lead⟩ := locate_join_down site rest
  rw [Inside, lead, root]
  exact prefix_append_right_inj _

theorem not_prefix_beside (base : List Str) (name : Str) : ¬ base ++ [name] <+: base ++ [name ++ ".meta.json"] := by
  intro inside
  have same := (append_inj (inside.eq_of_length (by simp)) rfl).2
  exact absurd (self_eq_append_right.mp (cons.inj same).1) (by decide)

theorem elements_join_none (site : Site) (none : relative rest = []) :
    elements (Strings.join (site.rootPath :: rest) "/") = elements site.rootPath := by
  rw [elements_join_level (by rw [none]; exact not_mem_nil), none, append_nil]

section Root

variable (none : relative rest = [])

include none

/-- A root path with a name has files beside it and a directory above it. -/
theorem not_inside_beside (named : ¬ site.Nameless) : ¬ site.Inside (join (site.rootPath :: rest) ++ ".meta.json") ∧
      ¬ site.Inside (dir (join (site.rootPath :: rest))) := by
  obtain ⟨last, found, proper⟩ : ∃ last, (elements site.rootPath).getLast? = some last ∧ last ≠ ".." := by
    simpa [Nameless] using named
  obtain ⟨front, whole⟩ := getLast?_eq_some_iff.mp found
  have name : IsName last := (plain_elements _ last (by rw [whole]; simp)).isName proper
  obtain ⟨base, root, beside, above⟩ := places_of_last ((elements_join_none site none).trans whole) name
  rw [locate_join_eq, none, foldl_nil] at root
  rw [Inside, beside, Inside, root, above]
  refine ⟨not_prefix_beside base last, fun inside => ?_⟩
  have length := inside.length_le
  simp at length

/-- Without a name there is nothing outside that these could be. -/
theorem inside_beside (nameless : site.Nameless) : site.Inside (join (site.rootPath :: rest) ++ ".meta.json") ∧
      site.Inside (dir (join (site.rootPath :: rest))) := by
  have same := elements_join_none site none
  have root : site.sys.locate site.rootPath = (elements site.rootPath).foldl (step true)
      (start site.sys.cwd (Strings.join (site.rootPath :: rest) "/")) := by
    rw [start, isAbs_join_cons site.named]
    exact (foldl_elements _ _).symm
  rcases eq_nil_or_concat' (elements site.rootPath) with empty | ⟨front, last, whole⟩
  · rw [empty] at same root
    rw [Inside, Inside, root, join_cons site.named, clean_of_elements_eq_nil same, start]
    split_ifs
    · exact ⟨ nil_prefix, nil_prefix⟩
    · exact ⟨prefix_append _ _, prefix_rfl⟩
  · have climbs : last = ".." := nameless last (by rw [whole]; simp)
    subst climbs
    have named : ∀ c ∈ front.foldl (step true) (start site.sys.cwd (Strings.join (site.rootPath :: rest) "/")),
        IsName c := by
      apply isName_foldl
      · intro c mem
        exact (plain_elements site.rootPath c (by rw [whole]; exact mem_append_left _ mem)).2.2
      · unfold start
        split_ifs
        · simp
        · exact site.sys.absolute
    have up := foldl_step_up named 1
    rw [whole, foldl_append] at root
    rw [Inside, Inside, root, join_cons site.named, System.locate, System.locate,
      locate_clean_append _ (same.trans whole) (by decide) (by decide), locate_dir_clean _ (same.trans whole)]
    have shorter := up.symm ▸ take_prefix _ _
    exact ⟨shorter.trans (prefix_append _ _), shorter⟩

end Root

section Files

variable {uri : Str}

theorem inside_files_of_level (site : Site) (level : str ".." ∉ segments uri) :
    (site.Inside (site.metadataPath uri) ↔ site.Below uri) ∧
      (site.Inside (dir (site.uriToPath uri)) ↔ site.Below uri) := by
  by_cases some : resourceNames uri = []
  · have none : relative [safeURI uri] = [] := (relative_uri level).trans some
    by_cases nameless : site.Nameless
    · have inside := inside_beside none nameless
      exact ⟨iff_of_true inside.1 (.inr nameless), iff_of_true inside.2 (.inr nameless)⟩
    · have outside := not_inside_beside none nameless
      have not : ¬ site.Below uri := not_or.mpr ⟨not_not.mpr some, nameless⟩
      exact ⟨iff_of_false outside.1 not, iff_of_false outside.2 not⟩
  · have inside : site.Inside (site.metadataPath uri) ∧ site.Inside (dir (site.uriToPath uri)) :=
      inside_beside_join (level_uri level) (by rwa [relative_uri level])
    exact ⟨iff_of_true inside.1 (.inl some), iff_of_true inside.2 (.inl some)⟩

theorem inside_files_iff :
    site.Inside (site.uriToPath uri) ∧ site.Inside (site.metadataPath uri) ↔ site.Keeps uri := by
  unfold metadataPath uriToPath
  rw [inside_join_iff]
  refine and_congr_right fun returns => ?_
  generalize [safeURI uri] = rest at returns ⊢
  obtain ⟨shape, named⟩ := relative_eq rest
  rcases eq_nil_or_concat' (down rest) with none | ⟨init, last, whole⟩
  · rw [none, prefix_nil] at returns
    have equal : site.left rest = down rest := returns.trans none.symm
    have lost := drop_eq_nil_iff.mp returns
    have either : (relative rest).count (str "..") = 0 ∨ (site.sys.locate site.rootPath).length = 0 := by
      omega
    simp only [equal, none, true_and, forall_const]
    rcases either with level | top
    · rw [level, none] at shape
      exact ⟨fun inside => by_contra fun named => (not_inside_beside shape named).1 inside,
        fun nameless => (inside_beside shape nameless).1⟩
    · have all (path : Str) : site.Inside path := by
        rw [Inside, length_eq_zero_iff.mp top]
        exact nil_prefix
      have none : relative [] = [] := rfl
      exact iff_of_true (all _) (by_contra fun named => (not_inside_beside none named).1 (all _))
  · have name : IsName last := named last (by rw [whole]; simp)
    have parts : elements (Strings.join (site.rootPath :: rest) "/") =
        (replicate ((relative rest).count (str "..")) (str "..") ++ init).foldl
          (step (isAbs site.rootPath)) (elements site.rootPath) ++ [last] := by
      rw [elements_join site.named, ← step_of_isName name (isAbs site.rootPath)]
      refine (foldl_relative _ rest _).symm.trans ?_
      nth_rewrite 1 [shape]
      rw [whole, ← append_assoc, foldl_append]
      rfl
    obtain ⟨base, place, beside, -⟩ := places_of_last parts name
    obtain ⟨common, root, lead⟩ := locate_join_down site rest
    have same : site.left rest = down rest ↔ site.sys.locate site.rootPath = base ++ [last] := by
      rw [← place, lead, root, append_cancel_left_eq]
    have inside : site.sys.locate site.rootPath <+: base ++ [last] := place ▸ inside_join_iff.mpr returns
    rw [same, Inside, beside]
    -- The file beside it is inside unless the path leads to the root itself.
    rcases prefix_concat_iff.mp inside with equal | above
    · refine iff_of_false (equal ▸ not_prefix_beside base last) fun only => ?_
      exact absurd (only equal).1 (by simp [whole])
    · refine iff_of_true (above.trans (prefix_append _ _)) fun equal => ?_
      rw [equal] at above
      have length := above.length_le
      simp at length

end Files

end Site
namespace FilesystemBackend

theorem bind_assoc {α β γ : Type} (x : Fs α) (f : α → Fs β) (g : β → Fs γ) :
    (x >>= f) >>= g = x >>= fun a => f a >>= g := by
  funext b
  rw [Proc.bind_apply, Proc.bind_apply, Proc.bind_apply]
  rcases x b with ⟨_ | _, _⟩ <;> rfl

/-- The paths that a method hands to the system in a state all have a property exactly when something holds. -/
def Hands (P : Str → Prop) {α : Type} (x : Fs α) (b : FilesystemBackend) (fits : Prop) : Prop :=
  ∃ paths, (x b).2.machine.touched = b.machine.touched ++ paths ∧ ((∀ path ∈ paths, P path) ↔ fits)

namespace Hands

variable {P : Str → Prop} {α β : Type} {b : FilesystemBackend} {fits : Prop}

theorem iff {x : Fs α} {fits'} (hands : Hands P x b fits) (same : fits ↔ fits') : Hands P x b fits' := by
  obtain ⟨paths, log, all⟩ := hands
  exact ⟨paths, log, all.trans same⟩

theorem of_touches {x : Fs α} (touches : Touches P x) : Hands P x b True := by
  obtain ⟨paths, log, all⟩ := touches b
  exact ⟨paths, log, iff_of_true all trivial⟩

theorem os {call : Machine → α × Machine} {path} {f : α → Fs β}
    (logged : ∀ m, (call m).2.touched = m.touched ++ [path])
    (second : Hands P (f (call b.machine).1) { b with machine := (call b.machine).2 } fits) :
    Hands P (os call >>= f) b (P path ∧ fits) := by
  obtain ⟨paths, log, all⟩ := second
  refine ⟨path :: paths, ?_, by simp [all]⟩
  rw [os_bind_apply, log, logged]
  simp

/-- A path decides when what comes after it has the property whenever it has. -/
theorem decides {call : Machine → α × Machine} {path} {f : α → Fs β}
    (logged : ∀ m, (call m).2.touched = m.touched ++ [path]) (rest : ∀ a, Touches (fun p => P path → P p) (f a)) :
    Hands P (Storage.os call >>= f) b (P path) := by
  obtain ⟨paths, log, follow⟩ := rest (call b.machine).1 { b with machine := (call b.machine).2 }
  exact (os logged ⟨paths, log, Iff.rfl⟩).iff ⟨And.left, fun first => ⟨first, fun p mem => follow p mem first⟩⟩

theorem must {call : Machine → Except OsError α × Machine} {path format} {f : α → Fs β}
    (logged : ∀ m, (call m).2.touched = m.touched ++ [path]) (fit : P path)
    (second : ∀ a, (call b.machine).1 = .ok a → Hands P (f a) { b with machine := (call b.machine).2 } fits) :
    Hands P (Storage.os call >>= fun result => orFail format result >>= f) b
      ((∀ a, (call b.machine).1 ≠ .ok a) ∨ fits) := by
  cases done : (call b.machine).1 with
  | error err =>
    have rest : Hands P (orFail format (call b.machine).1 >>= f) { b with machine := (call b.machine).2 } True := by
      rw [done]
      exact of_touches (.fail _)
    exact (os logged rest).iff (by simp [fit])
  | ok a =>
    have rest : Hands P (orFail format (call b.machine).1 >>= f) { b with machine := (call b.machine).2 } fits := by
      rw [done]
      exact second a done
    exact (os logged rest).iff (by simp [fit])

theorem of {result : Except FsError α} {f : α → Fs β} {a} (accepted : result = .ok a)
    (second : Hands P (f a) b fits) : Hands P (Proc.of result >>= f) b fits := by
  subst accepted
  exact second

theorem refuse {bad} [Decidable bad] {err} {f : Unit → Fs β} (good : ¬ bad) (second : Hands P (f ()) b fits) :
    Hands P (Proc.of (refuse bad err) >>= f) b fits :=
  of (if_neg good) second

theorem checked {result : Except StorageError α} {f : α → Fs β} {a} (accepted : result = .ok a)
    (second : Hands P (f a) b fits) : Hands P (FilesystemBackend.checked result >>= f) b fits := by
  subst accepted
  exact second

/-- A check that may fail, and then nothing is handed over. -/
theorem checkedThen {result : Except StorageError α} {f : α → Fs β} {fits : α → Prop}
    (second : ∀ a, result = .ok a → Hands P (f a) b (fits a)) :
    Hands P (FilesystemBackend.checked result >>= f) b (∀ a, result = .ok a → fits a) := by
  cases result with
  | error err => exact (of_touches (.fail _)).iff (by simp)
  | ok a => exact (second a rfl).iff (by simp)

theorem checkClosed {f : Unit → Fs β} (second : b.closed = false → Hands P (f ()) b fits) :
    Hands P (FilesystemBackend.checkClosed >>= f) b (b.closed = true ∨ fits) := by
  cases shut : b.closed with
  | true =>
    refine ⟨[], ?_, by simp⟩
    rw [Proc.bind_apply, FilesystemBackend.checkClosed, shut]
    simp
  | false =>
    obtain ⟨paths, log, all⟩ := second shut
    refine ⟨paths, ?_, by simp [all]⟩
    rw [← log, Proc.bind_apply, FilesystemBackend.checkClosed, shut]
    rfl

theorem modify {g} {f : Unit → Fs β} (same : (g b).machine = b.machine) (second : Hands P (f ()) (g b) fits) :
    Hands P (Proc.modify g >>= f) b fits := by
  obtain ⟨paths, log, all⟩ := second
  exact ⟨paths, by rw [← same]; exact log, all⟩

theorem tombstoned {uri} {f : Bool → Fs β} (second : Hands P (f (b.tombstones.lookup uri).isSome) b fits) :
    Hands P (isTombstoned uri >>= f) b fits := second

end Hands

section Listing

variable (site : Site) (b : FilesystemBackend)

/-- The path of a container, with a slash at its end. -/
def containerPath (uri : Str) : Str :=
  if Strings.hasSuffix (site.uriToPath uri) "/" then site.uriToPath uri else site.uriToPath uri ++ "/"

/-- The URI under which a listing looks an entry up. -/
def entryURI (containerURI name : Str) : Str := site.pathToURI (join [containerPath site containerURI, name])

/-- An entry is looked up when it is a file, but none of metadata, and has no tombstone. -/
def lookedUp (containerURI : Str) (e : Str × Bool) : Bool :=
  !(e.2 || Strings.hasSuffix e.1 ".meta.json") && (b.tombstones.lookup (entryURI site containerURI e.1)).isNone

variable [Unicode]

/-- A file of metadata that can be read is there, or none but the resource is. -/
def described (uri : Str) : Bool :=
  match b.machine.disk.readFile (site.metaLoc uri) with
  | .ok text => (unmarshalMetadata text).isSome
  | .error .notExist => (b.node (site.bodyLoc uri)).isSome
  | .error _ => false

def listed (containerURI : Str) (e : Str × Bool) : Bool :=
  lookedUp site b containerURI e && described site b (entryURI site containerURI e.1)

/-- The entries that are looked up, until the listing is full, keep below the root path under their URIs. One
that does not is harmless when its metadata are found inside. -/
def ListsInside (containerURI : Str) (entries : List (Str × Bool)) : Prop :=
  ∀ before e after, entries = before ++ e :: after → lookedUp site b containerURI e = true →
    before.countP (listed site b containerURI) ≤ maxResourceCountPerList →
    site.Keeps (entryURI site containerURI e.1) ∨ site.Inside (site.metadataPath (entryURI site containerURI e.1)) ∧
        b.machine.disk.readFile (site.metaLoc (entryURI site containerURI e.1)) ≠ .error .notExist

end Listing

/-- A backend that has handed more paths to the system. -/
def logged (b : FilesystemBackend) (paths : List Str) : FilesystemBackend :=
  { b with machine := ⟨b.machine.disk, b.machine.touched ++ paths⟩ }

/-- A method that only looks at the disk: when it succeeds, and when all the paths that it hands to the system
have a property. -/
def Looks (P : Str → Prop) {α : Type} (x : Fs α) (b : FilesystemBackend) (good fits : Prop) : Prop :=
  ∃ paths, (x b).2 = logged b paths ∧ ((∃ a, (x b).1 = .ok a) ↔ good) ∧ ((∀ path ∈ paths, P path) ↔ fits)

namespace Looks

variable {P : Str → Prop} {α β : Type} {b : FilesystemBackend}

theorem pure (a : α) : Looks P (pure a : Fs α) b True True := by
  refine ⟨[], ?_, by simp, by simp⟩
  simp [logged]

theorem fail (err : FsError) : Looks P (Proc.fail err : Fs α) b False True := by
  refine ⟨[], ?_, by simp, by simp⟩
  simp [logged]

theorem os {call : Machine → α × Machine} {path} {f : α → Fs β} {good fits}
    (reads : (call b.machine).2 = b.machine.touch path)
    (second : Looks P (f (call b.machine).1) (logged b [path]) good fits) :
    Looks P (os call >>= f) b good (P path ∧ fits) := by
  obtain ⟨paths, left, succeeds, all⟩ := second
  have run : (Storage.os call >>= f) b = f (call b.machine).1 (logged b [path]) := by
    rw [os_bind_apply, reads]
    rfl
  refine ⟨path :: paths, ?_, ?_, ?_⟩
  · rw [run, left]
    simp [logged]
  · rw [run, succeeds]
  · simp [all]

theorem tombstoned {uri} {f : Bool → Fs β} {good fits}
    (second : Looks P (f (b.tombstones.lookup uri).isSome) b good fits) :
    Looks P (isTombstoned uri >>= f) b good fits := second

/-- What comes after a call that may fail starts from the same disk. -/
theorem attempt {x : Fs α} {f : Except FsError α → Fs β} {good fits good' fits'} (first : Looks P x b good fits)
    (second : ∀ paths result, ((∃ a, result = .ok a) ↔ good) → Looks P (f result) (logged b paths) good' fits') :
    Looks P (Proc.attempt x >>= f) b good' (fits ∧ fits') := by
  obtain ⟨paths, left, succeeds, all⟩ := first
  obtain ⟨paths', left', succeeds', all'⟩ := second paths _ succeeds
  have run : (Proc.attempt x >>= f) b = f (x b).1 (logged b paths) := by
    rw [← left]
    rfl
  refine ⟨paths ++ paths', ?_, ?_, ?_⟩
  · rw [run, left']
    simp [logged]
  · rw [run, succeeds']
  · rw [forall_mem_append, all, all']

theorem hands {x : Fs α} {good fits} (looks : Looks P x b good fits) : Hands P x b fits := by
  obtain ⟨paths, left, -, all⟩ := looks
  exact ⟨paths, by rw [left]; rfl, all⟩

end Looks

section Entries

variable {P : Str → Prop} {site : Site} {b : FilesystemBackend}

theorem looks_basicMetadata (uri : Str) (format : String) : Looks P (basicMetadata site uri format) b
      ((b.node (site.bodyLoc uri)).isSome = true) (P (site.uriToPath uri)) := by
  have found : (b.node (site.bodyLoc uri)).isSome = true ↔
      ∃ info, (Machine.stat site.sys (site.uriToPath uri) b.machine).1 = .ok info := by
    unfold FilesystemBackend.node Site.bodyLoc Machine.stat Disk.stat
    cases b.machine.disk.node (site.sys.locate (site.uriToPath uri)) <;> simp [Except.map]
  have again (paths : List Str) : (Machine.stat site.sys (site.uriToPath uri) (logged b paths).machine).1 =
      (Machine.stat site.sys (site.uriToPath uri) b.machine).1 := rfl
  have body : P (site.uriToPath uri) = (P (site.uriToPath uri) ∧ P (site.uriToPath uri) ∧ True) := by simp
  rw [found]
  cases stat : (Machine.stat site.sys (site.uriToPath uri) b.machine).1 with
  | ok info =>
    rw [body]
    refine Looks.os rfl ?_
    rw [stat]
    refine Looks.os rfl ?_
    rw [again, stat]
    simp only [Except.ok.injEq, exists_eq']
    exact Looks.pure _
  | error err =>
    have lost : (∃ info, (.error err : Except OsError FileInfo) = .ok info) = False := by simp
    rw [lost]
    by_cases missing : err = .notExist
    · rw [← and_true (P (site.uriToPath uri))]
      refine Looks.os rfl ?_
      rw [stat, missing]
      exact Looks.fail _
    · rw [body]
      refine Looks.os rfl ?_
      rw [stat]
      cases err with
      | notExist => exact absurd rfl missing
      | _ =>
        refine Looks.os rfl ?_
        rw [again, stat]
        exact Looks.fail _

variable [Unicode]

/-- A lookup for a listing hands the metadata to the system, and the resource when there are none. -/
theorem looks_getMetadataNoLock {uri : Str} (named : uri ≠ []) : Looks P (getMetadataNoLock site uri) b
      (described site b uri = true) (P (site.metadataPath uri) ∧
        (b.machine.disk.readFile (site.metaLoc uri) = .error .notExist → P (site.uriToPath uri))) := by
  unfold getMetadataNoLock
  rw [refuse, if_neg named]
  have passed {β} (f : Unit → Fs β) : (Proc.of (.ok ()) >>= f) = f () := rfl
  rw [passed, described]
  refine Looks.os rfl ?_
  simp only [Machine.readFile, Site.metaLoc]
  cases b.machine.disk.readFile (site.sys.locate (site.metadataPath uri)) with
  | ok text =>
    cases parsed : unmarshalMetadata text with
    | none => simpa [parsed] using Looks.fail _
    | some m => simpa [parsed] using Looks.pure m
  | error err =>
    cases err with
    | notExist =>
      simp only [forall_const]
      exact looks_basicMetadata uri "%w"
    | _ => simpa using Looks.fail _

omit [Unicode] in
theorem pathToURI_ne_nil (site : Site) (path : Str) : site.pathToURI path ≠ [] := by
  unfold pathToURI
  dsimp only
  split_ifs with _ rooted
  · decide
  · rintro empty
    rw [empty] at rooted
    exact absurd rooted (by decide)
  · exact append_ne_nil_of_left_ne_nil (by decide) _

/-- The loop over the entries: what is looked up while there is room. -/
theorem looks_listEntries (containerURI : Str) (entries : List (Str × Bool)) {found : List Metadata}
    (room : found.length ≤ maxResourceCountPerList) :
    Looks P (listEntries site (containerPath site containerURI) entries found) b True
      (∀ before e after, entries = before ++ e :: after → lookedUp site b containerURI e = true →
        found.length + before.countP (listed site b containerURI) ≤ maxResourceCountPerList →
        P (site.metadataPath (entryURI site containerURI e.1)) ∧
          (b.machine.disk.readFile (site.metaLoc (entryURI site containerURI e.1)) = .error .notExist →
            P (site.uriToPath (entryURI site containerURI e.1)))) := by
  induction entries generalizing found b with
  | nil =>
    simp only [nil_eq, append_eq_nil_iff, reduceCtorEq, and_false, false_implies, implies_true]
    exact Looks.pure found
  | cons e rest ih =>
    obtain ⟨name, isDir⟩ := e
    rw [forall_split_cons]
    unfold listEntries
    split
    · rename_i skipped
      have out : lookedUp site b containerURI (name, isDir) = false := by simp [lookedUp, skipped]
      simpa [out, listed] using ih room
    · rename_i kept
      change Looks P (if (b.tombstones.lookup (entryURI site containerURI name)).isSome = true then _ else _) b _ _
      cases gone : b.tombstones.lookup (entryURI site containerURI name) with
      | some t =>
        have out : lookedUp site b containerURI (name, isDir) = false := by simp [lookedUp, gone]
        simpa [out, listed] using ih room
      | none =>
        have looked : lookedUp site b containerURI (name, isDir) = true := by
          simpa [lookedUp, gone] using kept
        simp only [looked, countP_nil, Nat.add_zero, room, forall_const]
        refine Looks.attempt (looks_getMetadataNoLock (pathToURI_ne_nil _ _)) fun paths result good => ?_
        -- Looking an entry up changes the log only.
        have same : listed site b containerURI (name, isDir) = true ↔ ∃ m, result = .ok m := by
          simp [listed, looked, good, entryURI]
        cases result with
        | error err =>
          have lost : ¬ listed site b containerURI (name, isDir) = true := by simp [same]
          simp only [countP_cons_of_neg lost]
          exact ih (b := logged b paths) room
        | ok m =>
          have here : listed site b containerURI (name, isDir) = true := by simp [same]
          simp only [countP_cons_of_pos here]
          split
          · have none (n : Nat) : ¬ found.length + (n + 1) ≤ maxResourceCountPerList := by omega
            simp only [none, false_implies, implies_true]
            exact Looks.pure _
          · have more : (found ++ [m]).length ≤ maxResourceCountPerList := by
              rw [length_append, length_singleton]
              omega
            have next := ih (b := logged b paths) more
            simp only [length_append, length_singleton, Nat.add_right_comm _ 1] at next
            exact next

end Entries
/-- The precondition of a write ends the call: nothing is there to match, or what is there cannot be read. -/
def Halts (site : Site) (b : FilesystemBackend) (uri : Str) (p : WritePrecondition) : Prop :=
  ¬ (p.ifMatch = [] ∧ p.ifNoneMatch = []) ∧
    if (b.tombstones.lookup uri).isSome ∨ b.machine.disk.readFile (site.bodyLoc uri) = .error .notExist then p.ifMatch ≠ []
    else ∀ data, b.machine.disk.readFile (site.bodyLoc uri) ≠ .ok data

theorem inside_quotaPath {site : Site} (storageRoot : Str) : site.Inside (site.quotaPath storageRoot) :=
  inside_own isName_metadataDir (isName_quotaFile storageRoot)

section Finish

variable (site : Site) (sha256 : Str → Str) (now : Time) (uri : Str) (r : WriteResource)

/-- What a write does after it has made the directory. -/
def finishPut (made : Except OsError Unit) : Fs Unit := do
  orFail "failed to create directory: %w" made
  let body ← checked r.readBody
  let storageRoot := storageRootOf uri r.metadata
  charge site now storageRoot (resourceSize body r.metadata)
  writeBody site now uri storageRoot body
  writeMetadata site now uri (prepareMetadata sha256 now uri body r.metadata)
  Proc.modify fun b => { b with tombstones := b.tombstones.erase uri }

variable {site sha256 now uri r} {P : Str → Prop} {made : Except OsError Unit}

theorem touches_finishPut (body : P (site.uriToPath uri)) (beside : P (site.metadataPath uri))
    (file : P (site.quotaPath (storageRootOf uri r.metadata))) : Touches P (finishPut site sha256 now uri r made) := by
  refine .bind (.orFail _ _) fun _ => ?_
  refine .bind (.checked _) fun text => ?_
  refine .bind (touches_charge _ file) fun _ => ?_
  refine .bind (touches_writeBody _ body file) fun _ => ?_
  exact .bind (touches_writeMetadata _ beside) fun _ => .modify fun _ => rfl

end Finish

section Calls

variable {site : Site} {now : Time} {sha256 : Str → Str} {b : FilesystemBackend} {uri : Str}

theorem hands_blob {address : ContentAddress} (accepted : validateContentAddress address = .ok ()) :
    let fits := b.closed = true ∨ site.left ["blobs", address] <+: down ["blobs", address]
    Hands site.Inside (getBlob site address) b fits ∧ Hands site.Inside (blobExists site address) b fits ∧
      Hands site.Inside (deleteBlob site address) b fits := by
  rw [← inside_join_iff]
  refine ⟨.checked accepted (.checkClosed fun _ => .decides (fun _ => rfl) fun found => ?_),
    .checked accepted (.checkClosed fun _ => .decides (fun _ => rfl) fun found => ?_),
    .checked accepted (.checkClosed fun _ => .decides (fun _ => rfl) fun _ => .orFail _ _)⟩
  · split
    · exact .fail _
    · exact .fail _
    · exact .bind (.checked _) fun _ => .pure _
  · split
    · exact .pure _
    · exact .pure _
    · exact .fail _

theorem inside_tombstonePath (uri : Str) : site.Inside (site.tombstonePath uri) :=
  inside_own isName_tombstonesDir (isName_tombstoneFile uri)

theorem marshals_iff (t : Tombstone) : marshalTombstone indented 0 t = none ↔ ¬ InRange t.deletedAt := by
  unfold marshalTombstone tombstoneMembers ofTime
  split_ifs with fits <;> simp [fits]

theorem hands_storeTombstone {t} (valid : validateTombstone t = .ok ()) :
    Hands site.Inside (storeTombstone site now t) b (∀ validated, validateURI t.uri = .ok validated →
      b.closed = true ∨ ¬ b.machine.disk.Clear (site.sys.locate (dir (site.tombstonePath t.uri))) ∨
        b.node (site.sys.locate (site.tombstonePath t.uri)) = some .dir ∨ ¬ InRange (dated now t).deletedAt ∨
        site.Keeps validated) := by
  have file : site.Inside (site.tombstonePath t.uri) := inside_tombstonePath _
  have folder : site.Inside (dir (site.tombstonePath t.uri)) :=
    inside_dir_own isName_tombstonesDir (isName_tombstoneFile _)
  have place : site.sys.locate (site.tombstonePath t.uri) = site.sys.locate (dir (site.tombstonePath t.uri)) ++
        [Strings.replaceAll (Strings.trimPrefix t.uri "/") "/" "_" ++ ".json"] := by
    rw [tombstonePath, locate_own isName_tombstonesDir (isName_tombstoneFile _),
      locate_dir_own isName_tombstonesDir (isName_tombstoneFile _), append_assoc]
    rfl
  refine .of valid (.checkedThen fun validated _ => .checkClosed fun _ => .modify rfl ?_)
  refine Hands.iff (.must (fun _ => rfl) folder fun _ made => ?_)
    (or_congr_left (Unique.forall_iff.trans (not_congr mkdirAll_eq_ok)))
  have clear : b.machine.disk.Clear (site.sys.locate (dir (site.tombstonePath t.uri))) := mkdirAll_eq_ok.mp made
  cases marshalled : marshalTombstone indented 0 (dated now t) with
  | none =>
    have range := (marshals_iff _).mp marshalled
    exact (Hands.of_touches (.fail _)).iff (by simp [range])
  | some text =>
    have range : InRange (dated now t).deletedAt := by
      by_contra out
      rw [(marshals_iff _).mpr out] at marshalled
      cases marshalled
    have writable : (Machine.writeFile site.sys now (site.tombstonePath t.uri) text
        (Machine.mkdirAll site.sys (dir (site.tombstonePath t.uri)) b.machine).2).1 = .ok () ↔
          b.node (site.sys.locate (site.tombstonePath t.uri)) ≠ some .dir := by
      have longer : ¬ site.sys.locate (site.tombstonePath t.uri) <+: site.sys.locate (dir (site.tombstonePath t.uri)) := by
        intro shorter
        have length := shorter.length_le
        rw [place, length_append, length_singleton] at length
        omega
      refine writeFile_eq_ok.trans ?_
      simp only [Writable, Machine.mkdirAll, node_mkdirAll, longer, false_and, if_false]
      rw [place, dropLast_concat, if_pos ⟨prefix_rfl, clear⟩]
      simp [FilesystemBackend.node]
    refine Hands.iff (.must (fun _ => rfl) file fun _ _ =>
      .os (fun _ => rfl) (.os (fun _ => rfl) (.of_touches (.pure _)))) ?_
    rw [Unique.forall_iff, and_true, inside_files_iff]
    refine or_congr ((not_congr writable).trans not_not) ?_
    simp [range]

section Level

variable (level : str ".." ∉ segments uri)

include level

variable [Unicode]

theorem hands_get (named : uri ≠ []) : Hands site.Inside (get site sha256 uri) b
    (b.closed = true ∨ (b.tombstones.lookup uri).isSome = true ∨
      (∀ data, b.machine.disk.readFile (site.bodyLoc uri) ≠ .ok data) ∨ site.Below uri) := by
  have body : site.Inside (site.uriToPath uri) := inside_uriToPath level
  refine .checkClosed fun _ => .refuse named (.tombstoned ?_)
  cases (b.tombstones.lookup uri).isSome with
  | true => exact (Hands.of_touches (.fail _)).iff (by simp)
  | false =>
    refine (Hands.os (fun _ => rfl) ?_).iff (and_iff_right body)
    simp only [Machine.readFile, Site.bodyLoc]
    cases b.machine.disk.readFile (site.sys.locate (site.uriToPath uri)) with
    | ok data =>
      dsimp only
      rw [readMetadata, bind_assoc, ← (inside_files_of_level site level).1]
      refine Hands.iff (.decides (fun _ => rfl) fun text => ?_) (by simp)
      refine .bind ?_ fun m => .bind (touches_lastModifiedOf m fun _ => body) fun _ => .pure _
      split
      · split
        · exact .pure _
        · exact .fail _
      · exact .pure _
      · exact .fail _
    | error err => cases err <;> exact (Hands.of_touches (.fail _)).iff (by simp)

theorem hands_getMetadata : Hands site.Inside (getMetadata site sha256 uri) b
    (b.closed = true ∨ (b.tombstones.lookup uri).isSome = true ∨ site.Below uri) := by
  have body : site.Inside (site.uriToPath uri) := inside_uriToPath level
  refine .checkClosed fun _ => .tombstoned ?_
  cases (b.tombstones.lookup uri).isSome with
  | true => exact (Hands.of_touches (.fail _)).iff (by simp)
  | false =>
    rw [← (inside_files_of_level site level).1]
    refine Hands.iff (.decides (fun _ => rfl) fun found => ?_) (by simp)
    split
    · refine .bind (touches_basicMetadata _ fun _ => body) fun m => ?_
      exact .bind (touches_generateETagFromFilePath fun _ => body) fun _ => .pure _
    · exact .fail _
    · split
      · exact .fail _
      · exact .bind (touches_sizeOf _ fun _ => body) fun _ => .pure _

theorem hands_checkPreconditions {p : WritePrecondition} {rest : Fs Unit}
    (follows : Touches (fun p => site.Inside (site.metadataPath uri) → site.Inside p) rest)
    (leaves : ∀ b, Hands site.Inside rest b (site.Below uri)) :
    Hands site.Inside (checkPreconditions site uri p >>= fun _ => rest) b (Halts site b uri p ∨ site.Below uri) := by
  have body : site.Inside (site.uriToPath uri) := inside_uriToPath level
  -- Nothing is there: only `If-Match` fails.
  have missing (b : FilesystemBackend) : Hands site.Inside ((do
        Proc.of (refuse (ifMatchFails none p.ifMatch = true) (.storage .preconditionFailed))
        Proc.of (refuse (ifNoneMatchFails none p.ifNoneMatch = true) (.storage .preconditionFailed)) : Fs Unit) >>=
          fun _ => rest) b (p.ifMatch ≠ [] ∨ site.Below uri) := by
    have second : ¬ ifNoneMatchFails none p.ifNoneMatch = true := by simp [ifNoneMatchFails]
    have first : ifMatchFails none p.ifMatch = true ↔ p.ifMatch ≠ [] := by simp [ifMatchFails]
    rw [bind_assoc]
    by_cases given : p.ifMatch ≠ []
    · rw [refuse, if_pos (first.mpr given)]
      exact (Hands.of_touches (.fail _)).iff (by simp [given])
    · exact .refuse (mt first.mp given) (.refuse second ((leaves b).iff (by simp [given])))
  unfold checkPreconditions Halts
  by_cases free : p.ifMatch = [] ∧ p.ifNoneMatch = []
  · rw [if_pos free]
    exact (leaves b).iff (by simp [free])
  rw [if_neg free, bind_assoc, currentETag, bind_assoc]
  apply Hands.tombstoned
  cases gone : (b.tombstones.lookup uri).isSome with
  | true => exact (missing b).iff (by simp [free])
  | false =>
    rw [if_neg Bool.false_ne_true, bind_assoc]
    refine (Hands.os (fun _ => rfl) ?_).iff (and_iff_right body)
    have read : (Machine.readFile site.sys (site.uriToPath uri) b.machine).1 =
        b.machine.disk.readFile (site.bodyLoc uri) := rfl
    rw [read]
    cases b.machine.disk.readFile (site.bodyLoc uri) with
    | ok data =>
      rw [bind_assoc, ← (inside_files_of_level site level).1]
      refine Hands.iff (.decides (fun _ => rfl) fun text => ?_) (by simp)
      refine .bind ?_ fun current => .bind (.bind (.of _) fun _ => .of _) fun _ => follows
      split <;> exact .pure _
    | error err =>
      cases err with
      | notExist => exact (missing _).iff (by simp [free])
      | _ => exact (Hands.of_touches (.fail _)).iff (by simp [free])

theorem hands_put {r} (named : uri ≠ []) : Hands site.Inside (put site sha256 now uri r) b
    (b.closed = true ∨ Halts site b uri r.preconditions ∨ site.Below uri) := by
  have body : site.Inside (site.uriToPath uri) := inside_uriToPath level
  obtain ⟨beside, above⟩ := inside_files_of_level site level
  have later {Q : Prop} (enough : Q → site.Below uri) (made : Except OsError Unit) :
      Touches (fun p => Q → site.Inside p) (finishPut site sha256 now uri r made) :=
    touches_finishPut (fun _ => body) (fun q => beside.mpr (enough q)) fun _ => inside_quotaPath _
  refine .checkClosed fun _ => .refuse named (hands_checkPreconditions level ?_ fun b => ?_)
  · exact .bind (.os (fun _ => rfl) fun inside => above.mpr (beside.mp inside)) (later beside.mp)
  · exact Hands.iff (.decides (fun _ => rfl) (later above.mp)) above

theorem hands_delete : Hands site.Inside (delete site now uri) b
    (∀ validated, validateURI uri = .ok validated → b.closed = true ∨ site.Below uri) := by
  refine .checkedThen fun validated accepted => .checkClosed fun _ => ?_
  have body : site.Inside (site.uriToPath validated) := by
    apply inside_uriToPath
    rwa [segments_of_validateURI accepted]
  rw [← (inside_files_of_level site level).1]
  refine .decides (fun _ => rfl) fun text => ?_
  refine .bind (touches_removeAny _ fun _ => body) fun _ => ?_
  refine .bind (touches_removeAny _ id) fun _ => ?_
  split <;> split <;> first | exact touches_rollbackQuota _ fun _ => inside_quotaPath _ | exact .pure _

theorem hands_list : Hands site.Inside (list site uri) b (∀ validated, validateURI uri = .ok validated →
      b.closed = true ∨ ∀ entries, b.machine.disk.readDir (site.bodyLoc validated) = .ok entries →
        ListsInside site b validated entries) := by
  refine .checkedThen fun validated accepted => .checkClosed fun _ => ?_
  have place : site.sys.locate (containerPath site validated) = site.bodyLoc validated := by
    unfold containerPath
    split_ifs
    · rfl
    · rw [str_slash, System.locate, locate_append_separator _ (site.uriToPath_ne_nil _)]
      rfl
  have container : site.Inside (containerPath site validated) := by
    rw [Inside, place]
    apply inside_uriToPath
    rwa [segments_of_validateURI accepted]
  change Hands site.Inside (os (Machine.readDir site.sys (containerPath site validated)) >>= _) b _
  refine (Hands.os (fun _ => rfl) ?_).iff (and_iff_right container)
  simp only [Machine.readDir, place]
  cases b.machine.disk.readDir (site.bodyLoc validated) with
  | error err =>
    cases err with
    | notExist => exact (Hands.of_touches (.pure _)).iff (by simp)
    | _ => exact (Hands.of_touches (.fail _)).iff (by simp)
  | ok entries =>
    refine (looks_listEntries validated entries (Nat.zero_le _)).hands.iff ?_
    simp only [Except.ok.injEq, forall_eq', length_nil, Nat.zero_add]
    refine forall₄_congr fun before e after split => forall₂_congr fun looked room => ?_
    rw [← inside_files_iff]
    tauto

end Level

end Calls

end FilesystemBackend

inductive FsCall where
  | initializeBackend
  | healthCheck
  | close
  | getLayoutVersion
  | setLayoutVersion (version : StorageLayoutVersion)
  | get (uri : Str)
  | getMetadata (uri : Str)
  | put (uri : Str) (r : WriteResource)
  | delete (uri : Str)
  | list (containerURI : Str)
  | existsAt (uri : Str)
  | storeBlob (data : Str)
  | getBlob (address : ContentAddress)
  | blobExists (address : ContentAddress)
  | deleteBlob (address : ContentAddress)
  | getQuota (storageRoot : Str)
  | checkQuota (storageRoot : Str) (additionalBytes : Int)
  | getTombstone (uri : Str)
  | storeTombstone (t : Tombstone)
  | deleteTombstone (uri : Str)
  | listTombstones (order : RangeOrder (Str × Tombstone)) (storageRoot : Str)

namespace FsCall

def ignore {α : Type} (x : Fs α) : Fs Unit := do
  let _ ← x
  pure ()

def run [Unicode] (sha256 : Str → Str) (site : Site) (now : Time) : FsCall → Fs Unit
  | .initializeBackend => FilesystemBackend.initializeBackend site
  | .healthCheck => FilesystemBackend.healthCheck site
  | .close => FilesystemBackend.close
  | .getLayoutVersion => ignore (FilesystemBackend.getLayoutVersion site)
  | .setLayoutVersion version => FilesystemBackend.setLayoutVersion site now version
  | .get uri => ignore (FilesystemBackend.get site sha256 uri)
  | .getMetadata uri => ignore (FilesystemBackend.getMetadata site sha256 uri)
  | .put uri r => FilesystemBackend.put site sha256 now uri r
  | .delete uri => FilesystemBackend.delete site now uri
  | .list containerURI => ignore (FilesystemBackend.list site containerURI)
  | .existsAt uri => ignore (FilesystemBackend.existsAt site uri)
  | .storeBlob data => ignore (FilesystemBackend.storeBlob site sha256 now data)
  | .getBlob address => ignore (FilesystemBackend.getBlob site address)
  | .blobExists address => ignore (FilesystemBackend.blobExists site address)
  | .deleteBlob address => FilesystemBackend.deleteBlob site address
  | .getQuota storageRoot => ignore (FilesystemBackend.getQuota storageRoot)
  | .checkQuota storageRoot bytes => FilesystemBackend.checkQuota site now storageRoot bytes
  | .getTombstone uri => ignore (FilesystemBackend.getTombstone uri)
  | .storeTombstone t => FilesystemBackend.storeTombstone site now t
  | .deleteTombstone uri => FilesystemBackend.deleteTombstone site uri
  | .listTombstones order storageRoot => ignore (FilesystemBackend.listTombstones order storageRoot)

/-- The checks that a call has passed when its paths are formed: those of the engine for resources, and the
validators of the other arguments. -/
def Accepted : FsCall → Prop
  | .get uri | .getMetadata uri | .put uri _ | .delete uri | .list uri | .existsAt uri =>
    validateStorageURI uri = .ok ()
  | .getBlob address | .blobExists address | .deleteBlob address => validateContentAddress address = .ok ()
  | .getQuota storageRoot | .checkQuota storageRoot _ | .listTombstones _ storageRoot =>
    validateStorageRoot storageRoot = .ok ()
  | .getTombstone uri | .deleteTombstone uri => ∃ validated, validateURI uri = .ok validated
  | .storeTombstone t => validateTombstone t = .ok () ∧ ∃ validated, validateURI t.uri = .ok validated
  | _ => True

/-- Every path that the call hands to the system is inside the root path. -/
def Contained [Unicode] (sha256 : Str → Str) (site : Site) (now : Time) (b : FilesystemBackend) (call : FsCall) :
    Prop :=
  ∀ path ∈ (call.run sha256 site now b).2.machine.touched, site.Inside path

/-- The calls that stay inside, by the root path, the state and the arguments. -/
def Stays [Unicode] (site : Site) (now : Time) (b : FilesystemBackend) : FsCall → Prop
  | .get uri =>
    b.closed = true ∨ (b.tombstones.lookup uri).isSome = true ∨
      (∀ data, b.machine.disk.readFile (site.bodyLoc uri) ≠ .ok data) ∨ site.Below uri
  | .getMetadata uri => b.closed = true ∨ (b.tombstones.lookup uri).isSome = true ∨ site.Below uri
  | .put uri r => b.closed = true ∨ Halts site b uri r.preconditions ∨ site.Below uri
  | .delete uri => ∀ validated, validateURI uri = .ok validated → b.closed = true ∨ site.Below uri
  | .list containerURI =>
    ∀ validated, validateURI containerURI = .ok validated → b.closed = true ∨
      ∀ entries, b.machine.disk.readDir (site.bodyLoc validated) = .ok entries →
        ListsInside site b validated entries
  | .getBlob address | .blobExists address | .deleteBlob address =>
    b.closed = true ∨ site.left ["blobs", address] <+: down ["blobs", address]
  | .storeTombstone t =>
    ∀ validated, validateURI t.uri = .ok validated → b.closed = true ∨
      ¬ b.machine.disk.Clear (site.sys.locate (dir (site.tombstonePath t.uri))) ∨
      b.node (site.sys.locate (site.tombstonePath t.uri)) = some .dir ∨ ¬ InRange (dated now t).deletedAt ∨
      site.Keeps validated
  | _ => True

theorem relative_digest (sha256 : Str → Str) (data : Str) : relative ["blobs", computeContentAddress sha256 data] =
      str "blobs" :: (if computeContentAddress sha256 data = [] then [] else [computeContentAddress sha256 data]) := by
  have digits : ∀ b ∈ computeContentAddress sha256 data, b ≠ separator ∧ b ≠ '.'.toUInt8 := by
    intro b mem
    have range := mem_hexEncode mem
    constructor
    · rintro rfl
      exact absurd range (by decide)
    · rintro rfl
      exact absurd range (by decide)
  have single : separator ∉ computeContentAddress sha256 data := fun mem => (digits _ mem).1 rfl
  have parts : partsOf ["blobs", computeContentAddress sha256 data] =
      [str "blobs", computeContentAddress sha256 data] := by
    simp [partsOf, Strings.split_of_notMem single, Strings.split_of_notMem isName_blobs.single]
  rw [relative, parts]
  split_ifs with empty
  · rw [empty]
    rfl
  · have name : IsName (computeContentAddress sha256 data) := by
      refine ⟨empty, ?_, ?_, single⟩
      · intro here
        exact (digits '.'.toUInt8 (by rw [here]; decide)).2 rfl
      · intro parent
        exact (digits '.'.toUInt8 (by rw [parent]; decide)).2 rfl
    exact step_of_isName name false _

section Main

variable {sha256 : Str → Str} {site : Site} {now : Time} {b : FilesystemBackend}

theorem hands_ignore {P α fits} {x : Fs α} (hands : Hands P x b fits) : Hands P (ignore x) b fits := by
  obtain ⟨paths, log, all⟩ := hands
  refine ⟨paths, ?_, all⟩
  rw [← log, ignore, Proc.bind_apply]
  split
  · rename_i done
    rw [done]
    rfl
  · rename_i failed
    rw [failed]

theorem hands_touches {P α} {x : Fs α} (touches : Touches P x) : Hands P (ignore x) b True :=
  hands_ignore (.of_touches touches)

variable [Unicode] (sha256 site now b)

theorem hands_run {call : FsCall} (accepted : call.Accepted) :
    Hands site.Inside (call.run sha256 site now) b (call.Stays site now b) := by
  cases call with
  | initializeBackend =>
    apply Hands.of_touches
    apply touches_initializeBackend
    · exact inside_rootPath
    · exact inside_folder isName_metadataDir
    · exact inside_folder isName_blobs
    · exact inside_folder isName_tombstonesDir
    · exact fun name named => inside_entry isName_metadataDir named
    · exact fun name named => inside_entry isName_tombstonesDir named
  | healthCheck => exact .of_touches (touches_healthCheck inside_rootPath)
  | close => exact .of_touches touches_close
  | getLayoutVersion =>
    exact hands_touches (touches_getLayoutVersion (inside_own isName_metadataDir isName_versionFile))
  | setLayoutVersion version =>
    exact .of_touches (touches_setLayoutVersion version (inside_own isName_metadataDir isName_versionFile)
      (inside_dir_own isName_metadataDir isName_versionFile))
  | get uri =>
    exact hands_ignore (hands_get (level_of_validateStorageURI accepted) (ne_nil_of_validateStorageURI accepted))
  | getMetadata uri => exact hands_ignore (hands_getMetadata (level_of_validateStorageURI accepted))
  | put uri r => exact hands_put (level_of_validateStorageURI accepted) (ne_nil_of_validateStorageURI accepted)
  | delete uri => exact hands_delete (level_of_validateStorageURI accepted)
  | list containerURI => exact hands_ignore (hands_list (level_of_validateStorageURI accepted))
  | existsAt uri =>
    apply hands_touches
    apply touches_existsAt
    intro validated ok
    apply inside_uriToPath
    rw [segments_of_validateURI ok]
    exact level_of_validateStorageURI accepted
  | storeBlob data =>
    have lead := relative_digest sha256 data
    have level : str ".." ∉ relative ["blobs", computeContentAddress sha256 data] := by
      rw [lead]
      intro mem
      rcases mem_cons.mp mem with first | second
      · exact absurd first (by decide)
      · split_ifs at second
        · cases second
        · have dots : computeContentAddress sha256 data = ".." := (mem_singleton.mp second).symm
          have dot : '.'.toUInt8 ∈ computeContentAddress sha256 data := by
            rw [dots]
            decide
          exact absurd (mem_hexEncode dot) (by decide)
    apply hands_touches
    apply touches_storeBlob
    · exact inside_join level
    · exact (inside_beside_join level (by rw [lead]; exact cons_ne_nil _ _)).2
  | getBlob address => exact hands_ignore (hands_blob accepted).1
  | blobExists address => exact hands_ignore (hands_blob accepted).2.1
  | deleteBlob address => exact (hands_blob accepted).2.2
  | getQuota storageRoot => exact hands_touches (touches_getQuota storageRoot)
  | checkQuota storageRoot bytes => exact .of_touches (touches_checkQuota bytes (inside_quotaPath storageRoot))
  | getTombstone uri => exact hands_touches (touches_getTombstone uri)
  | storeTombstone t => exact hands_storeTombstone accepted.1
  | deleteTombstone uri => exact .of_touches (touches_deleteTombstone inside_tombstonePath)
  | listTombstones order storageRoot => exact hands_touches (touches_listTombstones order storageRoot)

/-- A call stays inside the root path exactly when the root path, the state and its arguments say so. -/
theorem contained_iff_stays (call : FsCall) (fresh : b.machine.touched = []) (accepted : call.Accepted) :
    call.Contained sha256 site now b ↔ call.Stays site now b := by
  obtain ⟨paths, log, all⟩ := hands_run sha256 site now b accepted
  rw [Contained, log, fresh, nil_append, all]

end Main

/-- A backend on a disk, before anything was done with it. -/
def backendOn (disk : Disk) : FilesystemBackend := { machine := { disk } }

/-- A machine whose programs run in the root directory. -/
def plainSystem : System where
  cwd := []
  absolute := by simp
  dirInfo := fun _ _ => (0, .zero)
  localTime := fun _ => []

def podSite : Site := ⟨"/srv/pod", by decide, plainSystem⟩

def noteDisk : Disk := .single [str "srv", "pod", "notes"] "a" [] .zero (by decide)

theorem contained_iff_stays_notes : (FsCall.list (str "/notes")).Accepted ∧
      @FsCall.Stays Unicode.ascii podSite .zero (backendOn noteDisk) (.list (str "/notes")) ∧
      @FsCall.Contained Unicode.ascii (fun _ => []) podSite .zero (backendOn noteDisk) (.list (str "/notes")) := by
  have accepted : (FsCall.list (str "/notes")).Accepted := by
    unfold Accepted
    decide +kernel
  have stays : @FsCall.Stays Unicode.ascii podSite .zero (backendOn noteDisk) (.list (str "/notes")) := by
    intro validated ok
    have valid : validateURI (str "/notes") = .ok (str "/notes") := by decide +kernel
    obtain rfl : str "/notes" = validated := by simpa [valid] using ok
    refine .inr fun entries read => ?_
    have single : (backendOn noteDisk).machine.disk.readDir (podSite.bodyLoc (str "/notes")) =
        .ok [(str "a", false)] := by decide +kernel
    obtain rfl : [(str "a", false)] = entries := by simpa [single] using read
    have keeps : podSite.Keeps (entryURI podSite (str "/notes") (str "a")) :=
      ⟨by decide +kernel, fun same => absurd same (by decide +kernel)⟩
    rintro before e after split - -
    cases before with
    | nil =>
      cases split
      exact .inl keeps
    | cons _ before => simp at split
  exact ⟨accepted, stays, (@contained_iff_stays (fun _ => []) podSite .zero (backendOn noteDisk) Unicode.ascii _ rfl
    accepted).mpr stays⟩

/-- An accepted content address leads the backend to the passwords of the machine. -/
theorem getBlob_leaves_rootPath : validateContentAddress (str "../../../etc/passwd") = .ok () ∧
      (FilesystemBackend.getBlob podSite (str "../../../etc/passwd") (backendOn Disk.empty)).2.machine.touched =
        [str "/etc/passwd"] ∧
      ¬ podSite.Inside (str "/etc/passwd") := by
  unfold Inside
  decide +kernel

end FsCall

end Storage
