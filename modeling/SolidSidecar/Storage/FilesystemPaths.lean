import SolidSidecar.Storage.Filesystem

/-!
# Which files the filesystem backend touches

A path of the backend is its root path joined with texts that come from a request: the parts of a URI, a
content address, the name of a quota or of a tombstone. It lies below the root path unless one of these
parts is a `..`. The metadata of a resource are in a file beside it, whose path is that of the resource with
an ending: when the URI names nothing below the root path, as `/.` does, this is a file beside the root.
-/

namespace Storage
open Go Filepath Json Rfc3339 Run List

variable {c : Str}

def safeByte (b : UInt8) : UInt8 :=
  let b := if b = ':'.toUInt8 then '_'.toUInt8 else b
  if b = '?'.toUInt8 then '_'.toUInt8 else b

/-- The names below the root path that lead to a resource. -/
def resourceNames (uri : Str) : List Str :=
  if segments uri = [] then ["root"] else (names (segments uri)).map (List.map safeByte)

theorem segments_trimSlashes (s : Str) : segments (trimSlashes s) = segments s :=
  (segments_rdropWhile _).trans (segments_dropWhile s)

/-- A text that starts with another byte than a slash has something between the slashes. -/
theorem segments_cons_ne_nil {b} (start : b ≠ separator) (rest : Str) : segments (b :: rest) ≠ [] := by
  rw [segments, Strings.split, if_neg start]
  split <;> simp

/-- What is left of the front starts with another byte, and the end is cut off behind it. -/
theorem trimSlashes_head {s rest : Str} {b} (trimmed : trimSlashes s = b :: rest) : b ≠ separator := by
  rintro rfl
  have front : separator :: rest <+: s.dropWhile (· == separator) := trimmed ▸ rdropWhile_prefix _ _
  obtain ⟨_, whole⟩ := front
  have other := head?_dropWhile_not (· == separator) s
  rw [← whole] at other
  simp at other

theorem trimSlashes_eq_nil {s} : trimSlashes s = [] ↔ segments s = [] := by
  constructor
  · intro empty
    rw [← segments_trimSlashes, empty, segments_nil]
  · intro none
    rw [← segments_trimSlashes] at none
    cases trimmed : trimSlashes s with
    | nil => rfl
    | cons b rest =>
      rw [trimmed] at none
      exact absurd none (segments_cons_ne_nil (trimSlashes_head trimmed) rest)

theorem safeURI_eq (uri : Str) :
    safeURI uri = (if segments uri = [] then str "root" else trimSlashes uri).map safeByte := by
  have first : ":" = [':'.toUInt8] := by decide
  have second : "?" = ['?'.toUInt8] := by decide
  have dash : "_" = ['_'.toUInt8] := by decide
  unfold safeURI
  simp only [trimSlashes_eq_nil]
  rw [first, second, dash, Strings.replaceAll_singleton, Strings.replaceAll_singleton, map_map]
  rfl

theorem safeByte_eq_iff {c} (kept : c ≠ ':'.toUInt8 ∧ c ≠ '?'.toUInt8 ∧ c ≠ '_'.toUInt8) (b : UInt8) :
    safeByte b = c ↔ b = c := by
  obtain ⟨colon, question, dash⟩ := kept
  unfold safeByte
  by_cases first : b = ':'.toUInt8
  · subst first
    exact iff_of_false (Ne.symm dash) (Ne.symm colon)
  · simp only [if_neg first]
    by_cases second : b = '?'.toUInt8
    · subst second
      exact iff_of_false (Ne.symm dash) (Ne.symm question)
    · rw [if_neg second]

theorem safeByte_eq_separator (b : UInt8) : safeByte b = separator ↔ b = separator :=
  safeByte_eq_iff (by decide) b

theorem safeByte_eq_dot (b : UInt8) : safeByte b = '.'.toUInt8 ↔ b = '.'.toUInt8 :=
  safeByte_eq_iff (by decide) b

theorem map_safeByte_eq_here : c.map safeByte = "." ↔ c = "." := by
  have here : "." = ['.'.toUInt8] := by decide
  rw [here]
  match c with
  | [] => simp
  | [b] => simp [safeByte_eq_dot]
  | _ :: _ :: _ => simp

theorem map_safeByte_eq_parent : c.map safeByte = ".." ↔ c = ".." := by
  have parent : ".." = ['.'.toUInt8, '.'.toUInt8] := by decide
  rw [parent]
  match c with
  | [] => simp
  | [_] => simp
  | [a, b] => simp [safeByte_eq_dot]
  | _ :: _ :: _ :: _ => simp

theorem segments_safeURI (uri : Str) : segments (safeURI uri) =
      if segments uri = [] then [str "root"] else (segments uri).map (map safeByte) := by
  rw [safeURI_eq, segments, Strings.split_map safeByte_eq_separator]
  by_cases none : segments uri = []
  · rw [if_pos none, if_pos none]
    decide
  · rw [if_neg none, if_neg none, ← segments_trimSlashes uri, filter_map]
    congr 1
    exact filter_congr fun c _ => by simp

theorem names_map_safeByte (parts : List Str) :
    names (parts.map (map safeByte)) = (names parts).map (map safeByte) := by
  unfold names
  rw [filter_map]
  congr 1
  exact filter_congr fun c _ => by simp [map_safeByte_eq_here]

theorem names_safeURI (uri : Str) : names (Strings.split separator (safeURI uri)) = resourceNames uri := by
  rw [← names_segments, segments_safeURI, resourceNames]
  split_ifs
  · decide
  · exact names_map_safeByte _

variable {uri : Str}

theorem parent_mem_safeURI : str ".." ∈ Strings.split separator (safeURI uri) ↔ str ".." ∈ segments uri := by
  have proper : str ".." ≠ [] := by decide
  refine (and_iff_left proper).symm.trans ?_
  rw [← mem_segments, segments_safeURI]
  split_ifs with none
  · rw [none]
    decide
  · simp [map_safeByte_eq_parent]

theorem level_of_validateStorageURI (accepted : validateStorageURI uri = .ok ()) : str ".." ∉ segments uri := by
  intro mem
  have inside : Strings.contains uri ".." = true :=
    Strings.contains_iff.mpr (Strings.infix_of_mem_split (mem_segments.mp mem).1)
  simp [validateStorageURI, inside, bind_eq_ok] at accepted

theorem ne_nil_of_validateStorageURI (accepted : validateStorageURI uri = .ok ()) : uri ≠ [] := by
  rintro rfl
  cases accepted

theorem segments_of_validateURI {validated} (accepted : validateURI uri = .ok validated) :
    segments validated = segments uri := by
  have slash : "/" = [separator] := by decide
  have slashes : "//" = [separator, separator] := by decide
  have fronted (b : Bool) : segments (if b then "/" ++ uri else uri) = segments uri := by
    split_ifs
    · rw [slash, singleton_append, segments_cons_separator]
    · rfl
  have cut (s : Str) : segments (if s.length > 1 && Strings.hasSuffix s "/" then Strings.trimSuffix s "/" else s) =
      segments s := by
    split_ifs with ends
    · rw [Bool.and_eq_true] at ends
      have suffix := ends.2
      rw [Strings.trimSuffix, if_pos suffix]
      obtain ⟨_, rfl⟩ := isSuffixOf_iff_suffix.mp suffix
      rw [slash, length_append, take_left', segments_append_separator]
      rfl
    · rfl
  unfold validateURI at accepted
  simp only [bind_eq_ok, Except.ok.injEq] at accepted
  obtain ⟨_, _, _, _, _, _, rfl⟩ := accepted
  rw [cut, slashes, slash, segments_replaceAll_slashes, ← slash, fronted]

/-- Three bytes without a slash are a name, whatever they are. -/
theorem isName_of_length (long : 3 ≤ c.length) (out : separator ∉ c) : IsName c := by
  refine ⟨?_, ?_, ?_, out⟩ <;> rintro rfl
  · simp at long
  · exact absurd long (by decide)
  · exact absurd long (by decide)

/-- An ending of two bytes or more makes a name of a name. -/
theorem isName_append {tail} (name : IsName c) (out : separator ∉ tail) (long : 2 ≤ tail.length) :
    IsName (c ++ tail) := by
  have some : 0 < c.length := length_pos_of_ne_nil name.nonempty
  apply isName_of_length
  · rw [length_append]
    omega
  · rw [mem_append, not_or]
    exact ⟨name.single, out⟩

namespace Site

variable (site : Site)

def Inside (path : Str) : Prop := site.sys.locate site.rootPath <+: site.sys.locate path

def partsOf (rest : List Str) : List Str := rest.flatMap (Strings.split separator)

variable {rest : List Str} {folder file : Str}

theorem single_of_mem_partsOf {c} (mem : c ∈ partsOf rest) : separator ∉ c := by
  obtain ⟨_, _, mem⟩ := mem_flatMap.mp mem
  exact Strings.notMem_of_mem_split mem

def relative (rest : List Str) : List Str := (partsOf rest).foldl (step false) []

theorem relative_of_level (level : str ".." ∉ partsOf rest) : relative rest = names (partsOf rest) :=
  (foldl_step_of_level level []).trans (nil_append _)

theorem foldl_relative (outer : Bool) (rest base : List Str) :
    (relative rest).foldl (step outer) base = (partsOf rest).foldl (step outer) base :=
  foldl_foldl_step (fun _ mem => single_of_mem_partsOf mem) (by simp) (by simp)

theorem isName_relative (level : str ".." ∉ relative rest) : ∀ c ∈ relative rest, IsName c := by
  intro c mem
  have plain : ∀ c ∈ relative rest, Plain c := plain_foldl (fun _ mem => single_of_mem_partsOf mem) (by simp)
  apply (plain c mem).isName
  rintro rfl
  exact level mem

theorem inside_of {site : Site} {path} {more : List Str}
    (place : site.sys.locate path = site.sys.locate site.rootPath ++ more) : site.Inside path :=
  ⟨more, place.symm⟩

theorem locate_join_eq {site : Site} (rest : List Str) : site.sys.locate (join (site.rootPath :: rest)) =
      (relative rest).foldl (step true) (site.sys.locate site.rootPath) := by
  rw [foldl_relative]
  exact locate_join site.named site.sys.cwd rest

variable {site}

/-- The place of a path with a name at its end, of the file of metadata beside it and of the directory it is
in. -/
theorem places_of_last {front last} (parts : elements (Strings.join (site.rootPath :: rest) "/") = front ++ [last])
    (name : IsName last) : ∃ base, site.sys.locate (join (site.rootPath :: rest)) = base ++ [last] ∧
      site.sys.locate (join (site.rootPath :: rest) ++ ".meta.json") = base ++ [last ++ ".meta.json"] ∧
      site.sys.locate (dir (join (site.rootPath :: rest))) = base := by
  refine ⟨front.foldl (step true) (start site.sys.cwd (Strings.join (site.rootPath :: rest) "/")), ?_, ?_, ?_⟩
  · rw [join_cons site.named, System.locate, locate_clean, ← foldl_elements, parts, foldl_append]
    exact step_of_isName name _ _
  · rw [join_cons site.named]
    exact locate_clean_append _ parts (by decide) (isName_append name (by decide) (by decide))
  · rw [join_cons site.named]
    exact locate_dir_clean _ parts

section Level

variable {rest : List Str} (level : str ".." ∉ relative rest)

include level

theorem locate_join_level :
    site.sys.locate (join (site.rootPath :: rest)) = site.sys.locate site.rootPath ++ relative rest := by
  rw [locate_join_eq, foldl_step_of_isName (isName_relative level)]

theorem elements_join_level :
    elements (Strings.join (site.rootPath :: rest) "/") = elements site.rootPath ++ relative rest := by
  rw [elements_join site.named]
  exact (foldl_relative _ rest _).symm.trans (foldl_step_of_isName (isName_relative level) _)

theorem places_level {init : List Str} {last : Str} (parts : relative rest = init ++ [last]) :
    site.sys.locate (join (site.rootPath :: rest) ++ ".meta.json") =
        site.sys.locate site.rootPath ++ init ++ [last ++ ".meta.json"] ∧
      site.sys.locate (dir (join (site.rootPath :: rest))) = site.sys.locate site.rootPath ++ init := by
  have name : IsName last := isName_relative level last (by rw [parts]; simp)
  have whole : elements (Strings.join (site.rootPath :: rest) "/") = (elements site.rootPath ++ init) ++ [last] := by
    rw [elements_join_level level, parts, append_assoc]
  obtain ⟨base, place, places⟩ := places_of_last whole name
  rw [locate_join_level level, parts, ← append_assoc] at place
  rw [(append_inj' place rfl).1]
  exact places

theorem inside_join : site.Inside (join (site.rootPath :: rest)) := inside_of (locate_join_level level)

theorem inside_beside_join (some : relative rest ≠ []) : site.Inside (join (site.rootPath :: rest) ++ ".meta.json") ∧
      site.Inside (dir (join (site.rootPath :: rest))) := by
  obtain ⟨_, _, parts⟩ := (eq_nil_or_concat' _).resolve_left some
  obtain ⟨beside, above⟩ := places_level level parts
  exact ⟨inside_of (beside.trans (append_assoc _ _ _)), inside_of above⟩

end Level

theorem inside_rootPath : site.Inside site.rootPath := prefix_rfl

section Uri

variable {uri : Str} (level : str ".." ∉ segments uri)

include level

theorem relative_uri : relative [safeURI uri] = resourceNames uri := by
  have parts : partsOf [safeURI uri] = Strings.split separator (safeURI uri) := by simp [partsOf]
  rw [relative_of_level (by rwa [parts, parent_mem_safeURI]), parts, names_safeURI]

theorem isName_resourceNames : ∀ c ∈ resourceNames uri, IsName c := by
  rw [← names_safeURI]
  exact isName_of_mem_names (fun _ mem => Strings.notMem_of_mem_split mem) (by rwa [parent_mem_safeURI])

theorem level_uri : str ".." ∉ relative [safeURI uri] := by
  rw [relative_uri level]
  intro mem
  exact (isName_resourceNames level _ mem).notParent rfl

theorem locate_uriToPath :
    site.sys.locate (site.uriToPath uri) = site.sys.locate site.rootPath ++ resourceNames uri := by
  rw [uriToPath, locate_join_level (level_uri level), relative_uri level]

theorem locate_metadataPath {last : Str} {init} (found : resourceNames uri = init ++ [last]) :
    site.sys.locate (site.metadataPath uri) = site.sys.locate site.rootPath ++ init ++ [last ++ ".meta.json"] := by
  exact (places_level (level_uri level) (by rw [relative_uri level, found])).1

theorem locate_dir_uriToPath {last : Str} {init} (found : resourceNames uri = init ++ [last]) :
    site.sys.locate (dir (site.uriToPath uri)) = site.sys.locate site.rootPath ++ init := by
  exact (places_level (level_uri level) (by rw [relative_uri level, found])).2

theorem inside_uriToPath : site.Inside (site.uriToPath uri) := inside_join (level_uri level)

end Uri

/-- A text in which slashes became underscores has none. -/
theorem separator_notMem_flattened (s : Str) : separator ∉ Strings.replaceAll s "/" "_" := by
  have slash : "/" = [separator] := by decide
  have dash : "_" = ['_'.toUInt8] := by decide
  rw [slash, dash, Strings.replaceAll_singleton, mem_map]
  rintro ⟨_, _, becomes⟩
  split_ifs at becomes with here
  · exact absurd becomes (by decide)
  · exact here becomes

/-- A file of the backend's own: its name is one part of the path. -/
theorem parts_of_isName (folderName : IsName folder) (name : IsName file) :
    partsOf [folder, file] = [folder, file] := by
  simp [partsOf, Strings.split_of_notMem folderName.single, Strings.split_of_notMem name.single]

theorem isName_quotaFile (storageRoot : Str) :
    IsName ("quota_" ++ Strings.replaceAll storageRoot "/" "_" ++ ".json") := by
  have start : (str "quota_").length = 6 := by decide
  apply isName_of_length
  · rw [length_append, length_append]
    omega
  · rw [mem_append, mem_append, not_or, not_or]
    exact ⟨⟨by decide, separator_notMem_flattened _⟩, by decide⟩

theorem isName_tombstoneFile (uri : Str) :
    IsName (Strings.replaceAll (Strings.trimPrefix uri "/") "/" "_" ++ ".json") := by
  have ending : (str ".json").length = 5 := by decide
  apply isName_of_length
  · rw [length_append]
    omega
  · rw [mem_append, not_or]
    exact ⟨separator_notMem_flattened _, by decide⟩

section Own

variable {folder file : Str} (folderName : IsName folder) (name : IsName file)

include folderName name

theorem relative_own : relative [folder, file] = [folder] ++ [file] := by
  rw [relative, parts_of_isName folderName name]
  exact foldl_step_of_isName (by simp [folderName, name]) []

theorem own_level : str ".." ∉ relative [folder, file] := by
  rw [relative_own folderName name]
  simp only [mem_append, mem_singleton, not_or]
  exact ⟨Ne.symm folderName.notParent, Ne.symm name.notParent⟩

theorem locate_own :
    site.sys.locate (join [site.rootPath, folder, file]) = site.sys.locate site.rootPath ++ [folder, file] := by
  rw [locate_join_level (own_level folderName name), relative_own folderName name]
  rfl

theorem locate_dir_own :
    site.sys.locate (dir (join [site.rootPath, folder, file])) = site.sys.locate site.rootPath ++ [folder] :=
  (places_level (own_level folderName name) (relative_own folderName name)).2

theorem inside_own : site.Inside (join [site.rootPath, folder, file]) := inside_of (locate_own folderName name)

theorem inside_dir_own : site.Inside (dir (join [site.rootPath, folder, file])) :=
  inside_of (locate_dir_own folderName name)

end Own

theorem isName_metadataDir : IsName ".metadata" := by decide

theorem isName_tombstonesDir : IsName ".tombstones" := by decide

theorem isName_blobs : IsName "blobs" := by decide

theorem isName_versionFile : IsName "layout_version" := by decide

theorem locate_folder (name : IsName folder) :
    site.sys.locate (join [site.rootPath, folder]) = site.sys.locate site.rootPath ++ [folder] := by
  have lead : relative [folder] = [folder] := by
    rw [relative, partsOf, flatMap_singleton, Strings.split_of_notMem name.single]
    exact foldl_step_of_isName (by simpa using name) []
  rw [locate_join_eq, lead, foldl_step_of_isName (by simpa using name)]

theorem inside_folder (name : IsName folder) : site.Inside (join [site.rootPath, folder]) :=
  inside_of (locate_folder name)

theorem join_ne_nil (site : Site) (rest : List Str) : join (site.rootPath :: rest) ≠ [] := by
  have either (text : Str) : (if text = [] then str "." else text) ≠ [] := by
    split_ifs with empty
    · decide
    · exact empty
  exact join_cons site.named rest ▸ either _

theorem uriToPath_ne_nil (site : Site) (uri : Str) : site.uriToPath uri ≠ [] := site.join_ne_nil _

theorem locate_entry (folderName : IsName folder) (name : IsName file) :
    site.sys.locate (join [join [site.rootPath, folder], file]) =
      site.sys.locate site.rootPath ++ [folder, file] := by
  have walk := locate_join (site.join_ne_nil [folder]) site.sys.cwd [file]
  rw [System.locate, walk, flatMap_singleton, Strings.split_of_notMem name.single,
    foldl_step_of_isName (by simpa using name)]
  have front : locate site.sys.cwd _ = site.sys.locate site.rootPath ++ [folder] := locate_folder folderName
  rw [front, append_assoc]
  rfl

theorem inside_entry (folderName : IsName folder) (name : IsName file) :
    site.Inside (join [join [site.rootPath, folder], file]) :=
  inside_of (locate_entry folderName name)

end Site

/-- The paths that were handed to the system since a state all have a property. -/
def Adds (P : Str → Prop) (b b' : FilesystemBackend) : Prop :=
  ∃ paths, b'.machine.touched = b.machine.touched ++ paths ∧ ∀ path ∈ paths, P path

def Touches (P : Str → Prop) {α : Type} (x : Fs α) : Prop := Proc.Steps (Adds P) x

namespace Touches

variable {P : Str → Prop} {α β ι : Type}

theorem refl (b : FilesystemBackend) : Adds P b b := ⟨[], by simp⟩

theorem trans (b b' b'' : FilesystemBackend) : Adds P b b' → Adds P b' b'' → Adds P b b'' := by
  rintro ⟨first, log, fit⟩ ⟨second, log', fit'⟩
  refine ⟨first ++ second, by rw [log', log, append_assoc], ?_⟩
  intro path mem
  rcases mem_append.mp mem with early | late
  · exact fit path early
  · exact fit' path late

theorem pure (a : α) : Touches P (pure a : Fs α) := Proc.Steps.pure refl a

theorem fail (err : FsError) : Touches P (Proc.fail err : Fs α) := Proc.Steps.fail refl err

theorem of (result : Except FsError α) : Touches P (Proc.of result : Fs α) := Proc.Steps.of refl result

theorem read (f : FilesystemBackend → α) : Touches P (Proc.read f : Fs α) := Proc.Steps.read refl f

theorem modify {f} (same : ∀ b, (f b).machine = b.machine) : Touches P (Proc.modify f : Fs Unit) :=
  Proc.Steps.modify fun b => ⟨[], by simp [same b]⟩

theorem bind {x} {f : α → Fs β} (first : Touches P x) (second : ∀ a, Touches P (f a)) : Touches P (x >>= f) :=
  Proc.Steps.bind trans first second

theorem forEach {f : ι → Fs Unit} {items} (each : ∀ i ∈ items, Touches P (f i)) : Touches P (Proc.forEach f items) :=
  Proc.Steps.forEach refl trans each

theorem os {call : Machine → α × Machine} {path}
    (logged : ∀ m, (call m).2.touched = m.touched ++ [path]) (fits : P path) : Touches P (os call) := by
  intro b
  exact ⟨[path], logged b.machine, by simpa using fits⟩

theorem checked (result : Except StorageError α) : Touches P (FilesystemBackend.checked result) := of _

theorem checkClosed : Touches P FilesystemBackend.checkClosed := refl

theorem isTombstoned (uri : Str) : Touches P (FilesystemBackend.isTombstoned uri) := read _

theorem bind_checked {result} {f : α → Fs β}
    (second : ∀ a, result = .ok a → Touches P (f a)) : Touches P (FilesystemBackend.checked result >>= f) := by
  cases result with
  | error err => exact refl
  | ok a => exact second a rfl

theorem bind_readDir {sys path} {f : Except OsError (List (Str × Bool)) → Fs β} (fits : P path)
    (second : ∀ read, (∀ entries, read = .ok entries → ∀ e ∈ entries, IsName e.1) → Touches P (f read)) :
    Touches P (Storage.os (Machine.readDir sys path) >>= f) := by
  apply Proc.Steps.bind_of trans (os (fun _ => rfl) fits)
  intro b read b' done
  refine second read ?_ b'
  rintro entries rfl ⟨_, _⟩ mem
  have result : b.machine.disk.readDir (sys.locate path) = .ok entries := by
    injection (Prod.ext_iff.mp done).1
  exact Disk.isName_of_node ((Disk.mem_readDir result).mp mem).1

theorem orFail (format : String) (result : Except OsError α) :
    Touches P (FilesystemBackend.orFail format result) := by
  cases result with
  | ok a => exact pure a
  | error err => exact fail _

/-- The argument is checked, and then that the backend is open. -/
theorem bind_open {result} {f : α → Fs β} (second : ∀ a, Touches P (f a)) :
    Touches P (FilesystemBackend.checked result >>= fun a => FilesystemBackend.checkClosed >>= fun _ => f a) :=
  .bind (.checked _) fun a => .bind .checkClosed fun _ => second a

theorem bind_must {call path format} {f : α → Fs β}
    (logged : ∀ m, (call m).2.touched = m.touched ++ [path]) (fits : P path) (second : ∀ a, Touches P (f a)) :
    Touches P (Storage.os call >>= fun result => FilesystemBackend.orFail format result >>= f) :=
  .bind (.os logged fits) fun result => .bind (.orFail format result) second

end Touches

namespace FilesystemBackend

section Paths

variable {P : Str → Prop} {site : Site} {now : Time} {sha256 : Str → Str}
  {storageRoot : Str} {address : ContentAddress}

theorem touches_setUsage (storageRoot : Str) (usage : QuotaUsageInfo) : Touches P (setUsage storageRoot usage) :=
  .modify fun _ => rfl

theorem touches_saveQuotaInfo (usage : QuotaUsageInfo) (file : P (site.quotaPath storageRoot)) :
    Touches P (saveQuotaInfo site now storageRoot usage) :=
  .os (fun _ => rfl) file

theorem touches_checkAndUpdateQuota (bytes : Int) (file : P (site.quotaPath storageRoot)) :
    Touches P (checkAndUpdateQuota site now storageRoot bytes) := by
  refine .bind (.read _) fun usage => ?_
  refine .bind (touches_setUsage _ _) fun _ => ?_
  refine .bind (.of _) fun _ => ?_
  refine .bind (.of _) fun _ => ?_
  refine .bind (touches_setUsage _ _) fun _ => ?_
  exact .bind (touches_saveQuotaInfo _ file) fun _ => .pure _

theorem touches_rollbackQuota (bytes : Int) (file : P (site.quotaPath storageRoot)) :
    Touches P (rollbackQuota site now storageRoot bytes) := by
  refine .bind (.read _) fun found => ?_
  cases found with
  | none => exact .pure _
  | some usage =>
    refine .bind (touches_setUsage _ _) fun _ => ?_
    exact .bind (touches_saveQuotaInfo _ file) fun _ => .pure _

theorem touches_checkQuota (bytes : Int) (file : P (site.quotaPath storageRoot)) :
    Touches P (checkQuota site now storageRoot bytes) := by
  refine .bind (.of _) fun _ => ?_
  refine .bind_open fun _ => ?_
  exact touches_checkAndUpdateQuota bytes file

theorem touches_getQuota (storageRoot : Str) : Touches P (getQuota storageRoot) := by
  refine .bind_open fun _ => ?_
  refine .bind (.read _) fun found => ?_
  cases found <;> exact .pure _

variable {uri : Str}

theorem touches_lastModifiedOf (m : Metadata) (body : P (site.uriToPath uri)) :
    Touches P (lastModifiedOf site uri m) := by
  unfold lastModifiedOf
  split
  · refine .bind (.os (fun _ => rfl) body) fun info => ?_
    split <;> exact .pure _
  · exact .pure _

theorem touches_basicMetadata (format : String) (body : P (site.uriToPath uri)) :
    Touches P (basicMetadata site uri format) := by
  refine .bind (.os (fun _ => rfl) body) fun found => ?_
  split
  · exact .fail _
  · exact .bind_must (fun _ => rfl) body fun _ => .pure _

theorem touches_generateETagFromFilePath {path} (file : P path) :
    Touches P (generateETagFromFilePath site sha256 path) := by
  refine .bind (.os (fun _ => rfl) file) fun info => ?_
  split <;> exact .pure _

theorem touches_sizeOf (m : Metadata) (body : P (site.uriToPath uri)) : Touches P (sizeOf site uri m) := by
  unfold sizeOf
  split
  · refine .bind (.os (fun _ => rfl) body) fun info => ?_
    split <;> exact .pure _
  · exact .pure _

theorem touches_existsAt (body : ∀ validated, validateURI uri = .ok validated → P (site.uriToPath validated)) :
    Touches P (existsAt site uri) := by
  refine .bind_checked fun validated accepted => ?_
  refine .bind .checkClosed fun _ => ?_
  refine .bind (.isTombstoned _) fun gone => ?_
  split
  · exact .pure _
  refine .bind (.os (fun _ => rfl) (body validated accepted)) fun found => ?_
  split
  · exact .pure _
  · exact .pure _
  · exact .fail _

theorem touches_charge (size : Int) (file : P (site.quotaPath storageRoot)) :
    Touches P (charge site now storageRoot size) := by
  unfold charge
  split
  · exact touches_checkAndUpdateQuota _ file
  · exact .pure _

theorem touches_writeBody (text : Option Str) (body : P (site.uriToPath uri))
    (file : P (site.quotaPath storageRoot)) : Touches P (writeBody site now uri storageRoot text) := by
  refine .bind (.os (fun _ => rfl) body) fun written => ?_
  split
  · exact .pure _
  · split
    · exact .bind (touches_rollbackQuota _ file) fun _ => .fail _
    · exact .fail _

theorem touches_writeMetadata (m : Metadata) (beside : P (site.metadataPath uri)) :
    Touches P (writeMetadata site now uri m) := by
  unfold writeMetadata
  split
  · exact .fail _
  · exact .bind (.os (fun _ => rfl) beside) fun _ => .orFail _ _

theorem touches_removeAny (format : String) {path} (file : P path) : Touches P (removeAny site format path) := by
  refine .bind (.os (fun _ => rfl) file) fun removed => ?_
  split
  · exact .pure _
  · exact .pure _
  · exact .fail _

theorem touches_storeBlob {data} (blob : P (site.blobPath (computeContentAddress sha256 data)))
    (folder : P (dir (site.blobPath (computeContentAddress sha256 data)))) :
    Touches P (storeBlob site sha256 now data) := by
  refine .bind (.checked _) fun _ => ?_
  refine .bind_open fun _ => ?_
  refine .bind_must (fun _ => rfl) folder fun _ => ?_
  exact .bind_must (fun _ => rfl) blob fun _ => .pure _

theorem touches_getTombstone (uri : Str) : Touches P (getTombstone uri) := by
  refine .bind_open fun _ => ?_
  refine .bind (.read _) fun found => ?_
  cases found with
  | some t => exact .pure t
  | none => exact .fail _

theorem touches_deleteTombstone (file : ∀ validated, P (site.tombstonePath validated)) :
    Touches P (deleteTombstone site uri) := by
  refine .bind_open fun validated => ?_
  refine .bind (.modify fun _ => rfl) fun _ => ?_
  exact .bind (.os (fun _ => rfl) (file validated)) fun _ => .pure _

theorem touches_listTombstones (order : RangeOrder (Str × Tombstone)) (storageRoot : Str) :
    Touches P (listTombstones order storageRoot) := by
  refine .bind_open fun _ => ?_
  exact .bind (.read _) fun _ => .pure _

theorem touches_load {folder} {load : Str → Fs Unit} (directory : P folder)
    (entry : ∀ name, IsName name → Touches P (load name)) :
    Touches P (os (Machine.readDir site.sys folder) >>= fun read =>
      match read with
      | .error _ => pure ()
      | .ok entries => Proc.forEach (fun e : Str × Bool => load e.1) entries) := by
  refine .bind_readDir directory fun read named => ?_
  cases read with
  | error err => exact .pure _
  | ok entries => exact .forEach fun e mem => entry e.1 (named entries rfl e mem)

theorem touches_healthCheck (root : P site.rootPath) : Touches P (healthCheck site) := by
  refine .bind .checkClosed fun _ => ?_
  exact .bind_must (fun _ => rfl) root fun _ => .pure _

theorem touches_getLayoutVersion (file : P site.versionPath) : Touches P (getLayoutVersion site) := by
  refine .bind .checkClosed fun _ => ?_
  refine .bind (.os (fun _ => rfl) file) fun found => ?_
  split
  · exact .pure _
  · exact .fail _
  · exact .pure _

theorem touches_setLayoutVersion (version : StorageLayoutVersion) (file : P site.versionPath)
    (folder : P (dir site.versionPath)) : Touches P (setLayoutVersion site now version) := by
  refine .bind .checkClosed fun _ => ?_
  refine .bind (.of _) fun _ => ?_
  refine .bind_must (fun _ => rfl) folder fun _ => ?_
  exact .bind (.os (fun _ => rfl) file) fun _ => .orFail _ _

theorem touches_close : Touches P close := by
  apply Touches.modify
  intro b
  split <;> rfl

variable [Unicode]

theorem touches_loadTombstone {name} (file : P (join [site.tombstonesDir, name])) :
    Touches P (loadTombstone site name) := by
  unfold loadTombstone
  split
  · refine .bind (.os (fun _ => rfl) file) fun text => ?_
    split
    · exact .pure _
    · split
      · exact .pure _
      · exact .modify fun _ => rfl
  · exact .pure _

theorem touches_loadQuota {name} (file : P (join [site.metadataDir, name])) : Touches P (loadQuota site name) := by
  unfold loadQuota
  split
  · refine .bind (.os (fun _ => rfl) file) fun text => ?_
    split
    · exact .pure _
    · split
      · exact .pure _
      · exact touches_setUsage _ _
  · exact .pure _

theorem touches_initializeBackend (root : P site.rootPath) (quotas : P site.metadataDir)
    (blobs : P (join [site.rootPath, "blobs"])) (tombstones : P site.tombstonesDir)
    (quota : ∀ name, IsName name → P (join [site.metadataDir, name]))
    (tombstone : ∀ name, IsName name → P (join [site.tombstonesDir, name])) :
    Touches P (initializeBackend site) := by
  refine .bind .checkClosed fun _ => ?_
  refine .bind_must (fun _ => rfl) root fun _ => ?_
  refine .bind_must (fun _ => rfl) quotas fun _ => ?_
  refine .bind_must (fun _ => rfl) blobs fun _ => ?_
  refine .bind_must (fun _ => rfl) tombstones fun _ => ?_
  refine .bind ?_ fun _ => ?_
  · exact touches_load tombstones fun name named => touches_loadTombstone (tombstone name named)
  · exact touches_load quotas fun name named => touches_loadQuota (quota name named)

end Paths

end FilesystemBackend

end Storage
