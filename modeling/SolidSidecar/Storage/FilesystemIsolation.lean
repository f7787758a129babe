import SolidSidecar.Storage.FilesystemContainment
import SolidSidecar.Storage.FilesystemSpec

/-!
# Which resources a write can reach

A write of one resource touches the directories above it, its body, the file of metadata beside it and the
file of a quota. It changes what is read of another resource when one of these is the body or the metadata
of the other. Names that are above one another never do: one of the two cannot be a file.
-/

namespace Storage
open Go Filepath Json Rfc3339 Run FilesystemBackend List Disk Site Strings FsCall

/-- The names that lead to the metadata beside what some names lead to. -/
def sidecar (names : List Str) : List Str := names.dropLast ++ [names.getLast?.getD [] ++ ".meta.json"]

/-- Names that lead to the file of a quota, or to a file whose metadata would be in one. -/
def IsQuotaName (names : List Str) : Prop := ∃ file, names = [str ".metadata", file] ∧ "quota_" <+: file

/-- A write of `u` leaves what is read of `v` alone. -/
def Isolates [Unicode] (sha256 : Str → Str) (u v : Str) : Prop :=
  ∀ (site : Site) (now : Time) (r : WriteResource) (b b' : FilesystemBackend),
    put site sha256 now u r b = (.ok (), b') → seen site sha256 v b' = seen site sha256 v b

/-- Two resources that have no file in common: their names differ, and either one of them is above the other,
or neither is in the place of the metadata of the other and `v` is in the place of no quota. -/
def Apart (u v : Str) : Prop :=
  resourceNames u ≠ resourceNames v ∧ (resourceNames u <+: resourceNames v ∨ resourceNames v <+: resourceNames u ∨
      (resourceNames v ≠ sidecar (resourceNames u) ∧ ¬ sidecar (resourceNames v) <+: resourceNames u ∧
        ¬ IsQuotaName (resourceNames v)))

section Places

variable {site : Site} {uri : Str} (level : str ".." ∉ segments uri)

include level

theorem bodyLoc_eq : site.bodyLoc uri = site.rootLoc ++ resourceNames uri := locate_uriToPath level

variable {init : List Str} {last : Str} (found : resourceNames uri = init ++ [last])

include found

theorem metaLoc_eq : site.metaLoc uri = site.rootLoc ++ sidecar (resourceNames uri) := by
  have place : site.metaLoc uri = site.rootLoc ++ init ++ [last ++ ".meta.json"] :=
    locate_metadataPath level found
  rw [place, sidecar, found, dropLast_concat, getLast?_concat, append_assoc]
  rfl

theorem dirLoc_eq : site.dirLoc uri = site.rootLoc ++ init := locate_dir_uriToPath level found

end Places

theorem quotaLoc_eq (site : Site) (storageRoot : Str) : site.quotaLoc storageRoot =
      site.rootLoc ++ [str ".metadata", "quota_" ++ replaceAll storageRoot "/" "_" ++ ".json"] :=
  locate_own isName_metadataDir (isName_quotaFile storageRoot)

theorem sidecar_concat (init : List Str) (last : Str) :
    sidecar (init ++ [last]) = init ++ [last ++ ".meta.json"] := by
  rw [sidecar, dropLast_concat, getLast?_concat]
  rfl

theorem sidecar_injective {names names'} (some : names ≠ []) (some' : names' ≠ [])
    (same : sidecar names = sidecar names') : names = names' := by
  obtain ⟨_, _, rfl⟩ := (eq_nil_or_concat' names).resolve_left some
  obtain ⟨_, _, rfl⟩ := (eq_nil_or_concat' names').resolve_left some'
  rw [sidecar_concat, sidecar_concat] at same
  obtain ⟨front, back⟩ := append_inj' same rfl
  rw [front, append_cancel_right (cons.inj back).1]

/-- The metadata in the place of a quota belong to a file with a name like one. -/
theorem isQuotaName_of_sidecar {names middle} (some : names ≠ [])
    (same : sidecar names = [str ".metadata", "quota_" ++ middle ++ ".json"]) : IsQuotaName names := by
  obtain ⟨init, last, rfl⟩ := (eq_nil_or_concat' names).resolve_left some
  rw [sidecar_concat] at same
  have both : init = [".metadata"] ∧ last ++ ".meta.json" = "quota_" ++ middle ++ ".json" := by
    have whole : init ++ [last ++ ".meta.json"] = [str ".metadata"] ++ ["quota_" ++ middle ++ ".json"] := same
    obtain ⟨front, back⟩ := append_inj' whole rfl
    exact ⟨front, (cons.inj back).1⟩
  obtain ⟨rfl, text⟩ := both
  refine ⟨last, rfl, ?_⟩
  have start : "quota_" <+: last ++ str ".meta.json" := by
    rw [text]
    exact prefix_append _ _
  rcases prefix_or_prefix_of_prefix start (prefix_append _ _) with long | short
  · exact long
  · -- A start of `quota_` that is followed by a dot is not followed by the rest of it.
    have all : ∀ l ∈ (str "quota_").inits, "quota_" <+: l ++ str ".meta.json" → "quota_" <+: l := by
      decide
    exact all last ((mem_inits _ _).mpr short) start

section Apart

variable [Unicode] {sha256 : Str → Str} {site : Site} {now : Time} {u v : Str} {r : WriteResource}
  {b b' : FilesystemBackend} {body : Option Str} {text : Str}
  (level : str ".." ∉ segments u) (level' : str ".." ∉ segments v)
  (puts : Puts site sha256 now u r b b' body text)

include level level' puts

theorem seen_below (below : resourceNames u <+: resourceNames v) (proper : resourceNames u ≠ resourceNames v) :
    seen site sha256 v b' = seen site sha256 v b := by
  obtain ⟨rest, whole⟩ := below
  have longer : rest ≠ [] := by
    rintro rfl
    exact proper (by rw [← whole, append_nil])
  have place : site.bodyLoc v = site.bodyLoc u ++ rest := by
    rw [bodyLoc_eq level, bodyLoc_eq level', ← whole, append_assoc]
  have free := puts.node_bodyLoc
  have blocked : b'.node (site.bodyLoc u) ≠ some .dir := by
    rw [ne_eq, puts.node_eq_dir]
    exact not_or.mpr ⟨free.2, free.1⟩
  have before : b.node (site.bodyLoc v) = none := by
    rw [place]
    exact node_eq_none_of_append free.1 longer
  have after : b'.node (site.bodyLoc v) = none := by
    rw [place]
    exact node_eq_none_of_append blocked longer
  rw [seen_eq_none (by rw [after]; rfl), seen_eq_none (by rw [before]; rfl)]

theorem seen_above (above : resourceNames v <+: resourceNames u) (proper : resourceNames u ≠ resourceNames v) :
    seen site sha256 v b' = seen site sha256 v b := by
  obtain ⟨rest, whole⟩ := above
  have longer : rest ≠ [] := by
    rintro rfl
    exact proper (by rw [← whole, append_nil])
  obtain ⟨_, _, rfl⟩ := (eq_nil_or_concat' rest).resolve_left longer
  have inside : site.bodyLoc v <+: site.dirLoc u := by
    rw [bodyLoc_eq level', dirLoc_eq level (by rw [← whole, append_assoc]), ← append_assoc]
    exact prefix_append _ _
  have after : b'.node _ = some .dir := (puts.node_eq_dir _).mpr (.inl inside)
  rw [seen_eq_none (by rw [after]; rfl), seen_eq_none (puts.clear _ inside)]

theorem seen_elsewhere (different : resourceNames u ≠ resourceNames v)
    (notBelow : ¬ resourceNames u <+: resourceNames v) (notAbove : ¬ resourceNames v <+: resourceNames u)
    (notSide : resourceNames v ≠ sidecar (resourceNames u))
    (notBeside : ¬ sidecar (resourceNames v) <+: resourceNames u) (notQuota : ¬ IsQuotaName (resourceNames v)) :
    seen site sha256 v b' = seen site sha256 v b := by
  have someU : resourceNames u ≠ [] := fun none => notBelow (none ▸ nil_prefix)
  have someV : resourceNames v ≠ [] := fun none => notAbove (none ▸ nil_prefix)
  obtain ⟨init, _, namesU⟩ := (eq_nil_or_concat' _).resolve_left someU
  obtain ⟨front, back, namesV⟩ := (eq_nil_or_concat' _).resolve_left someV
  have frame (names : List Str) (notMeta : names ≠ sidecar (resourceNames u)) (notBody : names ≠ resourceNames u)
      (noQuota : ∀ storageRoot, names ≠ [str ".metadata", "quota_" ++ replaceAll storageRoot "/" "_" ++ ".json"])
      (noDir : ¬ names <+: init) : b'.node (site.rootLoc ++ names) = b.node (site.rootLoc ++ names) := by
    rw [puts.node, metaLoc_eq level namesU, bodyLoc_eq level, quotaLoc_eq, dirLoc_eq level namesU,
      if_neg (by simpa using notMeta), if_neg (by simpa using notBody),
      if_neg (fun both => noQuota _ (append_cancel_left both.1)),
      if_neg (fun above => noDir ((prefix_append_right_inj _).mp above))]
  have initU : init <+: resourceNames u := namesU ▸ prefix_append _ _
  have bodySame : b'.node (site.bodyLoc v) = b.node (site.bodyLoc v) := by
    rw [bodyLoc_eq level']
    apply frame _ notSide (Ne.symm different)
    · intro storageRoot same
      exact notQuota ⟨_, same, by exact prefix_append _ _⟩
    · exact fun above => notAbove (above.trans initU)
  have metaSame : b'.node (site.metaLoc v) = b.node (site.metaLoc v) := by
    rw [metaLoc_eq level' namesV]
    apply frame
    · exact fun same => different (sidecar_injective someV someU same).symm
    · exact fun same => notBeside (same ▸ prefix_rfl)
    · exact fun storageRoot same => notQuota (isQuotaName_of_sidecar someV same)
    · exact fun above => notBeside (above.trans initU)
  have tombstone : b'.tombstones.lookup v = b.tombstones.lookup v := by
    rw [puts.tombstones, GoMap.lookup_erase_eq, if_neg]
    rintro rfl
    exact different rfl
  by_cases readable : b.closed = false ∧ v ≠ [] ∧ b.tombstones.lookup v = none
  · obtain ⟨opened, named, absent⟩ := readable
    have beside : site.metaLoc v = (site.rootLoc ++ front) ++ [back ++ ".meta.json"] := by
      rw [metaLoc_eq level' namesV, namesV, sidecar_concat, append_assoc]
    have place : site.bodyLoc v = (site.rootLoc ++ front) ++ [back] := by
      rw [bodyLoc_eq level', namesV, append_assoc]
    rw [seen_eq_view beside (puts.closed.trans opened) named (tombstone.trans absent) place,
      seen_eq_view beside opened named absent place, bodySame, metaSame]
  · rw [seen_of_not_open readable, seen_of_not_open (by rwa [puts.closed, tombstone])]

end Apart

theorem isolates_of_apart [Unicode] {sha256 u v} (level : str ".." ∉ segments u)
    (level' : str ".." ∉ segments v) (apart : Apart u v) : Isolates sha256 u v := by
  intro site now r b b' done
  obtain ⟨_, _, puts⟩ := puts_of_put done
  obtain ⟨different, below | above | ⟨notSide, notBeside, notQuota⟩⟩ := apart
  · exact seen_below level level' puts below different
  · exact seen_above level level' puts above different
  · by_cases below : resourceNames u <+: resourceNames v
    · exact seen_below level level' puts below different
    by_cases above : resourceNames v <+: resourceNames u
    · exact seen_above level level' puts above different
    · exact seen_elsewhere level level' puts different below above notSide notBeside notQuota

/-! ## Resources that are not apart

Whenever a write of `u` can be seen at `v`, it is seen below the root path `/r` already, on a disk with
little more on it than `v`. -/

section Collide

open FsCall

/-- A write without preconditions, of a body that is not JSON. -/
def plainWrite (storageRoot : Str) : WriteResource :=
  { uri := [], body := some "x", metadata := { storageRoot } }

def rSite : Site := ⟨"/r", by decide, plainSystem⟩

theorem locate_rSite : rSite.sys.locate rSite.rootPath = [str "r"] := by decide

/-- The directory and the name of a resource below `/r`, which may be `/r` itself. -/
theorem places_rSite {uri} (level : str ".." ∉ segments uri) :
    ∃ parent c, parent ++ [c] = str "r" :: resourceNames uri ∧ rSite.dirLoc uri = parent ∧
      rSite.bodyLoc uri = parent ++ [c] ∧
      rSite.metaLoc uri = parent ++ [c ++ str ".meta.json"] := by
  have body : rSite.bodyLoc uri = str "r" :: resourceNames uri := by
    rw [bodyLoc_eq level]
    rfl
  rcases eq_nil_or_concat' (resourceNames uri) with none | ⟨init, last, found⟩
  · have nothing : relative [safeURI uri] = [] := by rw [relative_uri level, none]
    have parts : elements rSite.rootPath = [] ++ [str "r"] := by decide
    obtain ⟨base, place, beside, above⟩ := places_of_last ((elements_join_none rSite nothing).trans parts) (by decide)
    refine ⟨base, "r", ?_, above, place, beside⟩
    exact place.symm.trans body
  · refine ⟨"r" :: init, last, by rw [found]; rfl, ?_, ?_, ?_⟩
    · rw [dirLoc_eq level found]
      rfl
    · rw [body, found]
      rfl
    · rw [metaLoc_eq level found, found, sidecar_concat]
      rfl

theorem concat_metadata {parent names c r} (some : names ≠ []) (whole : parent ++ [c] = r :: names) :
    parent ++ [c ++ str ".meta.json"] = r :: sidecar names := by
  obtain ⟨init, last, rfl⟩ := (eq_nil_or_concat' names).resolve_left some
  have whole : parent ++ [c] = (r :: init) ++ [last] := whole
  obtain ⟨front, back⟩ := append_inj' whole rfl
  rw [front, (cons.inj back).1, sidecar_concat]
  rfl

theorem concat_ne_metadata (parent : Loc) (c : Str) : parent ++ [c] ≠ parent ++ [c ++ ".meta.json"] := by
  intro same
  have equal : c = c ++ ".meta.json" := (cons.inj (append_cancel_left same)).1
  exact absurd (self_eq_append_right.mp equal) (by decide)

/-- What is on the disk of a resource without metadata. -/
theorem nodes_single {parent : Loc} {c} (names : ∀ n ∈ parent ++ [c], IsName n) :
    (single parent c (str "y") .zero names).node (parent ++ [c]) = some (.file "y" .zero) ∧
      (single parent c (str "y") .zero names).node (parent ++ [c ++ ".meta.json"]) = none := by
  constructor
  · rw [node_single, if_pos rfl]
  · rw [node_single, if_neg (concat_ne_metadata parent c).symm, if_neg]
    exact fun shorter => by simpa using shorter.length_le

def withSide (parent : Loc) (c text : Str) (names : ∀ n ∈ parent ++ [c], IsName n)
    (names' : ∀ n ∈ parent ++ [c ++ ".meta.json"], IsName n) : Disk :=
  ((Disk.single parent c (str "y") .zero names).writeFile .zero (parent ++ [c ++ str ".meta.json"]) names' text).2

theorem node_withSide {parent c text names names'} (p : Loc) : (withSide parent c text names names').node p =
      if p = parent ++ [c ++ ".meta.json"] then some (.file text .zero)
      else (single parent c (str "y") .zero names).node p := by
  have writable : (single parent c (str "y") .zero names).Writable (parent ++ [c ++ ".meta.json"]) := by
    constructor
    · rw [(nodes_single names).2]
      exact fun none => nomatch none
    · rw [dropLast_concat, node_single, if_neg (by simp), if_pos prefix_rfl]
  rw [withSide, node_writeFile]
  simp [writable]

/-- A storage root whose quota is in the place of the metadata of a file that is named like a quota. -/
theorem quotaLoc_metadata {rest} (flat : separator ∉ rest) : rSite.quotaLoc (rest ++ ".meta") =
      [str "r", ".metadata"] ++ [("quota_" ++ rest) ++ ".meta.json"] := by
  have flat : separator ∉ rest ++ ".meta" := by
    intro mem
    rcases mem_append.mp mem with inside | suffix
    · exact flat inside
    · exact absurd suffix (by decide)
  have unchanged : replaceAll _ "/" "_" = rest ++ ".meta" :=
    replaceAll_of_notMem flat _
  have suffix : ".meta.json" = ".meta" ++ str ".json" := by decide
  rw [quotaLoc_eq, unchanged, suffix, rootLoc, locate_rSite]
  simp

theorem exists_of_isQuotaName {parent names c} (whole : parent ++ [c] = str "r" :: names)
    (quota : IsQuotaName names) : ∃ rest, parent = [str "r", ".metadata"] ∧ c = str "quota_" ++ rest := by
  obtain ⟨_, found, rest, rfl⟩ := quota
  rw [found] at whole
  have whole : parent ++ [c] = [str "r", ".metadata"] ++ ["quota_" ++ rest] := whole
  obtain ⟨front, back⟩ := append_inj' whole rfl
  exact ⟨rest, front, (cons.inj back).1⟩

theorem metadata_not_above (parent : Loc) (c : Str) : ¬ parent ++ [c ++ ".meta.json"] <+: ["r", ".metadata"] := by
  intro shorter
  have mem : c ++ ".meta.json" ∈ [str "r", ".metadata"] := shorter.subset (by simp)
  have length : (c ++ str ".meta.json").length ≤ 9 :=
    (by decide : ∀ n ∈ [str "r", ".metadata"], n.length ≤ 9) _ mem
  rw [length_append, (by decide : (str ".meta.json").length = 10)] at length
  omega

variable [Unicode] {sha256 : Str → Str} {u v : Str}

/-- A plain write of `u` on a disk, and what it leaves. -/
structure Written (sha256 : Str → Str) (u storageRoot : Str) (disk : Disk) (b' : FilesystemBackend) (text : Str) :
    Prop where
  done : put rSite sha256 .zero u (plainWrite storageRoot) (backendOn disk) = (.ok (), b')
  puts : Puts rSite sha256 .zero u (plainWrite storageRoot) (backendOn disk) b' (some "x") text

/-- The write succeeds when no file is in the place of a directory and no directory in the place of a file. -/
theorem puts_plainWrite {disk} (named : u ≠ []) (level : str ".." ∉ segments u) (storageRoot : Str)
    (clear : disk.Clear (rSite.dirLoc u))
    (bodyFree : disk.node (rSite.bodyLoc u) ≠ some .dir)
    (metaFree : disk.node (rSite.metaLoc u) ≠ some .dir) :
    ∃ b' text, Written sha256 u storageRoot disk b' text := by
  obtain ⟨parent, c, -, dirs, body, beside⟩ := places_rSite level
  obtain ⟨text, marshalled⟩ : ∃ text, marshalMetadata indented 0
      (prepareMetadata sha256 .zero u (some "x") (plainWrite storageRoot).metadata) = some text :=
    ⟨_, rfl⟩
  have node (p : Loc) : (dirsMade rSite u (backendOn disk).machine.disk).node p =
      if p <+: parent then some .dir else disk.node p := by
    have clear : (backendOn disk).machine.disk.Clear _ := clear
    rw [dirsMade, node_mkdirAll]
    simp only [clear, and_true]
    rw [dirs]
    rfl
  have longer (c : Str) : ¬ parent ++ [c] <+: parent := fun shorter => by simpa using shorter.length_le
  have made : (dirsMade rSite u (backendOn disk).machine.disk).node parent = some .dir := by
    rw [node, if_pos prefix_rfl]
  have affords : Affords ((backendOn disk).usageOf (storageRootOf u (plainWrite storageRoot).metadata))
      (resourceSize (some "x") (plainWrite storageRoot).metadata) := by
    have none : (backendOn disk).usageOf (storageRootOf u (plainWrite storageRoot).metadata) = {} := rfl
    rw [none]
    exact ⟨fun past => absurd past.1 (by decide), fun past => absurd past.1 (by decide)⟩
  obtain ⟨b', done⟩ : ∃ b', put rSite sha256 .zero u _ _ = (.ok (), b') := by
    apply put_of_ready rfl named ⟨rfl, rfl⟩ rfl marshalled clear affords
    · rw [countedDisk, quotaSaved, Writable, ne_eq, node_writeFile_eq_dir, node_writeFile_eq_dir, body, dropLast_concat]
      refine ⟨fun here => bodyFree ?_, made⟩
      rwa [← body, node, body, if_neg (longer c), ← body] at here
    · rw [bodyWritten, Writable, ne_eq, node_writeFile_eq_dir, node_writeFile_eq_dir, countedDisk,
        quotaSaved, node_writeFile_eq_dir, node_writeFile_eq_dir, beside, dropLast_concat]
      refine ⟨fun here => metaFree ?_, made⟩
      rwa [node, if_neg (longer _), ← beside] at here
  obtain ⟨body', text', puts⟩ := puts_of_put done
  obtain rfl : some (str "x") = body' := Except.ok.inj puts.read
  exact ⟨b', text', done, puts⟩

/-- Two resources meet when on some disk a write of the one changes what there is of the other. -/
theorem not_isolates {disk storageRoot text b'} (named : v ≠ [])
    (level : str ".." ∉ segments v) (written : Written sha256 u storageRoot disk b' text)
    (differ : view sha256 v (b'.node (rSite.bodyLoc v)) (b'.node (rSite.metaLoc v)) ≠
      view sha256 v (disk.node (rSite.bodyLoc v)) (disk.node (rSite.metaLoc v))) :
    ¬ Isolates sha256 u v := by
  obtain ⟨_, _, -, -, place, beside⟩ := places_rSite level
  intro isolates
  have same := isolates _ _ _ _ _ written.done
  have absent : b'.tombstones.lookup v = none := by
    rw [written.puts.tombstones, GoMap.lookup_erase_eq]
    split_ifs <;> rfl
  rw [seen_eq_view beside written.puts.closed named absent place, seen_eq_view beside rfl named rfl place] at same
  exact differ same

theorem view_ne {data data' time side} (differ : data ≠ data') (m : Metadata) :
    view sha256 v (some (.file data time)) side ≠ some (some data', m) := by
  intro same
  rw [view, Option.map_eq_some_iff] at same
  obtain ⟨_, -, pair⟩ := same
  exact differ (Option.some.inj (Prod.ext_iff.mp pair).1)

theorem view_eq_none {here side} (lost : sideMetadata side = none) : view sha256 v here side = none := by
  unfold view
  split
  · rw [lost]
    rfl
  · rfl

theorem contentType_of_view {here side body m} (found : view sha256 v here side = some (body, m)) :
    ∃ m', sideMetadata side = some m' ∧ m.contentType = m'.contentType := by
  unfold view at found
  split at found
  · obtain ⟨m', side, pair⟩ := Option.map_eq_some_iff.mp found
    obtain ⟨-, rfl⟩ := Prod.mk.inj pair
    exact ⟨m', side, rfl⟩
  · cases found

section Single

variable {parent parent' : Loc} {c c' : Str} (names : ∀ n ∈ parent' ++ [c'], IsName n) (named : u ≠ [])
  (level : str ".." ∉ segments u) (dirs : rSite.dirLoc u = parent)
  (body : rSite.bodyLoc u = parent ++ [c])
  (beside : rSite.metaLoc u = parent ++ [c ++ str ".meta.json"])

include names named level dirs body beside

/-- A write succeeds where there is one file, not above it and not deeper. -/
theorem puts_single (sha256 : Str → Str) (notAbove : ¬ parent' ++ [c'] <+: parent)
    (notDeeper : parent'.length ≤ parent.length) :
    ∃ b' text, Written sha256 u "s" (single parent' c' "y" .zero names) b' text := by
  have longer (n : Str) : ¬ parent ++ [n] <+: parent' := by
    intro shorter
    have bound := shorter.length_le
    rw [length_append, length_singleton] at bound
    omega
  apply puts_plainWrite named level
  · rw [dirs]
    exact clear_single notAbove
  · rw [body]
    exact node_single_ne_dir (longer _)
  · rw [beside]
    exact node_single_ne_dir (longer _)

/-- A write succeeds where there is a file with metadata, if neither is above the other. -/
theorem puts_withSide (sha256 : Str → Str) (text storageRoot : Str)
    (names' : ∀ n ∈ parent' ++ [c' ++ ".meta.json"], IsName n)
    (bodyOut : ¬ parent' ++ [c'] <+: parent) (metaOut : ¬ parent' ++ [c' ++ ".meta.json"] <+: parent)
    (bodyFree : ¬ parent ++ [c] <+: parent') (metaFree : ¬ parent ++ [c ++ ".meta.json"] <+: parent') :
    ∃ b' text', Written sha256 u storageRoot (withSide parent' c' text names names') b' text' := by
  apply puts_plainWrite named level
  · intro p above
    rw [dirs] at above
    rw [node_withSide, if_neg]
    · exact clear_single bodyOut p above
    · rintro rfl
      exact metaOut above
  · rw [body, withSide, ne_eq, node_writeFile_eq_dir]
    exact node_single_ne_dir bodyFree
  · rw [beside, withSide, ne_eq, node_writeFile_eq_dir]
    exact node_single_ne_dir metaFree

end Single

section Ways

variable (named : u ≠ []) (named' : v ≠ []) (level : str ".." ∉ segments u) (level' : str ".." ∉ segments v)

include named named' level level'

/-- Resources with the same names have the same files. -/
theorem not_isolates_of_same (same : resourceNames u = resourceNames v) : ¬ Isolates sha256 u v := by
  obtain ⟨parent, c, whole, dirs, body, beside⟩ := places_rSite level
  obtain ⟨parent', c', whole', -, body', beside'⟩ := places_rSite level'
  have joined : parent ++ [c] = parent' ++ [c'] := by rw [whole, same, whole']
  obtain ⟨rfl, last⟩ := append_inj' joined rfl
  obtain rfl : c = c' := (cons.inj last).1
  have names : ∀ n ∈ parent ++ [c], IsName n := body ▸ isName_bodyLoc
  have longer : ¬ parent ++ [c] <+: parent := fun shorter => by simpa using shorter.length_le
  obtain ⟨b', _, written⟩ := puts_single names named level dirs body beside sha256 longer le_rfl
  apply not_isolates named' level' written
  have after : b'.node (parent ++ [c]) = some (.file "x" .zero) := by
    rw [written.puts.node, beside, body, if_neg (concat_ne_metadata parent c), if_pos rfl]
    rfl
  rw [body', beside', after, (nodes_single names).1, (nodes_single names).2]
  exact view_ne (by decide) _

/-- A resource in the place of the metadata of another is overwritten by them. -/
theorem not_isolates_of_side (some : resourceNames u ≠ []) (side : resourceNames v = sidecar (resourceNames u)) :
    ¬ Isolates sha256 u v := by
  obtain ⟨parent, c, whole, dirs, body, beside⟩ := places_rSite level
  obtain ⟨parent', c', whole', -, body', beside'⟩ := places_rSite level'
  have joined : parent' ++ [c'] = parent ++ [c ++ ".meta.json"] := by
    rw [whole', side, concat_metadata some whole]
  obtain ⟨rfl, last⟩ := append_inj' joined rfl
  obtain rfl : c' = c ++ ".meta.json" := (cons.inj last).1
  have names : ∀ n ∈ parent' ++ [c ++ ".meta.json"], IsName n := body' ▸ isName_bodyLoc
  have longer : ¬ parent' ++ [c ++ ".meta.json"] <+: parent' := fun shorter => by simpa using shorter.length_le
  obtain ⟨b', text, written⟩ := puts_single names named level dirs body beside sha256 longer le_rfl
  apply not_isolates named' level' written
  have after : b'.node (parent' ++ [c ++ ".meta.json"]) = .some (.file text .zero) := by
    rw [written.puts.node, beside, if_pos rfl]
  have object : text ≠ "y" := by
    obtain ⟨ms, -, rfl⟩ := Option.map_eq_some_iff.mp written.puts.marshalled
    obtain ⟨_, start⟩ := ofMembers_start indented 0 ms
    rw [start]
    exact fun same => absurd (cons.inj same).1 (by decide)
  rw [body', beside', after, (nodes_single names).1, (nodes_single names).2]
  exact view_ne object _

/-- A resource whose metadata are in the place of another, or of a directory above it, loses them. -/
theorem not_isolates_of_beside (some : resourceNames v ≠ [])
    (inside : sidecar (resourceNames v) <+: resourceNames u) : ¬ Isolates sha256 u v := by
  obtain ⟨parent, c, whole, dirs, body, beside⟩ := places_rSite level
  obtain ⟨parent', c', whole', -, body', beside'⟩ := places_rSite level'
  have above : parent' ++ [c' ++ ".meta.json"] <+: parent ++ [c] := by
    rw [whole, concat_metadata some whole']
    exact cons_prefix_cons.mpr ⟨rfl, inside⟩
  have notAbove : ¬ parent' ++ [c'] <+: parent := by
    intro shorter
    have both := prefix_of_prefix_length_le (shorter.trans (prefix_append parent [c])) above (by simp)
    exact concat_ne_metadata parent' c' (both.eq_of_length (by simp))
  have notDeeper : parent'.length ≤ parent.length := by
    have bound := above.length_le
    simp only [length_append, length_singleton] at bound
    omega
  have names : ∀ n ∈ parent' ++ [c'], IsName n := body' ▸ isName_bodyLoc
  obtain ⟨b', _, written⟩ := puts_single names named level dirs body beside sha256 notAbove notDeeper
  apply not_isolates named' level' written
  have lost : sideMetadata (b'.node (parent' ++ [c' ++ ".meta.json"])) = none := by
    by_cases here : parent' ++ [c' ++ ".meta.json"] = parent ++ [c]
    · have body : b'.node (parent ++ [c]) = .some (.file "x" .zero) := by
        rw [written.puts.node, beside, body, if_neg (concat_ne_metadata parent c), if_pos rfl]
        rfl
      rw [here, body]
      rfl
    · have directory : parent' ++ [c' ++ ".meta.json"] <+: parent := by
        rcases prefix_concat_iff.mp above with equal | shorter
        · exact absurd equal here
        · exact shorter
      rw [(written.puts.node_eq_dir _).mpr (.inl (dirs ▸ directory))]
      rfl
  rw [body', beside', view_eq_none lost, (nodes_single names).1, (nodes_single names).2]
  exact fun none => nomatch none

/-- Metadata in the place of a quota are overwritten by it. -/
theorem not_isolates_of_quota (notBelow : ¬ resourceNames u <+: resourceNames v)
    (notAbove : ¬ resourceNames v <+: resourceNames u)
    (notBeside : ¬ sidecar (resourceNames v) <+: resourceNames u) (quota : IsQuotaName (resourceNames v)) :
    ¬ Isolates sha256 u v := by
  have someU : resourceNames u ≠ [] := fun none => notBelow (none ▸ nil_prefix)
  have someV : resourceNames v ≠ [] := fun none => notAbove (none ▸ nil_prefix)
  obtain ⟨parent, c, whole, dirs, body, beside⟩ := places_rSite level
  obtain ⟨parent', c', whole', -, body', beside'⟩ := places_rSite level'
  have side := concat_metadata someU whole
  have side' := concat_metadata someV whole'
  have inU : parent <+: "r" :: resourceNames u := whole ▸ prefix_append _ _
  have bodyOut : ¬ parent' ++ [c'] <+: parent := by
    intro shorter
    rw [whole'] at shorter
    exact notAbove (cons_prefix_cons.mp (shorter.trans inU)).2
  have metaOut : ¬ parent' ++ [c' ++ ".meta.json"] <+: parent := by
    intro shorter
    rw [side'] at shorter
    exact notBeside (cons_prefix_cons.mp (shorter.trans inU)).2
  have names : ∀ n ∈ parent' ++ [c'], IsName n := body' ▸ isName_bodyLoc
  have names' : ∀ n ∈ parent' ++ [c' ++ ".meta.json"], IsName n := beside' ▸ isName_metaLoc
  obtain ⟨text, marshalled⟩ : ∃ text, marshalMetadata indented 0 { contentType := "c" } = some text := ⟨_, rfl⟩
  obtain ⟨rest, isQuota⟩ := exists_of_isQuotaName whole' quota
  have bodyFree : ¬ parent ++ [c] <+: parent' := by
    intro shorter
    have below : str "r" :: resourceNames u <+: "r" :: resourceNames v := by
      rw [← whole, ← whole']
      exact shorter.trans (prefix_append _ _)
    exact notBelow (cons_prefix_cons.mp below).2
  have metaFree : ¬ parent ++ [c ++ ".meta.json"] <+: parent' := isQuota.1 ▸ metadata_not_above parent c
  obtain ⟨b', _, written⟩ := puts_withSide names named level dirs body beside sha256 text
    _ names' bodyOut metaOut bodyFree metaFree
  have root : storageRootOf u (plainWrite _).metadata = rest ++ ".meta" :=
    if_neg fun none => absurd (append_eq_nil_iff.mp none).2 (by decide)
  have place : rSite.quotaLoc (rest ++ ".meta") = parent' ++ [c' ++ ".meta.json"] := by
    have single := (names c' (by simp)).single
    rw [isQuota.2] at single
    rw [quotaLoc_metadata fun mem => single (mem_append_right _ mem), isQuota.1, isQuota.2]
  have after : b'.node (parent' ++ [c' ++ ".meta.json"]) = some (.file (marshalUsage indented
      (charged ((backendOn (withSide parent' c' text names names')).usageOf (rest ++ ".meta"))
        (resourceSize (some "x") (plainWrite (rest ++ str ".meta")).metadata))) .zero) := by
    rw [written.puts.node, root, place, beside, body, side', side, whole, if_neg, if_neg, if_pos]
    · refine ⟨rfl, ?_⟩
      rw [← side']
      constructor
      · have file : (backendOn (withSide parent' c' text names names')).node
            _ = some _ := (node_withSide _).trans (if_pos rfl)
        rw [written.puts.node_dirsMade, dirs, if_neg metaOut, file]
        exact fun dir => nomatch dir
      · have directory : (backendOn (withSide parent' c' text names names')).node parent' = some .dir := by
          refine (node_withSide parent').trans ?_
          rw [if_neg (by simp), node_single, if_neg (by simp), if_pos prefix_rfl]
        rw [dropLast_concat, written.puts.node_dirsMade, directory, ite_self]
    · exact fun same => notBeside ((cons.inj same).2 ▸ prefix_rfl)
    · intro same
      exact notBelow (sidecar_injective someV someU (cons.inj same).2 ▸ prefix_rfl)
  apply not_isolates named' level' written
  rw [body', beside', after, node_withSide, if_neg (concat_ne_metadata parent' c'), (nodes_single names).1,
    node_withSide, if_pos rfl]
  have before : sideMetadata (some (.file text .zero)) = some (Metadata.reread { contentType := "c" }) := by
    have sized : Metadata.Sized { contentType := "c" } := ⟨by decide, by decide⟩
    have read : unmarshalMetadata (text ++ []) = some _ :=
      unmarshalMetadata_marshalMetadata marshalled sized rfl
    rwa [append_nil] at read
  intro same
  rw [view, before] at same
  obtain ⟨_, found, none⟩ := contentType_of_view same
  have none : toValid "c" = [] := none.trans (contentType_of_usage found)
  exact absurd none (by decide)

end Ways

end Collide

/-- A write of one resource leaves another alone exactly when they are apart. -/
theorem isolates_iff_apart [Unicode] (sha256 : Str → Str) {u v : Str} (accepted : validateStorageURI u = .ok ())
    (accepted' : validateStorageURI v = .ok ()) : Isolates sha256 u v ↔ Apart u v := by
  have level := level_of_validateStorageURI accepted
  have level' := level_of_validateStorageURI accepted'
  have named := ne_nil_of_validateStorageURI accepted
  have named' := ne_nil_of_validateStorageURI accepted'
  refine ⟨fun isolates => ?_, isolates_of_apart level level'⟩
  by_contra meet
  apply absurd isolates
  by_cases same : resourceNames u = resourceNames v
  · exact not_isolates_of_same named named' level level' same
  by_cases below : resourceNames u <+: resourceNames v
  · exact absurd ⟨same, .inl below⟩ meet
  by_cases above : resourceNames v <+: resourceNames u
  · exact absurd ⟨same, .inr (.inl above)⟩ meet
  have someU : resourceNames u ≠ [] := fun none => below (none ▸ nil_prefix)
  have someV : resourceNames v ≠ [] := fun none => above (none ▸ nil_prefix)
  by_cases side : resourceNames v = sidecar (resourceNames u)
  · exact not_isolates_of_side named named' level level' someU side
  by_cases beside : sidecar (resourceNames v) <+: resourceNames u
  · exact not_isolates_of_beside named named' level level' someV beside
  by_cases quota : IsQuotaName (resourceNames v)
  · exact not_isolates_of_quota named named' level level' below above beside quota
  · exact absurd ⟨same, .inr (.inr ⟨side, beside, quota⟩)⟩ meet

/-- Two resources with names of their own are apart. -/
theorem isolates_iff_apart_notes : Apart (str "/a") (str "/b") ∧
    @Isolates Unicode.ascii (fun _ => []) (str "/a") (str "/b") := by
  have apart : Apart (str "/a") (str "/b") := by
    refine ⟨by decide +kernel, .inr (.inr ⟨by decide +kernel, by decide +kernel, ?_⟩)⟩
    rintro ⟨_, names, -⟩
    have two : (resourceNames (str "/b")).length = 2 := by rw [names]; rfl
    exact absurd two (by decide +kernel)
  exact ⟨apart, (@isolates_iff_apart Unicode.ascii (fun _ => []) _ _ (by decide +kernel) (by decide +kernel)).mpr apart⟩

section Replaced

attribute [local instance] Unicode.ascii

/-- A backend on `/srv/pod` in which one resource is stored. -/
def stored : FilesystemBackend :=
  (put FsCall.podSite (fun _ => []) .zero (str "/a_b") { uri := [], body := some (str "mine") }
    (FsCall.backendOn Disk.empty)).2

/-- A colon and an underscore are the same in the name of a file, so one resource overwrites the other. -/
theorem put_overwrites_other :
    validateURI (str "/a:b") = .ok (str "/a:b") ∧ validateURI (str "/a_b") = .ok (str "/a_b") ∧
      validateStorageURI (str "/a:b") = .ok () ∧ validateStorageURI (str "/a_b") = .ok () ∧
      (put FsCall.podSite (fun _ => []) .zero (str "/a:b") { uri := [], body := some (str "yours") } stored).1 =
        .ok () ∧
      (seen FsCall.podSite (fun _ => []) (str "/a_b") stored).map Prod.fst = some (some (str "mine")) ∧
      (seen FsCall.podSite (fun _ => []) (str "/a_b")
        (put FsCall.podSite (fun _ => []) .zero (str "/a:b") { uri := [], body := some (str "yours") } stored).2).map
          Prod.fst = some (some (str "yours")) := by
  decide +kernel

end Replaced

end Storage
