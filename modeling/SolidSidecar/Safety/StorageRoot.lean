import SolidSidecar.Go.Filepath
import SolidSidecar.Go.Http
import SolidSidecar.Go.Json

/-!
# Requests in front of a storage root

`ValidateRequest` looks at the decoded path of a request, `StorageRootValidator` at the escaped one.
What both let pass stays inside an allowed root for a backend that decodes the path and for one that
does not (`accepted_within`).
-/

namespace Safety
open Go List Strings Filepath Url
open Go.Filepath (separator segments clean elements)

inductive RequestError where
  | absoluteForm | pathNotRooted | invalidUTF8 | invalidEscape | unsafeCharacters | dotSegment
  | headerName | headerValue (name : Str) | disallowedContentType (contentType : Str)
  | missingPath | outsideRoots (requestPath : Str)
  deriving DecidableEq, Repr

def allowedWriteMethods : List Str := ["PUT", "POST", "PATCH", "DELETE"]

def disallowedWriteContentTypes : List Str :=
  ["text/html", "text/javascript", "application/javascript", "application/x-javascript", "application/ecmascript"]

section Requests

variable [Unicode]

def isWriteMethod (method : Str) : Bool := allowedWriteMethods.contains (toUpper method)

/-- Of the content types that are not disallowed, the known and the unknown ones pass alike. -/
def validateWriteRequest (r : Http.Request) : Except RequestError Unit :=
  let contentType := r.header.get "Content-Type"
  if !isWriteMethod r.method || r.method == "DELETE" || contentType.isEmpty then .ok ()
  else
    let contentType := trimSpace ((split ';'.toUInt8 contentType).headD [])
    refuse (disallowedWriteContentTypes.any (equalFold contentType)) (.disallowedContentType contentType)

def checkHeader (entry : Str × List Str) : Except RequestError Unit := do
  let controls : Str := [0x0D, 0x0A, 0x00]
  refuse (containsAny entry.1 controls) .headerName
  checkAll (fun value => refuse (containsAny value controls) (.headerValue entry.1)) entry.2

def isDot (segment : Str) : Bool := segment == "." || segment == ".."

/-- `ValidateRequest` of a request with a URL; `order` lists the header as the loop over it goes. -/
def validateRequest (order : Http.Header → List (Str × List Str)) (r : Http.Request) : Except RequestError Unit := do
  refuse (r.url.scheme ≠ []) .absoluteForm
  refuse (r.url.path = [] ∨ !hasPrefix r.url.path "/") .pathNotRooted
  refuse (Json.toValid r.url.path ≠ r.url.path ∨ Json.toValid r.url.rawPath ≠ r.url.rawPath) .invalidUTF8
  let decodedPath ← (Url.pathUnescape r.url.escapedPath).mapError fun _ => .invalidEscape
  refuse (containsAny decodedPath [0x00, '\\'.toUInt8]) .unsafeCharacters
  refuse ((split separator decodedPath).any isDot) .dotSegment
  checkAll checkHeader (order r.header)
  validateWriteRequest r

end Requests

structure StorageRootValidator where
  allowedRoots : List Str
  requireRoot : Bool

def normalizeStorageRoot (root : Str) : Str :=
  if root = [] ∨ root = "/" then "/"
  else "/" ++ trimSuffix (trimPrefix (clean root) "/") "/"

def newStorageRootValidator (allowedRoots : List Str) : StorageRootValidator :=
  let normalized := allowedRoots.map normalizeStorageRoot
  ⟨normalized, 0 < normalized.length⟩

def isWithinRoot (requestPath root : Str) : Bool :=
  let requestPath := clean ("/" ++ trimPrefix requestPath "/")
  let root := clean root
  requestPath == root || root == "/" || hasPrefix requestPath (root ++ "/")

def StorageRootValidator.validate (v : StorageRootValidator) (r : Http.Request) : Except RequestError Unit :=
  if !v.requireRoot then .ok ()
  else
    let requestPath := r.url.escapedPath
    if requestPath = [] then .error .missingPath
    else refuse (!v.allowedRoots.any (isWithinRoot requestPath)) (.outsideRoots requestPath)

/-- The segments after `out`, each with the slash before it: `.` is left out, `..` takes the last segment
of `out` away, and either of them at the end leaves its slash. -/
def removeDotsFrom (out : Str) : List Str → Str
  | [] => out
  | c :: rest =>
    let kept :=
      if c = "." then out
      else if c = ".." then ((cutLast out separator).map Prod.fst).getD []
      else out ++ separator :: c
    if rest.isEmpty && isDot c then kept ++ [separator] else removeDotsFrom kept rest

/-- The removal of dot segments from a path, those in front of a relative path included. -/
def removeDotSegments (path : Str) : Str :=
  match (split separator path).dropWhile isDot with
  | [] => []
  | first :: rest => removeDotsFrom first rest

def Level (path : Str) : Prop := ∀ c ∈ split separator path, isDot c = false

theorem removeDotsFrom_of_level {rest} (level : ∀ c ∈ rest, isDot c = false) (out : Str) :
    removeDotsFrom out rest = join (out :: rest) [separator] := by
  induction rest generalizing out with
  | nil => simp [removeDotsFrom]
  | cons c rest ih =>
    have here := level c mem_cons_self
    have proper : c ≠ "." ∧ c ≠ ".." := by simpa [isDot] using here
    rw [removeDotsFrom, here, if_neg proper.1, if_neg proper.2,
      ih fun c mem => level c (mem_cons_of_mem _ mem), join_cons_cons]
    cases rest with
    | nil => simp
    | cons next rest => simp [join_cons_cons]

theorem Level.removeDotSegments {path} (level : Level path) : removeDotSegments path = path := by
  unfold Safety.removeDotSegments
  rw [dropWhile_eq_self_iff.mpr fun some => by simp [level _ _]]
  have whole := join_split separator path
  unfold Level at level
  cases parts : split separator path with
  | nil => exact absurd parts (split_ne_nil _ _)
  | cons first rest =>
    rw [parts] at whole level
    exact (removeDotsFrom_of_level (fun c mem => level c (mem_cons_of_mem _ mem)) first).trans whole

theorem elements_of_level {path} (level : Level path) : elements path = segments path := by
  have flat : str ".." ∉ split separator path := fun mem => by simpa [isDot] using level _ mem
  rw [elements, foldl_step_of_level flat]
  refine filter_congr fun c mem => ?_
  have proper : c ≠ "." ∧ c ≠ ".." := by simpa [isDot] using level c mem
  simp [proper.1]

theorem level_iff {path} : Level path ↔ ∀ c ∈ segments path, isDot c = false := by
  constructor
  · exact fun level c mem => level c (Filepath.mem_segments.mp mem).1
  · intro level c mem
    by_cases empty : c = []
    · subst empty
      decide
    · exact level c (Filepath.mem_segments.mpr ⟨mem, empty⟩)

theorem segments_of_notMem {c : Str} (named : c ≠ []) (single : separator ∉ c) : segments c = [c] := by
  simp [segments, split_of_notMem single, named]

theorem isAbs_of_segments {path : Str} (some : path ≠ []) (none : segments path = []) : isAbs path = true := by
  cases path with
  | nil => exact absurd rfl some
  | cons c rest =>
    by_cases slash : c = separator
    · exact Filepath.isAbs_iff.mpr ⟨rest, by rw [slash]⟩
    · rw [segments, split, if_neg slash] at none
      split at none <;> simp at none

/-- Cleaning keeps the segments of a path without dot segments. -/
theorem segments_clean {path} (level : Level path) (some : path ≠ []) : segments (clean path) = segments path := by
  have same := elements_of_level level
  by_cases none : elements path = []
  · rw [same] at none
    rw [clean_of_elements_eq_nil (same.trans none), if_pos (isAbs_of_segments some none), none]
    decide
  · rw [segments, split_clean none, same, segments]
    split_ifs <;> simp

theorem segments_trimPrefix (s : Str) : segments (trimPrefix s "/") = segments s := by
  unfold trimPrefix
  split_ifs with slash
  · obtain ⟨rest, rfl⟩ := isPrefixOf_iff_prefix.mp slash
    exact (segments_cons_separator rest).symm
  · rfl

theorem segments_trimSuffix (s : Str) : segments (trimSuffix s "/") = segments s := by
  unfold trimSuffix
  split_ifs with slash
  · obtain ⟨init, rfl⟩ := isSuffixOf_iff_suffix.mp slash
    rw [length_append, Nat.add_sub_cancel, take_left]
    exact (segments_append_separator init).symm
  · rfl

theorem segments_slash_append (s : Str) : segments ("/" ++ s) = segments s :=
  segments_cons_separator s

theorem segments_normalizeStorageRoot {root} (level : Level root) :
    segments (normalizeStorageRoot root) = segments root := by
  unfold normalizeStorageRoot
  split_ifs with top
  · rcases top with rfl | rfl <;> decide
  · rw [not_or] at top
    rw [segments_slash_append, segments_trimSuffix, segments_trimPrefix, segments_clean level top.1]

theorem Level.of_segments {path path'} (level : Level path) (same : segments path' = segments path) :
    Level path' := by
  rw [level_iff, same]
  exact level_iff.mp level

/-- A path without dot segments that is found within a root starts with the segments of the root. -/
theorem segments_of_isWithinRoot {path root} (level : Level path) (plain : Level root)
    (within : isWithinRoot path (normalizeStorageRoot root) = true) : segments root <+: segments path := by
  have rootSegments : segments (clean (normalizeStorageRoot root)) = segments root := by
    have same := segments_normalizeStorageRoot plain
    refine (segments_clean (plain.of_segments same) ?_).trans same
    unfold normalizeStorageRoot
    split_ifs <;> simp [show str "/" ≠ [] by decide]
  have pathSegments : segments (clean ("/" ++ trimPrefix path "/")) = segments path := by
    have same := (segments_slash_append _).trans (segments_trimPrefix path)
    exact (segments_clean (level.of_segments same) (by simp [show str "/" ≠ [] by decide])).trans same
  simp only [isWithinRoot, Bool.or_eq_true, beq_iff_eq, hasPrefix, isPrefixOf_iff_prefix] at within
  rw [← rootSegments, ← pathSegments]
  rcases within with (same | top) | ⟨rest, below⟩
  · exact same ▸ prefix_rfl
  · rw [top]
    exact nil_prefix
  · rw [← below, append_assoc]
    exact ⟨segments rest, (segments_append_cons _ rest).symm⟩

theorem separator_apart : separator ≠ '%'.toUInt8 ∧ isHex separator = false := by decide

section Decoded

variable {path decodedPath : Str} (decodes : Url.pathUnescape path = .ok decodedPath)

include decodes

theorem segments_of_pathUnescape : segments decodedPath = (segments path).flatMap fun c => segments (decoded c) := by
  rw [segments, split_of_pathUnescape separator_apart decodes, filter_flatMap, segments]
  induction split separator path with
  | nil => rfl
  | cons c parts ih =>
    rw [flatMap_cons, ih, filter_cons]
    split_ifs with named
    · rfl
    · obtain rfl : c = [] := by simpa using named
      rfl

/-- A path is without dot segments if it is so once it is decoded. -/
theorem Level.of_decoded (level : Level decodedPath) : Level path := by
  intro c mem
  cases dot : isDot c with
  | false => rfl
  | true =>
    have plain : '%'.toUInt8 ∉ c := by
      simp only [isDot, Bool.or_eq_true, beq_iff_eq] at dot
      rcases dot with rfl | rfl <;> decide
    have inside : c ∈ split separator decodedPath := by
      rw [split_of_pathUnescape separator_apart decodes]
      refine mem_flatMap.mpr ⟨c, mem, ?_⟩
      rw [decoded_of_notMem plain, split_of_notMem (notMem_of_mem_split mem)]
      exact mem_singleton_self c
    exact dot.symm.trans (level c inside)

theorem segments_decoded_of_prefix {init} (plain : ∀ c ∈ init, '%'.toUInt8 ∉ c)
    (start : init <+: segments path) : init <+: segments decodedPath := by
  obtain ⟨_, whole⟩ := start
  have kept : (init.flatMap fun c => segments (decoded c)) = init := by
    refine (flatMap_congr fun c mem => ?_).trans (flatMap_singleton' init)
    have here : c ∈ segments path := whole ▸ mem_append_left _ mem
    obtain ⟨part, named⟩ := Filepath.mem_segments.mp here
    rw [decoded_of_notMem (plain c mem), segments_of_notMem named (notMem_of_mem_split part)]
  rw [segments_of_pathUnescape decodes, ← whole, flatMap_append, kept]
  exact prefix_append _ _

end Decoded

/-- A root as it is configured: its segments are unreserved characters, and none is a dot segment. -/
def PlainRoot (root : Str) : Prop :=
  ∀ c ∈ segments root, isDot c = false ∧ ∀ b ∈ c, (Url.isAlpha b || Url.isDigit b || (str "-._~").contains b) = true

/-- A request that both checks let pass: its decoded path starts with the segments of an allowed root, and the
removal of dot segments changes neither the escaped nor the decoded path. -/
theorem accepted_within [Unicode] (order : Http.Header → List (Str × List Str)) (roots : List Str) (some : roots ≠ [])
    (plain : ∀ root ∈ roots, PlainRoot root) (r : Http.Request) (valid : validateRequest order r = .ok ())
    (allowed : (newStorageRootValidator roots).validate r = .ok ()) :
    ∃ decodedPath, Url.pathUnescape r.url.escapedPath = .ok decodedPath ∧
      (∃ root ∈ roots, segments root <+: segments decodedPath) ∧
      removeDotSegments r.url.escapedPath = r.url.escapedPath ∧ removeDotSegments decodedPath = decodedPath := by
  obtain ⟨decodedPath, decodes, level⟩ : ∃ d, pathUnescape r.url.escapedPath = .ok d ∧ Level d := by
    simp only [validateRequest, bind_eq_ok, mapError_eq_ok, refuse_eq_ok, any_eq_true, not_exists, not_and,
      Bool.not_eq_true] at valid
    obtain ⟨-, -, -, -, -, -, d, decodes, -, -, -, level, -⟩ := valid
    exact ⟨d, decodes, level⟩
  have flat : Level r.url.escapedPath := level.of_decoded decodes
  refine ⟨decodedPath, decodes, ?_, flat.removeDotSegments, level.removeDotSegments⟩
  have required : (newStorageRootValidator roots).requireRoot = true := by
    simp [newStorageRootValidator, length_pos_iff.mpr some]
  rw [StorageRootValidator.validate, required, Bool.not_true, if_neg Bool.false_ne_true] at allowed
  dsimp only at allowed
  split_ifs at allowed
  rw [newStorageRootValidator] at allowed
  obtain ⟨root, mem, within⟩ : ∃ root ∈ roots, isWithinRoot r.url.escapedPath _ = true := by
    simpa using allowed
  have rootLevel : Level root := level_iff.mpr fun c inside => (plain root mem c inside).1
  have start := segments_of_isWithinRoot flat rootLevel within
  refine ⟨root, mem, segments_decoded_of_prefix decodes (fun c inside escape => ?_) start⟩
  exact absurd ((plain root mem c inside).2 _ escape) (by decide)

def encodedSlash : Http.Request := { method := "GET", url := { path := "/data/a/b", rawPath := "/data/a%2Fb" } }

theorem accepted_within_encodedSlash :
    letI := Unicode.ascii
    validateRequest (fun _ => []) encodedSlash = .ok () ∧ (newStorageRootValidator ["/data"]).validate encodedSlash = .ok () ∧
      ∃ decodedPath, Url.pathUnescape encodedSlash.url.escapedPath = .ok decodedPath ∧
        (∃ root ∈ [str "/data"], segments root <+: segments decodedPath) ∧
        removeDotSegments encodedSlash.url.escapedPath = encodedSlash.url.escapedPath ∧
        removeDotSegments decodedPath = decodedPath := by
  let := Unicode.ascii
  have valid : validateRequest (fun _ => []) encodedSlash = .ok () := by decide +kernel
  have allowed : (newStorageRootValidator ["/data"]).validate encodedSlash = .ok () := by decide +kernel
  have plain : ∀ root ∈ [str "/data"], PlainRoot root := by
    unfold PlainRoot
    decide +kernel
  exact ⟨valid, allowed, accepted_within (fun _ => []) _ (cons_ne_nil _ _) plain encodedSlash valid allowed⟩

end Safety
