import SolidSidecar.Authz.CachingEvaluator

/-!
# Policy change notifications

A notifier remembers a version for each watched path, the digest of the file or directory there, and
compares it with the files from time to time. For each change it puts an event into the channel of
the caching evaluator, whose listener takes the events out and invalidates entries of the cache. The
two sides agree on what an event says only by convention: `versionCleared_iff` is what the convention
gives for the entries of the version that went away.
-/

namespace Authz
open Go Cache CachingEvaluator List

inductive PolicyChangeType where
  | create
  | update
  | delete
  | other (text : Str) (unknown : text ∉ [str "create", "update", "delete"])
  deriving DecidableEq, Repr

structure PolicyChangeEvent where
  resourceURI : Str
  policyURI : Str
  policyVersion : Str
  oldPolicyVersion : Str
  changeType : PolicyChangeType
  timestamp : Time
  deriving DecidableEq, Repr

/-- What a path names. A file is unreadable when it has no content here, and a directory gives the
files of a walk with their contents, or nothing when the walk fails. -/
inductive Node where
  | missing
  | failing
  | file (content : Option Str)
  | directory (files : Option (List (Str × Str)))

abbrev FileSystem := Str → Node

section Version

variable (sha256 : Str → Str)

def calculateFileVersion (content : Option Str) : Option Str := content.map (sha256Hex sha256)

/-- The digest of all paths and contents, one after the other. -/
def calculateDirectoryVersion (files : Option (List (Str × Str))) : Option Str :=
  files.map fun walk => sha256Hex sha256 (walk.flatMap fun file => file.1 ++ file.2)

/-- `calculateCurrentVersion`: nothing on an error, the empty version for a path that is missing. -/
def calculateCurrentVersion (files : FileSystem) (path : Str) : Option Str :=
  match files path with
  | .missing => some []
  | .failing => none
  | .directory walk => calculateDirectoryVersion sha256 walk
  | .file content => calculateFileVersion sha256 content

end Version

/-- The part of `PolicyChangeNotifierImpl` that a check reads and writes. -/
structure PolicyChangeNotifier where
  policyPaths : List Str
  policyVersions : GoMap Str Str := ∅

def fileURI (path : Str) : Str := "file://" ++ path

def createPolicyChangeEvent (now : Time) (path oldVersion newVersion : Str) : PolicyChangeEvent where
  resourceURI := fileURI path
  policyURI := fileURI path
  policyVersion := newVersion
  oldPolicyVersion := oldVersion
  changeType := if newVersion = [] then .delete else if oldVersion = [] then .create else .update
  timestamp := now

/-- One iteration of a check: the path, the files as they are then, and the clock. -/
structure Look where
  path : Str
  files : FileSystem
  now : Time

namespace PolicyChangeNotifier

variable (sha256 : Str → Str)

variable (n : PolicyChangeNotifier)

/-- The remembered version; a path without one has the empty version. -/
def version (path : Str) : Str := (n.policyVersions.lookup path).getD []

/-- `loadPolicyVersion`, whose error is only logged by the constructor. -/
def loadPolicyVersion (files : FileSystem) (n : PolicyChangeNotifier) (path : Str) : PolicyChangeNotifier :=
  match calculateCurrentVersion sha256 files path with
  | none => n
  | some current => { n with policyVersions := n.policyVersions.insert path current }

def newPolicyChangeNotifier (files : FileSystem) (paths : List Str) : PolicyChangeNotifier :=
  paths.foldl (loadPolicyVersion sha256 files) { policyPaths := paths }

/-- The body of the loop of `checkForPolicyChanges`. -/
def checkPath (l : Look) : PolicyChangeNotifier × Option PolicyChangeEvent :=
  match calculateCurrentVersion sha256 l.files l.path with
  | none => (n, none)
  | some current =>
    if current ≠ n.version l.path then
      ({ n with policyVersions := n.policyVersions.insert l.path current },
        some (createPolicyChangeEvent l.now l.path (n.version l.path) current))
    else (n, none)

/-- The iterations of a check, one for each watched path; files and clock may change between two. -/
def looks (observe : Nat → FileSystem × Time) : List Look :=
  n.policyPaths.mapIdx fun i path => ⟨path, (observe i).1, (observe i).2⟩

/-- The notifier after `checkForPolicyChanges` and the events that were emitted, in order. -/
def checkForPolicyChanges (observe : Nat → FileSystem × Time) : PolicyChangeNotifier × List PolicyChangeEvent :=
  (Run.exec (checkPath sha256) n (n.looks observe),
    (Run.trace (checkPath sha256) n (n.looks observe)).filterMap Prod.snd)

end PolicyChangeNotifier

def channelCapacity : Nat := 100

/-- `notifySubscribers` for one channel: an event that finds it full is dropped. -/
def notifySubscriber (channel : List PolicyChangeEvent) (event : PolicyChangeEvent) : List PolicyChangeEvent :=
  if channel.length < channelCapacity then channel ++ [event] else channel

namespace CachingEvaluator

/-- The body of the loop of `listenForPolicyChanges`: the version an event names, where it names one,
and then its resource. -/
def onPolicyChange (e : CachingEvaluator) (event : PolicyChangeEvent) : CachingEvaluator :=
  let invalidateBoth (version : Str) : CachingEvaluator :=
    let e := if version ≠ [] then e.invalidatePolicy version else e
    if event.resourceURI ≠ [] then e.invalidateResource event.resourceURI else e
  match event.changeType with
  | .create | .update => invalidateBoth event.oldPolicyVersion
  -- a deletion has no new version, but this is the one that is read here
  | .delete => invalidateBoth event.policyVersion
  | .other _ _ => e

end CachingEvaluator

/-- The notifier, the channel between the two sides, and the evaluator that listens. -/
structure PolicyWatch where
  notifier : PolicyChangeNotifier
  channel : List PolicyChangeEvent := []
  evaluator : CachingEvaluator

namespace PolicyWatch

def check (sha256 : Str → Str) (s : PolicyWatch) (observe : Nat → FileSystem × Time) : PolicyWatch :=
  let (notifier, events) := s.notifier.checkForPolicyChanges sha256 observe
  { s with notifier, channel := events.foldl notifySubscriber s.channel }

def listen (s : PolicyWatch) : PolicyWatch :=
  match s.channel with
  | [] => s
  | event :: rest => { s with channel := rest, evaluator := s.evaluator.onPolicyChange event }

theorem listen_evaluator {s : PolicyWatch} {event} (next : s.channel.head? = some event) :
    s.listen.evaluator = s.evaluator.onPolicyChange event := by
  obtain ⟨_, queue⟩ := List.head?_eq_some_iff.mp next
  unfold listen
  rw [queue]

end PolicyWatch

namespace PolicyChangeNotifier

variable {sha256 : Str → Str}

/-- A look that finds another version than the remembered one emits the event for the two. -/
theorem checkPath_changed {n : PolicyChangeNotifier} {l current}
    (now : calculateCurrentVersion sha256 l.files l.path = some current)
    (changed : current ≠ n.version l.path) :
    (n.checkPath sha256 l).2 = some (createPolicyChangeEvent l.now l.path (n.version l.path) current) := by
  simp [checkPath, now, changed]

/-- The event of one look is emitted by the check that the look is part of. -/
theorem mem_emitted {n observe before after l event} (part : n.looks observe = before ++ l :: after)
    (out : ((Run.exec (checkPath sha256) n before).checkPath sha256 l).2 = some event) :
    event ∈ (n.checkForPolicyChanges sha256 observe).2 := by
  unfold checkForPolicyChanges
  rw [part, Run.trace_append, filterMap_append]
  refine mem_append_right _ (List.mem_filterMap.mpr ⟨_, mem_cons_self, ?_⟩)
  exact out

end PolicyChangeNotifier

namespace CachingEvaluator

variable {e : CachingEvaluator} {s : Str} {entry : Entry}

/-- The cache of `e` has an entry of a policy version. -/
def Keeps (e : CachingEvaluator) (policyVersion : Str) : Prop :=
  ∃ s entry, e.decisionCache.entries.lookup s = some entry ∧ entry.key.policyVersion = policyVersion

theorem invalidatePolicy_lookup {v} : (e.invalidatePolicy v).decisionCache.entries.lookup s = some entry ↔
      e.decisionCache.entries.lookup s = some entry ∧ entry.key.policyVersion ≠ v := by
  refine MemoryCache.invalidate_lookup.trans ?_
  simp

theorem invalidateResource_lookup {u} : (e.invalidateResource u).decisionCache.entries.lookup s = some entry ↔
      e.decisionCache.entries.lookup s = some entry ∧ entry.key.resource ≠ u := by
  refine MemoryCache.invalidate_lookup.trans ?_
  simp

/-- What the event of a change leaves in the cache: nothing of the path itself and, unless the path
is gone, nothing of the old version. -/
theorem onPolicyChange_lookup {now} {path old new : Str} (known : old ≠ []) :
    (e.onPolicyChange (createPolicyChangeEvent now path old new)).decisionCache.entries.lookup s = some entry ↔
      e.decisionCache.entries.lookup s = some entry ∧
        (new ≠ [] → entry.key.policyVersion ≠ old) ∧ entry.key.resource ≠ fileURI path := by
  have named : fileURI path ≠ [] := append_ne_nil_of_left_ne_nil (by decide) path
  by_cases gone : new = []
  · simp [onPolicyChange, createPolicyChangeEvent, gone, named, invalidateResource_lookup]
  · simp [onPolicyChange, createPolicyChangeEvent, gone, known, named, invalidateResource_lookup,
      invalidatePolicy_lookup, and_assoc]

end CachingEvaluator

/-- When a look of a check finds the version of a path changed from `v`, the check emits an event for
it, and once the listener has taken that event no entry of `v` is left exactly when the path still
has a version or every entry of `v` was one for the path's own file URI. -/
theorem versionCleared_iff (sha256 : Str → Str) (n : PolicyChangeNotifier)
    (observe : Nat → FileSystem × Time) (before after : List Look) (l : Look) (v v' : Str)
    (part : n.looks observe = before ++ l :: after)
    (old : (Run.exec (PolicyChangeNotifier.checkPath sha256) n before).version l.path = v)
    (known : v ≠ []) (new : calculateCurrentVersion sha256 l.files l.path = some v')
    (changed : v' ≠ v) :
    createPolicyChangeEvent l.now l.path v v' ∈ (n.checkForPolicyChanges sha256 observe).2 ∧
      ∀ s : PolicyWatch, s.channel.head? = some (createPolicyChangeEvent l.now l.path v v') →
        (¬ s.listen.evaluator.Keeps v ↔ v' ≠ [] ∨ ∀ k entry, s.evaluator.decisionCache.entries.lookup k = some entry →
            entry.key.policyVersion = v → entry.key.resource = fileURI l.path) := by
  subst old
  have out := PolicyChangeNotifier.checkPath_changed new changed
  refine ⟨PolicyChangeNotifier.mem_emitted part out, fun s next => ?_⟩
  rw [PolicyWatch.listen_evaluator next]
  simp only [Keeps, onPolicyChange_lookup known]
  by_cases gone : v' = []
  · simp only [gone, ne_eq, not_true_eq_false, false_implies, true_and, false_or]
    constructor
    · intro cleared k entry found same
      by_contra other
      exact cleared ⟨k, entry, ⟨found, other⟩, same⟩
    · rintro own ⟨k, entry, ⟨found, other⟩, same⟩
      exact other (own k entry found same)
  · simp only [gone, ne_eq, not_false_eq_true, true_implies, true_or, iff_true]
    rintro ⟨k, entry, ⟨_, cleared, _⟩, same⟩
    exact cleared same

section Sample

def watchedPath : Str := "/policies/root.acl"

/-- A notifier that has seen a file at the watched path. -/
def sampleNotifier : PolicyChangeNotifier :=
  PolicyChangeNotifier.newPolicyChangeNotifier id (fun _ => .file (some "acl")) [watchedPath]

/-- A request under the version of the watched file. -/
def versionedRequest : Request :=
  { CachingEvaluator.sampleRequest [.read] with policyVersion := hexEncode "acl" }

/-- The notifier with an evaluator that has cached its answer to that request. -/
def sampleWatch : PolicyWatch where
  notifier := sampleNotifier
  evaluator :=
    (CachingEvaluator.fresh.step id ⟨.evaluate versionedRequest, ⟨CachingEvaluator.readsOnly, CachingEvaluator.epoch,
        CachingEvaluator.epoch, CachingEvaluator.epoch, fun _ => default⟩⟩).1

theorem keeps_of_entry {e : CachingEvaluator} {v} (kept : (e.decisionCache.entries.lookup
    (keyText id versionedRequest)).map (fun entry => entry.key.policyVersion) = some v) : e.Keeps v := by
  obtain ⟨entry, found, version⟩ := Option.map_eq_some_iff.mp kept
  exact ⟨_, entry, found, version⟩

def finding (node : Node) : Nat → FileSystem × Time := fun _ => (fun _ => node, epoch)

/-- The file is written again, the check sees it, and once the listener has taken the event nothing of the old
version is left. -/
theorem versionCleared_iff_rewrite :
    let event := createPolicyChangeEvent epoch watchedPath (hexEncode (str "acl")) (hexEncode (str "new"))
    let s := sampleWatch.check id (finding (.file (some (str "new"))))
    s.evaluator.Keeps (hexEncode (str "acl")) ∧ s.channel.head? = some event ∧
      ¬ s.listen.evaluator.Keeps (hexEncode (str "acl")) := by
  intro event s
  have next : s.channel.head? = some event := by decide +kernel
  refine ⟨keeps_of_entry (by decide +kernel), next, ?_⟩
  exact ((versionCleared_iff id sampleNotifier (finding (.file (some (str "new")))) [] []
    ⟨watchedPath, fun _ => .file (some (str "new")), epoch⟩ _ _ rfl (by decide +kernel) (by decide +kernel) rfl
    (by decide +kernel)).2 s next).mpr (.inl (by decide +kernel))

/-- The file is deleted, the check sees it and the listener takes the event; the decision made under
the deleted policy is still there. -/
theorem entry_outlives_deleted_policy : sampleNotifier.version watchedPath = hexEncode (str "acl") ∧
    calculateCurrentVersion id (finding .missing 0).1 watchedPath = some [] ∧
    (sampleWatch.check id (finding .missing)).channel =
      [createPolicyChangeEvent CachingEvaluator.epoch watchedPath (hexEncode (str "acl")) []] ∧
    (sampleWatch.check id (finding .missing)).listen.channel = [] ∧
    (sampleWatch.check id (finding .missing)).listen.evaluator.Keeps (hexEncode (str "acl")) := by
  exact ⟨by decide +kernel, rfl, by decide +kernel, by decide +kernel, keeps_of_entry (by decide +kernel)⟩

end Sample

end Authz
