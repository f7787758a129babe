import SolidSidecar.Runtime.EventStreamSteps

/-!
# Privacy levels on the event stream

The levels are meant to go from public over metadata and sensitive to private. As strings they are ordered
metadata, private, public, sensitive, and a subscriber's bounds are compared as strings. Which bounds still do
what they say is a question about the levels alone; that no event gets past them is an invariant of every run.
-/

namespace Runtime
open Go List Run

def sensitivity (level : PrivacyLevel) : Nat :=
  if level = privacyLevelPublic then 0
  else if level = privacyLevelMetadata then 1
  else if level = privacyLevelSensitive then 2
  else 3

/-- A level is within two bounds by its sensitivity; an empty bound is none. -/
def WithinBounds (min max level : PrivacyLevel) : Prop :=
  (max ≠ [] → sensitivity level ≤ sensitivity max) ∧ (min ≠ [] → sensitivity min ≤ sensitivity level)

def passesLevels (min max minPrivacyLevel level : PrivacyLevel) : Bool :=
  !below min level && !above max level && !Str.less level minPrivacyLevel

/-- An upper bound does what it says: it is the lowest of the strings or the most sensitive level, or one of the
lower bounds keeps out what it lets through. -/
def UpperHolds (min max minPrivacyLevel : PrivacyLevel) : Prop :=
  max ∈ [[], privacyLevelMetadata, privacyLevelPrivate] ∨
  min ∈ [privacyLevelPublic, privacyLevelSensitive] ∨
  minPrivacyLevel ∈ [privacyLevelPublic, privacyLevelSensitive]

def LowerHolds (min max minPrivacyLevel : PrivacyLevel) : Prop :=
  min ∈ [[], privacyLevelPublic, privacyLevelSensitive] ∨
  max ∈ [privacyLevelMetadata, privacyLevelPrivate] ∨
  (minPrivacyLevel = privacyLevelSensitive ∧ (min = privacyLevelMetadata ∨ max = privacyLevelPublic))

/-- The bounds of a subscription for which the order of strings does no harm. -/
def BoundsHold (min max minPrivacyLevel : PrivacyLevel) : Prop :=
  UpperHolds min max minPrivacyLevel ∧ LowerHolds min max minPrivacyLevel

instance (min max level : PrivacyLevel) : Decidable (WithinBounds min max level) :=
  inferInstanceAs (Decidable (_ ∧ _))

instance (min max minPrivacyLevel : PrivacyLevel) : Decidable (UpperHolds min max minPrivacyLevel) :=
  inferInstanceAs (Decidable (_ ∨ _))

instance (min max minPrivacyLevel : PrivacyLevel) : Decidable (LowerHolds min max minPrivacyLevel) :=
  inferInstanceAs (Decidable (_ ∨ _))

instance (min max minPrivacyLevel : PrivacyLevel) : Decidable (BoundsHold min max minPrivacyLevel) :=
  inferInstanceAs (Decidable (_ ∧ _))

/-- The levels of a subscription that passed its checks. -/
structure LevelsChecked (filter : StreamFilter) (minPrivacyLevel : PrivacyLevel) : Prop where
  min : filter.minPrivacyLevel ∈ [] :: validPrivacyLevels
  max : filter.maxPrivacyLevel ∈ [] :: validPrivacyLevels
  parameter : minPrivacyLevel ∈ validPrivacyLevels
  range : filter.minPrivacyLevel ≠ [] → filter.maxPrivacyLevel ≠ [] →
    Str.less filter.maxPrivacyLevel filter.minPrivacyLevel = false

theorem checkLevel_eq_ok {level} : checkLevel level = .ok () ↔ level ∈ [] :: validPrivacyLevels := by
  unfold checkLevel
  rw [ifPresent_eq_ok, refuse_eq_ok, Bool.not_eq_false, mem_validPrivacyLevels, mem_cons]

theorem levelsChecked {config filter webID minPrivacyLevel}
    (checked : checkSubscribe config filter webID minPrivacyLevel = .ok ()) : LevelsChecked filter minPrivacyLevel := by
  unfold checkSubscribe at checked
  simp only [then_eq_ok, refuse_eq_ok, checkLevel_eq_ok] at checked
  obtain ⟨-, -, -, -, range, min, max, -, parameter⟩ := checked
  refine ⟨min, max, mem_validPrivacyLevels.mp (Bool.eq_true_of_not_eq_false parameter), fun hasMin hasMax => ?_⟩
  exact Bool.eq_false_of_not_eq_true fun less => range ⟨hasMin, hasMax, less⟩

/-- The condition is exact: the bounds hold when and only when each level that passes the comparisons is
within them. -/
theorem boundsHold_iff : ∀ min ∈ [] :: validPrivacyLevels, ∀ max ∈ [] :: validPrivacyLevels,
    ∀ minPrivacyLevel ∈ validPrivacyLevels, (min ≠ [] → max ≠ [] → Str.less max min = false) →
    (BoundsHold min max minPrivacyLevel ↔
      ∀ level ∈ validPrivacyLevels, passesLevels min max minPrivacyLevel level = true → WithinBounds min max level) := by
  decide +kernel

theorem passesLevels_of_sees {sub : StreamSubscriber} {e} (seen : sub.sees e = true) :
    passesLevels sub.filter.minPrivacyLevel sub.filter.maxPrivacyLevel sub.minPrivacyLevel e.privacyLevel = true := by
  unfold StreamSubscriber.sees eventMatchesStreamFilter at seen
  simp only [Bool.and_eq_true] at seen
  unfold passesLevels
  simp only [Bool.and_eq_true]
  obtain ⟨⟨⟨⟨⟨⟨⟨-, min⟩, max⟩, -⟩, -⟩, -⟩, -⟩, parameter⟩ := seen
  exact ⟨⟨min, max⟩, parameter⟩

theorem sees_of_wants {sub : StreamSubscriber} {e} (wanted : sub.wants e = true) : sub.sees e = true := by
  unfold StreamSubscriber.wants at wanted
  simp only [Bool.and_eq_true] at wanted
  exact wanted.1.2

namespace EventStreamLayer

open GoMap

/-- A subscriber whose bounds were checked, and on whose channel are only events that it sees. -/
structure Served (sub : StreamSubscriber) : Prop where
  checked : LevelsChecked sub.filter sub.minPrivacyLevel
  level : ∀ e ∈ sub.put, e.privacyLevel ∈ validPrivacyLevels
  seen : ∀ e ∈ sub.put, sub.sees e = true

/-- Every event of the layer has a level, and every subscriber is served. -/
structure Screened (s : EventStreamLayer) : Prop where
  buffered : ∀ e ∈ s.eventStreamBuffer, e.privacyLevel ∈ validPrivacyLevels
  delivered : ∀ g d, s.deliveries.lookup g = some d → d.event.privacyLevel ∈ validPrivacyLevels
  caught : ∀ g c events, s.catchups.lookup g = some c → c.left = some events →
    ∀ e ∈ events, e.privacyLevel ∈ validPrivacyLevels
  served : ∀ (h : Nat) sub, s.subscribers[h]? = some sub → Served sub

variable {sub : StreamSubscriber} {e : StreamEvent} {min max minPrivacyLevel level : PrivacyLevel}
  {s s' : EventStreamLayer} {i : Step}

theorem Served.receive (served : Served sub)
    (level : e.privacyLevel ∈ validPrivacyLevels) (seen : sub.sees e = true) : Served (sub.receive e) := by
  refine ⟨served.checked, fun e' mem => ?_, fun e' mem => ?_⟩
  · rcases mem_append.mp mem with old | new
    · exact served.level e' old
    · rw [mem_singleton.mp new]
      exact level
  · rcases mem_append.mp mem with old | new
    · exact served.seen e' old
    · rw [mem_singleton.mp new]
      exact seen

theorem served_new {config filter webID} (checked : checkSubscribe config filter webID minPrivacyLevel = .ok ()) :
    Served (newSubscriber filter webID minPrivacyLevel) :=
  ⟨levelsChecked checked, fun _ mem => absurd mem not_mem_nil, fun _ mem => absurd mem not_mem_nil⟩

theorem screened_new (config : EventStreamConfig) : Screened (new config) where
  buffered _ mem := absurd mem not_mem_nil
  delivered _ _ found := by cases found
  caught _ _ _ found := by cases found
  served _ _ is := by cases is

theorem mem_push {e'} (mem : e' ∈ s.push e) : e' ∈ s.eventStreamBuffer ∨ e' = e := by
  unfold push at mem
  have mem : e' ∈ s.eventStreamBuffer ++ [e] := by
    split_ifs at mem
    · exact mem_of_mem_tail mem
    · exact mem
  rcases mem_append.mp mem with old | new
  · exact .inl old
  · exact .inr (mem_singleton.mp new)

theorem Screened.becomes (screened : Screened s) {h sub'} (is : s.subscribers[h]? = some sub) (becomes : Becomes s i h sub sub') :
    Served sub' := by
  have served := screened.served h sub is
  cases becomes with
  | same => exact served
  | sent found wanted =>
    exact { served.receive (screened.delivered _ _ found) (sees_of_wants wanted) with }
  | caught found seen =>
    exact served.receive (screened.caught _ _ _ found rfl _ mem_cons_self) seen
  | shut | dropped | read | endContext => exact { served with }

variable [Unicode]

/-- A stored delivery is an old one, or one whose event was on its way or has just been added. -/
theorem Effect.delivery (effect : Effect s i s') {g d} (found : s'.deliveries.lookup g = some d) :
    (∃ g' d', s.deliveries.lookup g' = some d' ∧ d'.event = d.event) ∨
      ∃ c event, checkEvent s.config c event = .ok () ∧ d.event = event.completed c := by
  cases effect with
  | same | pruned | subscribed | shut | caughtUp | given => exact .inl ⟨g, d, found, rfl⟩
  | caught | read | endContext => exact .inl ⟨g, d, found, rfl⟩
  | @added c event _ _ checked =>
    rw [lookup_insert_eq] at found
    split_ifs at found
    · cases found
      exact .inr ⟨c, event, checked, rfl⟩
    · exact .inl ⟨g, d, found, rfl⟩
  | ended =>
    exact .inl ⟨g, d, erase_sub _ _ g d found, rfl⟩
  | started old | skipped old | sent old | dropped old =>
    simp only [modify_deliveries, leave_deliveries, lookup_insert_eq] at found
    split_ifs at found
    · cases found
      exact .inl ⟨_, _, old, rfl⟩
    · exact .inl ⟨g, d, found, rfl⟩

/-- The events that a catch-up has left were left before, or they are from the buffer. -/
theorem Effect.catchup (effect : Effect s i s') {g c events} (found : s'.catchups.lookup g = some c) (left : c.left = some events)
    (mem : e ∈ events) :
    (∃ g' c' events', s.catchups.lookup g' = some c' ∧ c'.left = some events' ∧ e ∈ events') ∨
      e ∈ s.eventStreamBuffer := by
  cases effect with
  | same | added | pruned | shut | started | ended | skipped => exact .inl ⟨g, c, events, found, left, mem⟩
  | sent | dropped | read | endContext => exact .inl ⟨g, c, events, found, left, mem⟩
  | subscribed =>
    rw [lookup_insert_eq] at found
    split_ifs at found
    · cases found
      cases left
    · exact .inl ⟨g, c, events, found, left, mem⟩
  | given k => exact .inl ⟨g, c, events, erase_sub _ k g c found, left, mem⟩
  | caughtUp old fewer =>
    rw [lookup_insert_eq] at found
    split_ifs at found
    · cases found
      rcases fewer with ⟨-, rfl⟩ | ⟨first, _, rfl, rfl⟩
      · cases left
        unfold getRecentEvents at mem
        split_ifs at mem
        · cases mem
        · exact .inr (mem_of_mem_drop mem)
      · cases left
        exact .inl ⟨_, _, _, old, rfl, mem_cons_of_mem first mem⟩
    · exact .inl ⟨g, c, events, found, left, mem⟩
  | caught old =>
    simp only [modify_catchups, lookup_insert_eq] at found
    split_ifs at found
    · cases found
      cases left
      exact .inl ⟨_, _, _, old, rfl, mem_cons_of_mem _ mem⟩
    · exact .inl ⟨g, c, events, found, left, mem⟩

/-- An event of the buffer was there before, or it has just been added. -/
theorem Effect.buffered (effect : Effect s i s') (mem : e ∈ s'.eventStreamBuffer) :
    e ∈ s.eventStreamBuffer ∨ ∃ c event, checkEvent s.config c event = .ok () ∧ e = event.completed c := by
  cases effect with
  | same | subscribed | started | ended | skipped | caughtUp | given => exact .inl mem
  | sent | dropped | caught | read | endContext => exact .inl mem
  | @added c event _ _ checked => exact (mem_push mem).imp_right fun new => ⟨c, event, checked, new⟩
  | pruned => exact .inl (mem_of_mem_filter mem)
  | shut =>
    split_ifs at mem
    · cases mem
    · exact .inl mem

theorem Screened.step (screened : Screened s) (effect : Effect s i s') : Screened s' where
  buffered e mem := by
    rcases effect.buffered mem with old | ⟨c, event, checked, rfl⟩
    · exact screened.buffered e old
    · exact completed_level checked
  delivered g d found := by
    rcases effect.delivery found with ⟨g', d', old, same⟩ | ⟨c, event, checked, same⟩
    · rw [← same]
      exact screened.delivered g' d' old
    · rw [same]
      exact completed_level checked
  caught g c events found left e mem := by
    rcases effect.catchup found left mem with ⟨g', c', events', old, left', mem'⟩ | recent
    · exact screened.caught g' c' events' old left' e mem'
    · exact screened.buffered e recent
  served h sub is := by
    rcases effect.origin is with ⟨_, is', becomes⟩ | ⟨-, _, _, _, checked, rfl⟩
    · exact screened.becomes is' becomes
    · exact served_new checked

theorem screened_exec (config : EventStreamConfig) (inputs : List Step) : Screened (exec step (new config) inputs) :=
  exec_inv (fun s i screened => screened.step (step_effect s i)) (screened_new config) inputs

/-- In every run, what is on the channel of a subscriber whose bounds hold is within them. -/
theorem put_withinBounds {config inputs} (subscribed : sub ∈ (exec step (new config) inputs).subscribers)
    (holds : BoundsHold sub.filter.minPrivacyLevel sub.filter.maxPrivacyLevel sub.minPrivacyLevel)
    (put : e ∈ sub.put) :
    WithinBounds sub.filter.minPrivacyLevel sub.filter.maxPrivacyLevel e.privacyLevel := by
  obtain ⟨h, is⟩ := mem_iff_getElem?.mp subscribed
  have served := (screened_exec config inputs).served h sub is
  have exact := boundsHold_iff _ served.checked.min _ served.checked.max _ served.checked.parameter served.checked.range
  exact exact.mp holds _ (served.level e put) (passesLevels_of_sees (served.seen e put))

omit [Unicode] in
def probe (level : PrivacyLevel) : StreamEvent where
  eventID := str "e"
  eventType := str "create"
  resourceURI := str "https://h/a"
  containerURI := []
  timestamp := ⟨1⟩
  agent := []
  agentType := []
  action := []
  metadata := none
  sequenceNumber := 0
  streamTimestamp := ⟨1⟩
  privacyLevel := level

omit [Unicode] in
def levelFilter (min max : PrivacyLevel) : StreamFilter where
  resourceURIs := []
  resourcePatterns := []
  containerURIs := []
  eventTypes := []
  agents := []
  minPrivacyLevel := min
  maxPrivacyLevel := max

omit [Unicode] in
def probeContext : AddContext where
  now := ⟨1⟩
  generatedID := str "e"

/-- An event is added, and a subscriber catches up with it. -/
def probing (min max minPrivacyLevel level : PrivacyLevel) : List Step :=
  [.addEvent probeContext (probe level), .subscribe "s" (levelFilter min max) [] minPrivacyLevel,
    .startCatchup 1, .catchup 1 .send]

omit [Unicode] in
theorem level_cases (valid : level ∈ validPrivacyLevels) :
    level = privacyLevelPublic ∨ level = privacyLevelMetadata ∨ level = privacyLevelSensitive ∨
      level = privacyLevelPrivate := by
  simpa [validPrivacyLevels] using valid

theorem checkEvent_probe (valid : level ∈ validPrivacyLevels) :
    checkEvent defaultEventStreamConfig probeContext (probe level) = .ok () := by
  have uri : validateURI "https://h/a" = .ok () := by decide +kernel
  have known : ¬isValidNotificationEventType "create" = false := by decide
  have few : ¬defaultEventStreamConfig.maxMetadataKeys < (0 : Nat) := by decide
  have small : ¬defaultEventStreamConfig.maxMetadataSize < (0 : Nat) := by decide
  unfold checkEvent
  simp only [then_eq_ok, refuse_eq_ok, mapError_eq_ok]
  refine ⟨uri, rfl, known, rfl, few, rfl, small, by decide, by decide, ?_⟩
  rintro ⟨-, invalid⟩
  exact Bool.false_ne_true (invalid.symm.trans (mem_validPrivacyLevels.mpr valid))

omit [Unicode] in
theorem completed_probe (valid : level ∈ validPrivacyLevels) :
    (probe level).completed probeContext = probe level := by
  rcases level_cases valid with rfl | rfl | rfl | rfl <;> rfl

omit [Unicode] in
theorem sees_probe (passes : passesLevels min max minPrivacyLevel level = true) :
    (newSubscriber (levelFilter min max) [] minPrivacyLevel).sees (probe level) = true := by
  unfold passesLevels at passes
  unfold StreamSubscriber.sees eventMatchesStreamFilter
  simpa [newSubscriber, levelFilter, probe] using passes

omit [Unicode] in
theorem checkSubscribe_levelFilter (checked : LevelsChecked (levelFilter min max) minPrivacyLevel) :
    checkSubscribe defaultEventStreamConfig (levelFilter min max) [] minPrivacyLevel = .ok () := by
  unfold checkSubscribe
  simp only [then_eq_ok, refuse_eq_ok, checkLevel_eq_ok]
  refine ⟨of_decide_eq_true rfl, rfl, rfl, rfl, ?_, checked.min, checked.max, rfl, ?_⟩
  · rintro ⟨hasMin, hasMax, less⟩
    rw [checked.range hasMin hasMax] at less
    cases less
  · rw [Bool.not_eq_false]
    exact mem_validPrivacyLevels.mpr checked.parameter

/-- The probe ends up on the channel of every subscriber whose comparisons it passes. -/
theorem probing_puts
    (checked : LevelsChecked (levelFilter min max) minPrivacyLevel) (valid : level ∈ validPrivacyLevels)
    (passes : passesLevels min max minPrivacyLevel level = true) :
    ∃ sub ∈ (exec step (new defaultEventStreamConfig) (probing min max minPrivacyLevel level)).subscribers,
      sub.filter = levelFilter min max ∧ sub.minPrivacyLevel = minPrivacyLevel ∧ probe level ∈ sub.put := by
  have accepted := checkSubscribe_levelFilter checked
  have seen := sees_probe passes
  have few : ((∅ : GoMap Str Nat).size : Int) < defaultEventStreamConfig.maxStreamSubscribers := by decide
  unfold probing
  simp only [exec_cons, exec_nil, step]
  rw [addEvent_eq rfl rfl (checkEvent_probe valid), completed_probe valid, subscribe_eq rfl rfl few accepted]
  rw [@catchup_eq (startCatchup _ 1).1 _ _ _ _ _ rfl rfl seen rfl rfl]
  exact ⟨_, mem_singleton_self _, rfl, rfl, mem_append_right _ (mem_singleton_self _)⟩

/-- The bounds of a subscription hold in every run when and only when the order of strings does no harm to
them. -/
theorem withinBounds_iff (min max minPrivacyLevel : PrivacyLevel)
    (checked : LevelsChecked (levelFilter min max) minPrivacyLevel) :
    (∀ config inputs, ∀ sub ∈ (Run.exec EventStreamLayer.step (new config) inputs).subscribers,
      sub.filter.minPrivacyLevel = min → sub.filter.maxPrivacyLevel = max → sub.minPrivacyLevel = minPrivacyLevel →
        ∀ e ∈ sub.put, WithinBounds min max e.privacyLevel) ↔
      BoundsHold min max minPrivacyLevel := by
  constructor
  · intro within
    have exact := boundsHold_iff min checked.min max checked.max _ checked.parameter checked.range
    refine exact.mpr fun level valid passes => ?_
    obtain ⟨sub, subscribed, filter, parameter, put⟩ := probing_puts checked valid passes
    exact within _ _ sub subscribed (congrArg StreamFilter.minPrivacyLevel filter)
      (congrArg StreamFilter.maxPrivacyLevel filter) parameter (probe level) put
  · rintro holds _ _ sub subscribed rfl rfl rfl _ put
    exact put_withinBounds subscribed holds put

omit [Unicode] in
theorem withinBounds_iff_private : BoundsHold [] privacyLevelPrivate privacyLevelMetadata ∧
    ∀ config inputs, ∀ sub ∈ (Run.exec (@EventStreamLayer.step Unicode.ascii) (new config) inputs).subscribers,
      sub.filter.minPrivacyLevel = [] → sub.filter.maxPrivacyLevel = privacyLevelPrivate →
        sub.minPrivacyLevel = privacyLevelMetadata →
          ∀ e ∈ sub.put, WithinBounds [] privacyLevelPrivate e.privacyLevel := by
  have checked : LevelsChecked (levelFilter [] privacyLevelPrivate) privacyLevelMetadata :=
    ⟨by decide, by decide, by decide, by decide⟩
  have holds : BoundsHold [] privacyLevelPrivate privacyLevelMetadata := by decide
  exact ⟨holds, (@withinBounds_iff Unicode.ascii [] privacyLevelPrivate privacyLevelMetadata checked).mpr holds⟩

omit [Unicode] in
/-- A subscriber that asks for public events at most is sent a private one, and one that asks for private events
at least a public one. -/
theorem bounds_crossed : (∃ sub ∈ (Run.exec (@EventStreamLayer.step Unicode.ascii) (new defaultEventStreamConfig)
        (probing [] privacyLevelPublic privacyLevelMetadata privacyLevelPrivate)).subscribers,
      sub.filter.maxPrivacyLevel = privacyLevelPublic ∧ ∃ e ∈ sub.put, e.privacyLevel = privacyLevelPrivate ∧
        ¬WithinBounds sub.filter.minPrivacyLevel sub.filter.maxPrivacyLevel e.privacyLevel) ∧
    (∃ sub ∈ (Run.exec (@EventStreamLayer.step Unicode.ascii) (new defaultEventStreamConfig)
        (probing privacyLevelPrivate [] privacyLevelMetadata privacyLevelPublic)).subscribers,
      sub.filter.minPrivacyLevel = privacyLevelPrivate ∧ ∃ e ∈ sub.put, e.privacyLevel = privacyLevelPublic ∧
        ¬WithinBounds sub.filter.minPrivacyLevel sub.filter.maxPrivacyLevel e.privacyLevel) := by
  constructor
  · obtain ⟨sub, subscribed, filter, -, put⟩ := @probing_puts [] privacyLevelPublic privacyLevelMetadata
      privacyLevelPrivate Unicode.ascii ⟨by decide, by decide, by decide, by decide⟩ (by decide) (by decide)
    refine ⟨sub, subscribed, by rw [filter]; rfl, probe privacyLevelPrivate, put, rfl, ?_⟩
    rw [filter]
    decide
  · obtain ⟨sub, subscribed, filter, -, put⟩ := @probing_puts privacyLevelPrivate [] privacyLevelMetadata
      privacyLevelPublic Unicode.ascii ⟨by decide, by decide, by decide, by decide⟩ (by decide) (by decide)
    refine ⟨sub, subscribed, by rw [filter]; rfl, probe privacyLevelPublic, put, rfl, ?_⟩
    rw [filter]
    decide

end EventStreamLayer

end Runtime
