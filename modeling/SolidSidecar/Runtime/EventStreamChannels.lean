import SolidSidecar.Runtime.EventStreamPrivacy

/-!
# Channels of the event stream are closed once, and what is sent on them after

The map of subscribers leads to open channels only, each under one id, and a delivery holds the read lock
while it goes through them: so no channel is closed twice, and no delivery meets a closed one. The catch-up of a
subscriber has no lock, and it is the one sender that a closing can overtake.
-/

namespace Runtime
open Go List EventStreamLayer Run

namespace EventStreamLayer

open GoMap

structure Sound (s : EventStreamLayer) : Prop where
  current : ∀ id h, s.streamSubscribers.lookup id = some h →
    ∃ sub, s.subscribers[h]? = some sub ∧ sub.channelClosed = false
  distinct : ∀ id id' h, s.streamSubscribers.lookup id = some h → s.streamSubscribers.lookup id' = some h → id = id'
  listed : ∀ g e left, s.deliveries.lookup g = some ⟨e, some left⟩ →
    ∀ h ∈ left, ∃ id, s.streamSubscribers.lookup id = some h

variable (config : EventStreamConfig)

theorem sound_new : Sound (new config) where
  current _ _ found := by cases found
  distinct _ _ _ found := by cases found
  listed _ _ _ found := by cases found

variable {s s' : EventStreamLayer} {g : Nat} {d : Shutdown} {i : Step} {sub : StreamSubscriber}

/-- While the lock is free no delivery goes through subscribers. -/
theorem left_of_unlocked (free : s.unlocked = true) {d} (found : s.deliveries.lookup g = some d) : d.left = none := by
  have none := all_eq_true.mp free d (mem_values.mpr ⟨g, found⟩)
  exact Option.isNone_iff_eq_none.mp none

/-- What a section closes are different current subscribers, and it leaves the others in the map. -/
structure Shuts (s : EventStreamLayer) (d : Shutdown) : Prop where
  once : d.handles.Nodup
  current : ∀ h ∈ d.handles, ∃ id, s.streamSubscribers.lookup id = some h
  kept : ∀ id h, d.kept.lookup id = some h → s.streamSubscribers.lookup id = some h ∧ h ∉ d.handles

theorem Sound.unsubscribing (sound : Sound s) {id} (closes : s.unsubscribing id = some d) : Shuts s d := by
  obtain ⟨h, found, rfl⟩ := Option.map_eq_some_iff.mp closes
  refine ⟨nodup_singleton h, fun h' mem => ?_, fun id' h' kept => ?_⟩
  · rw [mem_singleton.mp mem]
    exact ⟨id, found⟩
  · rw [lookup_erase_eq] at kept
    split_ifs at kept with same
    refine ⟨kept, fun mem => same ?_⟩
    rw [mem_singleton.mp mem] at kept
    exact sound.distinct id' id h kept found

theorem Sound.cleaningInactive (sound : Sound s) {cutoff order}
    (closes : s.cleaningInactive cutoff order = some d) : Shuts s d := by
  cases closes
  refine ⟨?_, fun h mem => ?_, fun id h kept => ?_⟩
  · have values : ((order.visit s.streamSubscribers.pairs).map Prod.snd).Nodup := by
      rw [((order.perm _).map Prod.snd).nodup_iff, map_snd_pairs]
      exact values_nodup.mpr sound.distinct
    exact values.sublist (filter_sublist.map _)
  · obtain ⟨⟨id, h'⟩, found, rfl⟩ := mem_map.mp mem
    exact ⟨id, mem_pairs.mp (order.mem_visit.mp (mem_of_mem_filter found))⟩
  · rw [lookup_filter, Option.filter_eq_some_iff] at kept
    refine ⟨kept.1, fun mem => ?_⟩
    obtain ⟨⟨_, h'⟩, found, rfl⟩ := mem_map.mp mem
    have inactive : s.inactive cutoff h' = true := (mem_filter.mp found).2
    simp [inactive] at kept

theorem Sound.closing (sound : Sound s) {order} (closes : s.closing order = some d) : Shuts s d := by
  cases closes
  refine ⟨?_, fun h mem => mem_values.mp (order.mem_visit.mp mem), fun id h kept => ?_⟩
  · rw [(order.perm _).nodup_iff]
    exact values_nodup.mpr sound.distinct
  · cases kept

theorem Sound.shutdown (sound : Sound s) (closes : s.shutdown i = some d) : Shuts s d := by
  cases i with
  | unsubscribe id => exact sound.unsubscribing closes
  | cleanInactiveSubscribers cutoff order => exact sound.cleaningInactive closes
  | close order => exact sound.closing closes
  | _ => cases closes

theorem Becomes.channelClosed {h sub'} (becomes : Becomes s i h sub sub') : sub'.channelClosed = sub.channelClosed ∨
      (s.unlocked = true ∧ s.closed = false ∧ ∃ d, s.shutdown i = some d ∧ h ∈ d.handles) := by
  cases becomes with
  | shut free opened closes mem => exact .inr ⟨free, opened, _, closes, mem⟩
  | same | sent | dropped | caught | read | endContext => exact .inl rfl

theorem Becomes.sees {h sub'} (becomes : Becomes s i h sub sub') (e : StreamEvent) : sub'.sees e = sub.sees e := by
  cases becomes with
  | same | shut | sent | dropped | caught | read | endContext => rfl

/-- The subscribers are still there, and their channels as open as before. -/
def SameChannels (s s' : EventStreamLayer) : Prop :=
  ∀ (h : Nat) sub, s.subscribers[h]? = some sub →
    ∃ sub', s'.subscribers[h]? = some sub' ∧ sub'.channelClosed = sub.channelClosed

theorem sameChannels_modify {t : EventStreamLayer} {k f}
    (same : t.subscribers = s.subscribers) (keeps : ∀ sub, (f sub).channelClosed = sub.channelClosed) :
    SameChannels s (t.modify k f) := by
  intro h sub is
  rw [modify_subscribers, getElem?_modify, same, is]
  by_cases here : k = h
  · exact ⟨f sub, by simp [here], keeps sub⟩
  · exact ⟨sub, by simp [here], rfl⟩

theorem Sound.sameMap (sound : Sound s) (channels : SameChannels s s')
    (map : s'.streamSubscribers = s.streamSubscribers)
    (listed : ∀ g e left, s'.deliveries.lookup g = some ⟨e, some left⟩ →
      ∀ h ∈ left, ∃ id, s.streamSubscribers.lookup id = some h) : Sound s' where
  current id h found := by
    rw [map] at found
    obtain ⟨sub, is, opened⟩ := sound.current id h found
    obtain ⟨sub', is', same⟩ := channels h sub is
    exact ⟨sub', is', same.trans opened⟩
  distinct := by
    rw [map]
    exact sound.distinct
  listed := by
    rw [map]
    exact listed

/-- A delivery that goes on goes through fewer of the current subscribers. -/
theorem Sound.leave (sound : Sound s) {e left}
    (current : ∀ h ∈ left, ∃ id, s.streamSubscribers.lookup id = some h) (g' : Nat) (e' : StreamEvent) (left' : List Nat)
    (found : (s.leave g e left).deliveries.lookup g' = some ⟨e', some left'⟩) (h : Nat) (mem : h ∈ left') :
    ∃ id, s.streamSubscribers.lookup id = some h := by
  rw [leave_deliveries, lookup_insert_eq] at found
  split_ifs at found
  · cases found
    exact current h mem
  · exact sound.listed g' e' left' found h mem

theorem Sound.subscribed (sound : Sound s) {id}
    (free : s.unlocked = true) (opened : sub.channelClosed = false) (subscribers : s'.subscribers = s.subscribers ++ [sub])
    (map : s'.streamSubscribers = s.streamSubscribers.insert id s.subscribers.length)
    (deliveries : s'.deliveries = s.deliveries) : Sound s' where
  current id' h found := by
    rw [map, lookup_insert_eq] at found
    rw [subscribers]
    split_ifs at found
    · cases found
      exact ⟨sub, by simp, opened⟩
    · obtain ⟨old, is, opened⟩ := sound.current id' h found
      have within : h < s.subscribers.length := (List.getElem?_eq_some_iff.mp is).1
      exact ⟨old, (getElem?_append_left within).trans is, opened⟩
  distinct id' id'' h found found' := by
    -- an old number is below the new one
    have old : ∀ k h, s.streamSubscribers.lookup k = some h → h ≠ s.subscribers.length := by
      rintro k h found rfl
      obtain ⟨sub, is, -⟩ := sound.current k _ found
      exact absurd (List.getElem?_eq_some_iff.mp is).1 (lt_irrefl _)
    rw [map, lookup_insert_eq] at found found'
    split_ifs at found found' with same same'
    · exact same.trans same'.symm
    · cases found
      exact absurd rfl (old id'' _ found')
    · cases found'
      exact absurd rfl (old id' _ found)
    · exact sound.distinct id' id'' h found found'
  listed g e left found := by
    rw [deliveries] at found
    cases left_of_unlocked free found

theorem Sound.shut (sound : Sound s) (shuts : Shuts s d)
    (free : s.unlocked = true) (subscribers : shutAll s.subscribers d.handles = some s'.subscribers)
    (map : s'.streamSubscribers = d.kept) (deliveries : s'.deliveries = s.deliveries) : Sound s' where
  current id h found := by
    rw [map] at found
    obtain ⟨before, other⟩ := shuts.kept id h found
    obtain ⟨sub, is, opened⟩ := sound.current id h before
    exact ⟨sub, by rw [getElem?_shutAll subscribers, is]; simp [other], opened⟩
  distinct id id' h found found' := by
    rw [map] at found found'
    exact sound.distinct id id' h (shuts.kept id h found).1 (shuts.kept id' h found').1
  listed g e left found := by
    rw [deliveries] at found
    cases left_of_unlocked free found

theorem shutting_ne_panics (sound : Sound s) : (s.shutting (s.shutdown i)).2 ≠ .panics := by
  unfold shutting locked
  split_ifs
  · exact Outcome.noConfusion
  · split
    · exact Outcome.noConfusion
    · rename_i _ closes
      have shuts := sound.shutdown closes
      obtain ⟨_, result⟩ := exists_shutAll shuts.once fun h mem sub is => by
        obtain ⟨id, found⟩ := shuts.current h mem
        obtain ⟨_, is', opened⟩ := sound.current id h found
        cases is.symm.trans is'
        exact opened
      rw [result]
      exact Outcome.noConfusion
  · exact Outcome.noConfusion

theorem deliver_ne_panics (sound : Sound s) {now branch} : (s.deliver g now branch).2 ≠ .panics := by
  unfold deliver
  split
  · exact Outcome.noConfusion
  · rename_i e h _ found
    split
    · exact Outcome.noConfusion
    · rename_i sub is
      obtain ⟨id, current⟩ := sound.listed g e _ found h mem_cons_self
      obtain ⟨_, is', opened⟩ := sound.current id h current
      cases is.symm.trans is'
      by_cases unwanted : sub.wants e = false
      · rw [if_pos unwanted]
        exact Outcome.noConfusion
      · cases branch with
        | send =>
          rw [opened, if_neg Bool.false_ne_true]
          split_ifs <;> exact Outcome.noConfusion
        | contextDone | closeChan =>
          split_ifs <;> exact Outcome.noConfusion
  · exact Outcome.noConfusion

/-- A catch-up that will send nothing more: it has only events left that its subscriber does not see, or it has not
read them and the layer is closed. -/
def Spent (subscribers : List StreamSubscriber) (closed : Bool) (c : Catchup) : Prop :=
  match c.left with
  | none => closed = true
  | some events => ∀ sub, subscribers[c.subscriber]? = some sub → ∀ e ∈ events, sub.sees e = false

/-- A step may be taken: the catch-ups of the subscribers that it closes are spent. -/
def Fits (s : EventStreamLayer) (i : Step) : Prop :=
  s.unlocked = true → s.closed = false → ∀ d, s.shutdown i = some d → ∀ g c, s.catchups.lookup g = some c →
    c.subscriber ∈ d.handles → Spent s.subscribers d.final c

/-- The catch-up of a subscriber whose channel is closed is spent. -/
def Settled (s : EventStreamLayer) : Prop :=
  ∀ g c sub, s.catchups.lookup g = some c → s.subscribers[c.subscriber]? = some sub → sub.channelClosed = true →
    Spent s.subscribers s.closed c

theorem settled_new : Settled (new config) := by
  intro g c sub found
  cases found

section Steps

variable [Unicode] {s s' : EventStreamLayer} {i : Step}

theorem Sound.step (sound : Sound s) (effect : Effect s i s') : Sound s' := by
  have unmoved : ∀ {t}, t.subscribers = s.subscribers → SameChannels s t := by
    intro t same h sub is
    exact ⟨sub, by rw [same]; exact is, rfl⟩
  cases effect with
  | same => exact sound
  | added =>
    refine sound.sameMap (unmoved rfl) rfl fun g e left found => ?_
    rw [lookup_insert_eq] at found
    split_ifs at found
    · cases found
    · exact sound.listed g e left found
  | subscribed free => exact sound.subscribed free rfl rfl rfl rfl
  | shut free _ closes result => exact sound.shut (sound.shutdown closes) free result rfl rfl
  | pruned | caughtUp | given => exact sound.sameMap (unmoved rfl) rfl sound.listed
  | @started _ order =>
    exact sound.sameMap (unmoved rfl) rfl (sound.leave fun h mem => mem_values.mp (order.mem_visit.mp mem))
  | ended =>
    exact sound.sameMap (unmoved rfl) rfl fun g e left found => sound.listed g e left (erase_sub _ _ g _ found)
  | skipped found =>
    exact sound.sameMap (unmoved rfl) rfl (sound.leave fun h mem => sound.listed _ _ _ found h (mem_cons_of_mem _ mem))
  | sent found | dropped found =>
    exact sound.sameMap (sameChannels_modify rfl fun _ => rfl) rfl
      (sound.leave fun h mem => sound.listed _ _ _ found h (mem_cons_of_mem _ mem))
  | caught | read | endContext => exact sound.sameMap (sameChannels_modify rfl fun _ => rfl) rfl sound.listed

theorem sound_exec (inputs : List Step) : Sound (exec step (new config) inputs) :=
  exec_inv (fun s i sound => sound.step (step_effect s i)) (sound_new config) inputs

/-- What is spent stays so: the subscribers see what they saw. -/
theorem Effect.spent (effect : Effect s i s') {c closed sub} (is : s.subscribers[c.subscriber]? = some sub) (spent : Spent s.subscribers closed c) :
    Spent s'.subscribers closed c := by
  unfold Spent at spent ⊢
  split
  · rename_i none
    rw [none] at spent
    exact spent
  · rename_i _ left
    rw [left] at spent
    intro sub' is' e mem
    obtain ⟨_, is'', becomes⟩ := effect.becomes is
    cases is'.symm.trans is''
    rw [becomes.sees e]
    exact spent sub is e mem

/-- A closed channel was closed before a step that closes none. -/
theorem Effect.closed_before (effect : Effect s i s') (none : s.shutdown i = none)
    {h : Nat} {sub'} (is : s'.subscribers[h]? = some sub') (closed : sub'.channelClosed = true) :
    ∃ sub, s.subscribers[h]? = some sub ∧ sub.channelClosed = true := by
  rcases effect.origin is with ⟨sub, is', becomes⟩ | ⟨-, _, _, _, -, rfl⟩
  · rcases becomes.channelClosed with same | ⟨-, -, _, closes, -⟩
    · exact ⟨sub, is', same.symm.trans closed⟩
    · rw [none] at closes
      cases closes
  · cases closed

omit [Unicode] in
/-- A catch-up that is one event further is spent if it was. -/
theorem Spent.next {subscribers : List StreamSubscriber} {closed : Bool} {h : Nat} {e : StreamEvent}
    {rest : List StreamEvent} (spent : Spent subscribers closed ⟨h, some (e :: rest)⟩) :
    Spent subscribers closed ⟨h, some rest⟩ :=
  fun sub is e' mem => spent sub is e' (mem_cons_of_mem e mem)

omit [Unicode] in
/-- A catch-up that is spent while the layer is open has read its events. -/
theorem Spent.of_open {subscribers : List StreamSubscriber} {c : Catchup} (spent : Spent subscribers false c)
    (closed : Bool) : Spent subscribers closed c := by
  unfold Spent at spent ⊢
  split
  · rename_i none
    rw [none] at spent
    cases spent
  · rename_i events left
    rw [left] at spent
    exact spent

theorem Settled.step (settled : Settled s) (fits : Fits s i) (effect : Effect s i s') : Settled s' := by
  intro g c sub found is closed
  -- what holds of a catch-up that the step leaves as it is
  have kept : s.catchups.lookup g = some c → s.shutdown i = none → Spent s'.subscribers s.closed c := by
    intro found none
    obtain ⟨sub, is, closed⟩ := effect.closed_before none is closed
    exact effect.spent is (settled g c sub found is closed)
  cases effect with
  | same | added | pruned | started | ended | skipped => exact settled g c sub found is closed
  | subscribed free opened checked =>
    rw [lookup_insert_eq] at found
    split_ifs at found
    · cases found
      rw [getElem?_append_right (le_refl _), Nat.sub_self] at is
      cases is
      cases closed
    · exact kept found rfl
  | @shut _ d subscribers free opened closes result =>
    have shut : Effect s i _ := .shut free opened closes result
    have before := is
    rw [getElem?_shutAll result] at before
    obtain ⟨old, is', becomes⟩ := Option.map_eq_some_iff.mp before
    by_cases mem : c.subscriber ∈ d.handles
    · exact shut.spent is' (fits free opened d closes g c found mem)
    · rw [if_neg mem] at becomes
      cases becomes
      have spent := settled g c sub found is' closed
      rw [opened] at spent
      exact shut.spent is' (spent.of_open d.final)
  | sent | dropped | read | endContext => exact kept found rfl
  | caughtUp old fewer =>
    rw [lookup_insert_eq] at found
    split_ifs at found
    · cases found
      have spent := settled _ _ sub old is closed
      rcases fewer with ⟨rfl, rfl⟩ | ⟨e, _, rfl, rfl⟩
      · have empty : s.getRecentEvents = [] := by
          have shut : s.closed = true := spent
          unfold getRecentEvents
          rw [if_pos shut]
        rw [empty]
        exact fun _ _ e mem => absurd mem not_mem_nil
      · exact spent.next
    · exact settled g c sub found is closed
  | caught old is' seen opened room =>
    have caught : Effect s _ _ := .caught old is' seen opened room
    rw [modify_catchups, lookup_insert_eq] at found
    split_ifs at found
    · cases found
      obtain ⟨sub', is'', closed'⟩ := caught.closed_before rfl is closed
      exact caught.spent is'' (settled _ _ sub' old is'' closed').next
    · exact kept found rfl
  | given k => exact settled g c sub (erase_sub _ k g c found) is closed

omit [Unicode] in
/-- No catch-up sends on a closed channel while all of them are settled. -/
theorem catchup_ne_panics (settled : Settled s) {g : Nat} {branch : Branch} : (s.catchup g branch).2 ≠ .panics := by
  unfold catchup
  split
  · exact Outcome.noConfusion
  · rename_i h e rest found
    split
    · exact Outcome.noConfusion
    · rename_i sub is
      by_cases unseen : sub.sees e = false
      · rw [if_pos unseen]
        exact Outcome.noConfusion
      · rw [if_neg unseen]
        have opened : ¬sub.channelClosed = true := fun closed =>
          unseen (settled g _ sub found is closed sub is e mem_cons_self)
        cases branch with
        | send =>
          dsimp only
          rw [if_neg opened]
          split_ifs <;> exact Outcome.noConfusion
        | contextDone =>
          dsimp only
          split_ifs <;> exact Outcome.noConfusion
        | closeChan => exact Outcome.noConfusion
  · exact Outcome.noConfusion

theorem step_ne_panics (sound : Sound s) (settled : Settled s) (i : Step) : (s.step i).2 ≠ .panics := by
  cases i with
  | addEvent c event =>
    simp only [step, addEvent, locked]
    split
    · exact Outcome.noConfusion
    · split_ifs <;> exact Outcome.noConfusion
  | subscribe id filter webID level =>
    simp only [step, subscribe, locked]
    split
    · exact Outcome.noConfusion
    · split_ifs <;> exact Outcome.noConfusion
  | unsubscribe id => exact @shutting_ne_panics s (.unsubscribe id) sound
  | cleanInactiveSubscribers cutoff order => exact @shutting_ne_panics s (.cleanInactiveSubscribers cutoff order) sound
  | close order => exact @shutting_ne_panics s (.close order) sound
  | cleanOldEvents cutoff =>
    simp only [step, cleanOldEvents, locked]
    split_ifs <;> exact Outcome.noConfusion
  | startDelivery g order =>
    simp only [step, startDelivery]
    split
    · split_ifs <;> exact Outcome.noConfusion
    · exact Outcome.noConfusion
  | deliver g now branch => exact deliver_ne_panics sound
  | startCatchup g =>
    simp only [step, startCatchup]
    split <;> exact Outcome.noConfusion
  | catchup g branch => exact catchup_ne_panics settled
  | read h =>
    simp only [step, read]
    split
    · exact Outcome.noConfusion
    · split_ifs <;> exact Outcome.noConfusion
  | endContext h => exact Outcome.noConfusion

/-- In a run that closes a subscriber only when its catch-up is spent, no step is a panic: nothing is sent on a closed
channel, and no channel is closed twice. -/
theorem fits_ne_panics (config : EventStreamConfig) (inputs : List Step)
    (fits : ∀ before i after, inputs = before ++ i :: after → Fits (Run.exec step (new config) before) i) :
    ∀ p ∈ Run.trace step (new config) inputs, p.2 ≠ .panics := by
  have settled := @run_inv _ _ _ step (new config) Settled inputs (settled_new config)
    fun before i after split settled => settled.step (fits before i after split) (step_effect _ i)
  intro p mem
  obtain ⟨before, after, split, out⟩ := mem_trace mem
  rw [out]
  exact step_ne_panics (sound_exec config before) (settled before _ split) p.1

end Steps

theorem fits_of_keeps (none : s.shutdown i = none) : Fits s i := by
  intro _ _ d closes
  rw [none] at closes
  cases closes

attribute [local instance] Unicode.ascii

/-- A subscriber catches up with an event and is closed then. -/
def caughtUpFirst : List Step :=
  [.addEvent probeContext (probe privacyLevelPublic), .subscribe "s" (levelFilter [] []) [] privacyLevelMetadata,
    .startCatchup 1, .catchup 1 .send, .unsubscribe "s"]

theorem catchups_caughtUpFirst : (exec step (new defaultEventStreamConfig) (caughtUpFirst.take 4)).catchups =
      (∅ : GoMap Nat Catchup).insert 1 ⟨0, some []⟩ := by
  rfl

theorem fits_ne_panics_caughtUpFirst : (∀ before i after, caughtUpFirst = before ++ i :: after →
      Fits (Run.exec step (new defaultEventStreamConfig) before) i) ∧
    ∀ p ∈ Run.trace step (new defaultEventStreamConfig) caughtUpFirst, p.2 ≠ .panics := by
  have fits : ∀ before i after, caughtUpFirst = before ++ i :: after →
      Fits (exec step (new defaultEventStreamConfig) before) i := by
    intro before i after split
    have length : before.length + (after.length + 1) = 5 := by
      simpa [caughtUpFirst] using (congrArg length split).symm
    have before_eq : before = caughtUpFirst.take before.length := by rw [split, take_left]
    have i_eq : caughtUpFirst[before.length]? = some i := by rw [split]; simp
    rw [before_eq]
    generalize before.length = n at length i_eq
    have which : n = 0 ∨ n = 1 ∨ n = 2 ∨ n = 3 ∨ n = 4 := by omega
    rcases which with rfl | rfl | rfl | rfl | rfl
    · cases i_eq
      exact fits_of_keeps rfl
    · cases i_eq
      exact fits_of_keeps rfl
    · cases i_eq
      exact fits_of_keeps rfl
    · cases i_eq
      exact fits_of_keeps rfl
    · intro _ _ d _ g c found _
      rw [catchups_caughtUpFirst, lookup_insert_eq] at found
      split_ifs at found
      · cases found
        exact fun _ _ e mem => absurd mem not_mem_nil
      · cases found
  exact ⟨fits, fits_ne_panics defaultEventStreamConfig caughtUpFirst fits⟩

def closedFirst : List Step :=
  [.addEvent probeContext (probe privacyLevelPublic), .subscribe "s" (levelFilter [] []) [] privacyLevelMetadata,
    .startCatchup 1, .unsubscribe "s", .catchup 1 .send]

/-- A subscriber is closed while its catch-up has an event left, and the catch-up sends it on the closed channel. -/
theorem closed_while_catching_up : (Run.trace step (new defaultEventStreamConfig) closedFirst).map Prod.snd =
      [.taken, .taken, .taken, .taken, .panics] := by
  decide +kernel

end EventStreamLayer

end Runtime
