import SolidSidecar.Runtime.Fanout
import SolidSidecar.Runtime.SubscriptionIndexes

/-!
# Who an event is fanned out to

`FanoutEventToSubscribers` takes all subscriptions whose filter matches an event and submits them with it.
The registry's own check, `CheckAccessForSubscription`, is not made. It asks for more: the subscription has to
be active, its containers have to hold the resource itself, and the agent has to have access.
`fanout_checked_iff` says for which registries and events nothing is missed by that.
-/

namespace Runtime
open Go List FanoutWorkerPool SubscriptionRegistry

structure FanoutService where
  workerPool : FanoutWorkerPool
  subscriptionRegistry : Option SubscriptionRegistry
  closed : Bool

namespace FanoutService

/-- `subscriptionMatchesEvent`. The container of an event may be the one its record names. -/
def subscriptionMatchesEvent (filter : StreamFilter) (event : StreamEvent) : Bool :=
  (filter.eventTypes.isEmpty || filter.eventTypes.contains event.eventType) &&
  (filter.resourceURIs.isEmpty || filter.resourceURIs.contains event.resourceURI) &&
  (filter.containerURIs.isEmpty || filter.containerURIs.contains event.containerURI ||
    filter.containerURIs.any (isInContainer event.resourceURI)) &&
  !below filter.minPrivacyLevel event.privacyLevel && !above filter.maxPrivacyLevel event.privacyLevel

def matchingSubscribers (order : RangeOrder Subscription) (registry : Option SubscriptionRegistry)
    (event : StreamEvent) : List Subscription :=
  match registry with
  | none => []
  | some r =>
    match r.listSubscriptions order [] [] none [] 0 0 with
    | .error _ => []
    | .ok (all, _) => all.filter fun sub => subscriptionMatchesEvent sub.filter event

def fanoutEvent (order : RangeOrder Subscription) (s : FanoutService) (event : StreamEvent) : FanoutEvent where
  event := event
  subscribers := matchingSubscribers order s.subscriptionRegistry event
  deliveryAttempts := 0
  lastAttemptTime := .zero
  nextAttemptTime := .zero

/-- The service after a call, and how many subscribers it reports. -/
def fanoutEventToSubscribers (order : RangeOrder Subscription) (s : FanoutService) (event : StreamEvent) :
    FanoutService × Except FanoutError Nat :=
  if s.closed then (s, .error .workerPoolClosed)
  else
    match s.workerPool.submitEvent (fanoutEvent order s event) with
    | (pool, .error err) => ({ s with workerPool := pool }, .error err)
    | (pool, .ok ()) => ({ s with workerPool := pool }, .ok (fanoutEvent order s event).subscribers.length)

def submitted (order : RangeOrder Subscription) (s : FanoutService) (event : StreamEvent) : List FanoutEvent :=
  (fanoutEventToSubscribers order s event).1.workerPool.distributionChannel.drop
    s.workerPool.distributionChannel.length

def Open (s : FanoutService) : Prop := s.closed = false ∧ s.workerPool.accepts = true

variable {s : FanoutService} {order : RangeOrder Subscription} {event : StreamEvent}

theorem mem_submitted {e} : e ∈ submitted order s event ↔ s.Open ∧ e = fanoutEvent order s event := by
  unfold submitted fanoutEventToSubscribers Open
  split_ifs with closed
  · simp [closed]
  · rcases submitEvent_eq _ with
      ⟨taken, result⟩ | ⟨refused, _, result⟩
    · rw [result]
      simp [taken, Bool.eq_false_of_not_eq_true closed]
    · rw [result]
      simp [refused]

variable {r : SubscriptionRegistry} {sub : Subscription}

/-- All subscriptions of an open registry are listed when no criterion is given. -/
theorem listSubscriptions_all (order : RangeOrder Subscription) (opened : r.closed = false) :
    ∃ n, r.listSubscriptions order [] [] none [] 0 0 = .ok (order.visit r.subscriptions.entries.values, n) := by
  have every : meets [] [] [] none = fun _ => true := by
    funext sub
    simp [meets]
  refine ⟨(order.visit r.subscriptions.entries.values).length, ?_⟩
  unfold listSubscriptions
  rw [then_eq_ok, opened]
  simp [every]

/-- The subscribers of an event: the stored subscriptions whose filter matches it. -/
theorem mem_matchingSubscribers : sub ∈ matchingSubscribers order (some r) event ↔
      r.closed = false ∧ r.subscriptions.lookup sub.subscriptionID = some sub ∧
        subscriptionMatchesEvent sub.filter event = true := by
  cases closed : r.closed with
  | true =>
    have refused : r.listSubscriptions order [] [] none [] 0 0 = .error .closed := by
      rw [listSubscriptions, bind_eq_error, refuse_eq_error]
      exact .inl ⟨closed, rfl⟩
    simp [matchingSubscribers, refused]
  | false =>
    have stored : sub ∈ r.subscriptions.entries.values ↔ r.subscriptions.lookup sub.subscriptionID = some sub := by
      rw [GoMap.mem_values]
      constructor
      · rintro ⟨id, found⟩
        rw [r.subscriptions.keyed id sub found]
        exact found
      · exact fun found => ⟨_, found⟩
    obtain ⟨_, listed⟩ := listSubscriptions_all order closed
    simp only [matchingSubscribers, listed]
    rw [mem_filter, order.mem_visit, stored]
    exact (and_iff_right trivial).symm

/-- Where the registry asks for more than the fan-out. -/
structure Cleared (provider : Authorizer) (event : StreamEvent) (sub : Subscription) : Prop where
  active : sub.status = .active
  contained : sub.filter.containerURIs = [] ∨ event.resourceURI ∈ sub.filter.containerURIs ∨
    ∃ container ∈ sub.filter.containerURIs, isInContainer event.resourceURI container = true
  granted : sub.webID = [] ∨ provider.checkAccess sub.webID event.resourceURI = .ok true

/-- For a subscription that matches, the registry's check comes down to what the fan-out does not ask. -/
theorem checkAccess_iff {provider}
    (opened : r.closed = false) (stored : r.subscriptions.lookup sub.subscriptionID = some sub)
    (matched : subscriptionMatchesEvent sub.filter event = true) :
    r.checkAccessForSubscription (some provider) sub.subscriptionID event.resourceURI event.privacyLevel = .ok true ↔
      Cleared provider event sub := by
  unfold subscriptionMatchesEvent at matched
  simp only [Bool.and_eq_true, Bool.or_eq_true, List.isEmpty_iff] at matched
  obtain ⟨⟨⟨⟨-, resource⟩, -⟩, low⟩, high⟩ := matched
  have admitted : admits sub.filter event.resourceURI event.privacyLevel = true ↔
      sub.filter.containerURIs = [] ∨ event.resourceURI ∈ sub.filter.containerURIs ∨
        ∃ container ∈ sub.filter.containerURIs, isInContainer event.resourceURI container = true := by
    unfold admits
    simp only [low, high, true_and, Bool.and_eq_true, Bool.or_eq_true, List.isEmpty_iff,
      contains_iff_mem, any_eq_true, or_assoc]
    exact and_iff_right (resource.imp_right contains_iff_mem.mp)
  unfold checkAccessForSubscription
  rw [opened, stored]
  simp only [orError, bind, Except.bind]
  constructor
  · intro passes
    split_ifs at passes with barred anonymous
    · cases passes
    · rw [not_or, not_not, Bool.not_eq_false] at barred
      exact ⟨barred.1, admitted.mp barred.2, .inl anonymous⟩
    · rw [not_or, not_not, Bool.not_eq_false] at barred
      exact ⟨barred.1, admitted.mp barred.2, .inr (mapError_eq_ok.mp passes)⟩
  · rintro ⟨active, contained, granted⟩
    rw [if_neg (by simp [active, admitted.mpr contained])]
    split_ifs with anonymous
    · rfl
    · exact mapError_eq_ok.mpr (granted.resolve_left anonymous)

/-- Every subscriber of everything that is submitted passes the registry's check, exactly when nothing is
submitted or every stored subscription that matches the event meets what the fan-out does not ask. -/
theorem fanout_checked_iff (s : FanoutService) (r : SubscriptionRegistry) (provider : Authorizer)
    (registry : s.subscriptionRegistry = some r) (event : StreamEvent) :
    (∀ order, ∀ e ∈ submitted order s event, ∀ sub ∈ e.subscribers,
        r.checkAccessForSubscription (some provider) sub.subscriptionID event.resourceURI event.privacyLevel =
          .ok true) ↔
      ¬ s.Open ∨ r.closed = true ∨
        ∀ id sub, r.subscriptions.lookup id = some sub → subscriptionMatchesEvent sub.filter event = true →
          Cleared provider event sub := by
  have subscribers (order : RangeOrder Subscription) (sub : Subscription) :
      sub ∈ (fanoutEvent order s event).subscribers ↔ r.closed = false ∧
        r.subscriptions.lookup sub.subscriptionID = some sub ∧ subscriptionMatchesEvent sub.filter event = true := by
    rw [fanoutEvent, registry]
    exact mem_matchingSubscribers
  constructor
  · intro checked
    by_cases opens : s.Open
    · refine .inr (or_iff_not_imp_left.mpr fun closed id sub stored matched => ?_)
      have opened : r.closed = false := Bool.eq_false_of_not_eq_true closed
      have own : r.subscriptions.lookup sub.subscriptionID = some sub := by
        rw [r.subscriptions.keyed id sub stored]
        exact stored
      have passes := checked default _ (mem_submitted.mpr ⟨opens, rfl⟩) sub
        ((subscribers default sub).mpr ⟨opened, own, matched⟩)
      exact (checkAccess_iff opened own matched).mp passes
    · exact .inl opens
  · intro condition order e mem sub listed
    obtain ⟨opens, rfl⟩ := mem_submitted.mp mem
    obtain ⟨opened, own, matched⟩ := (subscribers order sub).mp listed
    rcases condition with shut | closed | cleared
    · exact absurd opens shut
    · rw [opened] at closed
      cases closed
    · exact (checkAccess_iff opened own matched).mpr (cleared _ sub own matched)

/-- A registry with one subscription to everything, after the calls of its agent. -/
def registryAfter (calls : List SubscriptionRegistry.Op) : SubscriptionRegistry :=
  Run.exec SubscriptionRegistry.step (.new defaultSubscriptionRegistryConfig)
    (.create { now := .zero, newID := "sub-1" } SubscriptionRegistry.notesRequest :: calls)

def serviceAfter (calls : List SubscriptionRegistry.Op) : FanoutService where
  workerPool := (FanoutWorkerPool.new defaultFanoutWorkerPoolConfig).start.1
  subscriptionRegistry := some (registryAfter calls)
  closed := false

def permissive : Authorizer := ⟨fun _ _ => .ok true⟩

theorem fanout_checked_iff_active : (serviceAfter []).subscriptionRegistry = some (registryAfter []) ∧
    ∀ order, ∀ e ∈ submitted order (serviceAfter []) someEvent.event, ∀ sub ∈ e.subscribers,
      (registryAfter []).checkAccessForSubscription (some permissive) sub.subscriptionID
        someEvent.event.resourceURI someEvent.event.privacyLevel = .ok true := by
  have cleared : ∀ p ∈ (registryAfter []).subscriptions.entries.pairs, p.2.status = .active ∧ p.2.filter.containerURIs = [] := by
    decide +kernel
  refine ⟨rfl, (fanout_checked_iff (serviceAfter []) _ permissive rfl _).mpr (.inr (.inr fun id sub found _ => ?_))⟩
  obtain ⟨active, everywhere⟩ := cleared (id, sub) (GoMap.mem_pairs.mpr found)
  exact ⟨active, .inl everywhere, .inr rfl⟩

def pausedRegistry : SubscriptionRegistry := registryAfter [.pause .zero "sub-1"]

def pausedService : FanoutService := serviceAfter [.pause .zero "sub-1"]

theorem paused_subscriber_submitted :
    ¬ ∀ order, ∀ e ∈ submitted order pausedService someEvent.event, ∀ sub ∈ e.subscribers,
      pausedRegistry.checkAccessForSubscription (some permissive) sub.subscriptionID
        someEvent.event.resourceURI someEvent.event.privacyLevel = .ok true := by
  intro checked
  have ids : ((submitted default pausedService someEvent.event).flatMap fun e =>
      e.subscribers.map Subscription.subscriptionID) = ["sub-1"] := by decide +kernel
  have listed : str "sub-1" ∈ (submitted default pausedService FanoutWorkerPool.someEvent.event).flatMap fun e =>
      e.subscribers.map Subscription.subscriptionID := by
    rw [ids]
    exact mem_singleton_self _
  obtain ⟨e, mem, listed⟩ := mem_flatMap.mp listed
  obtain ⟨sub, mem', same⟩ := mem_map.mp listed
  have passes := checked default e mem sub mem'
  rw [same] at passes
  revert passes
  decide +kernel

end FanoutService

end Runtime
