import SolidSidecar.Run.Machine
import SolidSidecar.Runtime.EventStream

/-!
# The event stream as a machine

The steps of `event_stream.go`: a lock section, an operation on a channel and the start of a goroutine each are
one step. `AddEvent` starts a goroutine that takes the read lock and puts the event on the channels of the
subscribers, one after the other, and holds the lock all the while; `Subscribe` starts one that reads the
recent events and puts them on the new subscriber's channel, without the lock. A section under the write
lock can be taken only while no delivery holds the read lock. Choices of a `select` and orders of a `range`
are part of a step.

A step is blocked, or it is taken, or it is a panic: a send on a closed channel or its second closing.
-/

namespace Runtime
open Go

/-- A delivery: the event, and the subscribers that are left once it holds the read lock. -/
structure Delivery where
  event : StreamEvent
  left : Option (List Nat)

/-- The goroutine of a `Subscribe`: its subscriber, and the events that are left once it has read them. -/
structure Catchup where
  subscriber : Nat
  left : Option (List StreamEvent)

/-- The layer and its goroutines. `subscribers` are all that ever were; the map leads from ids to the current
ones by their number. -/
structure EventStreamLayer where
  config : EventStreamConfig
  closed : Bool
  eventStreamBuffer : List StreamEvent
  streamSubscribers : GoMap Str Nat
  subscribers : List StreamSubscriber
  deliveries : GoMap Nat Delivery
  catchups : GoMap Nat Catchup
  spawned : Nat

inductive Outcome where
  | taken
  | blocked
  | panics
  deriving DecidableEq, Repr

inductive Branch where
  | send
  | contextDone
  | closeChan
  deriving DecidableEq, Repr

namespace EventStreamLayer

def new (config : EventStreamConfig) : EventStreamLayer where
  config := config
  closed := false
  eventStreamBuffer := []
  streamSubscribers := ∅
  subscribers := []
  deliveries := ∅
  catchups := ∅
  spawned := 0

def unlocked (s : EventStreamLayer) : Bool := s.deliveries.values.all fun d => d.left.isNone

def modify (s : EventStreamLayer) (h : Nat) (f : StreamSubscriber → StreamSubscriber) : EventStreamLayer :=
  { s with subscribers := s.subscribers.modify h f }

@[simp] theorem modify_subscribers (s : EventStreamLayer) (h : Nat) (f : StreamSubscriber → StreamSubscriber) :
    (s.modify h f).subscribers = s.subscribers.modify h f := rfl

@[simp] theorem modify_deliveries (s : EventStreamLayer) (h : Nat) (f : StreamSubscriber → StreamSubscriber) :
    (s.modify h f).deliveries = s.deliveries := rfl

@[simp] theorem modify_catchups (s : EventStreamLayer) (h : Nat) (f : StreamSubscriber → StreamSubscriber) :
    (s.modify h f).catchups = s.catchups := rfl

def locked (s : EventStreamLayer) (body : EventStreamLayer × Outcome) : EventStreamLayer × Outcome :=
  if s.unlocked then body else (s, .blocked)

/-- The buffer with one more event, without its first when it is too long. -/
def push (s : EventStreamLayer) (e : StreamEvent) : List StreamEvent :=
  if s.config.maxStreamBufferSize < (s.eventStreamBuffer ++ [e]).length then (s.eventStreamBuffer ++ [e]).tail
  else s.eventStreamBuffer ++ [e]

def addEvent [Unicode] (s : EventStreamLayer) (c : AddContext) (event : StreamEvent) : EventStreamLayer × Outcome :=
  match checkEvent s.config c event with
  | .error _ => (s, .taken)
  | .ok () => s.locked <|
    if s.closed then (s, .taken)
    else
      let e := event.completed c
      ({ s with
          eventStreamBuffer := s.push e
          deliveries := s.deliveries.insert s.spawned ⟨e, none⟩
          spawned := s.spawned + 1 }, .taken)

variable {s s' : EventStreamLayer} {handles : List Nat} {subscribers : List StreamSubscriber}
  {g h : Nat} {e : StreamEvent} {sub : StreamSubscriber}

theorem addEvent_eq [Unicode] {c event} (free : s.unlocked = true)
    (opened : s.closed = false) (checked : checkEvent s.config c event = .ok ()) :
    s.addEvent c event = ({ s with
      eventStreamBuffer := s.push (event.completed c)
      deliveries := s.deliveries.insert s.spawned ⟨event.completed c, none⟩
      spawned := s.spawned + 1 }, .taken) := by
  unfold addEvent locked
  rw [checked]
  simp [free, opened]

def subscribe (s : EventStreamLayer) (id : Str) (filter : StreamFilter) (webID : Str)
    (minPrivacyLevel : PrivacyLevel) : EventStreamLayer × Outcome :=
  match checkSubscribe s.config filter webID minPrivacyLevel with
  | .error _ => (s, .taken)
  | .ok () => s.locked <|
    if s.closed ∨ s.config.maxStreamSubscribers ≤ s.streamSubscribers.size then (s, .taken)
    else
      ({ s with
          subscribers := s.subscribers ++ [newSubscriber filter webID minPrivacyLevel]
          streamSubscribers := s.streamSubscribers.insert id s.subscribers.length
          catchups := s.catchups.insert s.spawned ⟨s.subscribers.length, none⟩
          spawned := s.spawned + 1 }, .taken)

theorem subscribe_eq {id filter webID minPrivacyLevel} (free : s.unlocked = true) (opened : s.closed = false)
    (few : (s.streamSubscribers.size : Int) < s.config.maxStreamSubscribers)
    (checked : checkSubscribe s.config filter webID minPrivacyLevel = .ok ()) :
    s.subscribe id filter webID minPrivacyLevel = ({ s with
      subscribers := s.subscribers ++ [newSubscriber filter webID minPrivacyLevel]
      streamSubscribers := s.streamSubscribers.insert id s.subscribers.length
      catchups := s.catchups.insert s.spawned ⟨s.subscribers.length, none⟩
      spawned := s.spawned + 1 }, .taken) := by
  have fits : ¬(s.closed = true ∨ s.config.maxStreamSubscribers ≤ s.streamSubscribers.size) := by
    rintro (closed | _)
    · rw [opened] at closed
      cases closed
    · omega
  unfold subscribe locked
  rw [checked]
  simp [free, if_neg fits]

/-- Close the channels of subscribers one after the other; `none` when one is closed already. -/
def shutAll (subscribers : List StreamSubscriber) : List Nat → Option (List StreamSubscriber)
  | [] => some subscribers
  | h :: rest =>
    match subscribers[h]? with
    | none => shutAll subscribers rest
    | some sub => if sub.channelClosed then none else shutAll (subscribers.set h sub.shut) rest

/-- After a closing the subscribers are as before, the closed ones shut. -/
theorem getElem?_shutAll {shut} (result : shutAll subscribers handles = some shut) (h : Nat) :
    shut[h]? = subscribers[h]?.map fun sub => if h ∈ handles then sub.shut else sub := by
  induction handles generalizing subscribers with
  | nil =>
    cases result
    simp
  | cons k rest ih =>
    unfold shutAll at result
    split at result
    · rename_i absent
      rw [ih result]
      by_cases same : h = k
      · subst same
        rw [absent]
        rfl
      · simp [same]
    · rename_i _ is
      split_ifs at result
      rw [ih result, List.getElem?_set]
      by_cases same : k = h
      · subst same
        have within : k < subscribers.length := (getElem?_eq_some_iff.mp is).1
        rw [if_pos within, is]
        simp
      · rw [if_neg same]
        simp [Ne.symm same]

theorem exists_shutAll (once : handles.Nodup)
    (opened : ∀ h ∈ handles, ∀ sub, subscribers[h]? = some sub → sub.channelClosed = false) :
    ∃ shut, shutAll subscribers handles = some shut := by
  induction handles generalizing subscribers with
  | nil => exact ⟨subscribers, rfl⟩
  | cons k rest ih =>
    obtain ⟨other, once⟩ := List.nodup_cons.mp once
    unfold shutAll
    split
    · exact ih once fun h mem => opened h (List.mem_cons_of_mem k mem)
    · rename_i sub is
      rw [opened k List.mem_cons_self sub is]
      refine ih once fun h mem sub' is' => ?_
      have apart : k ≠ h := fun same => other (same ▸ mem)
      rw [List.getElem?_set_ne apart] at is'
      exact opened h (List.mem_cons_of_mem k mem) sub' is'

/-- What a section closes: the subscribers, the map that it leaves, and whether the layer is closed too. -/
structure Shutdown where
  handles : List Nat
  kept : GoMap Str Nat
  final : Bool

/-- A section that closes subscribers, unless the layer is closed. -/
def shutting (s : EventStreamLayer) (shutdown : Option Shutdown) : EventStreamLayer × Outcome :=
  s.locked <|
    if s.closed then (s, .taken)
    else
      match shutdown with
      | none => (s, .taken)
      | some shutdown =>
        match shutAll s.subscribers shutdown.handles with
        | none => (s, .panics)
        | some subscribers =>
          ({ s with
              closed := shutdown.final
              eventStreamBuffer := if shutdown.final then [] else s.eventStreamBuffer
              subscribers := subscribers
              streamSubscribers := shutdown.kept }, .taken)

/-- `Unsubscribe` closes the subscriber that is stored under the id. -/
def unsubscribing (s : EventStreamLayer) (id : Str) : Option Shutdown :=
  (s.streamSubscribers.lookup id).map fun h => ⟨[h], s.streamSubscribers.erase id, false⟩

/-- A subscriber that was sent something, and nothing since the cutoff. -/
def inactive (s : EventStreamLayer) (cutoff : Time) (h : Nat) : Bool :=
  match s.subscribers[h]? with
  | none => false
  | some sub => sub.lastSent.before cutoff && !sub.lastSent.isZero

def cleaningInactive (s : EventStreamLayer) (cutoff : Time) (order : RangeOrder (Str × Nat)) : Option Shutdown :=
  some {
    handles := ((order.visit s.streamSubscribers.pairs).filter fun e => s.inactive cutoff e.2).map Prod.snd
    kept := s.streamSubscribers.filter fun _ h => !s.inactive cutoff h
    final := false }

def closing (s : EventStreamLayer) (order : RangeOrder Nat) : Option Shutdown :=
  some ⟨order.visit s.streamSubscribers.values, ∅, true⟩

/-- The events of the buffer from after the cutoff stay. -/
def cleanOldEvents (s : EventStreamLayer) (cutoff : Time) : EventStreamLayer × Outcome :=
  s.locked <|
    if s.closed then (s, .taken)
    else
      ({ s with eventStreamBuffer := s.eventStreamBuffer.filter fun e => cutoff.before e.streamTimestamp }, .taken)

def leave (s : EventStreamLayer) (g : Nat) (e : StreamEvent) (left : List Nat) : EventStreamLayer :=
  { s with deliveries := s.deliveries.insert g ⟨e, some left⟩ }

@[simp] theorem leave_subscribers (s : EventStreamLayer) (g : Nat) (e : StreamEvent) (left : List Nat) :
    (s.leave g e left).subscribers = s.subscribers := rfl

@[simp] theorem leave_deliveries (s : EventStreamLayer) (g : Nat) (e : StreamEvent) (left : List Nat) :
    (s.leave g e left).deliveries = s.deliveries.insert g ⟨e, some left⟩ := rfl

/-- A delivery takes the read lock: it goes through the current subscribers, or ends at once. -/
def startDelivery (s : EventStreamLayer) (g : Nat) (order : RangeOrder Nat) : EventStreamLayer × Outcome :=
  match s.deliveries.lookup g with
  | some ⟨e, none⟩ =>
    if s.closed then ({ s with deliveries := s.deliveries.erase g }, .taken)
    else (s.leave g e (order.visit s.streamSubscribers.values), .taken)
  | _ => (s, .blocked)

theorem startDelivery_eq
    (found : s.deliveries.lookup g = some ⟨e, none⟩) (opened : s.closed = false) (order : RangeOrder Nat) :
    s.startDelivery g order = (s.leave g e (order.visit s.streamSubscribers.values), .taken) := by
  unfold startDelivery
  rw [found]
  simp [opened]

/-- A delivery goes on by one subscriber, or gives the lock back. -/
def deliver (s : EventStreamLayer) (g : Nat) (now : Time) (branch : Branch) : EventStreamLayer × Outcome :=
  match s.deliveries.lookup g with
  | some ⟨_, some []⟩ => ({ s with deliveries := s.deliveries.erase g }, .taken)
  | some ⟨e, some (h :: rest)⟩ =>
    match s.subscribers[h]? with
    | none => (s.leave g e rest, .taken)
    | some sub =>
      if sub.wants e = false then (s.leave g e rest, .taken)
      else
        match branch with
        | .send =>
          if sub.channelClosed then (s, .panics)
          else if sub.full s.config then (s, .blocked)
          else ((s.leave g e rest).modify h fun sub => sub.receiveAt e now, .taken)
        | .contextDone =>
          if sub.contextDone then ((s.leave g e rest).modify h fun sub => { sub with active := false }, .taken)
          else (s, .blocked)
        | .closeChan => if s.closed then ({ s with deliveries := s.deliveries.erase g }, .taken) else (s, .blocked)
  | _ => (s, .blocked)

section Deliver

variable {s : EventStreamLayer} {g h : Nat} {e : StreamEvent} {rest : List Nat} {sub : StreamSubscriber}

theorem deliver_end (found : s.deliveries.lookup g = some ⟨e, some []⟩) (now : Time) (branch : Branch) :
    s.deliver g now branch = ({ s with deliveries := s.deliveries.erase g }, .taken) := by
  unfold deliver
  rw [found]

section

variable (found : s.deliveries.lookup g = some ⟨e, some (h :: rest)⟩)

include found

theorem deliver_skip (unwanted : ∀ sub, s.subscribers[h]? = some sub → sub.wants e = false) (now : Time) (branch : Branch) :
    s.deliver g now branch = (s.leave g e rest, .taken) := by
  unfold deliver
  rw [found]
  dsimp only
  split
  · rfl
  · rename_i sub is
    rw [if_pos (unwanted sub is)]

theorem deliver_send (is : s.subscribers[h]? = some sub)
    (wanted : sub.wants e = true) (opened : sub.channelClosed = false) (room : sub.full s.config = false) (now : Time) :
    s.deliver g now .send = ((s.leave g e rest).modify h fun sub => sub.receiveAt e now, .taken) := by
  unfold deliver
  rw [found]
  dsimp only
  rw [is]
  simp [wanted, opened, room]

theorem deliver_drop (is : s.subscribers[h]? = some sub)
    (wanted : sub.wants e = true) (done : sub.contextDone = true) (now : Time) :
    s.deliver g now .contextDone = ((s.leave g e rest).modify h fun sub => { sub with active := false }, .taken) := by
  unfold deliver
  rw [found]
  dsimp only
  rw [is]
  simp [wanted, done]

end

end Deliver

def getRecentEvents (s : EventStreamLayer) : List StreamEvent :=
  if s.closed then [] else s.eventStreamBuffer.drop (s.eventStreamBuffer.length - 100)

def startCatchup (s : EventStreamLayer) (g : Nat) : EventStreamLayer × Outcome :=
  match s.catchups.lookup g with
  | some ⟨h, none⟩ => ({ s with catchups := s.catchups.insert g ⟨h, some s.getRecentEvents⟩ }, .taken)
  | _ => (s, .blocked)

def catchup (s : EventStreamLayer) (g : Nat) (branch : Branch) : EventStreamLayer × Outcome :=
  match s.catchups.lookup g with
  | some ⟨_, some []⟩ => ({ s with catchups := s.catchups.erase g }, .taken)
  | some ⟨h, some (e :: rest)⟩ =>
    match s.subscribers[h]? with
    | none => (s, .blocked)
    | some sub =>
      if sub.sees e = false then ({ s with catchups := s.catchups.insert g ⟨h, some rest⟩ }, .taken)
      else
        match branch with
        | .send =>
          if sub.channelClosed then (s, .panics)
          else if sub.full s.config then (s, .blocked)
          else ({ s with catchups := s.catchups.insert g ⟨h, some rest⟩ }.modify h fun sub => sub.receive e, .taken)
        | .contextDone =>
          if sub.contextDone ∨ sub.cancelled then ({ s with catchups := s.catchups.erase g }, .taken)
          else (s, .blocked)
        | .closeChan => (s, .blocked)
  | _ => (s, .blocked)

theorem catchup_eq {rest} (found : s.catchups.lookup g = some ⟨h, some (e :: rest)⟩)
    (is : s.subscribers[h]? = some sub) (seen : sub.sees e = true) (opened : sub.channelClosed = false)
    (room : sub.full s.config = false) :
    s.catchup g .send =
      ({ s with catchups := s.catchups.insert g ⟨h, some rest⟩ }.modify h fun sub => sub.receive e, .taken) := by
  unfold catchup
  rw [found]
  dsimp only
  rw [is]
  simp [seen, opened, room]

def read (s : EventStreamLayer) (h : Nat) : EventStreamLayer × Outcome :=
  match s.subscribers[h]? with
  | none => (s, .blocked)
  | some sub =>
    if sub.waiting = 0 then (s, .blocked)
    else (s.modify h fun sub => { sub with taken := sub.taken + 1 }, .taken)

theorem read_eq (is : s.subscribers[h]? = some sub)
    (some : sub.waiting ≠ 0) : s.read h = (s.modify h fun sub => { sub with taken := sub.taken + 1 }, .taken) := by
  unfold read
  rw [is]
  exact if_neg some

/-- The context that a subscriber was given is done. -/
def endContext (s : EventStreamLayer) (h : Nat) : EventStreamLayer × Outcome :=
  (s.modify h fun sub => { sub with contextDone := true }, .taken)

inductive Step where
  | addEvent (c : AddContext) (event : StreamEvent)
  | subscribe (id : Str) (filter : StreamFilter) (webID : Str) (minPrivacyLevel : PrivacyLevel)
  | unsubscribe (id : Str)
  | cleanInactiveSubscribers (cutoff : Time) (order : RangeOrder (Str × Nat))
  | close (order : RangeOrder Nat)
  | cleanOldEvents (cutoff : Time)
  | startDelivery (g : Nat) (order : RangeOrder Nat)
  | deliver (g : Nat) (now : Time) (branch : Branch)
  | startCatchup (g : Nat)
  | catchup (g : Nat) (branch : Branch)
  | read (h : Nat)
  | endContext (h : Nat)

variable [Unicode]

def step (s : EventStreamLayer) : Step → EventStreamLayer × Outcome
  | .addEvent c event => s.addEvent c event
  | .subscribe id filter webID minPrivacyLevel => s.subscribe id filter webID minPrivacyLevel
  | .unsubscribe id => s.shutting (s.unsubscribing id)
  | .cleanInactiveSubscribers cutoff order => s.shutting (s.cleaningInactive cutoff order)
  | .close order => s.shutting (s.closing order)
  | .cleanOldEvents cutoff => s.cleanOldEvents cutoff
  | .startDelivery g order => s.startDelivery g order
  | .deliver g now branch => s.deliver g now branch
  | .startCatchup g => s.startCatchup g
  | .catchup g branch => s.catchup g branch
  | .read h => s.read h
  | .endContext h => s.endContext h

omit [Unicode] in
def shutdown (s : EventStreamLayer) : Step → Option Shutdown
  | .unsubscribe id => s.unsubscribing id
  | .cleanInactiveSubscribers cutoff order => s.cleaningInactive cutoff order
  | .close order => s.closing order
  | _ => none

/-- The states that a step can lead to, each with what has to be so for it. -/
inductive Effect (s : EventStreamLayer) : Step → EventStreamLayer → Prop where
  | same (i : Step) : Effect s i s
  | added {c event} (free : s.unlocked = true) (opened : s.closed = false)
      (checked : checkEvent s.config c event = .ok ()) :
      Effect s (.addEvent c event) { s with
        eventStreamBuffer := s.push (event.completed c)
        deliveries := s.deliveries.insert s.spawned ⟨event.completed c, none⟩
        spawned := s.spawned + 1 }
  | subscribed {id filter webID minPrivacyLevel} (free : s.unlocked = true) (opened : s.closed = false)
      (checked : checkSubscribe s.config filter webID minPrivacyLevel = .ok ()) :
      Effect s (.subscribe id filter webID minPrivacyLevel) { s with
        subscribers := s.subscribers ++ [newSubscriber filter webID minPrivacyLevel]
        streamSubscribers := s.streamSubscribers.insert id s.subscribers.length
        catchups := s.catchups.insert s.spawned ⟨s.subscribers.length, none⟩
        spawned := s.spawned + 1 }
  | shut {i d subscribers} (free : s.unlocked = true) (opened : s.closed = false) (closes : s.shutdown i = some d)
      (result : shutAll s.subscribers d.handles = some subscribers) :
      Effect s i { s with
        closed := d.final
        eventStreamBuffer := if d.final then [] else s.eventStreamBuffer
        subscribers := subscribers
        streamSubscribers := d.kept }
  | pruned {i} (keeps : StreamEvent → Bool) :
      Effect s i { s with eventStreamBuffer := s.eventStreamBuffer.filter keeps }
  | started {g : Nat} {order e} (found : s.deliveries.lookup g = some ⟨e, none⟩) (opened : s.closed = false) :
      Effect s (.startDelivery g order) (s.leave g e (order.visit s.streamSubscribers.values))
  | ended {i g d} (found : s.deliveries.lookup g = some d)
      (done : d.left = none ∨ d.left = some [] ∨ s.closed = true) :
      Effect s i { s with deliveries := s.deliveries.erase g }
  | skipped {g : Nat} {now branch e h rest} (found : s.deliveries.lookup g = some ⟨e, some (h :: rest)⟩)
      (unwanted : ∀ sub, s.subscribers[h]? = some sub → sub.wants e = false) :
      Effect s (.deliver g now branch) (s.leave g e rest)
  | sent {g : Nat} {now e h rest sub}
      (found : s.deliveries.lookup g = some ⟨e, some (h :: rest)⟩) (is : s.subscribers[h]? = some sub)
      (wanted : sub.wants e = true) (opened : sub.channelClosed = false) (room : sub.full s.config = false) :
      Effect s (.deliver g now .send) ((s.leave g e rest).modify h fun sub => sub.receiveAt e now)
  | dropped {g : Nat} {now e h rest sub}
      (found : s.deliveries.lookup g = some ⟨e, some (h :: rest)⟩) (is : s.subscribers[h]? = some sub)
      (wanted : sub.wants e = true) (done : sub.contextDone = true) :
      Effect s (.deliver g now .contextDone) ((s.leave g e rest).modify h fun sub => { sub with active := false })
  | caughtUp {i g h left left'} (found : s.catchups.lookup g = some ⟨h, left⟩)
      (fewer : (left = none ∧ left' = some s.getRecentEvents) ∨
        ∃ e rest, left = some (e :: rest) ∧ left' = some rest) :
      Effect s i { s with catchups := s.catchups.insert g ⟨h, left'⟩ }
  | caught {g : Nat} {e h rest sub}
      (found : s.catchups.lookup g = some ⟨h, some (e :: rest)⟩) (is : s.subscribers[h]? = some sub)
      (seen : sub.sees e = true) (opened : sub.channelClosed = false) (room : sub.full s.config = false) :
      Effect s (.catchup g .send)
        ({ s with catchups := s.catchups.insert g ⟨h, some rest⟩ }.modify h fun sub => sub.receive e)
  | given {i} (g : Nat) : Effect s i { s with catchups := s.catchups.erase g }
  | read {h : Nat} {sub} (is : s.subscribers[h]? = some sub) (some : sub.waiting ≠ 0) :
      Effect s (.read h) (s.modify h fun sub => { sub with taken := sub.taken + 1 })
  | endContext (h : Nat) : Effect s (.endContext h) (s.modify h fun sub => { sub with contextDone := true })

variable {i : Step}

theorem shutting_effect (s : EventStreamLayer) (i : Step) : Effect s i (s.shutting (s.shutdown i)).1 := by
  unfold shutting locked
  split_ifs with free closed
  · exact .same i
  · split
    · exact .same i
    · rename_i _ closes
      split
      · exact .same i
      · rename_i _ result
        exact .shut free (Bool.eq_false_of_not_eq_true closed) closes result
  · exact .same i

theorem step_effect (s : EventStreamLayer) (i : Step) : Effect s i (s.step i).1 := by
  cases i with
  | addEvent c event =>
    simp only [step, addEvent, locked]
    split
    · exact .same _
    · rename_i checked
      split_ifs with free closed
      · exact .same _
      · exact .added free (Bool.eq_false_of_not_eq_true closed) checked
      · exact .same _
  | subscribe id filter webID minPrivacyLevel =>
    simp only [step, subscribe, locked]
    split
    · exact .same _
    · rename_i checked
      split_ifs with free refused
      · exact .same _
      · rw [not_or] at refused
        exact .subscribed free (Bool.eq_false_of_not_eq_true refused.1) checked
      · exact .same _
  | unsubscribe id => exact shutting_effect s _
  | cleanInactiveSubscribers cutoff order => exact shutting_effect s _
  | close order => exact shutting_effect s (.close order)
  | cleanOldEvents cutoff =>
    simp only [step, cleanOldEvents, locked]
    split_ifs
    · exact .same _
    · exact .pruned _
    · exact .same _
  | startDelivery g order =>
    simp only [step, startDelivery]
    split
    · rename_i e found
      split_ifs with closed
      · exact .ended found (.inl rfl)
      · exact .started found (Bool.eq_false_of_not_eq_true closed)
    · exact .same _
  | deliver g now branch =>
    simp only [step, deliver]
    split
    · rename_i found
      exact .ended found (.inr (.inl rfl))
    · rename_i e h rest found
      split
      · rename_i absent
        refine .skipped found fun sub is => ?_
        rw [absent] at is
        cases is
      · rename_i sub is
        by_cases unwanted : sub.wants e = false
        · rw [if_pos unwanted]
          refine .skipped found fun sub' is' => ?_
          rw [is] at is'
          cases is'
          exact unwanted
        · have wanted : sub.wants e = true := Bool.eq_true_of_not_eq_false unwanted
          cases branch with
          | send =>
            dsimp only
            split_ifs with shut full
            · exact .same _
            · exact .same _
            · exact .sent found is wanted (Bool.eq_false_of_not_eq_true shut) (Bool.eq_false_of_not_eq_true full)
          | contextDone =>
            dsimp only
            split_ifs with done
            · exact .dropped found is wanted done
            · exact .same _
          | closeChan =>
            dsimp only
            split_ifs with closed
            · exact .ended found (.inr (.inr closed))
            · exact .same _
    · exact .same _
  | startCatchup g =>
    simp only [step, startCatchup]
    split
    · rename_i h found
      exact .caughtUp found (.inl ⟨rfl, rfl⟩)
    · exact .same _
  | catchup g branch =>
    simp only [step, catchup]
    split
    · exact .given g
    · rename_i h e rest found
      split
      · exact .same _
      · rename_i sub is
        by_cases unseen : sub.sees e = false
        · rw [if_pos unseen]
          exact .caughtUp found (.inr ⟨e, rest, rfl, rfl⟩)
        · rw [if_neg unseen]
          have seen : sub.sees e = true := Bool.eq_true_of_not_eq_false unseen
          cases branch with
          | send =>
            dsimp only
            split_ifs with shut full
            · exact .same _
            · exact .same _
            · exact .caught found is seen (Bool.eq_false_of_not_eq_true shut) (Bool.eq_false_of_not_eq_true full)
          | contextDone =>
            dsimp only
            split_ifs
            · exact .given g
            · exact .same _
          | closeChan => exact .same _
    · exact .same _
  | read h =>
    simp only [step, read]
    split
    · exact .same _
    · rename_i sub is
      split_ifs with none
      · exact .same _
      · exact .read is none
  | endContext h => exact .endContext h

inductive Becomes (s : EventStreamLayer) (i : Step) (h : Nat) (sub : StreamSubscriber) : StreamSubscriber → Prop where
  | same : Becomes s i h sub sub
  | shut {d} (free : s.unlocked = true) (opened : s.closed = false) (closes : s.shutdown i = some d)
      (mem : h ∈ d.handles) : Becomes s i h sub sub.shut
  | sent {g : Nat} {now e rest}
      (found : s.deliveries.lookup g = some ⟨e, some (h :: rest)⟩) (wanted : sub.wants e = true)
      (room : sub.full s.config = false) : Becomes s i h sub (sub.receiveAt e now)
  | dropped (done : sub.contextDone = true) : Becomes s i h sub { sub with active := false }
  | caught {g : Nat} {e rest} (found : s.catchups.lookup g = some ⟨h, some (e :: rest)⟩) (seen : sub.sees e = true)
      (room : sub.full s.config = false) : Becomes s i h sub (sub.receive e)
  | read (is : i = .read h) (some : sub.waiting ≠ 0) : Becomes s i h sub { sub with taken := sub.taken + 1 }
  | endContext (is : i = .endContext h) : Becomes s i h sub { sub with contextDone := true }

omit [Unicode] in
theorem becomes_modify {t : EventStreamLayer} {k : Nat} {f : StreamSubscriber → StreamSubscriber}
    (same : t.subscribers = s.subscribers)
    (becomes : ∀ sub, s.subscribers[k]? = some sub → Becomes s i k sub (f sub))
    (is : s.subscribers[h]? = some sub) :
    ∃ sub', (t.modify k f).subscribers[h]? = some sub' ∧ Becomes s i h sub sub' := by
  unfold modify
  dsimp only
  rw [List.getElem?_modify, same, is]
  by_cases at_h : k = h
  · subst at_h
    exact ⟨f sub, by simp, becomes sub is⟩
  · exact ⟨sub, by simp [at_h], .same⟩

theorem Effect.becomes (effect : Effect s i s')
    (is : s.subscribers[h]? = some sub) : ∃ sub', s'.subscribers[h]? = some sub' ∧ Becomes s i h sub sub' := by
  cases effect with
  | same | added | pruned | started | ended | skipped | caughtUp | given => exact ⟨sub, is, .same⟩
  | subscribed =>
    have within : h < s.subscribers.length := (getElem?_eq_some_iff.mp is).1
    exact ⟨sub, (List.getElem?_append_left within).trans is, .same⟩
  | @shut _ d _ free opened closes result =>
    rw [getElem?_shutAll result, is]
    by_cases mem : h ∈ d.handles
    · exact ⟨sub.shut, by simp [mem], .shut free opened closes mem⟩
    · exact ⟨sub, by simp [mem], .same⟩
  | sent found is' wanted _ room =>
    refine becomes_modify rfl (fun sub is => ?_) is
    cases is'.symm.trans is
    exact .sent found wanted room
  | dropped found is' wanted done =>
    refine becomes_modify rfl (fun sub is => ?_) is
    cases is'.symm.trans is
    exact .dropped done
  | caught found is' seen _ room =>
    refine becomes_modify rfl (fun sub is => ?_) is
    cases is'.symm.trans is
    exact .caught found seen room
  | read is' some =>
    refine becomes_modify rfl (fun sub is => ?_) is
    cases is'.symm.trans is
    exact .read rfl some
  | endContext => exact becomes_modify rfl (fun _ _ => .endContext rfl) is

/-- A subscriber after a step was there before, or it is a new one that passed the checks. -/
theorem Effect.origin (effect : Effect s i s') {sub'} (is : s'.subscribers[h]? = some sub') :
    (∃ sub, s.subscribers[h]? = some sub ∧ Becomes s i h sub sub') ∨
      (h = s.subscribers.length ∧ ∃ filter webID minPrivacyLevel,
        checkSubscribe s.config filter webID minPrivacyLevel = .ok () ∧
          sub' = newSubscriber filter webID minPrivacyLevel) := by
  by_cases within : h < s.subscribers.length
  · obtain ⟨_, is'', becomes⟩ := effect.becomes (List.getElem?_eq_getElem within)
    cases is.symm.trans is''
    exact .inl ⟨_, List.getElem?_eq_getElem within, becomes⟩
  · have before : s.subscribers[h]? = none := List.getElem?_eq_none (Nat.le_of_not_lt within)
    cases effect with
    | same | added | pruned | started | ended | skipped | caughtUp | given => cases before.symm.trans is
    | @subscribed _ filter webID minPrivacyLevel _ _ checked =>
      have bounded : h - s.subscribers.length < 1 := by
        have bound := (getElem?_eq_some_iff.mp is).1
        rw [List.length_append] at bound
        simp only [List.length_singleton] at bound
        omega
      rw [List.getElem?_append_right (Nat.le_of_not_lt within)] at is
      have first : h - s.subscribers.length = 0 := by omega
      rw [first] at is
      cases is
      exact .inr ⟨by omega, filter, webID, minPrivacyLevel, checked, rfl⟩
    | shut _ _ _ result =>
      rw [getElem?_shutAll result, before] at is
      cases is
    | sent | dropped | caught | read | endContext => simp [List.getElem?_modify, before] at is

end EventStreamLayer

end Runtime
