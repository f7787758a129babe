import SolidSidecar.Runtime.EventStreamChannels

/-!
# What a slow subscriber can hold up

A delivery waits for room on a channel while it holds the read lock, and `AddEvent`, `Unsubscribe` and `Close` wait
for the lock. When a subscriber does not read any more, the deliveries that hold the lock can still put on its
channel as much as there is room for. So the lock comes free without that subscriber if what they owe it fits, or
if its context is done, and never otherwise.
-/

namespace Runtime
open Go List EventStreamLayer StreamSubscriber Run

namespace EventStreamLayer

open GoMap

/-- How often a delivery that holds the lock will put its event on a subscriber's channel. -/
def need (x : Nat) (sub : StreamSubscriber) (d : Delivery) : Nat :=
  match d.left with
  | none => 0
  | some left => if sub.wants d.event then left.count x else 0

/-- What the deliveries that hold the lock will put on a subscriber's channel. -/
def owing (s : EventStreamLayer) (x : Nat) (sub : StreamSubscriber) : Nat := s.deliveries.total (need x sub)

def room (s : EventStreamLayer) (sub : StreamSubscriber) : Nat := s.config.bufferSize - sub.waiting

/-- The deliveries owe a subscriber no more than there is room for, or its context is done. -/
def Safe (s : EventStreamLayer) (x : Nat) : Prop :=
  ∀ sub, s.subscribers[x]? = some sub → sub.contextDone = true ∨ s.owing x sub ≤ s.room sub

/-- A channel holds what was put on it and not taken off, and no more than its capacity. -/
def Bounded (s : EventStreamLayer) : Prop :=
  ∀ (h : Nat) sub, s.subscribers[h]? = some sub → sub.taken ≤ sub.put.length ∧ sub.waiting ≤ s.config.bufferSize

variable {s : EventStreamLayer} {g h x : Nat} {e : StreamEvent} {rest : List Nat} {sub : StreamSubscriber}
  {d : Delivery}

theorem need_eq {sub'} (wants : sub'.wants = sub.wants) (x : Nat) : need x sub' = need x sub := by
  unfold need
  rw [wants]

theorem owing_leave (found : s.deliveries.lookup g = some d)
    (e : StreamEvent) (left : List Nat) (x : Nat) (sub : StreamSubscriber) :
    (s.leave g e left).owing x sub + need x sub d = s.owing x sub + need x sub ⟨e, some left⟩ :=
  total_insert (need x sub) found ⟨e, some left⟩

/-- Past a subscriber, what is owed to it is one less; what is owed to others is the same. -/
theorem owing_next {rest}
    (found : s.deliveries.lookup g = some ⟨e, some (h :: rest)⟩) (x : Nat) (sub : StreamSubscriber) :
    s.owing x sub = (s.leave g e rest).owing x sub + if sub.wants e = true ∧ h = x then 1 else 0 := by
  have change := owing_leave found e rest x sub
  unfold need at change
  dsimp only at change
  rw [count_cons] at change
  by_cases wanted : sub.wants e = true
  · by_cases here : h = x
    · simp only [wanted, here, and_self, if_true, beq_self_eq_true] at change ⊢
      omega
    · simp only [wanted, here, and_false, if_true, beq_iff_eq] at change ⊢
      omega
  · simp only [wanted, Bool.false_eq_true, false_and, if_false] at change ⊢
    omega

theorem owing_erase (found : s.deliveries.lookup g = some d)
    (done : d.left = none ∨ d.left = some []) (x : Nat) (sub : StreamSubscriber) :
    owing { s with deliveries := s.deliveries.erase g } x sub = s.owing x sub := by
  have nothing : s.deliveries.weightAt (need x sub) g = 0 := by
    rw [weightAt_of_lookup _ found, need]
    rcases done with none | empty
    · simp [none]
    · simp [empty]
  have change := total_erase (need x sub) s.deliveries g
  rw [nothing, zero_add] at change
  exact change.symm

theorem owing_of_unlocked (free : s.unlocked = true) (x : Nat) (sub : StreamSubscriber) : s.owing x sub = 0 := by
  unfold owing total
  rw [sum_eq_zero]
  intro n mem
  obtain ⟨_, stored, rfl⟩ := mem_map.mp mem
  obtain ⟨_, found⟩ := mem_values.mp stored
  unfold need
  rw [left_of_unlocked free found]

theorem safe_iff (is : s.subscribers[x]? = some sub) :
    s.Safe x ↔ sub.contextDone = true ∨ s.owing x sub ≤ s.room sub := by
  unfold Safe
  rw [is]
  simp

/-- Whether a state is safe for a subscriber depends on the subscriber, the capacity and what is owed. -/
theorem safe_iff_of_same {s' : EventStreamLayer} (subscriber : s'.subscribers[x]? = s.subscribers[x]?)
    (config : s'.config = s.config) (owed : ∀ sub, s'.owing x sub = s.owing x sub) : s'.Safe x ↔ s.Safe x := by
  unfold Safe room
  simp [subscriber, config, owed]

theorem getElem?_modify_ne (other : h ≠ x)
    (f : StreamSubscriber → StreamSubscriber) : (s.modify h f).subscribers[x]? = s.subscribers[x]? := by
  rw [modify_subscribers, getElem?_modify]
  cases s.subscribers[x]? with
  | none => rfl
  | some sub => simp [other]

theorem getElem?_modify_self (is : s.subscribers[h]? = some sub) (f : StreamSubscriber → StreamSubscriber) :
    (s.modify h f).subscribers[h]? = some (f sub) := by
  rw [modify_subscribers, getElem?_modify, is]
  simp

theorem waiting_receive (taken : sub.taken ≤ sub.put.length) (e : StreamEvent) :
    (sub.receive e).waiting = sub.waiting + 1 := by
  unfold waiting receive
  rw [length_append, length_singleton]
  dsimp only
  omega

/-- An event that is put on a channel takes one place, whether or not it was owed. -/
theorem safe_received_iff {f} (is : s.subscribers[x]? = some sub)
    (wants : (f sub).wants = sub.wants) (done : (f sub).contextDone = sub.contextDone)
    (waits : (f sub).waiting = sub.waiting + 1) (free : sub.full s.config = false) :
    (s.modify x f).Safe x ↔ sub.contextDone = true ∨ s.owing x sub < s.room sub := by
  have bound : sub.waiting < s.config.bufferSize := by
    unfold full at free
    simpa using free
  have owed : (s.modify x f).owing x (f sub) = s.owing x sub := by
    unfold owing
    rw [modify_deliveries, need_eq wants]
  have left : (s.modify x f).room (f sub) + 1 = s.room sub := by
    have config : (s.modify x f).config = s.config := rfl
    unfold room
    rw [waits, config]
    omega
  rw [safe_iff (getElem?_modify_self is f), done]
  refine or_congr .rfl ?_
  omega

theorem safe_erase (found : s.deliveries.lookup g = some d) (done : d.left = none ∨ d.left = some []) :
    Safe { s with deliveries := s.deliveries.erase g } x ↔ s.Safe x :=
  @safe_iff_of_same s x { s with deliveries := s.deliveries.erase g } rfl rfl (owing_erase found done x)

section Delivering

section

variable (found : s.deliveries.lookup g = some ⟨e, some (h :: rest)⟩)

include found

/-- Past a subscriber that does not want the event nothing changes. -/
theorem safe_skip (unwanted : ∀ sub, s.subscribers[h]? = some sub → sub.wants e = false) :
    (s.leave g e rest).Safe x ↔ s.Safe x := by
  refine forall_congr' fun sub => ?_
  refine imp_congr_right fun is => ?_
  have next := owing_next found x sub
  rw [if_neg] at next
  · rw [next]
    rfl
  · rintro ⟨wanted, rfl⟩
    rw [unwanted sub is] at wanted
    cases wanted

/-- What happens to another subscriber on the way does not matter. -/
theorem safe_other (other : h ≠ x)
    (f : StreamSubscriber → StreamSubscriber) : ((s.leave g e rest).modify h f).Safe x ↔ s.Safe x := by
  refine safe_iff_of_same (getElem?_modify_ne other f) rfl fun sub => ?_
  have next := owing_next found x sub
  rw [if_neg fun here => other here.2] at next
  exact next.symm

/-- An event that is put on the channel takes as much room as it was owed. -/
theorem safe_sent (is : s.subscribers[h]? = some sub)
    (wanted : sub.wants e = true) (taken : sub.taken ≤ sub.put.length) (free : sub.full s.config = false) (now : Time) :
    ((s.leave g e rest).modify h fun sub => sub.receiveAt e now).Safe x ↔ s.Safe x := by
  by_cases other : h ≠ x
  · exact safe_other found other _
  obtain rfl := not_not.mp other
  have next := owing_next found h sub
  rw [if_pos ⟨wanted, rfl⟩] at next
  have is' : (s.leave g e rest).subscribers[h]? = some sub := is
  have same : (s.leave g e rest).room sub = s.room sub := rfl
  rw [safe_iff is, safe_received_iff is' rfl rfl (waiting_receive taken e) free]
  refine or_congr .rfl ?_
  omega

/-- A subscriber whose context has ended is safe before and after. -/
theorem safe_dropped (is : s.subscribers[h]? = some sub) (done : sub.contextDone = true) :
    ((s.leave g e rest).modify h fun sub => { sub with active := false }).Safe x ↔ s.Safe x := by
  by_cases other : h ≠ x
  · exact safe_other found other _
  obtain rfl := not_not.mp other
  have is' : (s.leave g e rest).subscribers[h]? = some sub := is
  exact iff_of_true ((safe_iff (getElem?_modify_self is' _)).mpr (.inl done)) ((safe_iff is).mpr (.inl done))

end

end Delivering

/-- A closed layer has no delivery that holds the lock. -/
def Idle (s : EventStreamLayer) : Prop := s.closed = true → s.unlocked = true

theorem unlocked_iff : s.unlocked = true ↔ ∀ g d, s.deliveries.lookup g = some d → d.left = none := by
  refine ⟨fun free g d found => left_of_unlocked free found, fun none => ?_⟩
  refine all_eq_true.mpr fun d mem => ?_
  obtain ⟨g, found⟩ := mem_values.mp mem
  rw [none g d found]
  rfl

theorem bounded_new (config : EventStreamConfig) : Bounded (new config) := by
  intro h sub is
  cases is

theorem Bounded.becomes (bounded : Bounded s) {i sub'}
    (is : s.subscribers[h]? = some sub) (becomes : Becomes s i h sub sub') :
    sub'.taken ≤ sub'.put.length ∧ sub'.waiting ≤ s.config.bufferSize := by
  obtain ⟨taken, waiting⟩ := bounded h sub is
  have received : sub.full s.config = false → ∀ e, sub.taken ≤ (sub.put ++ [e]).length ∧
      (sub.put ++ [e]).length - sub.taken ≤ s.config.bufferSize := by
    intro free e
    unfold full StreamSubscriber.waiting at free
    rw [decide_eq_false_iff_not] at free
    rw [length_append, length_singleton]
    omega
  cases becomes with
  | same | shut | dropped | endContext => exact ⟨taken, waiting⟩
  | sent _ _ free => exact received free _
  | caught _ _ free => exact received free _
  | read _ some =>
    unfold StreamSubscriber.waiting at some waiting ⊢
    dsimp only
    omega

section Steps

variable [Unicode] {s' : EventStreamLayer} {i : Step}

theorem Effect.config (effect : Effect s i s') : s'.config = s.config := by
  cases effect with
  | _ => rfl

theorem Bounded.step (bounded : Bounded s) (effect : Effect s i s') : Bounded s' := by
  intro h sub is
  rw [effect.config]
  rcases effect.origin is with ⟨_, is', becomes⟩ | ⟨-, -, -, -, -, rfl⟩
  · exact bounded.becomes is' becomes
  · exact ⟨le_refl 0, Nat.zero_le _⟩

theorem Idle.step (idle : Idle s) (effect : Effect s i s') : Idle s' := by
  have held : ∀ {g e left}, s.deliveries.lookup g = some ⟨e, some left⟩ → s.closed = true → False := by
    intro g e left found closed
    cases left_of_unlocked (idle closed) found
  intro closed
  cases effect with
  | same | pruned | subscribed | caughtUp | given | caught | read | endContext => exact idle closed
  | added _ opened =>
    rw [opened] at closed
    cases closed
  | shut free => exact free
  | started _ opened =>
    have closed : s.closed = true := closed
    rw [opened] at closed
    cases closed
  | ended found =>
    exact unlocked_iff.mpr fun g d found => left_of_unlocked (idle closed) (erase_sub _ _ g d found)
  | skipped found | sent found | dropped found => exact absurd closed (held found)

/-- What is known of every state that can be reached. -/
structure Reached (s : EventStreamLayer) : Prop where
  sound : Sound s
  bounded : Bounded s
  idle : Idle s

theorem Reached.step (reached : Reached s) (i : Step) : Reached (s.step i).1 where
  sound := reached.sound.step (step_effect s i)
  bounded := reached.bounded.step (step_effect s i)
  idle := reached.idle.step (step_effect s i)

theorem reached_exec (config : EventStreamConfig) (inputs : List Step) : Reached (exec step (new config) inputs) :=
  exec_inv (fun _ i reached => reached.step i) ⟨sound_new config, bounded_new config, fun _ => rfl⟩ inputs

end Steps

/-- The steps of a subscriber: it reads, or its context is done. -/
def Step.isOf (x : Nat) : Step → Bool
  | .read h => h = x
  | .endContext h => h = x
  | _ => false

/-- What a delivery that holds the lock still has to do. -/
def remaining (d : Delivery) : Nat :=
  match d.left with
  | none => 0
  | some left => left.length + 1

def work (s : EventStreamLayer) : Nat := s.deliveries.total remaining

theorem work_leave {rest}
    (found : s.deliveries.lookup g = some ⟨e, some (h :: rest)⟩) : (s.leave g e rest).work < s.work := by
  have change := total_insert remaining found ⟨e, some rest⟩
  simp only [remaining, length_cons] at change
  unfold work leave
  dsimp only
  omega

theorem work_erase (found : s.deliveries.lookup g = some ⟨e, some []⟩) :
    work { s with deliveries := s.deliveries.erase g } < s.work := by
  have change := total_erase remaining s.deliveries g
  have old : s.deliveries.weightAt remaining g = 1 := weightAt_of_lookup remaining found
  unfold work
  dsimp only
  omega

section Release

variable [Unicode]

/-- One more step of a delivery, after a step of another subscriber if need be. -/
def Advances (s : EventStreamLayer) (x : Nat) : Prop :=
  ∃ inputs, (∀ i ∈ inputs, i.isOf x = false) ∧ (Run.exec EventStreamLayer.step s inputs).work < s.work ∧
    (Run.exec EventStreamLayer.step s inputs).Safe x

theorem advances_of_deliver {branch s' o}
    (is : s.deliver g .zero branch = (s', o)) (less : s'.work < s.work) (safe : s'.Safe x) : Advances s x := by
  refine ⟨[.deliver g .zero branch], by simp [Step.isOf], ?_⟩
  simp only [exec_cons, step, is]
  exact ⟨less, safe⟩

theorem advances_end (found : s.deliveries.lookup g = some ⟨e, some []⟩) (safe : s.Safe x) : Advances s x :=
  advances_of_deliver (deliver_end found .zero .send) (work_erase found) ((safe_erase found (.inr rfl)).mpr safe)

section

variable (safe : s.Safe x) (found : s.deliveries.lookup g = some ⟨e, some (h :: rest)⟩)

include safe found

theorem advances_skip (unwanted : ∀ sub, s.subscribers[h]? = some sub → sub.wants e = false) : Advances s x :=
  advances_of_deliver (deliver_skip found unwanted .zero .send) (work_leave found) ((safe_skip found unwanted).mpr safe)

variable (is : s.subscribers[h]? = some sub) (wanted : sub.wants e = true)

include is wanted

theorem advances_drop (done : sub.contextDone = true) : Advances s x :=
  advances_of_deliver (deliver_drop found is wanted done .zero) (work_leave found)
    ((safe_dropped found is done).mpr safe)

/-- There is room, and the event is put on the channel. -/
theorem advances_send (reached : Reached s) (free : sub.full s.config = false) : Advances s x := by
  obtain ⟨id, current⟩ := reached.sound.listed g e _ found h mem_cons_self
  obtain ⟨_, is', opened⟩ := reached.sound.current id h current
  cases is.symm.trans is'
  exact advances_of_deliver (deliver_send found is wanted opened free .zero) (work_leave found)
    ((safe_sent found is wanted (reached.bounded h sub is).1 free .zero).mpr safe)

/-- A full channel of another subscriber is read from first. -/
theorem advances_read (reached : Reached s) (full : sub.full s.config = true) (other : h ≠ x) : Advances s x := by
  have bound := reached.bounded h sub is
  have many : s.config.bufferSize ≤ sub.waiting := of_decide_eq_true full
  have positive := s.config.bufferSize_pos
  have some : sub.waiting ≠ 0 := by omega
  have next : (step s (.read h)).1 = s.modify h fun sub => { sub with taken := sub.taken + 1 } := by
    simp only [step]
    rw [read_eq is some]
  have reached' : Reached (s.modify h fun sub => { sub with taken := sub.taken + 1 }) := next ▸ reached.step (.read h)
  have free : StreamSubscriber.full { sub with taken := sub.taken + 1 } s.config = false := by
    unfold StreamSubscriber.full
    rw [decide_eq_false_iff_not]
    unfold waiting at bound some ⊢
    dsimp only
    omega
  have safe' : (s.modify h fun sub => { sub with taken := sub.taken + 1 }).Safe x :=
    (safe_iff_of_same (getElem?_modify_ne other _) rfl fun _ => rfl).mpr safe
  obtain ⟨inputs, apart, less, safe⟩ :=
    advances_send safe' found (getElem?_modify_self is _) wanted reached' free
  refine ⟨.read h :: inputs, ?_, ?_⟩
  · intro i mem
    rcases mem_cons.mp mem with rfl | mem
    · exact decide_eq_false other
    · exact apart i mem
  · rw [exec_cons, next]
    exact ⟨less, safe⟩

end

theorem advances (reached : Reached s) (safe : s.Safe x) (locked : ¬s.unlocked = true) : Advances s x := by
  rw [unlocked_iff] at locked
  push Not at locked
  obtain ⟨_, ⟨e, left⟩, found, held⟩ := locked
  obtain ⟨left, rfl⟩ := Option.ne_none_iff_exists'.mp held
  cases left with
  | nil => exact advances_end found safe
  | cons h rest =>
    cases is : s.subscribers[h]? with
    | none =>
      refine advances_skip safe found fun sub is' => ?_
      rw [is] at is'
      cases is'
    | some sub =>
      by_cases wanted : sub.wants e = true
      · by_cases done : sub.contextDone = true
        · exact advances_drop safe found is wanted done
        · by_cases full : sub.full s.config = true
          · by_cases here : h = x
            · -- what is owed is at least this event, and there is no room
              subst here
              have owed := ((safe_iff is).mp safe).resolve_left done
              have next := owing_next found h sub
              rw [if_pos ⟨wanted, rfl⟩] at next
              have many : s.config.bufferSize ≤ sub.waiting := of_decide_eq_true full
              unfold room at owed
              omega
            · exact advances_read safe found is wanted reached full here
          · exact advances_send safe found is wanted reached (Bool.eq_false_of_not_eq_true full)
      · refine advances_skip safe found fun sub' is' => ?_
        cases is.symm.trans is'
        exact Bool.eq_false_of_not_eq_true wanted

/-- From a safe state the lock comes free without the subscriber. -/
theorem released_of_safe (reached : Reached s) (safe : s.Safe x) :
    ∃ inputs, (∀ i ∈ inputs, i.isOf x = false) ∧ (exec step s inputs).unlocked = true := by
  -- by induction on the work that is left
  induction n : s.work using Nat.strong_induction_on generalizing s with
  | h n ih =>
    by_cases free : s.unlocked = true
    · exact ⟨[], fun _ mem => absurd mem not_mem_nil, free⟩
    · obtain ⟨inputs, apart, less, safe'⟩ := advances reached safe free
      have reached' : Reached _ :=
        exec_inv (fun _ i reached => reached.step i) reached inputs
      obtain ⟨inputs', apart', free'⟩ := ih _ (n ▸ less) reached' safe' rfl
      refine ⟨inputs ++ inputs', fun i mem => ?_, ?_⟩
      · exact (mem_append.mp mem).elim (apart i) (apart' i)
      · rw [exec_append]
        exact free'

end Release

theorem safe_of_unlocked (free : s.unlocked = true) (x : Nat) : s.Safe x := by
  intro sub _
  rw [owing_of_unlocked free]
  exact .inr (Nat.zero_le _)

/-- A further delivery takes the lock: no less is owed. -/
theorem safe_of_started {left}
    (found : s.deliveries.lookup g = some ⟨e, none⟩) (safe : (s.leave g e left).Safe x) : s.Safe x := by
  intro sub is
  refine (safe sub is).imp_right fun owed => ?_
  have change := owing_leave found e left x sub
  have nothing : need x sub ⟨e, none⟩ = 0 := rfl
  have same : (s.leave g e left).room sub = s.room sub := rfl
  omega

section Stuck

variable [Unicode] {s' : EventStreamLayer} {i : Step}

/-- Without its own steps a subscriber does not become safe. -/
theorem Effect.safe_before (effect : Effect s i s') (bounded : Bounded s) (opened : s.closed = false)
    (apart : i.isOf x = false) (safe : s'.Safe x) : s.Safe x := by
  cases effect with
  | same | pruned | caughtUp | given => exact safe
  | added free | subscribed free | shut free => exact safe_of_unlocked free x
  | started found => exact safe_of_started found safe
  | ended found done =>
    rcases done with none | empty | closed
    · exact (safe_erase found (.inl none)).mp safe
    · exact (safe_erase found (.inr empty)).mp safe
    · rw [opened] at closed
      cases closed
  | skipped found unwanted => exact (safe_skip found unwanted).mp safe
  | @sent _ now _ h _ sub found is wanted _ room =>
    exact (safe_sent found is wanted (bounded h sub is).1 room now).mp safe
  | dropped found is _ done => exact (safe_dropped found is done).mp safe
  | @caught _ _ h _ _ _ is _ _ room =>
    by_cases here : h = x
    · subst here
      have owed := (safe_received_iff is rfl rfl (waiting_receive (bounded h _ is).1 _) room).mp safe
      exact (safe_iff is).mpr (owed.imp_right le_of_lt)
    · exact (safe_iff_of_same (getElem?_modify_ne here _) rfl fun _ => rfl).mp safe
  | read | endContext =>
    exact (safe_iff_of_same (getElem?_modify_ne (of_decide_eq_false apart) _) rfl fun _ => rfl).mp safe

theorem Effect.still_opened (effect : Effect s i s') (opened : s.closed = false) (blocked : ¬s.Safe x) :
    s'.closed = false := by
  cases effect with
  | shut free => exact absurd (safe_of_unlocked free x) blocked
  | _ => exact opened

/-- From a state that is not safe the lock does not come free without the subscriber. -/
theorem not_released (reached : Reached s) (opened : s.closed = false) (blocked : ¬s.Safe x) (inputs : List Step)
    (apart : ∀ i ∈ inputs, i.isOf x = false) : ¬(exec step s inputs).unlocked = true := by
  induction inputs generalizing s with
  | nil => exact fun free => blocked (safe_of_unlocked free x)
  | cons i rest ih =>
    have effect := step_effect s i
    refine ih (reached.step i) (effect.still_opened opened blocked) (fun safe => blocked ?_)
      fun j mem => apart j (mem_cons_of_mem i mem)
    exact effect.safe_before reached.bounded opened (apart i mem_cons_self) safe

end Stuck

section Requests

variable [Unicode]

/-- The requests that wait for the lock: `AddEvent` of an event that passes its checks, `Unsubscribe` and
`Close`. -/
def Step.Waits (config : EventStreamConfig) : Step → Prop
  | .addEvent c event => checkEvent config c event = .ok ()
  | .unsubscribe _ => True
  | .close _ => True
  | _ => False

/-- A request that waits is taken in some continuation without steps of a subscriber. -/
def Completes (s : EventStreamLayer) (x : Nat) (request : Step) : Prop :=
  ∃ inputs, (∀ i ∈ inputs, i.isOf x = false) ∧
    (EventStreamLayer.step (Run.exec EventStreamLayer.step s inputs) request).2 = .taken

theorem config_exec (s : EventStreamLayer) (inputs : List Step) : (exec step s inputs).config = s.config :=
  @exec_inv _ _ _ step s (fun t => t.config = s.config)
    (fun t i same => (step_effect t i).config.trans same) rfl inputs

omit [Unicode] in
theorem shutting_taken_iff (sound : Sound s) {i : Step} :
    (s.shutting (s.shutdown i)).2 = .taken ↔ s.unlocked = true := by
  constructor
  · intro taken
    unfold shutting locked at taken
    split_ifs at taken with free <;> exact free
  · intro free
    have fine := @shutting_ne_panics s i sound
    unfold shutting locked at fine ⊢
    rw [if_pos free] at fine ⊢
    split_ifs at fine ⊢
    · rfl
    · split
      · rfl
      · rename_i d closes
        rw [closes] at fine
        dsimp only at fine
        split
        · rename_i none
          rw [none] at fine
          exact absurd rfl fine
        · rfl

/-- A request is taken when and only when the lock is free. -/
theorem taken_iff (reached : Reached s) {request} (waits : request.Waits s.config) :
    (step s request).2 = .taken ↔ s.unlocked = true := by
  cases request with
  | addEvent c event =>
    have checked : checkEvent s.config c event = .ok () := waits
    simp only [step, addEvent, checked, locked]
    split_ifs with free
    · exact iff_of_true rfl free
    · exact iff_of_true rfl free
    · exact iff_of_false id free
  | unsubscribe id => exact @shutting_taken_iff s reached.sound (.unsubscribe id)
  | close order => exact @shutting_taken_iff s reached.sound (.close order)
  | _ => exact absurd waits id

theorem completes_iff (reached : Reached s) (x : Nat) {request}
    (waits : request.Waits s.config) : s.Completes x request ↔ s.Safe x := by
  have taken : ∀ inputs, (step (exec step s inputs) request).2 = .taken ↔ (exec step s inputs).unlocked = true := by
    intro inputs
    refine taken_iff (exec_inv (fun _ i reached => reached.step i) reached inputs) ?_
    rw [config_exec]
    exact waits
  unfold Completes
  simp only [taken]
  constructor
  · rintro ⟨inputs, apart, free⟩
    by_contra blocked
    cases closed : s.closed with
    | true => exact blocked (safe_of_unlocked (reached.idle closed) x)
    | false => exact not_released reached closed blocked inputs apart free
  · exact released_of_safe reached

end Requests

/-- A step can be afforded: the subscribers that a delivery is for, and the one that a catch-up sends to, have
room for one more event than they are owed, or their contexts are done. -/
def Affords (s : EventStreamLayer) : Step → Prop
  | .startDelivery g _ => ∀ e, s.deliveries.lookup g = some ⟨e, none⟩ → s.closed = false →
      ∀ id x sub, s.streamSubscribers.lookup id = some x → s.subscribers[x]? = some sub → sub.wants e = true →
        sub.contextDone = true ∨ s.owing x sub < s.room sub
  | .catchup g .send => ∀ h e rest sub, s.catchups.lookup g = some ⟨h, some (e :: rest)⟩ →
      s.subscribers[h]? = some sub → sub.sees e = true → sub.channelClosed = false → sub.full s.config = false →
        sub.contextDone = true ∨ s.owing h sub < s.room sub
  | _ => True

/-- What a new delivery needs of a current subscriber. -/
theorem need_visit (sound : Sound s) (order : RangeOrder Nat) (e : StreamEvent) (x : Nat) (sub : StreamSubscriber) :
    need x sub ⟨e, some (order.visit s.streamSubscribers.values)⟩ =
      if sub.wants e = true ∧ x ∈ s.streamSubscribers.values then 1 else 0 := by
  have once : (order.visit s.streamSubscribers.values).Nodup := by
    rw [(order.perm _).nodup_iff]
    exact values_nodup.mpr sound.distinct
  have mem : x ∈ order.visit s.streamSubscribers.values ↔ x ∈ s.streamSubscribers.values := order.mem_visit
  unfold need
  dsimp only
  by_cases wanted : sub.wants e = true
  · by_cases current : x ∈ s.streamSubscribers.values
    · rw [if_pos wanted, if_pos ⟨wanted, current⟩, count_eq_one_of_mem once (mem.mpr current)]
    · rw [if_pos wanted, if_neg fun both => current both.2, count_eq_zero.mpr fun here => current (mem.mp here)]
  · rw [if_neg wanted, if_neg fun both => wanted both.1]

theorem safe_started_iff (sound : Sound s) (safe : ∀ x, s.Safe x)
    (found : s.deliveries.lookup g = some ⟨e, none⟩) (order : RangeOrder Nat) :
    (∀ x, (s.leave g e (order.visit s.streamSubscribers.values)).Safe x) ↔
      ∀ id x sub, s.streamSubscribers.lookup id = some x → s.subscribers[x]? = some sub → sub.wants e = true →
        sub.contextDone = true ∨ s.owing x sub < s.room sub := by
  have change := fun x sub => owing_leave found e (order.visit s.streamSubscribers.values) x sub
  have nothing : ∀ x sub, need x sub ⟨e, none⟩ = 0 := fun _ _ => rfl
  simp only [nothing, need_visit sound] at change
  constructor
  · intro safe' id x sub current is wanted
    refine (safe' x sub is).imp_right fun owed => ?_
    have change := change x sub
    rw [if_pos ⟨wanted, mem_values.mpr ⟨id, current⟩⟩] at change
    have same : (s.leave g e (order.visit s.streamSubscribers.values)).room sub = s.room sub := rfl
    omega
  · intro afforded x sub is
    have same : (s.leave g e (order.visit s.streamSubscribers.values)).room sub = s.room sub := rfl
    have change := change x sub
    by_cases current : sub.wants e = true ∧ x ∈ s.streamSubscribers.values
    · rw [if_pos current] at change
      obtain ⟨id, found⟩ := mem_values.mp current.2
      exact (afforded id x sub found is current.1).imp_right fun owed => by omega
    · rw [if_neg current] at change
      exact (safe x sub is).imp_right fun owed => by omega

section Runs

variable [Unicode] {s' : EventStreamLayer} {i : Step}

theorem Effect.safe_after (effect : Effect s i s') (reached : Reached s) (affords : Affords s i)
    (safe : ∀ x, s.Safe x) (x : Nat) : s'.Safe x := by
  cases effect with
  | same | pruned | caughtUp | given => exact safe x
  | @added c event free =>
    refine safe_of_unlocked (unlocked_iff.mpr fun g d found => ?_) x
    rw [lookup_insert_eq] at found
    split_ifs at found
    · cases found
      rfl
    · exact left_of_unlocked free found
  | subscribed free | shut free =>
    refine safe_of_unlocked ?_ x
    exact free
  | started found opened => exact (safe_started_iff reached.sound safe found _).mpr (affords _ found opened) x
  | @ended _ g _ found done =>
    intro sub is
    refine (safe x sub is).imp_right fun owed => ?_
    have fewer := total_erase (need x sub) s.deliveries g
    have same : room { s with deliveries := s.deliveries.erase g } sub = s.room sub := rfl
    unfold owing at owed ⊢
    dsimp only
    omega
  | skipped found unwanted => exact (safe_skip found unwanted).mpr (safe x)
  | @sent _ now _ h _ sub found is wanted _ room =>
    exact (safe_sent found is wanted (reached.bounded h sub is).1 room now).mpr (safe x)
  | dropped found is _ done => exact (safe_dropped found is done).mpr (safe x)
  | @caught _ _ h _ sub found is seen opened room =>
    by_cases here : h = x
    · subst here
      refine (safe_received_iff is rfl rfl (waiting_receive (reached.bounded h sub is).1 _) room).mpr ?_
      exact affords h _ _ sub found is seen opened room
    · exact (safe_iff_of_same (getElem?_modify_ne here _) rfl fun _ => rfl).mpr (safe x)
  | @read h sub is =>
    by_cases here : h = x
    · subst here
      refine (safe_iff (getElem?_modify_self is _)).mpr (((safe_iff is).mp (safe h)).imp_right fun owed => ?_)
      have more : s.room sub ≤ s.room { sub with taken := sub.taken + 1 } := by
        unfold room waiting
        dsimp only
        omega
      exact le_trans owed more
    · exact (safe_iff_of_same (getElem?_modify_ne here _) rfl fun _ => rfl).mpr (safe x)
  | endContext h =>
    by_cases here : h = x
    · subst here
      intro sub is
      rw [modify_subscribers, getElem?_modify] at is
      obtain ⟨_, -, rfl⟩ := Option.map_eq_some_iff.mp is
      exact .inl (by simp)
    · exact (safe_iff_of_same (getElem?_modify_ne here _) rfl fun _ => rfl).mpr (safe x)

/-- The next state is safe for every subscriber when and only when the step can be afforded. -/
theorem safe_step_iff (reached : Reached s) (safe : ∀ x, s.Safe x) : (∀ x, (step s i).1.Safe x) ↔ Affords s i := by
  refine ⟨fun safe' => ?_, fun affords x => (step_effect s i).safe_after reached affords safe x⟩
  cases i with
  | startDelivery g order =>
    intro e found opened
    simp only [step] at safe'
    rw [startDelivery_eq found opened] at safe'
    exact (safe_started_iff reached.sound safe found order).mp safe'
  | catchup g branch =>
    cases branch with
    | send =>
      intro h e rest sub found is seen opened free
      simp only [step] at safe'
      rw [catchup_eq found is seen opened free] at safe'
      exact (safe_received_iff is rfl rfl (waiting_receive (reached.bounded h sub is).1 e) free).mp (safe' h)
    | contextDone | closeChan => trivial
  | _ => trivial

/-- In every state of a run every request completes without any one subscriber, when and only when each step of the
run can be afforded. -/
theorem completes_iff_affords (config : EventStreamConfig) (inputs : List Step) :
    (∀ before after, inputs = before ++ after → ∀ x request, request.Waits config →
      (Run.exec step (new config) before).Completes x request) ↔
    ∀ before i after, inputs = before ++ i :: after → Affords (Run.exec step (new config) before) i := by
  have complete : ∀ before, (∀ x request, request.Waits config →
      (exec step (new config) before).Completes x request) ↔
      ∀ x, (exec step (new config) before).Safe x := by
    intro before
    have same : (exec step (new config) before).config = config := config_exec _ before
    constructor
    · intro completes x
      have closes : (Step.close default).Waits (exec step (new config) before).config := trivial
      exact (completes_iff (reached_exec config before) x closes).mp (completes x _ trivial)
    · intro safe x request waits
      refine (completes_iff (reached_exec config before) x ?_).mpr (safe x)
      rw [same]
      exact waits
  simp only [complete]
  constructor
  · intro safe before i after split
    have next := safe (before ++ [i]) after (by rw [split]; simp)
    rw [exec_snoc] at next
    exact (safe_step_iff (reached_exec config before) (safe before _ split)).mp next
  · intro affords
    refine @run_inv _ _ _ step (new config) (fun s => ∀ x, s.Safe x) inputs
      (fun x => safe_of_unlocked rfl x) fun before i after split safe => ?_
    exact (safe_step_iff (reached_exec config before) safe).mpr (affords before i after split)

end Runs

attribute [local instance] Unicode.ascii

def smallConfig : EventStreamConfig := { defaultEventStreamConfig with maxSubscriberBufferSize := 1 }

/-- Two events are added, and their deliveries come to a subscriber that does not read. -/
def unread : List Step :=
  [.subscribe "s" (levelFilter [] []) [] privacyLevelMetadata,
    .addEvent probeContext (probe privacyLevelPublic), .addEvent probeContext (probe privacyLevelPublic),
    .startDelivery 1 default, .deliver 1 ⟨1⟩ .send, .deliver 1 ⟨1⟩ .send, .startDelivery 2 default]

theorem not_safe_unread : ¬(exec step (new smallConfig) unread).Safe 0 := by
  have full : (exec step (new smallConfig) unread).subscribers[0]?.map (fun sub =>
      (sub.contextDone, (exec step (new smallConfig) unread).room sub,
        (exec step (new smallConfig) unread).owing 0 sub)) = some (false, 0, 1) := by
    decide +kernel
  obtain ⟨sub, is, values⟩ := Option.map_eq_some_iff.mp full
  simp only [Prod.mk.injEq] at values
  obtain ⟨running, none, owed⟩ := values
  rw [safe_iff is, running, none, owed]
  decide

/-- After that no continuation without the subscriber lets its `Unsubscribe`, a `Close` or an `AddEvent` complete. -/
theorem unread_blocks :
    ¬(Run.exec EventStreamLayer.step (new smallConfig) unread).Completes 0 (.unsubscribe (str "s")) ∧
    ¬(Run.exec step (new smallConfig) unread).Completes 0 (.close default) ∧
    ¬(Run.exec step (new smallConfig) unread).Completes 0 (.addEvent probeContext (probe privacyLevelPublic)) := by
  have blocked : ∀ {request}, request.Waits smallConfig →
      ¬(exec step (new smallConfig) unread).Completes 0 request := by
    intro request waits
    rw [completes_iff (reached_exec smallConfig unread) 0 waits]
    exact not_safe_unread
  exact ⟨blocked trivial, blocked trivial, blocked (checkEvent_probe (by decide))⟩

end EventStreamLayer

end Runtime
