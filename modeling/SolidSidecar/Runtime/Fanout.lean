import SolidSidecar.Go.Float
import SolidSidecar.Run.Machine
import SolidSidecar.Runtime.Subscriptions

/-!
# The fan-out worker pool

`fanout_worker.go`: events are submitted to the pool's distribution channel; every worker takes events from
a channel of its own. Taking one event, one round of the distribution loop and one call of a client are
steps of a machine, and a run is any interleaving of them. `processed` records what the workers have taken.

No step takes an event from the distribution channel. So an accepted event is never processed, and the pool
comes to refuse every event (`not_delivers`).
-/

namespace Runtime
open Go List Run

structure FanoutEvent where
  event : StreamEvent
  subscribers : List Subscription
  deliveryAttempts : Int
  lastAttemptTime : Time
  nextAttemptTime : Time

structure FanoutWorkerPoolConfig where
  numWorkers : Nat
  queueSize : Nat
  backpressureThreshold : ℚ
  maxRetries : Int
  retryDelay : Int
  enableMetrics : Bool

def defaultFanoutWorkerPoolConfig : FanoutWorkerPoolConfig where
  numWorkers := 10
  queueSize := 1000
  backpressureThreshold := float64 (4 / 5)
  maxRetries := 3
  retryDelay := second
  enableMetrics := true

structure FanoutWorker where
  eventChannel : List FanoutEvent
  active : Bool

structure FanoutWorkerPool where
  config : FanoutWorkerPoolConfig
  workers : List FanoutWorker
  distributionChannel : List FanoutEvent
  started : Bool
  closed : Bool
  processed : List FanoutEvent

inductive FanoutError where
  | workerPoolClosed
  | notStarted
  | queueFull
  deriving DecidableEq, Repr

namespace FanoutWorkerPool

variable (p : FanoutWorkerPool) (config : FanoutWorkerPoolConfig)

def new : FanoutWorkerPool where
  config := config
  workers := List.replicate config.numWorkers ⟨[], false⟩
  distributionChannel := []
  started := false
  closed := false
  processed := []

def capacity : Nat := p.config.queueSize * p.config.numWorkers

def start : FanoutWorkerPool × Except FanoutError Unit :=
  if p.started then (p, .ok ())
  else if p.closed then (p, .error .workerPoolClosed)
  else ({ p with workers := p.workers.map ({ · with active := true }), started := true }, .ok ())

def isPoolUnderBackpressure : Bool :=
  decide (float64 (float64 p.capacity * p.config.backpressureThreshold) ≤ float64 p.distributionChannel.length)

def submitEvent (e : FanoutEvent) : FanoutWorkerPool × Except FanoutError Unit :=
  if p.closed then (p, .error .workerPoolClosed)
  else if p.started = false then (p, .error .notStarted)
  else if p.config.enableMetrics && p.isPoolUnderBackpressure then (p, .error .queueFull)
  else if p.distributionChannel.length < p.capacity then
    ({ p with distributionChannel := p.distributionChannel ++ [e] }, .ok ())
  else (p, .error .queueFull)

def distributionRound : FanoutWorkerPool := p

/-- `requeueWithDelay`: the event goes to the end of the worker's own channel if there is room. -/
def requeueWithDelay (now : Time) (channel : List FanoutEvent) (e : FanoutEvent) : List FanoutEvent :=
  if config.maxRetries < e.deliveryAttempts + 1 then channel
  else if channel.length < config.queueSize then
    channel ++ [{ e with
      deliveryAttempts := e.deliveryAttempts + 1
      nextAttemptTime := now.add config.retryDelay
      lastAttemptTime := now }]
  else channel

/-- The channel of a worker after `processFanoutEvent`: an event that is not due is queued again. -/
def processFanoutEvent (now : Time) (channel : List FanoutEvent) (e : FanoutEvent) : List FanoutEvent :=
  if 0 < e.deliveryAttempts ∧ now.before e.nextAttemptTime = true then requeueWithDelay config now channel e
  else channel

/-- One round of `workerLoop` of a worker that is running: it takes an event from its channel. -/
def workerRound (worker : Nat) (now : Time) : FanoutWorkerPool :=
  match p.workers[worker]? with
  | some ⟨e :: rest, true⟩ =>
    { p with
      workers := p.workers.set worker ⟨processFanoutEvent p.config now rest e, true⟩
      processed := p.processed ++ [e] }
  | _ => p

def stop : FanoutWorkerPool :=
  if p.closed then p
  else { p with workers := p.workers.map ({ · with active := false }), started := false, closed := true }

inductive Step where
  | start
  | submit (e : FanoutEvent)
  | stop
  | distribute
  | work (worker : Nat) (now : Time)

def Step.internal : Step → Bool
  | .distribute => true
  | .work _ _ => true
  | _ => false

def step : Step → FanoutWorkerPool × Except FanoutError Unit
  | .start => p.start
  | .submit e => p.submitEvent e
  | .stop => (p.stop, .ok ())
  | .distribute => (p.distributionRound, .ok ())
  | .work worker now => (p.workerRound worker now, .ok ())

/-- Every event that the pool accepts after some run can be brought to a worker by the pool's own steps. -/
def Progress : Prop :=
  ∀ before e, (submitEvent (Run.exec step (new config) before) e).2 = .ok () →
    ∃ rounds : List Step, (∀ r ∈ rounds, r.internal = true) ∧
      e ∈ (Run.exec step (new config) (before ++ .submit e :: rounds)).processed

def Idle : Prop := ∀ w ∈ p.workers, w.eventChannel = []

def Stuck : Prop :=
  ∀ (steps : List Step) (e : FanoutEvent), (submitEvent (Run.exec step p steps) e).2 ≠ .ok ()

/-- No running pool with idle workers refuses everything from then on. -/
def NeverStuck : Prop :=
  ∀ before, (Run.exec step (new config) before).started = true → (Run.exec step (new config) before).Idle →
    ¬ (Run.exec step (new config) before).Stuck

section Steps

variable {p : FanoutWorkerPool}

/-- Nothing was processed and nothing is queued at a worker. -/
def Untouched (p : FanoutWorkerPool) : Prop := p.processed = [] ∧ p.Idle

theorem Untouched.step (untouched : p.Untouched) (s : Step) : (p.step s).1.Untouched := by
  obtain ⟨none, idle⟩ := untouched
  cases s with
  | start =>
    simp only [FanoutWorkerPool.step, start]
    split_ifs
    · exact ⟨none, idle⟩
    · exact ⟨none, idle⟩
    · refine ⟨none, fun w mem => ?_⟩
      obtain ⟨w', mem', rfl⟩ := mem_map.mp mem
      exact idle w' mem'
  | submit e =>
    simp only [FanoutWorkerPool.step, submitEvent]
    split_ifs <;> exact ⟨none, idle⟩
  | stop =>
    simp only [FanoutWorkerPool.step, stop]
    split_ifs
    · exact ⟨none, idle⟩
    · refine ⟨none, fun w mem => ?_⟩
      obtain ⟨w', mem', rfl⟩ := mem_map.mp mem
      exact idle w' mem'
  | distribute => exact ⟨none, idle⟩
  | work worker now =>
    simp only [FanoutWorkerPool.step, workerRound]
    split
    · -- a worker with an event to take
      rename_i e _ found
      have empty := idle _ (mem_of_getElem? found)
      cases empty
    · exact ⟨none, idle⟩

theorem untouched_exec (steps : List Step) : (exec step (new config) steps).Untouched := by
  have start : (new config).Untouched := ⟨rfl, fun w mem => by rw [(mem_replicate.mp mem).2]⟩
  exact @exec_inv _ _ _ step (new config) Untouched (fun _ s untouched => .step untouched s) start steps

def accepts (p : FanoutWorkerPool) : Bool :=
  !p.closed && p.started && !(p.config.enableMetrics && p.isPoolUnderBackpressure) &&
  decide (p.distributionChannel.length < p.capacity)

theorem submitEvent_eq (e : FanoutEvent) : (p.accepts = true ∧
      p.submitEvent e = ({ p with distributionChannel := p.distributionChannel ++ [e] }, .ok ())) ∨
    (p.accepts = false ∧ ∃ err, p.submitEvent e = (p, .error err)) := by
  unfold accepts submitEvent
  split_ifs with closed started pressure room
  · exact .inr ⟨by simp [closed], _, rfl⟩
  · exact .inr ⟨by simp [started], _, rfl⟩
  · exact .inr ⟨by simp [pressure], _, rfl⟩
  · exact .inl ⟨by grind, rfl⟩
  · exact .inr ⟨by simp [room], _, rfl⟩

/-- A pool that was started and refuses an event goes on to refuse. -/
def Refusing (p : FanoutWorkerPool) : Prop := p.accepts = false ∧ (p.started = true ∨ p.closed = true)

theorem Refusing.step (refusing : p.Refusing) (s : Step) : (p.step s).1.Refusing := by
  obtain ⟨refuses, begun⟩ := refusing
  cases s with
  | start =>
    simp only [FanoutWorkerPool.step, start]
    split_ifs with started closed
    · exact ⟨refuses, begun⟩
    · exact ⟨refuses, begun⟩
    · exact absurd begun (by simp [started, closed])
  | submit e =>
    rcases submitEvent_eq e with ⟨taken, -⟩ | ⟨-, _, same⟩
    · rw [taken] at refuses
      cases refuses
    · rw [FanoutWorkerPool.step, same]
      exact ⟨refuses, begun⟩
  | stop =>
    simp only [FanoutWorkerPool.step, stop]
    split_ifs
    · exact ⟨refuses, begun⟩
    · exact ⟨rfl, .inr rfl⟩
  | distribute => exact ⟨refuses, begun⟩
  | work worker now =>
    simp only [FanoutWorkerPool.step, workerRound]
    split <;> exact ⟨refuses, begun⟩

theorem Refusing.stuck (refusing : p.Refusing) : p.Stuck := by
  intro steps e
  have later : (exec FanoutWorkerPool.step p steps).Refusing :=
    @exec_inv _ _ _ FanoutWorkerPool.step p Refusing (fun _ s refusing => step refusing s) refusing steps
  rcases submitEvent_eq e with ⟨taken, -⟩ | ⟨-, _, same⟩
  · rw [later.1] at taken
    cases taken
  · rw [same]
    exact nofun

/-- Submissions fill the channel of a running pool until it refuses. -/
theorem exists_refusing (e : FanoutEvent) (started : p.started = true) :
    ∃ n, (exec step p (replicate n (.submit e))).Refusing ∧
      (exec step p (replicate n (.submit e))).started = true := by
  generalize room : p.capacity - p.distributionChannel.length = free
  induction free generalizing p with
  | zero =>
    refine ⟨0, ⟨?_, .inl started⟩, started⟩
    have full : ¬ p.distributionChannel.length < p.capacity := by omega
    simp [accepts, full]
  | succ free ih =>
    rcases submitEvent_eq e with ⟨-, taken⟩ | ⟨refuses, -⟩
    · have next : p.step (.submit e) = ({ p with distributionChannel := p.distributionChannel ++ [e] }, .ok ()) := taken
      obtain ⟨n, refusing, started'⟩ := ih (p := (p.step (.submit e)).1) (by rw [next]; exact started) (by
        rw [next]
        show p.capacity - (p.distributionChannel ++ [e]).length = free
        rw [length_append, length_singleton]
        omega)
      exact ⟨n + 1, refusing, started'⟩
    · exact ⟨0, ⟨refuses, .inl started⟩, started⟩

end Steps

def someEvent : FanoutEvent where
  event := {
    eventID := [], eventType := [], resourceURI := [], containerURI := [], timestamp := .zero, agent := [],
    agentType := [], action := [], metadata := none, sequenceNumber := 0, streamTimestamp := .zero,
    privacyLevel := privacyLevelPublic }
  subscribers := []
  deliveryAttempts := 0
  lastAttemptTime := .zero
  nextAttemptTime := .zero

/-- The pool gets stuck in every configuration, and delivers what it accepts only where it accepts nothing. -/
theorem not_delivers : ¬ NeverStuck config ∧
      (Progress config ↔ ∀ before e, (submitEvent (Run.exec step (new config) before) e).2 ≠ .ok ()) := by
  constructor
  · intro never
    have running : (exec step (new config) [.start]).started = true := rfl
    obtain ⟨_, refusing, started⟩ := exists_refusing someEvent running
    rw [← exec_append] at refusing started
    exact never _ started (untouched_exec config _).2 refusing.stuck
  · constructor
    · intro progress before e accepted
      obtain ⟨_, -, processed⟩ := progress before e accepted
      rw [(untouched_exec config _).1] at processed
      cases processed
    · intro refuses before e accepted
      exact absurd accepted (refuses before e)

/-- The default pool accepts an event after its start and never processes it. -/
theorem default_not_progress : (submitEvent (Run.exec step (new defaultFanoutWorkerPoolConfig) [.start]) someEvent).2 =
    .ok () ∧ ¬ Progress defaultFanoutWorkerPoolConfig := by
  have accepted : (submitEvent (exec step (new defaultFanoutWorkerPoolConfig) [.start]) someEvent).2 = .ok () := by
    decide +kernel
  refine ⟨accepted, fun progress => ?_⟩
  obtain ⟨_, -, processed⟩ := progress [.start] someEvent accepted
  rw [(untouched_exec _ _).1] at processed
  cases processed

end FanoutWorkerPool

/-! ## Waiting for a retry

An event that is not due is put back through `requeueWithDelay`, which counts an attempt that was not made. -/

structure WorkerRun where
  channel : List FanoutEvent
  deliveries : List (FanoutEvent × Time)

namespace WorkerRun

open FanoutWorkerPool (processFanoutEvent requeueWithDelay)

inductive Step where
  | arrive (e : FanoutEvent)
  | take (now : Time)

def early (e : FanoutEvent) (now : Time) : Bool := 0 < e.deliveryAttempts && now.before e.nextAttemptTime

def step (config : FanoutWorkerPoolConfig) (s : WorkerRun) : Step → WorkerRun × Unit
  | .arrive e => (if s.channel.length < config.queueSize then { s with channel := s.channel ++ [e] } else s, ())
  | .take now =>
    match s.channel with
    | [] => (s, ())
    | e :: rest =>
      ({ channel := processFanoutEvent config now rest e
         deliveries := if early e now then s.deliveries else s.deliveries ++ [(e, now)] }, ())

/-- A record of the same event within the retry limit that is not due before. -/
structure Waits (config : FanoutWorkerPoolConfig) (e e' : FanoutEvent) : Prop where
  event : e'.event = e.event
  subscribers : e'.subscribers = e.subscribers
  begun : 0 < e'.deliveryAttempts
  within : e'.deliveryAttempts ≤ config.maxRetries
  due : e.nextAttemptTime ≤ e'.nextAttemptTime

/-- The event waits, or its delivery was begun at its retry time or later. -/
def Kept (config : FanoutWorkerPoolConfig) (e : FanoutEvent) (s : WorkerRun) : Prop :=
  (∃ e' ∈ s.channel, Waits config e e') ∨
    ∃ d ∈ s.deliveries, d.1.event = e.event ∧ d.1.subscribers = e.subscribers ∧ e.nextAttemptTime ≤ d.2

/-- An event that is taken early has an attempt left, finds room, and is not due sooner afterwards. -/
def Spares (config : FanoutWorkerPoolConfig) (s : WorkerRun) : Step → Prop
  | .arrive _ => True
  | .take now => ∀ e ∈ s.channel.head?, early e now = true →
      e.deliveryAttempts < config.maxRetries ∧ s.channel.tail.length < config.queueSize ∧
        e.nextAttemptTime ≤ now.add config.retryDelay

variable {config : FanoutWorkerPoolConfig} {e : FanoutEvent} {s : WorkerRun}

theorem processFanoutEvent_keeps (now : Time) (rest : List FanoutEvent) (taken : FanoutEvent) {e'}
    (mem : e' ∈ rest) : e' ∈ processFanoutEvent config now rest taken := by
  unfold processFanoutEvent requeueWithDelay
  split_ifs <;> simp [mem]

theorem Kept.step (kept : Kept config e s) (i : Step) (spares : Spares config s i) :
    Kept config e (s.step config i).1 := by
  cases i with
  | arrive new =>
    simp only [WorkerRun.step]
    split_ifs
    · exact kept.imp_left fun ⟨e', mem, waits⟩ => ⟨e', mem_append_left _ mem, waits⟩
    · exact kept
  | take now =>
    obtain ⟨channel, deliveries⟩ := s
    cases channel with
    | nil => exact kept
    | cons taken rest =>
      have begun : ∀ d ∈ deliveries, d ∈ if early taken now then deliveries else deliveries ++ [(taken, now)] := by
        intro d mem
        split_ifs <;> simp [mem]
      rcases kept with ⟨e', mem, waits⟩ | ⟨d, mem, is⟩
      · rcases mem_cons.mp mem with rfl | behind
        · cases soon : early e' now with
          | true =>
            -- it goes to the end of the channel with one attempt more
            obtain ⟨left, room, later⟩ := spares e' rfl soon
            refine .inl ⟨{ e' with
              deliveryAttempts := e'.deliveryAttempts + 1
              nextAttemptTime := now.add config.retryDelay
              lastAttemptTime := now }, ?_, waits.event, waits.subscribers, ?_, left, waits.due.trans later⟩
            · simp only [early, Bool.and_eq_true, decide_eq_true_eq] at soon
              simp only [step, processFanoutEvent, if_pos soon, requeueWithDelay,
                if_neg (show ¬config.maxRetries < e'.deliveryAttempts + 1 by omega)]
              rw [if_pos (show rest.length < config.queueSize from room)]
              exact mem_append_right _ mem_cons_self
            · exact Int.add_pos waits.begun one_pos
          | false =>
            have come : now.before e'.nextAttemptTime = false := by simpa [early, waits.begun] using soon
            refine .inr ⟨(e', now), ?_, waits.event, waits.subscribers, waits.due.trans ?_⟩
            · simp [step, soon]
            · exact not_lt.mp fun before => by simp [Time.before_iff.mpr before] at come
        · exact .inl ⟨e', processFanoutEvent_keeps now rest taken behind, waits⟩
      · exact .inr ⟨d, begun d mem, is⟩

/-- In a run that spares its early events, an event that waits is not lost before its retry time. -/
theorem spares_kept (config : FanoutWorkerPoolConfig) (s : WorkerRun) (e : FanoutEvent) (mem : e ∈ s.channel)
    (begun : 0 < e.deliveryAttempts) (within : e.deliveryAttempts ≤ config.maxRetries) (inputs : List Step)
    (spares : Run.Along (step config) (Spares config) s inputs) :
    ∀ before after, inputs = before ++ after → Kept config e (Run.exec (step config) s before) :=
  @run_inv _ _ _ (step config) s (Kept config e) inputs (.inl ⟨e, mem, rfl, rfl, begun, within, le_refl _⟩)
    fun before i after split kept => kept.step i (Run.along_iff.mp spares before i after split)

/-- An event after so many attempts, to be tried again a second later. -/
def retried (attempts : Int) : FanoutEvent :=
  { FanoutWorkerPool.someEvent with deliveryAttempts := attempts, nextAttemptTime := ⟨second⟩ }

theorem spares_kept_once : Run.Along (step defaultFanoutWorkerPoolConfig) (Spares defaultFanoutWorkerPoolConfig)
      ⟨[retried 1], []⟩ [.take .zero] ∧
    ∀ before after, [.take .zero] = before ++ after → Kept defaultFanoutWorkerPoolConfig (retried 1)
      (Run.exec (step defaultFanoutWorkerPoolConfig) ⟨[retried 1], []⟩ before) := by
  have spares : Along (step defaultFanoutWorkerPoolConfig) (Spares defaultFanoutWorkerPoolConfig)
      ⟨[retried 1], []⟩ [.take .zero] := by
    refine ⟨fun e is _ => ?_, trivial⟩
    cases is
    decide +kernel
  exact ⟨spares, spares_kept _ _ _ mem_cons_self (by decide) (by decide) _ spares⟩

/-- An event with no attempt left that is taken early is dropped. -/
theorem last_retry_dropped :
    let s := (step defaultFanoutWorkerPoolConfig ⟨[retried 3], []⟩ (.take .zero)).1
    s.channel.length = 0 ∧ s.deliveries.length = 0 ∧ ¬Kept defaultFanoutWorkerPoolConfig (retried 3) s := by
  have gone : (step defaultFanoutWorkerPoolConfig ⟨[retried 3], []⟩ (.take .zero)).1 = ⟨[], []⟩ := rfl
  rw [gone]
  exact ⟨rfl, rfl, fun kept => by rcases kept with ⟨_, mem, _⟩ | ⟨_, mem, _⟩ <;> cases mem⟩

end WorkerRun

end Runtime
