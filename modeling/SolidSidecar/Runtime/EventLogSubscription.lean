import SolidSidecar.Runtime.EventLogRuns
import SolidSidecar.Runtime.FanoutAccess

/-!
# Subscriptions to the event log

The filter of the log next to the two other readings of a `StreamFilter`, and the loop that sends entries to a
subscriber from a cursor on. The catch-up reads from the cursor with the cursor included, the polls leave it out.
-/

namespace Runtime

open Go Run List FanoutService

/-- The log looks at the types, the resources and the lowest level. -/
def DurableEventLog.eventMatchesFilter (event : StreamEvent) (filter : StreamFilter) : Bool :=
  (filter.eventTypes.isEmpty || filter.eventTypes.contains event.eventType) &&
  (filter.resourceURIs.isEmpty || filter.resourceURIs.contains event.resourceURI) &&
  !below filter.minPrivacyLevel event.privacyLevel

open DurableEventLog (eventMatchesFilter)

def StreamFilter.passesRest (filter : StreamFilter) (event : StreamEvent) : Bool :=
  !above filter.maxPrivacyLevel event.privacyLevel &&
  (filter.resourcePatterns.isEmpty || filter.resourcePatterns.any (matchesPattern event.resourceURI)) &&
  (filter.containerURIs.isEmpty || filter.containerURIs.contains event.containerURI) &&
  (filter.agents.isEmpty || filter.agents.contains event.agent)

theorem eventMatchesStreamFilter_eq (event : StreamEvent) (filter : StreamFilter) :
    eventMatchesStreamFilter event filter = (eventMatchesFilter event filter && filter.passesRest event) := by
  unfold eventMatchesStreamFilter eventMatchesFilter StreamFilter.passesRest
  ac_rfl

theorem subscriptionMatchesEvent_of_stream {event filter} (matching : eventMatchesStreamFilter event filter = true) :
    subscriptionMatchesEvent filter event = true := by
  unfold eventMatchesStreamFilter at matching
  unfold subscriptionMatchesEvent
  grind

theorem eventMatchesFilter_of_subscription {event filter} (matching : subscriptionMatchesEvent filter event = true) :
    eventMatchesFilter event filter = true := by
  unfold subscriptionMatchesEvent at matching
  unfold eventMatchesFilter
  grind

/-- The three agree on an event that the log refuses, and on one that passes all criteria. -/
theorem filters_agree_iff (event : StreamEvent) (filter : StreamFilter) :
    (eventMatchesStreamFilter event filter = eventMatchesFilter event filter ∧
      FanoutService.subscriptionMatchesEvent filter event = eventMatchesFilter event filter) ↔
    (eventMatchesFilter event filter = true → filter.passesRest event = true) := by
  have whole := eventMatchesStreamFilter_eq event filter
  have wider := @subscriptionMatchesEvent_of_stream event filter
  have widest := @eventMatchesFilter_of_subscription event filter
  cases inLog : eventMatchesFilter event filter <;> cases rest : filter.passesRest event <;> simp_all

/-- A filter for one agent, an event of another one. -/
theorem filters_disagree_agents :
    let event : StreamEvent := { plainEvent with containerURI := str "https://h/", agent := str "https://h/bob" }
    let filter : StreamFilter := ⟨[], [], [], [], [str "https://h/alice"], [], []⟩
    eventMatchesFilter event filter = true ∧ FanoutService.subscriptionMatchesEvent filter event = true ∧
      eventMatchesStreamFilter event filter = false := by
  decide +kernel

def LogEntry.toStreamEvent (entry : LogEntry) : StreamEvent where
  eventID := entry.eventID
  eventType := entry.eventType
  resourceURI := entry.resourceURI
  containerURI := entry.containerURI
  timestamp := entry.timestamp
  agent := entry.agent
  agentType := entry.agentType
  action := entry.action
  metadata := entry.metadata.map fun m => (m.inOrder.map fun pair => ⟨pair.1, pair.2⟩).toAList
  sequenceNumber := entry.sequenceNumber
  streamTimestamp := entry.streamTimestamp
  privacyLevel := entry.privacyLevel

def DurableEventLog.getCursor (l : DurableEventLog) : Int := if l.closed then -1 else l.sequenceCounter - 1

/-- Where the loop is: before its first read, at the ticker, or between a cursor that has grown and the read. -/
inductive LoopPhase where
  | catchUp
  | waiting
  | due
deriving DecidableEq

structure SubscriptionLoop where
  phase : LoopPhase
  lastCursor : Int
  delivered : List LogEntry

namespace SubscriptionLoop

def send (filter : StreamFilter) (s : SubscriptionLoop) (e : LogEntry) : SubscriptionLoop :=
  if eventMatchesFilter e.toStreamEvent filter then
    { s with lastCursor := e.sequenceNumber, delivered := s.delivered ++ [e] }
  else s

def sendNew (filter : StreamFilter) (s : SubscriptionLoop) (e : LogEntry) : SubscriptionLoop :=
  if s.lastCursor < e.sequenceNumber then s.send filter e else s

section

variable [Unicode]

/-- A read that fails is logged, and nothing is sent. -/
def readFrom (l : DurableEventLog) (cursor : Int) : List LogEntry :=
  match DurableEventLog.readEventsSince .ignored cursor 0 .free l with
  | some (.ok events, _) => events
  | _ => []

/-- The next turn of `subscriptionLoop`, for a subscriber that takes what is sent. What is sent was read before, so
that writes do not come between. -/
def turn (filter : StreamFilter) (l : DurableEventLog) (s : SubscriptionLoop) : SubscriptionLoop :=
  match s.phase with
  | .catchUp =>
    let caught := if 0 ≤ s.lastCursor then (readFrom l s.lastCursor).foldl (send filter) s else s
    { caught with phase := .waiting }
  | .waiting => if s.lastCursor < l.getCursor then { s with phase := .due } else s
  | .due => { (readFrom l s.lastCursor).foldl (sendNew filter) s with phase := .waiting }

end

end SubscriptionLoop

structure Subscribed where
  journal : DurableEventLog.Journal
  loop : SubscriptionLoop

inductive SubscribedStep where
  | write (c : DurableEventLog.WriteContext) (event : StreamEvent)
  | turn

namespace Subscribed

open DurableEventLog SubscriptionLoop

/-- The entries that are to be sent from a cursor on. -/
def wanted (filter : StreamFilter) (cursor : Int) (written : List LogEntry) : List LogEntry :=
  written.filter fun e => cursor < e.sequenceNumber && eventMatchesFilter e.toStreamEvent filter

section

variable [Unicode]

def step (filter : StreamFilter) (s : Subscribed) : SubscribedStep → Subscribed × Unit
  | .write c event => ({ s with journal := s.journal.write c event }, ())
  | .turn => ({ s with loop := s.loop.turn filter s.journal.log }, ())

/-- A subscription to a new log; what is written before its first turn is there when it catches up. -/
def start (config : ValidConfig) (disk : GoMap Str Str) (timestamp cursor : Int) : Subscribed :=
  ⟨.start config disk timestamp, ⟨.catchUp, cursor, []⟩⟩

/-- What was sent is the first part of what is to be sent above a number, and a tick sends the rest. -/
structure ExactlyOnce (filter : StreamFilter) (above : Int) (s : Subscribed) : Prop where
  sent : s.loop.delivered <+: wanted filter above s.journal.written
  rest : s.loop.phase = .waiting → ((s.loop.turn filter s.journal.log).turn filter s.journal.log).delivered =
    wanted filter above s.journal.written

/-- Steps that lose nothing: a write that fits, and does not add a matching entry at the cursor itself after the
catch-up. -/
def Meets (filter : StreamFilter) (cursor : Int) (s : Subscribed) : SubscribedStep → Prop
  | .write c event => Fits s.journal.log (.write c event) ∧
      (s.loop.phase ≠ .catchUp → s.journal.log.sequenceCounter = cursor →
        eventMatchesFilter (s.journal.log.entryFor c.now event).toStreamEvent filter = false)
  | .turn => True

end

end Subscribed

namespace SubscriptionLoop

open Subscribed (wanted)

variable {filter : StreamFilter} {entries : List LogEntry} {s s' : SubscriptionLoop}

section

variable (ordered : entries.Pairwise fun e e' => e.sequenceNumber < e'.sequenceNumber)

include ordered

/-- A poll sends the entries above the cursor that match, and moves the cursor to the last of them. -/
theorem foldl_sendNew (ends : entries.foldl (sendNew filter) s = s') :
    s'.delivered = s.delivered ++ wanted filter s.lastCursor entries ∧ s.lastCursor ≤ s'.lastCursor ∧
      (∀ e ∈ wanted filter s.lastCursor entries, e.sequenceNumber ≤ s'.lastCursor) ∧
      (s'.lastCursor = s.lastCursor ∨ ∃ e ∈ entries, s'.lastCursor = e.sequenceNumber) := by
  induction entries generalizing s with
  | nil =>
    cases ends
    simp [wanted]
  | cons e rest ih =>
    obtain ⟨least, ordered⟩ := pairwise_cons.mp ordered
    obtain ⟨sent, grows, upTo, moved⟩ := ih ordered ends
    by_cases takes : s.lastCursor < e.sequenceNumber ∧ eventMatchesFilter e.toStreamEvent filter = true
    · rw [sendNew, if_pos takes.1, send, if_pos takes.2] at sent grows upTo moved
      -- what follows is above this entry, so that the cursor leaves none of it out
      have same : wanted filter s.lastCursor (e :: rest) = e :: wanted filter e.sequenceNumber rest := by
        unfold wanted
        rw [filter_cons_of_pos (by simpa using takes)]
        congr 1
        refine filter_congr fun e' mem => ?_
        have := least e' mem
        simp [this, takes.1.trans this]
      rw [same]
      refine ⟨by rw [sent, append_assoc, singleton_append], takes.1.le.trans grows, ?_, ?_⟩
      · exact forall_mem_cons.mpr ⟨grows, upTo⟩
      · rcases moved with moved | ⟨e', mem, moved⟩
        · exact .inr ⟨e, mem_cons_self, moved⟩
        · exact .inr ⟨e', mem_cons_of_mem _ mem, moved⟩
    · have stays : s.sendNew filter e = s := by
        unfold sendNew send
        split_ifs <;> simp_all
      have same : wanted filter s.lastCursor (e :: rest) = wanted filter s.lastCursor rest :=
        filter_cons_of_neg (by simpa using takes)
      rw [stays] at sent grows upTo moved
      rw [same]
      exact ⟨sent, grows, upTo, moved.imp_right fun ⟨e', mem, is⟩ => ⟨e', mem_cons_of_mem _ mem, is⟩⟩

/-- The catch-up sends all entries that match, and moves the cursor to the last of them. -/
theorem foldl_send (least : ∀ e ∈ entries, s.lastCursor ≤ e.sequenceNumber)
    (ends : entries.foldl (send filter) s = s') :
    s'.delivered = s.delivered ++ entries.filter (fun e => eventMatchesFilter e.toStreamEvent filter) ∧
      s.lastCursor ≤ s'.lastCursor ∧
      (∀ e ∈ entries, eventMatchesFilter e.toStreamEvent filter = true → e.sequenceNumber ≤ s'.lastCursor) ∧
      (s'.lastCursor = s.lastCursor ∨ ∃ e ∈ entries, s'.lastCursor = e.sequenceNumber) := by
  induction entries generalizing s with
  | nil =>
    cases ends
    simp
  | cons e rest ih =>
    obtain ⟨above, ordered⟩ := pairwise_cons.mp ordered
    obtain ⟨low, least⟩ := forall_mem_cons.mp least
    by_cases takes : eventMatchesFilter e.toStreamEvent filter = true
    · have sends : s.send filter e = { s with lastCursor := e.sequenceNumber, delivered := s.delivered ++ [e] } :=
        if_pos takes
      rw [foldl_cons, sends] at ends
      obtain ⟨sent, grows, upTo, moved⟩ := ih ordered (fun e' mem => (above e' mem).le) ends
      rw [filter_cons_of_pos (by simpa using takes)]
      refine ⟨by rw [sent, append_assoc, singleton_append], low.trans grows, ?_, ?_⟩
      · exact forall_mem_cons.mpr ⟨fun _ => grows, upTo⟩
      · rcases moved with moved | ⟨e', mem, moved⟩
        · exact .inr ⟨e, mem_cons_self, moved⟩
        · exact .inr ⟨e', mem_cons_of_mem _ mem, moved⟩
    · have stays : s.send filter e = s := if_neg takes
      rw [foldl_cons, stays] at ends
      obtain ⟨sent, grows, upTo, moved⟩ := ih ordered least ends
      rw [filter_cons_of_neg (by simpa using takes)]
      exact ⟨sent, grows, forall_mem_cons.mpr ⟨fun taken => absurd taken takes, upTo⟩,
        moved.imp_right fun ⟨e', mem, is⟩ => ⟨e', mem_cons_of_mem _ mem, is⟩⟩

end

end SubscriptionLoop

namespace Subscribed

open DurableEventLog SubscriptionLoop

section

variable [Unicode] {filter : StreamFilter} {cursor : Int} {s : Subscribed}

/-- Between two steps: what is still to be sent is what is wanted above the last cursor. -/
structure Sound (filter : StreamFilter) (cursor : Int) (s : Subscribed) : Prop where
  journal : s.journal.Sound
  low : cursor ≤ s.loop.lastCursor
  high : s.loop.lastCursor = cursor ∨ s.loop.lastCursor < s.journal.written.length
  first : s.loop.phase = .catchUp → s.loop.lastCursor = cursor ∧ s.loop.delivered = []
  sent : s.loop.phase ≠ .catchUp →
    s.loop.delivered ++ wanted filter s.loop.lastCursor s.journal.written = wanted filter (cursor - 1) s.journal.written

section

variable (sound : Sound filter cursor s)

include sound

theorem Sound.read : readFrom s.journal.log s.loop.lastCursor =
      s.journal.written.filter fun e => s.loop.lastCursor ≤ e.sequenceNumber := by
  rw [readFrom, sound.journal.complete.all]

theorem Sound.settled {loop : SubscriptionLoop} (grows : s.loop.lastCursor ≤ loop.lastCursor)
    (moved : loop.lastCursor = s.loop.lastCursor ∨ ∃ e ∈ s.journal.written, loop.lastCursor = e.sequenceNumber)
    (upTo : ∀ e ∈ s.journal.written, s.loop.lastCursor < e.sequenceNumber →
      eventMatchesFilter e.toStreamEvent filter = true → e.sequenceNumber ≤ loop.lastCursor)
    (all : loop.delivered = wanted filter (cursor - 1) s.journal.written) :
    Sound filter cursor { s with loop := { loop with phase := .waiting } } := by
  refine ⟨sound.journal, sound.low.trans grows, ?_, nofun, fun _ => ?_⟩
  · rcases moved with same | ⟨e, mem, is⟩
    · exact sound.high.imp same.trans same.trans_lt
    · exact .inr (is.trans_lt (sound.journal.numbered.bounds mem).2)
  · have none : wanted filter loop.lastCursor s.journal.written = [] := by
      refine filter_eq_nil_iff.mpr fun e mem later => ?_
      simp only [Bool.and_eq_true, decide_eq_true_eq] at later
      have := upTo e mem (grows.trans_lt later.1) later.2
      omega
    rw [none, append_nil, all]

/-- A read from the last cursor on sends all that is wanted. -/
theorem Sound.polled (past : s.loop.phase ≠ .catchUp) :
    let polled := (readFrom s.journal.log s.loop.lastCursor).foldl (sendNew filter) s.loop
    polled.delivered = wanted filter (cursor - 1) s.journal.written ∧
      Sound filter cursor { s with loop := { polled with phase := .waiting } } := by
  rw [sound.read]
  intro polled
  obtain ⟨sent, grows, upTo, moved⟩ :=
    @foldl_sendNew filter _ s.loop polled (sound.journal.numbered.ordered.filter _) rfl
  have seen : wanted filter s.loop.lastCursor
      (s.journal.written.filter fun e => s.loop.lastCursor ≤ e.sequenceNumber) =
      wanted filter s.loop.lastCursor s.journal.written := by
    unfold wanted
    rw [filter_filter]
    exact filter_congr fun e _ => by grind
  rw [seen] at sent upTo
  have all := sent.trans (sound.sent past)
  refine ⟨all, sound.settled grows (moved.imp_right ?_) (fun e mem later takes => ?_) all⟩
  · exact fun ⟨e, mem, is⟩ => ⟨e, (mem_filter.mp mem).1, is⟩
  · exact upTo e (mem_filter.mpr ⟨mem, by simpa using ⟨later, takes⟩⟩)

/-- The catch-up reads from the cursor on with the cursor included, and sends all that matches. -/
theorem Sound.caughtUp (phase : s.loop.phase = .catchUp) : Sound filter cursor { s with loop :=
      { (readFrom s.journal.log s.loop.lastCursor).foldl (send filter) s.loop with phase := .waiting } } := by
  obtain ⟨here, nothing⟩ := sound.first phase
  rw [sound.read]
  obtain ⟨sent, grows, upTo, moved⟩ := @foldl_send filter _ s.loop _ (sound.journal.numbered.ordered.filter _)
    (fun e mem => of_decide_eq_true (mem_filter.mp mem).2) rfl
  refine sound.settled grows (moved.imp_right fun ⟨e, mem, is⟩ => ⟨e, (mem_filter.mp mem).1, is⟩)
    (fun e mem later => upTo e (mem_filter.mpr ⟨mem, decide_eq_true later.le⟩)) ?_
  rw [sent, nothing, filter_filter]
  exact filter_congr fun e _ => by grind

theorem Sound.turn : Sound filter cursor { s with loop := s.loop.turn filter s.journal.log } := by
  unfold SubscriptionLoop.turn
  cases phase : s.loop.phase with
  | catchUp =>
    by_cases resumes : 0 ≤ s.loop.lastCursor
    · simp only [resumes]
      exact sound.caughtUp phase
    · simp only [resumes]
      obtain ⟨here, nothing⟩ := sound.first phase
      refine { sound with first := nofun, sent := fun _ => ?_ }
      -- all numbers are above a negative cursor
      rw [if_neg (by simp), nothing]
      refine filter_congr fun e mem => ?_
      have := (sound.journal.numbered.bounds mem).1
      simp [show s.loop.lastCursor < e.sequenceNumber by omega, show cursor - 1 < e.sequenceNumber by omega]
  | waiting =>
    have sent := sound.sent (by simp [phase])
    dsimp only
    split_ifs
    · exact { sound with first := nofun, sent := fun _ => sent }
    · exact sound
  | due => exact (sound.polled (by simp [phase])).2

theorem Sound.exactlyOnce : ExactlyOnce filter (cursor - 1) s := by
  constructor
  · by_cases phase : s.loop.phase = .catchUp
    · rw [(sound.first phase).2]
      exact nil_prefix
    · exact ⟨_, sound.sent phase⟩
  intro waits
  have sent := sound.sent (by simp [waits])
  by_cases grown : s.loop.lastCursor < s.journal.log.getCursor
  · have due : s.loop.turn filter s.journal.log = { s.loop with phase := .due } := by
      simp [SubscriptionLoop.turn, waits, grown]
    have later : Sound filter cursor { s with loop := { s.loop with phase := .due } } :=
      { sound with first := nofun, sent := fun _ => sent }
    rw [due]
    exact (later.polled nofun).1
  · have idle : s.loop.turn filter s.journal.log = s.loop := by
      simp [SubscriptionLoop.turn, waits, grown]
    -- nothing is numbered above the last cursor
    have none : wanted filter s.loop.lastCursor s.journal.written = [] := by
      refine filter_eq_nil_iff.mpr fun e mem => ?_
      rw [getCursor, sound.journal.isOpen, sound.journal.counter] at grown
      have := (sound.journal.numbered.bounds mem).2
      simp only [Bool.false_eq_true, if_false] at grown
      simp [show ¬s.loop.lastCursor < e.sequenceNumber by omega]
    rw [idle, idle, ← sent, none, append_nil]

theorem Sound.write {c event} (meets : Meets filter cursor s (.write c event)) :
    Sound filter cursor { s with journal := s.journal.write c event } := by
  obtain ⟨fits, handedOver⟩ := meets
  have after := sound.journal.write fits
  have written : (s.journal.write c event).written = s.journal.written ∨
      (s.journal.write c event).written = s.journal.written ++ [s.journal.log.entryFor c.now event] := by
    unfold Journal.write Journal.after
    split <;> simp
  refine ⟨after, sound.low, ?_, sound.first, fun past => ?_⟩ <;> rcases written with _ | _ <;>
    simp only [*]
  · exact sound.high
  · rw [length_append]
    exact sound.high.imp_right fun below => by omega
  · exact sound.sent past
  · -- the new number is above the last cursor exactly if it is not below the first one
    have number : (s.journal.log.entryFor c.now event).sequenceNumber = s.journal.written.length :=
      sound.journal.counter
    have last : wanted filter s.loop.lastCursor [s.journal.log.entryFor c.now event] =
        wanted filter (cursor - 1) [s.journal.log.entryFor c.now event] := by
      refine filter_congr fun e mem => ?_
      rw [mem_singleton.mp mem, number]
      by_cases here : s.journal.log.sequenceCounter = cursor
      · simp [handedOver past here]
      · have counter := sound.journal.counter
        have low := sound.low
        have same : s.loop.lastCursor < s.journal.written.length ↔ cursor - 1 < s.journal.written.length := by
          rcases sound.high with high | high <;> omega
        simp [same]
    unfold wanted at last ⊢
    rw [filter_append, filter_append, last, ← append_assoc]
    exact congrArg (· ++ _) (sound.sent past)

end

/-- In a run whose steps all meet the condition, each matching entry from the cursor on is sent once, in order. -/
theorem meets_exactlyOnce (config : ValidConfig) (disk : GoMap Str Str)
    (foreign : ∀ name, (disk.lookup name).isSome = true → isLogFile name = false) (timestamp : Int)
    (filter : StreamFilter) (cursor : Int) (inputs : List SubscribedStep)
    (meets : Along (step filter) (Meets filter cursor) (.start config disk timestamp cursor) inputs) :
    ExactlyOnce filter (cursor - 1) (exec (step filter) (.start config disk timestamp cursor) inputs) := by
  have start : Sound filter cursor (.start config disk timestamp cursor) :=
    ⟨Journal.sound_start config foreign timestamp, le_refl _, .inl rfl, fun _ => ⟨rfl, rfl⟩, fun past => absurd rfl past⟩
  have sound := @run_inv _ _ _ (step filter) _ _ inputs start fun before i after split sound =>
      match i, along_iff.mp meets before i after split with
      | .write _ _, meets => sound.write meets
      | .turn, _ => sound.turn
  exact (sound inputs [] (append_nil inputs).symm).exactlyOnce

end

def anyEvent : StreamFilter := ⟨[], [], [], [], [], [], []⟩

def plainWrite : SubscribedStep := .write ⟨.zero, default, 1, 2, false⟩ plainEvent

/-- Two events, a subscriber that resumes at the second, and an event after the catch-up. -/
theorem meets_exactlyOnce_resumed :
    letI := Unicode.ascii
    let inputs := [plainWrite, plainWrite, .turn, plainWrite, .turn, .turn]
    let s := exec (step anyEvent) (.start defaultLimits ∅ 0 1) inputs
    Along (step anyEvent) (Meets anyEvent 1) (.start defaultLimits ∅ 0 1) inputs ∧
    s.loop.delivered.map LogEntry.sequenceNumber = [1, 2] ∧ ExactlyOnce anyEvent (1 - 1) s := by
  let := Unicode.ascii
  intro inputs s
  have fits {l : DurableEventLog} := @fits_plain l _ 1 2 false
  have meets : Along (step anyEvent) (Meets anyEvent 1) (.start defaultLimits ∅ 0 1) inputs := by
    refine ⟨⟨fits ?_ ?_ ?_, fun past => absurd rfl past⟩, ⟨fits ?_ ?_ ?_, fun past => absurd rfl past⟩, trivial,
      ⟨fits ?_ ?_ ?_, fun _ => ?_⟩, trivial, trivial, trivial⟩ <;> decide +kernel
  exact ⟨meets, by decide +kernel,
    meets_exactlyOnce defaultLimits ∅ (fun _ found => nomatch found) 0 anyEvent 1 inputs meets⟩

/-- A subscriber that comes back with the number of the only event is sent that event again. -/
theorem resumed_sends_again :
    letI := Unicode.ascii
    let s := exec (step anyEvent) (.start defaultLimits ∅ 0 0) [plainWrite, .turn]
    s.loop.delivered.map LogEntry.sequenceNumber = [0] ∧ ¬ExactlyOnce anyEvent 0 s := by
  let := Unicode.ascii
  refine ⟨by decide +kernel, fun exact => ?_⟩
  have lengths := exact.sent.length_le
  revert lengths
  decide +kernel

end Subscribed

end Runtime
