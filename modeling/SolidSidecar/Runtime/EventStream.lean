import SolidSidecar.Runtime.Events
import SolidSidecar.Runtime.Validation

/-!
# Events and subscribers of the event stream

`event_stream.go` without its goroutines: what `AddEvent` checks and sets in an event, what `Subscribe` checks,
and which events a subscriber is sent. What the rate limiter and the circuit breaker answer is given with
the call.
-/

namespace Runtime
open Go

variable (sub : StreamSubscriber) (config : EventStreamConfig)

structure EventStreamConfig where
  maxStreamBufferSize : Int
  maxStreamSubscribers : Int
  maxMetadataSize : Int
  maxMetadataKeys : Int
  maxMetadataKeyLength : Int
  maxMetadataValueLength : Int
  maxSubscriberBufferSize : Int

def defaultEventStreamConfig : EventStreamConfig where
  maxStreamBufferSize := 10000
  maxStreamSubscribers := 1000
  maxMetadataSize := 4096
  maxMetadataKeys := 50
  maxMetadataKeyLength := 256
  maxMetadataValueLength := 1024
  maxSubscriberBufferSize := 1000

def EventStreamConfig.bufferSize : Nat :=
  if config.maxSubscriberBufferSize ≤ 0 then 100 else config.maxSubscriberBufferSize.toNat

theorem EventStreamConfig.bufferSize_pos : 0 < config.bufferSize := by
  unfold bufferSize
  split_ifs
  · decide
  · omega

inductive StreamError where
  | invalidResourceURI (cause : ValidationError)
  | invalidContainerURI (cause : ValidationError)
  | invalidEventType (eventType : Str)
  | invalidWebID (cause : ValidationError)
  | tooManyMetadataKeys (limit : Int)
  | metadataKeyTooLong (limit : Int)
  | metadataValueTooLong (limit : Int)
  | metadataControlCharacters
  | sensitiveMetadataKey
  | metadataTooLarge (limit : Int)
  | rateLimitExceeded
  | circuitBreakerOpen
  | invalidPrivacyLevel (level : PrivacyLevel)
  | privacyRange
  | tooManyResourceURIs (limit : Int)
  deriving DecidableEq, Repr

def knownEventTypes : List Str :=
  ["create", "update", "delete", "move", "copy", "access", "policy", "container", "custom"]

def isValidNotificationEventType (eventType : Str) : Bool := knownEventTypes.contains eventType

def sensitiveKeys : List Str :=
  ["authorization", "token", "password", "secret", "private", "credential", "api_key",
    "access_token", "refresh_token"]

def isValidPrivacyLevel (level : PrivacyLevel) : Bool := validPrivacyLevels.contains level

theorem mem_validPrivacyLevels {level} : isValidPrivacyLevel level = true ↔ level ∈ validPrivacyLevels :=
  List.contains_iff_mem

section Metadata

variable [Unicode]

def isSensitiveMetadataKey (key : Str) : Bool := sensitiveKeys.any (Strings.contains (Strings.toLower key))

structure AddContext where
  now : Time
  generatedID : Str
  allowed : Bool := true
  breakerOpen : Bool := false
  order : RangeOrder (Str × Str) := default

def checkMember (config : EventStreamConfig) (member : Str × Str) : Except StreamError Unit := do
  refuse (config.maxMetadataKeyLength < member.1.length) (.metadataKeyTooLong config.maxMetadataKeyLength)
  refuse (config.maxMetadataValueLength < member.2.length) (.metadataValueTooLong config.maxMetadataValueLength)
  refuse ((runes member.1).any control = true) .metadataControlCharacters
  refuse ((runes member.2).any control = true) .metadataControlCharacters
  refuse (isSensitiveMetadataKey member.1 = true) .sensitiveMetadataKey

def StreamEvent.members (event : StreamEvent) : GoMap Str Str := event.metadata.getD ∅

def checkEvent (config : EventStreamConfig) (c : AddContext) (event : StreamEvent) : Except StreamError Unit := do
  (validateURI event.resourceURI).mapError .invalidResourceURI
  ifPresent (fun s => (validateContainerURI s).mapError .invalidContainerURI) event.containerURI
  refuse (isValidNotificationEventType event.eventType = false) (.invalidEventType event.eventType)
  ifPresent (fun s => (validateWebID s).mapError .invalidWebID) event.agent
  refuse (config.maxMetadataKeys < event.members.size) (.tooManyMetadataKeys config.maxMetadataKeys)
  checkAll (checkMember config) (c.order.visit event.members.pairs)
  refuse (config.maxMetadataSize < (event.members.pairs.map fun kv => kv.1.length + kv.2.length).sum)
    (.metadataTooLarge config.maxMetadataSize)
  refuse (c.allowed = false) .rateLimitExceeded
  refuse (c.breakerOpen = true) .circuitBreakerOpen
  refuse (event.privacyLevel ≠ [] ∧ isValidPrivacyLevel event.privacyLevel = false)
    (.invalidPrivacyLevel event.privacyLevel)

/-- The event that is streamed: a level, times and an id are set where they are missing. -/
def StreamEvent.completed (event : StreamEvent) (c : AddContext) : StreamEvent :=
  { event with
    privacyLevel := if event.privacyLevel = [] then privacyLevelMetadata else event.privacyLevel
    timestamp := if event.timestamp.isZero then c.now else event.timestamp
    streamTimestamp := if event.streamTimestamp.isZero then c.now else event.streamTimestamp
    eventID := if event.eventID = [] then c.generatedID else event.eventID }

theorem completed_level {config c event}
    (checked : checkEvent config c event = .ok ()) : (event.completed c).privacyLevel ∈ validPrivacyLevels := by
  unfold checkEvent at checked
  simp only [then_eq_ok, refuse_eq_ok] at checked
  obtain ⟨-, -, -, -, -, -, -, -, -, level⟩ := checked
  unfold StreamEvent.completed
  dsimp only
  split_ifs with unset
  · decide
  · rw [not_and, Bool.not_eq_false] at level
    exact mem_validPrivacyLevels.mp (level unset)

end Metadata

/-- `StreamSubscriber`. Its channel is what was put on it and how much of that was taken off again; the
context that it was given and the one derived from it are apart. -/
structure StreamSubscriber where
  filter : StreamFilter
  minPrivacyLevel : PrivacyLevel
  webID : Str
  active : Bool
  lastSent : Time
  put : List StreamEvent
  taken : Nat
  channelClosed : Bool
  contextDone : Bool
  cancelled : Bool

def StreamSubscriber.waiting : Nat := sub.put.length - sub.taken

def newSubscriber (filter : StreamFilter) (webID : Str) (minPrivacyLevel : PrivacyLevel) : StreamSubscriber where
  filter := filter
  minPrivacyLevel := minPrivacyLevel
  webID := webID
  active := true
  lastSent := .zero
  put := []
  taken := 0
  channelClosed := false
  contextDone := false
  cancelled := false

def checkLevel (level : PrivacyLevel) : Except StreamError Unit :=
  ifPresent (fun level => refuse (isValidPrivacyLevel level = false) (.invalidPrivacyLevel level)) level

def checkSubscribe (filter : StreamFilter) (webID : Str) (minPrivacyLevel : PrivacyLevel) :
    Except StreamError Unit := do
  refuse (config.maxMetadataKeys < filter.resourceURIs.length) (.tooManyResourceURIs config.maxMetadataKeys)
  checkAll (fun s => (validateURI s).mapError .invalidResourceURI) filter.resourceURIs
  checkAll (fun s => (validateContainerURI s).mapError .invalidContainerURI) filter.containerURIs
  checkAll (fun t => refuse (isValidNotificationEventType t = false) (.invalidEventType t)) filter.eventTypes
  refuse (filter.minPrivacyLevel ≠ [] ∧ filter.maxPrivacyLevel ≠ [] ∧
    Str.less filter.maxPrivacyLevel filter.minPrivacyLevel = true) .privacyRange
  checkLevel filter.minPrivacyLevel
  checkLevel filter.maxPrivacyLevel
  ifPresent (fun s => (validateWebID s).mapError .invalidWebID) webID
  refuse (isValidPrivacyLevel minPrivacyLevel = false) (.invalidPrivacyLevel minPrivacyLevel)

/-- `event.ResourceURI` starts with a pattern that is not empty. -/
def matchesPattern (resourceURI pattern : Str) : Bool := pattern ≠ [] && pattern.isPrefixOf resourceURI

def eventMatchesStreamFilter (event : StreamEvent) (filter : StreamFilter) : Bool :=
  (filter.eventTypes.isEmpty || filter.eventTypes.contains event.eventType) &&
  !below filter.minPrivacyLevel event.privacyLevel && !above filter.maxPrivacyLevel event.privacyLevel &&
  (filter.resourceURIs.isEmpty || filter.resourceURIs.contains event.resourceURI) &&
  (filter.resourcePatterns.isEmpty || filter.resourcePatterns.any (matchesPattern event.resourceURI)) &&
  (filter.containerURIs.isEmpty || filter.containerURIs.contains event.containerURI) &&
  (filter.agents.isEmpty || filter.agents.contains event.agent)

/-- The tests of the catch-up: the filter and the level. -/
def StreamSubscriber.sees (event : StreamEvent) : Bool :=
  eventMatchesStreamFilter event sub.filter && !Str.less event.privacyLevel sub.minPrivacyLevel

/-- The tests of a delivery: an active subscriber, and also the agent of the event. -/
def StreamSubscriber.wants (event : StreamEvent) : Bool :=
  sub.active && sub.sees event &&
  !(decide (sub.webID ≠ []) && decide (event.agent ≠ []) && decide (sub.webID ≠ event.agent))

def StreamSubscriber.full : Bool :=
  decide (config.bufferSize ≤ sub.waiting)

def StreamSubscriber.receive (e : StreamEvent) : StreamSubscriber :=
  { sub with put := sub.put ++ [e] }

/-- A delivery puts an event on the channel: it also sets `LastSent`. -/
def StreamSubscriber.receiveAt (e : StreamEvent) (now : Time) : StreamSubscriber :=
  { sub.receive e with lastSent := now }

/-- `close(subscriber.EventChannel)` and `subscriber.Cancel()`. -/
def StreamSubscriber.shut : StreamSubscriber :=
  { sub with channelClosed := true, cancelled := true }

@[simp] theorem StreamSubscriber.shut_shut : sub.shut.shut = sub.shut := rfl

end Runtime
