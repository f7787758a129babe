import SolidSidecar.Go.Filepath
import SolidSidecar.Runtime.EventStream
import SolidSidecar.Runtime.LogEntry
import SolidSidecar.Runtime.PolicyEngine

/-!
# The durable event log

`durable_event_log.go`. Events are appended as lines of JSON to a current file; a file that has grown too long or
holds too many events is left for a new one. When the log is opened, the files that are in its directory are
listed in the order of their names, and the number after the last one that is found is the next sequence number.
A file is its name and its bytes. The methods are calls that take the log's lock (`Run.Mutex`), as the source
nests them. Whether the disk fails is given with the call.
-/

namespace Runtime
open Go Run Strings

structure DurableEventLogConfig where
  logDirectory : Str
  maxLogSize : Int
  maxTotalSize : Int
  retentionTime : Int
  flushInterval : Int
  maxEventsPerFile : Int

def defaultDurableEventLogConfig : DurableEventLogConfig where
  logDirectory := "/var/lib/solid-sidecar/events"
  maxLogSize := 100 * 1024 * 1024
  maxTotalSize := 10 * 1024 * 1024 * 1024
  retentionTime := 7 * 24 * hour
  flushInterval := 5 * second
  maxEventsPerFile := 100000

inductive LogError where
  | emptyDirectory
  | maxLogSize
  | maxTotalSize
  | logSizeAboveTotal
  | retentionTime
  | flushInterval
  | maxEventsPerFile
  | unsafeDirectory
  | closed
  | emptyEventID
  | eventIDTooLong
  | invalidPrivacyLevel (level : PrivacyLevel)
  | metadataKeyTooLong (key : Str)
  | metadataValueTooLong (key : Str)
  | sensitiveMetadataKey (key : Str)
  | sensitiveMetadataValue (key : Str)
  | invalidResourceURI (cause : ValidationError)
  | resourceURITooLong
  | invalidContainerURI (cause : ValidationError)
  | containerURITooLong
  | invalidAgent (cause : ValidationError)
  | agentTooLong
  | invalidAgentType (agentType : Str)
  | actionTooLong
  | invalidEventType (eventType : Str)
  | storageFull
  | marshal
  | createFile
  | rotate (cause : LogError)
  | write

def validateDurableLogConfig (config : DurableEventLogConfig) : Except LogError Unit := do
  refuse (config.logDirectory = []) .emptyDirectory
  refuse (config.maxLogSize ≤ 0) .maxLogSize
  refuse (config.maxTotalSize ≤ 0) .maxTotalSize
  refuse (config.maxTotalSize < config.maxLogSize) .logSizeAboveTotal
  refuse (config.retentionTime ≤ 0) .retentionTime
  refuse (config.flushInterval ≤ 0) .flushInterval
  refuse (config.maxEventsPerFile ≤ 0) .maxEventsPerFile
  let cleaned := Filepath.clean config.logDirectory
  refuse (Filepath.isAbs cleaned = true ∧ hasPrefix cleaned "/var" = false ∧
    hasPrefix cleaned "/tmp" = false ∧ hasPrefix cleaned "/opt" = false) .unsafeDirectory

structure LogFileInfo where
  filePath : Str
  fileSize : Int
  deriving DecidableEq, Repr

structure EventIndexEntry where
  filePath : Str
  offset : Int
  size : Int
  sequence : Int
  deriving DecidableEq, Repr

/-- The log behind its lock, and the files of its directory. -/
structure DurableEventLog where
  config : DurableEventLogConfig
  currentFile : Option Str
  currentFilePath : Str
  currentFileSize : Int
  currentEventCount : Int
  logFiles : List LogFileInfo
  sequenceCounter : Int
  index : GoMap Str EventIndexEntry
  closed : Bool
  disk : GoMap Str Str

namespace DurableEventLog

/-- The files that belong to a log. The second suffix that the source tests is longer than what it compares with
it; on the four-byte names `log-` and `evt-`, which no log makes, that comparison panics. -/
def isLogFile (name : Str) : Bool :=
  (hasPrefix name "log-" || hasPrefix name "evt-") && hasSuffix name ".log"

/-- The name of a new file: the next sequence number twice, no count, and the time. -/
def logFileName (sequenceCounter timestamp : Int) : Str :=
  "evt-" ++ Json.ofInt sequenceCounter ++ "-" ++ Json.ofInt sequenceCounter ++ "-0-" ++ Json.ofInt timestamp ++ ".log"

def linesOf (data : Str) : List Str :=
  (split 0x0A data).filter fun line => trimSpace line ≠ []

section Read

variable [Unicode]

/-- The last entry of a file: the file may be one entry, or its last line that can be decoded. -/
def readLastEventFromFile (data : Str) : Option LogEntry :=
  match unmarshalEntry data with
  | some entry => some entry
  | none => (linesOf data).reverse.findSome? unmarshalEntry

/-- The entries of a file; one wrong checksum makes the whole file unreadable. -/
def readEventsFromFile (data : Str) : Option (List LogEntry) :=
  let events := (linesOf data).filterMap unmarshalEntry
  if events.all LogEntry.intact then some events else none

/-- What `readEventFromFile` reports; the last two are `ErrLogCorruption`. -/
inductive ReadError where
  | openFile
  | readAt
  | undecodable
  | checksumMismatch
  deriving DecidableEq, Repr

/-- `ReadAt` of a new buffer, which is filled or the read has failed. -/
def readAt (disk : GoMap Str Str) (filePath : Str) (offset size : Nat) : Except ReadError Str :=
  match disk.lookup filePath with
  | none => .error .openFile
  | some file =>
    if (file.drop offset).length < size then .error .readAt else .ok ((file.drop offset).take size)

def readEventFromFile (disk : GoMap Str Str) (filePath : Str) (offset size : Nat) : Except ReadError LogEntry := do
  let data ← readAt disk filePath offset size
  match unmarshalEntry data with
  | none => .error .undecodable
  | some event => if event.intact then .ok event else .error .checksumMismatch

/-- A small change of what an entry's checksum was computed from gives another checksum, and the entry that it is
read as is reported. -/
theorem altered_reported {entry data} (altered : Altered entry.checksumData data) :
    checksumOf data ≠ generateChecksum entry ∧
      ∀ event : LogEntry, event.checksumData = data → event.checksum = generateChecksum entry →
        ∀ disk filePath offset size line, readAt disk filePath offset size = .ok line →
          unmarshalEntry line = some event →
          readEventFromFile disk filePath offset size = .error .checksumMismatch := by
  have differs : checksumOf data ≠ generateChecksum entry := altered.checksumOf_ne
  refine ⟨differs, ?_⟩
  intro event preimage stored disk filePath offset size line read decoded
  have present : generateChecksum entry ≠ [] := by simp [generateChecksum, checksumOf, hex32]
  have broken : event.intact = false := by
    have other : generateChecksum event ≠ generateChecksum entry := by
      rw [← preimage] at differs
      exact differs
    simp [LogEntry.intact, stored, present, other]
  simp [readEventFromFile, read, bind, Except.bind, decoded, broken]

end Read

def sampleEntry : LogEntry := ⟨"e", [], [], [], .zero, [], [], [], none, 7, .zero, [], []⟩

/-- The event under another id, with the checksum that it was written with. -/
def renamedEntry : LogEntry := { sampleEntry with eventID := "f", checksum := generateChecksum sampleEntry }

/-- Its line in a file is read, decoded and reported. -/
theorem altered_reported_sample :
    letI := Unicode.ascii
    let line := (marshalEntry renamedEntry).getD []
    Altered sampleEntry.checksumData renamedEntry.checksumData ∧
      checksumOf renamedEntry.checksumData ≠ generateChecksum sampleEntry ∧
      readEventFromFile (AList.insert (str "evt.log") line ∅) (str "evt.log") 0 line.length =
        .error .checksumMismatch := by
  let := Unicode.ascii
  intro line
  have altered : Altered sampleEntry.checksumData renamedEntry.checksumData := by
    exact .replaced [] _ (by decide)
  have written : marshalEntry renamedEntry = some line := by decide +kernel
  have valid : renamedEntry.Valid := ⟨by decide, by decide, by decide, by decide, by decide, by decide, by decide,
    nofun, by decide, by decide +kernel⟩
  have decoded : unmarshalEntry (line ++ []) = some renamedEntry :=
    unmarshalEntry_marshalEntry written valid (by decide) (by decide) rfl
  rw [List.append_nil] at decoded
  obtain ⟨differs, reported⟩ := altered_reported altered
  exact ⟨altered, differs, reported renamedEntry rfl rfl _ _ _ _ line (by decide +kernel) decoded⟩

/-- The file that `os.OpenFile` opens for appending; a new one is empty. -/
def openFile (disk : GoMap Str Str) (name : Str) : GoMap Str Str :=
  match disk.lookup name with
  | some _ => disk
  | none => disk.insert name []

def startFile (l : DurableEventLog) (timestamp : Int) (diskFails : Bool) : Except LogError Unit × DurableEventLog :=
  if l.closed then (.error .closed, l)
  else
    let name := logFileName l.sequenceCounter timestamp
    if diskFails then (.error .createFile, { l with currentFile := none, currentFilePath := name })
    else (.ok (), { l with
      currentFile := some name
      currentFilePath := name
      currentFileSize := 0
      currentEventCount := 0
      disk := openFile l.disk name })

def createNewFile (m : Mutex) (timestamp : Int) (diskFails : Bool) : Guarded DurableEventLog (Except LogError Unit) :=
  Guarded.exclusively m <| Guarded.update fun l => l.startFile timestamp diskFails

/-- `rotateFile`, which is called with the lock held and takes it again. -/
def rotateFile (m : Mutex) (timestamp : Int) (diskFails : Bool) : Guarded DurableEventLog (Except LogError Unit) := do
  Guarded.modify fun l => { l with currentFile := none }
  createNewFile m timestamp diskFails

section Open

variable [Unicode]

/-- `loadExistingFiles`: the files in the order of their names, and the greatest number that a last entry has. -/
def loadExistingFiles (l : DurableEventLog) : DurableEventLog :=
  let names := l.disk.sortedKeys.filter isLogFile
  let content (name : Str) : Str := (l.disk.lookup name).getD []
  let lasts := names.filterMap fun name =>
    if content name = [] then none else (readLastEventFromFile (content name)).map LogEntry.sequenceNumber
  { l with
    logFiles := names.map fun name => ⟨name, (content name).length⟩
    sequenceCounter := lasts.foldl max (-1) + 1 }

def blank (config : DurableEventLogConfig) (disk : GoMap Str Str) : DurableEventLog where
  config := config
  currentFile := none
  currentFilePath := []
  currentFileSize := 0
  currentEventCount := 0
  logFiles := []
  sequenceCounter := 0
  index := ∅
  closed := false
  disk := disk

/-- `NewDurableEventLog`. Nobody else has the log yet, so that its lock plays no part. -/
def new (config : DurableEventLogConfig) (disk : GoMap Str Str) (timestamp : Int) : Except LogError DurableEventLog := do
  validateDurableLogConfig config
  match (blank config disk).loadExistingFiles.startFile timestamp false with
  | (.error err, _) => .error err
  | (.ok (), l) => .ok l

end Open

def close (m : Mutex) : Guarded DurableEventLog Unit :=
  Guarded.exclusively m <| Guarded.modify fun l =>
    if l.closed then l else { l with closed := true, currentFile := none, logFiles := [], index := ∅ }

def validAgentTypes : List Str :=
  [policyAgentTypeWebID, policyAgentTypeGroup, policyAgentTypeClass, policyAgentTypeAgent, policyAgentTypePublic,
    policyAgentTypeAuthenticated]

def sensitivePatterns : List Str :=
  ["authorization:", "bearer ", "token:", "password:", "secret:", "api_key",
    "access_token", "refresh_token", "private_key", "session"]

/-- What a call of `WriteEvent` meets: the time, the order of the metadata, the times of its new files and
whether the disk fails. -/
structure WriteContext where
  now : Time
  order : RangeOrder (Str × Str) := default
  rotatedAt : Int := 0
  rotatedAgainAt : Int := 0
  diskFails : Bool := false

section Write

variable [Unicode]

def checkMetadata (member : Str × Str) : Except LogError Unit := do
  refuse (128 < member.1.length) (.metadataKeyTooLong member.1)
  refuse (1024 < member.2.length) (.metadataValueTooLong member.1)
  refuse (isSensitiveMetadataKey member.1 = true) (.sensitiveMetadataKey member.1)
  refuse (sensitivePatterns.any (contains (toLower member.2)) = true) (.sensitiveMetadataValue member.1)

/-- `ValidateEvent`. The level that it sets in its copy of the event is not the one that is written. -/
def validateEvent (order : RangeOrder (Str × Str)) (event : StreamEvent) : Except LogError Unit := do
  refuse (event.eventID = []) .emptyEventID
  refuse (256 < event.eventID.length) .eventIDTooLong
  refuse (event.privacyLevel ≠ [] ∧ event.privacyLevel ∉ validPrivacyLevels) (.invalidPrivacyLevel event.privacyLevel)
  checkAll checkMetadata (order.visit event.members.pairs)
  (validateURI event.resourceURI).mapError .invalidResourceURI
  refuse (2048 < event.resourceURI.length) .resourceURITooLong
  ifPresent (fun s => (validateContainerURI s).mapError .invalidContainerURI) event.containerURI
  refuse (2048 < event.containerURI.length) .containerURITooLong
  ifPresent (fun s => (validateWebID s).mapError .invalidAgent) event.agent
  refuse (512 < event.agent.length) .agentTooLong
  refuse (event.agentType ≠ [] ∧ event.agentType ∉ validAgentTypes) (.invalidAgentType event.agentType)
  refuse (64 < event.action.length) .actionTooLong
  refuse (event.eventType ≠ [] ∧ isValidNotificationEventType event.eventType = false)
    (.invalidEventType event.eventType)

/-- `getTotalSize`. A file that was left by a rotation is not counted. -/
def getTotalSize (l : DurableEventLog) : Int := l.currentFileSize + (l.logFiles.map LogFileInfo.fileSize).sum

def entryFor (l : DurableEventLog) (now : Time) (event : StreamEvent) : LogEntry :=
  let entry : LogEntry :=
    { eventID := event.eventID
      eventType := event.eventType
      resourceURI := event.resourceURI
      containerURI := event.containerURI
      timestamp := event.timestamp
      agent := event.agent
      agentType := event.agentType
      action := event.action
      metadata := event.metadata.map AList.toFinmap
      sequenceNumber := l.sequenceCounter
      streamTimestamp := now
      privacyLevel := event.privacyLevel
      checksum := [] }
  { entry with checksum := generateChecksum entry }

/-- What `WriteEvent` does before it turns to the files: the line that is to be written. -/
def prepare (l : DurableEventLog) (c : WriteContext) (event : StreamEvent) : Except LogError Str := do
  refuse (l.closed = true) .closed
  validateEvent c.order event
  refuse (0 < l.config.maxTotalSize ∧ l.config.maxTotalSize ≤ l.getTotalSize) .storageFull
  let data ← orError .marshal (marshalEntry (l.entryFor c.now event))
  pure (data ++ [0x0A])

def outgrown (line : Str) (l : DurableEventLog) : Bool :=
  0 < l.config.maxLogSize && l.config.maxLogSize < l.currentFileSize + line.length

/-- The current file holds as many events as it may. -/
def crowded (l : DurableEventLog) : Bool :=
  0 < l.config.maxEventsPerFile && l.config.maxEventsPerFile ≤ l.currentEventCount

def rotateIf (m : Mutex) (needed : DurableEventLog → Bool) (timestamp : Int) (diskFails : Bool) :
    Guarded DurableEventLog (Except LogError Unit) := do
  match ← Guarded.read needed with
  | true => rotateFile m timestamp diskFails
  | false => return .ok ()

def append (c : WriteContext) (event : StreamEvent) (line : Str) (l : DurableEventLog) :
    Except LogError Unit × DurableEventLog :=
  match l.currentFile with
  | none => (.error .write, l)
  | some name =>
    if c.diskFails then (.error .write, l)
    else (.ok (), { l with
      currentFileSize := l.currentFileSize + line.length
      currentEventCount := l.currentEventCount + 1
      sequenceCounter := l.sequenceCounter + 1
      index := l.index.insert event.eventID ⟨l.currentFilePath, l.currentFileSize, line.length, l.sequenceCounter⟩
      disk := l.disk.insert name ((l.disk.lookup name).getD [] ++ line) })

/-- Rotate if need be, once for the size and once for the number of events, and append. -/
def writeLine (m : Mutex) (c : WriteContext) (event : StreamEvent) (line : Str) :
    Guarded DurableEventLog (Except LogError Unit) := do
  match ← rotateIf m (outgrown line) c.rotatedAt c.diskFails with
  | .error err => return .error (.rotate err)
  | .ok () =>
    match ← rotateIf m crowded c.rotatedAgainAt c.diskFails with
    | .error err => return .error (.rotate err)
    | .ok () => Guarded.update (append c event line)

def writeEvent (m : Mutex) (c : WriteContext) (event : StreamEvent) : Guarded DurableEventLog (Except LogError Unit) :=
  Guarded.exclusively m do
    match ← Guarded.read fun l => l.prepare c event with
    | .error err => return .error err
    | .ok line => writeLine m c event line

end Write

section ReadSince

variable [Unicode]

/-- The entries of a file of the directory; none of a file that cannot be read. -/
def eventsIn (disk : GoMap Str Str) (name : Str) : List LogEntry :=
  ((disk.lookup name).bind readEventsFromFile).getD []

/-- The entries that a read goes through: those of the listed files, and of the current one. -/
def allEvents (l : DurableEventLog) : List LogEntry :=
  l.logFiles.flatMap (fun file => eventsIn l.disk file.filePath) ++
    if l.currentFilePath = [] then [] else eventsIn l.disk l.currentFilePath

/-- The loops of `ReadEventsSince` stop at the limit. -/
def upToLimit (limit : Int) (events : List LogEntry) : List LogEntry :=
  if 0 < limit then events.take limit.toNat else events

def readEventsSince (m : Mutex) (fromSequence limit : Int) : Guarded DurableEventLog (Except LogError (List LogEntry)) :=
  Guarded.shared m <| Guarded.read fun l =>
    if l.closed then .error .closed
    else .ok (upToLimit limit (l.allEvents.filter fun e => fromSequence ≤ e.sequenceNumber))

end ReadSince

end DurableEventLog

end Runtime
