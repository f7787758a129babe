import SolidSidecar.Runtime.LockDiscipline

/-!
# Runs of the event log

What `ReadEventsSince` gives back after a run of writes and reopenings, with the lock left out and a disk that does
not fail. A `Journal` is the log together with the entries that were written. The files that a read goes through are
the ones that were listed when the log was opened, and the current one. `rotateFile` does not list the file that it
leaves, and a reopening lists the files in the order of their names, which is that of their numbers only as long as
the numbers have equally many digits.
-/

namespace Runtime
open Go Run Json List Guarded Strings

/-- An entry that can be read back from the line that is written for it. -/
structure LogEntry.Recorded (e : LogEntry) : Prop where
  valid : e.Valid
  low : -2 ^ 63 ≤ e.sequenceNumber
  high : e.sequenceNumber < 2 ^ 63
  intact : e.intact = true
  written : ∃ text, marshalEntry e = some text

namespace DurableEventLog

def lineOf (e : LogEntry) : Str := (marshalEntry e).getD [] ++ [0x0A]

/-- What a file holds after some entries were written to it. -/
def fileOf (entries : List LogEntry) : Str := entries.flatMap lineOf

variable {entries : List LogEntry} {e : LogEntry}

theorem fileOf_ne_nil (some : entries ≠ []) : fileOf entries ≠ [] := by
  cases entries with
  | nil => exact absurd rfl some
  | cons e rest => simp [fileOf, lineOf]

theorem linesOf_fileOf (recorded : ∀ e ∈ entries, e.Recorded) :
    linesOf (fileOf entries) = entries.map fun e => (marshalEntry e).getD [] := by
  induction entries with
  | nil => decide
  | cons e rest ih =>
    obtain ⟨text, written⟩ := (recorded e mem_cons_self).written
    obtain ⟨⟨_, starts⟩, trimmed⟩ := marshalEntry_object written
    have dark : trimSpace text ≠ [] := by
      rw [trimmed, starts]
      exact cons_ne_nil _ _
    have whole : fileOf (e :: rest) = text ++ 0x0A :: fileOf rest := by simp [fileOf, lineOf, written]
    have later := ih fun e mem => recorded e (mem_cons_of_mem _ mem)
    unfold linesOf at later ⊢
    rw [whole, split_append_cons, split_of_notMem (newline_notMem_marshalEntry written),
      singleton_append, filter_cons_of_pos (by simpa using dark), later, map_cons, written]
    rfl

section

variable [Unicode]

theorem unmarshalEntry_of_recorded {e} (recorded : e.Recorded) {tail} (blank : tail.all isSpace = true) :
    unmarshalEntry ((marshalEntry e).getD [] ++ tail) = some e := by
  obtain ⟨_, written⟩ := recorded.written
  rw [written]
  exact unmarshalEntry_marshalEntry written recorded.valid recorded.low recorded.high blank

theorem readEventsFromFile_fileOf {entries} (recorded : ∀ e ∈ entries, e.Recorded) :
    readEventsFromFile (fileOf entries) = some entries := by
  have decoded : (linesOf (fileOf entries)).filterMap unmarshalEntry = entries := by
    rw [linesOf_fileOf recorded, filterMap_map]
    calc entries.filterMap (unmarshalEntry ∘ fun e => (marshalEntry e).getD [])
        = entries.filterMap some := by
          apply filterMap_congr
          intro e mem
          have read := @unmarshalEntry_of_recorded _ e (recorded e mem) [] rfl
          rwa [append_nil] at read
      _ = entries := filterMap_some
  unfold readEventsFromFile
  rw [decoded]
  exact if_pos (all_eq_true.mpr fun e mem => (recorded e mem).intact)

theorem readLastEventFromFile_fileOf {entries} (recorded : ∀ e ∈ entries, e.Recorded)
    (some : entries ≠ []) : readLastEventFromFile (fileOf entries) = entries.getLast? := by
  have byLine : (linesOf (fileOf entries)).reverse.findSome? unmarshalEntry = entries.getLast? := by
    obtain ⟨_, last, rfl⟩ := (eq_nil_or_concat entries).resolve_left some
    have read := @unmarshalEntry_of_recorded _ last (recorded last (by simp)) [] rfl
    rw [append_nil] at read
    rw [linesOf_fileOf recorded, concat_eq_append, map_append, reverse_append, map_singleton,
      reverse_singleton, singleton_append, findSome?_cons, read, getLast?_append]
    rfl
  unfold readLastEventFromFile
  -- one line is a document, more than one are not
  match entries, some with
  | [e], _ =>
    have whole : fileOf [e] = (marshalEntry e).getD [] ++ [0x0A] := by simp [fileOf, lineOf]
    rw [whole, unmarshalEntry_of_recorded (recorded e mem_cons_self) (by decide)]
    rfl
  | e :: e' :: rest, _ =>
    obtain ⟨text, written⟩ := (recorded e mem_cons_self).written
    obtain ⟨_, written'⟩ := (recorded e' (by simp)).written
    obtain ⟨⟨inner, starts⟩, -⟩ := marshalEntry_object written'
    have whole : fileOf (e :: e' :: rest) = text ++ 0x0A :: 0x7B :: (inner ++ 0x0A :: fileOf rest) := by
      simp [fileOf, lineOf, written, written', starts]
    have more : skipSpace (0x0A :: 0x7B :: (inner ++ 0x0A :: fileOf rest)) ≠ [] := by
      simp [skipSpace, isSpace]
    have fails : unmarshalEntry (fileOf (e :: e' :: rest)) = none := by
      rw [whole]
      exact unmarshalEntry_trailing written (ends_cons _ (by decide)) more
    rw [fails]
    exact byLine

end

theorem isLogFile_logFileName (a t : Int) : isLogFile (logFileName a t) = true := by
  have starts : hasPrefix (logFileName a t) "evt-" = true := by
    exact isPrefixOf_iff_prefix.mpr (prefix_append _ _)
  have ends : hasSuffix (logFileName a t) ".log" = true :=
    isSuffixOf_iff_suffix.mpr (suffix_append _ _)
  simp [isLogFile, starts, ends]

theorem ne_nil_of_isLogFile {name} (log : isLogFile name = true) : name ≠ [] := by
  rintro rfl
  exact absurd log (by decide)

variable (disk : GoMap Str Str)

theorem lookup_openFile (name k : Str) :
    (openFile disk name).lookup k = if k = name then some ((disk.lookup name).getD []) else disk.lookup k := by
  unfold openFile
  cases found : disk.lookup name with
  | some data =>
    by_cases here : k = name
    · rw [if_pos here, here]
      exact found
    · rw [if_neg here]
  | none =>
    rw [GoMap.lookup_insert_eq]
    rfl

theorem content_openFile (name k : Str) : ((openFile disk name).lookup k).getD [] = (disk.lookup k).getD [] := by
  rw [lookup_openFile]
  split_ifs with here
  · rw [here]
    rfl
  · rfl

def started (l : DurableEventLog) (name : Str) : DurableEventLog :=
  { l with
    currentFile := some name
    currentFilePath := name
    currentFileSize := 0
    currentEventCount := 0
    disk := openFile l.disk name }

variable {l : DurableEventLog}

theorem startFile_eq (isOpen : l.closed = false) (timestamp : Int) :
    l.startFile timestamp false = (.ok (), l.started (logFileName l.sequenceCounter timestamp)) := by
  unfold startFile
  rw [if_neg (by simp [isOpen])]
  rfl

theorem crowded_started (l : DurableEventLog) (name : Str) : crowded (l.started name) = false := by
  unfold crowded started
  simp only [Bool.and_eq_false_iff, decide_eq_false_iff_not]
  omega

theorem rotateFile_eq (isOpen : l.closed = false) (timestamp : Int) (held : RWLock) :
    rotateFile .ignored timestamp false held l =
      some (.ok (), held, l.started (logFileName l.sequenceCounter timestamp)) := by
  have turned := @startFile_eq { l with currentFile := none } isOpen timestamp
  unfold rotateFile createNewFile
  rw [bind_of_some (modify_apply _ held l), exclusively_ignored, update_apply, turned]
  rfl

theorem rotateIf_eq {needed} (isOpen : l.closed = false) (full : needed l = true) (timestamp : Int) (held : RWLock) :
    rotateIf .ignored needed timestamp false held l =
      some (.ok (), held, l.started (logFileName l.sequenceCounter timestamp)) := by
  unfold rotateIf
  rw [bind_of_some (read_apply _ _ l), full]
  exact rotateFile_eq isOpen _ held

/-- The log after a line was put at the end of the current file. -/
def grown (l : DurableEventLog) (event : StreamEvent) (line : Str) : DurableEventLog :=
  { l with
    currentFileSize := l.currentFileSize + line.length
    currentEventCount := l.currentEventCount + 1
    sequenceCounter := l.sequenceCounter + 1
    index := l.index.insert event.eventID ⟨l.currentFilePath, l.currentFileSize, line.length, l.sequenceCounter⟩
    disk := l.disk.insert l.currentFilePath ((l.disk.lookup l.currentFilePath).getD [] ++ line) }

theorem update_append (current : l.currentFile = some l.currentFilePath) {c}
    (works : c.diskFails = false) (event : StreamEvent) (line : Str) (held : RWLock) :
    update (append c event line) held l = some (.ok (), held, l.grown event line) := by
  simp [append, grown, current, works]

/-- The log that a line is written to: it may have turned to another file before. -/
inductive Settles (rotatedAt rotatedAgainAt : Int) (line : Str) (l : DurableEventLog) : DurableEventLog → Prop
  | long : outgrown line l = true →
      Settles rotatedAt rotatedAgainAt line l (l.started (logFileName l.sequenceCounter rotatedAt))
  | full : crowded l = true →
      Settles rotatedAt rotatedAgainAt line l (l.started (logFileName l.sequenceCounter rotatedAgainAt))
  | stays : Settles rotatedAt rotatedAgainAt line l l

theorem writeLine_settles (isOpen : l.closed = false) (current : l.currentFile = some l.currentFilePath)
    {c} (works : c.diskFails = false) (event : StreamEvent) (line : Str) (held : RWLock) :
    ∃ l', Settles c.rotatedAt c.rotatedAgainAt line l l' ∧
      writeLine .ignored c event line held l = some (.ok (), held, l'.grown event line) := by
  cases long : outgrown line l with
  | true =>
    refine ⟨_, .long long, ?_⟩
    unfold writeLine
    rw [works, bind_of_some (rotateIf_eq isOpen long _ held)]
    exact (bind_of_some (rotateIf_of_not (crowded_started l _) _ _ _ _) _).trans (update_append rfl works ..)
  | false =>
    unfold writeLine
    rw [works, bind_of_some (rotateIf_of_not long _ _ _ _)]
    cases full : crowded l with
    | true =>
      exact ⟨_, .full full, (bind_of_some (rotateIf_eq isOpen full _ held) _).trans (update_append rfl works ..)⟩
    | false =>
      exact ⟨l, .stays, (bind_of_some (rotateIf_of_not full _ _ _ _) _).trans (update_append current works ..)⟩

/-- The entry for an event is one that can be read back. -/
theorem recorded_entryFor {now event} (valid : (l.entryFor now event).Valid)
    (natural : 0 ≤ l.sequenceCounter) (small : l.sequenceCounter < 2 ^ 63) {text}
    (marshalled : marshalEntry (l.entryFor now event) = some text) : (l.entryFor now event).Recorded where
  valid := valid
  low := natural.trans' (by decide)
  high := small
  intact := by simp [LogEntry.intact, entryFor, generateChecksum, LogEntry.checksumData]
  written := ⟨text, marshalled⟩

/-- The log files of a directory, as `os.ReadDir` lists them. -/
def logNames (disk : GoMap Str Str) : List Str := disk.sortedKeys.filter isLogFile

theorem mem_logNames {disk name} :
    name ∈ logNames disk ↔ (disk.lookup name).isSome = true ∧ isLogFile name = true := by
  rw [logNames, mem_filter, GoMap.mem_sortedKeys]

theorem foldl_max_le {l : List Int} {a b} : l.foldl max a ≤ b ↔ a ≤ b ∧ ∀ x ∈ l, x ≤ b := by
  induction l generalizing a with
  | nil => simp
  | cons x l ih => rw [foldl_cons, ih, max_le_iff, forall_mem_cons, and_assoc]

/-- Of entries in order, the last has the greatest number. -/
theorem le_last (ordered : entries.Pairwise fun e e' => e.sequenceNumber < e'.sequenceNumber)
    {last} (is : entries.getLast? = some last) (mem : e ∈ entries) :
    e.sequenceNumber ≤ last.sequenceNumber := by
  obtain ⟨_, rfl⟩ := getLast?_eq_some_iff.mp is
  rcases mem_append.mp mem with before | here
  · exact (pairwise_append.mp ordered).2.2 e before last mem_cons_self |>.le
  · rw [mem_singleton.mp here]

def Numbered (entries : List LogEntry) : Prop :=
  entries.map LogEntry.sequenceNumber = (List.range entries.length).map Nat.cast

section

variable (numbered : Numbered entries)

include numbered

theorem Numbered.ordered : entries.Pairwise fun e e' => e.sequenceNumber < e'.sequenceNumber := by
  rw [← pairwise_map, numbered, pairwise_map]
  exact pairwise_lt_range.imp Int.ofNat_lt.mpr

theorem Numbered.bounds (mem : e ∈ entries) : 0 ≤ e.sequenceNumber ∧ e.sequenceNumber < entries.length := by
  have inside : e.sequenceNumber ∈ (range entries.length).map Nat.cast := by
    rw [← numbered]
    exact mem_map_of_mem mem
  obtain ⟨_, small, _⟩ := mem_map.mp inside
  have := mem_range.mp small
  omega

theorem Numbered.last (some : entries ≠ []) : ∃ e ∈ entries, e.sequenceNumber = entries.length - 1 := by
  have positive := length_pos_iff.mpr some
  have inside : ((entries.length - 1 : Nat) : Int) ∈ entries.map LogEntry.sequenceNumber := by
    rw [numbered]
    exact mem_map_of_mem (mem_range.mpr (by omega))
  obtain ⟨e, mem, _⟩ := mem_map.mp inside
  exact ⟨e, mem, by omega⟩

theorem Numbered.snoc (next : e.sequenceNumber = entries.length) : Numbered (entries ++ [e]) := by
  unfold Numbered at numbered ⊢
  rw [map_append, numbered, length_append, length_singleton, range_succ, map_append,
    map_singleton, map_singleton, next]

end

section

variable [Unicode]

def ValidConfig : Type := { config : DurableEventLogConfig // validateDurableLogConfig config = .ok () }

def opened (config : ValidConfig) (disk : GoMap Str Str) (timestamp : Int) : DurableEventLog :=
  ((blank config.1 disk).loadExistingFiles.startFile timestamp false).2

variable (config : ValidConfig)

theorem new_eq_opened (disk : GoMap Str Str) (timestamp : Int) :
    new config.1 disk timestamp = .ok (opened config disk timestamp) := by
  unfold new
  rw [config.2]
  rfl

/-- The log, and the entries that were written to its directory. -/
structure Journal where
  log : DurableEventLog
  written : List LogEntry

/-- A call of `WriteEvent`, or `Close` and `NewDurableEventLog` on the same directory. -/
inductive LogStep where
  | write (c : WriteContext) (event : StreamEvent)
  | reopen (config : ValidConfig) (timestamp : Int)

namespace Journal

/-- The journal after a call that was to write an entry. -/
def after (j : Journal) (entry : LogEntry) : Option (Except LogError Unit × RWLock × DurableEventLog) → Journal
  | some (.ok (), _, l) => ⟨l, j.written ++ [entry]⟩
  | some (.error _, _, l) => ⟨l, j.written⟩
  | none => j

def write (j : Journal) (c : WriteContext) (event : StreamEvent) : Journal :=
  j.after (j.log.entryFor c.now event) (writeEvent .ignored { c with diskFails := false } event .free j.log)

def reopen (j : Journal) (config : ValidConfig) (timestamp : Int) : Journal :=
  match close .ignored .free j.log with
  | none => j
  | some (_, _, closed) =>
    match new config.1 closed.disk timestamp with
    | .ok l => ⟨l, j.written⟩
    | .error _ => ⟨closed, j.written⟩

def step (j : Journal) : LogStep → Journal × Unit
  | .write c event => (j.write c event, ())
  | .reopen config timestamp => (j.reopen config timestamp, ())

def start (config : ValidConfig) (disk : GoMap Str Str) (timestamp : Int) : Journal :=
  ⟨opened config disk timestamp, []⟩

/-- Reads give exactly what was written, in order: all of it from a number on, or the first of it. -/
structure Complete (j : Journal) : Prop where
  ordered : j.written.Pairwise fun e e' => e.sequenceNumber < e'.sequenceNumber
  all : ∀ s, readEventsSince .ignored s 0 .free j.log =
    some (.ok (j.written.filter fun e => s ≤ e.sequenceNumber), .free, j.log)
  first : ∀ s (n : Nat), 0 < n → readEventsSince .ignored s n .free j.log =
    some (.ok ((j.written.filter fun e => s ≤ e.sequenceNumber).take n), .free, j.log)

theorem reopen_eq (j : Journal) (config : ValidConfig) (timestamp : Int) :
    j.reopen config timestamp = ⟨opened config j.log.disk timestamp, j.written⟩ := by
  have closing : close .ignored .free j.log = some ((), .free, if j.log.closed then j.log
        else { j.log with closed := true, currentFile := none, logFiles := [], index := ∅ }) := by
    rfl
  have same : (if j.log.closed then j.log
      else { j.log with closed := true, currentFile := none, logFiles := [], index := ∅ }).disk = j.log.disk := by
    split_ifs <;> rfl
  unfold reopen
  simp [closing, same, new_eq_opened]

end Journal

def files (l : DurableEventLog) : List Str := l.logFiles.map LogFileInfo.filePath ++ [l.currentFilePath]

/-- Every log file holds lines that were written, under a name that carries the number of the first. -/
structure Stored (disk : GoMap Str Str) : Prop where
  content : ∀ name data, isLogFile name = true → disk.lookup name = some data → data = fileOf (eventsIn disk name)
  recorded : ∀ name, isLogFile name = true → ∀ e ∈ eventsIn disk name, e.Recorded
  named : ∀ name e rest, isLogFile name = true → eventsIn disk name = e :: rest →
    ∃ t, name = logFileName e.sequenceNumber t

theorem eventsIn_insert (name data k : Str) :
    eventsIn (disk.insert name data) k = if k = name then (readEventsFromFile data).getD [] else eventsIn disk k := by
  unfold eventsIn
  rw [GoMap.lookup_insert_eq]
  split_ifs <;> rfl

theorem eventsIn_eq (name : Str) :
    eventsIn disk name = (readEventsFromFile ((disk.lookup name).getD [])).getD [] := by
  unfold eventsIn
  cases disk.lookup name <;> rfl

theorem eventsIn_openFile (name : Str) : eventsIn (openFile disk name) = eventsIn disk := by
  funext k
  rw [eventsIn_eq, eventsIn_eq, content_openFile]

variable {disk : GoMap Str Str} {name : Str} {j : Journal} {c : WriteContext} {event : StreamEvent}

/-- The bytes of a log file, a missing one included. -/
theorem Stored.bytes (stored : Stored disk) (log : isLogFile name = true) :
    (disk.lookup name).getD [] = fileOf (eventsIn disk name) := by
  cases found : disk.lookup name with
  | some data => exact stored.content name data log found
  | none =>
    unfold eventsIn
    rw [found]
    rfl

theorem Stored.openFile (stored : Stored disk) (name : Str) : Stored (openFile disk name) := by
  refine ⟨fun k data log found => ?_, ?_, ?_⟩
  · rw [eventsIn_openFile, ← stored.bytes log, ← content_openFile disk name, found]
    rfl
  · rw [eventsIn_openFile]
    exact stored.recorded
  · rw [eventsIn_openFile]
    exact stored.named

/-- The entries of the files after one more was written to a file. -/
theorem Stored.eventsIn_append (stored : Stored disk)
    (log : isLogFile name = true) {e} (recorded : e.Recorded) (k : Str) :
    eventsIn (disk.insert name (fileOf (eventsIn disk name ++ [e]))) k =
      if k = name then eventsIn disk name ++ [e] else eventsIn disk k := by
  have each : ∀ e' ∈ eventsIn disk name ++ [e], e'.Recorded := by
    intro e' mem
    rcases mem_append.mp mem with old | new
    · exact stored.recorded name log e' old
    · rw [mem_singleton.mp new]
      exact recorded
  rw [eventsIn_insert, readEventsFromFile_fileOf each]
  rfl

/-- The first entry of a file has the number that the file was named for. -/
theorem Stored.append (stored : Stored disk) (log : isLogFile name = true) {e} (recorded : e.Recorded)
    (first : eventsIn disk name = [] → ∃ t, name = logFileName e.sequenceNumber t) :
    Stored (disk.insert name (fileOf (eventsIn disk name ++ [e]))) := by
  have events := stored.eventsIn_append log recorded
  refine ⟨fun k data log found => ?_, fun k log e' mem => ?_, fun k e' rest log start => ?_⟩
  · rw [GoMap.lookup_insert_eq] at found
    rw [events]
    split_ifs at found ⊢
    · cases found
      rfl
    · exact stored.content k data log found
  · rw [events] at mem
    split_ifs at mem
    · rcases mem_append.mp mem with old | new
      · exact stored.recorded _ ‹_› e' old
      · rw [mem_singleton.mp new]
        exact recorded
    · exact stored.recorded k log e' mem
  · rw [events] at start
    split_ifs at start with same
    · rw [same]
      cases before : eventsIn disk name with
      | nil =>
        rw [before] at start
        cases start
        exact first before
      | cons e₀ later =>
        rw [before] at start
        cases start
        exact stored.named _ _ later ‹_› before
    · exact stored.named k e' rest log start

structure Journal.Sound (j : Journal) : Prop where
  isOpen : j.log.closed = false
  current : j.log.currentFile = some j.log.currentFilePath
  distinct : j.log.files.Nodup
  logs : ∀ name ∈ j.log.files, isLogFile name = true
  stored : Stored j.log.disk
  covered : ∀ name, isLogFile name = true → eventsIn j.log.disk name ≠ [] → name ∈ j.log.files
  fresh : eventsIn j.log.disk j.log.currentFilePath = [] →
    ∃ t, j.log.currentFilePath = logFileName j.log.sequenceCounter t
  counted : j.log.currentEventCount = (eventsIn j.log.disk j.log.currentFilePath).length
  read : j.log.files.flatMap (eventsIn j.log.disk) = j.written
  numbered : Numbered j.written
  counter : j.log.sequenceCounter = j.written.length

variable {l : DurableEventLog}

theorem allEvents_eq (log : isLogFile l.currentFilePath = true) :
    l.allEvents = l.files.flatMap (eventsIn l.disk) := by
  unfold allEvents files
  rw [if_neg (ne_nil_of_isLogFile log), flatMap_append, flatMap_singleton, flatMap_map]

theorem Journal.Sound.complete (sound : j.Sound) : j.Complete := by
  have current : isLogFile j.log.currentFilePath = true :=
    sound.logs _ (mem_append_right _ mem_cons_self)
  have reads (s n : Int) : readEventsSince .ignored s n .free j.log =
      some (.ok (upToLimit n (j.written.filter fun e => s ≤ e.sequenceNumber)), .free, j.log) := by
    unfold readEventsSince
    rw [shared_ignored, read_apply, sound.isOpen, allEvents_eq current, sound.read]
    rfl
  refine ⟨sound.numbered.ordered, fun s => reads s 0, fun s n positive => ?_⟩
  rw [reads, upToLimit, if_pos (by omega)]
  rfl

theorem Journal.sound_started {w listed} (isOpen : l.closed = false)
    (names : l.logFiles.map LogFileInfo.filePath = listed) (distinct : listed.Nodup)
    (logs : ∀ name ∈ listed, isLogFile name = true) (stored : Stored l.disk)
    (covered : ∀ name, isLogFile name = true → eventsIn l.disk name ≠ [] → name ∈ listed)
    (read : listed.flatMap (eventsIn l.disk) = w) (numbered : Numbered w) (counter : l.sequenceCounter = w.length)
    {t} (unlisted : logFileName l.sequenceCounter t ∉ listed) :
    Sound ⟨l.started (logFileName l.sequenceCounter t), w⟩ := by
  subst names
  have fresh : eventsIn l.disk (logFileName l.sequenceCounter t) = [] := by
    by_contra some
    exact unlisted (covered _ (isLogFile_logFileName _ _) some)
  have same : eventsIn (l.started (logFileName l.sequenceCounter t)).disk = eventsIn l.disk := eventsIn_openFile _ _
  exact
    { isOpen := isOpen
      current := rfl
      distinct := nodup_append.mpr ⟨distinct, nodup_singleton _, by
        rintro a mem _ last rfl
        have new : a = logFileName l.sequenceCounter t := mem_singleton.mp last
        exact unlisted (new ▸ mem)⟩
      logs := by
        intro name mem
        rcases mem_append.mp mem with listed | current
        · exact logs name listed
        · rw [mem_singleton.mp current]
          exact isLogFile_logFileName _ _
      stored := stored.openFile _
      covered := fun name log some => mem_append_left _ (covered name log (same ▸ some))
      fresh := fun _ => ⟨t, rfl⟩
      counted := by
        rw [same]
        exact (congrArg (fun es => (es.length : Int)) fresh).symm
      read := by
        rw [same]
        simp only [files, started, flatMap_append, flatMap_singleton, fresh, append_nil]
        exact read
      numbered := numbered
      counter := counter }

namespace Journal.Sound

variable {l : DurableEventLog} {w : List LogEntry}

theorem current_log (sound : Sound ⟨l, w⟩) : isLogFile l.currentFilePath = true :=
  sound.logs _ (mem_append_right _ mem_cons_self)

/-- An empty file is left for another one that is not listed. -/
theorem rotated (sound : Sound ⟨l, w⟩) (empty : l.currentEventCount = 0) {timestamp}
    (unlisted : logFileName l.sequenceCounter timestamp ∉ l.logFiles.map LogFileInfo.filePath) :
    Sound ⟨l.started (logFileName l.sequenceCounter timestamp), w⟩ := by
  have nothing : eventsIn l.disk l.currentFilePath = [] := by
    have := sound.counted
    exact length_eq_zero_iff.mp (by simp only at this; omega)
  have read := sound.read
  simp only [files, flatMap_append, flatMap_singleton, nothing, append_nil] at read
  refine sound_started sound.isOpen rfl (nodup_append.mp sound.distinct).1
    (fun name listed => sound.logs name (mem_append_left _ listed)) sound.stored (fun name log some => ?_) read
    sound.numbered sound.counter unlisted
  rcases mem_append.mp (sound.covered name log some) with listed | current
  · exact listed
  · rw [mem_singleton.mp current] at some
    exact absurd nothing some

theorem grown (sound : Sound ⟨l, w⟩) (recorded : e.Recorded) (number : e.sequenceNumber = l.sequenceCounter)
    (event : StreamEvent) : Sound ⟨l.grown event (lineOf e), w ++ [e]⟩ := by
  let es := eventsIn l.disk l.currentFilePath
  let disk := l.disk.insert l.currentFilePath (fileOf (es ++ [e]))
  have whole : (l.disk.lookup l.currentFilePath).getD [] ++ lineOf e = fileOf (es ++ [e]) := by
    rw [sound.stored.bytes sound.current_log]
    simp [fileOf, es]
  have events := sound.stored.eventsIn_append sound.current_log recorded
  have here : eventsIn disk l.currentFilePath = es ++ [e] := (events _).trans (if_pos rfl)
  have elsewhere {k} (other : k ≠ l.currentFilePath) : eventsIn disk k = eventsIn l.disk k :=
    (events k).trans (if_neg other)
  have counter : l.sequenceCounter = w.length := sound.counter
  have stored : Stored disk := sound.stored.append sound.current_log recorded (number ▸ sound.fresh)
  unfold DurableEventLog.grown
  rw [whole]
  exact
    { isOpen := sound.isOpen
      current := sound.current
      distinct := sound.distinct
      logs := sound.logs
      stored := stored
      covered := by
        intro name log some
        by_cases same : name = l.currentFilePath
        · exact mem_append_right _ (mem_singleton.mpr same)
        · exact sound.covered name log (elsewhere same ▸ some)
      fresh := fun nothing => absurd (here.symm.trans nothing) (by simp)
      counted := by
        have before : l.currentEventCount = es.length := sound.counted
        rw [here, before]
        simp
      read := by
        obtain ⟨-, -, apart⟩ := nodup_append.mp sound.distinct
        have before : l.files.flatMap _ = w := sound.read
        have old : (l.logFiles.map LogFileInfo.filePath).flatMap (eventsIn disk) =
            (l.logFiles.map LogFileInfo.filePath).flatMap _ :=
          flatMap_congr fun k mem => elsewhere (apart k mem _ mem_cons_self)
        rw [files, flatMap_append, flatMap_singleton] at before ⊢
        rw [old, here, ← append_assoc, before]
      numbered := sound.numbered.snoc (number.trans counter)
      counter := by
        rw [counter]
        simp }

end Journal.Sound

theorem prepare_eq_ok {line} (prepared : l.prepare c event = .ok line) :
    ∃ text, marshalEntry (l.entryFor c.now event) = some text ∧ line = lineOf (l.entryFor c.now event) := by
  unfold prepare at prepared
  rw [then_eq_ok, then_eq_ok, then_eq_ok, bind_eq_ok] at prepared
  obtain ⟨-, -, -, text, marshalled, is⟩ := prepared
  rw [orError_eq_ok] at marshalled
  refine ⟨text, marshalled, ?_⟩
  rw [lineOf, marshalled]
  exact (Except.ok.inj is).symm

/-- A write is refused, or adds the line of its entry. -/
theorem Journal.write_cases (isOpen : j.log.closed = false) (current : j.log.currentFile = some j.log.currentFilePath)
    (c : WriteContext) (event : StreamEvent) : let e := j.log.entryFor c.now event
    j.write c event = j ∨ ∃ l', Settles c.rotatedAt c.rotatedAgainAt (lineOf e) j.log l' ∧
      j.log.prepare c event = .ok (lineOf e) ∧ (∃ text, marshalEntry e = some text) ∧
      j.write c event = ⟨l'.grown event (lineOf e), j.written ++ [e]⟩ := by
  let c' : WriteContext := { c with diskFails := false }
  unfold write writeEvent
  rw [exclusively_ignored, bind_of_some (read_apply _ _ j.log)]
  cases prepared : j.log.prepare c' event with
  | error err => exact .inl rfl
  | ok line =>
    obtain ⟨text, marshalled, rfl⟩ := prepare_eq_ok prepared
    obtain ⟨l', settles, writes⟩ := @writeLine_settles _ isOpen current c' rfl event (lineOf _) .free
    exact .inr ⟨l', settles, prepared, ⟨text, marshalled⟩, congrArg _ writes⟩

/-- The names of the files that are not empty are in the order of the numbers that they carry. -/
def NamesInOrder (disk : GoMap Str Str) : Prop :=
  ∀ a t b u, (disk.lookup (logFileName a t)).getD [] ≠ [] → (disk.lookup (logFileName b u)).getD [] ≠ [] →
    a < b → Str.less (logFileName a t) (logFileName b u) = true

/-- Steps that lose nothing. A write has texts in UTF-8 and leaves no file that holds events; a reopening finds the
names of the files in order. A new file has a new name. -/
def Fits (l : DurableEventLog) : LogStep → Prop
  | .write c event => ∀ line, l.prepare c event = .ok line →
      (l.entryFor c.now event).Valid ∧ l.sequenceCounter < 2 ^ 63 ∧ crowded l = false ∧
      (outgrown line l = true → l.currentEventCount = 0 ∧
        logFileName l.sequenceCounter c.rotatedAt ∉ l.logFiles.map LogFileInfo.filePath)
  | .reopen _ timestamp =>
      NamesInOrder l.disk ∧ l.disk.lookup (logFileName l.sequenceCounter timestamp) = none

theorem Journal.Sound.write (sound : j.Sound) (fits : Fits j.log (.write c event)) : (j.write c event).Sound := by
  rcases j.write_cases sound.isOpen sound.current c event with same | ⟨_, settles, prepared, ⟨_, marshalled⟩, is⟩
  · rw [same]
    exact sound
  · obtain ⟨valid, small, fewer, room⟩ := fits _ prepared
    have recorded := recorded_entryFor valid (sound.counter ▸ Int.natCast_nonneg _) small marshalled
    rw [is]
    cases settles with
    | stays => exact sound.grown recorded rfl event
    | full full => exact absurd full (by simp [fewer])
    | long long =>
      obtain ⟨empty, unlisted⟩ := room long
      exact (sound.rotated empty unlisted).grown recorded rfl event

theorem isSome_of_events (some : eventsIn disk name ≠ []) : (disk.lookup name).isSome = true := by
  unfold eventsIn at some
  cases found : disk.lookup name with
  | some data => rfl
  | none =>
    rw [found] at some
    exact absurd rfl some

def lastNumber (disk : GoMap Str Str) (name : Str) : Option Int :=
  if (disk.lookup name).getD [] = [] then none
  else (readLastEventFromFile ((disk.lookup name).getD [])).map LogEntry.sequenceNumber

/-- The number that a log goes on with when it is opened. -/
def nextNumber (disk : GoMap Str Str) : Int :=
  (blank defaultDurableEventLogConfig disk).loadExistingFiles.sequenceCounter

theorem nextNumber_le {n} : nextNumber disk ≤ n ↔
    0 ≤ n ∧ ∀ name x, isLogFile name = true → lastNumber disk name = some x → x < n := by
  have whole : nextNumber disk = ((logNames disk).filterMap _).foldl max (-1) + 1 := rfl
  rw [whole, ← le_sub_iff_add_le, foldl_max_le]
  refine and_congr (by omega) ⟨fun every name x log last => ?_, fun every x mem => ?_⟩
  · have found : (disk.lookup name).isSome = true := by
      cases missing : disk.lookup name <;> simp_all [lastNumber]
    have := every x (mem_filterMap.mpr ⟨name, mem_logNames.mpr ⟨found, log⟩, last⟩)
    omega
  · obtain ⟨name, listed, last⟩ := mem_filterMap.mp mem
    have := every name x (mem_logNames.mp listed).2 last
    omega

theorem Stored.lastNumber (stored : Stored disk) (log : isLogFile name = true) :
    lastNumber disk name = (eventsIn disk name).getLast?.map LogEntry.sequenceNumber := by
  rw [DurableEventLog.lastNumber, stored.bytes log]
  by_cases empty : eventsIn disk name = []
  · simp [empty, fileOf]
  · rw [if_neg (fileOf_ne_nil empty), readLastEventFromFile_fileOf (stored.recorded name log) empty]

/-- The number that `loadExistingFiles` goes on with is the next one. -/
theorem loadExistingFiles_counter {w} (stored : Stored disk)
    (read : (logNames disk).flatMap (eventsIn disk) = w) (numbered : Numbered w) : nextNumber disk = w.length := by
  apply le_antisymm
  · refine nextNumber_le.mpr ⟨Int.natCast_nonneg _, fun name x log last => ?_⟩
    rw [stored.lastNumber log] at last
    obtain ⟨e, is, rfl⟩ := Option.map_eq_some_iff.mp last
    have inside := mem_of_getLast? is
    have listed := mem_logNames.mpr ⟨isSome_of_events (ne_nil_of_mem inside), log⟩
    exact (numbered.bounds (read ▸ mem_flatMap.mpr ⟨name, listed, inside⟩)).2
  · obtain ⟨natural, above⟩ := nextNumber_le.mp (le_refl _)
    by_cases none : w = []
    · rw [none]
      exact natural
    · obtain ⟨e, mem, is⟩ := numbered.last none
      obtain ⟨name, listed, inside⟩ := mem_flatMap.mp (read.symm ▸ mem)
      have log := (mem_logNames.mp listed).2
      have last := getLast?_eq_some_getLast (ne_nil_of_mem inside)
      have most := le_last ((pairwise_flatMap.mp (read.symm ▸ numbered.ordered)).1 name listed) last inside
      have := above name _ log (by rw [stored.lastNumber log, last]; rfl)
      omega

/-- A log that is opened reads what its files hold, in the order of their names. -/
theorem Journal.sound_opened {w} (stored : Stored disk)
    (read : (logNames disk).flatMap (eventsIn disk) = w) (numbered : Numbered w) (config : ValidConfig) {timestamp}
    (absent : disk.lookup (logFileName w.length timestamp) = none) : Sound ⟨opened config disk timestamp, w⟩ := by
  have counter : (blank config.1 disk).loadExistingFiles.sequenceCounter = w.length :=
    loadExistingFiles_counter stored read numbered
  have names : (blank config.1 disk).loadExistingFiles.logFiles.map LogFileInfo.filePath = logNames disk := by
    change ((logNames disk).map fun n => (⟨n, ((disk.lookup n).getD []).length⟩ : LogFileInfo)).map
      LogFileInfo.filePath = _
    rw [map_map]
    exact map_id _
  refine sound_started rfl names ((GoMap.nodup_sortedKeys disk).filter _) (fun k mem => (mem_logNames.mp mem).2) stored
    (fun k log some => mem_logNames.mpr ⟨isSome_of_events some, log⟩) read numbered counter fun mem => ?_
  have there := (mem_logNames.mp mem).1
  rw [counter, absent] at there
  cases there

/-- In the order of their names, the files hold what was written. -/
theorem Journal.Sound.read_logNames (sound : j.Sound) (inOrder : NamesInOrder j.log.disk) :
    (logNames j.log.disk).flatMap (eventsIn j.log.disk) = j.written := by
  let Before (a b : Str) : Prop :=
    ∀ e ∈ eventsIn j.log.disk a, ∀ e' ∈ eventsIn j.log.disk b, e.sequenceNumber < e'.sequenceNumber
  have ordered := sound.numbered.ordered
  obtain ⟨inFiles, between⟩ := pairwise_flatMap.mp (sound.read.symm ▸ ordered)
  let Either (a b : Str) : Prop := Before a b ∨ Before b a
  have symmetric : Std.Symm Either := ⟨fun _ _ => .symm⟩
  have either : ∀ ⦃a⦄, a ∈ j.log.files → ∀ ⦃b⦄, b ∈ j.log.files → a ≠ b → Either a b :=
    Pairwise.forall (between.imp .inl)
  have occupied {name} (log : isLogFile name = true) {e} (mem : e ∈ eventsIn j.log.disk name) :
      (j.log.disk.lookup name).getD [] ≠ [] := by
    rw [sound.stored.bytes log]
    exact fileOf_ne_nil (ne_nil_of_mem mem)
  -- two files that are not empty: their names are ordered as their first numbers, hence as their numbers
  have pairs : (logNames j.log.disk).Pairwise Before := by
    have sorted : j.log.disk.sortedKeys.Pairwise Str.LE := pairwise_insertionSort Str.LE _
    have apart := (sorted.and (GoMap.nodup_sortedKeys j.log.disk)).filter isLogFile
    refine apart.imp_of_mem ?_
    rintro a b memA memB ⟨le, differ⟩ e mem e' mem'
    have logA := (mem_logNames.mp memA).2
    have logB := (mem_logNames.mp memB).2
    have filesA := sound.covered a logA (ne_nil_of_mem mem)
    have filesB := sound.covered b logB (ne_nil_of_mem mem')
    rcases either filesA filesB differ with first | second
    · exact first e mem e' mem'
    · obtain ⟨x, xs, headA⟩ := exists_cons_of_ne_nil (ne_nil_of_mem mem)
      obtain ⟨y, ys, headB⟩ := exists_cons_of_ne_nil (ne_nil_of_mem mem')
      obtain ⟨t, nameA⟩ := sound.stored.named a x xs logA headA
      obtain ⟨u, nameB⟩ := sound.stored.named b y ys logB headB
      have numbers := second y (headB ▸ mem_cons_self) x (headA ▸ mem_cons_self)
      have less := inOrder _ u _ t (nameB ▸ occupied logB mem') (nameA ▸ occupied logA mem) numbers
      rw [← nameA, ← nameB, Str.less, Bool.not_eq_true'] at less
      exact absurd le (by simp [Str.LE, less])
  have listOrdered : ((logNames j.log.disk).flatMap (eventsIn j.log.disk)).Pairwise
      fun e e' => e.sequenceNumber < e'.sequenceNumber := by
    refine pairwise_flatMap.mpr ⟨fun a mem => ?_, pairs⟩
    by_cases empty : eventsIn j.log.disk a = []
    · rw [empty]
      exact .nil
    · exact inFiles a (sound.covered a (mem_logNames.mp mem).2 empty)
  have distinct {es : List LogEntry} (ordered : es.Pairwise fun e e' => e.sequenceNumber < e'.sequenceNumber) :
      es.Nodup := ordered.imp fun less same => absurd (congrArg LogEntry.sequenceNumber same) less.ne
  refine Perm.eq_of_pairwise (fun e e' _ _ less more => absurd less more.not_gt) listOrdered ordered ?_
  rw [perm_ext_iff_of_nodup (distinct listOrdered) (distinct ordered)]
  intro e
  rw [← sound.read, mem_flatMap, mem_flatMap]
  constructor
  · rintro ⟨a, mem, inside⟩
    exact ⟨a, sound.covered a (mem_logNames.mp mem).2 (ne_nil_of_mem inside), inside⟩
  · rintro ⟨a, mem, inside⟩
    exact ⟨a, mem_logNames.mpr ⟨isSome_of_events (ne_nil_of_mem inside), sound.logs a mem⟩, inside⟩

theorem Journal.Sound.reopen (sound : j.Sound) {config timestamp}
    (fits : Fits j.log (.reopen config timestamp)) : (j.reopen config timestamp).Sound := by
  obtain ⟨inOrder, absent⟩ := fits
  rw [j.reopen_eq]
  rw [sound.counter] at absent
  exact sound_opened sound.stored (sound.read_logNames inOrder) sound.numbered config absent

theorem Journal.Sound.step (sound : j.Sound) {i} (fits : Fits j.log i) : (j.step i).1.Sound := by
  cases i with
  | write c event => exact sound.write fits
  | reopen config timestamp => exact sound.reopen fits

theorem Journal.sound_start (foreign : ∀ name, (disk.lookup name).isSome = true → isLogFile name = false) (timestamp : Int) :
    (start config disk timestamp).Sound := by
  have missing {name} (log : isLogFile name = true) : disk.lookup name = none := by
    cases found : disk.lookup name with
    | none => rfl
    | some data => exact absurd log (by simp [foreign name (by rw [found]; rfl)])
  have nothing {name} (log : isLogFile name = true) : eventsIn disk name = [] := by
    unfold eventsIn
    rw [missing log]
    rfl
  have stored : Stored disk := by
    refine ⟨fun name data log found => ?_, fun name log e mem => ?_, fun name e rest log first => ?_⟩
    · exact nomatch (missing log).symm.trans found
    · exact absurd (nothing log ▸ mem) not_mem_nil
    · exact nomatch (nothing log).symm.trans first
  have numbered : Numbered [] := rfl
  refine sound_opened stored ?_ numbered config (missing (isLogFile_logFileName _ _))
  rw [flatMap_eq_nil_iff]
  exact fun name mem => nothing (mem_logNames.mp mem).2

/-- In a run whose steps all fit, reads give exactly what was written. -/
theorem fits_complete (config : ValidConfig) (disk : GoMap Str Str)
    (foreign : ∀ name, (disk.lookup name).isSome = true → isLogFile name = false) (timestamp : Int)
    (inputs : List LogStep)
    (fits : ∀ before i after, inputs = before ++ i :: after →
      Fits (Run.exec Journal.step (.start config disk timestamp) before).log i) :
    (Run.exec Journal.step (.start config disk timestamp) inputs).Complete := by
  have sound := @run_inv _ _ _ Journal.step _ Journal.Sound inputs
    (Journal.sound_start config foreign timestamp)
    fun before i after split sound => sound.step (fits before i after split)
  exact (sound inputs [] (append_nil inputs).symm).complete

end

def defaultLimits : ValidConfig := ⟨defaultDurableEventLogConfig, rfl⟩

def reopenedBetween : List LogStep :=
  [.write ⟨.zero, default, 1, 2, false⟩ plainEvent, .reopen defaultLimits 3,
    .write ⟨.zero, default, 4, 5, false⟩ plainEvent]

theorem valid_plain (l : DurableEventLog) : (l.entryFor .zero plainEvent).Valid := by
  refine ⟨rfl, rfl, rfl, rfl, rfl, rfl, rfl, nofun, rfl, ?_⟩
  have ascii : ∀ d : Fin 16, (hexDigit d).toNat < 0x80 := by decide +kernel
  refine toValid_of_ascii fun b mem => ?_
  obtain ⟨_, -, rfl⟩ := mem_map.mp mem
  exact ascii ⟨_, Nat.mod_lt _ (by decide)⟩

theorem fits_plain [Unicode] {rotatedAt rotatedAgainAt : Int} {diskFails : Bool} (small : l.sequenceCounter < 2 ^ 63)
    (fewer : crowded l = false) (fresh : outgrown (lineOf (l.entryFor .zero plainEvent)) l = false) :
    Fits l (.write ⟨.zero, default, rotatedAt, rotatedAgainAt, diskFails⟩ plainEvent) := by
  intro line prepared
  obtain ⟨-, -, rfl⟩ := prepare_eq_ok prepared
  exact ⟨valid_plain l, small, fewer, fun long => nomatch fresh.symm.trans long⟩

/-- The name of the first file carries no other number. -/
theorem number_of_firstName {a t} (is : logFileName a t = logFileName 0 0) : a = 0 := by
  have name (a t : Int) : logFileName a t =
      str "evt-" ++ (Json.ofInt a ++ 0x2D :: (Json.ofInt a ++ str "-0-" ++ Json.ofInt t ++ str ".log")) := by
    simp [logFileName, show str "-" = [0x2D] by decide]
  rw [name, name] at is
  have same := append_cancel_left is
  have hyphen (n : Nat) : 0x2D ∉ Json.ofNat n := fun mem => by cases Json.digits_ofNat n _ mem
  have zero : Json.ofInt 0 = Json.ofNat 0 := rfl
  rw [zero] at same
  by_cases negative : a < 0
  · rw [Json.ofInt, if_pos negative] at same
    cases (cons.inj same).1
  · rw [Json.ofInt, if_neg negative] at same
    have number := congrArg Json.natOf (append_cons_inj (hyphen _) (hyphen _) same).1
    rw [Json.natOf_ofNat, Json.natOf_ofNat] at number
    omega

theorem namesInOrder_first {disk : GoMap Str Str} (keys : disk.keys = [logFileName 0 0]) : NamesInOrder disk := by
  have only {a t} (some : (disk.lookup (logFileName a t)).getD [] ≠ []) : a = 0 := by
    have held : (disk.lookup (logFileName a t)).isSome = true := by
      cases found : disk.lookup (logFileName a t) with
      | none => exact absurd (by rw [found]; rfl) some
      | some _ => rfl
    have listed := AList.mem_keys.mp (AList.lookup_isSome.mp held)
    rw [keys] at listed
    exact number_of_firstName (mem_singleton.mp listed)
  intro a t b u someA someB less
  have := only someA
  have := only someB
  omega

theorem fits_complete_reopenedBetween :
    letI := Unicode.ascii
    (∀ before i after, reopenedBetween = before ++ i :: after →
      Fits (Run.exec Journal.step (.start defaultLimits ∅ 0) before).log i) ∧
    (Run.exec Journal.step (.start defaultLimits ∅ 0) reopenedBetween).written.map LogEntry.sequenceNumber = [0, 1] ∧
    (Run.exec Journal.step (.start defaultLimits ∅ 0) reopenedBetween).Complete := by
  let := Unicode.ascii
  have fits : ∀ before i after, reopenedBetween = before ++ i :: after →
      Fits (exec Journal.step (.start defaultLimits ∅ 0) before).log i := by
    intro before i after split
    rcases before with _ | ⟨_, _ | ⟨_, _ | ⟨_, _⟩⟩⟩
    · cases split
      exact fits_plain (by decide +kernel) (by decide +kernel) (by decide +kernel)
    · cases split
      exact ⟨namesInOrder_first (by decide +kernel), by decide +kernel⟩
    · cases split
      exact fits_plain (by decide +kernel) (by decide +kernel) (by decide +kernel)
    · exact absurd (congrArg length split) (by simp [reopenedBetween])
  exact ⟨fits, by decide +kernel, fits_complete defaultLimits ∅ (fun _ found => nomatch found) 0 reopenedBetween fits⟩

def singleLimits : ValidConfig := ⟨{ defaultDurableEventLogConfig with maxEventsPerFile := 1 }, rfl⟩

/-- The second of two events goes to a new file, and the first is not read any more. -/
theorem rotation_loses_first :
    letI := Unicode.ascii
    let j := Run.exec Journal.step (.start singleLimits ∅ 0)
      [.write ⟨.zero, default, 1, 2, false⟩ plainEvent, .write ⟨.zero, default, 3, 4, false⟩ plainEvent]
    j.written.map LogEntry.sequenceNumber = [0, 1] ∧ j.log.allEvents.map LogEntry.sequenceNumber = [1] ∧
      ¬j.Complete := by
  let := Unicode.ascii
  refine ⟨by decide +kernel, by decide +kernel, fun complete => ?_⟩
  have lengths := congrArg (Option.map fun r => r.1.toOption.map length) (complete.all 0)
  revert lengths
  decide +kernel

end DurableEventLog

end Runtime
