import SolidSidecar.Runtime.Events
import SolidSidecar.Storage.Wire

/-!
# Entries of the durable event log

`LogEntry` of `durable_event_log.go`, its checksum, and the line of JSON that it is written as. What is read back of
a line is the entry with every text made valid UTF-8; the checksum is over the texts as they were.
-/

namespace Runtime
open Go Json Rfc3339 Storage Option List

/-- `LogEntry`. A nil metadata map is told from an empty one. -/
structure LogEntry where
  eventID : Str
  eventType : Str
  resourceURI : Str
  containerURI : Str
  timestamp : Time
  agent : Str
  agentType : Str
  action : Str
  metadata : Option StrMap
  sequenceNumber : Int
  streamTimestamp : Time
  privacyLevel : PrivacyLevel
  checksum : Str

def LogEntry.checksumData (entry : LogEntry) : Str :=
  entry.eventID ++ "|" ++ entry.eventType ++ "|" ++ entry.resourceURI ++ "|" ++ entry.agent ++ "|" ++
    ofInt entry.sequenceNumber ++ "|" ++ format entry.timestamp

def hex32 (sum : UInt32) : Str := (List.range 8).map fun i => hexDigit (sum.toNat / 16 ^ (7 - i) % 16)

def checksumOf (data : Str) : Str := hex32 (data.foldl (fun sum b => sum * 31 + UInt32.ofNat b.toNat) 0)

def generateChecksum (entry : LogEntry) : Str := checksumOf entry.checksumData

def LogEntry.intact (entry : LogEntry) : Bool := entry.checksum = [] || generateChecksum entry = entry.checksum

/-- One byte is another one, or two different bytes next to each other have changed places. -/
inductive Altered : Str → Str → Prop
  | replaced (front rest) {a b} (other : a ≠ b) : Altered (front ++ a :: rest) (front ++ b :: rest)
  | swapped (front rest) {a b} (other : a ≠ b) : Altered (front ++ a :: b :: rest) (front ++ b :: a :: rest)

theorem hex32_inj {m n} (same : hex32 m = hex32 n) : m = n := by
  have digits : ∀ i ∈ range 8, m.toNat / 16 ^ (7 - i) % 16 = n.toNat / 16 ^ (7 - i) % 16 := by
    intro i mem
    exact hexDigit_inj (Nat.mod_lt _ (by decide)) (Nat.mod_lt _ (by decide)) (List.map_inj_left.mp same i mem)
  have small := m.toNat_lt
  have small' := n.toNat_lt
  simp [range, range.loop] at digits
  exact UInt32.toNat.inj (by omega)

/-- The sum after a text tells the sum before it: 31 is odd. -/
theorem foldl_sum_inj (data : Str) {s t}
    (same : data.foldl (fun sum b => sum * 31 + .ofNat b.toNat) s =
      data.foldl (fun sum b => sum * 31 + UInt32.ofNat b.toNat) t) : s = t := by
  induction data generalizing s t with
  | nil => exact same
  | cons b data ih =>
    have step := congrArg UInt32.toNat (ih same)
    have small := s.toNat_lt
    have small' := t.toNat_lt
    simp only [UInt32.toNat_add, UInt32.toNat_mul] at step
    exact UInt32.toNat.inj (by simp at step; omega)

theorem Altered.checksumOf_ne {data data'} (altered : Altered data data') : checksumOf data' ≠ checksumOf data := by
  intro same
  have sums := hex32_inj same
  cases altered with
  | replaced front rest other =>
    rename_i a b
    simp only [foldl_append, foldl_cons] at sums
    have last := congrArg UInt32.toNat (foldl_sum_inj rest sums)
    have small := a.toNat_lt
    have small' := b.toNat_lt
    simp only [UInt32.toNat_add, UInt32.toNat_ofNat'] at last
    exact other (UInt8.toNat.inj (by omega))
  | swapped front rest other =>
    rename_i a b
    simp only [foldl_append, foldl_cons] at sums
    -- the two sums differ by 30 times the difference of the bytes
    have last := foldl_sum_inj rest sums
    have thirty : .ofNat b.toNat * 30 = UInt32.ofNat a.toNat * 30 := by grind
    replace thirty := congrArg UInt32.toNat thirty
    have small := a.toNat_lt
    have small' := b.toNat_lt
    simp only [UInt32.toNat_mul, UInt32.toNat_ofNat', UInt32.reduceToNat] at thirty
    exact other (UInt8.toNat.inj (by omega))

def ofMetadata (m : Option StrMap) : Str :=
  match m with
  | none => "null"
  | some m => ofMembers compact 1 (m.inOrder.map fun e => (e.1, ofString e.2))

def intoMetadata (old : Option StrMap) (raw : Str) : Option (Option StrMap) :=
  if raw = "null" then some none else (intoStrMap (old.getD ∅) raw).map some

def entryMembers (entry : LogEntry) : Option (List (Str × Str)) := do
  let timestamp ← ofTime entry.timestamp
  let streamTimestamp ← ofTime entry.streamTimestamp
  some [("EventID", ofString entry.eventID), ("EventType", ofString entry.eventType),
     ("ResourceURI", ofString entry.resourceURI), ("ContainerURI", ofString entry.containerURI),
     ("Timestamp", timestamp), ("Agent", ofString entry.agent), ("AgentType", ofString entry.agentType),
     ("Action", ofString entry.action), ("Metadata", ofMetadata entry.metadata),
     ("SequenceNumber", ofInt entry.sequenceNumber), ("StreamTimestamp", streamTimestamp),
     ("PrivacyLevel", ofString entry.privacyLevel), ("Checksum", ofString entry.checksum)]

def marshalEntry (entry : LogEntry) : Option Str := (entryMembers entry).map (ofMembers compact 0)

section Decode

variable [Unicode]

def entryOf (ms : List (Str × Str)) : Option LogEntry := do
  let eventID ← stringField "EventID" ms
  let eventType ← stringField "EventType" ms
  let resourceURI ← stringField "ResourceURI" ms
  let containerURI ← stringField "ContainerURI" ms
  let timestamp ← field "Timestamp" intoTime Time.zero ms
  let agent ← stringField "Agent" ms
  let agentType ← stringField "AgentType" ms
  let action ← stringField "Action" ms
  let metadata ← field "Metadata" intoMetadata none ms
  let sequenceNumber ← int64Field "SequenceNumber" ms
  let streamTimestamp ← field "StreamTimestamp" intoTime Time.zero ms
  let privacyLevel ← stringField "PrivacyLevel" ms
  let checksum ← stringField "Checksum" ms
  some
    { eventID, eventType, resourceURI, containerURI, timestamp, agent, agentType, action, metadata, sequenceNumber,
      streamTimestamp, privacyLevel, checksum }

def unmarshalEntry (text : Str) : Option LogEntry := (unmarshal text).bind entryOf

end Decode

structure LogEntry.Valid (entry : LogEntry) : Prop where
  eventID : toValid entry.eventID = entry.eventID
  eventType : toValid entry.eventType = entry.eventType
  resourceURI : toValid entry.resourceURI = entry.resourceURI
  containerURI : toValid entry.containerURI = entry.containerURI
  agent : toValid entry.agent = entry.agent
  agentType : toValid entry.agentType = entry.agentType
  action : toValid entry.action = entry.action
  metadata : ∀ m, entry.metadata = some m → m.Valid
  privacyLevel : toValid entry.privacyLevel = entry.privacyLevel
  checksum : toValid entry.checksum = entry.checksum

variable {entry : LogEntry}

theorem encoded_ofMetadata (m : Option StrMap) : Encoded 1 (ofMetadata m) := by
  cases m with
  | none => exact encoded_null.mono (by omega)
  | some m => exact encoded_ofMembers compact 1 (encoded_entries m.inOrder)

theorem intoMetadata_ofMetadata {m} (valid : ∀ s, m = some s → s.Valid) :
    intoMetadata none (ofMetadata m) = some m := by
  cases m with
  | none => rfl
  | some m =>
    have proper : ofMetadata (some m) ≠ "null" := by
      obtain ⟨_, whole⟩ := ofMembers_start compact 1 (m.inOrder.map fun e => (e.1, ofString e.2))
      intro same
      cases (cons.inj (whole.symm.trans same)).1
    have read : intoStrMap ∅ (ofMetadata (some m)) = some m.reread := intoStrMap_ofMembers compact 1 m
    unfold intoMetadata
    rw [if_neg proper, getD_none, read, StrMap.reread_of_valid (valid m rfl)]
    rfl

theorem printable_ofInt (n : Int) : ∀ b ∈ ofInt n, 0x20 ≤ b.toNat := by
  have digits : ∀ b ∈ ofNat n.natAbs, 0x20 ≤ b.toNat := by
    intro b mem
    have := plain_of_isDigit (digits_ofNat n.natAbs b mem)
    omega
  unfold ofInt
  split_ifs
  · intro b mem
    rcases List.mem_cons.mp mem with rfl | mem
    · decide
    · exact digits b mem
  · exact digits

theorem printable_ofTime {t raw} (written : ofTime t = some raw) : ∀ b ∈ raw, 0x20 ≤ b.toNat := by
  unfold ofTime at written
  split_ifs at written
  cases written
  exact printable_ofString _

theorem printable_ofMetadata (m : Option StrMap) : ∀ b ∈ ofMetadata m, 0x20 ≤ b.toNat := by
  cases m with
  | none => decide +kernel
  | some m => exact printable_ofMembers 1 (List.forall_mem_map.mpr fun _ _ => printable_ofString _)

/-- Every value of an entry is one for the decoder, and stands on one line. -/
theorem values_entryMembers {ms} (written : entryMembers entry = some ms) :
    ∀ e ∈ ms, Encoded 1 e.2 ∧ ∀ b ∈ e.2, 0x20 ≤ b.toNat := by
  simp only [entryMembers, bind_eq_bind, bind_eq_some_iff, some.injEq] at written
  obtain ⟨_, first, _, second, rfl⟩ := written
  have text (s : Str) : Encoded 1 (ofString s) ∧ ∀ b ∈ ofString s, 0x20 ≤ b.toNat :=
    ⟨(encoded_ofString s).mono (by omega), printable_ofString s⟩
  have time {t raw} (is : ofTime t = some raw) : Encoded 1 raw ∧ ∀ b ∈ raw, 0x20 ≤ b.toNat :=
    ⟨(encoded_ofTime is).mono (by omega), printable_ofTime is⟩
  simp only [forall_mem_cons, not_mem_nil, false_implies, implies_true, and_true]
  exact ⟨text _, text _, text _, text _, time first, text _, text _, text _,
    ⟨encoded_ofMetadata _, printable_ofMetadata _⟩, ⟨(encoded_ofInt _).mono (by omega), printable_ofInt _⟩,
    time second, text _, text _⟩

theorem entry_apart {ms} (written : entryMembers entry = some ms) : Apart (ms.map Prod.fst) := by
  simp only [entryMembers, bind_eq_bind, bind_eq_some_iff, some.injEq] at written
  obtain ⟨_, -, _, -, rfl⟩ := written
  simp only [map_cons]
  exact ⟨by decide +kernel, by decide +kernel⟩

section Decode

variable [Unicode] {entry : LogEntry}

theorem entryOf_entryMembers {ms} (written : entryMembers entry = some ms)
    (valid : entry.Valid) (low : -2 ^ 63 ≤ entry.sequenceNumber) (high : entry.sequenceNumber < 2 ^ 63) :
    entryOf (ms.map fun e => (toValid e.1, e.2)) = some entry := by
  have apart := entry_apart written
  simp only [entryMembers, bind_eq_bind, bind_eq_some_iff, some.injEq] at written
  obtain ⟨_, first, _, second, rfl⟩ := written
  have at' (i : Nat) {key raw} (found : _ = some (key, raw)) {α}
      (into : α → Str → Option α) (zero : α) := field_written apart (i := i) found into zero
  unfold entryOf stringField int64Field
  rw [at' 0 rfl, at' 1 rfl, at' 2 rfl, at' 3 rfl, at' 4 rfl, at' 5 rfl, at' 6 rfl, at' 7 rfl, at' 8 rfl, at' 9 rfl,
    at' 10 rfl, at' 11 rfl, at' 12 rfl]
  simp only [intoString_ofString, intoTime_ofTime first, intoTime_ofTime second, intoInt64_ofInt low high,
    intoMetadata_ofMetadata valid.metadata, valid.eventID, valid.eventType, valid.resourceURI, valid.containerURI,
    valid.agent, valid.agentType, valid.action, valid.privacyLevel, valid.checksum]
  rfl

theorem unmarshalEntry_marshalEntry {text tail} (written : marshalEntry entry = some text)
    (valid : entry.Valid) (low : -2 ^ 63 ≤ entry.sequenceNumber) (high : entry.sequenceNumber < 2 ^ 63)
    (blank : tail.all isSpace = true) : unmarshalEntry (text ++ tail) = some entry := by
  obtain ⟨_, members, rfl⟩ := map_eq_some_iff.mp written
  rw [unmarshalEntry, unmarshal_ofMembers compact 0 (fun e mem => (values_entryMembers members e mem).1) (by decide) blank]
  exact entryOf_entryMembers members valid low high

theorem unmarshalEntry_trailing {text rest} (written : marshalEntry entry = some text)
    (ends : Ends rest) (more : skipSpace rest ≠ []) : unmarshalEntry (text ++ rest) = none := by
  obtain ⟨_, members, rfl⟩ := map_eq_some_iff.mp written
  have encoded := encoded_ofMembers compact 0 fun e mem => (values_entryMembers members e mem).1
  rw [unmarshalEntry, unmarshal, document_trailing encoded (by decide) ends more]
  rfl

end Decode

theorem newline_notMem_marshalEntry {text} (written : marshalEntry entry = some text) : 0x0A ∉ text := by
  obtain ⟨_, members, rfl⟩ := map_eq_some_iff.mp written
  intro mem
  have printable := printable_ofMembers 0 (fun e present => (values_entryMembers members e present).2) _ mem
  exact absurd printable (by decide)

/-- The line of an entry is an object: it starts with a brace and has no white space around it. -/
theorem marshalEntry_object {text} (written : marshalEntry entry = some text) :
    (∃ inner, text = 0x7B :: inner) ∧ Strings.trimSpace text = text := by
  obtain ⟨ms, _, rfl⟩ := map_eq_some_iff.mp written
  exact ⟨ofMembers_start compact 0 ms, trimSpace_ofMembers compact 0 ms⟩

end Runtime
