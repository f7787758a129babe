import SolidSidecar.Go.Order
import SolidSidecar.Go.Rfc3339
import SolidSidecar.Storage.Memory

/-!
# Records as JSON

How `encoding/json` writes the records that are stored in files and backups. The structs of `interface.go`
have no tags, so their members carry the names of the fields. A time outside the years 0 to 9999 cannot
be written. A nil map or slice is written as `null`; the empty ones, which the model does not tell from
them, decode to the same value.

Reading back gives the record with every text made valid UTF-8 (`reread`).
-/

namespace Storage
open Go Json Rfc3339 List Option

variable {m : Metadata} {l : Layout} {d : Nat} {ms : List (Str × Str)}

/-- The entries of a string map in the order of its keys. -/
def StrMap.inOrder (m : StrMap) : List (Str × Str) :=
  Finmap.liftOn m (fun entries => GoMap.inOrder entries) fun _ _ same =>
    GoMap.inOrder_congr fun _ => AList.perm_lookup same

def ofStrMap (l : Layout) (d : Nat) (m : StrMap) : Str :=
  match m.inOrder with
  | [] => "null"
  | entries => ofMembers l d (entries.map fun e => (e.1, ofString e.2))

/-- Decode into a string map: `null` makes it nil, an object adds its members. -/
def intoStrMap (old : StrMap) (raw : Str) : Option StrMap :=
  if raw = "null" then some ∅
  else match raw with
    | 0x7B :: _ => (fields? raw).bind fun ms =>
      ms.foldlM (fun m e => (intoString [] e.2).map fun v => m.insert e.1 v) old
    | _ => none

def StrMap.reread (m : StrMap) : StrMap :=
  m.inOrder.foldl (fun m e => m.insert (toValid e.1) (toValid e.2)) ∅

def StrMap.Valid (m : StrMap) : Prop := ∀ e ∈ m.inOrder, toValid e.1 = e.1 ∧ toValid e.2 = e.2

instance (m : StrMap) : Decidable m.Valid := inferInstanceAs (Decidable (∀ e ∈ m.inOrder, _))

/-- Building a map from the entries of a map gives that map. -/
theorem StrMap.foldl_inOrder (m : StrMap) : m.inOrder.foldl (fun m e => m.insert e.1 e.2) (∅ : StrMap) = m := by
  have lifted (entries : List (Str × Str)) (a : GoMap Str Str) :
      entries.foldl (fun m e => m.insert e.1 e.2) a.toFinmap =
        (entries.foldl (fun m e => m.insert e.1 e.2) a).toFinmap := by
    induction entries generalizing a with
    | nil => rfl
    | cons e entries ih => rw [foldl_cons, foldl_cons, Finmap.insert_toFinmap, ih]
  induction m using Finmap.induction_on with
  | H a =>
    apply Finmap.ext_lookup
    intro k
    have whole := lifted (GoMap.inOrder a) ∅
    rw [inOrder, Finmap.liftOn_toFinmap, Finmap.empty_toFinmap.symm, whole]
    exact GoMap.lookup_ofPairs_inOrder a k

theorem StrMap.reread_of_valid {m : StrMap} (valid : m.Valid) : m.reread = m := by
  have same (entries : List (Str × Str)) (valid : ∀ e ∈ entries, toValid e.1 = e.1 ∧ toValid e.2 = e.2)
      (m : StrMap) :
      entries.foldl (fun m e => m.insert (toValid e.1) (toValid e.2)) m =
        entries.foldl (fun m e => m.insert e.1 e.2) m := by
    induction entries generalizing m with
    | nil => rfl
    | cons e entries ih =>
      have here := valid e mem_cons_self
      rw [foldl_cons, foldl_cons, here.1, here.2, ih fun e mem => valid e (mem_cons_of_mem _ mem)]
  rw [reread, same _ valid, foldl_inOrder]

theorem encoded_entries (entries : List (Str × Str)) :
    ∀ e ∈ entries.map fun e => (e.1, ofString e.2), Encoded 0 e.2 :=
  forall_mem_map.mpr fun _ _ => encoded_ofString _

theorem encoded_ofStrMap (l : Layout) (d : Nat) (m : StrMap) : Encoded 1 (ofStrMap l d m) := by
  unfold ofStrMap
  split
  · exact encoded_null.mono (by omega)
  · exact encoded_ofMembers l d (encoded_entries _)

/-- Members that were written for entries are decoded into a map one after another. -/
theorem foldlM_written (entries : List (Str × Str)) (m : StrMap) :
    ((entries.map fun e => (e.1, ofString e.2)).map fun e => (toValid e.1, e.2)).foldlM
        (fun m e => (intoString [] e.2).map fun v => m.insert e.1 v) m =
      some (entries.foldl (fun m e => m.insert (toValid e.1) (toValid e.2)) m) := by
  induction entries generalizing m with
  | nil => rfl
  | cons e entries ih =>
    rw [map_cons, map_cons, foldlM_cons, intoString_ofString]
    exact ih _

/-- An object that was written for the entries of a map is decoded to it. -/
theorem intoStrMap_ofMembers (l : Layout) (d : Nat) (m : StrMap) :
    intoStrMap ∅ (ofMembers l d (m.inOrder.map fun e => (e.1, ofString e.2))) = some m.reread := by
  obtain ⟨_, whole⟩ := ofMembers_start l d (m.inOrder.map fun e => (e.1, ofString e.2))
  have read := fields?_ofMembers l d (encoded_entries m.inOrder) (by decide)
  unfold intoStrMap
  rw [read, whole]
  exact foldlM_written m.inOrder ∅

theorem intoStrMap_ofStrMap (l : Layout) (d : Nat) (m : StrMap) :
    intoStrMap ∅ (ofStrMap l d m) = some m.reread := by
  unfold ofStrMap
  split
  · rename_i empty
    rw [StrMap.reread, empty]
    rfl
  · exact intoStrMap_ofMembers l d m

def ofStrings (l : Layout) (d : Nat) : List Str → Str
  | [] => "null"
  | xs => ofItems l d (xs.map ofString)

def intoStrings (raw : Str) : Option (List Str) := (elements? raw).bind fun es => es.mapM (intoString [])

theorem encoded_strings (xs : List Str) : ∀ v ∈ xs.map ofString, Encoded 0 v :=
  forall_mem_map.mpr fun x _ => encoded_ofString x

theorem encoded_ofStrings (l : Layout) (d : Nat) (xs : List Str) : Encoded 1 (ofStrings l d xs) := by
  unfold ofStrings
  split
  · exact encoded_null.mono (by omega)
  · exact encoded_ofItems l d (encoded_strings _)

theorem intoStrings_ofStrings (l : Layout) (d : Nat) (xs : List Str) :
    intoStrings (ofStrings l d xs) = some (xs.map toValid) := by
  unfold ofStrings
  split
  · rfl
  · have all (xs : List Str) : (xs.map ofString).mapM (intoString []) = some (xs.map toValid) := by
      induction xs with
      | nil => rfl
      | cons x xs ih =>
        rw [map_cons, mapM_cons, intoString_ofString, ih]
        rfl
    rw [intoStrings, elements?_ofItems l d (encoded_strings xs) (by decide)]
    exact all xs

/-- The members of `Metadata`, for an object at depth `d`. -/
def metadataMembers (l : Layout) (d : Nat) (m : Metadata) : Option (List (Str × Str)) := do
  let lastModified ← ofTime m.lastModified
  let created ← ofTime m.created
  some [("URI", ofString m.uri), ("ResourceType", ofString m.resourceType),
     ("ContentType", ofString m.contentType), ("Size", ofInt m.size),
     ("Digest", ofString m.digest), ("LastModified", lastModified), ("Created", created),
     ("ETag", ofString m.etag), ("Owner", ofString m.owner),
     ("StorageRoot", ofString m.storageRoot), ("Tenant", ofString m.tenant),
     ("AuxiliaryLinks", ofStrMap l (d + 1) m.auxiliaryLinks),
     ("PolicyReferences", ofStrings l (d + 1) m.policyReferences),
     ("ValidatorState", ofStrMap l (d + 1) m.validatorState),
     ("ContentAddress", ofString m.contentAddress), ("LayoutVersion", ofInt m.layoutVersion),
     ("Custom", ofStrMap l (d + 1) m.custom)]

def marshalMetadata (l : Layout) (d : Nat) (m : Metadata) : Option Str :=
  (metadataMembers l d m).map (ofMembers l d)

section Decode

variable [Unicode]

def metadataOf (ms : List (Str × Str)) : Option Metadata := do
  let uri ← stringField "URI" ms
  let resourceType ← stringField "ResourceType" ms
  let contentType ← stringField "ContentType" ms
  let size ← int64Field "Size" ms
  let digest ← stringField "Digest" ms
  let lastModified ← field "LastModified" intoTime Time.zero ms
  let created ← field "Created" intoTime Time.zero ms
  let etag ← stringField "ETag" ms
  let owner ← stringField "Owner" ms
  let storageRoot ← stringField "StorageRoot" ms
  let tenant ← stringField "Tenant" ms
  let auxiliaryLinks ← field "AuxiliaryLinks" intoStrMap ∅ ms
  let policyReferences ← field "PolicyReferences" (fun _ => intoStrings) [] ms
  let validatorState ← field "ValidatorState" intoStrMap ∅ ms
  let contentAddress ← stringField "ContentAddress" ms
  let layoutVersion ← int64Field "LayoutVersion" ms
  let custom ← field "Custom" intoStrMap ∅ ms
  some
    { uri, resourceType, contentType, size, digest, lastModified, created, etag, owner, storageRoot, tenant,
      auxiliaryLinks, policyReferences, validatorState, contentAddress, layoutVersion, custom }

def unmarshalMetadata (text : Str) : Option Metadata := (unmarshal text).bind metadataOf

/-- A field of the metadata in a text whose decoding errors are ignored: a member of the wrong type is
skipped, a time that does not parse ends the decoding, and a text that is no object leaves the field alone. -/
def looseField {α : Type} (name : Str) (into : α → Str → Option α) (zero : α) (text : Str) : α :=
  match unmarshal text with
  | none => zero
  | some ms =>
    let decoded := ms.takeWhile fun m =>
      !Strings.equalFold m.1 "LastModified" || (intoTime .zero m.2).isSome
    decoded.foldl (fun old m => if Strings.equalFold m.1 name then (into old m.2).getD old else old) zero

end Decode

def Metadata.reread (m : Metadata) : Metadata :=
  { m with
    uri := toValid m.uri
    resourceType := toValid m.resourceType
    contentType := toValid m.contentType
    digest := toValid m.digest
    etag := toValid m.etag
    owner := toValid m.owner
    storageRoot := toValid m.storageRoot
    tenant := toValid m.tenant
    auxiliaryLinks := m.auxiliaryLinks.reread
    policyReferences := m.policyReferences.map toValid
    validatorState := m.validatorState.reread
    contentAddress := toValid m.contentAddress
    custom := m.custom.reread }

/-- The numbers of metadata are those of their Go types. -/
structure Metadata.Sized (m : Metadata) : Prop where
  size : -2 ^ 63 ≤ m.size ∧ m.size < 2 ^ 63
  layoutVersion : -2 ^ 63 ≤ m.layoutVersion ∧ m.layoutVersion < 2 ^ 63

theorem encoded_metadataMembers (written : metadataMembers l d m = some ms) : ∀ e ∈ ms, Encoded 1 e.2 := by
  simp only [metadataMembers, bind_eq_bind, bind_eq_some_iff, some.injEq] at written
  obtain ⟨_, modified, _, made, rfl⟩ := written
  have text (s : Str) : Encoded 1 (ofString s) := (encoded_ofString s).mono (by omega)
  have number (n : Int) : Encoded 1 (ofInt n) := (encoded_ofInt n).mono (by omega)
  have map (m : StrMap) := encoded_ofStrMap l (d + 1) m
  have time {t raw} (is : ofTime t = some raw) : Encoded 1 raw := (encoded_ofTime is).mono (by omega)
  simp only [forall_mem_cons, not_mem_nil, false_implies, implies_true, and_true]
  exact ⟨text _, text _, text _, number _, text _, time modified, time made, text _, text _, text _, text _, map _,
    encoded_ofStrings _ _ _, map _, text _, number _, map _⟩

theorem metadata_apart (written : metadataMembers l d m = some ms) : Apart (ms.map Prod.fst) := by
  simp only [metadataMembers, bind_eq_bind, bind_eq_some_iff, some.injEq] at written
  obtain ⟨_, -, -, -, rfl⟩ := written
  simp only [map_cons]
  exact ⟨by decide +kernel, by decide +kernel⟩

section Decode

variable [Unicode]

/-- The members that were written for metadata are decoded to what is read back of it. -/
theorem metadataOf_metadataMembers {l d m ms} (written : metadataMembers l d m = some ms) (sized : m.Sized) :
    metadataOf (ms.map fun e => (toValid e.1, e.2)) = some m.reread := by
  have apart := metadata_apart written
  simp only [metadataMembers, bind_eq_bind, bind_eq_some_iff, some.injEq] at written
  obtain ⟨_, modified, _, made, rfl⟩ := written
  have at' (i : Nat) {key raw} (found : _ = some (key, raw)) {α}
      (into : α → Str → Option α) (zero : α) := field_written apart (i := i) found into zero
  unfold metadataOf stringField int64Field
  rw [at' 0 rfl, at' 1 rfl, at' 2 rfl, at' 3 rfl, at' 4 rfl, at' 5 rfl, at' 6 rfl, at' 7 rfl, at' 8 rfl,
    at' 9 rfl, at' 10 rfl, at' 11 rfl, at' 12 rfl, at' 13 rfl, at' 14 rfl, at' 15 rfl, at' 16 rfl]
  simp only [intoString_ofString, intoInt64_ofInt sized.size.1 sized.size.2, intoTime_ofTime modified,
    intoTime_ofTime made, intoStrMap_ofStrMap, intoStrings_ofStrings,
    intoInt64_ofInt sized.layoutVersion.1 sized.layoutVersion.2]
  rfl

/-- What was written for metadata is decoded, with white space after it, to what is read back of it. -/
theorem unmarshalMetadata_marshalMetadata {l m text tail}
    (written : marshalMetadata l 0 m = some text) (sized : m.Sized) (blank : tail.all isSpace = true) :
    unmarshalMetadata (text ++ tail) = some m.reread := by
  obtain ⟨_, members, rfl⟩ := map_eq_some_iff.mp written
  rw [unmarshalMetadata, unmarshal_ofMembers l 0 (encoded_metadataMembers members) (by decide) blank]
  exact metadataOf_metadataMembers members sized

end Decode

def tombstoneMembers (t : Tombstone) : Option (List (Str × Str)) := do
  let deletedAt ← ofTime t.deletedAt
  some [("URI", ofString t.uri), ("DeletedAt", deletedAt), ("DeletedBy", ofString t.deletedBy),
     ("Reason", ofString t.reason), ("RestoreToken", ofString t.restoreToken)]

def marshalTombstone (l : Layout) (d : Nat) (t : Tombstone) : Option Str :=
  (tombstoneMembers t).map (ofMembers l d)

def tombstoneOf [Unicode] (ms : List (Str × Str)) : Option Tombstone := do
  let uri ← stringField "URI" ms
  let deletedAt ← field "DeletedAt" intoTime Time.zero ms
  let deletedBy ← stringField "DeletedBy" ms
  let reason ← stringField "Reason" ms
  let restoreToken ← stringField "RestoreToken" ms
  some { uri, deletedAt, deletedBy, reason, restoreToken }

def unmarshalTombstone [Unicode] (text : Str) : Option Tombstone := (unmarshal text).bind tombstoneOf

def usageMembers (u : QuotaUsageInfo) : List (Str × Str) :=
  [("UsedBytes", ofInt u.usedBytes), ("UsedResources", ofInt u.usedResources),
   ("MaxBytes", ofInt u.maxBytes), ("MaxResources", ofInt u.maxResources)]

def marshalUsage (l : Layout) (u : QuotaUsageInfo) : Str := ofMembers l 0 (usageMembers u)

def unmarshalUsage [Unicode] (text : Str) : Option QuotaUsageInfo := do
  let ms ← unmarshal text
  let usedBytes ← int64Field "UsedBytes" ms
  let usedResources ← int64Field "UsedResources" ms
  let maxBytes ← int64Field "MaxBytes" ms
  let maxResources ← int64Field "MaxResources" ms
  some { usedBytes, usedResources, maxBytes, maxResources }

theorem unmarshal_marshalUsage (l : Layout) (u : QuotaUsageInfo) :
    unmarshal (marshalUsage l u) = some ((usageMembers u).map fun e => (toValid e.1, e.2)) := by
  have each : ∀ e ∈ usageMembers u, Encoded 0 e.2 := by
    intro e mem
    simp only [usageMembers, mem_cons, not_mem_nil, or_false] at mem
    rcases mem with rfl | rfl | rfl | rfl <;> exact encoded_ofInt _
  have blank : all ([] : Str) isSpace = true := rfl
  have read := unmarshal_ofMembers l 0 each (by decide) blank
  rwa [append_nil] at read

theorem contentTypeNames_apart :
    Apart ["ContentType", "UsedBytes", "UsedResources", "MaxBytes", "MaxResources"] :=
  ⟨by decide +kernel, by decide +kernel⟩

theorem contentType_of_metadataOf [Unicode]
    (read : metadataOf ms = some m) : stringField "ContentType" ms = some m.contentType := by
  obtain ⟨_, -, read⟩ := bind_eq_some_iff.mp read
  obtain ⟨_, -, read⟩ := bind_eq_some_iff.mp read
  obtain ⟨_, found, read⟩ := bind_eq_some_iff.mp read
  iterate 14 obtain ⟨_, -, read⟩ := bind_eq_some_iff.mp read
  rw [← some.inj read]
  exact found

/-- A quota that is read as metadata has no content type. -/
theorem contentType_of_usage [Unicode] {u}
    (read : unmarshalMetadata (marshalUsage l u) = some m) : m.contentType = [] := by
  have apart : Apart _ := contentTypeNames_apart
  rw [unmarshalMetadata, unmarshal_marshalUsage, bind_some] at read
  have found := contentType_of_metadataOf read
  have absent : stringField "ContentType" ((usageMembers u).map fun e => (toValid e.1, e.2)) = some [] :=
    field_unwritten apart intoString []
  exact some.inj (found.symm.trans absent)

end Storage
