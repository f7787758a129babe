import SolidSidecar.Go.Base64
import SolidSidecar.Kernel.Parity
import SolidSidecar.Serde.Record

/-!
# Requests on the wire

`EncodeRequest` of `codec.go` writes a validated request as JSON, and the kernel decodes it with the
derived decoders of `types.rs`, which deny unknown fields. JSON text is left aside: both sides are
functions on JSON values. `decodes_iff` says which requests arrive, and that those arrive with the
canonical texts they had.
-/

namespace Kernel
open Go Serde Option Authz

inductive DocumentField where
  | uri | sha256 | contentType | content
  deriving DecidableEq

namespace DocumentField

def name : DocumentField → Str
  | .uri => "uri"
  | .sha256 => "sha256"
  | .contentType => "content_type"
  | .content => "content"

def all : List DocumentField := [.uri, .sha256, .contentType, .content]

theorem mem_all (f : DocumentField) : f ∈ all := by
  cases f <;> decide

theorem nodup_all : all.Nodup := by decide

theorem name_injective : Function.Injective name := by
  have distinct : (all.map name).Nodup := by decide +kernel
  exact fun f g same => List.inj_on_of_nodup_map distinct (mem_all f) (mem_all g) same

end DocumentField

/-- The fields of `Request` in Go, in the order of the struct. -/
inductive RequestField where
  | schemaVersion | requestID | method | resourceURI | agentWebID | clientID | issuer | origin
  | requestedModes | resourceVersion | policyVersion | parserVersion | evaluatorVersion
  | resourceMetadata | policyDocuments | nowUnix
  deriving DecidableEq

namespace RequestField

def name : RequestField → Str
  | .schemaVersion => "schema_version"
  | .requestID => "request_id"
  | .method => "method"
  | .resourceURI => "resource_uri"
  | .agentWebID => "agent_webid"
  | .clientID => "client_id"
  | .issuer => "issuer"
  | .origin => "origin"
  | .requestedModes => "requested_modes"
  | .resourceVersion => "resource_version"
  | .policyVersion => "policy_version"
  | .parserVersion => "parser_version"
  | .evaluatorVersion => "evaluator_version"
  | .resourceMetadata => "resource_metadata"
  | .policyDocuments => "policy_documents"
  | .nowUnix => "now_unix"

def all : List RequestField :=
  [.schemaVersion, .requestID, .method, .resourceURI, .agentWebID, .clientID, .issuer, .origin,
    .requestedModes, .resourceVersion, .policyVersion, .parserVersion, .evaluatorVersion,
    .resourceMetadata, .policyDocuments, .nowUnix]

theorem mem_all (f : RequestField) : f ∈ all := by
  cases f <;> decide

theorem nodup_all : all.Nodup := by decide

theorem name_injective : Function.Injective name := by
  have distinct : (all.map name).Nodup := by decide +kernel
  exact fun f g same => List.inj_on_of_nodup_map distinct (mem_all f) (mem_all g) same

end RequestField

section Encode

def omitEmpty (s : Str) : Option Value := if s = [] then none else some (.string s)

def documentField (d : Authz.PolicyDocument) : DocumentField → Option Value
  | .uri => some (.string d.uri)
  | .sha256 => some (.string d.sha256)
  | .contentType => some (.string d.contentType)
  | .content => if d.content = [] then none else some (.string (Base64.stdEncode d.content))

def marshalDocument (d : Authz.PolicyDocument) : Value :=
  .object (members DocumentField.name (documentField d) DocumentField.all)

def requestField (g : Authz.Request) : RequestField → Option Value
  | .schemaVersion => some (.string g.schemaVersion)
  | .requestID => some (.string g.requestID)
  | .method => some (.string g.method)
  | .resourceURI => some (.string g.resourceURI)
  | .agentWebID => omitEmpty g.agentWebID
  | .clientID => omitEmpty g.clientID
  | .issuer => omitEmpty g.issuer
  | .origin => omitEmpty g.origin
  | .requestedModes => some (.array (g.requestedModes.map fun m => .string m.text))
  | .resourceVersion => omitEmpty g.resourceVersion
  | .policyVersion => omitEmpty g.policyVersion
  | .parserVersion => omitEmpty g.parserVersion
  | .evaluatorVersion => omitEmpty g.evaluatorVersion
  | .resourceMetadata =>
    if g.resourceMetadata.size = 0 then none
    else some (.object (g.resourceMetadata.inOrder.map fun kv => (kv.1, .string kv.2)))
  | .policyDocuments =>
    if g.policyDocuments = [] then none else some (.array (g.policyDocuments.map marshalDocument))
  | .nowUnix => some (.number g.nowUnix.toInt)

def marshalRequest (g : Authz.Request) : Value :=
  .object (members RequestField.name (requestField g) RequestField.all)

def encodeRequest (g : Authz.Request) : Except String Value := do
  Authz.validateRequest g
  return marshalRequest g

end Encode

section Decode

def decodeMode : Value → Option AccessMode
  | .string s =>
    if s = "read" then some .read
    else if s = "append" then some .append
    else if s = "write" then some .write
    else if s = "control" then some .control
    else none
  | _ => none

def documentNames : List Str := ["uri", "sha256", "content_type"]

def decodeDocument (v : Value) : Option PolicyDocument := do
  let ms ← closedObject documentNames v
  return {
    uri := ← required asString ms "uri"
    sha256 := ← required asString ms "sha256"
    contentType := ← required asString ms "content_type" }

def requestNames : List Str :=
  ["schema_version", "request_id", "method", "resource_uri", "agent_webid",
    "client_id", "issuer", "origin", "requested_modes", "resource_version",
    "policy_version", "resource_metadata", "policy_documents", "now_unix"]

def decodeRequest (v : Value) : Option AuthzRequest := do
  let ms ← closedObject requestNames v
  return {
    schemaVersion := ← required asString ms "schema_version"
    requestId := ← required asString ms "request_id"
    method := ← required asString ms "method"
    resourceUri := ← required asString ms "resource_uri"
    agentWebid := ← nullable asString ms "agent_webid"
    clientId := ← nullable asString ms "client_id"
    issuer := ← nullable asString ms "issuer"
    origin := ← nullable asString ms "origin"
    requestedModes := ← required (asList decodeMode) ms "requested_modes"
    resourceVersion := ← nullable asString ms "resource_version"
    policyVersion := ← nullable asString ms "policy_version"
    resourceMetadata := ← defaulted asMap ∅ ms "resource_metadata"
    policyDocuments := ← defaulted (asList decodeDocument) [] ms "policy_documents"
    nowUnix := ← required asU64 ms "now_unix" }

end Decode

section Document

variable {d : Authz.PolicyDocument}

/-- Of the fields of a document, the kernel knows all but the content. -/
theorem not_mem_documentNames (f : DocumentField) : f.name ∉ documentNames ↔ f = .content := by
  cases f <;> decide +kernel

theorem closedObject_marshalDocument {ms} : closedObject documentNames (marshalDocument d) = some ms ↔
      d.content = [] ∧ members DocumentField.name (documentField d) DocumentField.all = ms := by
  rw [marshalDocument, closedObject_members DocumentField.name_injective DocumentField.nodup_all]
  simp [not_mem_documentNames, DocumentField.mem_all, documentField]

theorem decodeDocument_marshal : decodeDocument (marshalDocument d) =
      if d.content = [] then some ⟨d.uri, d.sha256, d.contentType⟩ else none := by
  have read (f : DocumentField) : required asString _ f.name = (documentField d f).bind asString :=
    required_members DocumentField.name_injective (DocumentField.mem_all f) asString
  unfold decodeDocument
  by_cases bare : d.content = []
  · have closed := closedObject_marshalDocument.mpr ⟨bare, rfl⟩
    have uri := read .uri
    have sha256 := read .sha256
    have contentType := read .contentType
    simp only [DocumentField.name, documentField, bind_some, asString] at uri sha256 contentType
    simp [closed, uri, sha256, contentType, bare]
  · have refused : closedObject documentNames _ = none :=
      eq_none_iff_forall_ne_some.mpr fun ms taken =>
        bare (closedObject_marshalDocument.mp taken).1
    simp [refused, bare]

end Document

section Request

variable {g : Authz.Request}

/-- The kernel's mode for a Go mode, where it has one. -/
def AccessMode.ofGo : Authz.AccessMode → AccessMode
  | .read | .other _ _ => .read
  | .append => .append
  | .write => .write
  | .control => .control

theorem AccessMode.toGo_ofGo {m} (known : validAccessMode m = true) : (ofGo m).toGo = m := by
  cases m <;> first | rfl | cases known

theorem decodeMode_text {m} (known : validAccessMode m = true) : decodeMode (.string m.text) = some (.ofGo m) := by
  cases m with
  | other text unknown => cases known
  | _ => rfl

def PolicyDocument.ofGo (d : Authz.PolicyDocument) : PolicyDocument :=
  ⟨d.uri, d.sha256, d.contentType⟩

theorem PolicyDocument.toGo_ofGo {d : Authz.PolicyDocument} (bare : d.content = []) : (ofGo d).toGo = d := by
  cases d
  cases bare
  rfl

def ofGo (g : Authz.Request) : AuthzRequest where
  schemaVersion := g.schemaVersion
  requestId := g.requestID
  method := g.method
  resourceUri := g.resourceURI
  agentWebid := optional g.agentWebID
  clientId := optional g.clientID
  issuer := optional g.issuer
  origin := optional g.origin
  requestedModes := g.requestedModes.map AccessMode.ofGo
  resourceVersion := optional g.resourceVersion
  policyVersion := optional g.policyVersion
  resourceMetadata := GoMap.ofPairs g.resourceMetadata.inOrder
  policyDocuments := g.policyDocuments.map PolicyDocument.ofGo
  nowUnix := Fin.ofNat (2 ^ 64) g.nowUnix.toInt.toNat

/-- The fields of a request that the kernel does not know are not used. -/
structure Portable (g : Authz.Request) : Prop where
  parserVersion : g.parserVersion = []
  evaluatorVersion : g.evaluatorVersion = []
  content : ∀ d ∈ g.policyDocuments, d.content = []

theorem represents_ofGo (valid : validateRequest g = .ok ()) (portable : Portable g) : Represents g (ofGo g) := by
  obtain ⟨_, _, _, _, _, known, _, _, _⟩ := Authz.validateRequest_eq_ok.mp valid
  constructor
  case requestedModes =>
    simp only [ofGo, List.map_map]
    refine (List.map_id _).symm.trans (List.map_congr_left fun m mem => ?_)
    exact (AccessMode.toGo_ofGo (known m mem)).symm
  case parserVersion => exact portable.parserVersion
  case evaluatorVersion => exact portable.evaluatorVersion
  case resourceMetadata => exact GoMap.lookup_ofPairs_inOrder g.resourceMetadata
  case policyDocuments =>
    simp only [ofGo, List.map_map]
    refine (List.map_id _).symm.trans (List.map_congr_left fun d mem => ?_)
    exact (PolicyDocument.toGo_ofGo (portable.content d mem)).symm
  case nowUnix =>
    have high := g.nowUnix.toInt_lt
    simp only [ofGo, Fin.val_ofNat]
    omega
  all_goals rfl

/-- Of the fields of a request, the kernel knows all but two versions. -/
theorem not_mem_requestNames (f : RequestField) :
    f.name ∉ requestNames ↔ f = .parserVersion ∨ f = .evaluatorVersion := by
  cases f <;> decide +kernel

theorem omitEmpty_eq_none {s} : omitEmpty s = none ↔ s = [] := by
  simp [omitEmpty]

theorem closedObject_marshalRequest {ms} :
    closedObject requestNames (marshalRequest g) = some ms ↔ (g.parserVersion = [] ∧ g.evaluatorVersion = []) ∧
        members RequestField.name (requestField g) RequestField.all = ms := by
  rw [marshalRequest, closedObject_members RequestField.name_injective RequestField.nodup_all]
  simp [not_mem_requestNames, RequestField.mem_all, requestField, omitEmpty_eq_none]

def requestMembers (g : Authz.Request) : List (Str × Value) :=
  members RequestField.name (requestField g) RequestField.all

theorem lookup_requestMembers (g : Request) (f : RequestField) :
    (requestMembers g).lookup f.name = requestField g f :=
  lookup_members RequestField.name_injective (RequestField.mem_all f)

theorem required_text {f s} (field : requestField g f = some (.string s)) :
    required asString (requestMembers g) f.name = some s := by
  rw [required, lookup_requestMembers, field]
  rfl

theorem nullable_text {f s} (field : requestField g f = omitEmpty s) :
    nullable asString (requestMembers g) f.name = some (optional s) := by
  rw [nullable, lookup_requestMembers, field]
  unfold omitEmpty optional
  split_ifs <;> rfl

theorem read_modes (known : ∀ m ∈ g.requestedModes, validAccessMode m = true) :
    required (asList decodeMode) (requestMembers g) RequestField.requestedModes.name =
      some (g.requestedModes.map .ofGo) := by
  rw [required, lookup_requestMembers]
  exact asList_map fun m mem => decodeMode_text (known m mem)

theorem read_metadata : defaulted asMap ∅ (requestMembers g) RequestField.resourceMetadata.name =
      some (.ofPairs g.resourceMetadata.inOrder) := by
  rw [defaulted, lookup_requestMembers]
  simp only [requestField]
  by_cases empty : g.resourceMetadata.size = 0
  · have none_inside : g.resourceMetadata = ∅ := by
      ext1
      exact List.length_eq_zero_iff.mp empty
    rw [none_inside]
    rfl
  · rw [if_neg empty]
    exact asMap_inOrder g.resourceMetadata

theorem read_documents (bare : ∀ d ∈ g.policyDocuments, d.content = []) :
    defaulted (asList decodeDocument) [] (requestMembers g) RequestField.policyDocuments.name =
      some (g.policyDocuments.map .ofGo) := by
  rw [defaulted, lookup_requestMembers]
  simp only [requestField]
  by_cases empty : g.policyDocuments = []
  · rw [empty]
    rfl
  · rw [if_neg empty]
    refine asList_map fun d mem => ?_
    rw [decodeDocument_marshal, if_pos (bare d mem)]
    rfl

theorem read_nowUnix (time : 0 ≤ g.nowUnix.toInt) :
    required asU64 (requestMembers g) RequestField.nowUnix.name = some (ofGo g).nowUnix := by
  have high := g.nowUnix.toInt_lt
  rw [required, lookup_requestMembers]
  refine (asU64_number time (by omega)).trans (congrArg some (Fin.ext ?_))
  simp only [ofGo, Fin.val_ofNat]
  omega

/-- A valid request that uses only what the kernel knows is decoded. -/
theorem decodeRequest_marshal (valid : validateRequest g = .ok ()) (portable : Portable g) :
    decodeRequest (marshalRequest g) = some (ofGo g) := by
  obtain ⟨_, _, _, _, _, known, _, time, _⟩ := Authz.validateRequest_eq_ok.mp valid
  have closed : closedObject requestNames _ = some _ :=
    closedObject_marshalRequest.mpr ⟨⟨portable.parserVersion, portable.evaluatorVersion⟩, rfl⟩
  refine bind_eq_some_iff.mpr ⟨_, closed, ?_⟩
  refine bind_eq_some_iff.mpr ⟨_, required_text (f := .schemaVersion) rfl, ?_⟩
  refine bind_eq_some_iff.mpr ⟨_, required_text (f := .requestID) rfl, ?_⟩
  refine bind_eq_some_iff.mpr ⟨_, required_text (f := .method) rfl, ?_⟩
  refine bind_eq_some_iff.mpr ⟨_, required_text (f := .resourceURI) rfl, ?_⟩
  refine bind_eq_some_iff.mpr ⟨_, nullable_text (f := .agentWebID) rfl, ?_⟩
  refine bind_eq_some_iff.mpr ⟨_, nullable_text (f := .clientID) rfl, ?_⟩
  refine bind_eq_some_iff.mpr ⟨_, nullable_text (f := .issuer) rfl, ?_⟩
  refine bind_eq_some_iff.mpr ⟨_, nullable_text (f := .origin) rfl, ?_⟩
  refine bind_eq_some_iff.mpr ⟨_, read_modes known, ?_⟩
  refine bind_eq_some_iff.mpr ⟨_, nullable_text (f := .resourceVersion) rfl, ?_⟩
  refine bind_eq_some_iff.mpr ⟨_, nullable_text (f := .policyVersion) rfl, ?_⟩
  refine bind_eq_some_iff.mpr ⟨_, read_metadata, ?_⟩
  refine bind_eq_some_iff.mpr ⟨_, read_documents portable.content, ?_⟩
  refine bind_eq_some_iff.mpr ⟨_, read_nowUnix time, ?_⟩
  rfl

/-- A request that is decoded uses only what the kernel knows. -/
theorem portable_of_decoded {r} (taken : decodeRequest (marshalRequest g) = some r) : Portable g := by
  obtain ⟨_, closed, taken⟩ := bind_eq_some_iff.mp taken
  -- the twelve fields before the documents
  iterate 12 obtain ⟨_, _, taken⟩ := bind_eq_some_iff.mp taken
  obtain ⟨documents, read, _⟩ := bind_eq_some_iff.mp taken
  obtain ⟨⟨parser, evaluator⟩, rfl⟩ := closedObject_marshalRequest.mp closed
  refine ⟨parser, evaluator, fun d mem => ?_⟩
  have field : defaulted _ [] (requestMembers g) RequestField.policyDocuments.name = some documents := read
  have some_inside : g.policyDocuments ≠ [] := List.ne_nil_of_mem mem
  rw [defaulted, lookup_requestMembers] at field
  simp only [requestField, some_inside] at field
  have decoded := isSome_of_asList_map field d mem
  by_contra content
  rw [decodeDocument_marshal, if_neg content] at decoded
  cases decoded

/-- An encoded request arrives with its canonical texts exactly when it has no parser version, no
evaluator version and no document with content. -/
theorem decodes_iff {v : Value} (encoded : encodeRequest g = .ok v) :
    (∃ r, decodeRequest v = some r ∧ canonicalRequest r = Authz.canonicalRequest g ∧
        canonicalPolicyDocuments r.policyDocuments = Authz.canonicalPolicyDocuments g.policyDocuments) ↔
      g.parserVersion = [] ∧ g.evaluatorVersion = [] ∧ ∀ d ∈ g.policyDocuments, d.content = [] := by
  obtain ⟨valid, written⟩ := then_eq_ok.mp encoded
  cases written
  constructor
  · rintro ⟨_, taken, _⟩
    have portable := portable_of_decoded taken
    exact ⟨portable.parserVersion, portable.evaluatorVersion, portable.content⟩
  · rintro ⟨parser, evaluator, content⟩
    have portable : Portable g := ⟨parser, evaluator, content⟩
    have rep := represents_ofGo valid portable
    refine ⟨ofGo g, decodeRequest_marshal valid portable, canonicalRequest_eq rep, ?_⟩
    rw [canonicalPolicyDocuments_eq, rep.policyDocuments]

end Request

section Sample

/-- A valid request that names the parser it was made for. -/
def versionedRequest (parserVersion : Str) : Authz.Request :=
  { goRequest "https://pod.example/a" [.read] with parserVersion }

theorem validateRequest_versioned (parserVersion : Str) :
    validateRequest (versionedRequest parserVersion) = .ok () := by
  have same : validateRequest (versionedRequest parserVersion) = validateRequest (versionedRequest []) := rfl
  rw [same]
  decide +kernel

theorem decodes_iff_sample : encodeRequest (versionedRequest []) = .ok (marshalRequest (versionedRequest [])) ∧
    ∃ r, decodeRequest (marshalRequest (versionedRequest [])) = some r ∧
      canonicalRequest r = Authz.canonicalRequest (versionedRequest []) ∧
      canonicalPolicyDocuments r.policyDocuments =
        Authz.canonicalPolicyDocuments (versionedRequest []).policyDocuments := by
  have encoded : encodeRequest _ = .ok _ :=
    then_eq_ok.mpr ⟨validateRequest_versioned [], rfl⟩
  exact ⟨encoded, (decodes_iff encoded).mpr ⟨rfl, rfl, nofun⟩⟩

/-- `EncodeRequest` accepts a request with a parser version; the kernel does not take it. -/
theorem versioned_request_refused : encodeRequest (versionedRequest (str "v1")) =
        .ok (marshalRequest (versionedRequest (str "v1"))) ∧
      decodeRequest (marshalRequest (versionedRequest (str "v1"))) = none := by
  refine ⟨then_eq_ok.mpr ⟨validateRequest_versioned _, rfl⟩, ?_⟩
  refine eq_none_iff_forall_ne_some.mpr fun r taken => ?_
  have parser : str "v1" = [] := (portable_of_decoded taken).parserVersion
  revert parser
  decide +kernel

end Sample

end Kernel
