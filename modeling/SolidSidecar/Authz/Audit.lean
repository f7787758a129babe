import SolidSidecar.Authz.Types
import SolidSidecar.Go.Order

/-!
# Audit hashes

A request is hashed in a canonical text: its fields in a fixed order, each as its name and its value
with separators around the value, the modes by rank and the metadata by key.
-/

namespace Authz
open Go

def pushField (name : String) (value : Str) : Str := str name ++ [0x1F] ++ value ++ [0x1E]

def pushOptionalField (name : String) (value : Str) : Str :=
  if value = [] then [] else pushField name value

def accessModeRank : AccessMode → Nat
  | .read => 0
  | .append => 1
  | .write => 2
  | .control => 3
  | .other _ _ => 99

/-- `pushModes`; unknown modes share a rank and keep their order. -/
def pushModes (modes : List AccessMode) : Str :=
  (modes.insertionSort fun a b => accessModeRank a ≤ accessModeRank b).flatMap fun mode =>
    pushField "requested_mode" mode.text

def pushMetadata (m : GoMap Str Str) : Str :=
  m.inOrder.flatMap fun kv =>
    pushField "resource_metadata_key" kv.1 ++ pushField "resource_metadata_value" kv.2

def canonicalRequest (r : Request) : Str :=
  pushField "schema_version" r.schemaVersion ++
  pushField "request_id" r.requestID ++
  pushField "method" r.method ++
  pushField "resource_uri" r.resourceURI ++
  pushOptionalField "agent_webid" r.agentWebID ++
  pushOptionalField "client_id" r.clientID ++
  pushOptionalField "issuer" r.issuer ++
  pushOptionalField "origin" r.origin ++
  pushModes r.requestedModes ++
  pushOptionalField "resource_version" r.resourceVersion ++
  pushOptionalField "policy_version" r.policyVersion ++
  pushMetadata r.resourceMetadata ++
  pushField "now_unix" (str (toString r.nowUnix.toInt))

/-- The order of policy documents: by URI, then by hash, then by content type. -/
def PolicyDocument.le (a b : PolicyDocument) : Bool :=
  if a.uri ≠ b.uri then a.uri.le b.uri
  else if a.sha256 ≠ b.sha256 then a.sha256.le b.sha256
  else a.contentType.le b.contentType

def canonicalPolicyDocuments (documents : List PolicyDocument) : Str :=
  (documents.insertionSort fun a b => a.le b = true).flatMap fun d =>
    pushField "policy_uri" d.uri ++ pushField "policy_sha256" d.sha256 ++
      pushField "policy_content_type" d.contentType

section

variable (sha256 : Str → Str)

def sha256Hex (value : Str) : Str := hexEncode (sha256 value)

def auditForRequest (r : Request) : AuditFields where
  requestHash := sha256Hex sha256 (canonicalRequest r)
  policyHash := sha256Hex sha256 (canonicalPolicyDocuments r.policyDocuments)

end

end Authz
