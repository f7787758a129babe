import SolidSidecar.Go.Order
import SolidSidecar.Go.Strings
import SolidSidecar.Kernel.Types

/-!
# The policy kernel

`kernel.rs`. Its checks read bytes, and no part of a URI is parsed: a resource is safe when it starts
like a web address and holds no control character, backslash or fragment.
-/

namespace Kernel
open Go

structure KernelConfig where
  shadowMode : Bool := true
  maxRequestIdLen : Nat := 128
  maxResourceUriLen : Nat := 4096
  deriving DecidableEq, Repr

def isAsciiGraphic (b : UInt8) : Bool := 0x21 ≤ b.toNat && b.toNat ≤ 0x7E

def isAsciiControl (b : UInt8) : Bool := b.toNat < 0x20 || b.toNat == 0x7F

def isValidRequestId (requestId : Str) (maxLen : Nat) : Bool :=
  !requestId.isEmpty && requestId.length ≤ maxLen && requestId.all isAsciiGraphic

def isSupportedMethod (method : Str) : Bool :=
  method ∈ [str "GET", "HEAD", "OPTIONS", "POST", "PUT", "PATCH", "DELETE"]

def isSafeResourceUri (resourceUri : Str) (maxLen : Nat) : Bool :=
  if resourceUri.isEmpty || resourceUri.length > maxLen then false
  else if resourceUri.any fun b => isAsciiControl b || b == 0x5C then false
  else if resourceUri.contains 0x23 then false
  else Strings.hasPrefix resourceUri "https://" || Strings.hasPrefix resourceUri "http://"

def pushField (name : String) (value : Str) : Str := str name ++ [0x1F] ++ value ++ [0x1E]

def pushOption (name : String) : Option Str → Str
  | some value => pushField name value
  | none => []

def AccessMode.index : AccessMode → Nat
  | .read => 0
  | .append => 1
  | .write => 2
  | .control => 3

def AccessMode.value : AccessMode → Str
  | .read => "read"
  | .append => "append"
  | .write => "write"
  | .control => "control"

def pushModes (modes : List AccessMode) : Str :=
  (modes.insertionSort fun a b => a.index ≤ b.index).flatMap fun mode =>
    pushField "requested_mode" mode.value

def canonicalRequest (r : AuthzRequest) : Str :=
  pushField "schema_version" r.schemaVersion ++
  pushField "request_id" r.requestId ++
  pushField "method" r.method ++
  pushField "resource_uri" r.resourceUri ++
  pushOption "agent_webid" r.agentWebid ++
  pushOption "client_id" r.clientId ++
  pushOption "issuer" r.issuer ++
  pushOption "origin" r.origin ++
  pushModes r.requestedModes ++
  pushOption "resource_version" r.resourceVersion ++
  pushOption "policy_version" r.policyVersion ++
  (r.resourceMetadata.inOrder.flatMap fun kv =>
    pushField "resource_metadata_key" kv.1 ++ pushField "resource_metadata_value" kv.2) ++
  pushField "now_unix" (str (toString r.nowUnix.val))

def cmp (a b : Str) : Ordering := if a = b then .eq else if a.le b then .lt else .gt

def PolicyDocument.cmp (left right : PolicyDocument) : Ordering :=
  ((Kernel.cmp left.uri right.uri).then (Kernel.cmp left.sha256 right.sha256)).then
    (Kernel.cmp left.contentType right.contentType)

def canonicalPolicyDocuments (documents : List PolicyDocument) : Str :=
  (documents.insertionSort fun a b => (a.cmp b).isLE = true).flatMap fun d =>
    pushField "policy_uri" d.uri ++ pushField "policy_sha256" d.sha256 ++
      pushField "policy_content_type" d.contentType

section

variable (sha256 : Str → Str)

def sha256Hex (input : Str) : Str := hexEncode (sha256 input)

def auditFields (r : AuthzRequest) : AuditFields where
  requestHash := sha256Hex sha256 (canonicalRequest r)
  policyHash := sha256Hex sha256 (canonicalPolicyDocuments r.policyDocuments)

def decisionRequestId (r : AuthzRequest) (audit : AuditFields) (config : KernelConfig) : Str :=
  if isValidRequestId r.requestId config.maxRequestIdLen then r.requestId
  else "invalid-request-" ++ audit.requestHash.take 32

def decision (r : AuthzRequest) (audit : AuditFields) (decision : Decision) (reasonCode : ReasonCode)
    (statusHint : Option (Fin (2 ^ 16))) (cacheTtlSeconds : Fin (2 ^ 16)) (config : KernelConfig) :
    AuthzDecision where
  schemaVersion := schemaVersion
  requestId := decisionRequestId r audit config
  decision := decision
  reasonCode := reasonCode
  statusHint := statusHint
  cacheTtlSeconds := cacheTtlSeconds
  policyVersion := r.policyVersion
  resourceVersion := r.resourceVersion
  audit := audit

def evaluate (r : AuthzRequest) (config : KernelConfig) : AuthzDecision :=
  let audit := auditFields sha256 r
  let deny := fun reason => decision r audit .deny reason (some 400) 0 config
  if r.schemaVersion ≠ schemaVersion then deny .unsupportedSchemaVersion
  else if !isValidRequestId r.requestId config.maxRequestIdLen || !isSupportedMethod r.method then
    deny .invalidRequest
  else if r.requestedModes.isEmpty then deny .missingRequestedModes
  else if !isSafeResourceUri r.resourceUri config.maxResourceUriLen then deny .unsafeResourceUri
  else if config.shadowMode then decision r audit .abstain .kernelAbstainShadowMode none 0 config
  else decision r audit .abstain .policyNotLoaded none 0 config

end

end Kernel
