import SolidSidecar.Go.Map
import SolidSidecar.Go.Str

/-!
# Authorization requests and decisions

The data of package `authz`. Its enumerations are string types in the source, and a value outside
the constants can arrive from outside; the constructor `other` keeps such a value and the proof that
it is none of the constants. A decision's trace and mode annotations are left out: no function of
this development reads them.
-/

namespace Authz
open Go

def schemaVersion : Str := "authz.v1"

def knownModes : List Str := ["read", "append", "write", "control"]

inductive AccessMode where
  | read
  | append
  | write
  | control
  | other (text : Str) (unknown : text ∉ knownModes)
  deriving DecidableEq, Repr

def AccessMode.text : AccessMode → Str
  | .read => "read"
  | .append => "append"
  | .write => "write"
  | .control => "control"
  | .other text _ => text

inductive DecisionValue where
  | allow
  | deny
  | abstain
  | other (text : Str) (unknown : text ∉ [str "allow", "deny", "abstain"])
  deriving DecidableEq, Repr

/-- The texts of the reason codes that `types.go` names. -/
def knownReasons : List Str :=
  ["kernel_abstain_shadow_mode", "invalid_request", "unsupported_schema_version",
    "missing_requested_modes", "unsafe_resource_uri", "policy_not_loaded",
    "policy_allow", "policy_deny", "kernel_error", "cached_decision"]

inductive ReasonCode where
  | kernelAbstainShadowMode
  | invalidRequest
  | unsupportedSchema
  | missingRequestedModes
  | unsafeResourceURI
  | policyNotLoaded
  | policyAllow
  | policyDeny
  | kernelError
  | cachedDecision
  | other (text : Str) (unknown : text ∉ knownReasons)
  deriving DecidableEq, Repr

def ReasonCode.text : ReasonCode → Str
  | .kernelAbstainShadowMode => "kernel_abstain_shadow_mode"
  | .invalidRequest => "invalid_request"
  | .unsupportedSchema => "unsupported_schema_version"
  | .missingRequestedModes => "missing_requested_modes"
  | .unsafeResourceURI => "unsafe_resource_uri"
  | .policyNotLoaded => "policy_not_loaded"
  | .policyAllow => "policy_allow"
  | .policyDeny => "policy_deny"
  | .kernelError => "kernel_error"
  | .cachedDecision => "cached_decision"
  | .other text _ => text

structure PolicyDocument where
  uri : Str
  sha256 : Str
  contentType : Str
  content : Str := []
  deriving DecidableEq, Repr

structure Request where
  schemaVersion : Str
  requestID : Str
  method : Str
  resourceURI : Str
  agentWebID : Str := []
  clientID : Str := []
  issuer : Str := []
  origin : Str := []
  requestedModes : List AccessMode
  resourceVersion : Str := []
  policyVersion : Str := []
  parserVersion : Str := []
  evaluatorVersion : Str := []
  resourceMetadata : GoMap Str Str := ∅
  policyDocuments : List PolicyDocument := []
  nowUnix : Int64
  deriving DecidableEq

structure AuditFields where
  requestHash : Str
  policyHash : Str
  deriving DecidableEq, Repr

structure Decision where
  schemaVersion : Str
  requestID : Str
  decision : DecisionValue
  reasonCode : ReasonCode
  statusHint : Int := 0
  cacheTTLSeconds : Int := 0
  policyVersion : Str := []
  resourceVersion : Str := []
  audit : AuditFields
  deriving DecidableEq, Repr

end Authz
