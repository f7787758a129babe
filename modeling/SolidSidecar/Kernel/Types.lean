import SolidSidecar.Go.Map
import SolidSidecar.Go.Str

/-!
# Data of the policy kernel

`types.rs` of the crate `solid-policy-kernel`. A `String` is its UTF-8 bytes, a `BTreeMap` a finite
map that is read in the order of its keys, and a `u64` a number below `2 ^ 64`.
-/

namespace Kernel
open Go

def schemaVersion : Str := "authz.v1"

instance neZero : NeZero (2 ^ 64) := ⟨by decide⟩

inductive AccessMode where
  | read
  | append
  | write
  | control
  deriving DecidableEq, Repr

structure PolicyDocument where
  uri : Str
  sha256 : Str
  contentType : Str
  deriving DecidableEq, Repr

structure AuthzRequest where
  schemaVersion : Str
  requestId : Str
  method : Str
  resourceUri : Str
  agentWebid : Option Str := none
  clientId : Option Str := none
  issuer : Option Str := none
  origin : Option Str := none
  requestedModes : List AccessMode
  resourceVersion : Option Str := none
  policyVersion : Option Str := none
  resourceMetadata : GoMap Str Str := ∅
  policyDocuments : List PolicyDocument := []
  nowUnix : Fin (2 ^ 64)
  deriving DecidableEq

inductive Decision where
  | allow
  | deny
  | abstain
  deriving DecidableEq, Repr

inductive ReasonCode where
  | kernelAbstainShadowMode
  | invalidRequest
  | unsupportedSchemaVersion
  | missingRequestedModes
  | unsafeResourceUri
  | policyNotLoaded
  | policyAllow
  | policyDeny
  | kernelError
  deriving DecidableEq, Repr

structure AuditFields where
  requestHash : Str
  policyHash : Str
  deriving DecidableEq, Repr

structure AuthzDecision where
  schemaVersion : Str
  requestId : Str
  decision : Decision
  reasonCode : ReasonCode
  statusHint : Option (Fin (2 ^ 16)) := none
  cacheTtlSeconds : Fin (2 ^ 16)
  policyVersion : Option Str := none
  resourceVersion : Option Str := none
  audit : AuditFields
  deriving DecidableEq, Repr

end Kernel
