import SolidSidecar.Authz.Audit
import SolidSidecar.Authz.Validation

/-!
# The shadow evaluator

`evaluator.go`: malformed requests are denied with the reason for it, and every well-formed one is
left to the server behind.
-/

namespace Authz
open Go

variable (sha256 : Str → Str)

/-- The request's own id, or a stand-in made from the request hash. -/
def decisionRequestID (r : Request) (audit : AuditFields) : Str :=
  if validToken r.requestID 128 then r.requestID
  else "invalid-request-" ++ audit.requestHash.take 32

def shadowDecision (r : Request) (audit : AuditFields) (decision : DecisionValue)
    (reason : ReasonCode) (statusHint : Int) : Decision where
  schemaVersion := schemaVersion
  requestID := decisionRequestID r audit
  decision := decision
  reasonCode := reason
  statusHint := statusHint
  cacheTTLSeconds := 0
  policyVersion := r.policyVersion
  resourceVersion := r.resourceVersion
  audit := audit

def httpBadRequestStatus : Int := 400

/-- The decision of `ShadowEvaluator.Evaluate` under a live context. -/
def shadowEvaluate (r : Request) : Decision :=
  let audit := auditForRequest sha256 r
  let deny := fun reason => shadowDecision r audit .deny reason httpBadRequestStatus
  if r.schemaVersion ≠ schemaVersion then deny .unsupportedSchema
  else if !validToken r.requestID 128 || !supportedMethod r.method then deny .invalidRequest
  else if r.requestedModes = [] then deny .missingRequestedModes
  else if !validResourceURI r.resourceURI then deny .unsafeResourceURI
  else match validateRequest r with
    | .error _ => deny .invalidRequest
    | .ok () => shadowDecision r audit .abstain .kernelAbstainShadowMode 0

/-- `ShadowEvaluator.Evaluate` with the error of its context. -/
def ShadowEvaluator.evaluate (contextError : Option String) (r : Request) : Except String Decision :=
  match contextError with
  | some err => .error err
  | none => .ok (shadowEvaluate sha256 r)

end Authz
