import SolidSidecar.Authz.ShadowEvaluator
import SolidSidecar.Go.Json

/-!
# The SAI evaluator

`sai_types.go`, the direct parser of `sai_parser.go` and `SAIEvaluator.Evaluate`. A policy is a JSON
document of rules, each a premise and a conclusion; the modes that the policies of a request grant are
collected and compared with the requested ones. The reason codes are the evaluator's own.

The messages about skipped documents are collected in the source and then dropped, so a document that
does not parse is only skipped here. Evaluation with inference has its own entry point and is left
out.
-/

namespace Authz
open Go Strings

def AccessMode.ofText (text : Str) : AccessMode :=
  if text = "read" then .read
  else if text = "append" then .append
  else if text = "write" then .write
  else if text = "control" then .control
  else if unknown : text ∉ knownModes then .other text unknown
  else .read

def saiAccessModeAny : AccessMode := .other "any" (by decide +kernel)

def reasonSAIAllow : ReasonCode := .other "saiAllow" (by decide +kernel)

def reasonSAIDeny : ReasonCode := .other "saiDeny" (by decide +kernel)

def reasonSAIShadowModeAbstain : ReasonCode :=
  .other "saiShadowModeAbstain" (by decide +kernel)

def saiMaxRulesPerPolicy : Nat := 100

def saiMaxPolicySize : Int := 65536

/-- The modes that a premise or a conclusion may name. -/
def saiMode (mode : AccessMode) : Bool := validAccessMode mode || mode = saiAccessModeAny

structure SAIPremise where
  agent : Str
  agentClass : Str
  resource : Str
  resourceClass : Str
  mode : AccessMode
  context : Str
  inherited : Bool
  deriving DecidableEq

namespace SAIPremise

variable (p : SAIPremise)

def isValid : Bool :=
  if p.agent = [] && p.agentClass = [] then false
  else if p.resource = [] && p.resourceClass = [] then false
  else p.mode.text = [] || saiMode p.mode

/-- The test of `MatchesAgent` and `MatchesResource`: the name if there is one, else the class, and
everything when there is neither. -/
def matchesNamed (name cls value : Str) (classes : List Str) : Bool :=
  if name ≠ [] then name = value
  else if cls ≠ [] && classes.contains cls then true
  else name = [] && cls = []

def matchesAgent : Str → List Str → Bool := matchesNamed p.agent p.agentClass

def matchesResource : Str → List Str → Bool :=
  matchesNamed p.resource p.resourceClass

def matchesMode (mode : AccessMode) : Bool :=
  if p.mode.text = [] || p.mode = saiAccessModeAny then true else p.mode = mode

end SAIPremise

structure SAIConclusion where
  allows : Bool
  grantedModes : List AccessMode
  delegationChain : Str
  priority : Int
  inherited : Bool
  deriving DecidableEq

def SAIConclusion.isValid (c : SAIConclusion) : Bool :=
  if c.allows && c.grantedModes = [] && c.delegationChain = [] then false
  else c.grantedModes.all saiMode

structure SAIRule where
  ruleID : Str
  premise : SAIPremise
  conclusion : SAIConclusion
  enabled : Bool
  deriving DecidableEq

namespace SAIRule

def isValid (r : SAIRule) : Bool := r.ruleID ≠ [] && r.premise.isValid && r.conclusion.isValid

def matchesRequest (r : SAIRule) (agent : Str) (agentClasses : List Str) (resource : Str)
    (resourceClasses : List Str) (mode : AccessMode) : Bool :=
  if !r.enabled || !r.isValid then false
  else
    r.premise.matchesAgent agent agentClasses && r.premise.matchesResource resource resourceClasses &&
      r.premise.matchesMode mode

end SAIRule

structure SAIPolicy where
  policyURI : Str
  resourceURI : Str
  rules : List SAIRule
  inherit : Bool
  owner : Str
  version : Str
  created : Str
  updated : Str
  deriving DecidableEq

namespace SAIPolicy

def isValid (p : SAIPolicy) : Bool :=
  p.policyURI ≠ [] && p.rules.length ≤ saiMaxRulesPerPolicy && p.rules.all SAIRule.isValid

def getApplicableRules (p : SAIPolicy) (agent resource : Str) (mode : AccessMode) : List SAIRule :=
  p.rules.filter fun rule => rule.matchesRequest agent [] resource [] mode

/-- The requested modes that some applicable rule grants. The rules are asked about the mode "any". -/
def getGrantedModes (p : SAIPolicy) (agent resource : Str) (requested : List AccessMode) : List AccessMode :=
  let applicable := p.getApplicableRules agent resource saiAccessModeAny
  let granted := (applicable.filter (·.conclusion.allows)).flatMap (·.conclusion.grantedModes)
  requested.filter fun mode => granted.contains mode || granted.contains saiAccessModeAny

end SAIPolicy

section Decode

variable [Unicode]

def SAIPremise.decode (ms : List (Str × Str)) : Option SAIPremise := do
  return {
    agent := ← Json.stringField "Agent" ms
    agentClass := ← Json.stringField "AgentClass" ms
    resource := ← Json.stringField "Resource" ms
    resourceClass := ← Json.stringField "ResourceClass" ms
    mode := .ofText (← Json.stringField "Mode" ms)
    context := ← Json.stringField "Context" ms
    inherited := ← Json.boolField "Inherited" ms }

def SAIConclusion.decode (ms : List (Str × Str)) : Option SAIConclusion := do
  return {
    allows := ← Json.boolField "Allows" ms
    grantedModes := (← Json.stringsField "GrantedModes" ms).map .ofText
    delegationChain := ← Json.stringField "DelegationChain" ms
    priority := ← Json.int64Field "Priority" ms
    inherited := ← Json.boolField "Inherited" ms }

def SAIRule.decode (ms : List (Str × Str)) : Option SAIRule := do
  return {
    ruleID := ← Json.stringField "RuleID" ms
    premise := ← SAIPremise.decode (← Json.structField "Premise" ms)
    conclusion := ← SAIConclusion.decode (← Json.structField "Conclusion" ms)
    enabled := ← Json.boolField "Enabled" ms }

def SAIPolicy.decode (ms : List (Str × Str)) : Option SAIPolicy := do
  return {
    policyURI := ← Json.stringField "PolicyURI" ms
    resourceURI := ← Json.stringField "ResourceURI" ms
    rules := ← Json.structsField "Rules" SAIRule.decode ms
    inherit := ← Json.boolField "Inherit" ms
    owner := ← Json.stringField "Owner" ms
    version := ← Json.stringField "Version" ms
    created := ← Json.stringField "Created" ms
    updated := ← Json.stringField "Updated" ms }

end Decode

/-- The evaluator: its switch, and the size limit of its parser. -/
structure SAIEvaluator where
  shadowMode : Bool := true
  maxInputSize : Int := saiMaxPolicySize
  deriving DecidableEq, Repr

def modesMatch (granted requested : List AccessMode) : Bool :=
  requested.all fun mode => granted.contains mode

namespace SAIEvaluator

variable [Unicode]

/-- `ParseSAIPolicyDirect`, under the error of its context. -/
def parseSAIPolicyDirect (e : SAIEvaluator) (contextError : Option String) (content : Str) : Option SAIPolicy :=
  if contextError.isSome || content.length > e.maxInputSize then none
  else (Json.unmarshal content).bind SAIPolicy.decode

def isSAIPolicyDocument (d : PolicyDocument) : Bool :=
  let contentType := toLower d.contentType
  contains contentType "sai" || contains contentType "application/json" ||
    contains d.uri ".sai" || contains d.uri "sai"

def grantedByDocument (e : SAIEvaluator) (contextError : Option String) (r : Request)
    (d : PolicyDocument) : List AccessMode :=
  if !isSAIPolicyDocument d || d.content = [] then []
  else match e.parseSAIPolicyDirect contextError d.content with
    | none => []
    | some policy =>
      if policy.isValid then policy.getGrantedModes r.agentWebID r.resourceURI r.requestedModes else []

/-- `evaluateSAIPolicies`; `contextError` gives the error of the context at each time it is asked, which
is once before this and then for each document. -/
def evaluateSAIPolicies (e : SAIEvaluator) (contextError : Nat → Option String) (r : Request)
    (audit : AuditFields) : Decision :=
  let granted := r.policyDocuments.zipIdx.flatMap fun (d, i) =>
    e.grantedByDocument (contextError (i + 1)) r d
  let allowed := modesMatch granted r.requestedModes
  { schemaVersion := schemaVersion
    requestID := r.requestID
    decision := if allowed then .allow else .deny
    reasonCode := if allowed then reasonSAIAllow else reasonSAIDeny
    statusHint := if allowed then 0 else 403
    cacheTTLSeconds := 0
    policyVersion := r.policyVersion
    resourceVersion := r.resourceVersion
    audit := audit }

/-- `Evaluate`. The modes are checked after the URI, and the request is not validated as a whole. -/
def evaluate (sha256 : Str → Str) (e : SAIEvaluator) (contextError : Nat → Option String)
    (r : Request) : Except String Decision :=
  match contextError 0 with
  | some err => .error ("SAI evaluation failed: " ++ err)
  | none =>
    let audit := auditForRequest sha256 r
    let deny := fun reason => shadowDecision r audit .deny reason httpBadRequestStatus
    .ok <|
      if r.schemaVersion ≠ schemaVersion then deny .unsupportedSchema
      else if !validToken r.requestID 128 then deny .invalidRequest
      else if !supportedMethod r.method then deny .invalidRequest
      else if !validResourceURI r.resourceURI then deny .unsafeResourceURI
      else if r.requestedModes = [] then deny .missingRequestedModes
      else if e.shadowMode then shadowDecision r audit .abstain reasonSAIShadowModeAbstain 0
      else e.evaluateSAIPolicies contextError r audit

end SAIEvaluator

end Authz
