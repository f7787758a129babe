import SolidSidecar.Authz.ShadowEvaluator
import SolidSidecar.Go.Time

/-!
# The WAC and the ACP evaluator

`wac_evaluator.go` and `acp_evaluator.go`. Both check a request as the shadow evaluator does, look at
its policy documents, and judge it by the first rule that matches and grants every requested mode. The
content of a document is not read: each document of an RDF content type stands for two sample rules on
the resource it is named after. In shadow mode the judgement is made and then replaced by an
abstention.

Parsers are left out but for the content types they support, and so are logs, traces and the switches
that no branch reads.
-/

namespace Authz
open Go Strings

section Common

variable (sha256 : Str → Str)

/-- The checks of `ShadowEvaluator.Evaluate`, before what an evaluator does with a request that passes
them. -/
def whenValid (r : Request) (wellFormed : AuditFields → Decision) : Decision :=
  let audit := auditForRequest sha256 r
  let deny := fun reason => shadowDecision r audit .deny reason httpBadRequestStatus
  if r.schemaVersion ≠ schemaVersion then deny .unsupportedSchema
  else if !validToken r.requestID 128 || !supportedMethod r.method then deny .invalidRequest
  else if r.requestedModes = [] then deny .missingRequestedModes
  else if !validResourceURI r.resourceURI then deny .unsafeResourceURI
  else match validateRequest r with
    | .error _ => deny .invalidRequest
    | .ok () => wellFormed audit

/-- What the evaluators read of their options, with the defaults of `DefaultWACEvaluatorOptions` and
`DefaultACPEvaluatorOptions`. -/
structure PolicyEvaluatorOptions where
  maxPolicies : Int := 10
  timeout : Int := 30 * second
  shadowMode : Bool := true
  deriving DecidableEq, Repr

def PolicyEvaluatorOptions.filled (o : PolicyEvaluatorOptions) : PolicyEvaluatorOptions :=
  { o with
    maxPolicies := if o.maxPolicies = 0 then 10 else o.maxPolicies
    timeout := if o.timeout = 0 then 30 * second else o.timeout }

/-- What a judgement consists of: the value, the reason and the status hint. -/
abbrev Judgement := DecisionValue × ReasonCode × Int

/-- `Evaluate` of both evaluators, given how a request is judged by its documents. The context is asked
only under a positive timeout. -/
def evaluateDocuments (o : PolicyEvaluatorOptions) (judge : Request → Judgement)
    (contextError : Option String) (r : Request) : Except String Decision :=
  match if o.timeout > 0 then contextError else none with
  | some err => .error err
  | none => .ok <| whenValid sha256 r fun audit =>
    if r.policyDocuments = [] then shadowDecision r audit .abstain .policyNotLoaded 0
    else if r.policyDocuments.length > o.maxPolicies then
      shadowDecision r audit .abstain .policyNotLoaded 0
    else if o.shadowMode then shadowDecision r audit .abstain .kernelAbstainShadowMode 0
    else
      let (value, reason, statusHint) := judge r
      shadowDecision r audit value reason statusHint

/-- `evaluateRequestAgainstPolicies` of both evaluators over all rules of the policies. -/
def judgeByRules {α : Type} (matchesRequest allowsModes : α → Bool) (r : Request) (rules : List α) :
    Judgement :=
  if rules.isEmpty then (.abstain, .policyNotLoaded, 0)
  else if r.agentWebID = [] then (.abstain, .policyNotLoaded, 0)
  else if rules.any fun rule => matchesRequest rule && allowsModes rule then (.allow, .policyAllow, 200)
  else (.deny, .policyDeny, 403)

/-- `ruleMatchesRequest` of both evaluators: no class of agents is ever resolved. -/
def ruleMatches (accessTo agent agentClass : Str) (r : Request) : Bool :=
  accessTo = r.resourceURI && (agent = [] || agent = r.agentWebID) && agentClass = []

/-- The modes of a rule cover those of a request; a rule without modes covers all of them. -/
def coversModes (modes requested : List AccessMode) : Bool :=
  modes.isEmpty || requested.all fun mode => modes.contains mode

def rdfContentTypes : List Str :=
  ["text/turtle", "application/ld+json", "application/n-triples",
    "application/rdf+xml", "application/sparql-results+json"]

def isRDFContentType [Unicode] (contentType : Str) : Bool :=
  let contentType := toLower (trimSpace contentType)
  rdfContentTypes.contains contentType || contains contentType "turtle" || contains contentType "json"

/-- The resource that an access control document is named after. -/
def ruledResource (uri : Str) : Str := trimSuffix uri ".acl"

def ownerWebID : Str := "https://example.org/owner#webid"

def publicAgent : Str := "https://www.w3.org/ns/solid/interop#PublicAgent"

end Common

structure WACRule where
  authorization : Str
  accessTo : Str
  agent : Str := []
  agentClass : Str := []
  modes : List AccessMode
  deriving DecidableEq, Repr

structure WACPolicy where
  resourceURI : Str
  authorizationURI : Str
  rules : List WACRule
  owner : Str := []
  deriving DecidableEq, Repr

structure WACEvaluator where
  options : PolicyEvaluatorOptions

def newWACEvaluator (o : PolicyEvaluatorOptions) : WACEvaluator := ⟨o.filled⟩

namespace WACEvaluator

def createSampleRulesForResource (uri : Str) : List WACRule :=
  [{ authorization := ruledResource uri ++ ".acl", accessTo := ruledResource uri, agent := ownerWebID
     modes := [.read, .write, .control] },
   { authorization := ruledResource uri ++ ".acl", accessTo := ruledResource uri
     agent := publicAgent, modes := [.read] }]

def createPolicyFromDocument (d : PolicyDocument) : WACPolicy where
  resourceURI := d.uri
  authorizationURI := d.uri
  rules := createSampleRulesForResource d.uri

def parsePoliciesFromDocuments [Unicode] (documents : List PolicyDocument) : List WACPolicy :=
  (documents.filter fun d => isRDFContentType d.contentType).map createPolicyFromDocument

def ruleMatchesRequest (rule : WACRule) (r : Request) : Bool :=
  ruleMatches rule.accessTo rule.agent rule.agentClass r

def ruleAllowsModes (rule : WACRule) (requested : List AccessMode) : Bool :=
  coversModes rule.modes requested

def evaluateRequestAgainstPolicies (r : Request) (policies : List WACPolicy) : Judgement :=
  judgeByRules (ruleMatchesRequest · r) (ruleAllowsModes · r.requestedModes) r (policies.flatMap WACPolicy.rules)

def evaluate [Unicode] (sha256 : Str → Str) (e : WACEvaluator) : Option String → Request → Except String Decision :=
  evaluateDocuments sha256 e.options fun r =>
    evaluateRequestAgainstPolicies r (parsePoliciesFromDocuments r.policyDocuments)

end WACEvaluator

structure ACPAccess where
  accessTo : Str
  allows : Bool
  agent : Str := []
  agentClass : Str := []
  modes : List AccessMode
  deriving DecidableEq, Repr

structure ACPRule where
  access : ACPAccess
  resource : Str
  policy : Str
  deriving DecidableEq, Repr

structure ACPPolicy where
  resourceURI : Str
  policyURI : Str
  rules : List ACPRule
  owner : Str := []
  inherit : Bool := false
  deriving DecidableEq, Repr

structure ACPEvaluator where
  options : PolicyEvaluatorOptions

def newACPEvaluator (o : PolicyEvaluatorOptions) : ACPEvaluator := ⟨o.filled⟩

namespace ACPEvaluator

def createSampleRulesForResource (uri : Str) : List ACPRule :=
  [{ access :=
       { accessTo := ruledResource uri, allows := true, agent := ownerWebID
         modes := [.read, .write, .control, .append] }
     resource := ruledResource uri, policy := ruledResource uri ++ ".acl" },
   { access :=
       { accessTo := ruledResource uri, allows := true, agent := publicAgent, modes := [.read] }
     resource := ruledResource uri, policy := ruledResource uri ++ ".acl" }]

def createPolicyFromDocument (d : PolicyDocument) : ACPPolicy where
  resourceURI := d.uri
  policyURI := d.uri
  rules := createSampleRulesForResource d.uri

def parsePoliciesFromDocuments [Unicode] (documents : List PolicyDocument) : List ACPPolicy :=
  (documents.filter fun d => isRDFContentType d.contentType).map createPolicyFromDocument

def ruleMatchesRequest (rule : ACPRule) (r : Request) : Bool :=
  ruleMatches rule.access.accessTo rule.access.agent rule.access.agentClass r

/-- A rule that denies grants nothing; it takes nothing away either. -/
def ruleAllowsModes (rule : ACPRule) (requested : List AccessMode) : Bool :=
  rule.access.allows && coversModes rule.access.modes requested

def evaluateRequestAgainstPolicies (r : Request) (policies : List ACPPolicy) : Judgement :=
  judgeByRules (ruleMatchesRequest · r) (ruleAllowsModes · r.requestedModes) r (policies.flatMap ACPPolicy.rules)

def evaluate [Unicode] (sha256 : Str → Str) (e : ACPEvaluator) : Option String → Request → Except String Decision :=
  evaluateDocuments sha256 e.options fun r =>
    evaluateRequestAgainstPolicies r (parsePoliciesFromDocuments r.policyDocuments)

/-- Unless a request asks for append access, which only the sample rules of ACP give, the two evaluators agree. -/
theorem append_or_evaluate_eq_wac [Unicode] (sha256 : Str → Str) (o : PolicyEvaluatorOptions)
    (contextError : Option String) (r : Request) : .append ∈ r.requestedModes ∨
      (newWACEvaluator o).evaluate sha256 contextError r = (newACPEvaluator o).evaluate sha256 contextError r := by
  by_cases asks : .append ∈ r.requestedModes
  · exact .inl asks
  have modes : coversModes [.read, .write, .control, .append] r.requestedModes =
      coversModes [.read, .write, .control] r.requestedModes := by
    rw [Bool.eq_iff_iff]
    simp only [coversModes, List.isEmpty_cons, Bool.false_or, List.all_eq_true]
    refine forall₂_congr fun mode mem => ?_
    simp [ne_of_mem_of_not_mem mem asks]
  have same (documents : List PolicyDocument) : WACEvaluator.evaluateRequestAgainstPolicies r
        (documents.map WACEvaluator.createPolicyFromDocument) =
      evaluateRequestAgainstPolicies r (documents.map createPolicyFromDocument) := by
    cases documents with
    | nil => rfl
    | cons d rest =>
      simp [WACEvaluator.evaluateRequestAgainstPolicies, evaluateRequestAgainstPolicies, judgeByRules,
        WACEvaluator.createPolicyFromDocument, createPolicyFromDocument, WACEvaluator.createSampleRulesForResource,
        createSampleRulesForResource, WACEvaluator.ruleMatchesRequest, ruleMatchesRequest,
        WACEvaluator.ruleAllowsModes, ruleAllowsModes, modes]
  refine .inr ?_
  unfold newWACEvaluator newACPEvaluator WACEvaluator.evaluate evaluate evaluateDocuments
  simp only [WACEvaluator.parsePoliciesFromDocuments, parsePoliciesFromDocuments, same]

end ACPEvaluator

end Authz
