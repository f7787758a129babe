import SolidSidecar.Go.JsonEncode
import SolidSidecar.Go.Map
import SolidSidecar.Go.Time
import SolidSidecar.Run.Mutex
import SolidSidecar.Runtime.Validation

/-!
# The policy engine layer

`policy.go`: policy documents are loaded and parsed into rules, and a request is judged by the rules of the
documents that apply to it; a judgement is kept in a cache that every change of the documents empties. The layer
has one lock, and its methods are calls that take it (`Run.Mutex`), as the source nests them.
-/

namespace Runtime
open Go Run Strings

inductive PolicyDecision where
  | allow
  | deny
  | abstain
  | unknown
  deriving DecidableEq, Repr

inductive PolicyFormat where
  | wac
  | acp
  | sai
  | unknown
  deriving DecidableEq, Repr

abbrev PolicyAgentType := Str

def policyAgentTypeWebID : PolicyAgentType := "WebID"

def policyAgentTypeGroup : PolicyAgentType := "Group"

def policyAgentTypeClass : PolicyAgentType := "Class"

def policyAgentTypeAgent : PolicyAgentType := "Agent"

def policyAgentTypePublic : PolicyAgentType := "Public"

def policyAgentTypeAuthenticated : PolicyAgentType := "Authenticated"

inductive PolicyAccessMode where
  | read
  | write
  | append
  | control
  | all
  deriving DecidableEq, Repr

structure PolicyCondition where
  type : Str
  value : Str
  operator : Str
  deriving DecidableEq, Repr

structure PolicyRule where
  ruleType : Str
  agent : Str
  agentType : PolicyAgentType
  accessModes : List PolicyAccessMode
  resource : Str
  conditions : List PolicyCondition
  validFrom : Time
  validUntil : Time
  deriving DecidableEq, Repr

inductive PolicyParseError where
  | acpDisabled
  | saiDisabled
  | unsupportedFormat (format : PolicyFormat)
  deriving DecidableEq, Repr

structure PolicyDocument where
  uri : Str
  format : PolicyFormat
  rawContent : Str
  contentType : Str
  parsedRules : List PolicyRule
  hash : Str
  lastModified : Time
  valid : Bool
  parseError : Option PolicyParseError
  deriving DecidableEq, Repr

structure PolicyEvaluationContext where
  requestURI : Str
  method : Str
  agent : Str
  agentType : PolicyAgentType
  clientID : Str
  resourceType : Str
  container : Str
  timestamp : Time
  deriving DecidableEq, Repr

structure PolicyEvaluationResult where
  decision : PolicyDecision
  rulesEvaluated : Nat
  matchingRules : List PolicyRule
  allowingRules : List PolicyRule
  denyingRules : List PolicyRule
  shadow : Bool
  policyURIs : List Str
  evaluationTimestamp : Time
  cacheKey : Str
  explanation : Str
  deriving DecidableEq, Repr

structure PolicyEngineConfig where
  shadowMode : Bool
  maxPolicySize : Int
  maxCacheSize : Int
  enableACPSupport : Bool
  enableSAISupport : Bool

def defaultPolicyEngineConfig : PolicyEngineConfig where
  shadowMode := true
  maxPolicySize := 1024 * 1024
  maxCacheSize := 1000
  enableACPSupport := true
  enableSAISupport := true

inductive PolicyError where
  | invalidPolicyURI (cause : ValidationError)
  | invalidContentType (cause : ValidationError)
  | contentValidation (cause : ValidationError)
  | closed
  | tooLarge (size : Nat) (limit : Int)
  | nilContext
  | invalidRequestURI (cause : ValidationError)
  | invalidAgent (cause : ValidationError)
  | invalidClientID (cause : ValidationError)
  | invalidResourceType (cause : ValidationError)
  | invalidContainer (cause : ValidationError)
  | notFound (uri : Str)
  deriving DecidableEq, Repr

structure PolicyEngineLayer where
  config : PolicyEngineConfig
  policies : GoMap Str PolicyDocument
  evaluationCache : GoMap Str PolicyEvaluationResult
  closed : Bool

namespace PolicyEngineLayer

variable (m : Mutex)

def new (config : PolicyEngineConfig) : PolicyEngineLayer where
  config := config
  policies := ∅
  evaluationCache := ∅
  closed := false

section Parsing

variable [Unicode]

def detectPolicyFormat (uri contentType content : Str) : PolicyFormat :=
  let contentType := toLower contentType
  let uri := toLower uri
  if contains contentType "acl" then .wac
  else if contains contentType "access" then .acp
  else if contains contentType "sai" then .sai
  else if contains uri ".acl" || contains uri "acl" then .wac
  else if contains uri ".access" || contains uri "access" then .acp
  else if contains uri ".sai" || contains uri "sai" then .sai
  else if contains content "acl:Authorization" || contains content "acl:accessTo" then .wac
  else if contains content "acp:AccessControl" || contains content "acp:Policy" then .acp
  else if contains content "sai:" || contains content "SolidAuthorization" then .sai
  else .wac

end Parsing

/-- What stands between the first `<` of a line and its last `>`. -/
def bracketed (line : Str) : Str :=
  match line.findIdx? (· == 0x3C), cutLast line 0x3E with
  | some start, some (upTo, _) => if start < upTo.length then upTo.drop (start + 1) else []
  | _, _ => []

def agentTypeOf (line : Str) : PolicyAgentType :=
  if contains line "acl:agentClass" then policyAgentTypeClass
  else if contains line "acl:agentGroup" then policyAgentTypeGroup
  else policyAgentTypeWebID

def accessModesOf (line : Str) : List PolicyAccessMode :=
  (if contains line "acl:Read" then [.read] else []) ++
  (if contains line "acl:Write" then [.write] else []) ++
  (if contains line "acl:Append" then [.append] else []) ++
  (if contains line "acl:Control" then [.control] else [])

/-- The rule of one line, if it names an agent and a mode. -/
def parseLine (now : Time) (uri line : Str) : Option PolicyRule :=
  let line := trimSpace line
  if line = [] ∨ hasPrefix line "#" = true then none
  else if contains line "acl:agent" || contains line "acl:agentClass" then
    if bracketed line = [] ∨ accessModesOf line = [] then none
    else some {
      ruleType := "grant"
      agent := bracketed line
      agentType := agentTypeOf line
      accessModes := accessModesOf line
      resource := uri
      conditions := []
      validFrom := now
      validUntil := .zero }
  else none

def parseWAC (now : Time) (uri content : Str) : List PolicyRule :=
  (split 0x0A content).filterMap (parseLine now uri)

def parsePolicy (config : PolicyEngineConfig) (now : Time) (format : PolicyFormat) (uri content : Str) :
    Except PolicyParseError (List PolicyRule) :=
  match format with
  | .wac => .ok (parseWAC now uri content)
  | .acp => if config.enableACPSupport then .ok [] else .error .acpDisabled
  | .sai => if config.enableSAISupport then .ok [] else .error .saiDisabled
  | .unknown => .error (.unsupportedFormat .unknown)

def hashContent : Str → Str
  | [] => []
  | first :: rest => Json.ofNat (rest.length + 1) ++ "-" ++ Json.ofNat first.toNat

section Judging

variable [Unicode]

def agentMatches (rule : PolicyRule) (ctx : PolicyEvaluationContext) : Bool :=
  rule.agent = ctx.agent ||
  rule.agentType = policyAgentTypePublic ||
  (rule.agentType = policyAgentTypeAuthenticated && ctx.agent ≠ []) ||
  rule.agentType = policyAgentTypeClass ||
  rule.agentType = policyAgentTypeGroup

def conditionMatches (condition : PolicyCondition) (ctx : PolicyEvaluationContext) : Bool :=
  if condition.type = "method" then equalFold condition.value ctx.method
  else if condition.type = "resourceType" then equalFold condition.value ctx.resourceType
  else if condition.type = "container" then equalFold condition.value ctx.container
  else true

def ruleApplies (now : Time) (rule : PolicyRule) (ctx : PolicyEvaluationContext) : Bool :=
  agentMatches rule ctx &&
  (rule.resource = [] || rule.resource = ctx.requestURI || hasSuffix ctx.requestURI rule.resource) &&
  rule.conditions.all (conditionMatches · ctx) &&
  !(!rule.validFrom.isZero && now.before rule.validFrom) &&
  !(!rule.validUntil.isZero && now.after rule.validUntil)

def modeMatches (requestMode ruleMode : PolicyAccessMode) : Bool :=
  requestMode = ruleMode || ruleMode = .all || requestMode = .all

def methodToAccessMode (method : Str) : PolicyAccessMode :=
  let method := toUpper method
  if method = "GET" ∨ method = "HEAD" ∨ method = "OPTIONS" then .read
  else if method = "POST" then .append
  else if method = "PUT" ∨ method = "PATCH" then .write
  else if method = "DELETE" then .control
  else .read

/-- The URI up to its last slash, trailing slashes apart. -/
def extractContainerURI (resourceURI : Str) : Str :=
  match cutLast (trimRight resourceURI 0x2F) 0x2F with
  | none => []
  | some (before, _) => before ++ "/"

def policyAppliesToResource (policyURI resourceURI : Str) : Bool :=
  policyURI = resourceURI ||
  (hasSuffix resourceURI policyURI &&
    (extractContainerURI resourceURI = policyURI || hasSuffix (extractContainerURI resourceURI) policyURI)) ||
  hasPrefix resourceURI policyURI

def findApplicablePolicies (p : PolicyEngineLayer) (order : RangeOrder Str) (ctx : PolicyEvaluationContext) : List Str :=
  (order.visit p.policies.keys).filter fun policyURI => policyAppliesToResource policyURI ctx.requestURI

def generateCacheKey (ctx : PolicyEvaluationContext) : Str :=
  ctx.requestURI ++ "|" ++ ctx.method ++ "|" ++ ctx.agent ++ "|" ++ ctx.agentType ++ "|" ++ ctx.resourceType

/-- The rules that are looked at: those of the valid documents that apply. -/
def applicableRules (p : PolicyEngineLayer) (uris : List Str) : List PolicyRule :=
  uris.flatMap fun policyURI =>
    match p.policies.lookup policyURI with
    | none => []
    | some policy => if policy.valid then policy.parsedRules else []

/-- A rule once for each of its modes that the request asks for. -/
def perMode (requestMode : PolicyAccessMode) (rule : PolicyRule) : List PolicyRule :=
  (rule.accessModes.filter (modeMatches requestMode)).map fun _ => rule

def judge (p : PolicyEngineLayer) (now : Time) (order : RangeOrder Str) (ctx : PolicyEvaluationContext) :
    PolicyEvaluationResult :=
  let uris := p.findApplicablePolicies order ctx
  let rules := p.applicableRules uris
  let matching := rules.filter fun rule => ruleApplies now rule ctx
  let asked := matching.flatMap (perMode (methodToAccessMode ctx.method))
  let allowing := asked.filter fun rule => rule.ruleType = str "grant" || rule.ruleType = str "allow"
  let denying := asked.filter fun rule => rule.ruleType = str "deny"
  let outcome : PolicyDecision × Str :=
    if allowing ≠ [] ∧ denying = [] then (.allow, "Access allowed by matching grant rules")
    else if denying ≠ [] then (.deny, "Access denied by matching deny rules")
    else (.abstain, "No matching rules found, abstaining")
  { decision := outcome.1
    rulesEvaluated := rules.length
    matchingRules := matching
    allowingRules := allowing
    denyingRules := denying
    shadow := p.config.shadowMode
    policyURIs := uris
    evaluationTimestamp := now
    cacheKey := generateCacheKey ctx
    explanation := outcome.2 }

end Judging

def invalidatePolicyCache : Guarded PolicyEngineLayer Unit :=
  Guarded.exclusively m <| Guarded.modify fun p => if p.closed then p else { p with evaluationCache := ∅ }

/-- The entry that makes room, whichever `range` comes to first. -/
def evictOne (p : PolicyEngineLayer) (order : RangeOrder Str) : GoMap Str PolicyEvaluationResult :=
  if p.config.maxCacheSize ≤ p.evaluationCache.size then
    match order.visit p.evaluationCache.keys with
    | [] => p.evaluationCache
    | k :: _ => p.evaluationCache.erase k
  else p.evaluationCache

def cacheEvaluationResult (order : RangeOrder Str) (key : Str) (result : PolicyEvaluationResult) :
    Guarded PolicyEngineLayer Unit :=
  Guarded.exclusively m <| Guarded.modify fun p =>
    if p.closed then p else { p with evaluationCache := (p.evictOne order).insert key result }

def checkLoad (uri content contentType : Str) : Except PolicyError Unit := do
  (validateURI uri).mapError .invalidPolicyURI
  (validateContentType contentType).mapError .invalidContentType
  (validateResourceSize content.length).mapError .contentValidation

section Load

variable [Unicode]

/-- The document of a content: one that is not parsed is kept too, as invalid. -/
def document (config : PolicyEngineConfig) (now : Time) (uri content contentType : Str) : PolicyDocument :=
  let format := detectPolicyFormat uri contentType content
  let parsed := parsePolicy config now format uri content
  { uri := uri
    format := format
    rawContent := content
    contentType := contentType
    parsedRules := parsed.toOption.getD []
    hash := hashContent content
    lastModified := now
    valid := parsed.toOption.isSome
    parseError := match parsed with
      | .error err => some err
      | .ok _ => none }

def admitted (p : PolicyEngineLayer) (now : Time) (uri content contentType : Str) :
    Except PolicyError PolicyDocument := do
  refuse (p.closed = true) .closed
  refuse (p.config.maxPolicySize < content.length) (.tooLarge content.length p.config.maxPolicySize)
  pure (document p.config now uri content contentType)

def storePolicy (m : Mutex) (policy : PolicyDocument) : Guarded PolicyEngineLayer (Except PolicyError PolicyDocument) := do
  Guarded.modify fun p => { p with policies := p.policies.insert policy.uri policy }
  invalidatePolicyCache m
  return .ok policy

def loadPolicy (m : Mutex) (now : Time) (uri content contentType : Str) :
    Guarded PolicyEngineLayer (Except PolicyError PolicyDocument) :=
  match checkLoad uri content contentType with
  | .error err => pure (.error err)
  | .ok () => Guarded.exclusively m do
    match ← Guarded.read fun p => p.admitted now uri content contentType with
    | .error err => return .error err
    | .ok policy => storePolicy m policy

end Load

def dropPolicy (uri : Str) : Guarded PolicyEngineLayer (Except PolicyError Unit) := do
  Guarded.modify fun p => { p with policies := p.policies.erase uri }
  invalidatePolicyCache m
  return .ok ()

def removePolicy (uri : Str) : Guarded PolicyEngineLayer (Except PolicyError Unit) :=
  Guarded.exclusively m do
    match ← Guarded.read fun p => p.closed with
    | true => return .error .closed
    | false => dropPolicy m uri

def getPolicy (uri : Str) : Guarded PolicyEngineLayer (Except PolicyError PolicyDocument) :=
  Guarded.shared m <| Guarded.read fun p =>
    if p.closed then .error .closed
    else
      match p.policies.lookup uri with
      | none => .error (.notFound uri)
      | some policy => .ok policy

def checkContext : Option PolicyEvaluationContext → Except PolicyError PolicyEvaluationContext
  | none => .error .nilContext
  | some ctx => do
    (validateURI ctx.requestURI).mapError .invalidRequestURI
    ifPresent (fun s => (validateWebID s).mapError .invalidAgent) ctx.agent
    ifPresent (fun s => (validateURI s).mapError .invalidClientID) ctx.clientID
    ifPresent (fun s => (validateContentType s).mapError .invalidResourceType) ctx.resourceType
    ifPresent (fun s => (validateContainerURI s).mapError .invalidContainer) ctx.container
    pure ctx

/-- The document whose format the metrics record: `GetPolicy` of the first one. -/
def recordEvaluation (result : PolicyEvaluationResult) : Guarded PolicyEngineLayer Unit :=
  match result.policyURIs with
  | [] => pure ()
  | first :: _ => do
    let _ ← getPolicy m first
    return ()

/-- The orders in which a call of `Evaluate` ranges over the documents and over the cache. -/
structure EvaluateOrders where
  policies : RangeOrder Str
  cache : RangeOrder Str

section Evaluate

variable [Unicode]

/-- Past the cache: the request is judged, and the judgement is cached. -/
def evaluateMiss (m : Mutex) (now : Time) (orders : EvaluateOrders) (ctx : PolicyEvaluationContext) :
    Guarded PolicyEngineLayer (Except PolicyError PolicyEvaluationResult) := do
  let result ← Guarded.read fun p => p.judge now orders.policies ctx
  recordEvaluation m result
  cacheEvaluationResult m orders.cache (generateCacheKey ctx) result
  return .ok result

/-- `Evaluate`. Only the return from a closed layer gives the lock back. -/
def evaluate (m : Mutex) (now : Time) (orders : EvaluateOrders) (evaluationCtx : Option PolicyEvaluationContext) :
    Guarded PolicyEngineLayer (Except PolicyError PolicyEvaluationResult) :=
  match checkContext evaluationCtx with
  | .error err => pure (.error err)
  | .ok ctx => do
    Guarded.rlock m
    match ← Guarded.read fun p => (p.closed, p.evaluationCache.lookup (generateCacheKey ctx)) with
    | (true, _) =>
      Guarded.runlock m
      return .error .closed
    | (false, some cached) => return .ok cached
    | (false, none) => evaluateMiss m now orders ctx

end Evaluate

end PolicyEngineLayer

end Runtime
