import SolidSidecar.Authz.ShadowEvaluator
import SolidSidecar.Kernel.Evaluate

/-!
# The kernel against the shadow evaluator

The kernel and the Go evaluator answer the same requests. Both hash one canonical text
(`canonicalRequest_eq`, `canonicalPolicyDocuments_eq`) and share the checks before the resource URI;
`agree_iff` says on which requests the answers are the same.
-/

namespace Kernel
open Go List Authz

def AccessMode.toGo : AccessMode → Authz.AccessMode
  | .read => .read
  | .append => .append
  | .write => .write
  | .control => .control

def Decision.toGo : Decision → Authz.DecisionValue
  | .allow => .allow
  | .deny => .deny
  | .abstain => .abstain

def ReasonCode.toGo : ReasonCode → Authz.ReasonCode
  | .kernelAbstainShadowMode => .kernelAbstainShadowMode
  | .invalidRequest => .invalidRequest
  | .unsupportedSchemaVersion => .unsupportedSchema
  | .missingRequestedModes => .missingRequestedModes
  | .unsafeResourceUri => .unsafeResourceURI
  | .policyNotLoaded => .policyNotLoaded
  | .policyAllow => .policyAllow
  | .policyDeny => .policyDeny
  | .kernelError => .kernelError

def PolicyDocument.toGo (d : PolicyDocument) : Authz.PolicyDocument where
  uri := d.uri
  sha256 := d.sha256
  contentType := d.contentType

/-- An optional text; Go writes the absent one as the empty text. -/
def optional (s : Str) : Option Str := if s = [] then none else some s

/-- Two forms of one request. What only one side can say (an unknown mode, a parser version, the
content of a document, a negative time, an optional text that is there but empty) has no other form. -/
structure Represents (g : Authz.Request) (r : AuthzRequest) : Prop where
  schemaVersion : r.schemaVersion = g.schemaVersion
  requestId : r.requestId = g.requestID
  method : r.method = g.method
  resourceUri : r.resourceUri = g.resourceURI
  agentWebid : r.agentWebid = optional g.agentWebID
  clientId : r.clientId = optional g.clientID
  issuer : r.issuer = optional g.issuer
  origin : r.origin = optional g.origin
  requestedModes : g.requestedModes = r.requestedModes.map AccessMode.toGo
  resourceVersion : r.resourceVersion = optional g.resourceVersion
  policyVersion : r.policyVersion = optional g.policyVersion
  parserVersion : g.parserVersion = []
  evaluatorVersion : g.evaluatorVersion = []
  resourceMetadata : ∀ k, r.resourceMetadata.lookup k = g.resourceMetadata.lookup k
  policyDocuments : g.policyDocuments = r.policyDocuments.map PolicyDocument.toGo
  nowUnix : g.nowUnix.toInt = r.nowUnix.val

theorem pushOption_optional (name : String) (s : Str) : pushOption name (optional s) = pushOptionalField name s := by
  unfold optional pushOptionalField
  split <;> rfl

theorem pushModes_eq (modes : List AccessMode) : pushModes modes = Authz.pushModes (modes.map AccessMode.toGo) := by
  have rank (a : AccessMode) : accessModeRank a.toGo = a.index := by
    cases a <;> rfl
  have text (a : AccessMode) : a.toGo.text = a.value := by
    cases a <;> rfl
  unfold Authz.pushModes
  rw [← map_insertionSort (fun a b => a.index ≤ b.index) _ AccessMode.toGo modes fun a _ b _ => by rw [rank, rank]]
  simp only [flatMap_map, text]
  rfl

theorem cmp_isLE (s t : Str) : (cmp s t).isLE = s.le t := by
  unfold cmp
  by_cases same : s = t
  · simp [same, Str.le_refl]
  · cases le : s.le t <;> simp [same]

theorem cmp_then_isLE (s t : Str) (next : Ordering) :
    ((cmp s t).then next).isLE = if s ≠ t then s.le t else next.isLE := by
  unfold cmp
  by_cases same : s = t
  · simp [same]
  · cases le : s.le t <;> simp [same]

theorem PolicyDocument.le_toGo (a b : PolicyDocument) : a.toGo.le b.toGo = (a.cmp b).isLE := by
  unfold cmp
  rw [Ordering.then_assoc, cmp_then_isLE, cmp_then_isLE, cmp_isLE]
  rfl

theorem canonicalPolicyDocuments_eq (documents : List PolicyDocument) : canonicalPolicyDocuments documents =
      Authz.canonicalPolicyDocuments (documents.map PolicyDocument.toGo) := by
  unfold Authz.canonicalPolicyDocuments
  rw [← map_insertionSort (fun a b => (a.cmp b).isLE = true) _ PolicyDocument.toGo documents
    fun a _ b _ => by rw [PolicyDocument.le_toGo]]
  simp only [flatMap_map]
  rfl

theorem schemaVersion_eq : schemaVersion = Authz.schemaVersion := rfl

theorem isValidRequestId_eq (s : Str) (maxLen : Nat) : isValidRequestId s maxLen = validToken s maxLen := by
  rw [Bool.eq_iff_iff, validToken_iff]
  simp [isValidRequestId, isAsciiGraphic, and_assoc]

theorem isSupportedMethod_eq (method : Str) : isSupportedMethod method = supportedMethod method := by
  rw [Bool.eq_iff_iff, supportedMethod, Option.isSome_iff_ne_none, ne_eq, modesForMethod_eq_none, not_not]
  exact decide_eq_true_iff

def StartsAsWeb (uri : Str) : Prop :=
  Strings.hasPrefix uri "https://" = true ∨ Strings.hasPrefix uri "http://" = true

theorem isSafeResourceUri_iff {uri} : isSafeResourceUri uri 4096 = true ↔ PlainURI uri ∧ StartsAsWeb uri := by
  have plain : (∀ b ∈ uri, plainByte b = true) ↔
      (uri.any fun b => isAsciiControl b || b == 0x5C) = false ∧ uri.contains 0x23 = false := by
    have marked : uri.contains 0x23 = false ↔ ∀ b ∈ uri, b ≠ 0x23 := by
      rw [← Bool.not_eq_true, contains_iff_mem]
      exact ⟨fun out b hb same => out (same ▸ hb), fun all mem => all _ mem rfl⟩
    rw [marked]
    simp [plainByte, isAsciiControl, ← forall_and]
  unfold isSafeResourceUri PlainURI StartsAsWeb
  rw [plain]
  by_cases empty : uri = []
  · simp [empty]
  by_cases long : uri.length > 4096
  · simp [long]
  by_cases control : (uri.any fun b => isAsciiControl b || b == 0x5C) = true
  · rw [control]
    simp
  by_cases marked : uri.contains 0x23 = true
  · rw [marked]
    simp
  rw [Bool.not_eq_true] at control marked
  rw [control, marked]
  simp

section

variable {g : Authz.Request} {r : AuthzRequest}

theorem canonicalRequest_eq (rep : Represents g r) : canonicalRequest r = Authz.canonicalRequest g := by
  have time : str (toString r.nowUnix.val) = str (toString g.nowUnix.toInt) := by
    rw [rep.nowUnix]
    rfl
  unfold canonicalRequest Authz.canonicalRequest
  rw [rep.schemaVersion, rep.requestId, rep.method, rep.resourceUri, rep.agentWebid, rep.clientId,
    rep.issuer, rep.origin, rep.resourceVersion, rep.policyVersion, rep.requestedModes, time,
    pushModes_eq, GoMap.inOrder_congr rep.resourceMetadata]
  simp only [pushOption_optional]
  rfl

variable (sha256 : Str → Str)

/-- The hashes of the two forms of a request are the same. -/
theorem auditFields_eq (rep : Represents g r) :
    (auditFields sha256 r).requestHash = (auditForRequest sha256 g).requestHash ∧
      (auditFields sha256 r).policyHash = (auditForRequest sha256 g).policyHash := by
  unfold auditFields auditForRequest
  rw [canonicalRequest_eq rep, canonicalPolicyDocuments_eq, rep.policyDocuments]
  exact ⟨rfl, rfl⟩

/-- A status hint as Go writes it, an absent one as zero. -/
def statusToGo (hint : Option (Fin (2 ^ 16))) : Int := (hint.map fun status => (status.val : Int)).getD 0

structure Agree (d : Authz.Decision) (k : AuthzDecision) : Prop where
  decision : k.decision.toGo = d.decision
  reasonCode : k.reasonCode.toGo = d.reasonCode
  statusHint : statusToGo k.statusHint = d.statusHint
  requestId : k.requestId = d.requestID
  requestHash : k.audit.requestHash = d.audit.requestHash
  policyHash : k.audit.policyHash = d.audit.policyHash

/-- Decisions on the two forms of a request differ at most in what was decided. -/
theorem agree_decision_iff (rep : Represents g r) {value reason status value' reason' status' ttl} :
    Agree (shadowDecision g (auditForRequest sha256 g) value reason status)
        (decision r (auditFields sha256 r) value' reason' status' ttl {}) ↔
      value'.toGo = value ∧ reason'.toGo = reason ∧ statusToGo status' = status := by
  obtain ⟨requestHash, policyHash⟩ := auditFields_eq sha256 rep
  have id : decisionRequestId r (auditFields sha256 r) {} = decisionRequestID g (auditForRequest sha256 g) := by
    unfold decisionRequestId decisionRequestID
    rw [isValidRequestId_eq, rep.requestId, requestHash]
  constructor
  · rintro ⟨sameValue, sameReason, sameStatus, _, _, _⟩
    exact ⟨sameValue, sameReason, sameStatus⟩
  · rintro ⟨sameValue, sameReason, sameStatus⟩
    exact ⟨sameValue, sameReason, sameStatus, id, requestHash, policyHash⟩

/-- The checks that both sides make first, and alike. -/
def Screened (g : Authz.Request) : Prop :=
  g.schemaVersion = Authz.schemaVersion ∧ Authz.validToken g.requestID 128 = true ∧
    Authz.supportedMethod g.method = true ∧ g.requestedModes ≠ []

section

variable (rep : Represents g r)

include rep

/-- A request that fails the common checks gets the same answer. -/
theorem agree_of_not_screened (failed : ¬ Screened g) : Agree (shadowEvaluate sha256 g) (evaluate sha256 r {}) := by
  have modes : r.requestedModes.isEmpty = true ↔ g.requestedModes = [] := by
    rw [rep.requestedModes, map_eq_nil_iff, List.isEmpty_iff]
  unfold shadowEvaluate evaluate
  simp only [rep.schemaVersion, rep.requestId, rep.method, schemaVersion_eq, isValidRequestId_eq,
    isSupportedMethod_eq]
  by_cases schema : g.schemaVersion = Authz.schemaVersion
  swap
  · rw [if_pos schema, if_pos schema, agree_decision_iff sha256 rep]
    exact ⟨rfl, rfl, rfl⟩
  rw [if_neg (not_not.mpr schema), if_neg (not_not.mpr schema)]
  by_cases caller : (!validToken g.requestID 128 || !supportedMethod g.method) = true
  · rw [if_pos caller, if_pos caller, agree_decision_iff sha256 rep]
    exact ⟨rfl, rfl, rfl⟩
  rw [if_neg caller, if_neg caller]
  have empty : g.requestedModes = [] := by
    by_contra some
    simp only [Bool.or_eq_true, Bool.not_eq_true', not_or, Bool.not_eq_false] at caller
    exact failed ⟨schema, caller.1, caller.2, some⟩
  rw [if_pos empty, if_pos (modes.mpr empty), agree_decision_iff sha256 rep]
  exact ⟨rfl, rfl, rfl⟩

/-- Past the common checks, Go also wants distinct modes and valid documents. -/
theorem validateRequest_ok_iff (screened : Screened g) (web : validResourceURI g.resourceURI = true) :
    validateRequest g = .ok () ↔ g.requestedModes.Nodup ∧
        ∀ d ∈ g.policyDocuments, validatePolicyDocument d = .ok () := by
  obtain ⟨schema, id, method, modes⟩ := screened
  have known : ∀ m ∈ g.requestedModes, validAccessMode m = true := by
    rw [rep.requestedModes, forall_mem_map]
    intro m _
    cases m <;> rfl
  have time : 0 ≤ g.nowUnix.toInt := by
    rw [rep.nowUnix]
    exact Int.natCast_nonneg _
  rw [validateRequest_eq_ok]
  exact ⟨fun ⟨_, _, _, _, _, _, distinct, _, documents⟩ => ⟨distinct, documents⟩,
    fun ⟨distinct, documents⟩ => ⟨schema, id, method, web, modes, known, distinct, time, documents⟩⟩

omit rep in
/-- What is left of the evaluators past the common checks. -/
theorem shadowEvaluate_screened (screened : Screened g) : Authz.shadowEvaluate sha256 g =
      let audit := Authz.auditForRequest sha256 g
      if Authz.validResourceURI g.resourceURI = true then
        if Authz.validateRequest g = .ok () then
          Authz.shadowDecision g audit .abstain .kernelAbstainShadowMode 0
        else Authz.shadowDecision g audit .deny .invalidRequest 400
      else Authz.shadowDecision g audit .deny .unsafeResourceURI 400 := by
  obtain ⟨schema, id, method, modes⟩ := screened
  unfold Authz.shadowEvaluate Authz.httpBadRequestStatus
  simp only [schema, id, method, modes]
  cases Authz.validResourceURI g.resourceURI <;> cases Authz.validateRequest g <;> rfl

theorem evaluate_screened (screened : Screened g) : evaluate sha256 r {} =
      let audit := auditFields sha256 r
      if isSafeResourceUri g.resourceURI 4096 = true then
        decision r audit .abstain .kernelAbstainShadowMode none 0 {}
      else decision r audit .deny .unsafeResourceUri (some 400) 0 {} := by
  obtain ⟨schema, id, method, modes⟩ := screened
  have nonempty : r.requestedModes.isEmpty = false := by
    rw [rep.requestedModes] at modes
    simpa using modes
  unfold evaluate
  simp only [rep.schemaVersion, rep.requestId, rep.method, rep.resourceUri, schema, isValidRequestId_eq, isSupportedMethod_eq, id, method, nonempty]
  cases isSafeResourceUri g.resourceURI 4096 <;> rfl

/-- Past the common checks the answers agree when the verdicts on the URI are the same and Go has no
further objection. -/
theorem agree_screened_iff (screened : Screened g) : Agree (shadowEvaluate sha256 g) (evaluate sha256 r {}) ↔
      (validResourceURI g.resourceURI = true ↔ isSafeResourceUri g.resourceURI 4096 = true) ∧
        (validResourceURI g.resourceURI = true → validateRequest g = .ok ()) := by
  rw [shadowEvaluate_screened sha256 screened, evaluate_screened sha256 rep screened]
  split_ifs with _ _ safe safe safe
  all_goals
    rw [agree_decision_iff sha256 rep]
    simp [*, Decision.toGo, ReasonCode.toGo, statusToGo]

/-- The two answers agree exactly when, for a request that passes the common checks and whose URI has
only plain bytes, parsing the URI and looking at its first bytes give the same verdict, and a URI that
passes comes with distinct modes and valid policy documents. -/
theorem agree_iff : Agree (Authz.shadowEvaluate sha256 g) (evaluate sha256 r {}) ↔
      (Screened g → Authz.PlainURI g.resourceURI → (Authz.HasWebHost g.resourceURI ↔ StartsAsWeb g.resourceURI) ∧
        (Authz.HasWebHost g.resourceURI → g.requestedModes.Nodup ∧
          ∀ d ∈ g.policyDocuments, Authz.validatePolicyDocument d = .ok ())) := by
  by_cases screened : Screened g
  swap
  · exact iff_of_true (agree_of_not_screened sha256 rep screened) fun passes => absurd passes screened
  rw [agree_screened_iff sha256 rep screened]
  have further := validateRequest_ok_iff rep screened
  rw [validResourceURI_iff] at further
  rw [validResourceURI_iff, isSafeResourceUri_iff]
  by_cases plain : PlainURI g.resourceURI
  · simp only [screened, plain, true_and, true_implies] at further ⊢
    exact and_congr_right fun _ => forall_congr' further
  · simp [plain]

end

end

section Sample

/-- A request for a resource in some modes, as the kernel has it. -/
def sampleRequest (uri : Str) (modes : List AccessMode) : AuthzRequest where
  schemaVersion := schemaVersion
  requestId := "req-1"
  method := "GET"
  resourceUri := uri
  requestedModes := modes
  nowUnix := 0

def goRequest (uri : Str) (modes : List AccessMode) : Authz.Request where
  schemaVersion := Authz.schemaVersion
  requestID := "req-1"
  method := "GET"
  resourceURI := uri
  requestedModes := modes.map AccessMode.toGo
  nowUnix := 0

theorem represents_sample (uri : Str) (modes : List AccessMode) :
    Represents (goRequest uri modes) (sampleRequest uri modes) := by
  constructor <;> intros <;> rfl

theorem agree_iff_sample : Screened (goRequest (str "https://pod.example/a") [.read]) ∧
    Authz.PlainURI (str "https://pod.example/a") ∧ Authz.HasWebHost (str "https://pod.example/a") ∧
    StartsAsWeb (str "https://pod.example/a") ∧
    Agree (Authz.shadowEvaluate id (goRequest (str "https://pod.example/a") [.read]))
      (evaluate id (sampleRequest (str "https://pod.example/a") [.read]) {}) := by
  have host : Authz.HasWebHost (str "https://pod.example/a") :=
    ⟨{ scheme := "https", host := "pod.example", path := "/a" }, by decide +kernel⟩
  have web : StartsAsWeb (str "https://pod.example/a") := .inl (by decide +kernel)
  refine ⟨by unfold Screened; decide +kernel, by unfold Authz.PlainURI; decide +kernel, host, web, ?_⟩
  exact (agree_iff id (represents_sample _ _)).mpr fun _ _ => ⟨iff_of_true host web, fun _ => ⟨by decide, nofun⟩⟩

/-- Three requests that the sides answer differently: one that repeats a mode (denied by Go only), one
with the scheme in capitals (denied by the kernel only), one without a host (denied by Go only). -/
theorem answers_differ : Represents (goRequest (str "https://pod.example/a") [.read, .read])
      (sampleRequest (str "https://pod.example/a") [.read, .read]) ∧
    ¬ Agree (Authz.shadowEvaluate id (goRequest (str "https://pod.example/a") [.read, .read]))
      (evaluate id (sampleRequest (str "https://pod.example/a") [.read, .read]) {}) ∧
    ¬ Agree (Authz.shadowEvaluate id (goRequest (str "HTTPS://pod.example/a") [.read]))
      (evaluate id (sampleRequest (str "HTTPS://pod.example/a") [.read]) {}) ∧
    ¬ Agree (Authz.shadowEvaluate id (goRequest (str "https:///a") [.read]))
      (evaluate id (sampleRequest (str "https:///a") [.read]) {}) :=
  ⟨represents_sample _ _, fun same => absurd same.decision (by decide +kernel),
    fun same => absurd same.decision (by decide +kernel),
    fun same => absurd same.decision (by decide +kernel)⟩

end Sample

end Kernel
