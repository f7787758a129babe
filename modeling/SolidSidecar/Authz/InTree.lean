import SolidSidecar.Authz.CachingEvaluator
import SolidSidecar.Authz.PolicyEvaluators
import SolidSidecar.Authz.SaiEvaluator

/-!
# Decisions of the evaluators in the tree

The middleware validates every decision it receives (`validateDecision`) and discards one that does
not pass. The evaluators of the package are one type here, a caching evaluator with what it wraps, and
`answers_valid_iff` says which of them answer a request with a decision that passes: the reason codes
of the SAI evaluator and of a cached decision are not among those the validation knows.
-/

namespace Authz
open Go Cache

theorem validateDecision_eq_ok {d} : validateDecision d = .ok () ↔
      d.schemaVersion = schemaVersion ∧ validToken d.requestID 128 = true ∧
      validDecisionValue d.decision = true ∧ validReasonCode d.reasonCode = true ∧
      (d.statusHint = 0 ∨ 100 ≤ d.statusHint ∧ d.statusHint ≤ 599) ∧
      (0 ≤ d.cacheTTLSeconds ∧ d.cacheTTLSeconds ≤ 300) ∧
      validSHA256Hex d.audit.requestHash = true ∧ validSHA256Hex d.audit.policyHash = true := by
  have hint : ¬ (d.statusHint ≠ 0 ∧ (d.statusHint < 100 ∨ d.statusHint > 599)) ↔
      (d.statusHint = 0 ∨ 100 ≤ d.statusHint ∧ d.statusHint ≤ 599) := by omega
  simp [validateDecision, then_eq_ok, hint]

section Hashes

variable {sha256 : Str → Str} (size : ∀ s, (sha256 s).length = 32)

include size

theorem sha256Hex_length (s : Str) : (sha256Hex sha256 s).length = 64 := by
  rw [sha256Hex, hexEncode_length, size]

theorem validSHA256Hex_sha256Hex (s : Str) : validSHA256Hex (sha256Hex sha256 s) = true := by
  have digits : ∀ r ∈ runes (sha256Hex sha256 s), (0x30 ≤ r ∧ r ≤ 0x39) ∨ (0x61 ≤ r ∧ r ≤ 0x66) := by
    apply (runes_all_iff_of_ascii (P := fun r => (0x30 ≤ r ∧ r ≤ 0x39) ∨ (0x61 ≤ r ∧ r ≤ 0x66)) (by omega) _).mpr
    intro b mem
    exact mem_hexEncode mem
  unfold validSHA256Hex
  rw [if_neg (by rw [sha256Hex_length size]; omega), List.all_eq_true]
  intro r mem
  have digit := digits r mem
  simp only [Bool.not_eq_true', Bool.and_eq_false_iff, Bool.or_eq_false_iff, decide_eq_false_iff_not]
  omega

omit size in
theorem validToken_decisionRequestID (r : Request) :
    validToken (decisionRequestID r (auditForRequest sha256 r)) 128 = true := by
  unfold decisionRequestID
  split_ifs with own
  · exact own
  · rw [validToken_iff]
    have marks : ∀ b ∈ str "invalid-request-", 0x21 ≤ b.toNat ∧ b.toNat ≤ 0x7E := by decide +kernel
    have some : (str "invalid-request-").length = 16 := by decide +kernel
    refine ⟨?_, ?_, ?_⟩
    · intro empty
      have short := congrArg List.length empty
      rw [List.length_append, some, List.length_nil] at short
      omega
    · rw [List.length_append, some, List.length_take]
      omega
    · intro b mem
      rcases List.mem_append.mp mem with fixed | digit
      · exact marks b fixed
      · have range := mem_hexEncode (List.mem_of_mem_take digit)
        omega

variable (r : Request)

/-- A decision of the shadow evaluator's shape passes by its value, its reason and its status hint. -/
theorem validateDecision_shadowDecision (value : DecisionValue) (reason : ReasonCode) (status : Int) :
    validateDecision (shadowDecision r (auditForRequest sha256 r) value reason status) = .ok () ↔
      validDecisionValue value = true ∧ validReasonCode reason = true ∧
        (status = 0 ∨ 100 ≤ status ∧ status ≤ 599) := by
  have request := validSHA256Hex_sha256Hex size (canonicalRequest r)
  have policy := validSHA256Hex_sha256Hex size (canonicalPolicyDocuments r.policyDocuments)
  rw [validateDecision_eq_ok]
  constructor
  · rintro ⟨_, _, known, reason, hint, _⟩
    exact ⟨known, reason, hint⟩
  · rintro ⟨known, reason, hint⟩
    have ttl : (0 : Int) ≤ 300 := by decide
    exact ⟨rfl, validToken_decisionRequestID r, known, reason, hint, ⟨Int.le_refl 0, ttl⟩, request, policy⟩

/-- A request that is denied as malformed, for a known reason, is denied with a valid decision. -/
theorem validateDecision_denied (reason : ReasonCode) (known : validReasonCode reason = true) :
    validateDecision (shadowDecision r (auditForRequest sha256 r) .deny reason httpBadRequestStatus) = .ok () := by
  apply (validateDecision_shadowDecision size r .deny reason httpBadRequestStatus).mpr
  exact ⟨rfl, known, .inr (by decide)⟩

/-- The checks before an evaluator's own work pass what they answer themselves. -/
theorem validateDecision_whenValid {wellFormed}
    (own : validateDecision (wellFormed (auditForRequest sha256 r)) = .ok ()) :
    validateDecision (whenValid sha256 r wellFormed) = .ok () := by
  unfold whenValid
  split_ifs
  · exact validateDecision_denied size r .unsupportedSchema rfl
  · exact validateDecision_denied size r .invalidRequest rfl
  · exact validateDecision_denied size r .missingRequestedModes rfl
  · exact validateDecision_denied size r .unsafeResourceURI rfl
  · split
    · exact validateDecision_denied size r .invalidRequest rfl
    · exact own

theorem validateDecision_shadowEvaluate : validateDecision (shadowEvaluate sha256 r) = .ok () := by
  apply validateDecision_whenValid size
  apply (validateDecision_shadowDecision size r _ _ _).mpr
  exact ⟨rfl, rfl, .inl rfl⟩

def Judgement.Passes (j : Judgement) : Prop :=
  validDecisionValue j.1 = true ∧ validReasonCode j.2.1 = true ∧ (j.2.2 = 0 ∨ 100 ≤ j.2.2 ∧ j.2.2 ≤ 599)

omit size in
theorem judgeByRules_passes {α : Type} (matchesRequest allowsModes : α → Bool) (r : Request)
    (rules : List α) : (judgeByRules matchesRequest allowsModes r rules).Passes := by
  unfold judgeByRules
  split_ifs
  · exact ⟨rfl, rfl, .inl rfl⟩
  · exact ⟨rfl, rfl, .inl rfl⟩
  · exact ⟨rfl, rfl, .inr (by decide)⟩
  · exact ⟨rfl, rfl, .inr (by decide)⟩

theorem validateDecision_evaluateDocuments {o judge} (passes : ∀ r, (judge r).Passes) {contextError r d} (answer : evaluateDocuments sha256 o judge contextError r = .ok d) :
    validateDecision d = .ok () := by
  unfold evaluateDocuments at answer
  split at answer
  · cases answer
  · cases answer
    apply validateDecision_whenValid size
    split_ifs <;> apply (validateDecision_shadowDecision size r _ _ _).mpr
    iterate 3 exact ⟨rfl, rfl, .inl rfl⟩
    exact passes r

end Hashes

/-- An evaluator of the package at the time of a call: with the errors of the context, and for a caching
evaluator its state, the clock and map orders it meets, and what it wraps. -/
inductive InTree where
  | shadow (contextError : Option String)
  | wac (e : WACEvaluator) (contextError : Option String)
  | acp (e : ACPEvaluator) (contextError : Option String)
  | sai (e : SAIEvaluator) (contextError : Nat → Option String)
  | caching (e : CachingEvaluator) (readAt createdAt storedAt : Time) (order : Nat → RangeOrder Str)
      (wrapped : InTree)

/-- The checks of the SAI evaluator refuse a request. -/
def saiMalformed (r : Request) : Bool :=
  r.schemaVersion ≠ schemaVersion || !validToken r.requestID 128 || !supportedMethod r.method ||
    !validResourceURI r.resourceURI || r.requestedModes = []

namespace InTree

section Answers

variable [Unicode] (sha256 : Str → Str)

def evaluate : InTree → Request → Except String Decision
  | .shadow contextError, r => ShadowEvaluator.evaluate sha256 contextError r
  | .wac e contextError, r => e.evaluate sha256 contextError r
  | .acp e contextError, r => e.evaluate sha256 contextError r
  | .sai e contextError, r => e.evaluate sha256 contextError r
  | .caching e readAt createdAt storedAt order wrapped, r =>
    (e.evaluate sha256 ⟨fun r => wrapped.evaluate r, readAt, createdAt, storedAt, order⟩ r).2

/-- A caching evaluator has an entry for the request that has not expired. -/
def live (e : CachingEvaluator) (readAt : Time) (r : Request) : Bool :=
  e.options.enableCaching &&
    match e.decisionCache.entries.lookup (CachingEvaluator.keyText sha256 r) with
    | some entry => readAt ≤ entry.expiresAt
    | none => false

/-- The evaluator answers a request with a reason that the validation knows, or not at all: it is not
an SAI evaluator that gets to work, nor one asked from its cache. -/
def familiar : InTree → Request → Bool
  | .shadow _, _ | .wac _ _, _ | .acp _ _, _ => true
  | .sai _ contextError, r => (contextError 0).isSome || saiMalformed r
  | .caching e readAt _ _ _ wrapped, r => !live sha256 e readAt r && wrapped.familiar r

/-- Every decision that an evaluator returns for a request passes the validation. -/
def AnswersValid (t : InTree) (r : Request) : Prop :=
  ∀ d, t.evaluate sha256 r = .ok d → validateDecision d = .ok ()

variable {sha256}

theorem sai_answersValid_iff (size : ∀ s, (sha256 s).length = 32) (e : SAIEvaluator)
    (contextError : Nat → Option String) (r : Request) :
    AnswersValid sha256 (.sai e contextError) r ↔ (contextError 0).isSome ∨ saiMalformed r := by
  have denied := validateDecision_denied size r
  unfold AnswersValid evaluate SAIEvaluator.evaluate
  cases contextError 0 with
  | some err => simp
  | none =>
    simp only [Except.ok.injEq, forall_eq']
    unfold saiMalformed
    split_ifs with schema
    · simp [denied .unsupportedSchema rfl, schema]
    · simp_all [denied .invalidRequest rfl]
    · simp_all [denied .invalidRequest rfl]
    · simp_all [denied .unsafeResourceURI rfl]
    · simp_all [denied .missingRequestedModes rfl]
    · have refused : validReasonCode reasonSAIShadowModeAbstain = false := rfl
      rw [validateDecision_shadowDecision size]
      simp_all
    · constructor
      · intro valid
        obtain ⟨_, _, _, known, _⟩ := validateDecision_eq_ok.mp valid
        simp only [SAIEvaluator.evaluateSAIPolicies] at known
        split_ifs at known <;> cases known
      · simp_all

omit [Unicode] in
theorem evaluate_not_live {e : CachingEvaluator} {r : Request} (w : World)
    (miss : live sha256 e w.readAt r = false) {d : Decision} :
    (e.evaluate sha256 w r).2 = .ok d ↔ w.eval r = .ok d := by
  constructor
  · intro answer
    rcases CachingEvaluator.evaluate_ok answer with own | ⟨enabled, entry, found, fresh, _⟩
    · exact own
    · simp only [live, enabled, found, Bool.true_and, decide_eq_false_iff_not] at miss
      exact absurd fresh miss
  · intro own
    unfold CachingEvaluator.evaluate
    split
    · exact own
    · rename_i enabled
      split
      · rename_i cached hit
        obtain ⟨entry, found, fresh, _⟩ := MemoryCache.get_eq_some.mp hit
        have stored : e.decisionCache.entries.lookup (CachingEvaluator.keyText sha256 r) = some entry := found
        simp only [live, Bool.of_not_eq_false enabled, stored, Bool.true_and, decide_eq_false_iff_not] at miss
        exact absurd fresh miss
      · rw [own]

/-- A live entry is answered with the code of a cached decision, and nothing else changes what the
wrapped evaluator returned. -/
theorem caching_answersValid_iff (e : CachingEvaluator) (readAt createdAt storedAt : Time)
    (order : Nat → RangeOrder Str) (wrapped : InTree) (r : Request) :
    AnswersValid sha256 (.caching e readAt createdAt storedAt order wrapped) r ↔
      live sha256 e readAt r = false ∧ AnswersValid sha256 wrapped r := by
  let w : World := ⟨fun r => wrapped.evaluate sha256 r, readAt, createdAt, storedAt, order⟩
  rcases Bool.eq_false_or_eq_true (live sha256 e readAt r) with hit | miss
  · have answered : ∃ entry, (e.evaluate sha256 w r).2 = .ok (convertFromCacheDecision sha256 entry r) := by
      simp only [live, Bool.and_eq_true] at hit
      obtain ⟨enabled, found⟩ := hit
      split at found
      · rename_i entry stored
        refine ⟨entry.decision, CachingEvaluator.evaluate_hit enabled stored ?_⟩
        exact of_decide_eq_true found
      · cases found
    obtain ⟨entry, answered⟩ := answered
    simp only [hit, Bool.true_eq_false, false_and, iff_false]
    intro valid
    obtain ⟨_, _, _, known, _⟩ := validateDecision_eq_ok.mp (valid _ answered)
    cases known
  · simp only [miss, true_and]
    exact forall_congr' fun d => imp_congr_left (evaluate_not_live w miss)

/-- An evaluator of the package answers a request with decisions that pass the validation exactly when
its reasons are familiar to it. -/
theorem answers_valid_iff (size : ∀ s, (sha256 s).length = 32) (t : InTree) (r : Request) :
    (∀ d, t.evaluate sha256 r = .ok d → validateDecision d = .ok ()) ↔ t.familiar sha256 r = true := by
  induction t with
  | shadow contextError =>
    refine ⟨fun _ => rfl, fun _ d answer => ?_⟩
    unfold evaluate ShadowEvaluator.evaluate at answer
    split at answer
    · cases answer
    · cases answer
      exact validateDecision_shadowEvaluate size r
  | wac e contextError =>
    refine ⟨fun _ => rfl, fun _ d answer => ?_⟩
    rw [evaluate] at answer
    exact validateDecision_evaluateDocuments size (fun r => judgeByRules_passes _ _ r _) answer
  | acp e contextError =>
    refine ⟨fun _ => rfl, fun _ d answer => ?_⟩
    rw [evaluate] at answer
    exact validateDecision_evaluateDocuments size (fun r => judgeByRules_passes _ _ r _) answer
  | sai e contextError =>
    rw [familiar, Bool.or_eq_true]
    exact sai_answersValid_iff size e contextError r
  | caching e readAt createdAt storedAt order wrapped ih =>
    rw [familiar, Bool.and_eq_true, Bool.not_eq_true', ← ih]
    exact caching_answersValid_iff e readAt createdAt storedAt order wrapped r

end Answers

section Sample

attribute [local instance] Unicode.ascii

def zeroHash (_ : Str) : Str := List.replicate 32 0

/-- The owner reads a resource with one access control document. -/
def ownerReads : Request where
  schemaVersion := schemaVersion
  requestID := "r1"
  method := "GET"
  resourceURI := "https://pod.example/notes"
  agentWebID := ownerWebID
  requestedModes := [.read]
  policyDocuments := [⟨"https://pod.example/notes.acl", hexEncode (zeroHash []), "text/turtle", []⟩]
  nowUnix := 0

def enforcingWAC : InTree := .wac (newWACEvaluator { shadowMode := false }) none

theorem answers_valid_iff_wac : (∀ s, (zeroHash s).length = 32) ∧ enforcingWAC.familiar zeroHash ownerReads = true ∧
    ∀ d, enforcingWAC.evaluate zeroHash ownerReads = .ok d → validateDecision d = .ok () :=
  ⟨fun _ => rfl, rfl, (answers_valid_iff (fun _ => rfl) enforcingWAC ownerReads).mpr rfl⟩

/-- The default caching evaluator after it was asked once. -/
def askedOnce : CachingEvaluator :=
  (CachingEvaluator.fresh.evaluate zeroHash
    ⟨fun r => enforcingWAC.evaluate zeroHash r, Time.unix 0, Time.unix 0, Time.unix 0, fun _ => default⟩ ownerReads).1

/-- The error of a decision that an evaluator returned. -/
def refusal (answer : Except String Decision) : Option String :=
  match answer with
  | .error _ => none
  | .ok d => match validateDecision d with
    | .error err => some err
    | .ok () => none

/-- The default SAI evaluator's abstention and the second answer of a caching evaluator are discarded,
while the evaluator below the cache answers the same request with a valid decision. -/
theorem answers_discarded : refusal ((InTree.sai {} fun _ => none).evaluate zeroHash ownerReads) =
        some "invalid authz decision: invalid reason code" ∧
      refusal ((InTree.caching askedOnce (Time.unix 1) (Time.unix 1) (Time.unix 1) (fun _ => default)
          enforcingWAC).evaluate zeroHash ownerReads) =
        some "invalid authz decision: invalid reason code" ∧
      refusal (enforcingWAC.evaluate zeroHash ownerReads) = none := by
  decide +kernel

end Sample

end InTree

end Authz
