import SolidSidecar.Authz.Types
import SolidSidecar.Go.Url

/-!
# Validation of requests and decisions

`validation.go`, with the table of methods of `builder.go`. The checks on texts range over runes;
each of them is restated over bytes (`validToken_iff`, `validResourceURI_iff`), the form in which they
can be compared with checks of another implementation.
-/

namespace Authz
open Go List Strings

/-- `modesForMethod`: nothing for an unsupported method. -/
def modesForMethod (method : Str) : Option (List AccessMode) :=
  if method ∈ [str "GET", "HEAD", "OPTIONS"] then some [.read]
  else if method = "POST" then some [.append]
  else if method ∈ [str "PUT", "PATCH"] then some [.write]
  else if method = "DELETE" then some [.write]
  else none

def supportedMethod (method : Str) : Bool := (modesForMethod method).isSome

def validToken (value : Str) (maxLen : Nat) : Bool :=
  if value = [] || value.length > maxLen then false
  else (runes value).all fun r => !(r < 0x21 || r > 0x7E)

def validResourceURI (value : Str) : Bool :=
  if value = [] || value.length > 4096 then false
  else if containsAny value "\\#" then false
  else if (runes value).any fun r => r < 0x20 || r == 0x7F then false
  else match Url.parse value with
    | .error _ => false
    | .ok parsed => (parsed.scheme = "http" || parsed.scheme = "https") && parsed.host ≠ []

def validSHA256Hex (value : Str) : Bool :=
  if value.length ≠ 64 then false
  else (runes value).all fun r =>
    !((r < 0x30 || r > 0x39) && (r < 0x61 || r > 0x66) && (r < 0x41 || r > 0x46))

def validAccessMode : AccessMode → Bool
  | .read | .append | .write | .control => true
  | .other _ _ => false

def validDecisionValue : DecisionValue → Bool
  | .allow | .deny | .abstain => true
  | .other _ _ => false

/-- `validReasonCode`, which leaves out the code for a cached decision. -/
def validReasonCode : ReasonCode → Bool
  | .kernelAbstainShadowMode | .invalidRequest | .unsupportedSchema | .missingRequestedModes
  | .unsafeResourceURI | .policyNotLoaded | .policyAllow | .policyDeny | .kernelError => true
  | .cachedDecision | .other _ _ => false

def invalidRequest (text : String) : String := "invalid authz request: " ++ text

def invalidDecision (text : String) : String := "invalid authz decision: " ++ text

def validatePolicyDocument (d : PolicyDocument) : Except String Unit := do
  refuse (validResourceURI d.uri = false) (invalidRequest "invalid policy document uri")
  refuse (validSHA256Hex d.sha256 = false) (invalidRequest "invalid policy document hash")
  refuse (trimSpace d.contentType = []) (invalidRequest "policy document content type is required")

/-- The loop over the requested modes, with the modes seen so far. -/
def checkModes : List AccessMode → List AccessMode → Except String Unit
  | _, [] => .ok ()
  | seen, mode :: rest => do
    refuse (validAccessMode mode = false) (invalidRequest "invalid requested mode")
    refuse (mode ∈ seen) (invalidRequest "duplicate requested mode")
    checkModes (mode :: seen) rest

def validateRequest (r : Request) : Except String Unit := do
  refuse (r.schemaVersion ≠ schemaVersion) (invalidRequest "unsupported schema version")
  refuse (validToken r.requestID 128 = false) (invalidRequest "invalid request id")
  refuse (modesForMethod r.method = none) (invalidRequest "unsupported method")
  refuse (validResourceURI r.resourceURI = false) (invalidRequest "invalid resource uri")
  refuse (r.requestedModes = []) (invalidRequest "requested modes are required")
  checkModes [] r.requestedModes
  refuse (r.nowUnix.toInt < 0) (invalidRequest "now_unix must be non-negative")
  checkAll validatePolicyDocument r.policyDocuments

def validateDecision (d : Decision) : Except String Unit := do
  refuse (d.schemaVersion ≠ schemaVersion) (invalidDecision "unsupported schema version")
  refuse (validToken d.requestID 128 = false) (invalidDecision "invalid request id")
  refuse (validDecisionValue d.decision = false) (invalidDecision "invalid decision")
  refuse (validReasonCode d.reasonCode = false) (invalidDecision "invalid reason code")
  refuse (d.statusHint ≠ 0 ∧ (d.statusHint < 100 ∨ d.statusHint > 599)) (invalidDecision "invalid status hint")
  refuse (d.cacheTTLSeconds < 0 ∨ d.cacheTTLSeconds > 300) (invalidDecision "invalid cache ttl")
  refuse (validSHA256Hex d.audit.requestHash = false) (invalidDecision "invalid request hash")
  refuse (validSHA256Hex d.audit.policyHash = false) (invalidDecision "invalid policy hash")

theorem modesForMethod_eq_none {method} : modesForMethod method = none ↔
      method ∉ [str "GET", "HEAD", "OPTIONS", "POST", "PUT", "PATCH", "DELETE"] := by
  simp only [modesForMethod, mem_cons]
  split_ifs
  all_goals
    tauto

/-- The loop passes when all modes are known, none repeats and none was seen. -/
theorem checkModes_eq_ok {seen modes u} : checkModes seen modes = .ok u ↔
      (∀ m ∈ modes, validAccessMode m = true) ∧ modes.Nodup ∧ ∀ m ∈ modes, m ∉ seen := by
  induction modes generalizing seen with
  | nil => simp [checkModes]
  | cons mode rest ih =>
    simp only [checkModes, then_eq_ok, refuse_eq_ok, ih, forall_mem_cons, nodup_cons, Bool.not_eq_false]
    constructor
    · rintro ⟨known, new, others, distinct, apart⟩
      refine ⟨⟨known, others⟩, ⟨fun again => apart mode again mem_cons_self, distinct⟩, new, ?_⟩
      exact fun m hm seen => apart m hm (mem_cons_of_mem mode seen)
    · rintro ⟨⟨known, others⟩, ⟨once, distinct⟩, new, apart⟩
      refine ⟨known, new, others, distinct, fun m hm either => ?_⟩
      rcases mem_cons.mp either with rfl | seen
      · exact once hm
      · exact apart m hm seen

theorem validateRequest_eq_ok {r u} : validateRequest r = .ok u ↔
      r.schemaVersion = schemaVersion ∧ validToken r.requestID 128 = true ∧
      supportedMethod r.method = true ∧ validResourceURI r.resourceURI = true ∧
      r.requestedModes ≠ [] ∧ (∀ m ∈ r.requestedModes, validAccessMode m = true) ∧
      r.requestedModes.Nodup ∧ 0 ≤ r.nowUnix.toInt ∧
      ∀ d ∈ r.policyDocuments, validatePolicyDocument d = .ok () := by
  have method : ¬ modesForMethod r.method = none ↔ supportedMethod r.method = true := by
    rw [supportedMethod, Option.isSome_iff_ne_none]
  simp only [validateRequest, then_eq_ok, refuse_eq_ok, checkModes_eq_ok, checkAll_eq_ok, Bool.not_eq_false, Int.not_lt]
  tauto

theorem validToken_iff {value maxLen} : validToken value maxLen = true ↔
      value ≠ [] ∧ value.length ≤ maxLen ∧ ∀ b ∈ value, 0x21 ≤ b.toNat ∧ b.toNat ≤ 0x7E := by
  have bytes := runes_all_iff_of_ascii (P := fun r => 0x21 ≤ r ∧ r ≤ 0x7E) (by omega) value
  unfold validToken
  by_cases empty : value = []
  · simp [empty]
  by_cases long : value.length > maxLen
  · simp [not_le.mpr long]
  · simp only [long, le_of_not_gt long, ← bytes]
    simp

/-- The bytes that both kinds of check refuse in a resource URI. -/
def plainByte (b : UInt8) : Bool :=
  0x20 ≤ b.toNat && b.toNat ≠ 0x7F && b ≠ 0x5C && b ≠ 0x23

/-- The part of the check that looks at single bytes. -/
def PlainURI (value : Str) : Prop :=
  value ≠ [] ∧ value.length ≤ 4096 ∧ ∀ b ∈ value, plainByte b = true

/-- The part of the check that `url.Parse` decides: a web scheme and a host. -/
def HasWebHost (value : Str) : Prop :=
  ∃ parsed, Url.parse value = .ok parsed ∧ (parsed.scheme = "http" ∨ parsed.scheme = "https") ∧ parsed.host ≠ []

theorem validResourceURI_iff {value} : validResourceURI value = true ↔ PlainURI value ∧ HasWebHost value := by
  have controls := runes_all_iff_of_high (P := fun r => 0x20 ≤ r ∧ r ≠ 0x7F) (by omega) value
  have plain : (∀ b ∈ value, plainByte b = true) ↔ containsAny value "\\#" = false ∧
        ((runes value).any fun r => r < 0x20 || r == 0x7F) = false := by
    have marks : str "\\#" = [0x5C, 0x23] := by decide +kernel
    have visible : ((runes value).any fun r => r < 0x20 || r == 0x7F) = false ↔
        ∀ b ∈ value, 0x20 ≤ b.toNat ∧ b.toNat ≠ 0x7F := by
      rw [← controls]
      simp
    rw [visible]
    simp only [plainByte, containsAny, marks, any_eq_false, ← forall_and,
      Bool.and_eq_true, decide_eq_true_eq, contains_cons, Bool.or_eq_true, beq_iff_eq]
    refine forall_congr' fun b => ?_
    tauto
  unfold validResourceURI PlainURI
  rw [plain]
  by_cases empty : value = []
  · simp [empty]
  by_cases long : value.length > 4096
  · simp [not_le.mpr long]
  by_cases marked : containsAny value "\\#" = true
  · simp [marked]
  by_cases control : ((runes value).any fun r => r < 0x20 || r == 0x7F) = true
  · rw [control]
    simp
  rw [Bool.not_eq_true] at marked control
  rw [marked, control]
  simp only [long, le_of_not_gt long, HasWebHost]
  cases Url.parse value <;> simp

end Authz
