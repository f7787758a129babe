import SolidSidecar.Authz.Glob
import SolidSidecar.Go.Float
import SolidSidecar.Go.Http
import SolidSidecar.Go.Time
import SolidSidecar.Run.Machine

/-!
# The enforcement gate

`enforcement_gate.go`: whether decisions are enforced or only observed. The gate is a state machine;
its operations change the mode, close and reopen the gate, set bypasses, and count mismatches and
comparison results. Quotients of counters are floating point in the source (`Go.percentage`); the
operations take the function `percent` that computes them. Logs and the counters that only report are
left out.
-/

namespace Authz
open Go

inductive EnforcementMode where
  | shadow
  | enforce
  | dryRun
  | canary
  | other (text : Str) (unknown : text ∉ [str "shadow", "enforce", "dry-run", "enforce_canary"])
  deriving DecidableEq, Repr

def EnforcementMode.enforcing : EnforcementMode → Bool
  | .enforce | .dryRun | .canary => true
  | .shadow | .other _ _ => false

inductive CanaryMode where
  | percentage
  | header
  | path
  | other (text : Str) (unknown : text ∉ [str "percentage", "header", "path"])
  deriving DecidableEq, Repr

structure CanaryConfig where
  enabled : Bool := false
  mode : CanaryMode := .percentage
  percentage : Int := 1
  headerName : Str := []
  headerValue : Str := []
  pathPatterns : List Str := []
  deriving DecidableEq, Repr

/-- `EnforcementGateOptions`, with the defaults of `DefaultEnforcementGateOptions`; an empty token is
replaced by a generated one. -/
structure EnforcementGateOptions where
  initialMode : EnforcementMode := .shadow
  allowEnforcement : Bool := false
  emergencyBypassEnabled : Bool := true
  emergencyBypassToken : Str := []
  maxEnforcementDuration : Int := 0
  resourceAllowlist : List Str := []
  storageAllowlist : List Str := []
  methodAllowlist : List Str := ["GET", "HEAD"]
  autoDisableOnMismatchThreshold : Int := 0
  canaryConfig : CanaryConfig := {}
  requireComparisonThreshold : Bool := false
  comparisonThresholdPercentage : Int := 100
  comparisonThresholdCount : Int := 0
  deriving DecidableEq, Repr

/-- Why options are refused, with the pattern that is quoted. -/
structure OptionsError where
  text : String
  pattern : Str := []
  deriving DecidableEq, Repr

def checkPatterns (text : String) : List Str → Except OptionsError Unit :=
  checkAll fun pattern => refuse (Glob.validatePattern pattern = false) { text, pattern }

def EnforcementGateOptions.validate (o : EnforcementGateOptions) : Except OptionsError Unit := do
  checkPatterns "invalid resource allowlist pattern" o.resourceAllowlist
  checkPatterns "invalid storage allowlist pattern" o.storageAllowlist
  checkPatterns "invalid canary path pattern" o.canaryConfig.pathPatterns
  refuse (o.canaryConfig.enabled ∧ (o.canaryConfig.percentage < 0 ∨ o.canaryConfig.percentage > 100))
    { text := "canary percentage must be between 0 and 100" }
  refuse (o.canaryConfig.enabled ∧ o.canaryConfig.mode = .header ∧ o.canaryConfig.headerName = [])
    { text := "canary header name is required for header mode" }
  refuse (o.autoDisableOnMismatchThreshold < 0 ∨ o.autoDisableOnMismatchThreshold > 100)
    { text := "auto-disable mismatch threshold must be between 0 and 100" }
  refuse (o.comparisonThresholdPercentage < 0 ∨ o.comparisonThresholdPercentage > 100)
    { text := "comparison threshold percentage must be between 0 and 100" }
  refuse (o.comparisonThresholdCount < 0) { text := "comparison threshold count must be non-negative" }

def EnforcementGateOptions.withDefaults (o : EnforcementGateOptions) (generated : Str) : EnforcementGateOptions :=
  { o with
    initialMode := match o.initialMode with
      | .other [] _ => .shadow
      | mode => mode
    emergencyBypassToken := if o.emergencyBypassToken = [] then generated else o.emergencyBypassToken }

structure EnforcementGate where
  options : EnforcementGateOptions
  mode : EnforcementMode
  enabledAt : Time := Time.zero
  bypassSet : GoMap Str Unit := ∅
  closed : Bool := false
  closeReason : Str := []
  mismatchCount : Int := 0
  autoDisabled : Bool := false
  canaryRequestCount : Int := 0
  comparisonTotalCount : Int := 0
  comparisonMatchCount : Int := 0
  consecutiveMatchCount : Int := 0
  thresholdMet : Bool := false
  decisionsEnforced : Int := 0
  decisionsShadowed : Int := 0
  valid : options.validate = .ok ()

/-- `NewEnforcementGate`, with the token that would be generated. -/
def newEnforcementGate (generated : Str) (o : EnforcementGateOptions) : Except OptionsError EnforcementGate :=
  match accepted : o.validate with
  | .error err => .error err
  | .ok () =>
    let options := o.withDefaults generated
    .ok { options, mode := options.initialMode, valid := accepted }

inductive GateError where
  | closed (reason : Str)
  | notAllowed
  /-- The comparison thresholds are not met; the text gives the counts. -/
  | thresholdNotMet (agreed total : Int)
  deriving DecidableEq, Repr

namespace EnforcementGate

def setMode (g : EnforcementGate) (now : Time) (mode : EnforcementMode) : EnforcementGate × Except GateError Unit :=
  if g.closed then (g, .error (.closed g.closeReason))
  else if mode.enforcing then
    if !g.options.allowEnforcement then (g, .error .notAllowed)
    else if g.options.requireComparisonThreshold && !g.thresholdMet then
      (g, .error (.thresholdNotMet g.comparisonMatchCount g.comparisonTotalCount))
    else ({ g with enabledAt := now, autoDisabled := false, mode }, .ok ())
  else if mode = .shadow then ({ g with autoDisabled := false, mode }, .ok ())
  -- a mode that is none of the known ones is set all the same
  else ({ g with mode }, .ok ())

def disableEnforcement (g : EnforcementGate) : EnforcementGate :=
  { g with mode := .shadow, autoDisabled := false }

def emergencyBypass (g : EnforcementGate) (token : Str) : EnforcementGate × Bool :=
  if !g.options.emergencyBypassEnabled then (g, false)
  else if token = g.options.emergencyBypassToken then
    ({ g with bypassSet := g.bypassSet.insert token () }, true)
  else (g, false)

def clearEmergencyBypass (g : EnforcementGate) (token : Str) : EnforcementGate :=
  { g with bypassSet := g.bypassSet.erase token }

def isEmergencyBypassActive (g : EnforcementGate) : Bool := g.bypassSet.size > 0

def close (g : EnforcementGate) (reason : Str) : EnforcementGate :=
  { g with closed := true, closeReason := reason }

def reopen (g : EnforcementGate) : EnforcementGate := { g with closed := false, closeReason := [] }

def checkEnforcementDuration (g : EnforcementGate) (now : Time) : Bool :=
  if g.options.maxEnforcementDuration = 0 then false
  else if !g.mode.enforcing then false
  else now.sub g.enabledAt > g.options.maxEnforcementDuration

def autoRevertIfNeeded (g : EnforcementGate) (now : Time) : EnforcementGate :=
  if g.checkEnforcementDuration now then { g with mode := .shadow } else g

def shouldEnforce (g : EnforcementGate) : Bool :=
  if g.closed then false
  else if g.autoDisabled then false
  else if g.isEmergencyBypassActive then false
  else g.mode.enforcing

def isMethodAllowlisted [Unicode] (g : EnforcementGate) (method : Str) : Bool :=
  if g.options.methodAllowlist = [] then true
  else g.options.methodAllowlist.any fun allowed => Strings.toUpper allowed = Strings.toUpper method

def isResourceAllowlisted (g : EnforcementGate) (resource : Str) : Bool :=
  if g.options.resourceAllowlist = [] then true
  else match Url.parse resource with
    | .error _ => false
    | .ok parsed => g.options.resourceAllowlist.any fun pattern => Glob.matchPattern pattern parsed.path

def isStorageAllowlisted (g : EnforcementGate) (host : Str) : Bool :=
  if g.options.storageAllowlist = [] then true
  else g.options.storageAllowlist.any fun pattern => Glob.matchPattern pattern host

/-- `isCanaryRequest`; the percentage mode counts the requests it is asked about. -/
def isCanaryRequest (g : EnforcementGate) (req : Http.Request) : EnforcementGate × Bool :=
  let canary := g.options.canaryConfig
  if !canary.enabled then (g, false)
  else match canary.mode with
    | .percentage =>
      let count := wrap64 (g.canaryRequestCount + 1)
      ({ g with canaryRequestCount := count }, count.tmod 100 < canary.percentage)
    | .header =>
      (g, canary.headerName ≠ [] && req.header.get canary.headerName = canary.headerValue)
    | .path => (g, canary.pathPatterns.any fun pattern => Glob.matchPattern pattern req.url.path)
    | .other _ _ => (g, false)

def shouldEnforceForRequest [Unicode] (g : EnforcementGate) (req : Http.Request) : EnforcementGate × Bool :=
  if !g.shouldEnforce then (g, false)
  else if g.mode = .canary then g.isCanaryRequest req
  else
    (g, g.isMethodAllowlisted req.method && g.isResourceAllowlisted req.url.string &&
      g.isStorageAllowlisted req.url.host)

section Counters

variable (percent : Int → Int → ℚ)

def recordMismatch (g : EnforcementGate) : EnforcementGate :=
  let g := { g with mismatchCount := wrap64 (g.mismatchCount + 1) }
  let totalRequests := wrap64 (g.decisionsEnforced + g.decisionsShadowed)
  if g.options.autoDisableOnMismatchThreshold > 0 ∧ totalRequests > 0 ∧
      percent g.mismatchCount totalRequests > g.options.autoDisableOnMismatchThreshold then
    { g with autoDisabled := true }
  else g

def clearMismatches (g : EnforcementGate) : EnforcementGate :=
  { g with mismatchCount := 0, autoDisabled := false }

/-- The two thresholds, each of them met when it is not configured. -/
def meetsThresholds (g : EnforcementGate) : Bool :=
  let consecutiveMet := if g.options.comparisonThresholdCount > 0 then
    g.consecutiveMatchCount ≥ g.options.comparisonThresholdCount else true
  let percentageMet :=
    if g.options.comparisonThresholdPercentage > 0 ∧ g.comparisonTotalCount > 0 then
      percent g.comparisonMatchCount g.comparisonTotalCount ≥ g.options.comparisonThresholdPercentage
    else true
  consecutiveMet && percentageMet

def recordComparisonResult (g : EnforcementGate) (agreed : Bool) : EnforcementGate :=
  let g := { g with comparisonTotalCount := wrap64 (g.comparisonTotalCount + 1) }
  if agreed then
    let g := { g with
      comparisonMatchCount := wrap64 (g.comparisonMatchCount + 1)
      consecutiveMatchCount := wrap64 (g.consecutiveMatchCount + 1) }
    if g.meetsThresholds percent then { g with thresholdMet := true } else g
  else { g with consecutiveMatchCount := 0, thresholdMet := false }

def resetComparisonResults (g : EnforcementGate) : EnforcementGate :=
  { g with
    comparisonTotalCount := 0, comparisonMatchCount := 0, consecutiveMatchCount := 0
    thresholdMet := false }

end Counters

inductive Op where
  | setMode (mode : EnforcementMode)
  | enableEnforcement
  | enableDryRun
  | enableCanary
  | disableEnforcement
  | close (reason : Str)
  | reopen
  | emergencyBypass (token : Str)
  | clearEmergencyBypass (token : Str)
  | recordMismatch
  | clearMismatches
  | recordComparisonResult (agreed : Bool)
  | resetComparisonResults
  | autoRevertIfNeeded
  | shouldEnforce
  | shouldEnforceForRequest (req : Http.Request)

inductive Answer where
  | nothing
  | bool (b : Bool)
  | result (r : Except GateError Unit)

def step [Unicode] (percent : Int → Int → ℚ) (g : EnforcementGate) (i : Op × Time) : EnforcementGate × Answer :=
  match i.1 with
  | .setMode mode => (g.setMode i.2 mode).map id .result
  | .enableEnforcement => (g.setMode i.2 .enforce).map id .result
  | .enableDryRun => (g.setMode i.2 .dryRun).map id .result
  | .enableCanary => (g.setMode i.2 .canary).map id .result
  | .disableEnforcement => (g.disableEnforcement, .nothing)
  | .close reason => (g.close reason, .nothing)
  | .reopen => (g.reopen, .nothing)
  | .emergencyBypass token => (g.emergencyBypass token).map id .bool
  | .clearEmergencyBypass token => (g.clearEmergencyBypass token, .nothing)
  | .recordMismatch => (g.recordMismatch percent, .nothing)
  | .clearMismatches => (g.clearMismatches, .nothing)
  | .recordComparisonResult agreed => (g.recordComparisonResult percent agreed, .nothing)
  | .resetComparisonResults => (g.resetComparisonResults, .nothing)
  | .autoRevertIfNeeded => (g.autoRevertIfNeeded i.2, .nothing)
  | .shouldEnforce => (g, .bool g.shouldEnforce)
  | .shouldEnforceForRequest req => (g.shouldEnforceForRequest req).map id .bool

/-- The operation left the options alone and kept the mode, or left an enforcing mode, or was allowed
to enter one. -/
structure Moved (g g' : EnforcementGate) : Prop where
  options : g'.options = g.options
  mode : g'.mode = g.mode ∨ g'.mode.enforcing = false ∨ g.options.allowEnforcement = true ∧
      (g.options.requireComparisonThreshold = true → g.thresholdMet = true)

/-- The operations that take back a threshold that was met. -/
def Op.revokes : Op → Bool
  | .recordComparisonResult agreed => !agreed
  | .resetComparisonResults => true
  | _ => false

/-- What an operation leaves alone: the two counters of decisions, and a threshold that was met unless
the operation takes it back. -/
structure Framed (revokes : Bool) (g g' : EnforcementGate) : Prop where
  enforced : g'.decisionsEnforced = g.decisionsEnforced
  shadowed : g'.decisionsShadowed = g.decisionsShadowed
  met : revokes = false → g.thresholdMet = true → g'.thresholdMet = true

variable (g : EnforcementGate)

theorem moved_refl (revokes : Bool) : Moved g g ∧ Framed revokes g g :=
  ⟨⟨rfl, .inl rfl⟩, rfl, rfl, fun _ met => met⟩

theorem setMode_moved (now : Time) (mode : EnforcementMode) :
    Moved g (g.setMode now mode).1 ∧ Framed false g (g.setMode now mode).1 := by
  unfold setMode
  split_ifs with _ enforcing allowed met
  · exact moved_refl g false
  · exact moved_refl g false
  · exact moved_refl g false
  · refine ⟨⟨rfl, .inr (.inr ⟨by simpa using allowed, fun required => ?_⟩)⟩, rfl, rfl, fun _ met => met⟩
    simpa [required] using met
  · exact ⟨⟨rfl, .inr (.inl (Bool.eq_false_iff.mpr enforcing))⟩, rfl, rfl, fun _ met => met⟩
  · exact ⟨⟨rfl, .inr (.inl (Bool.eq_false_iff.mpr enforcing))⟩, rfl, rfl, fun _ met => met⟩

theorem shouldEnforceForRequest_moved [Unicode] (g : EnforcementGate) (req : Http.Request) :
    Moved g (g.shouldEnforceForRequest req).1 ∧ Framed false g (g.shouldEnforceForRequest req).1 := by
  unfold shouldEnforceForRequest isCanaryRequest
  dsimp only
  split_ifs
  · exact moved_refl g false
  · exact moved_refl g false
  · split <;> exact ⟨⟨rfl, .inl rfl⟩, rfl, rfl, fun _ met => met⟩
  · exact moved_refl g false

theorem recordComparisonResult_moved (percent : Int → Int → ℚ) (agreed : Bool) :
    Moved g (g.recordComparisonResult percent agreed) ∧
      Framed (!agreed) g (g.recordComparisonResult percent agreed) := by
  cases agreed with
  | false => exact ⟨⟨rfl, .inl rfl⟩, rfl, rfl, nofun⟩
  | true =>
    simp only [recordComparisonResult, if_true]
    split_ifs
    · exact ⟨⟨rfl, .inl rfl⟩, rfl, rfl, fun _ _ => rfl⟩
    · exact ⟨⟨rfl, .inl rfl⟩, rfl, rfl, fun _ met => met⟩

/-- What any operation does to the mode, and what it leaves alone. -/
theorem step_moved [Unicode] (percent : Int → Int → ℚ) (g : EnforcementGate) (i : Op × Time) :
    Moved g (g.step percent i).1 ∧ Framed i.1.revokes g (g.step percent i).1 := by
  obtain ⟨op, now⟩ := i
  cases op with
  | setMode mode => exact setMode_moved g now mode
  | enableEnforcement => exact setMode_moved g now .enforce
  | enableDryRun => exact setMode_moved g now .dryRun
  | enableCanary => exact setMode_moved g now .canary
  | disableEnforcement => exact ⟨⟨rfl, .inr (.inl rfl)⟩, rfl, rfl, fun _ met => met⟩
  | emergencyBypass token =>
    simp only [step, emergencyBypass]
    split_ifs <;> exact ⟨⟨rfl, .inl rfl⟩, rfl, rfl, fun _ met => met⟩
  | recordMismatch =>
    simp only [step, recordMismatch]
    split_ifs <;> exact ⟨⟨rfl, .inl rfl⟩, rfl, rfl, fun _ met => met⟩
  | recordComparisonResult agreed => exact recordComparisonResult_moved g percent agreed
  | autoRevertIfNeeded =>
    simp only [step, autoRevertIfNeeded]
    split_ifs
    · exact ⟨⟨rfl, .inr (.inl rfl)⟩, rfl, rfl, fun _ met => met⟩
    · exact moved_refl g false
  | shouldEnforceForRequest req => exact shouldEnforceForRequest_moved g req
  | resetComparisonResults => exact ⟨⟨rfl, .inl rfl⟩, rfl, rfl, nofun⟩
  | close | reopen | clearEmergencyBypass | clearMismatches | shouldEnforce =>
    exact ⟨⟨rfl, .inl rfl⟩, rfl, rfl, fun _ met => met⟩

/-- Nothing is enforced in this state, in general or for any request. -/
def Silent [Unicode] (g : EnforcementGate) : Prop :=
  g.shouldEnforce = false ∧ ∀ req, (g.shouldEnforceForRequest req).2 = false

theorem silent_of_mode [Unicode] {g : EnforcementGate} (quiet : g.mode.enforcing = false) :
    g.Silent := by
  have general : g.shouldEnforce = false := by
    unfold shouldEnforce
    simp [quiet]
  refine ⟨general, fun req => ?_⟩
  simp [shouldEnforceForRequest, general]

structure Quiet (g : EnforcementGate) : Prop where
  disallowed : g.options.allowEnforcement = false
  mode : g.mode.enforcing = false

/-- Where enforcement is not allowed, a mode that does not enforce is never left for one that does. -/
theorem Quiet.step [Unicode] (percent : Int → Int → ℚ) {g} (quiet : Quiet g)
    (i : Op × Time) : Quiet (g.step percent i).1 := by
  obtain ⟨⟨options, mode⟩, -⟩ := step_moved percent g i
  refine ⟨options ▸ quiet.disallowed, ?_⟩
  rcases mode with same | left | ⟨allowed, _⟩
  · rw [same]
    exact quiet.mode
  · exact left
  · rw [quiet.disallowed] at allowed
    cases allowed

theorem newEnforcementGate_ok {generated o g} (made : newEnforcementGate generated o = .ok g) :
    g.options.allowEnforcement = o.allowEnforcement ∧
      g.mode.enforcing = o.initialMode.enforcing ∧ g.shouldEnforce = g.mode.enforcing := by
  unfold newEnforcementGate at made
  split at made
  · cases made
  · cases made
    refine ⟨rfl, ?_, rfl⟩
    simp only [EnforcementGateOptions.withDefaults]
    split
    · rename_i empty
      rw [empty]
      rfl
    · rfl

/-- A gate that does not allow enforcement never enforces, whatever is done with it, exactly when it
was not started in an enforcing mode. -/
theorem silent_iff [Unicode] (percent : Int → Int → ℚ) {generated : Str} {o : EnforcementGateOptions}
    {g : EnforcementGate} (made : newEnforcementGate generated o = .ok g)
    (disallowed : o.allowEnforcement = false) :
    (∀ inputs, (Run.exec (step percent) g inputs).Silent) ↔ o.initialMode.enforcing = false := by
  obtain ⟨allow, mode, enforces⟩ := newEnforcementGate_ok made
  constructor
  · intro silent
    have start := (silent []).1
    rwa [Run.exec_nil, enforces, mode] at start
  · intro quiet inputs
    have start : Quiet g := ⟨allow.trans disallowed, mode.trans quiet⟩
    have keep : ∀ g i, Quiet g → Quiet (step percent g i).1 := fun _ i quiet => quiet.step percent i
    exact silent_of_mode (Run.exec_inv keep start inputs).mode

section Sample

attribute [local instance] Unicode.ascii

def defaultGate : EnforcementGate where
  options := ({} : EnforcementGateOptions).withDefaults "token"
  mode := .shadow
  valid := rfl

theorem silent_iff_default : newEnforcementGate (str "token") {} = .ok defaultGate ∧
    ∀ inputs, (Run.exec (step percentage) defaultGate inputs).Silent := by
  have made : newEnforcementGate "token" {} = .ok defaultGate := rfl
  exact ⟨made, (silent_iff percentage made rfl).mpr rfl⟩

/-- A gate whose options forbid enforcement and start with it. -/
def startedGate : EnforcementGate where
  options := ({ initialMode := .enforce } : EnforcementGateOptions).withDefaults "token"
  mode := .enforce
  valid := rfl

/-- Such options are accepted, and the new gate enforces a plain read. -/
theorem enforces_without_permission :
    newEnforcementGate (str "token") { initialMode := .enforce, allowEnforcement := false } = .ok startedGate ∧
      startedGate.shouldEnforce = true ∧
      (startedGate.shouldEnforceForRequest { method := str "GET", url := {} }).2 = true :=
  ⟨rfl, rfl, by decide +kernel⟩

end Sample

end EnforcementGate

end Authz
