import SolidSidecar.Authz.EnforcementGate

/-!
# What keeps enforcement in bounds

Three guards of the enforcement gate, each over every state it can be met in. The comparison
thresholds are asked for when a mode is entered and not when they are lost afterwards
(`thresholdMet_of_enforcing`). The allowlists bound every mode but the canary mode, and the resource
list is asked about the path of the URL after it was written out and parsed again
(`enforced_accepted_iff`). The mismatch cut-off divides by two counters that no operation of the gate
advances, so it never comes into effect (`cutOff_iff`).
-/

namespace Authz
open Go Run List

/-- A list of patterns accepts a text if it is empty or one of them matches. -/
def accepts (patterns : List Str) (s : Str) : Bool :=
  patterns.isEmpty || patterns.any fun pattern => Glob.matchPattern pattern s

/-- The lists of the options accept the method, the path and the host of a request. -/
def EnforcementGateOptions.acceptsRequest [Unicode] (o : EnforcementGateOptions) (req : Http.Request) : Bool :=
  (o.methodAllowlist.isEmpty ||
      o.methodAllowlist.any fun allowed => Strings.toUpper allowed = Strings.toUpper req.method) &&
    accepts o.resourceAllowlist req.url.path && accepts o.storageAllowlist req.url.host

/-- The strategy picks a request, after `asked` earlier ones. -/
def CanaryConfig.picks (c : CanaryConfig) (asked : Int) (req : Http.Request) : Bool :=
  c.enabled && match c.mode with
    | .percentage => (wrap64 (asked + 1)).tmod 100 < c.percentage
    | .header => c.headerName ≠ [] && req.header.get c.headerName = c.headerValue
    | .path => c.pathPatterns.any fun pattern => Glob.matchPattern pattern req.url.path
    | .other _ _ => false

namespace EnforcementGate

variable (g : EnforcementGate)

section Runs

variable [Unicode] (percent : Int → Int → ℚ) {g : EnforcementGate} {i : Op × Time}

/-- The thresholds are required, and met in every enforcing mode. -/
structure Backed (g : EnforcementGate) : Prop where
  required : g.options.requireComparisonThreshold = true
  met : g.mode.enforcing = true → g.thresholdMet = true

theorem step_mode_of_revokes (revokes : i.1.revokes = true) : (g.step percent i).1.mode = g.mode := by
  obtain ⟨op, _⟩ := i
  cases op with
  | recordComparisonResult agreed =>
    cases agreed with
    | true => cases revokes
    | false => rfl
  | resetComparisonResults => rfl
  | _ => cases revokes

theorem Backed.step (backed : Backed g)
    (kept : ¬ (i.1.revokes = true ∧ g.mode.enforcing = true)) : Backed (g.step percent i).1 := by
  obtain ⟨⟨options, moved⟩, framed⟩ := step_moved percent g i
  refine ⟨options ▸ backed.required, fun enforcing => ?_⟩
  cases revokes : i.1.revokes with
  | true =>
    rw [step_mode_of_revokes percent revokes] at enforcing
    exact absurd ⟨revokes, enforcing⟩ kept
  | false =>
    apply framed.met revokes
    rcases moved with same | left | ⟨_, met⟩
    · rw [same] at enforcing
      exact backed.met enforcing
    · rw [left] at enforcing
      cases enforcing
    · exact met backed.required

/-- The thresholds are met whenever a gate enforces that started in shadow mode and requires them, in
every run that takes none of them back while the mode is an enforcing one. -/
theorem thresholdMet_of_enforcing {g : EnforcementGate}
    (required : g.options.requireComparisonThreshold = true) (shadow : g.mode = .shadow)
    {inputs : List (Op × Time)}
    (kept : ∀ before i after, inputs = before ++ i :: after →
      ¬ (i.1.revokes = true ∧ (Run.exec (step percent) g before).mode.enforcing = true)) :
    ∀ before after, inputs = before ++ after → (Run.exec (step percent) g before).shouldEnforce = true →
        (Run.exec (step percent) g before).thresholdMet = true := by
  have start : Backed g := by
    refine ⟨required, fun enforcing => ?_⟩
    rw [shadow] at enforcing
    cases enforcing
  have backed : ∀ before after, inputs = before ++ after → Backed (exec (step percent) g before) := by
    apply run_inv start
    intro before i after split backed
    exact backed.step percent (kept before i after split)
  intro before after split enforces
  apply (backed before after split).met
  unfold shouldEnforce at enforces
  split_ifs at enforces
  exact enforces

def Op.isRequest : Op → Bool
  | .shouldEnforceForRequest _ => true
  | _ => false

def Op.isMismatch : Op → Bool
  | .recordMismatch => true
  | _ => false

/-- No decision was counted, neither as enforced nor as shadowed. -/
structure Uncounted (g : EnforcementGate) : Prop where
  enforced : g.decisionsEnforced = 0
  shadowed : g.decisionsShadowed = 0

theorem Uncounted.step (uncounted : Uncounted g) (i : Op × Time) : Uncounted (g.step percent i).1 := by
  obtain ⟨-, enforced, shadowed, -⟩ := step_moved percent g i
  exact ⟨enforced.trans uncounted.enforced, shadowed.trans uncounted.shadowed⟩

/-- Without counted decisions, requests and mismatches do not change whether the gate enforces. -/
theorem shouldEnforce_step (uncounted : Uncounted g) (observes : i.1.isRequest = true ∨ i.1.isMismatch = true) :
    (g.step percent i).1.shouldEnforce = g.shouldEnforce := by
  obtain ⟨op, _⟩ := i
  cases op with
  | shouldEnforceForRequest req =>
    simp only [step, shouldEnforceForRequest, isCanaryRequest]
    split_ifs
    · rfl
    · rfl
    · split <;> rfl
    · rfl
  | recordMismatch =>
    have total : wrap64 (g.decisionsEnforced + g.decisionsShadowed) = 0 := by
      rw [uncounted.enforced, uncounted.shadowed]
      rfl
    simp only [step, recordMismatch]
    rw [if_neg (by omega)]
    rfl
  | _ => simp [Op.isRequest, Op.isMismatch] at observes

theorem shouldEnforce_run (uncounted : Uncounted g) {inputs}
    (observes : ∀ i ∈ inputs, i.1.isRequest = true ∨ i.1.isMismatch = true) :
    (exec (step percent) g inputs).shouldEnforce = g.shouldEnforce := by
  induction inputs generalizing g with
  | nil => rfl
  | cons i rest ih =>
    rw [exec_cons, ih (uncounted.step percent i) fun j later =>
      observes j (mem_cons_of_mem i later)]
    exact shouldEnforce_step percent uncounted (observes i mem_cons_self)

omit [Unicode] in
theorem uncounted_new {generated : Str} {o : EnforcementGateOptions}
    (made : newEnforcementGate generated o = .ok g) : Uncounted g := by
  unfold newEnforcementGate at made
  split at made
  · cases made
  · cases made
    exact ⟨rfl, rfl⟩

/-- Requests and mismatches that exceed the rate of the options are followed by no enforcement exactly
when there was none before them: `before` holds the calls up to the last mismatch, `after` those that
follow it. -/
theorem cutOff_iff {generated : Str} {o : EnforcementGateOptions} {new : EnforcementGate}
    (made : newEnforcementGate generated o = .ok new) (history before after : List (Op × Time))
    (last : Time) (calls : ∀ i ∈ before, i.1.isRequest = true ∨ i.1.isMismatch = true)
    (requests : ∀ i ∈ after, i.1.isRequest = true) :
    (o.autoDisableOnMismatchThreshold * before.countP (·.1.isRequest) < 100 * (before.countP (·.1.isMismatch) + 1) →
        (Run.exec (step percent) new
          (history ++ before ++ (.recordMismatch, last) :: after)).shouldEnforce = false) ↔
      ¬ (o.autoDisableOnMismatchThreshold * before.countP (·.1.isRequest) <
          100 * (before.countP (·.1.isMismatch) + 1) ∧
        (Run.exec (step percent) new history).shouldEnforce = true) := by
  have keep : ∀ g i, Uncounted g → Uncounted (step percent g i).1 :=
    fun _ i uncounted => uncounted.step percent i
  have uncounted := exec_inv keep (uncounted_new made) history
  have observes : ∀ i ∈ before ++ (.recordMismatch, last) :: after,
      i.1.isRequest = true ∨ i.1.isMismatch = true := by
    intro i mem
    rcases List.mem_append.mp mem with early | late
    · exact calls i early
    · rcases List.mem_cons.mp late with rfl | later
      · exact .inr rfl
      · exact .inl (requests i later)
  rw [append_assoc, exec_append, shouldEnforce_run percent uncounted observes, not_and, Bool.not_eq_true]

end Runs

theorem isCanaryRequest_snd (req : Http.Request) : (g.isCanaryRequest req).2 =
      g.options.canaryConfig.picks g.canaryRequestCount req := by
  unfold isCanaryRequest CanaryConfig.picks
  dsimp only
  cases g.options.canaryConfig.enabled with
  | false => rfl
  | true => cases g.options.canaryConfig.mode <;> simp

theorem isStorageAllowlisted_eq (host : Str) :
    g.isStorageAllowlisted host = accepts g.options.storageAllowlist host := by
  unfold isStorageAllowlisted
  cases g.options.storageAllowlist <;> rfl

theorem acceptsRequest_eq [Unicode] (g : EnforcementGate) (req : Http.Request) : g.options.acceptsRequest req =
      (g.isMethodAllowlisted req.method && accepts g.options.resourceAllowlist req.url.path &&
        g.isStorageAllowlisted req.url.host) := by
  rw [isStorageAllowlisted_eq]
  unfold EnforcementGateOptions.acceptsRequest isMethodAllowlisted
  cases g.options.methodAllowlist <;> rfl

/-- The resource list accepts the URL written out and parsed again, but not the path of the URL. -/
def reparsedOnly (req : Http.Request) : Bool :=
  g.isResourceAllowlisted req.url.string && !accepts g.options.resourceAllowlist req.url.path

/-- What the gate enforces for is accepted by the lists, unless the mode is the canary mode and it picks
a request that is not, or the resource list is met by the URL after another parse only. -/
theorem enforced_accepted_iff [Unicode] (g : EnforcementGate) (req : Http.Request) :
    ((g.shouldEnforceForRequest req).2 = true → g.options.acceptsRequest req = true) ↔ ¬ (g.shouldEnforce = true ∧
        (g.mode = .canary ∧ g.options.canaryConfig.picks g.canaryRequestCount req = true ∧
            g.options.acceptsRequest req = false ∨
          g.mode ≠ .canary ∧ g.isMethodAllowlisted req.method = true ∧
            g.isStorageAllowlisted req.url.host = true ∧ g.reparsedOnly req = true)) := by
  unfold shouldEnforceForRequest
  by_cases general : g.shouldEnforce = true
  · by_cases canary : g.mode = .canary
    · simp [general, canary, isCanaryRequest_snd]
    · rw [acceptsRequest_eq]
      simp only [general, canary, reparsedOnly, not_true, if_false, Bool.and_eq_true, Bool.not_eq_true', ← Bool.not_eq_true]
      tauto
  · simp [general]

section Sample

attribute [local instance] Unicode.ascii

/-- Enforcement is allowed once one comparison agreed. -/
def guardedOptions : EnforcementGateOptions :=
  { allowEnforcement := true, requireComparisonThreshold := true, comparisonThresholdCount := 1
    emergencyBypassToken := "token", autoDisableOnMismatchThreshold := 50 }

def guardedGate : EnforcementGate where
  options := guardedOptions
  mode := .shadow
  valid := rfl

theorem thresholdMet_of_enforcing_guarded :
    (guardedGate.options.requireComparisonThreshold = true ∧ guardedGate.mode = .shadow) ∧
    ∀ before after, [(Op.recordComparisonResult true, ⟨0⟩), (Op.enableEnforcement, ⟨0⟩)] = before ++ after →
      (Run.exec (step percentage) guardedGate before).shouldEnforce = true →
        (Run.exec (step percentage) guardedGate before).thresholdMet = true := by
  refine ⟨⟨rfl, rfl⟩, thresholdMet_of_enforcing percentage rfl rfl ?_⟩
  intro before i after split ⟨revokes, _⟩
  have mem : i ∈ [(.recordComparisonResult true, (⟨0⟩ : Time)), (.enableEnforcement, ⟨0⟩)] := by
    rw [split]
    simp
  simp only [mem_cons, not_mem_nil, or_false] at mem
  rcases mem with rfl | rfl <;> cases revokes

/-- A comparison that disagrees after enforcement was enabled leaves it on. -/
theorem enforces_below_threshold :
    let g := Run.exec (step percentage) guardedGate
      [(.recordComparisonResult true, ⟨0⟩), (.enableEnforcement, ⟨0⟩), (.recordComparisonResult false, ⟨0⟩)]
    g.shouldEnforce = true ∧ g.thresholdMet = false := by
  decide +kernel

/-- The calls that enable enforcement on the guarded gate. -/
def enabling : List (Op × Time) := [(.recordComparisonResult true, ⟨0⟩), (.enableEnforcement, ⟨0⟩)]

def plainGet : Http.Request := { method := "GET", url := { path := "/notes" } }

/-- A gate that does not enforce does not begin to at a mismatch. -/
theorem cutOff_iff_guarded : newEnforcementGate (str "token") guardedOptions = .ok guardedGate ∧
    guardedGate.shouldEnforce = false ∧ (Run.exec (step percentage) guardedGate
      [(.shouldEnforceForRequest plainGet, ⟨0⟩), (.recordMismatch, ⟨0⟩)]).shouldEnforce = false := by
  have made : newEnforcementGate "token" guardedOptions = .ok guardedGate := rfl
  refine ⟨made, rfl, ?_⟩
  exact (cutOff_iff percentage made [] [(.shouldEnforceForRequest plainGet, ⟨0⟩)] [] ⟨0⟩
    (by simp [Op.isRequest]) (by simp)).mpr (fun both => absurd both.2 (by decide +kernel)) (by decide +kernel)

/-- One request and one mismatch, a rate of 100 % with a limit of 50 %: enforcement goes on. -/
theorem enforces_past_cutOff : (Run.exec (step percentage) guardedGate
      (enabling ++ [(.shouldEnforceForRequest plainGet, ⟨0⟩), (.recordMismatch, ⟨0⟩)])).shouldEnforce = true := by
  decide +kernel

/-- A gate in canary mode that picks by a header, with the default list of methods. -/
def canaryGate : EnforcementGate where
  options :=
    { allowEnforcement := true, emergencyBypassToken := "token"
      canaryConfig :=
        { enabled := true, mode := .header, headerName := "X-Canary", headerValue := "on" } }
  mode := .canary
  valid := rfl

/-- An enforcing gate for the resources under `/public/`. -/
def publicGate : EnforcementGate where
  options :=
    { allowEnforcement := true, emergencyBypassToken := "token"
      resourceAllowlist := ["/public/*"] }
  mode := .enforce
  valid := rfl

/-- A canary `PUT` is enforced although the list holds `GET` and `HEAD`, and a `GET` of `//x/public/a`
although no pattern of the list matches that path: written out and parsed again, `x` is a host. -/
theorem enforces_outside_lists : ((canaryGate.shouldEnforceForRequest
        { method := str "PUT", url := { path := str "/notes" }
          header := (∅ : Http.Header).insert (str "X-Canary") [str "on"] }).2 = true ∧
      canaryGate.options.acceptsRequest
        { method := str "PUT", url := { path := str "/notes" }
          header := (∅ : Http.Header).insert (str "X-Canary") [str "on"] } = false) ∧
    (publicGate.shouldEnforceForRequest { method := str "GET", url := { path := str "//x/public/a" } }).2 = true ∧
      publicGate.options.acceptsRequest { method := str "GET", url := { path := str "//x/public/a" } } = false := by
  decide +kernel

end Sample

end EnforcementGate

end Authz
