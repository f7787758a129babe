import SolidSidecar.Authz.PolicyEvaluators
import SolidSidecar.Authz.SaiEvaluator

/-!
# What a set of rules grants

The evaluators look for one rule that settles a request. What the rules grant together is more: under Web
Access Control the modes of several rules add up, under Access Control Policies a rule that denies
overrides those that allow, and the rules of an SAI policy have modes and priorities of their own. Each
evaluator is compared with what its rules state, for any rules in any order.
-/

namespace Authz
open Go List SAIRule

/-- A request with an agent is allowed exactly by one rule that matches it and allows its modes. -/
theorem judgeByRules_allow {α} {matchesRequest allowsModes : α → Bool} {r : Request} {rules}
    (agent : r.agentWebID ≠ []) : (judgeByRules matchesRequest allowsModes r rules).1 = .allow ↔
      ∃ rule ∈ rules, matchesRequest rule = true ∧ allowsModes rule = true := by
  unfold judgeByRules
  split_ifs with empty found
  · simp [List.isEmpty_iff.mp empty]
  · simpa using found
  · simpa using found

namespace WACEvaluator

variable (r : Request) (policies : List WACPolicy)

/-- Some rule for the resource and the agent of the request lists the mode. -/
def Granted (mode : AccessMode) : Prop :=
  ∃ rule ∈ policies.flatMap WACPolicy.rules, rule.accessTo = r.resourceURI ∧
    (rule.agent = [] ∨ rule.agent = r.agentWebID) ∧ mode ∈ rule.modes

def GrantedAtOnce : Prop :=
  ∃ rule ∈ policies.flatMap WACPolicy.rules, rule.accessTo = r.resourceURI ∧
    (rule.agent = [] ∨ rule.agent = r.agentWebID) ∧ ∀ mode ∈ r.requestedModes, mode ∈ rule.modes

/-- A request is allowed for what the rules grant together exactly if one rule grants it all or some mode
is not granted; the order of policies and rules does not matter. -/
theorem allowed_granted_iff (agent : r.agentWebID ≠ [])
    (named : ∀ rule ∈ policies.flatMap WACPolicy.rules, rule.modes ≠ [] ∧ rule.agentClass = []) :
    (((evaluateRequestAgainstPolicies r policies).1 = .allow ↔ ∀ mode ∈ r.requestedModes, Granted r policies mode) ↔
      ((∀ mode ∈ r.requestedModes, Granted r policies mode) → GrantedAtOnce r policies)) ∧
    ∀ others : List WACPolicy, (others.flatMap WACPolicy.rules).Perm (policies.flatMap WACPolicy.rules) →
      evaluateRequestAgainstPolicies r others = evaluateRequestAgainstPolicies r policies := by
  have allowed : (evaluateRequestAgainstPolicies r policies).1 = .allow ↔ GrantedAtOnce r policies := by
    rw [evaluateRequestAgainstPolicies, judgeByRules_allow agent]
    refine exists_congr fun rule => and_congr_right fun mem => ?_
    obtain ⟨modes, noClass⟩ := named rule mem
    simp [ruleMatchesRequest, ruleMatches, ruleAllowsModes, coversModes, modes, noClass, and_assoc]
  have each : GrantedAtOnce r policies → ∀ mode ∈ r.requestedModes, Granted r policies mode := by
    rintro ⟨rule, mem, resource, agent, all⟩ mode asked
    exact ⟨rule, mem, resource, agent, all mode asked⟩
  refine ⟨?_, fun others reordered => ?_⟩
  · rw [allowed]
    exact ⟨fun same => same.mpr, fun atOnce => ⟨each, atOnce⟩⟩
  · unfold evaluateRequestAgainstPolicies judgeByRules
    rw [reordered.any_eq, reordered.isEmpty_eq]

def notePolicy (rules : List (List AccessMode)) : WACPolicy where
  resourceURI := "https://pod/note"
  authorizationURI := "https://pod/note.acl"
  rules := rules.map fun modes =>
    { authorization := "https://pod/note.acl", accessTo := "https://pod/note", agent := "https://pod/me"
      modes }

def noteRequest (modes : List AccessMode) : Request :=
  { schemaVersion, requestID := "1", method := "PUT", resourceURI := "https://pod/note"
    agentWebID := "https://pod/me", requestedModes := modes, nowUnix := 0 }

theorem allowed_granted_iff_note :
    (evaluateRequestAgainstPolicies (noteRequest [.read]) [notePolicy [[.write], [.read]]]).1 = .allow ↔
      ∀ mode ∈ [AccessMode.read], Granted (noteRequest [.read]) [notePolicy [[.write], [.read]]] mode :=
  (allowed_granted_iff (noteRequest [.read]) [notePolicy [[.write], [.read]]] (by decide) (by decide)).1.mpr
    fun _ => ⟨_, mem_cons_of_mem _ mem_cons_self, rfl, .inr rfl, by decide⟩

/-- Reading and writing are granted by a rule each, and a request for both is denied. -/
theorem granted_apart_denied :
    let r := noteRequest [.read, .write]
    let policies := [notePolicy [[.read], [.write]]]
    (∀ mode ∈ r.requestedModes, Granted r policies mode) ∧ (evaluateRequestAgainstPolicies r policies).1 = .deny := by
  unfold Granted
  decide +kernel

end WACEvaluator

namespace ACPEvaluator

variable (r : Request) (policies : List ACPPolicy)

/-- A rule that denies matches the request and lists one of its modes. -/
def Denied : Prop :=
  ∃ rule ∈ policies.flatMap ACPPolicy.rules, rule.access.allows = false ∧ ruleMatchesRequest rule r = true ∧
    ∃ mode ∈ r.requestedModes, mode ∈ rule.access.modes

/-- A request that is denied is not allowed, exactly unless a rule that allows matches it and covers its
modes: rules that deny are not looked at. -/
theorem denied_not_allowed_iff (agent : r.agentWebID ≠ []) :
    (Denied r policies → (evaluateRequestAgainstPolicies r policies).1 ≠ .allow) ↔
      ¬ (Denied r policies ∧ ∃ rule ∈ policies.flatMap ACPPolicy.rules, rule.access.allows = true ∧
        ruleMatchesRequest rule r = true ∧ coversModes rule.access.modes r.requestedModes = true) := by
  have allowed : (evaluateRequestAgainstPolicies r policies).1 = .allow ↔
      ∃ rule ∈ policies.flatMap ACPPolicy.rules, rule.access.allows = true ∧
        ruleMatchesRequest rule r = true ∧ coversModes rule.access.modes r.requestedModes = true := by
    rw [evaluateRequestAgainstPolicies, judgeByRules_allow agent]
    simp [ruleAllowsModes, and_left_comm]
  rw [ne_eq, allowed, not_and]

/-- A policy with rules that allow or deny the owner of a note to read it. -/
def notePolicy (rules : List Bool) : ACPPolicy where
  resourceURI := "https://pod/note"
  policyURI := "https://pod/note.acl"
  rules := rules.map fun allows =>
    { access := { accessTo := "https://pod/note", allows, agent := "https://pod/me", modes := [.read] }
      resource := "https://pod/note", policy := "https://pod/note.acl" }

theorem denied_not_allowed_iff_note :
    let r := WACEvaluator.noteRequest [.read]
    Denied r [notePolicy [false]] ∧ (evaluateRequestAgainstPolicies r [notePolicy [false]]).1 ≠ .allow := by
  intro r
  have denied : Denied r [notePolicy [false]] := by
    unfold Denied
    decide +kernel
  refine ⟨denied, (denied_not_allowed_iff r _ (by decide)).mpr ?_ denied⟩
  rintro ⟨-, allowing⟩
  revert allowing
  decide +kernel

/-- The denial comes first and the request is allowed. -/
theorem denied_and_allowed :
    let r := WACEvaluator.noteRequest [.read]
    Denied r [notePolicy [false, true]] ∧ (evaluateRequestAgainstPolicies r [notePolicy [false, true]]).1 = .allow := by
  unfold Denied
  decide +kernel

end ACPEvaluator

/-- The conclusion of the rule names the mode, or any mode. -/
def SAIRule.Covers (rule : SAIRule) (mode : AccessMode) : Prop :=
  mode ∈ rule.conclusion.grantedModes ∨ saiAccessModeAny ∈ rule.conclusion.grantedModes

/-- The premise of the rule names no mode, or any mode. -/
def SAIRule.ForAnyMode (rule : SAIRule) : Prop :=
  rule.premise.mode.text = [] ∨ rule.premise.mode = saiAccessModeAny

/-- The rules that match any mode are those without a mode of their own. -/
theorem SAIRule.matchesRequest_any (rule : SAIRule) (agent resource : Str) (mode : AccessMode) :
    rule.matchesRequest agent [] resource [] saiAccessModeAny = true ↔
      rule.ForAnyMode ∧ rule.matchesRequest agent [] resource [] mode = true := by
  unfold matchesRequest SAIPremise.matchesMode ForAnyMode
  split_ifs with _ any
  · simp
  · simp only [Bool.or_eq_true, decide_eq_true_eq] at any
    simp [any]
  · simp only [Bool.or_eq_true, decide_eq_true_eq, not_or] at any
    simp [any]

namespace SAIPolicy

variable (p : SAIPolicy) (agent resource : Str)

def Allows (rule : SAIRule) (mode : AccessMode) : Prop :=
  rule.matchesRequest agent [] resource [] mode = true ∧ rule.conclusion.allows = true ∧ rule.Covers mode

/-- Some rule allows the mode, and none that matches and covers it denies it with a higher priority. -/
def Grants (mode : AccessMode) : Prop :=
  ∃ rule ∈ p.rules, Allows agent resource rule mode ∧ ∀ other ∈ p.rules,
    other.matchesRequest agent [] resource [] mode = true → other.conclusion.allows = false → other.Covers mode →
      other.conclusion.priority ≤ rule.conclusion.priority

/-- A rule without a mode of its own allows the mode. -/
def AllowsAny (mode : AccessMode) : Prop := ∃ rule ∈ p.rules, rule.ForAnyMode ∧ Allows agent resource rule mode

/-- Rules allow the mode, each of them with a mode of its own. -/
def AllowsOwn (mode : AccessMode) : Prop :=
  (∃ rule ∈ p.rules, Allows agent resource rule mode) ∧
    ∀ rule ∈ p.rules, Allows agent resource rule mode → ¬ rule.ForAnyMode

/-- A rule that matches denies the mode with a higher priority than every rule that allows it has. -/
def Outranked (mode : AccessMode) : Prop :=
  ∃ denial ∈ p.rules, (denial.matchesRequest agent [] resource [] mode = true ∧ denial.conclusion.allows = false ∧
    denial.Covers mode) ∧ ∀ rule ∈ p.rules, Allows agent resource rule mode →
      rule.conclusion.priority < denial.conclusion.priority

/-- A mode is granted if it is allowed, unless a denial outranks all rules that allow it. -/
theorem grants_iff (mode : AccessMode) : p.Grants agent resource mode ↔
    (∃ rule ∈ p.rules, Allows agent resource rule mode) ∧ ¬ p.Outranked agent resource mode := by
  constructor
  · rintro ⟨rule, mem, allows, highest⟩
    refine ⟨⟨rule, mem, allows⟩, fun ⟨denial, there, ⟨applies, denies, covers⟩, above⟩ => ?_⟩
    exact absurd (highest denial there applies denies covers) (not_le.mpr (above rule mem allows))
  · rintro ⟨⟨rule, mem, allows⟩, unranked⟩
    have finite : { rule | rule ∈ p.rules ∧ Allows agent resource rule mode }.Finite :=
      (List.finite_toSet p.rules).subset fun _ both => both.1
    -- the allowing rule of the highest priority is the one that no denial is above
    obtain ⟨best, ⟨mem, allows⟩, most⟩ :=
      Set.exists_max_image _ (fun rule : SAIRule => rule.conclusion.priority) finite ⟨rule, mem, allows⟩
    refine ⟨best, mem, allows, fun denial there applies denies covers => ?_⟩
    by_contra above
    refine unranked ⟨denial, there, ⟨applies, denies, covers⟩, fun rule mem allows => ?_⟩
    exact lt_of_le_of_lt (most rule ⟨mem, allows⟩) (not_le.mp above)

theorem mem_getGrantedModes {requested : List AccessMode} {mode : AccessMode} (asked : mode ∈ requested) :
    mode ∈ p.getGrantedModes agent resource requested ↔ p.AllowsAny agent resource mode := by
  simp only [getGrantedModes, getApplicableRules, mem_filter, asked, true_and, Bool.or_eq_true, contains_iff_mem,
    mem_flatMap, matchesRequest_any _ agent resource mode]
  constructor
  · rintro (⟨rule, ⟨⟨mem, any, applies⟩, allows⟩, covers⟩ | ⟨rule, ⟨⟨mem, any, applies⟩, allows⟩, covers⟩)
    · exact ⟨rule, mem, any, applies, allows, .inl covers⟩
    · exact ⟨rule, mem, any, applies, allows, .inr covers⟩
  · rintro ⟨rule, mem, any, applies, allows, covers | covers⟩
    · exact .inl ⟨rule, ⟨⟨mem, any, applies⟩, allows⟩, covers⟩
    · exact .inr ⟨rule, ⟨⟨mem, any, applies⟩, allows⟩, covers⟩

/-- The modes that are returned are those that the policy grants, exactly if no requested mode is allowed by rules with
a mode of their own only, where no denial outranks them, and none is allowed by a rule without a mode of its own where
a denial does: other rules are never applicable, and neither denials nor priorities are looked at. -/
theorem getGrantedModes_iff (requested : List AccessMode) :
    (∀ mode ∈ requested, (mode ∈ p.getGrantedModes agent resource requested ↔ p.Grants agent resource mode)) ↔
      ∀ mode ∈ requested, (p.AllowsOwn agent resource mode → p.Outranked agent resource mode) ∧
        (p.AllowsAny agent resource mode → ¬ p.Outranked agent resource mode) := by
  refine forall₂_congr fun mode asked => ?_
  rw [mem_getGrantedModes p agent resource asked, grants_iff]
  constructor
  · intro same
    refine ⟨fun ⟨allowed, own⟩ => ?_, fun any => (same.mp any).2⟩
    by_contra unranked
    obtain ⟨rule, mem, any, allows⟩ := same.mpr ⟨allowed, unranked⟩
    exact own rule mem allows any
  · rintro ⟨own, any⟩
    constructor
    · intro allows
      have ⟨rule, mem, _, allows'⟩ := allows
      exact ⟨⟨rule, mem, allows'⟩, any allows⟩
    · rintro ⟨allowed, unranked⟩
      by_contra none
      exact unranked (own ⟨allowed, fun rule mem allows any => none ⟨rule, mem, any, allows⟩⟩)

/-- A rule on one note, with the mode of its premise, whether it allows and its priority. -/
def noteRule (mode : AccessMode) (allows : Bool) (priority : Int) : SAIRule where
  ruleID := "rule"
  premise := ⟨"https://pod/me", [], "https://pod/note", [], mode, [], false⟩
  conclusion := ⟨allows, [.read], [], priority, false⟩
  enabled := true

def notePolicy (rules : List SAIRule) : SAIPolicy :=
  ⟨"https://pod/policy", "https://pod/note", rules, false, [], [], [], []⟩

/-- A rule for reading grants nothing; a denial of a higher priority takes nothing away. -/
theorem getGrantedModes_not_grants :
    let reading := notePolicy [noteRule .read true 0]
    let denied := notePolicy [noteRule saiAccessModeAny true 0, noteRule .read false 1]
    let me := str "https://pod/me"
    let note := str "https://pod/note"
    (reading.isValid = true ∧ reading.Grants me note .read ∧ .read ∉ reading.getGrantedModes me note [.read]) ∧
      denied.isValid = true ∧ ¬ denied.Grants me note .read ∧ .read ∈ denied.getGrantedModes me note [.read] := by
  refine ⟨⟨by decide +kernel, ?_, by decide +kernel⟩, by decide +kernel, ?_, by decide +kernel⟩
  · unfold Grants Allows Covers
    decide +kernel
  · unfold Grants Allows Covers
    decide +kernel

end SAIPolicy

end Authz
