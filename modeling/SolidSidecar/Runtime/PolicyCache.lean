import SolidSidecar.Run.Machine
import SolidSidecar.Runtime.LockDiscipline

/-!
# What the policy engine decides

A decision is read off the rules of the documents that apply (`judge_decision`), so that it can be compared with what
the cache gives back over a run of loads, removals and evaluations, and with what a container's document is to grant
below the container. The key of the cache joins fields of the context that may hold the separator themselves; a rule
applies to the URIs that end with its resource, where its document applies to those that begin with it.
-/

namespace Runtime

open Go Run List Guarded GoMap Strings

namespace PolicyEngineLayer

variable {p : PolicyEngineLayer} {now : Time} {ctx : PolicyEvaluationContext}

def PolicyRule.grants (rule : PolicyRule) : Bool := rule.ruleType = "grant" || rule.ruleType = "allow"

theorem mem_applicableRules (order : RangeOrder Str) (rule : PolicyRule) :
    rule ∈ p.applicableRules (p.findApplicablePolicies order ctx) ↔
      ∃ uri doc, p.policies.lookup uri = some doc ∧ policyAppliesToResource uri ctx.requestURI = true ∧
        doc.valid = true ∧ rule ∈ doc.parsedRules := by
  simp only [applicableRules, findApplicablePolicies, mem_flatMap, mem_filter, RangeOrder.mem_visit]
  constructor
  · rintro ⟨uri, ⟨-, applies⟩, mem⟩
    cases found : p.policies.lookup uri with
    | none => simp [found] at mem
    | some doc =>
      cases valid : doc.valid with
      | false => simp [found, valid] at mem
      | true => exact ⟨uri, doc, found, applies, valid, by simpa [found, valid] using mem⟩
  · rintro ⟨uri, doc, found, applies, valid, mem⟩
    refine ⟨uri, ⟨?_, applies⟩, by simpa [found, valid] using mem⟩
    exact AList.mem_keys.mp (AList.lookup_isSome.mp (by simp [found]))

theorem checkContext_eq_ok {asked} (checked : checkContext asked = .ok ctx) : asked = some ctx := by
  cases asked with
  | none => cases checked
  | some ctx' =>
    simp only [checkContext, then_eq_ok] at checked
    obtain ⟨-, -, -, -, -, same⟩ := checked
    exact congrArg some (Except.ok.inj same)

/-- A line of a document gives a grant without conditions, from the time of loading on. -/
theorem mem_parseWAC {loaded uri content rule} (mem : rule ∈ parseWAC loaded uri content) :
    rule.ruleType = "grant" ∧ rule.resource = uri ∧ rule.conditions = [] ∧ rule.validFrom = loaded ∧
      rule.validUntil = .zero := by
  obtain ⟨_, -, parsed⟩ := mem_filterMap.mp mem
  unfold parseLine at parsed
  dsimp only at parsed
  split_ifs at parsed
  cases parsed
  exact ⟨rfl, rfl, rfl, rfl, rfl⟩

/-- The fields that a decision is made from do not hold the separator of the key. -/
def Unambiguous (ctx : PolicyEvaluationContext) : Prop :=
  0x7C ∉ ctx.requestURI ∧ 0x7C ∉ ctx.method ∧ 0x7C ∉ ctx.agent

theorem generateCacheKey_inj {ctx'} (same : generateCacheKey ctx = generateCacheKey ctx')
    (plain : Unambiguous ctx) (plain' : Unambiguous ctx') :
    ctx.requestURI = ctx'.requestURI ∧ ctx.method = ctx'.method ∧ ctx.agent = ctx'.agent := by
  have key (c : PolicyEvaluationContext) : generateCacheKey c = c.requestURI ++ 0x7C :: (c.method ++ 0x7C ::
      (c.agent ++ 0x7C :: (c.agentType ++ 0x7C :: c.resourceType))) := by
    simp [generateCacheKey, show str "|" = [0x7C] by decide]
  rw [key, key] at same
  obtain ⟨uri, same⟩ := append_cons_inj plain.1 plain'.1 same
  obtain ⟨method, same⟩ := append_cons_inj plain.2.1 plain'.2.1 same
  exact ⟨uri, method, (append_cons_inj plain.2.2 plain'.2.2 same).1⟩

section

variable [Unicode]

/-- A rule of a document that applies, which is for the request. -/
structure Asked (p : PolicyEngineLayer) (now : Time) (ctx : PolicyEvaluationContext) (rule : PolicyRule) : Prop where
  found : ∃ uri doc, p.policies.lookup uri = some doc ∧ policyAppliesToResource uri ctx.requestURI = true ∧
    doc.valid = true ∧ rule ∈ doc.parsedRules
  applies : ruleApplies now rule ctx = true
  mode : ∃ mode ∈ rule.accessModes, modeMatches (methodToAccessMode ctx.method) mode = true

theorem mem_asked (order : RangeOrder Str) (rule : PolicyRule) :
    rule ∈ ((p.applicableRules (p.findApplicablePolicies order ctx)).filter fun rule => ruleApplies now rule ctx).flatMap
      (perMode (methodToAccessMode ctx.method)) ↔ p.Asked now ctx rule := by
  simp only [mem_flatMap, mem_filter, perMode, mem_map, mem_applicableRules]
  constructor
  · rintro ⟨_, ⟨found, applies⟩, mode, ⟨mem, fits⟩, rfl⟩
    exact ⟨found, applies, mode, mem, fits⟩
  · rintro ⟨found, applies, mode, mem, fits⟩
    exact ⟨rule, ⟨found, applies⟩, mode, ⟨mem, fits⟩, rfl⟩

/-- Where no rule denies, the decision is to allow what some rule grants. -/
theorem judge_decision (lenient : ∀ rule, p.Asked now ctx rule → rule.ruleType ≠ "deny") (order : RangeOrder Str) :
    (p.judge now order ctx).decision =
      open Classical in if ∃ rule, p.Asked now ctx rule ∧ PolicyRule.grants rule = true then .allow else .abstain := by
  simp only [judge]
  have none : (((p.applicableRules (p.findApplicablePolicies order ctx)).filter fun rule =>
      ruleApplies now rule ctx).flatMap (perMode (methodToAccessMode ctx.method))).filter
      (fun rule => decide (rule.ruleType = str "deny")) = [] := by
    refine filter_eq_nil_iff.mpr fun rule mem => ?_
    simpa using lenient rule ((mem_asked order rule).mp mem)
  rw [none]
  by_cases some : ∃ rule, p.Asked now ctx rule ∧ PolicyRule.grants rule = true
  · obtain ⟨rule, asked, grants⟩ := some
    rw [if_pos ⟨ne_nil_of_mem (mem_filter.mpr ⟨(mem_asked order rule).mpr asked, grants⟩), rfl⟩,
      if_pos ⟨rule, asked, grants⟩]
  · have empty := filter_eq_nil_iff.mpr fun rule mem grants =>
      some ⟨rule, (mem_asked order rule).mp mem, grants⟩
    rw [if_neg fun both => both.1 empty, if_neg (fun some => some rfl), if_neg some]

theorem evaluate_eq (isOpen : p.closed = false) (checked : checkContext (some ctx) = .ok ctx) (orders : EvaluateOrders)
    (l : RWLock) :
    evaluate .ignored now orders (some ctx) l p =
      match p.evaluationCache.lookup (generateCacheKey ctx) with
      | some cached => some (.ok cached, l, p)
      | none =>
        let result := p.judge now orders.policies ctx
        some (.ok result, l, { p with evaluationCache := (p.evictOne orders.cache).insert (generateCacheKey ctx) result }) := by
  have recorded (result : PolicyEvaluationResult) : recordEvaluation .ignored result l p = some ((), l, p) := by
    unfold recordEvaluation
    cases result.policyURIs <;> rfl
  unfold evaluate
  rw [checked]
  dsimp only
  rw [bind_of_some (show rlock .ignored l p = some ((), l, p) from rfl), bind_of_some (read_apply _ _ p), isOpen]
  cases p.evaluationCache.lookup _ with
  | some cached => rfl
  | none =>
    dsimp only
    rw [evaluateMiss, bind_of_some (read_apply _ _ p), bind_of_some (recorded _),
      cacheEvaluationResult, exclusively_ignored, bind_of_some (modify_apply _ _ p), isOpen]
    rfl

def decided (p : PolicyEngineLayer) (now : Time) (orders : EvaluateOrders) (ctx : PolicyEvaluationContext) :
    Option (Except PolicyError PolicyDecision) :=
  (evaluate .ignored now orders (some ctx) .free p).map fun done => done.1.map PolicyEvaluationResult.decision

/-- A rule without conditions, in its time, applies by its agent and resource. -/
theorem ruleApplies_plain {rule} (conditions : rule.conditions = []) (begun : rule.validFrom ≤ now)
    (endless : rule.validUntil = .zero) :
    ruleApplies now rule ctx = (agentMatches rule ctx &&
      (rule.resource = [] || rule.resource = ctx.requestURI || hasSuffix ctx.requestURI rule.resource)) := by
  have past : now.before rule.validFrom = false := by simpa [Time.before] using Time.le_iff.mp begun
  simp [ruleApplies, conditions, past, endless, Time.isZero]

def Below (policyURI resourceURI : Str) : Prop :=
  ∃ rest, resourceURI = policyURI ++ rest ∧ (rest = [] ∨ policyURI.getLast? = some 0x2F ∨ rest.head? = some 0x2F)

theorem judge_allow_iff (lenient : ∀ rule, p.Asked now ctx rule → rule.ruleType ≠ "deny") (order : RangeOrder Str) :
    (p.judge now order ctx).decision = .allow ↔ ∃ rule, p.Asked now ctx rule ∧ PolicyRule.grants rule = true := by
  rw [judge_decision lenient]
  split_ifs with some <;> simp [some]

/-- Without cached results `Evaluate` comes back with an error or not at all: past its checks it finds nothing cached,
and waits for the write lock under its own read lock. -/
theorem evaluate_uncached (uncached : p.evaluationCache = ∅) (orders : EvaluateOrders) :
    (∀ result l p', evaluate .kept now orders (some ctx) .free p ≠ some (.ok result, l, p')) ∧
    (p.closed = false → checkContext (some ctx) = .ok ctx → evaluate .kept now orders (some ctx) .free p = none) := by
  unfold evaluate
  cases checked : checkContext (some ctx) with
  | error err => exact ⟨fun _ _ _ => nofun, fun _ => nofun⟩
  | ok ctx' =>
    cases checkContext_eq_ok checked
    dsimp only
    rw [bind_of_some (rlock_free p), bind_of_some (read_apply _ _ p), uncached]
    cases p.closed with
    | true => exact ⟨fun _ _ _ => nofun, nofun⟩
    | false =>
      have waits := evaluateMiss_waits p now orders ctx
      refine ⟨fun result l p' done => ?_, fun _ _ => waits⟩
      cases waits.symm.trans done

/-- A rule for a container that applies to a resource below it is for one whose URI ends with the container's. -/
theorem Asked.hasSuffix {rule} (asked : p.Asked now ctx rule) (named : rule.resource ≠ [])
    (other : ctx.requestURI ≠ rule.resource) : hasSuffix ctx.requestURI rule.resource = true := by
  have applies := asked.applies
  simp only [ruleApplies, Bool.and_eq_true, Bool.or_eq_true, decide_eq_true_eq] at applies
  rcases applies.1.1.1.2 with (empty | whole) | suffix
  · exact absurd empty named
  · exact absurd whole.symm other
  · exact suffix

omit [Unicode] in
theorem applies_below_iff (policyURI resourceURI : Str) :
    (policyAppliesToResource policyURI resourceURI = true → Below policyURI resourceURI) ↔
    (policyURI <+: resourceURI → Below policyURI resourceURI) ∧ (Strings.hasSuffix resourceURI policyURI = true →
        Strings.hasSuffix (extractContainerURI resourceURI) policyURI = true → policyURI <+: resourceURI) := by
  simp only [policyAppliesToResource, Bool.or_eq_true, Bool.and_eq_true, decide_eq_true_eq, Strings.hasPrefix,
    isPrefixOf_iff_prefix]
  constructor
  · intro stays
    refine ⟨fun starts => stays (.inr starts), fun ends container => ?_⟩
    obtain ⟨rest, rfl, -⟩ := stays (.inl (.inr ⟨ends, .inr container⟩))
    exact prefix_append _ _
  · rintro ⟨starts, ends⟩ ((same | ⟨suffix, container⟩) | starts')
    · exact ⟨[], by simp [same], .inl rfl⟩
    · refine starts (ends suffix ?_)
      rcases container with same | container
      · simp [same, Strings.hasSuffix]
      · exact container
    · exact starts starts'

/-- Without cached results `Evaluate` returns no decision. The one it would cache is to allow what the document of a
container grants for a resource below only if the URI of the resource also ends with that of the container, or if
another rule grants it. A document applies beyond what is below it by a prefix that ends within a segment, or by a
suffix. -/
theorem inherits_never_applies_iff (uncached : p.evaluationCache = ∅)
    (lenient : ∀ rule, p.Asked now ctx rule → rule.ruleType ≠ str "deny") {container content : Str} {loaded : Time}
    {doc : PolicyDocument} {rule : PolicyRule} (slash : container.getLast? = some 0x2F)
    (held : p.policies.lookup container = some doc) (valid : doc.valid = true)
    (parsed : doc.parsedRules = parseWAC loaded container content) (begun : loaded ≤ now)
    (mem : rule ∈ doc.parsedRules) (agent : rule.agent = ctx.agent)
    (mode : methodToAccessMode ctx.method ∈ rule.accessModes) (below : container <+: ctx.requestURI)
    (proper : ctx.requestURI ≠ container) (orders : EvaluateOrders) :
    ((∀ result l p', evaluate .kept now orders (some ctx) .free p ≠ some (.ok result, l, p')) ∧
      (p.closed = false → checkContext (some ctx) = .ok ctx → evaluate .kept now orders (some ctx) .free p = none)) ∧
    ((p.judge now orders.policies ctx).decision = .allow ↔ Strings.hasSuffix ctx.requestURI container = true ∨
      ∃ other, p.Asked now ctx other ∧ PolicyRule.grants other = true ∧ other.resource ≠ container) ∧
    ∀ policyURI resourceURI, (policyAppliesToResource policyURI resourceURI = true → Below policyURI resourceURI) ↔
      (policyURI <+: resourceURI → Below policyURI resourceURI) ∧ (Strings.hasSuffix resourceURI policyURI = true →
          Strings.hasSuffix (extractContainerURI resourceURI) policyURI = true → policyURI <+: resourceURI) := by
  refine ⟨evaluate_uncached uncached orders, ?_, applies_below_iff⟩
  rw [judge_allow_iff lenient]
  constructor
  · rintro ⟨other, asked, grants⟩
    by_cases same : other.resource = container
    · subst same
      refine .inl (asked.hasSuffix (fun empty => ?_) proper)
      rw [empty] at slash
      cases slash
    · exact .inr ⟨other, asked, grants, same⟩
  · rintro (suffix | ⟨other, asked, grants, -⟩)
    · obtain ⟨type, resource, conditions, from', until'⟩ := mem_parseWAC (parsed ▸ mem)
      refine ⟨rule, ⟨⟨container, doc, held, ?_, valid, mem⟩, ?_, _, mode, ?_⟩, ?_⟩
      · simp [policyAppliesToResource, hasPrefix, below]
      · rw [ruleApplies_plain conditions (from' ▸ begun) until']
        simp [agentMatches, agent, resource, suffix]
      · simp [modeMatches]
      · simp [PolicyRule.grants, type]
    · exact ⟨other, asked, grants⟩

inductive PolicyStep where
  | load (now : Time) (uri content contentType : Str)
  | remove (uri : Str)
  | evaluate (now : Time) (orders : EvaluateOrders) (ctx : PolicyEvaluationContext)

/-- The layer, and the time of the last call that looked at the clock. -/
structure Clocked where
  layer : PolicyEngineLayer
  clock : Time

def Clocked.after {α : Type} (s : Clocked) (now : Time) : Option (α × RWLock × PolicyEngineLayer) → Clocked
  | some (_, _, p) => ⟨p, now⟩
  | none => s

def Clocked.step (s : Clocked) : PolicyStep → Clocked × Option (Except PolicyError PolicyDecision)
  | .load now uri content contentType => (s.after now (loadPolicy .ignored now uri content contentType .free s.layer), none)
  | .remove uri => (s.after s.clock (removePolicy .ignored uri .free s.layer), none)
  | .evaluate now orders ctx =>
    (s.after now (PolicyEngineLayer.evaluate .ignored now orders (some ctx) .free s.layer), s.layer.decided now orders ctx)

/-- The clock does not go back, and the key of a context is its own. -/
def Clocked.Meets (s : Clocked) : PolicyStep → Prop
  | .load now _ _ _ => s.clock ≤ now
  | .remove _ => True
  | .evaluate now _ ctx => s.clock ≤ now ∧ Unambiguous ctx

/-- An evaluation gives the decision of the documents that are there. -/
def Clocked.Transparent (s : Clocked) : PolicyStep → Prop
  | .evaluate now orders ctx => checkContext (some ctx) = .ok ctx → ∀ order,
      (s.step (.evaluate now orders ctx)).2 = some (.ok (s.layer.judge now order ctx).decision)
  | _ => True

/-- A grant without conditions whose time has begun. -/
def PolicyRule.Plain (clock : Time) (rule : PolicyRule) : Prop :=
  rule.ruleType = "grant" ∧ rule.conditions = [] ∧ rule.validFrom ≤ clock ∧ rule.validUntil = .zero

/-- The documents hold plain rules, and what is cached for a context is decided by them at any later time. -/
structure Clocked.Sound (s : Clocked) : Prop where
  isOpen : s.layer.closed = false
  plain : ∀ uri doc, s.layer.policies.lookup uri = some doc → ∀ rule ∈ doc.parsedRules, PolicyRule.Plain s.clock rule
  cached : ∀ ctx r, Unambiguous ctx → s.layer.evaluationCache.lookup (generateCacheKey ctx) = some r →
    ∀ now order, s.clock ≤ now → r.decision = (s.layer.judge now order ctx).decision

namespace Clocked.Sound

variable {s : Clocked}

section

variable (sound : s.Sound)

include sound

/-- The decision depends on the URI, the method and the agent only. -/
theorem judge_eq {now' ctx'} (order order' : RangeOrder Str) (later : s.clock ≤ now) (later' : s.clock ≤ now')
    (same : ctx.requestURI = ctx'.requestURI ∧ ctx.method = ctx'.method ∧ ctx.agent = ctx'.agent) :
    (s.layer.judge now order ctx).decision = (s.layer.judge now' order' ctx').decision := by
  classical
  obtain ⟨uri, method, agent⟩ := same
  have plain {now ctx rule} (asked : s.layer.Asked now ctx rule) : PolicyRule.Plain s.clock rule := by
    obtain ⟨uri, doc, held, -, -, mem⟩ := asked.found
    exact sound.plain uri doc held rule mem
  have lenient {now ctx} rule (asked : s.layer.Asked now ctx rule) : rule.ruleType ≠ "deny" := by
    rw [(plain asked).1]
    decide
  have applies {rule} (plain : PolicyRule.Plain s.clock rule) :
      ruleApplies now rule ctx = ruleApplies now' rule ctx' := by
    obtain ⟨-, conditions, begun, endless⟩ := plain
    rw [ruleApplies_plain conditions (begun.trans later) endless,
      ruleApplies_plain conditions (begun.trans later') endless]
    simp [agentMatches, uri, agent]
  rw [judge_decision lenient, judge_decision lenient]
  refine if_congr (exists_congr fun rule => and_congr_left' ?_) rfl rfl
  constructor
  · intro asked
    exact ⟨uri ▸ asked.found, applies (plain asked) ▸ asked.applies, method ▸ asked.mode⟩
  · intro asked
    exact ⟨uri ▸ asked.found, (applies (plain asked)).trans asked.applies, method ▸ asked.mode⟩

theorem changed (later : s.clock ≤ now) {policies}
    (plain : ∀ uri doc, policies.lookup uri = some doc → (∃ uri', s.layer.policies.lookup uri' = some doc) ∨
      ∀ rule ∈ doc.parsedRules, PolicyRule.Plain now rule) :
    Sound ⟨{ s.layer with policies := policies, evaluationCache := ∅ }, now⟩ := by
  refine ⟨sound.isOpen, fun uri doc held rule mem => ?_, fun ctx r _ hit => ?_⟩
  · rcases plain uri doc held with ⟨uri', held'⟩ | plain
    · obtain ⟨type, conditions, begun, endless⟩ := sound.plain uri' doc held' rule mem
      exact ⟨type, conditions, begun.trans later, endless⟩
    · exact plain rule mem
  · simp at hit

theorem later (later : s.clock ≤ now) : Sound ⟨s.layer, now⟩ :=
  ⟨sound.isOpen, fun uri doc held rule mem =>
    let ⟨type, conditions, begun, endless⟩ := sound.plain uri doc held rule mem
    ⟨type, conditions, begun.trans later, endless⟩,
    fun ctx r plain hit now' order later' => sound.cached ctx r plain hit now' order (later.trans later')⟩

/-- A load leaves the documents, or adds one with plain rules and empties the cache. -/
theorem load (forward : s.clock ≤ now) (uri content contentType : Str) :
    (s.step (.load now uri content contentType)).1.Sound := by
  simp only [step, loadPolicy]
  cases checkLoad uri content contentType with
  | error err => exact sound.later forward
  | ok _ =>
    dsimp only
    rw [exclusively_ignored, bind_of_some (read_apply _ _ _)]
    cases admission : s.layer.admitted now uri content contentType with
    | error err => exact sound.later forward
    | ok policy =>
      have stored : storePolicy .ignored policy .free s.layer = some (.ok policy, .free,
          { s.layer with policies := s.layer.policies.insert policy.uri policy, evaluationCache := ∅ }) := by
        rw [storePolicy, bind_of_some (modify_apply _ _ _), invalidatePolicyCache,
          exclusively_ignored, bind_of_some (modify_apply _ _ _)]
        simp [sound.isOpen]
      simp only [admitted, then_eq_ok] at admission
      obtain ⟨-, -, made⟩ := admission
      obtain rfl := Except.ok.inj made
      dsimp only
      rw [stored]
      refine sound.changed forward fun uri' doc held => ?_
      rw [lookup_insert_eq] at held
      split_ifs at held
      · cases held
        refine .inr fun rule mem => ?_
        have parsed : rule ∈ parseWAC now uri content := by
          simp only [document, parsePolicy] at mem
          split at mem <;> first | exact mem | (split_ifs at mem <;> cases mem) | cases mem
        obtain ⟨type, -, conditions, begun, endless⟩ := mem_parseWAC parsed
        exact ⟨type, conditions, begun.le, endless⟩
      · exact .inl ⟨uri', held⟩

theorem remove (uri : Str) : (s.step (.remove uri)).1.Sound := by
  have removed : removePolicy .ignored uri .free s.layer = some (.ok (), .free,
      { s.layer with policies := s.layer.policies.erase uri, evaluationCache := ∅ }) := by
    rw [removePolicy, exclusively_ignored, bind_of_some (read_apply _ _ _), sound.isOpen]
    dsimp only
    rw [dropPolicy, bind_of_some (modify_apply _ _ _), invalidatePolicyCache,
      exclusively_ignored, bind_of_some (modify_apply _ _ _)]
    simp [sound.isOpen]
  simp only [step, removed]
  refine sound.changed (le_refl _) fun uri' doc held => .inl ⟨uri', ?_⟩
  rw [lookup_erase_eq] at held
  split_ifs at held
  exact held

theorem evaluate (forward : s.clock ≤ now) (plain : Unambiguous ctx) (orders : EvaluateOrders) :
    (s.step (.evaluate now orders ctx)).1.Sound ∧ s.Transparent (.evaluate now orders ctx) := by
  cases checked : checkContext (some ctx) with
  | error err =>
    refine ⟨?_, fun ok => nomatch checked.symm.trans ok⟩
    simp only [step, PolicyEngineLayer.evaluate, checked]
    exact sound.later forward
  | ok ctx' =>
    cases checkContext_eq_ok checked
    simp only [Transparent, step, decided, evaluate_eq sound.isOpen checked]
    cases hit : s.layer.evaluationCache.lookup _ with
    | some r =>
      refine ⟨sound.later forward, fun _ order => ?_⟩
      rw [← sound.cached ctx r plain hit now order forward]
      rfl
    | none =>
      refine ⟨⟨sound.isOpen, (sound.later forward).plain, fun c r plain' hit' now' order later' => ?_⟩, fun _ order => ?_⟩
      swap
      · rw [sound.judge_eq order orders.policies forward forward ⟨rfl, rfl, rfl⟩]
        rfl
      simp only [after] at hit'
      -- the new entry is under the key of this context, and all others were there
      rw [lookup_insert_eq] at hit'
      split_ifs at hit' with own
      · cases hit'
        exact sound.judge_eq _ _ forward (forward.trans later') (generateCacheKey_inj own.symm plain plain')
      · refine sound.cached c r plain' ?_ now' order (forward.trans later')
        unfold evictOne at hit'
        split_ifs at hit'
        · split at hit'
          · exact hit'
          · rw [lookup_erase_eq] at hit'
            split_ifs at hit'
            exact hit'
        · exact hit'

end

end Clocked.Sound

/-- In a run whose steps all meet the condition, every evaluation gives the decision of the documents loaded then. -/
theorem meets_transparent (config : PolicyEngineConfig) (clock : Time) (inputs : List PolicyStep)
    (meets : Along Clocked.step Clocked.Meets ⟨new config, clock⟩ inputs) :
    ∀ before i after, inputs = before ++ i :: after → (exec Clocked.step ⟨new config, clock⟩ before).Transparent i := by
  have meets := along_iff.mp meets
  have start : Clocked.Sound ⟨new config, clock⟩ :=
    ⟨rfl, fun _ _ held => by simp [new] at held, fun _ _ _ hit => by simp [new] at hit⟩
  have sound := @run_inv _ _ _ Clocked.step ⟨new config, clock⟩ Clocked.Sound inputs start
    fun before i after split sound =>
      match i, meets before i after split with
      | .load _ _ _ _, forward => sound.load forward _ _ _
      | .remove _, _ => sound.remove _
      | .evaluate _ _ _, ⟨forward, plain⟩ => (sound.evaluate forward plain _).1
  intro before i after split
  have sound := sound before (i :: after) split
  cases i with
  | evaluate now orders ctx =>
    obtain ⟨forward, plain⟩ := meets before _ after split
    exact (sound.evaluate forward plain orders).2
  | load => trivial
  | remove => trivial

end

section

attribute [local instance] Unicode.ascii

instance : Inhabited EvaluateOrders := ⟨⟨default, default⟩⟩

def sampleContainer : Str := "https://h/c/"

def sampleContent : Str := "acl:agent <https://h/me> acl:Read"

def sampleDocument : PolicyDocument :=
  document defaultPolicyEngineConfig .zero sampleContainer sampleContent "text/turtle"

def sampleLayer : PolicyEngineLayer :=
  { new defaultPolicyEngineConfig with policies := AList.insert sampleContainer sampleDocument ∅ }

def sampleContext (requestURI method agent agentType : String) : PolicyEvaluationContext :=
  ⟨str requestURI, str method, str agent, str agentType, [], [], [], .zero⟩

/-- The document of a container, and a request for a resource in it: the call does not return, and the rule would not
have applied. -/
theorem inherits_never_sample :
    let ctx := sampleContext "https://h/c/r" "GET" "https://h/me" ""
    evaluate .kept .zero default (some ctx) .free sampleLayer = none ∧
    ¬ (Strings.hasSuffix ctx.requestURI sampleContainer = true ∨ ∃ other, sampleLayer.Asked .zero ctx other ∧
      PolicyRule.grants other = true ∧ other.resource ≠ sampleContainer) := by
  intro ctx
  have parsed : sampleDocument.parsedRules = parseWAC .zero sampleContainer sampleContent := rfl
  have lenient : ∀ rule, sampleLayer.Asked .zero ctx rule → rule.ruleType ≠ "deny" := by
    intro rule asked
    obtain ⟨_, _, held, -, -, mem⟩ := asked.found
    rw [sampleLayer, lookup_insert_eq] at held
    split_ifs at held
    · cases held
      rw [(mem_parseWAC (parsed ▸ mem)).1]
      decide
    · simp at held
  obtain ⟨⟨-, waits⟩, judged, -⟩ := @inherits_never_applies_iff _ _ _ _ rfl lenient _ _ _ _
    ⟨str "grant", str "https://h/me", policyAgentTypeWebID, [.read], sampleContainer, [], .zero, .zero⟩
    (by decide +kernel) (by decide +kernel) (by decide +kernel) parsed (le_refl _) (by decide +kernel) (by decide +kernel)
    (by decide +kernel) (by decide +kernel) (by decide +kernel) default
  refine ⟨waits rfl (by decide +kernel), fun reaches => ?_⟩
  exact absurd (judged.mpr reaches) (by decide +kernel)

/-- A request for a resource in a container that grants it is never answered, and a document applies to a sibling. -/
theorem not_inherits :
    evaluate .kept .zero default (some (sampleContext "https://h/c/r" "GET" "https://h/me" "")) .free sampleLayer = none ∧
    policyAppliesToResource (str "https://h/a") (str "https://h/ab") = true ∧
    ¬Below (str "https://h/a") (str "https://h/ab") := by
  refine ⟨by decide +kernel, by decide +kernel, fun ⟨rest, whole, slash⟩ => ?_⟩
  have tail : rest = "b" := (append_right_inj _).mp (whole.symm.trans (by decide))
  subst tail
  exact absurd slash (by decide)

def sampleLoad : PolicyStep := .load .zero sampleContainer sampleContent "text/turtle"

/-- The second of two equal requests is answered from the cache. -/
theorem meets_transparent_sample :
    let ctx := sampleContext "https://h/c/" "GET" "https://h/me" ""
    let inputs := [sampleLoad, .evaluate .zero default ctx, .evaluate .zero default ctx]
    let start : Clocked := ⟨new defaultPolicyEngineConfig, .zero⟩
    Along Clocked.step Clocked.Meets start inputs ∧
    ((exec Clocked.step start (inputs.take 2)).layer.evaluationCache.lookup (generateCacheKey ctx)).isSome = true ∧
    ∀ before i after, inputs = before ++ i :: after → (exec Clocked.step start before).Transparent i := by
  intro ctx inputs start
  have plain : Unambiguous ctx := ⟨by decide +kernel, by decide +kernel, by decide +kernel⟩
  have meets : Along Clocked.step Clocked.Meets start inputs :=
    ⟨le_refl _, ⟨le_refl _, plain⟩, ⟨le_refl _, plain⟩, trivial⟩
  exact ⟨meets, by decide +kernel, meets_transparent _ _ _ meets⟩

/-- A request without an agent is given the decision that was cached for another agent: a method that holds the
separator makes the key the same. -/
theorem cached_for_other :
    let s := exec Clocked.step ⟨new defaultPolicyEngineConfig, .zero⟩
      [sampleLoad, .evaluate .zero default (sampleContext "https://h/c/" "GET" "https://h/me" "|y")]
    let ctx := sampleContext "https://h/c/" "GET|https://h/me" "" "y"
    (s.step (.evaluate .zero default ctx)).2 = some (.ok .allow) ∧
      (s.layer.judge .zero default ctx).decision = .abstain ∧ ¬s.Transparent (.evaluate .zero default ctx) := by
  intro s ctx
  have given : (s.step (.evaluate .zero default ctx)).2 = some (.ok .allow) := by decide +kernel
  have judged : (s.layer.judge .zero default ctx).decision = .abstain := by decide +kernel
  refine ⟨given, judged, fun transparent => ?_⟩
  have same := given.symm.trans (transparent (by decide +kernel) default)
  cases same

end

end PolicyEngineLayer

end Runtime
