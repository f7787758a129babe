import SolidSidecar.Authz.Audit
import SolidSidecar.Authz.Cache
import SolidSidecar.Go.Float
import SolidSidecar.Run.Machine

/-!
# The caching evaluator

`CachingEvaluator` answers a request from the decision cache when the cache has an entry under the
request's key, and otherwise asks the evaluator it wraps and stores the answer. The cache keeps one
bit of an answer, whether it allows, and the key keeps one requested mode and neither the origin nor
the policy documents. Two results say exactly what that costs over whole runs: `allowSound_iff` for
answers that a different request paid for, and `abstainKept_iff` for the answer "abstain".
-/

namespace Authz
open Go Cache MemoryCache List Run

structure CachingEvaluatorOptions where
  cacheConfig : Config := {}
  enableCaching : Bool := true
  cacheTTL : Int := 0
  maxCacheTTL : Int := 0
  enableNegativeCache : Bool := false
  negativeCacheTTL : Int := minute
  deriving DecidableEq, Repr

/-- The options with their overrides applied to the cache configuration. -/
def CachingEvaluatorOptions.updated (o : CachingEvaluatorOptions) : CachingEvaluatorOptions :=
  { o with
    cacheConfig :=
      { o.cacheConfig with
        ttl := if o.cacheTTL > 0 then o.cacheTTL else o.cacheConfig.ttl
        maxTTL := if o.maxCacheTTL > 0 then o.maxCacheTTL else o.cacheConfig.maxTTL
        enableNegativeCache := o.enableNegativeCache
        negativeCacheTTL := o.negativeCacheTTL } }

/-- The evaluator's options, its cache, and the background refreshes that were started and have not
run yet. -/
structure CachingEvaluator where
  options : CachingEvaluatorOptions
  decisionCache : MemoryCache
  refreshing : List Request := []
  /-- The cache runs under the configuration of the options. -/
  shared : decisionCache.config = options.cacheConfig

/-- `NewCachingEvaluator`: the cache is made twice, before and after the overrides. -/
def newCachingEvaluator (o : CachingEvaluatorOptions) : Except String CachingEvaluator :=
  match newMemoryCache o.cacheConfig with
  | .error text => .error ("failed to create decision cache: " ++ text)
  | .ok _ =>
    match made : newMemoryCache o.updated.cacheConfig with
    | .error text => .error ("failed to create decision cache with updated config: " ++ text)
    | .ok cache =>
      .ok { options := o.updated, decisionCache := cache, shared := (newMemoryCache_ok made).2 }

def createCacheKey (r : Request) : CacheKey where
  agent := r.agentWebID
  did := r.issuer
  client := r.clientID
  method := r.method
  mode := (r.requestedModes.headD .read).text
  resource := r.resourceURI
  policyVersion := r.policyVersion
  parserVersion := r.parserVersion
  evaluatorVersion := r.evaluatorVersion

def convertToCacheDecision (o : CachingEvaluatorOptions) (now : Time) (d : Decision) : Cache.Decision :=
  let ttl := wrap64 (d.cacheTTLSeconds * second)
  { allow := d.decision == .allow
    reason := d.reasonCode.text
    evaluatorVersion := schemaVersion
    policyVersion := d.policyVersion
    parserVersion := []
    createdAt := now
    expiresAt := now.add (if ttl = 0 then o.cacheConfig.ttl else ttl) }

variable (sha256 : Str → Str)

def convertFromCacheDecision (cached : Cache.Decision) (r : Request) : Decision where
  schemaVersion := schemaVersion
  requestID := r.requestID
  decision := if cached.allow then .allow else .deny
  reasonCode := .cachedDecision
  statusHint := 0
  cacheTTLSeconds := truncate (durationSeconds (cached.expiresAt.sub cached.createdAt))
  policyVersion := cached.policyVersion
  resourceVersion := r.resourceVersion
  audit := auditForRequest sha256 r

/-- What one operation meets: the wrapped evaluator, the clock when the cache is read, when the
answer is converted and when it is stored, and the map orders of the evictions. -/
structure World where
  eval : Request → Except String Decision
  readAt : Time
  createdAt : Time
  storedAt : Time
  order : Nat → RangeOrder Str

namespace CachingEvaluator

variable {d : Decision} {entry : Entry}

/-- The evaluator with another cache of the same configuration. -/
def withCache (e : CachingEvaluator) (cache : MemoryCache)
    (same : cache.config = e.decisionCache.config) : CachingEvaluator :=
  { e with decisionCache := cache, shared := same.trans e.shared }

def cacheDecision (e : CachingEvaluator) (w : World) (k : CacheKey) (d : Decision) : CachingEvaluator :=
  let cached := convertToCacheDecision e.options w.createdAt d
  e.withCache (e.decisionCache.put sha256 w.order w.storedAt k cached).1 (MemoryCache.put_config ..)

def afterGet (e : CachingEvaluator) (w : World) (r : Request) : CachingEvaluator :=
  e.withCache (e.decisionCache.get sha256 w.readAt (createCacheKey r)).1 (MemoryCache.get_config ..)

def evaluate (e : CachingEvaluator) (w : World) (r : Request) : CachingEvaluator × Except String Decision :=
  if e.options.enableCaching = false then (e, w.eval r)
  else
    let e' := e.afterGet sha256 w r
    match (e.decisionCache.get sha256 w.readAt (createCacheKey r)).2 with
    | some cached =>
      -- a stale decision is returned all the same, and a refresh is started
      let refreshing := if cached.stale then e'.refreshing ++ [r] else e'.refreshing
      ({ e' with refreshing }, .ok (convertFromCacheDecision sha256 cached r))
    | none =>
      match w.eval r with
      | .error text => (e', .error ("evaluation failed: " ++ text))
      | .ok d => (e'.cacheDecision sha256 w (createCacheKey r) d, .ok d)

def refreshCacheInBackground (e : CachingEvaluator) (w : World) (r : Request) : CachingEvaluator :=
  match w.eval r with
  | .error _ => e
  | .ok d => e.cacheDecision sha256 w (createCacheKey r) d

inductive Op where
  | evaluate (r : Request)
  /-- The `i`-th of the refreshes that wait runs. -/
  | refresh (i : Nat)
  | invalidatePolicy (policyVersion : Str)
  | invalidateResource (resource : Str)
  | invalidateAgent (agent : Str)
  | clearCache

structure Input where
  op : Op
  world : World

/-- One operation, with the answer of an `Evaluate`. -/
def step (e : CachingEvaluator) (i : Input) : CachingEvaluator × Option (Except String Decision) :=
  match i.op with
  | .evaluate r =>
    let (e, answer) := e.evaluate sha256 i.world r
    (e, some answer)
  | .refresh n =>
    match e.refreshing[n]? with
    | none => (e, none)
    | some r =>
      (({ e with refreshing := e.refreshing.eraseIdx n } : CachingEvaluator).refreshCacheInBackground
        sha256 i.world r, none)
  | .invalidatePolicy v => (e.withCache (e.decisionCache.invalidatePolicy v) rfl, none)
  | .invalidateResource u => (e.withCache (e.decisionCache.invalidateResource u) rfl, none)
  | .invalidateAgent a => (e.withCache (e.decisionCache.invalidateAgent a) rfl, none)
  | .clearCache => (e.withCache e.decisionCache.clear rfl, none)

def invalidatePolicy (e : CachingEvaluator) (policyVersion : Str) : CachingEvaluator :=
  e.withCache (e.decisionCache.invalidatePolicy policyVersion) rfl

def invalidateResource (e : CachingEvaluator) (resource : Str) : CachingEvaluator :=
  e.withCache (e.decisionCache.invalidateResource resource) rfl

variable {sha256} {e : CachingEvaluator} {w : World} {r : Request}

/-- The entry that the answer to `r` makes in the world `w`. -/
def Made (o : CachingEvaluatorOptions) (w : World) (r : Request) (entry : Entry) : Prop :=
  ∃ d, w.eval r = .ok d ∧
    o.cacheConfig.entryFor w.storedAt (createCacheKey r) (convertToCacheDecision o w.createdAt d) = .ok (some entry)

def keyText (sha256 : Str → Str) (r : Request) : Str := (createCacheKey r).string sha256

theorem cacheDecision_cases {s} (answer : w.eval r = .ok d)
    (found : (e.cacheDecision sha256 w (createCacheKey r) d).decisionCache.entries.lookup s = some entry) :
    e.decisionCache.entries.lookup s = some entry ∨ s = keyText sha256 r ∧ Made e.options w r entry := by
  rcases put_cases found with before | ⟨same, made⟩
  · exact .inl before
  · rw [e.shared] at made
    exact .inr ⟨same, d, answer, made⟩

/-- What a call of `Evaluate` that returns a decision returned: the evaluator's own, or that of an
entry under the request's key which has not expired. -/
theorem evaluate_ok (answer : (e.evaluate sha256 w r).2 = .ok d) : w.eval r = .ok d ∨ e.options.enableCaching = true ∧
      ∃ entry, e.decisionCache.entries.lookup (keyText sha256 r) = some entry ∧
        w.readAt ≤ entry.expiresAt ∧ d = convertFromCacheDecision sha256 entry.decision r := by
  unfold evaluate at answer
  split at answer
  · exact .inl answer
  · rename_i enabled
    split at answer
    · rename_i _ hit
      obtain ⟨entry, found, fresh, rfl⟩ := get_eq_some.mp hit
      cases answer
      exact .inr ⟨Bool.of_not_eq_false enabled, entry, found, fresh, rfl⟩
    · split at answer
      · cases answer
      · rename_i own
        cases answer
        exact .inl own

theorem evaluate_hit (enabled : e.options.enableCaching = true)
    (found : e.decisionCache.entries.lookup (keyText sha256 r) = some entry)
    (fresh : w.readAt ≤ entry.expiresAt) :
    (e.evaluate sha256 w r).2 = .ok (convertFromCacheDecision sha256 entry.decision r) := by
  have hit : (e.decisionCache.get sha256 w.readAt _).2 = some entry.decision :=
    get_eq_some.mpr ⟨entry, found, fresh, rfl⟩
  simp [evaluate, enabled, hit]

variable (sha256) in
theorem evaluate_miss (enabled : e.options.enableCaching = true)
    (empty : e.decisionCache.entries = ∅) (made : Made e.options w r entry) :
    (e.evaluate sha256 w r).1.decisionCache.entries.lookup (keyText sha256 r) = some entry ∧
      (e.evaluate sha256 w r).1.options = e.options := by
  obtain ⟨d, answer, made⟩ := made
  have miss : (e.decisionCache.get sha256 w.readAt (createCacheKey r)).2 = none := by
    simp [MemoryCache.get, empty]
  have stored : (e.evaluate sha256 w r).1 = (e.afterGet sha256 w r).cacheDecision sha256 w (createCacheKey r) d := by
    simp [evaluate, enabled, miss, answer]
  rw [stored]
  refine ⟨put_stored ?_, rfl⟩
  rw [(e.afterGet sha256 w r).shared]
  exact made

/-- One operation leaves the options alone, and every entry after it was there before or is the
answer to a request in the operation's world. -/
theorem step_options (e : CachingEvaluator) (i : Input) : (e.step sha256 i).1.options = e.options := by
  obtain ⟨op, _⟩ := i
  cases op with
  | evaluate r =>
    simp only [step, evaluate]
    (repeat' split) <;> rfl
  | refresh n =>
    simp only [step, refreshCacheInBackground]
    (repeat' split) <;> rfl
  | invalidatePolicy | invalidateResource | invalidateAgent | clearCache => rfl

theorem step_entries {i s} (found : (e.step sha256 i).1.decisionCache.entries.lookup s = some entry) :
    e.decisionCache.entries.lookup s = some entry ∨ ∃ r, s = keyText sha256 r ∧ Made e.options i.world r entry := by
  obtain ⟨op, _⟩ := i
  cases op with
  | evaluate r =>
    simp only [step, evaluate] at found
    split at found
    · exact .inl found
    · split at found
      · exact .inl (get_sub _ _ _ s entry found)
      · split at found
        · exact .inl (get_sub _ _ _ s entry found)
        · rename_i d answer
          rcases cacheDecision_cases answer found with before | ⟨same, made⟩
          · exact .inl (get_sub _ _ _ s entry before)
          · exact .inr ⟨r, same, made⟩
  | refresh n =>
    simp only [step] at found
    split at found
    · exact .inl found
    · rename_i r _
      simp only [refreshCacheInBackground] at found
      split at found
      · exact .inl found
      · rename_i d answer
        rcases cacheDecision_cases answer found with before | ⟨same, made⟩
        · exact .inl before
        · exact .inr ⟨r, same, made⟩
  | invalidatePolicy v => exact .inl (invalidate_sub _ _ s entry found)
  | invalidateResource u => exact .inl (invalidate_sub _ _ s entry found)
  | invalidateAgent a => exact .inl (invalidate_sub _ _ s entry found)
  | clearCache => simp [step, withCache, clear] at found

variable (sha256) in
/-- Every entry of a run that starts empty is the answer to a request in the world of an operation of
that run. -/
theorem run_entries (empty : e.decisionCache.entries = ∅) (inputs : List Input) :
    (Run.exec (step sha256) e inputs).options = e.options ∧
    ∀ s entry, (Run.exec (step sha256) e inputs).decisionCache.entries.lookup s = some entry →
      ∃ i ∈ inputs, ∃ r, s = keyText sha256 r ∧ Made e.options i.world r entry := by
  induction inputs using List.reverseRecOn with
  | nil =>
    refine ⟨rfl, fun s entry found => ?_⟩
    simp [empty] at found
  | append_singleton before i ih =>
    obtain ⟨options, entries⟩ := ih
    rw [Run.exec_snoc, step_options]
    refine ⟨options, fun s entry found => ?_⟩
    rcases step_entries found with old | ⟨r, same, made⟩
    · obtain ⟨j, earlier, origin⟩ := entries s entry old
      exact ⟨j, List.mem_append_left _ earlier, origin⟩
    · exact ⟨i, by simp, r, same, options ▸ made⟩

structure ClockOrdered (inputs : List Input) : Prop where
  within : ∀ i ∈ inputs, i.world.readAt ≤ i.world.createdAt ∧ i.world.createdAt ≤ i.world.storedAt
  across : inputs.Pairwise fun i j => i.world.storedAt ≤ j.world.readAt

/-- A decision that a run returned for `r` is the wrapped evaluator's, or stands for the answer to a
request with the key of `r`, made earlier and not expired. -/
theorem run_ok (empty : e.decisionCache.entries = ∅) {inputs} (clock : ClockOrdered inputs) {p}
    (step_of_run : p ∈ trace (step sha256) e inputs)
    (call : p.1.op = .evaluate r) (answer : p.2 = some (.ok d)) :
    p.1.world.eval r = .ok d ∨ e.options.enableCaching = true ∧
      ∃ i ∈ inputs, ∃ r' entry, keyText sha256 r' = keyText sha256 r ∧
        Made e.options i.world r' entry ∧ i.world.storedAt ≤ entry.expiresAt ∧
        d = convertFromCacheDecision sha256 entry.decision r := by
  obtain ⟨before, _, split, out⟩ := mem_trace step_of_run
  obtain ⟨options, entries⟩ := run_entries sha256 empty before
  rw [answer] at out
  simp only [step, call] at out
  rcases evaluate_ok (Option.some.inj out).symm with own | ⟨enabled, entry, found, fresh, rfl⟩
  · exact .inl own
  · obtain ⟨i, earlier, r', same, made⟩ := entries _ entry found
    have ordered : i.world.storedAt ≤ p.1.world.readAt := by
      have across := clock.across
      rw [split] at across
      exact (List.pairwise_append.mp across).2.2 i earlier p.1 mem_cons_self
    refine .inr ⟨options ▸ enabled, i, ?_, r', entry, same.symm, made, ordered.trans fresh, rfl⟩
    rw [split]
    exact mem_append_left _ earlier

/-- Two calls are enough to see an entry again: one that makes it and one, of any request with the
same key, at the instant it was stored. -/
theorem replayed {r'} (enabled : e.options.enableCaching = true)
    (empty : e.decisionCache.entries = ∅) (made : Made e.options w r entry)
    (same : keyText sha256 r' = keyText sha256 r) (converted : w.createdAt ≤ w.storedAt)
    (fresh : w.storedAt ≤ entry.expiresAt) :
    ∃ inputs, ClockOrdered inputs ∧ (∀ i ∈ inputs, i.world.eval = w.eval) ∧
      ∃ p ∈ trace (step sha256) e inputs, p.1.op = .evaluate r' ∧
        p.2 = some (.ok (convertFromCacheDecision sha256 entry.decision r')) := by
  let first : Input := ⟨.evaluate r, { w with readAt := w.createdAt }⟩
  let second : Input :=
    ⟨.evaluate r', { w with readAt := w.storedAt, createdAt := w.storedAt }⟩
  refine ⟨[first, second], ⟨?_, ?_⟩, ?_, (second, (step sha256 (step sha256 e first).1 second).2), ?_, rfl, ?_⟩
  · simp [first, second, converted]
  · simp [first, second]
  · simp [first, second]
  · simp [trace]
  · obtain ⟨stored, options⟩ := evaluate_miss sha256 (w := { w with readAt := w.createdAt }) enabled empty made
    have hit := evaluate_hit (w := second.world) (options ▸ enabled) (same ▸ stored) fresh
    exact congrArg some hit

/-- A new evaluator has the overridden options and an empty cache. -/
theorem newCachingEvaluator_ok {o} (made : newCachingEvaluator o = .ok e) :
    e.options = o.updated ∧ e.decisionCache.entries = ∅ := by
  unfold newCachingEvaluator at made
  split at made
  · cases made
  · split at made
    · cases made
    · rename_i _ created
      cases made
      exact ⟨rfl, (newMemoryCache_ok created).1⟩

def Allows (eval : Request → Except String Decision) (r : Request) : Prop :=
  ∃ d, eval r = .ok d ∧ d.decision = .allow

/-- Over every run with the deterministic evaluator `eval`, what is allowed is what it allows. -/
def AllowSound (sha256 : Str → Str) (e : CachingEvaluator) (eval : Request → Except String Decision) : Prop :=
  ∀ inputs, ClockOrdered inputs → (∀ i ∈ inputs, i.world.eval = eval) →
    ∀ p ∈ Run.trace (step sha256) e inputs, ∀ r d, p.1.op = .evaluate r → p.2 = some (.ok d) →
      d.decision = .allow → Allows eval r

/-- The evaluator allows `r` with an answer that the cache accepts at some instant: `r` names a
subject, a resource and a method, and the answer has a short reason and a lifetime of up to a day. -/
def CachesAllow (o : CachingEvaluatorOptions) (eval : Request → Except String Decision) (r : Request) : Prop :=
  ∃ d created stored entry, eval r = .ok d ∧ d.decision = .allow ∧ created ≤ stored ∧
    o.cacheConfig.entryFor stored (createCacheKey r) (convertToCacheDecision o created d) =
      .ok (some entry) ∧ stored ≤ entry.expiresAt

/-- An entry allows when the answer it was made from does. -/
theorem entry_allow {o : CachingEvaluatorOptions} {created stored k}
    (made : o.cacheConfig.entryFor stored k (convertToCacheDecision o created d) = .ok (some entry)) :
    entry.decision.allow = true ↔ d.decision = .allow := by
  rw [(Config.entryFor_eq made).2.1]
  simp [convertToCacheDecision]

theorem convertFromCacheDecision_allow {cached} :
    (convertFromCacheDecision sha256 cached r).decision = .allow ↔ cached.allow = true := by
  simp [convertFromCacheDecision]

theorem convertFromCacheDecision_deny {cached} :
    (convertFromCacheDecision sha256 cached r).decision = .deny ↔ cached.allow = false := by
  simp [convertFromCacheDecision]

/-- The cache adds no permission exactly when requests that share a key text are told apart by no
answer that gets cached: if one of them is allowed and cached, each of them is allowed. -/
theorem allowSound_iff {o : CachingEvaluatorOptions} (made : newCachingEvaluator o = .ok e)
    (eval : Request → Except String Decision) :
    AllowSound sha256 e eval ↔ (o.enableCaching = true → ∀ r r', keyText sha256 r' = keyText sha256 r →
        CachesAllow o.updated eval r → Allows eval r') := by
  obtain ⟨options, empty⟩ := newCachingEvaluator_ok made
  constructor
  · rintro sound enabled r r' same ⟨d, created, stored, entry, answer, allow, order, kept, fresh⟩
    let w : World := ⟨eval, created, created, stored, fun _ => default⟩
    have new : Made e.options w r entry := ⟨d, answer, options ▸ kept⟩
    obtain ⟨inputs, clock, worlds, p, mem, call, out⟩ :=
      replayed (options ▸ enabled) empty new same order fresh
    refine sound inputs clock worlds p mem r' _ call out ?_
    exact convertFromCacheDecision_allow.mpr ((entry_allow kept).mpr allow)
  · intro separated inputs clock worlds p mem r d call out allow
    rcases run_ok empty clock mem call out with own | ⟨enabled, i, hi, r', entry, same, new, fresh, rfl⟩
    · have world : p.1.world.eval = eval := by
        obtain ⟨_, _, split, _⟩ := mem_trace mem
        exact worlds p.1 (by rw [split]; simp)
      exact ⟨d, world ▸ own, allow⟩
    · obtain ⟨d', answer, kept⟩ := new
      rw [options] at enabled kept
      have allow' := (entry_allow kept).mp (convertFromCacheDecision_allow.mp allow)
      exact separated enabled r' r same.symm
        ⟨d', _, _, entry, worlds i hi ▸ answer, allow', (clock.within i hi).2, kept, fresh⟩

def fresh : CachingEvaluator where
  options := ({} : CachingEvaluatorOptions).updated
  decisionCache := ⟨∅, _, rfl⟩
  shared := rfl

theorem fresh_eq : newCachingEvaluator {} = .ok fresh := rfl

def sampleRequest (modes : List AccessMode) : Request where
  schemaVersion := schemaVersion
  requestID := "r1"
  method := "PUT"
  resourceURI := "https://pod.example/notes"
  agentWebID := "https://alice.example/me"
  requestedModes := modes
  nowUnix := 0

def sampleDecision (value : DecisionValue) : Decision where
  schemaVersion := schemaVersion
  requestID := "r1"
  decision := value
  reasonCode := .policyAllow
  cacheTTLSeconds := 1
  audit := ⟨[], []⟩

/-- An evaluator that lets reads pass and nothing else. -/
def readsOnly (r : Request) : Except String Decision :=
  .ok (sampleDecision (if r.requestedModes.all (· == .read) then .allow else .deny))

theorem allowSound_iff_allowing : newCachingEvaluator {} = .ok fresh ∧
    AllowSound id fresh fun _ => .ok (sampleDecision .allow) :=
  ⟨fresh_eq, (allowSound_iff fresh_eq _).mpr fun _ _ _ _ _ => ⟨_, rfl, rfl⟩⟩

def epoch : Time := Time.unix 0

/-- The sample answer is kept, and still there at the instant it was stored, by every cache that
keeps its kind. -/
theorem sample_made (o : CachingEvaluatorOptions) (modes : List AccessMode) (value : DecisionValue)
    (valid : o.cacheConfig.validate = .ok ())
    (kept : value = .allow ∨ o.cacheConfig.enableNegativeCache = true) :
    ∃ entry, o.cacheConfig.entryFor epoch (createCacheKey (sampleRequest modes))
        (convertToCacheDecision o epoch (sampleDecision value)) = .ok (some entry) ∧
      epoch ≤ entry.expiresAt := by
  have keep : (convertToCacheDecision o epoch (sampleDecision value)).allow = true ∨
      o.cacheConfig.enableNegativeCache = true := by
    refine kept.imp_left ?_
    rintro rfl
    rfl
  obtain ⟨entry, made⟩ := Config.entryFor_some (k := createCacheKey (sampleRequest modes))
    epoch rfl rfl keep
  exact ⟨entry, made, Config.entryFor_fresh valid (by decide) (by decide) made⟩

/-- A cached read lets a write pass: both requests ask first for the mode "read". -/
theorem write_allowed_by_cached_read : newCachingEvaluator {} = .ok fresh ∧ ¬ AllowSound id fresh readsOnly := by
  refine ⟨fresh_eq, fun sound => ?_⟩
  let reading := sampleRequest [.read]
  let writing := sampleRequest [.read, .write]
  obtain ⟨entry, kept, alive⟩ :=
    sample_made fresh.options [.read] .allow fresh.decisionCache.valid (.inl rfl)
  have made : Made fresh.options ⟨readsOnly, epoch, epoch, epoch, fun _ => default⟩ reading entry :=
    ⟨_, rfl, kept⟩
  have same : keyText id writing = keyText id reading := rfl
  obtain ⟨inputs, clock, worlds, p, mem, call, out⟩ :=
    replayed rfl rfl made same le_rfl alive
  have allow : (convertFromCacheDecision id entry.decision writing).decision = .allow :=
    convertFromCacheDecision_allow.mpr ((entry_allow kept).mpr rfl)
  obtain ⟨_, answer, allowed⟩ := sound inputs clock worlds p mem writing _ call out allow
  cases answer
  cases allowed

/-- Over every run in which the wrapped evaluator abstains on `r` at every call, no call for `r` is
denied. -/
def AbstainKept (sha256 : Str → Str) (e : CachingEvaluator) : Prop :=
  ∀ inputs r, ClockOrdered inputs → (∀ i ∈ inputs, ∃ d, i.world.eval r = .ok d ∧ d.decision = .abstain) →
    ∀ p ∈ Run.trace (step sha256) e inputs, ∀ d, p.1.op = .evaluate r → p.2 = some (.ok d) → d.decision ≠ .deny

/-- With caching of negative answers on, an abstention is stored as "does not allow" and comes back
as a denial. -/
theorem denied_of_negative (enabled : e.options.enableCaching = true)
    (negative : e.options.cacheConfig.enableNegativeCache = true)
    (empty : e.decisionCache.entries = ∅) : ¬ AbstainKept sha256 e := by
  intro kept
  have valid := e.decisionCache.valid
  rw [e.shared] at valid
  obtain ⟨entry, new, alive⟩ := sample_made e.options [.read] .abstain valid (.inr negative)
  let abstains : World :=
    ⟨fun _ => .ok (sampleDecision .abstain), epoch, epoch, epoch, fun _ => default⟩
  have made : Made e.options abstains _ entry := ⟨_, rfl, new⟩
  obtain ⟨inputs, clock, worlds, p, mem, call, out⟩ :=
    replayed enabled empty made rfl le_rfl alive
  refine kept inputs _ clock (fun i hi => ⟨_, congrFun (worlds i hi) _, rfl⟩) p mem _ call out ?_
  rw [convertFromCacheDecision_deny, (Config.entryFor_eq new).2.1]
  rfl

/-- Abstentions are never replayed as denials exactly when the evaluator does not cache at all or
does not cache negative answers. -/
theorem abstainKept_iff {o : CachingEvaluatorOptions} (made : newCachingEvaluator o = .ok e) :
    AbstainKept sha256 e ↔ ¬ (o.enableCaching = true ∧ o.enableNegativeCache = true) := by
  obtain ⟨options, empty⟩ := newCachingEvaluator_ok made
  constructor
  · rintro kept ⟨enabled, negative⟩
    exact denied_of_negative (options ▸ enabled) (options ▸ negative) empty kept
  · intro off inputs r clock abstains p mem d call out deny
    rcases run_ok empty clock mem call out with own | ⟨enabled, _, -, _, _, _, new, _, rfl⟩
    · obtain ⟨_, _, split, _⟩ := mem_trace mem
      obtain ⟨d', answer, abstain⟩ := abstains p.1 (by rw [split]; simp)
      rw [own] at answer
      cases answer
      rw [deny] at abstain
      cases abstain
    · -- only the answers that do not allow come back as denials, and those are not stored
      obtain ⟨d', _, stored⟩ := new
      obtain ⟨_, allow, _, _, negative⟩ := Config.entryFor_eq stored
      have cached := negative (allow ▸ convertFromCacheDecision_deny.mp deny)
      rw [options] at enabled cached
      exact off ⟨enabled, cached⟩

def freshNegative : CachingEvaluator where
  options := ({ enableNegativeCache := true } : CachingEvaluatorOptions).updated
  decisionCache := ⟨∅, _, rfl⟩
  shared := rfl

theorem abstainKept_iff_default : newCachingEvaluator {} = .ok fresh ∧ AbstainKept id fresh :=
  ⟨fresh_eq, (abstainKept_iff fresh_eq).mpr (by decide)⟩

theorem abstain_replayed_as_deny : newCachingEvaluator { enableNegativeCache := true } = .ok freshNegative ∧
    ¬ AbstainKept id freshNegative :=
  ⟨rfl, denied_of_negative rfl rfl rfl⟩

end CachingEvaluator

end Authz
