import SolidSidecar.Authz.Types
import SolidSidecar.Go.Strings
import SolidSidecar.Go.Time

/-!
# The decision cache

`cache.MemoryCache` keeps decisions by the hash of a `CacheKey`. A decision is stored for the time
that its kind has in the configuration; an entry is dropped when it is found expired, when its policy,
resource or agent is invalidated, or when room is needed, the one that expires first. The counters of
the cache are left out. The digest is a parameter of the key; what it digests tells the key exactly when
no field holds the separator (`preimage_inj_iff`).
-/

namespace Authz.Cache
open Go GoMap Time

structure Decision where
  allow : Bool
  reason : Str
  stale : Bool := false
  evaluatorVersion : Str
  policyVersion : Str
  parserVersion : Str
  createdAt : Time
  expiresAt : Time
  deriving DecidableEq, Repr

structure CacheKey where
  agent : Str
  did : Str
  client : Str
  method : Str
  mode : Str
  resource : Str
  policyVersion : Str
  parserVersion : Str
  evaluatorVersion : Str
  deriving DecidableEq, Repr

def CacheKey.preimage (k : CacheKey) : Str :=
  (str "|").intercalate [k.agent, k.did, k.client, k.method, k.mode, k.resource, k.policyVersion,
    k.parserVersion, k.evaluatorVersion]

def CacheKey.string (sha256 : Str → Str) (k : CacheKey) : Str := hexEncode (sha256 k.preimage)

def CacheKey.fields (k : CacheKey) : List Str :=
  [k.agent, k.did, k.client, k.method, k.mode, k.resource, k.policyVersion, k.parserVersion, k.evaluatorVersion]

/-- No other key has the preimage of a key exactly when the separator is in none of its fields. -/
theorem preimage_inj_iff (k : CacheKey) :
    (∀ other : CacheKey, other.preimage = k.preimage → other = k) ↔ ∀ field ∈ k.fields, 0x7C ∉ field := by
  have bar : str "|" = [0x7C] := by decide
  have joined (k : CacheKey) : k.preimage = Strings.join k.fields [0x7C] := by
    rw [← bar]
    rfl
  simp only [joined]
  rw [← @Strings.join_inj_iff 0x7C k.fields (by simp [CacheKey.fields])]
  constructor
  · intro unique other length same
    match other, length with
    | [agent, did, client, method, mode, resource, policy, parser, evaluator], _ =>
      rw [← unique ⟨agent, did, client, method, mode, resource, policy, parser, evaluator⟩ same]
      rfl
  · intro unique other same
    have fields := unique other.fields rfl same
    simp only [CacheKey.fields, List.cons.injEq, and_true] at fields
    cases other
    simp_all

/-- A client whose name holds the separator shares its key with another client of another identity. -/
theorem preimage_shared : ¬ ∀ a b : CacheKey, a.preimage = b.preimage → a = b := by
  let key (did client : Str) : CacheKey := ⟨"https://alice.example/", did, client, "GET",
    "read", "https://pod.example/note", [], [], []⟩
  intro injective
  exact absurd (injective (key "idp" "x|app") (key "idp|x" "app") (by decide +kernel)) (by decide +kernel)

structure Config where
  ttl : Int := 5 * minute
  maxTTL : Int := hour
  staleTTL : Int := 30 * second
  maxSize : Int := 10000
  enableNegativeCache : Bool := false
  negativeCacheTTL : Int := minute
  deriving DecidableEq, Repr

def Config.validate (cfg : Config) : Except String Unit :=
  if cfg.ttl ≤ 0 then .error "TTL must be positive"
  else if cfg.maxTTL ≤ 0 then .error "MaxTTL must be positive"
  else if cfg.staleTTL < 0 then .error "StaleTTL must be non-negative"
  else if cfg.staleTTL > cfg.ttl then .error "StaleTTL cannot exceed TTL"
  else if cfg.maxSize ≤ 0 then .error "MaxSize must be positive"
  else if cfg.enableNegativeCache ∧ cfg.negativeCacheTTL ≤ 0 then
    .error "NegativeCacheTTL must be positive when negative cache is enabled"
  else if cfg.enableNegativeCache ∧ cfg.negativeCacheTTL > cfg.ttl then
    .error "NegativeCacheTTL cannot exceed TTL"
  else .ok ()

structure Entry where
  key : CacheKey
  decision : Decision
  expiresAt : Time
  deriving DecidableEq, Repr

/-- The entries by the text of their keys, under a valid configuration. -/
structure MemoryCache where
  entries : GoMap Str Entry
  config : Config
  valid : config.validate = .ok ()

def newMemoryCache (cfg : Config) : Except String MemoryCache :=
  match h : cfg.validate with
  | .ok () => .ok ⟨∅, cfg, h⟩
  | .error text => .error ("invalid cache config: " ++ text)

variable {cfg : Config}

theorem newMemoryCache_ok {c} (made : newMemoryCache cfg = .ok c) : c.entries = ∅ ∧ c.config = cfg := by
  unfold newMemoryCache at made
  split at made
  · cases made
    exact ⟨rfl, rfl⟩
  · cases made

def validateDecision (d : Decision) : Except String Unit :=
  if d.createdAt.isZero then .error "decision must have a creation timestamp"
  else if !d.expiresAt.isZero ∧ d.expiresAt.before d.createdAt then
    .error "expiration cannot be before creation"
  else if d.reason.length > 1024 then .error "decision reason is too long"
  else .ok ()

def isCachePoisoningAttempt (k : CacheKey) (d : Decision) : Bool :=
  (k.agent = [] ∧ k.did = [] ∧ k.client = []) ∨ k.resource = [] ∨ k.method = [] ∨
    d.expiresAt.sub d.createdAt > 24 * hour

def Config.lifetime (cfg : Config) (allow : Bool) : Int :=
  min (if allow then cfg.ttl else cfg.negativeCacheTTL) cfg.maxTTL

/-- The entry that `Put` makes at `now`: an error when the decision is refused, nothing when it is a
negative one and those are not kept. -/
def Config.entryFor (cfg : Config) (now : Time) (k : CacheKey) (d : Decision) : Except String (Option Entry) :=
  match validateDecision d with
  | .error text => .error ("invalid decision: " ++ text)
  | .ok () =>
    if isCachePoisoningAttempt k d then .error "cache poisoning detected"
    else if !d.allow && !cfg.enableNegativeCache then .ok none
    else
      let expiresAt := now.add (cfg.lifetime d.allow)
      .ok (some ⟨k, { d with expiresAt }, expiresAt⟩)

/-- The first entry in map order that expires before all others. -/
def oldest (order : RangeOrder Str) (m : GoMap Str Entry) : Option (Str × Time) :=
  (order.visit m.keys).foldl (fun best k =>
    match m.lookup k, best with
    | none, _ => best
    | some e, none => some (k, e.expiresAt)
    | some e, some b => if e.expiresAt.before b.2 then some (k, e.expiresAt) else best) none

/-- `evictOldest`, which removes one entry at a time until there is room; each round ranges over the
map anew. -/
def evictOldest (order : Nat → RangeOrder Str) (maxSize : Int) : Nat → GoMap Str Entry → GoMap Str Entry
  | 0, m => m
  | rounds + 1, m =>
    if (m.size : Int) < maxSize then m
    else match oldest (order rounds) m with
      | none => m
      | some (k, _) => evictOldest order maxSize rounds (m.erase k)

theorem evictOldest_sub (order : Nat → RangeOrder Str) (maxSize : Int) (rounds : Nat)
    (m : GoMap Str Entry) : GoMap.Sub (evictOldest order maxSize rounds m) m := by
  induction rounds generalizing m with
  | zero => exact .refl m
  | succ rounds ih =>
    unfold evictOldest
    split
    · exact .refl m
    · split
      · exact .refl m
      · exact (ih _).trans (erase_sub m _)

variable {now : Time} {k : CacheKey} {d : Decision} {e : Entry}

/-- A stored entry carries its key and whether it allows; a negative one is stored only where those
are kept. -/
theorem Config.entryFor_eq (h : cfg.entryFor now k d = .ok (some e)) :
    e.key = k ∧ e.decision.allow = d.allow ∧ e.decision.stale = d.stale ∧
      e.expiresAt = now.add (cfg.lifetime d.allow) ∧
      (d.allow = false → cfg.enableNegativeCache = true) := by
  unfold entryFor at h
  split at h
  · cases h
  · split_ifs at h with _ dropped
    · cases h
    · cases h
      refine ⟨rfl, rfl, rfl, rfl, fun negative => ?_⟩
      simpa [negative] using dropped

/-- A decision that is valid, honest and of a kind that is kept makes an entry. -/
theorem Config.entryFor_some (now : Time)
    (valid : validateDecision d = .ok ()) (honest : isCachePoisoningAttempt k d = false)
    (kept : d.allow = true ∨ cfg.enableNegativeCache = true) :
    ∃ e, cfg.entryFor now k d = .ok (some e) := by
  have keep : (!d.allow && !cfg.enableNegativeCache) = false := by
    rcases kept with allow | negative
    · simp [allow]
    · simp [negative]
  unfold entryFor
  simp only [valid, honest, keep]
  exact ⟨_, rfl⟩

/-- A valid configuration has a positive size and positive lifetimes. -/
theorem Config.validate_ok (h : cfg.validate = .ok ()) : 0 < cfg.ttl ∧ 0 < cfg.maxTTL ∧ 0 < cfg.maxSize ∧
      (cfg.enableNegativeCache = true → 0 < cfg.negativeCacheTTL) := by
  unfold validate at h
  split_ifs at h with _ _ _ _ _ negative
  refine ⟨by omega, by omega, by omega, fun enabled => ?_⟩
  by_contra _
  exact negative ⟨enabled, by omega⟩

/-- The entries of a valid configuration outlive the instant at which they are made. -/
theorem Config.entryFor_fresh
    (valid : cfg.validate = .ok ()) (low : 0 ≤ now.ns) (high : now.ns ≤ (2 ^ 63 - 1) * second)
    (made : cfg.entryFor now k d = .ok (some e)) : now ≤ e.expiresAt := by
  obtain ⟨_, _, _, negative⟩ := validate_ok valid
  obtain ⟨_, _, _, expires, kept⟩ := entryFor_eq made
  rw [expires]
  refine le_add low high ?_
  unfold lifetime
  cases allow : d.allow with
  | true =>
    simp only [if_true]
    omega
  | false =>
    have positive := negative (kept allow)
    omega

namespace MemoryCache

variable (sha256 : Str → Str)

def get (c : MemoryCache) (now : Time) (k : CacheKey) : MemoryCache × Option Decision :=
  match c.entries.lookup (k.string sha256) with
  | none => (c, none)
  | some e =>
    if now.after e.expiresAt then ({ c with entries := c.entries.erase (k.string sha256) }, none)
    else (c, some e.decision)

def put (order : Nat → RangeOrder Str) (c : MemoryCache) (now : Time) (k : CacheKey) (d : Decision) :
    MemoryCache × Except String Unit :=
  match c.config.entryFor now k d with
  | .error text => (c, .error text)
  | .ok none => (c, .ok ())
  | .ok (some e) =>
    let kept := evictOldest order c.config.maxSize c.entries.size c.entries
    ({ c with entries := kept.insert (k.string sha256) e }, .ok ())

def invalidate (c : MemoryCache) (hit : CacheKey → Bool) : MemoryCache :=
  { c with entries := c.entries.filter fun _ e => !hit e.key }

def invalidatePolicy (c : MemoryCache) (policyVersion : Str) : MemoryCache :=
  c.invalidate fun k => k.policyVersion == policyVersion

def invalidateResource (c : MemoryCache) (resource : Str) : MemoryCache :=
  c.invalidate fun k => k.resource == resource

def invalidateAgent (c : MemoryCache) (agent : Str) : MemoryCache :=
  c.invalidate fun k => k.agent == agent

def clear (c : MemoryCache) : MemoryCache := { c with entries := ∅ }

variable {sha256} {c : MemoryCache} {now : Time} {k : CacheKey} {d : Decision}

/-- What `Get` returns is the decision of an entry that has not expired. -/
theorem get_eq_some : (c.get sha256 now k).2 = some d ↔
      ∃ e, c.entries.lookup (k.string sha256) = some e ∧ now ≤ e.expiresAt ∧ e.decision = d := by
  unfold get
  split
  · rename_i absent
    simp [absent]
  · rename_i e found
    rw [found]
    split
    · rename_i expired
      rw [after_iff] at expired
      constructor
      · intro h
        cases h
      · rintro ⟨e', same, fresh, _⟩
        cases same
        exact absurd expired (not_lt.mpr fresh)
    · rename_i fresh
      rw [after_iff, not_lt] at fresh
      constructor
      · intro h
        exact ⟨e, rfl, fresh, Option.some.inj h⟩
      · rintro ⟨e', same, _, rfl⟩
        cases same
        rfl

theorem get_sub (c : MemoryCache) (now : Time) (k : CacheKey) :
    GoMap.Sub (c.get sha256 now k).1.entries c.entries := by
  unfold get
  split
  · exact .refl _
  · split
    · exact erase_sub _ _
    · exact .refl _

@[simp] theorem get_config (c : MemoryCache) (now : Time) (k : CacheKey) :
    (c.get sha256 now k).1.config = c.config := by
  unfold get
  split
  · rfl
  · split <;> rfl

@[simp] theorem put_config (order : Nat → RangeOrder Str) (c : MemoryCache) (now : Time)
    (k : CacheKey) (d : Decision) : (c.put sha256 order now k d).1.config = c.config := by
  unfold put
  split <;> rfl

variable {e : Entry} {order : Nat → RangeOrder Str} {s : Str}

/-- An entry after `Put` was there before or is the new one. -/
theorem put_cases (found : (c.put sha256 order now k d).1.entries.lookup s = some e) : c.entries.lookup s = some e ∨
      s = k.string sha256 ∧ c.config.entryFor now k d = .ok (some e) := by
  unfold put at found
  split at found
  · exact .inl found
  · exact .inl found
  · rename_i _ made
    rw [lookup_insert_eq] at found
    split_ifs at found with same
    · cases found
      exact .inr ⟨same, made⟩
    · exact .inl (evictOldest_sub _ _ _ _ s e found)

theorem put_stored (made : c.config.entryFor now k d = .ok (some e)) :
    (c.put sha256 order now k d).1.entries.lookup (k.string sha256) = some e := by
  unfold put
  rw [made]
  simp

theorem invalidate_sub (c : MemoryCache) (hit : CacheKey → Bool) : GoMap.Sub (c.invalidate hit).entries c.entries :=
  filter_sub _ _

/-- What stays after an invalidation are the entries whose key the test does not select. -/
theorem invalidate_lookup {hit} : (c.invalidate hit).entries.lookup s = some e ↔
      c.entries.lookup s = some e ∧ hit e.key = false := by
  simp [invalidate]

end MemoryCache

end Authz.Cache
