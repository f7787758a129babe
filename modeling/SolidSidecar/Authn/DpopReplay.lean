import SolidSidecar.Authn.Dpop

/-!
# Replays over a run of requests

A run is a list of `VerifyRequest` calls on one verifier. A proof is identified by its header key
and its `jti`. While the cache has room, the calls that pass every other check are attempts on
leases keyed by proof, so whether a proof is accepted twice is a question about deadlines:
`noReplay_iff_covered`. A lease ends at `iat + ReplayWindow`, while proofs are accepted for another
`MaxClockSkew`.
-/

namespace Authn
open Go List ReplayCache Run

section

variable [Unicode] (crypto : Crypto) (cfg : AuthConfig)
  {c : DPoPCall} {cache : ReplayCache} {a : Run.Attempt Str Time} {calls : List DPoPCall}

/-- What identifies a proof: the bytes of its header key and its `jti`. -/
def proofId (proof : Str) : Option (Str × Str) :=
  match parseProof proof with
  | .ok p => some (p.header.jwk, p.claims.jti)
  | .error _ => none

def NoReplay (cache : ReplayCache) (calls : List DPoPCall) : Prop :=
  (Run.trace (verifyRequest crypto cfg) cache calls).Pairwise fun p q =>
    p.2 = .ok () → q.2 = .ok () → proofId p.1.proof ≠ proofId q.1.proof

/-- The verifier and its cache read one clock that does not run backwards. -/
def ClockOrdered (calls : List DPoPCall) : Prop :=
  (calls.flatMap fun c => [c.now, c.cacheNow]).Pairwise (· ≤ ·)

/-- No call of the run finds the cache full of live entries. -/
def RoomThroughout : ReplayCache → List DPoPCall → Prop
  | _, [] => True
  | cache, c :: rest =>
    cache.HasRoom c.cacheNow ∧ RoomThroughout (verifyRequest crypto cfg cache c).1 rest

/-- The lease that a call asks the cache for, if it passes every other check. -/
def DPoPCall.attempt (c : DPoPCall) : Option (Run.Attempt Str Time) :=
  match admission crypto cfg c.now c.request c.accessToken c.proof with
  | .ok (cacheKey, expiresAt) => some (ReplayCache.attempt c.cacheNow cacheKey expiresAt)
  | .error _ => none

/-- A call and its result, as an attempt and whether it was granted. -/
def outcome (p : DPoPCall × Except Error Unit) : Option (Run.Attempt Str Time × Bool) :=
  (p.1.attempt crypto cfg).map fun a => (a, p.2.isOk)

variable {crypto cfg}

omit [Unicode] in
theorem ClockOrdered.cons {rest : List DPoPCall} (h : ClockOrdered (c :: rest)) :
    (∀ d ∈ rest, c.cacheNow ≤ d.cacheNow) ∧ ClockOrdered rest := by
  rw [ClockOrdered, flatMap_cons, pairwise_append] at h
  obtain ⟨_, tail, across⟩ := h
  refine ⟨fun d mem => ?_, tail⟩
  exact across c.cacheNow (by simp) d.cacheNow (mem_flatMap.mpr ⟨d, mem, by simp⟩)

/-- A call that fails a check before the cache leaves the cache alone. -/
theorem verifyRequest_of_none (h : c.attempt crypto cfg = none) (cache : ReplayCache) :
    (verifyRequest crypto cfg cache c).1 = cache ∧ (verifyRequest crypto cfg cache c).2 ≠ .ok () := by
  unfold DPoPCall.attempt at h
  unfold verifyRequest
  split at h
  · cases h
  · rename_i _ rejected
    rw [rejected]
    exact ⟨rfl, by simp⟩

/-- A call that reaches the cache succeeds exactly when its attempt is granted. -/
theorem verifyRequest_of_some {held} (h : c.attempt crypto cfg = some a)
    (refines : cache.Refines held c.cacheNow) (room : cache.HasRoom c.cacheNow) :
    (verifyRequest crypto cfg cache c).2.isOk = (Lease.step held a).2 ∧
      (verifyRequest crypto cfg cache c).1.Refines (Lease.step held a).1 c.cacheNow := by
  unfold DPoPCall.attempt at h
  split at h
  · rename_i cacheKey expiresAt admitted
    cases h
    obtain ⟨p, _, _, pair⟩ := (admission_eq_ok crypto).mp admitted
    have named : cacheKey ≠ [] := by
      rw [(Prod.mk.inj pair).1]
      exact replayKey_ne_nil crypto p.header p.claims
    obtain ⟨result, next⟩ := store_refines c.order expiresAt refines named room
    unfold verifyRequest
    rw [admitted]
    dsimp only
    split
    · rename_i stored
      rw [stored] at result next
      exact ⟨result, next⟩
    · rename_i stored
      rw [stored] at result next
      exact ⟨result, next⟩
  · cases h

/-- The calls that reach the cache make the run of leases. -/
theorem trace_refines {held} (refines : ∀ c ∈ calls, cache.Refines held c.cacheNow) (clock : ClockOrdered calls)
    (room : RoomThroughout crypto cfg cache calls) :
    (trace (verifyRequest crypto cfg) cache calls).filterMap (outcome crypto cfg) =
      trace Lease.step held (calls.filterMap (DPoPCall.attempt crypto cfg)) := by
  induction calls generalizing cache held with
  | nil => rfl
  | cons c rest ih =>
    obtain ⟨roomHere, roomRest⟩ := room
    obtain ⟨later, clockRest⟩ := clock.cons
    have here := refines c mem_cons_self
    cases tried : c.attempt crypto cfg with
    | none =>
      obtain ⟨same, _⟩ := verifyRequest_of_none tried cache
      rw [filterMap_cons_none tried, trace, filterMap_cons_none (by rw [outcome, tried]; rfl)]
      rw [same] at roomRest ⊢
      exact ih (fun d mem => here.mono (later d mem)) clockRest roomRest
    | some a =>
      obtain ⟨result, next⟩ := verifyRequest_of_some tried here roomHere
      rw [filterMap_cons_some tried, trace, filterMap_cons_some (by rw [outcome, tried]; rfl), result]
      congr 1
      exact ih (fun d mem => next.mono (later d mem)) clockRest roomRest

/-- Attempts on one key are presentations of one proof. -/
theorem attempt_key_eq_iff (collisionFree : Function.Injective crypto.sha256) {d : DPoPCall}
    {b} (ha : c.attempt crypto cfg = some a)
    (hb : d.attempt crypto cfg = some b) : a.key = b.key ↔ proofId c.proof = proofId d.proof := by
  have identify : ∀ {c : DPoPCall} {a}, c.attempt crypto cfg = some a →
      ∃ p, parseProof c.proof = .ok p ∧ a.key = replayKey crypto p.header p.claims := by
    intro c a h
    unfold DPoPCall.attempt at h
    split at h
    · rename_i admitted
      obtain ⟨p, parsed, _, pair⟩ := (admission_eq_ok crypto).mp admitted
      cases h
      exact ⟨p, parsed, (Prod.mk.inj pair).1⟩
    · cases h
  obtain ⟨p, parsed, keyed⟩ := identify ha
  obtain ⟨_, parsed', keyed'⟩ := identify hb
  rw [keyed, keyed', replayKey_inj collisionFree, proofId, proofId, parsed, parsed']
  simp

theorem attempt_now (h : c.attempt crypto cfg = some a) : a.now = c.cacheNow := by
  unfold DPoPCall.attempt at h
  split at h
  · cases h
    rfl
  · cases h

/-- An accepted call of a run has reached the cache. -/
theorem attempt_of_ok {p} (mem : p ∈ trace (verifyRequest crypto cfg) cache calls) (ok : p.2 = .ok ()) :
    ∃ a, p.1.attempt crypto cfg = some a := by
  obtain ⟨_, _, _, out⟩ := mem_trace mem
  cases tried : p.1.attempt crypto cfg with
  | some a => exact ⟨a, rfl⟩
  | none => exact absurd (out.symm.trans ok) (verifyRequest_of_none tried _).2

/-- In a run, no proof is accepted twice exactly when no lease key is granted twice. -/
theorem noReplay_iff_exclusive {maxEntries}
    (collisionFree : Function.Injective crypto.sha256) (clock : ClockOrdered calls)
    (room : RoomThroughout crypto cfg (new maxEntries) calls) :
    NoReplay crypto cfg (new maxEntries) calls ↔ Lease.Exclusive (calls.filterMap (DPoPCall.attempt crypto cfg)) := by
  have mirrored := trace_refines (fun c _ => refines_new maxEntries c.cacheNow) clock room
  rw [Lease.Exclusive, ← mirrored, pairwise_filterMap]
  refine Pairwise.iff_of_mem fun {p q} memP memQ => ⟨fun distinct => ?_, fun distinct => ?_⟩
  · intro a ha b hb okA okB
    obtain ⟨ap, hap, rfl⟩ := Option.map_eq_some_iff.mp ha
    obtain ⟨aq, haq, rfl⟩ := Option.map_eq_some_iff.mp hb
    rw [ne_eq, attempt_key_eq_iff collisionFree hap haq]
    exact distinct (isOk_iff.mp okA) (isOk_iff.mp okB)
  · intro okP okQ
    obtain ⟨ap, hap⟩ := attempt_of_ok memP okP
    obtain ⟨aq, haq⟩ := attempt_of_ok memQ okQ
    rw [ne_eq, ← attempt_key_eq_iff collisionFree hap haq]
    exact distinct (ap, true) (by rw [outcome, hap, okP]; rfl) (aq, true) (by rw [outcome, haq, okQ]; rfl) rfl rfl

theorem ClockOrdered.attempts (clock : ClockOrdered calls) :
    Lease.Ordered (calls.filterMap (DPoPCall.attempt crypto cfg)) := by
  induction calls with
  | nil => exact .nil
  | cons c rest ih =>
    obtain ⟨later, clockRest⟩ := clock.cons
    cases tried : c.attempt crypto cfg with
    | none =>
      rw [filterMap_cons_none tried]
      exact ih clockRest
    | some a =>
      rw [filterMap_cons_some tried]
      refine pairwise_cons.mpr ⟨fun b mem => ?_, ih clockRest⟩
      obtain ⟨d, memRest, triedRest⟩ := mem_filterMap.mp mem
      rw [attempt_now tried, attempt_now triedRest]
      exact later d memRest

/-- **Main result.** For every run on a fresh cache that never fills up, no proof is accepted twice
exactly when, for every proof, the deadline set by the first request that passes the other checks
is after every later request with that proof that passes them. -/
theorem noReplay_iff_covered (collisionFree : Function.Injective crypto.sha256)
    (maxEntries : Int) (calls : List DPoPCall) (clock : ClockOrdered calls)
    (room : RoomThroughout crypto cfg (ReplayCache.new maxEntries) calls) :
    NoReplay crypto cfg (ReplayCache.new maxEntries) calls ↔
      Run.Lease.Covered (calls.filterMap (DPoPCall.attempt crypto cfg)) :=
  (noReplay_iff_exclusive collisionFree clock room).trans (Lease.exclusive_iff_covered clock.attempts)

end

/-- A proof issued at 2026-01-01T00:00:00Z for `GET https://pod.example/data`. -/
def sampleProof : Str :=
  let header := "\x7b\"typ\":\"dpop+jwt\",\"alg\":\"ES256\"," ++
    "\"jwk\":\x7b\"kty\":\"EC\",\"crv\":\"P-256\",\"x\":\"AQ\",\"y\":\"Ag\"\x7d\x7d"
  let claims := "\x7b\"htm\":\"GET\",\"htu\":\"https://pod.example/data\"," ++
    "\"jti\":\"proof-1\",\"iat\":1767225600\x7d"
  Base64.encode (str header) ++ "." ++ Base64.encode (str claims) ++ "." ++ Base64.encode (List.replicate 64 1)

/-- The sample proof presented `seconds` after it was issued. -/
def sampleCall (seconds : Int) : DPoPCall where
  request := {
    method := "GET"
    url := { path := "/data" }
    host := "pod.example"
    tls := true }
  accessToken := []
  proof := sampleProof
  now := Time.unix (1767225600 + seconds)
  cacheNow := Time.unix (1767225600 + seconds)

section

attribute [local instance] Unicode.ascii

instance [Unicode] (crypto : Crypto) (cfg : AuthConfig) (cache : ReplayCache)
    (calls : List DPoPCall) : Decidable (NoReplay crypto cfg cache calls) :=
  inferInstanceAs (Decidable (List.Pairwise _ _))

instance (calls : List DPoPCall) : Decidable (ClockOrdered calls) :=
  inferInstanceAs (Decidable (List.Pairwise _ _))

/-- Five minutes apart, the cache still holds the first use. -/
theorem noReplay_iff_covered_sample :
    RoomThroughout Crypto.trusting {} (ReplayCache.new 0) [sampleCall 0, sampleCall 300] ∧
      Run.Lease.Covered ([sampleCall 0, sampleCall 300].filterMap (DPoPCall.attempt Crypto.trusting {})) := by
  have room : RoomThroughout .trusting {} (new 0) [sampleCall 0, sampleCall 300] :=
    ⟨by decide +kernel, by decide +kernel, trivial⟩
  have once : NoReplay .trusting {} (new 0) [sampleCall 0, sampleCall 300] := by
    decide +kernel
  exact ⟨room, (noReplay_iff_covered (fun _ _ same => same) 0 _ (by decide +kernel) room).mp once⟩

/-- Under the default configuration a proof is accepted when it is issued and again ten minutes and
one second later: its entry has expired, its age is still within the clock skew. -/
theorem replay_accepted_after_window :
    Function.Injective Crypto.trusting.sha256 ∧ ClockOrdered [sampleCall 0, sampleCall 601] ∧
      RoomThroughout Crypto.trusting {} (ReplayCache.new 0) [sampleCall 0, sampleCall 601] ∧
      ¬ NoReplay Crypto.trusting {} (ReplayCache.new 0) [sampleCall 0, sampleCall 601] := by
  refine ⟨fun _ _ same => same, by decide +kernel, ⟨?_, ?_, trivial⟩, ?_⟩ <;> decide +kernel

end

end Authn
