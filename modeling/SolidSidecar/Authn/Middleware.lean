import SolidSidecar.Authn.Dpop
import SolidSidecar.Authn.Verifier

/-!
# The authentication middleware

`MiddlewareWithVerifier` checks the `Authorization` and `DPoP` headers of a request before it is
passed on. A DPoP token goes to the DPoP verifier, a bearer token to the identity verifier. The
identity verifier that the middleware builds for itself carries the instant of construction in its
options, and `followsClock_iff` says for which tokens that is not noticed.
-/

namespace Authn
open Go Time ReplayCache Strings

/-- Why a request is rejected: an `invalidAuthorizationError`, with the verifier's error where it
reports one, or an error of the DPoP verifier as it is. -/
inductive Rejection where
  | invalidAuthorization (reason : String) (cause : Option Error)
  | dpop (err : Error)
  deriving DecidableEq, Repr

def errInvalidAuthorization (reason : String) : Rejection := .invalidAuthorization reason none

/-- The rejection of a bearer token that does not verify. -/
def bearerFailed (err : Error) : Rejection :=
  .invalidAuthorization "Bearer token validation failed: " (some err)

/-- What becomes of a bearer token, given the result of its verification. -/
def bearerResult : Except Error TrustedIdentity → Except Rejection (Option TrustedIdentity)
  | .ok identity => .ok (some identity)
  | .error err => .error (bearerFailed err)

def parseAuthorization (value : Str) : Except Rejection (Str × Str) :=
  match fields (trimSpace value) with
  | [scheme, token] =>
    if containsAny scheme lineBreaks || containsAny token lineBreaks then
      .error (errInvalidAuthorization "Authorization contains control characters")
    else if token.length > 8192 then
      .error (errInvalidAuthorization "Authorization token is too large")
    else .ok (scheme, token)
  | _ => .error (errInvalidAuthorization "Authorization must contain exactly scheme and token")

def dpopProofHeader (r : Http.Request) : Except Rejection (Option Str) :=
  match r.header.values "DPoP" with
  | [] => .ok none
  | [value] =>
    let value := trimSpace value
    if value = [] then .error (errInvalidAuthorization "DPoP header is empty")
    else if containsAny value (lineBreaks ++ ",") then
      .error (errInvalidAuthorization "DPoP header contains invalid characters")
    else if value.length > 16384 then .error (errInvalidAuthorization "DPoP proof is too large")
    else .ok (some value)
  | _ => .error (errInvalidAuthorization "multiple DPoP headers are not allowed")

def AuthConfig.validatesIdentity (cfg : AuthConfig) : Bool :=
  cfg.identityValidationEnabled && !cfg.allowedIdentityIssuers.isEmpty

/-- The handler that `MiddlewareWithVerifier` returns. -/
structure Middleware where
  cfg : AuthConfig
  identityVerifier : Option IdentityVerifier

/-- The options of the identity verifier that the middleware makes for itself at `start`. -/
def AuthConfig.identityOptions (cfg : AuthConfig) (start : Time) : IdentityValidationOptions where
  allowedIssuers := cfg.allowedIdentityIssuers
  expectedAudience := cfg.expectedIdentityAudience
  now := start
  clockSkew := cfg.maxClockSkew

/-- `MiddlewareWithVerifier`, called at `start`; without preflight there is no middleware. -/
def middlewareWithVerifier (cfg : AuthConfig) (identityVerifier : Option IdentityVerifier)
    (get : Str → Option Response) (start : Time) : Option Middleware :=
  if !cfg.preflightEnabled then none
  else if identityVerifier.isNone && cfg.validatesIdentity then
    some ⟨cfg, some (newIdentityVerifier get (cfg.identityOptions start))⟩
  else some ⟨cfg, identityVerifier⟩

/-- A request and the circumstances it is served in: the clock, the cache's clock and map order, and
the network as the identity verifier finds it. -/
structure Arrival where
  request : Http.Request
  now : Time
  cacheNow : Time := now
  order : RangeOrder Str := default
  discovery : Discovery

section

variable [Unicode] (crypto : Crypto)

/-- `preflightRequest`: the cache afterwards, and the identity put into the request's context. -/
def preflightRequest (m : Middleware) (cache : ReplayCache) (a : Arrival) :
    ReplayCache × Except Rejection (Option TrustedIdentity) :=
  match a.request.header.values "Authorization" with
  | [] => (cache, .ok none)
  | [value] =>
    match parseAuthorization value, dpopProofHeader a.request with
    | .error e, _ => (cache, .error e)
    | .ok _, .error e => (cache, .error e)
    | .ok (scheme, token), .ok proof =>
      if toLower scheme = "dpop" then
        match proof with
        | none =>
          if m.cfg.requireDPoPForDPoPAuthorization then
            (cache, .error (errInvalidAuthorization "DPoP authorization requires DPoP proof header"))
          else (cache, .ok none)
        | some proof =>
          let (cache, result) := verifyRequest crypto m.cfg cache
            ⟨a.request, token, proof, a.now, a.cacheNow, a.order⟩
          match result with
          | .ok _ => (cache, .ok none)
          | .error e => (cache, .error (.dpop e))
      else if toLower scheme = "bearer" then
        if proof.isSome then
          (cache, .error (errInvalidAuthorization "Bearer authorization must not include DPoP proof"))
        else match m.cfg.validatesIdentity, m.identityVerifier with
          | true, some v => (cache, bearerResult (v.verify crypto a.discovery a.now token).result)
          | _, _ => (cache, .ok none)
      else (cache, .error (errInvalidAuthorization "unsupported Authorization scheme"))
  | _ => (cache, .error (errInvalidAuthorization "multiple Authorization headers are not allowed"))

/-- The answer to a request: it is passed on, with an identity or without one, or rejected with
status 401. -/
inductive Answer where
  | next (identity : Option TrustedIdentity)
  | unauthorized (why : Rejection)
  deriving DecidableEq, Repr

def Middleware.serve (m : Middleware) (cache : ReplayCache) (a : Arrival) : ReplayCache × Answer :=
  if a.request.url.path = "/healthz" ∨ a.request.url.path = "/readyz" then
    (cache, .next none)
  else match preflightRequest crypto m cache a with
    | (cache, .ok identity) => (cache, .next identity)
    | (cache, .error e) => (cache, .unauthorized e)

/-- The request carries `token` as a bearer token and no proof. -/
structure BearerRequest (r : Http.Request) (token : Str) : Prop where
  header : ∃ value scheme, r.header.values "Authorization" = [value] ∧
    parseAuthorization value = .ok (scheme, token) ∧ toLower scheme = "bearer"
  noProof : r.header.values "DPoP" = []

variable {crypto}

/-- A bearer token is accepted or rejected by the identity verifier. -/
theorem preflightRequest_bearer {m v a token} (cache : ReplayCache) (bearer : BearerRequest a.request token)
    (enabled : m.cfg.validatesIdentity = true) (present : m.identityVerifier = some v) :
    (preflightRequest crypto m cache a).2 = bearerResult (v.verify crypto a.discovery a.now token).result := by
  obtain ⟨_, scheme, single, parsed, lower⟩ := bearer.header
  have noProof : dpopProofHeader a.request = .ok none := by
    simp [dpopProofHeader, bearer.noProof]
  have notDpop : ¬ toLower scheme = "dpop" := by
    rw [lower]
    decide
  simp [preflightRequest, single, parsed, noProof, if_neg notDpop, if_pos lower, enabled, present]

/-- What the life of a token asks of a request with it: it is not accepted after its expiry and the
clock skew, and with acceptable parties it is not rejected for its `iat` between `iat` and expiry. -/
structure FollowsClock (crypto : Crypto) (m : Middleware) (cache : ReplayCache) (a : Arrival)
    (opts : IdentityValidationOptions) (claims : IdentityClaims) : Prop where
  expiry : ∀ identity, (preflightRequest crypto m cache a).2 = .ok identity →
    a.now ≤ (Time.unix claims.expiresAt).add opts.skew
  issued : ∀ parties, checkParties claims opts = .ok parties →
    Time.unix claims.issuedAt ≤ a.now → a.now ≤ Time.unix claims.expiresAt →
    (preflightRequest crypto m cache a).2 ≠ .error (bearerFailed issuedInFuture)

/-- The instant that claims are compared with does as well as the present one: claims that are
acceptable then have not expired now, and claims that are in their lifetime now were not issued too
far ahead of it. -/
structure InstantServes (opts : IdentityValidationOptions) (claims : IdentityClaims) (now : Time) :
    Prop where
  expiry : (∃ parties, checkParties claims opts = .ok parties) → 0 < claims.expiresAt →
    ClientOk claims → NotExpired claims opts (opts.instant now) →
    NotFuture claims opts (opts.instant now) → NotExpired claims opts now
  issued : (∃ parties, checkParties claims opts = .ok parties) → 0 < claims.expiresAt →
    NotExpired claims opts (opts.instant now) → Time.unix claims.issuedAt ≤ now →
    now ≤ Time.unix claims.expiresAt → NotFuture claims opts (opts.instant now)

/-- **Main result.** For a signed bearer token, expiry and `iat` follow the clock exactly when the
instant in the verifier's options serves for the present one. -/
theorem followsClock_iff {m : Middleware} {cache : ReplayCache} {a : Arrival} {token : Str}
    {get : Str → Option Response} {opts : IdentityValidationOptions} {claims : IdentityClaims}
    (bearer : BearerRequest a.request token) (enabled : m.cfg.validatesIdentity = true)
    (built : m.identityVerifier = some (newIdentityVerifier get opts))
    (signed : (newIdentityVerifier get opts).Signed crypto a.discovery token claims) :
    FollowsClock crypto m cache a opts claims ↔ InstantServes opts claims a.now := by
  have answer : (preflightRequest crypto m cache a).2 = bearerResult (validateIdentityClaims claims opts a.now) :=
    (preflightRequest_bearer cache bearer enabled built).trans
      (congrArg bearerResult (IdentityVerifier.verify_signed rfl signed))
  constructor
  · intro follows
    constructor
    · rintro ⟨⟨issuer, webID⟩, parties⟩ dated client fresh issued
      have valid : validateIdentityClaims claims opts a.now =
          .ok ⟨issuer, webID, _, claims.audience, unix claims.expiresAt⟩ :=
        validateIdentityClaims_eq_ok.mpr ⟨parties, dated, fresh, issued, client, rfl, rfl, rfl⟩
      rw [valid] at answer
      exact follows.expiry _ answer
    · rintro ⟨parties, acceptable⟩ dated fresh after before
      by_contra future
      rw [validateIdentityClaims_future.mpr ⟨⟨parties, acceptable⟩, dated, fresh, future⟩] at answer
      exact follows.issued parties acceptable after before answer
  · intro serves
    cases valid : validateIdentityClaims claims opts a.now with
    | ok identity =>
      rw [valid] at answer
      obtain ⟨parties, dated, fresh, issued, client, _⟩ := validateIdentityClaims_eq_ok.mp valid
      constructor
      · intro _ _
        exact serves.expiry ⟨_, parties⟩ dated client fresh issued
      · intro _ _ _ _ rejected
        rw [answer] at rejected
        cases rejected
    | error err =>
      rw [valid] at answer
      constructor
      · intro _ accepted
        rw [answer] at accepted
        cases accepted
      · intro parties acceptable after before rejected
        rw [answer] at rejected
        have cause : err = issuedInFuture := by simpa [bearerResult, bearerFailed] using rejected
        obtain ⟨_, dated, fresh, future⟩ := validateIdentityClaims_future.mp (cause ▸ valid)
        exact future (serves.issued ⟨parties, acceptable⟩ dated fresh after before)

end

open IdentityVerifier

section

attribute [local instance] Unicode.ascii

/-- The default configuration with identity validation for `https://idp.example`. -/
def sampleConfig : AuthConfig where
  identityValidationEnabled := true
  allowedIdentityIssuers := ["https://idp.example"]

def sampleRequest : Http.Request where
  method := "GET"
  url := { path := "/data" }
  header := (∅ : Http.Header).insert "Authorization" ["Bearer " ++ sampleToken "new" "https://pod.example/card#me"]

def sampleArrival (now : Time) : Arrival where
  request := sampleRequest
  now := now
  discovery := sampleDiscovery (sampleKeys "new") (sampleKeys "new")

theorem sample_bearer : BearerRequest sampleRequest (sampleToken "new" "https://pod.example/card#me") := by
  refine ⟨⟨_, "Bearer", rfl, ?_, ?_⟩, ?_⟩
  · decide +kernel
  · decide
  · decide +kernel

theorem sample_signed (start : Time) :
    (newIdentityVerifier (fun _ => none) (sampleConfig.identityOptions start)).Signed .trusting
      (sampleDiscovery (sampleKeys "new") (sampleKeys "new"))
      (sampleToken "new" "https://pod.example/card#me") sampleClaims := by
  have listed : issuerAllowed "https://idp.example" sampleConfig.allowedIdentityIssuers = true := by
    decide +kernel
  obtain ⟨jwt, claims, parsed, signature, read, _⟩ := verifyIdentityJWT_eq_ok.mp sample_verified
  have same : tokenClaims _ = .ok claims :=
    tokenClaims_eq_ok.mpr ⟨jwt, parsed, read⟩
  rw [sample_claims] at same
  cases same
  exact ⟨_, _, jwt, sample_located _ _ listed, parsed, signature, read⟩

/-- The middleware that the sample configuration gives at `start`. -/
def sampleMiddleware (start : Time) : Middleware :=
  ⟨sampleConfig, some (newIdentityVerifier (fun _ => none) (sampleConfig.identityOptions start))⟩

theorem sample_answer (start now : Time) :
    (preflightRequest .trusting (sampleMiddleware start) (new 0) (sampleArrival now)).2 =
      bearerResult (validateIdentityClaims sampleClaims (sampleConfig.identityOptions start) now) := by
  have bearer : BearerRequest (sampleArrival now).request _ := sample_bearer
  rw [preflightRequest_bearer _ bearer rfl rfl]
  exact congrArg bearerResult (verify_signed rfl (sample_signed start))

/-- Within the lifetime of a token that was issued when the middleware was built, nothing is
noticed. -/
theorem followsClock_iff_sample : FollowsClock .trusting (sampleMiddleware (Time.unix 1767225600)) (ReplayCache.new 0)
      (sampleArrival (Time.unix 1767225660))
      (sampleConfig.identityOptions (Time.unix 1767225600)) sampleClaims := by
  have bearer : BearerRequest (sampleArrival (unix 1767225660)).request _ := sample_bearer
  refine (followsClock_iff bearer rfl rfl (sample_signed _)).mpr ⟨?_, ?_⟩
  · intro _ _ _ _ _
    change _ ≤ _
    decide +kernel
  · intro _ _ _ _ _ _
    decide +kernel

/-- A middleware built when the token was issued accepts it a day after its expiry, and one built a
day before that rejects it for its `iat` a minute after it was issued. -/
theorem token_outlives_expiry :
    let start := Time.unix 1767225600
    let later := Time.unix (1767229200 + 86400)
    middlewareWithVerifier sampleConfig none (fun _ => none) start = some (sampleMiddleware start) ∧ start ≤ later ∧
      (preflightRequest .trusting (sampleMiddleware start) (ReplayCache.new 0)
        (sampleArrival later)).2 = .ok (some sampleIdentity) ∧
      ¬ FollowsClock .trusting (sampleMiddleware start) (ReplayCache.new 0) (sampleArrival later)
        (sampleConfig.identityOptions start) sampleClaims ∧
      (preflightRequest .trusting (sampleMiddleware (Time.unix (1767225600 - 86400)))
        (ReplayCache.new 0) (sampleArrival (Time.unix 1767225660))).2 = .error (bearerFailed issuedInFuture) := by
  intro start later
  have accepted : (preflightRequest .trusting (sampleMiddleware start) (new 0)
      (sampleArrival later)).2 = .ok (some sampleIdentity) := by
    rw [sample_answer]
    decide +kernel
  refine ⟨rfl, by decide, accepted, fun follows => ?_, ?_⟩
  · have expired := follows.expiry _ accepted
    exact absurd expired (by decide +kernel)
  · decide +kernel

end

end Authn
