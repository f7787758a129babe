import SolidSidecar.Authn.Middleware
import SolidSidecar.Authz.RequestBuilder
import SolidSidecar.Authz.ShadowEvaluator

/-!
# The handler chain of the gateway

`gateway.New` wraps the routes of the sidecar in one handler after another: the request id, the
checks that may answer a request by themselves, shadow authorization, and authentication. Each
handler hands the request on with the values of its context, and a handler sees only the values that
the handlers around it have put there. Authorization is wrapped around authentication, so the
requester it reads is never the one that authentication finds (`carriesIdentity_iff`).
-/

namespace Gateway
open Go Authz Authn
open Authn (TrustedIdentity Answer Arrival ReplayCache AuthConfig)

inductive Event where
  | buildFailed (reason : String)
  | evaluated (request : Request) (outcome : Except String Decision)
  | authenticated (identity : Option TrustedIdentity)
  | refused (status : Nat)
  | served (ctx : Context)

/-- A request as it arrives: the circumstances that authentication reads, the id that `newRequestID`
draws (32 hexadecimal digits, or the instant), and the order of `range`. -/
structure Visit where
  arrival : Arrival
  freshID : { id : Str // id ≠ [] }
  order : RangeOrder (Str × Str) := default

def Visit.request (v : Visit) : Http.Request := v.arrival.request

def Visit.withHeader (v : Visit) (header : Http.Header) : Visit :=
  { v with arrival := { v.arrival with request := { v.request with header := header } } }

/-- A handler: what it does with a request under a context, and the replay cache afterwards. -/
abbrev Handler := Context → Visit → ReplayCache → ReplayCache × List Event

/-- The events of a handler after one of the handler around it. -/
def after (events : List Event) (result : ReplayCache × List Event) : ReplayCache × List Event :=
  (result.1, events ++ result.2)

/-- The routes: health checks, the SAI endpoints and the proxy. -/
def mux : Handler := fun ctx _ cache => (cache, [.served ctx])

/-- `authn.Middleware` around `next`, for any way to answer a request: `Authn.Middleware.serve`, or
the same with another verification of tokens. The identity goes into the context of `next`. -/
def authnMiddleware (preflightEnabled : Bool)
    (authenticate : ReplayCache → Arrival → ReplayCache × Answer) (next : Handler) : Handler :=
  fun ctx v cache =>
    if !preflightEnabled then next ctx v cache
    else match authenticate cache v.arrival with
      | (cache, .next none) => after [.authenticated none] (next ctx v cache)
      | (cache, .next (some identity)) =>
        after [.authenticated (some identity)] (next { ctx with identity := some identity } v cache)
      | (cache, .unauthorized _) => (cache, [.refused 401])

/-- `authz.Evaluator` under the context of a request. -/
abbrev Evaluator := Request → Except String Decision

/-- A decision that is used: one without an error that passes validation. -/
def usable (outcome : Except String Decision) : Bool :=
  match outcome with
  | .ok decision => (validateDecision decision).isOk
  | .error _ => false

/-- The evaluations of a request: the evaluator, and the fallback where its outcome is not usable. -/
def evaluations (evaluator : Evaluator) (fallback : Option Evaluator) (request : Request) : List Event :=
  .evaluated request (evaluator request) ::
    if usable (evaluator request) then []
    else match fallback with
      | none => []
      | some fallback => [.evaluated request (fallback request)]

/-- `authz.Middleware` around `next`: shadow evaluation, after which the request is passed on in
every case. -/
def authzMiddleware [Unicode] (parseMediaType : Str → Option (Str × List (Str × Str)))
    (sha256 : Str → Str) (options : BuildOptions) (evaluator : Evaluator)
    (fallback : Option Evaluator) (next : Handler) : Handler := fun ctx v cache =>
  let options := if ctx.policyDocuments = [] then options
    else { options with policyDocuments := ctx.policyDocuments }
  match buildRequest parseMediaType sha256 v.order ctx v.request options v.arrival.now with
  | .error reason => after [.buildFailed reason] (next ctx v cache)
  | .ok request => after (evaluations evaluator fallback request) (next ctx v cache)

def sanitizeRequestID (value : Str) : Str :=
  let value := Strings.trimSpace value
  if value.length > 128 then []
  else if Strings.containsAny value Authn.lineBreaks then []
  else value

def requestID (next : Handler) : Handler := fun ctx v cache =>
  let given := sanitizeRequestID (v.request.header.get "X-Request-ID")
  next { ctx with requestID := if given = [] then v.freshID.val else given } v cache

/-- A handler that answers a request by itself or passes it on, with its headers perhaps rewritten
and its context as it was: `RejectUnsafeRequests`, the origin policy, the rate limit and
compression. -/
abbrev Screen := Http.Request → Except Nat Http.Header

def Screen.around (screen : Screen) (next : Handler) : Handler := fun ctx v cache =>
  match screen v.request with
  | .error status => (cache, [.refused status])
  | .ok header => next ctx (v.withHeader header) cache

inductive EvaluatorKind where
  | shadow
  | externalCLI
  | other (name : String)
  deriving DecidableEq, Repr

/-- The parts of the configuration that the chain depends on. -/
structure Config where
  auth : AuthConfig
  shadowEnabled : Bool := false
  authzPublicBaseURL : Str := []
  evaluator : EvaluatorKind := .shadow

/-- What the chain is built from besides the configuration. -/
structure Parts where
  parseMediaType : Str → Option (Str × List (Str × Str))
  sha256 : Str → Str
  external : Evaluator
  screens : List Screen

def Parts.shadow (parts : Parts) : Evaluator := ShadowEvaluator.evaluate parts.sha256 none

def newAuthzEvaluator (parts : Parts) : EvaluatorKind → Except String Evaluator
  | .shadow => .ok parts.shadow
  | .externalCLI => .ok parts.external
  | .other name => .error ("unsupported authz evaluator " ++ name)

def newAuthzFallbackEvaluator (parts : Parts) : EvaluatorKind → Option Evaluator
  | .externalCLI => some parts.shadow
  | .shadow | .other _ => none

section

variable [Unicode]

/-- Shadow authorization around `inner`, where it is enabled. -/
def shadowed (cfg : Config) (parts : Parts) (inner : Handler) : Except String Handler :=
  if !cfg.shadowEnabled then .ok inner
  else (newAuthzEvaluator parts cfg.evaluator).map fun evaluator =>
    authzMiddleware parts.parseMediaType parts.sha256 { publicBaseURL := cfg.authzPublicBaseURL }
      evaluator (newAuthzFallbackEvaluator parts cfg.evaluator) inner

def chain (cfg : Config) (parts : Parts)
    (authenticate : ReplayCache → Arrival → ReplayCache × Answer) : Except String Handler := do
  let inner ← shadowed cfg parts (authnMiddleware cfg.auth.preflightEnabled authenticate mux)
  return requestID (parts.screens.foldr Screen.around inner)

def new (cfg : Config) (parts : Parts) (crypto : Authn.Crypto)
    (get : Str → Option Authn.Response) (start : Time) : Except String Handler :=
  chain cfg parts fun cache arrival =>
    match Authn.middlewareWithVerifier cfg.auth none get start with
    | none => (cache, .next none)
    | some m => m.serve crypto cache arrival

/-- The answer to a request, under the empty context of the server. -/
def Handler.events (handler : Handler) (v : Visit) (cache : ReplayCache) : List Event :=
  (handler {} v cache).2

/-- The requester in every evaluated request is `identity`. -/
def CarriesIdentity (identity : TrustedIdentity) (events : List Event) : Prop :=
  ∀ request outcome, .evaluated request outcome ∈ events →
    request.agentWebID = identity.webID ∧ request.clientID = identity.clientID ∧ request.issuer = identity.issuer

omit [Unicode] in
theorem authn_evaluates_nothing {enabled : Bool}
    {authenticate : ReplayCache → Arrival → ReplayCache × Answer} {ctx : Context} {v : Visit}
    {cache : ReplayCache} {request : Request} {outcome : Except String Decision} :
    .evaluated request outcome ∉ (authnMiddleware enabled authenticate mux ctx v cache).2 := by
  unfold authnMiddleware
  split
  · simp [mux]
  · split <;> simp [after, mux]

omit [Unicode] in
/-- A request passes the screens with its headers rewritten, or one of them answers it. -/
theorem screens_pass (screens : List Screen) (inner : Handler) (ctx : Context) (v : Visit) (cache : ReplayCache) :
    (∃ header, screens.foldr Screen.around inner ctx v cache = inner ctx (v.withHeader header) cache) ∨
      ∃ status, (screens.foldr Screen.around inner ctx v cache).2 = [.refused status] := by
  induction screens generalizing v with
  | nil => exact .inl ⟨v.request.header, rfl⟩
  | cons screen rest ih =>
    simp only [List.foldr_cons, Screen.around]
    cases screen v.request with
    | error status => exact .inr ⟨status, rfl⟩
    | ok header => exact ih (v.withHeader header)

omit [Unicode] in
theorem requestID_ne_nil (v : Visit) (given : Str) : (if given = [] then v.freshID.val else given) ≠ [] := by
  by_cases absent : given = []
  · rw [if_pos absent]
    exact v.freshID.property
  · rwa [if_neg absent]

variable {parseMediaType : Str → Option (Str × List (Str × Str))} {sha256 : Str → Str}
  {base : Str} {evaluator : Evaluator} {fallback : Option Evaluator} {inner : Handler}
  {ctx : Context} {v : Visit} {cache : ReplayCache}

/-- Under a context with an id, without an identity and without documents, the requests that the
authorization layer evaluates are anonymous. It evaluates one unless the request has no resource or
an unsupported method. -/
theorem authz_anonymous (identified : ctx.requestID ≠ []) (anonymous : ctx.identity = none)
    (noDocuments : ctx.policyDocuments = [])
    (quiet : ∀ request outcome, .evaluated request outcome ∉ (inner ctx v cache).2)
    {identity : TrustedIdentity} (named : identity.webID ≠ []) :
    CarriesIdentity identity (authzMiddleware parseMediaType sha256 { publicBaseURL := base }
        evaluator fallback inner ctx v cache).2 ↔
      (∃ err, resourceURIForRequest v.request base = .error err) ∨ modesForMethod v.request.method = none := by
  have id : requestIDFor ctx v.request ≠ [] := by rwa [requestIDFor, if_neg identified]
  have plain : (∃ request, buildRequest parseMediaType sha256 v.order ctx v.request
      { publicBaseURL := base } v.arrival.now = .ok request) ↔ _ := buildRequest_plain rfl rfl
  simp only [authzMiddleware, if_pos noDocuments]
  cases built : buildRequest parseMediaType sha256 v.order ctx v.request { publicBaseURL := base } v.arrival.now with
  | error reason =>
    have carries : CarriesIdentity identity (after [.buildFailed reason] (inner ctx v cache)).2 := by
      intro request outcome mem
      exact absurd (by simpa [after] using mem) (quiet request outcome)
    refine iff_of_true carries ?_
    by_contra both
    push Not at both
    obtain ⟨resource, supported⟩ := both
    have resolved : ∃ uri, resourceURIForRequest v.request base = .ok uri := by
      cases found : resourceURIForRequest v.request base with
      | ok uri => exact ⟨uri, rfl⟩
      | error err => exact absurd found (resource err)
    obtain ⟨request, made⟩ := plain.mpr ⟨id, resolved, supported⟩
    rw [made] at built
    cases built
  | ok request =>
    obtain ⟨_, ⟨uri, resource⟩, supported⟩ := plain.mp ⟨request, built⟩
    refine iff_of_false (fun carries => ?_) ?_
    · -- the evaluated request names the requester of the context, which has none
      have webID := (carries request (evaluator request) (by simp [after, evaluations])).1
      rw [(buildRequest_identity built).1, Context.identityFromContext, anonymous] at webID
      exact named webID.symm
    · rintro (⟨err, failed⟩ | unsupported)
      · rw [resource] at failed
        cases failed
      · exact supported unsupported

/-- Where shadow authorization is enabled, the chain has its layer. -/
theorem shadowed_eq_ok {cfg parts handler}
    (enabled : cfg.shadowEnabled = true) (made : shadowed cfg parts inner = .ok handler) :
    ∃ evaluator, handler = authzMiddleware parts.parseMediaType parts.sha256
      { publicBaseURL := cfg.authzPublicBaseURL } evaluator
      (newAuthzFallbackEvaluator parts cfg.evaluator) inner := by
  rw [shadowed, enabled] at made
  cases chosen : newAuthzEvaluator parts cfg.evaluator with
  | error err =>
    rw [chosen] at made
    cases made
  | ok evaluator =>
    rw [chosen] at made
    cases made
    exact ⟨evaluator, rfl⟩

/-- **Main result.** However tokens are verified, a request that is authenticated with a WebID is
evaluated with the identity of its requester exactly when it is not evaluated at all: its resource
has no URI, or its method is not supported. Every other one is evaluated as anonymous. -/
theorem carriesIdentity_iff {cfg : Config} {parts : Parts} {handler : Handler}
    {authenticate : ReplayCache → Arrival → ReplayCache × Answer}
    (enabled : cfg.shadowEnabled = true) (made : chain cfg parts authenticate = .ok handler)
    {identity : TrustedIdentity} (named : identity.webID ≠ [])
    (accepted : .authenticated (some identity) ∈ handler.events v cache) :
    CarriesIdentity identity (handler.events v cache) ↔
      (∃ err, resourceURIForRequest v.request cfg.authzPublicBaseURL = .error err) ∨
        modesForMethod v.request.method = none := by
  simp only [chain, bind_eq_ok] at made
  obtain ⟨_, layered, composed⟩ := made
  obtain ⟨_, rfl⟩ := shadowed_eq_ok enabled layered
  cases composed
  simp only [Handler.events, requestID] at accepted ⊢
  have id := requestID_ne_nil v (sanitizeRequestID (v.request.header.get "X-Request-ID"))
  rcases screens_pass parts.screens _ _ v cache with ⟨header, passed⟩ | ⟨_, answered⟩
  · rw [passed]
    exact authz_anonymous id rfl rfl (fun _ _ => authn_evaluates_nothing) named
  · rw [answered] at accepted
    simp at accepted

/-- What the inner handler does is done behind the authorization layer too. -/
theorem mem_authzMiddleware {options event} (mem : event ∈ (inner ctx v cache).2) :
    event ∈ (authzMiddleware parseMediaType sha256 options evaluator fallback inner ctx v cache).2 := by
  simp only [authzMiddleware]
  split <;> exact List.mem_append_right _ mem

end

section

attribute [local instance] Unicode.ascii

open Authn (sampleConfig sampleArrival sampleMiddleware)

def sampleGateway : Config where
  auth := sampleConfig
  shadowEnabled := true
  authzPublicBaseURL := "https://pod.example"

def sampleParts : Parts where
  parseMediaType _ := none
  sha256 := id
  external _ := .error "no command"
  screens := []

def sampleVisit : Visit where
  arrival := sampleArrival (Time.unix 1767225660)
  freshID := ⟨"0", by decide⟩

/-- The answer to the sample request, as the chain asks for it. -/
def sampleAuthenticate (cache : ReplayCache) (arrival : Arrival) : ReplayCache × Answer :=
  (sampleMiddleware (Time.unix 1767225600)).serve .trusting cache arrival

def sampleHandler : Handler :=
  requestID (authzMiddleware sampleParts.parseMediaType sampleParts.sha256
    { publicBaseURL := sampleGateway.authzPublicBaseURL } sampleParts.shadow none
    (authnMiddleware true sampleAuthenticate mux))

theorem sample_authenticated : (sampleAuthenticate (.new 0) sampleVisit.arrival).2 =
      .next (some IdentityVerifier.sampleIdentity) := by
  have accepted : (preflightRequest .trusting (sampleMiddleware (.unix 1767225600))
      (.new 0) sampleVisit.arrival).2 = .ok (some IdentityVerifier.sampleIdentity) := by
    decide +kernel
  rw [sampleAuthenticate, Middleware.serve]
  generalize preflightRequest .trusting _
    _ sampleVisit.arrival = result at accepted ⊢
  obtain ⟨_, _⟩ := result
  cases accepted
  rfl

theorem sample_accepted : .authenticated (some IdentityVerifier.sampleIdentity) ∈
      sampleHandler.events sampleVisit (.new 0) := by
  unfold sampleHandler requestID
  refine mem_authzMiddleware ?_
  simp only [authnMiddleware]
  have answer := sample_authenticated
  generalize sampleAuthenticate _ sampleVisit.arrival = result at answer ⊢
  obtain ⟨_, _⟩ := result
  cases answer
  simp [after]

theorem sample_evaluated :
    ¬ ((∃ err, resourceURIForRequest sampleVisit.request sampleGateway.authzPublicBaseURL = .error err) ∨
      modesForMethod sampleVisit.request.method = none) := by
  rintro (⟨_, failed⟩ | unsupported)
  · have resolved : (resourceURIForRequest sampleVisit.request
        sampleGateway.authzPublicBaseURL).isOk = true := by decide +kernel
    rw [failed] at resolved
    cases resolved
  · exact absurd unsupported (by decide)

/-- The sample request is authenticated, and evaluated with another requester than its own. -/
theorem carriesIdentity_iff_sample : ¬ CarriesIdentity Authn.IdentityVerifier.sampleIdentity
      (sampleHandler.events sampleVisit (ReplayCache.new 0)) := by
  have made : chain sampleGateway sampleParts sampleAuthenticate = .ok sampleHandler := rfl
  rw [carriesIdentity_iff rfl made (by decide) sample_accepted]
  exact sample_evaluated

/-- The gateway that `New` makes authenticates the request with a WebID, and evaluates it without
one. -/
theorem authenticated_evaluated_anonymous : ∃ handler,
      new sampleGateway sampleParts .trusting (fun _ => none) (Time.unix 1767225600) = .ok handler ∧
      .authenticated (some Authn.IdentityVerifier.sampleIdentity) ∈ handler.events sampleVisit (ReplayCache.new 0) ∧
      Authn.IdentityVerifier.sampleIdentity.webID ≠ [] ∧
      ¬ CarriesIdentity Authn.IdentityVerifier.sampleIdentity (handler.events sampleVisit (ReplayCache.new 0)) := by
  refine ⟨sampleHandler, rfl, sample_accepted, by decide, ?_⟩
  unfold Handler.events sampleHandler requestID
  have id := requestID_ne_nil sampleVisit (sanitizeRequestID (sampleVisit.request.header.get "X-Request-ID"))
  rw [authz_anonymous id rfl rfl (fun _ _ => authn_evaluates_nothing) (by decide)]
  exact sample_evaluated

end

end Gateway
