import SolidSidecar.Authn.DpopReplay
import SolidSidecar.Go.ResponseWriter

/-!
# Retries of the SDK's HTTP client

`HTTPClient.Do` sets the headers of a request, its DPoP proof among them, and `doWithRetry` sends that
request until an answer is final. So every attempt carries one proof (`sent_replicate`), and a sidecar
that has accepted the first attempt refuses the second.

What happens to an attempt on the way is an `Exchange`. Building and checking the URL is one partial
function, and response headers are left out.
-/

namespace Sdk
open Go List Http Authn Run

structure RequestOptions where
  timeout : Int := 0
  maxRetries : Int := 0
  retryDelay : Int := 0
  maxRetryDelay : Int := 0
  followRedirects : Bool := false

def positiveOr (value default : Int) : Int := if value > 0 then value else default

/-- `mergeOptions`, without the headers, which nothing reads. -/
def RequestOptions.merge (defaults : RequestOptions) : Option RequestOptions → RequestOptions
  | none => defaults
  | some options => {
      timeout := positiveOr options.timeout defaults.timeout
      maxRetries := positiveOr options.maxRetries defaults.maxRetries
      retryDelay := positiveOr options.retryDelay defaults.retryDelay
      maxRetryDelay := positiveOr options.maxRetryDelay defaults.maxRetryDelay
      followRedirects := options.followRedirects || defaults.followRedirects }

structure HTTPClient where
  defaultOptions : RequestOptions
  accessToken : Str
  /-- `dpopProofFunc`, by how often it was called before, the method and the URL. -/
  dpopProofFunc : Option (Nat → Str → Str → Except Str Str)

structure Request where
  method : Str
  url : Str
  header : Http.Header
  body : Str

inductive ClientError where
  | unsupportedMethod (method : Str)
  | bodyTooLarge (size : Nat)
  | url (text : Str)
  | network (text : Str)
  /-- The last error of the transport, as it is. -/
  | transport (text : Str)
  | readBody (text : Str)
  | responseTooLarge
  | context
  | exhausted (attempts : Int)
  /-- `rand.Int63n` of a number that is not positive. -/
  | panic
  deriving DecidableEq, Repr

def defaultMaxBodySize : Nat := 10 * 1024 * 1024

/-- An error of the transport; `net` is what a `net.Error` says of timeout and temporary. -/
structure TransportError where
  text : Str
  net : Option (Bool × Bool) := none

inductive Outcome where
  | failed (err : TransportError)
  | answered (status : Int) (body : Except Str Str)

/-- One attempt: its outcome, whether the context is done before the wait for the next one ends, and the
random numbers of that wait. -/
structure Exchange where
  outcome : Outcome
  contextDone : Bool := false
  jitter : Int := 0
  later : Bool := true

def retryableStrings : List Str :=
  ["Connection refused", "Connection timed out", "Temporary failure", "timeout", "reset by peer", "broken pipe"]

def isRetryableError (err : TransportError) : Bool :=
  retryableStrings.any (Strings.contains err.text) || err.net.any fun e => e.1 || e.2

def shouldRetry (statusCode : Int) : Bool :=
  (500 ≤ statusCode && statusCode < 600) || statusCode = 429 || statusCode = 408 || statusCode = 0

def calculateBackoff (attempt : Nat) (opts : RequestOptions) (x : Exchange) : Option Int :=
  let quarter := Int.tdiv opts.retryDelay 4
  if quarter ≤ 0 then none
  else
    let backoff := wrap64 (opts.retryDelay * wrap64 (2 ^ attempt))
    let jitter := x.jitter % quarter
    let backoff := if x.later then wrap64 (backoff + jitter) else max 0 (wrap64 (backoff - jitter))
    some (min backoff opts.maxRetryDelay)

abbrev Result := Except ClientError (Str × Int)

def wait (attempt : Nat) (opts : RequestOptions) (x : Exchange) (next : List Request × Result) :
    List Request × Result :=
  match calculateBackoff attempt opts x with
  | none => ([], .error .panic)
  | some _ => if x.contextDone then ([], .error .context) else next

/-- What the loop of `doWithRetry` still sends with `remaining` attempts left, and how it ends. -/
def doWithRetry (req : Request) (opts : RequestOptions) (exchanges : Nat → Exchange) :
    (remaining attempt : Nat) → (lastErr : Option Str) → List Request × Result
  | 0, _, some text => ([], .error (.transport text))
  | 0, _, none => ([], .error (.exhausted (opts.maxRetries + 1)))
  | remaining + 1, attempt, lastErr =>
    let x := exchanges attempt
    let retry lastErr := wait attempt opts x (doWithRetry req opts exchanges remaining (attempt + 1) lastErr)
    let ends := match x.outcome with
      | .failed err =>
        if isRetryableError err then
          if attempt < opts.maxRetries then retry (some err.text)
          else doWithRetry req opts exchanges remaining (attempt + 1) (some err.text)
        else ([], .error (.network err.text))
      | .answered _ (.error text) => ([], .error (.readBody text))
      | .answered status (.ok body) =>
        if body.length > defaultMaxBodySize then ([], .error .responseTooLarge)
        else if shouldRetry status = true ∧ attempt < opts.maxRetries then retry lastErr
        else ([], .ok (body, status))
    (req :: ends.1, ends.2)

section Do

variable [Unicode]

/-- The proof that is set, where the function gives one. -/
def HTTPClient.proof (c : HTTPClient) (called : Nat) (method url : Str) : Option Str :=
  (c.dpopProofFunc.bind fun f => (f called method url).toOption).filter (· ≠ [])

/-- `setHeaders`; the headers of the caller come in the order of `range`. -/
def HTTPClient.setHeaders (c : HTTPClient) (called : Nat) (headers : List (Str × Str)) (method url : Str) :
    Http.Header :=
  let h := (∅ : Http.Header).set "Accept" "text/turtle, application/ld+json, */*"
  let h := h.set "User-Agent" "SolidSidecar-Go-SDK/1.0.0"
  let h := if c.accessToken = [] then h else h.set "Authorization" ("DPoP " ++ c.accessToken)
  let h := match c.proof called method url with
    | some proof => h.set "DPoP" proof
    | none => h
  headers.foldl (fun h p => h.set p.1 p.2) h

def methods : List Str :=
  ["GET", "POST", "PUT", "DELETE", "PATCH", "HEAD", "OPTIONS"]

/-- A call of `Do`: its arguments, and how often the proof function was called before it. -/
structure DoCall where
  method : Str
  path : Str
  body : Str
  headers : List (Str × Str) := []
  options : Option RequestOptions := none
  called : Nat := 0

/-- The request of a call, up to the loop. `target` is `buildURL`, `validateURLForSSRF` and
`http.NewRequestWithContext`. -/
def HTTPClient.prepare (target : Str → Except Str Str) (c : HTTPClient) (call : DoCall) :
    Except ClientError Request :=
  let method := Strings.toUpper call.method
  if method ∉ methods then .error (.unsupportedMethod method)
  else if call.body.length > defaultMaxBodySize then .error (.bodyTooLarge call.body.length)
  else match target call.path with
    | .error text => .error (.url text)
    | .ok url => .ok ⟨method, url, c.setHeaders call.called call.headers method url, call.body⟩

/-- `Do`: the requests that are sent, and the result. -/
def HTTPClient.Do (target : Str → Except Str Str) (c : HTTPClient) (exchanges : Nat → Exchange)
    (call : DoCall) : List Request × Result :=
  match c.prepare target call with
  | .error err => ([], .error err)
  | .ok req =>
    let opts := c.defaultOptions.merge call.options
    doWithRetry req opts exchanges (opts.maxRetries + 1).toNat 0 none

end Do

def Outcome.isRetryable : Outcome → Bool
  | .failed err => isRetryableError err
  | .answered _ (.error _) => false
  | .answered status (.ok body) => body.length ≤ defaultMaxBodySize && shouldRetry status

def Exchange.isRetried (opts : RequestOptions) (attempt : Nat) (x : Exchange) : Bool :=
  attempt < opts.maxRetries && x.outcome.isRetryable && (calculateBackoff attempt opts x).isSome && !x.contextDone

/-- The requests of the loop: one, and those after it if there is a retry. -/
theorem sent_succ {req opts exchanges}
    {remaining attempt : Nat} (lastErr : Option Str) (left : (remaining + attempt : Int) = opts.maxRetries) :
    ∃ lastErr', (doWithRetry req opts exchanges (remaining + 1) attempt lastErr).1 =
      req :: if (exchanges attempt).isRetried opts attempt = true then
        (doWithRetry req opts exchanges remaining (attempt + 1) lastErr').1 else [] := by
  have waited : ∀ next, (wait attempt opts (exchanges attempt) next).1 =
      if (calculateBackoff attempt opts (exchanges attempt)).isSome = true ∧
        (exchanges attempt).contextDone = false then next.1 else [] := by
    unfold wait
    cases calculateBackoff attempt opts _ with
    | none => simp
    | some delay => cases (exchanges attempt).contextDone <;> simp
  rw [doWithRetry]
  unfold Exchange.isRetried Outcome.isRetryable
  cases (exchanges attempt).outcome with
  | failed err =>
    refine ⟨some err.text, congrArg (req :: ·) ?_⟩
    cases retryable : isRetryableError err with
    | false => simp [retryable]
    | true =>
      by_cases more : attempt < opts.maxRetries
      · simp [retryable, more, waited]
      · -- the last attempt: the loop ends with the error
        have last : remaining = 0 := by omega
        subst last
        simp [retryable, more, doWithRetry]
  | answered status body =>
    refine ⟨lastErr, congrArg (req :: ·) ?_⟩
    cases body with
    | error text => simp
    | ok body =>
      by_cases large : body.length > defaultMaxBodySize
      · simp [large, not_le.mpr large]
      by_cases again : shouldRetry status = true ∧ attempt < opts.maxRetries
      · simp [large, again, waited, Nat.le_of_not_lt large]
      · simp only [large]
        by_cases more : attempt < opts.maxRetries
        · have final : shouldRetry status = false := by simpa [more] using again
          simp [final]
        · simp [more]

theorem sent_replicate (req : Request) (opts : RequestOptions) (exchanges : Nat → Exchange)
    (remaining attempt : Nat) (lastErr : Option Str)
    (left : 0 < remaining → (remaining + attempt : Int) = opts.maxRetries + 1) :
    ∃ n, (doWithRetry req opts exchanges remaining attempt lastErr).1 = replicate n req := by
  induction remaining generalizing attempt lastErr with
  | zero => cases lastErr <;> exact ⟨0, rfl⟩
  | succ remaining ih =>
    obtain ⟨lastErr', sent⟩ := @sent_succ req opts exchanges remaining attempt lastErr (by omega)
    obtain ⟨n, later⟩ := ih (attempt + 1) lastErr' (fun _ => by omega)
    rw [sent, later]
    split_ifs
    · exact ⟨n + 1, rfl⟩
    · exact ⟨1, rfl⟩

/-- There is more than one request exactly if the first attempt is followed by another. -/
theorem sent_length_le (req : Request) (opts : RequestOptions) (exchanges : Nat → Exchange) :
    (doWithRetry req opts exchanges (opts.maxRetries + 1).toNat 0 none).1.length ≤ 1 ↔
      (exchanges 0).isRetried opts 0 = false := by
  by_cases negative : opts.maxRetries < 0
  · have none : (opts.maxRetries + 1).toNat = 0 := by omega
    rw [none]
    refine iff_of_true (by simp [doWithRetry]) ?_
    simp [Exchange.isRetried]
    omega
  · obtain ⟨n, retries⟩ := Int.eq_ofNat_of_zero_le (Int.not_lt.mp negative)
    have count : (opts.maxRetries + 1).toNat = n + 1 := by omega
    obtain ⟨lastErr, sent⟩ := @sent_succ req opts exchanges n 0 none (by simp [retries])
    rw [count, sent]
    cases retried : (exchanges 0).isRetried opts 0 with
    | false => simp
    | true =>
      have more : 0 < n := by
        simp [Exchange.isRetried] at retried
        omega
      obtain ⟨m, rfl⟩ : ∃ m, n = m + 1 := ⟨n - 1, by omega⟩
      obtain ⟨_, again⟩ := @sent_succ req opts exchanges m 1 lastErr (by rw [retries]; rfl)
      simp [again]

def Request.proof (req : Request) : Option Str := some (req.header.get "DPoP") |>.filter (· ≠ [])

/-- The last of the caller's headers that is a DPoP proof. -/
def callerProof (headers : List (Str × Str)) : Option Str :=
  (headers.reverse.find? fun p => Http.canonicalHeaderKey p.1 = str "Dpop").map (·.2)

theorem dpop_name : canonicalHeaderKey "DPoP" = "Dpop" := by decide

/-- The caller's headers are set over what is there. -/
theorem lookup_foldl_set (headers : List (Str × Str)) (h : Header) :
    (headers.foldl (fun h p => h.set p.1 p.2) h).lookup (str "Dpop") =
      ((callerProof headers).map fun proof => [proof]).or (h.lookup (str "Dpop")) := by
  induction headers using reverseRecOn with
  | nil => simp [callerProof]
  | append_singleton headers p ih =>
    rw [foldl_append, foldl_cons, foldl_nil, Header.lookup_set rfl, ih]
    simp only [callerProof]
    by_cases here : canonicalHeaderKey p.1 = "Dpop"
    · simp [here]
    · simp [here, Ne.symm here]

section Fits

variable [Unicode]

/-- The proof of a request: the caller's, or that of the proof function. -/
theorem proof_prepared {target} {c : HTTPClient} {call req} (prepared : c.prepare target call = .ok req) :
    req.proof = ((callerProof call.headers).or (c.proof call.called req.method req.url)).filter (· ≠ []) := by
  have header : req.header = c.setHeaders call.called call.headers req.method req.url := by
    unfold HTTPClient.prepare at prepared
    simp only at prepared
    split_ifs at prepared
    split at prepared
    · cases prepared
    · cases prepared
      rfl
  have found : req.header.lookup (str "Dpop") =
      ((callerProof call.headers).or (c.proof call.called req.method req.url)).map fun proof => [proof] := by
    rw [header, HTTPClient.setHeaders, lookup_foldl_set]
    cases callerProof call.headers with
    | some proof => rfl
    | none =>
      cases c.proof call.called req.method req.url with
      | some proof => simp [Header.lookup_set dpop_name]
      | none =>
        by_cases empty : c.accessToken = []
        · simp only [empty]
          decide
        · simp only [empty, if_false]
          rw [Header.lookup_set rfl, if_neg (by decide)]
          decide
  rw [Request.proof, Header.get, Header.values, dpop_name, found]
  cases (callerProof call.headers).or _ <;> simp

/-- A sidecar refuses one of the proofs as a replay of an earlier one that it has accepted. -/
def OwnReplay (crypto : Authn.Crypto) (cfg : Authn.AuthConfig) (cache : Authn.ReplayCache)
    (calls : List Authn.DPoPCall) (proofs : List Str) : Prop :=
  ∃ first again, [first, again].Sublist (Run.trace (Authn.verifyRequest crypto cfg) cache calls) ∧
    [first.1.proof, again.1.proof].Sublist proofs ∧
    Authn.proofId first.1.proof = Authn.proofId again.1.proof ∧
    first.2 = .ok () ∧ again.2 = .error (Authn.newError "DPoP proof replay detected")

/-- The attempts of a call fit a server that remembers proofs: no two carry the same one, and whatever
a sidecar verifies, it refuses none as a replay of another. -/
structure Fits (sent : List Request) : Prop where
  distinct : (sent.filterMap Request.proof).Nodup
  accepted : ∀ crypto cfg cache calls, ¬ OwnReplay crypto cfg cache calls (sent.filterMap Request.proof)

theorem fits_of_length_le {sent} (few : (sent.filterMap Request.proof).length ≤ 1) : Fits sent := by
  constructor
  · match sent.filterMap Request.proof, few with
    | [], _ => exact nodup_nil
    | [proof], _ => exact nodup_singleton proof
  · rintro _ - - - ⟨_, _, _, both, _⟩
    have longer := both.length_le
    simp at longer
    omega

/-- **Main result.** The attempts fit exactly if the call carries no proof or is not retried. -/
theorem fits_iff (target : Str → Except Str Str) (c : HTTPClient) (exchanges : Nat → Exchange) (call : DoCall) :
    Fits (c.Do target exchanges call).1 ↔ ∀ req, c.prepare target call = .ok req →
        ((callerProof call.headers).or (c.proof call.called req.method req.url)).filter (· ≠ []) = none ∨
          (exchanges 0).isRetried (c.defaultOptions.merge call.options) 0 = false := by
  unfold HTTPClient.Do
  cases prepared : c.prepare target call with
  | error err =>
    refine iff_of_true (fits_of_length_le (by simp)) ?_
    intro req other
    cases other
  | ok req =>
    set opts := c.defaultOptions.merge call.options
    obtain ⟨_, sent⟩ := sent_replicate req opts exchanges (opts.maxRetries + 1).toNat 0 none (fun _ => by omega)
    have few := sent_length_le req opts exchanges
    simp only [sent, length_replicate] at few ⊢
    have given := proof_prepared prepared
    constructor
    · intro fits other same
      cases same
      rw [← given, ← few]
      cases carried : req.proof with
      | none => exact .inl rfl
      | some proof =>
        have once := fits.distinct
        rw [filterMap_replicate_of_some carried, nodup_replicate] at once
        exact .inr once
    · intro kept
      apply fits_of_length_le
      rcases kept req rfl with none | single
      · rw [← given] at none
        simp [none]
      · exact (length_filterMap_le _ _).trans (by simpa using few.mpr single)

/-- Two calls of the proof function never give proofs with one identifier. -/
def HTTPClient.FreshProofs (c : HTTPClient) : Prop :=
  ∀ f ∈ c.dpopProofFunc, ∀ n m method method' url url' proof proof', f n method url = .ok proof →
    f m method' url' = .ok proof' → n ≠ m → Authn.proofId proof ≠ Authn.proofId proof'

end Fits

section Sample

attribute [local instance] Unicode.ascii

def sampleClient : HTTPClient where
  defaultOptions := { timeout := 30, maxRetries := 3, retryDelay := 1000, maxRetryDelay := 30000 }
  accessToken := []
  dpopProofFunc := some fun n _ _ => if n = 0 then .ok Authn.sampleProof else .error "no key"

/-- The first answer is 503; then the request succeeds. -/
def serviceUnavailable : Nat → Exchange
  | 0 => { outcome := .answered 503 (.ok []) }
  | _ => { outcome := .answered 200 (.ok []) }

/-- What the client sends for a `GET` that meets these answers. -/
def sampleSent : List Request :=
  (sampleClient.Do .ok serviceUnavailable
    { method := str "GET", path := str "https://pod.example/data", body := [] }).1

/-- The `GET` is retried with the proof it had. The sidecar has accepted that proof at the first
attempt, and refuses it a second later. -/
theorem retry_refused : sampleClient.FreshProofs ∧
      sampleSent.filterMap Request.proof = [Authn.sampleProof, Authn.sampleProof] ∧
      OwnReplay Authn.Crypto.trusting {} (Authn.ReplayCache.new 0) [Authn.sampleCall 0, Authn.sampleCall 1]
        (sampleSent.filterMap Request.proof) ∧
      ¬ Fits sampleSent := by
  have sent : sampleSent.filterMap Request.proof = [sampleProof, sampleProof] := by
    decide +kernel
  refine ⟨?_, sent, ?_, fun fits => ?_⟩
  · rintro _ ⟨⟩ n _ _ _ _ _ proof _ first second apart
    beta_reduce at first second
    by_cases zero : n = 0
    · rw [if_neg (zero ▸ apart.symm)] at second
      cases second
    · rw [if_neg zero] at first
      cases first
  · have accepted : (verifyRequest .trusting {} (.new 0) (sampleCall 0)).2 = .ok () := by decide +kernel
    have refused : (verifyRequest .trusting {} (verifyRequest .trusting {} (.new 0) (sampleCall 0)).1
        (sampleCall 1)).2 = .error (newError "DPoP proof replay detected") := by
      decide +kernel
    refine ⟨(sampleCall 0, .ok ()), (sampleCall 1, .error _), ?_, .refl _, rfl, rfl, rfl⟩
    rw [trace, trace, trace, accepted, refused]
  · have once := fits.distinct
    rw [sent] at once
    simp at once

end Sample

end Sdk
