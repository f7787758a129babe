import SolidSidecar.Runtime.Storage

/-!
# Conditional writes over a network that loses responses

`StorageAbstractionLayer.PutConditional` with an HTTP backend. The attempts of one call meet a server
that other clients use too: `Exchange` says, for each attempt, what happens before the request arrives,
whether it arrives, whether the server applies it, and whether its reply comes back. An attempt whose
reply is lost is made again, and is then judged against what the first one left.

The waiting times between attempts, metrics and logs are left out; a context that ends while a retry
waits is part of the schedule.
-/

namespace Runtime
open Go Url

structure HttpRequest where
  url : Str
  header : List (Str × Str)
  body : Str
  deriving DecidableEq, Repr

/-- What the standard library adds: the names of status codes, and what `Client.Do` reports of a request
that it does not send, such as one with a malformed header. -/
structure HttpLibrary where
  statusText : Int → String
  unsent : HttpRequest → Option TransportError

structure HTTPStorageBackend where
  baseURL : Str
  closed : Bool := false

namespace HTTPStorageBackend

def buildURL (h : HTTPStorageBackend) (uri : Str) : Except StorageError Str := do
  let parsed ← (Url.parse h.baseURL).mapError .parse
  let resourceURL ← (Url.parse uri).mapError .parse
  .ok { parsed with path := resourceURL.path }.string

/-- Two resources are apart under a base with a host unless their decoded paths are the same: an escaped slash and
the query are lost. -/
theorem buildURL_separates_iff (h : HTTPStorageBackend) {base u v : Url.URL} {s t : Str}
    (parsed : Url.parse h.baseURL = .ok base) (hosted : base.host ≠ []) (first : Url.parse s = .ok u)
    (second : Url.parse t = .ok v) (absolute : u.scheme ≠ []) (absolute' : v.scheme ≠ []) :
    (h.buildURL s = h.buildURL t → u.escapedPath = v.escapedPath ∧ u.rawQuery = v.rawQuery) ↔
      (u.path = v.path → u.escapedPath = v.escapedPath ∧ u.rawQuery = v.rawQuery) := by
  have built {uri w} (found : parse uri = .ok w) : h.buildURL uri = .ok { base with path := w.path }.string := by
    simp only [buildURL, parsed, found]
    rfl
  rw [built first, built second]
  have injective : { base with path := u.path }.string = { base with path := v.path }.string → u.path = v.path :=
    have ⟨⟨_, raw⟩, hierarchical⟩ := rooted_of_parse parsed (.inr hosted)
    string_inj hosted (hierarchical hosted) raw (rooted_of_parse first (.inl absolute)).1.1
      (rooted_of_parse second (.inl absolute')).1.1
  constructor
  · intro apart same
    exact apart (by rw [same])
  · intro apart same
    exact apart (injective (Except.ok.inj same))

/-- The same path on two hosts is the same path below the base. -/
theorem buildURL_separates_iff_plain :
    let u : Url.URL := { scheme := str "https", host := str "h", path := str "/a" }
    let v : Url.URL := { scheme := str "https", host := str "g", path := str "/a" }
    buildURL ⟨str "https://b", false⟩ (str "https://h/a") = buildURL ⟨str "https://b", false⟩ (str "https://g/a") ∧
      u.escapedPath = v.escapedPath ∧ u.rawQuery = v.rawQuery := by
  intro u v
  have same : buildURL ⟨str "https://b", false⟩ (str "https://h/a") = buildURL ⟨str "https://b", false⟩ (str "https://g/a") := by
    decide +kernel
  exact ⟨same, (@buildURL_separates_iff ⟨"https://b", false⟩ { scheme := "https", host := "b" } u v _ _
    (by decide +kernel) (by decide) (by decide +kernel) (by decide +kernel) (by decide) (by decide)).mpr
      (fun _ => ⟨rfl, rfl⟩) same⟩

/-- A name with an escaped slash is that of another resource. -/
theorem buildURL_merges : buildURL ⟨str "https://b", false⟩ (str "https://h/a%2Fb") =
      buildURL ⟨str "https://b", false⟩ (str "https://h/a/b") ∧
    (Url.parse (str "https://h/a%2Fb")).map Url.URL.escapedPath = .ok (str "/a%2Fb") ∧
    (Url.parse (str "https://h/a/b")).map Url.URL.escapedPath = .ok (str "/a/b") := by
  decide +kernel

def preconditionHeaders (p : StoragePreconditions) : List (Str × Str) :=
  p.ifMatch.map (fun value => (str "If-Match", value)) ++ p.ifNoneMatch.map fun value => (str "If-None-Match", value)

def putRequest (h : HTTPStorageBackend) (uri : Str) (r : StorageResource) (p : StoragePreconditions) :
    Except StorageError HttpRequest := do
  refuse (h.closed = true) (.text "HTTP backend is closed")
  let url ← h.buildURL uri
  let _ ← (Url.parse url).mapError .parse
  let contentType := if r.contentType = [] then [] else [(str "Content-Type", r.contentType)]
  .ok ⟨url, contentType ++ preconditionHeaders p, r.body⟩

/-- What `PutConditional` makes of a response, or of the lack of one. -/
def putOutcome (library : HttpLibrary) : Except TransportError Int → Except StorageError Unit
  | .error err => .error (.transport err)
  | .ok status =>
    if status = 412 then .error (.errorf "%w: HTTP %d" .preconditionFailed)
    else if status < 200 ∨ status ≥ 300 then .error (.httpError status (library.statusText status))
    else .ok ()

end HTTPStorageBackend

/-- A server: the validator of the resource in each of its states, and what it does with a request that
it applies. -/
structure Server (σ : Type) where
  current : σ → Option Str
  store : σ → HttpRequest → σ

/-- The verdict of a server on preconditions, by the validator of the resource; a request without any
passes. -/
structure Verdict where
  admits : StoragePreconditions → Option Str → Bool
  unconditional : ∀ current, admits {} current = true

inductive Reply where
  | status (code : Int) (other : code ≠ 412)
  | lost (err : TransportError)

/-- What becomes of one attempt: it does not arrive, it is turned away unread, or it is judged. -/
inductive Fate where
  | undelivered (err : TransportError)
  | turnedAway (code : Int) (other : code ≠ 412)
  | served (applies : Bool) (reply : Reply)

/-- One attempt: what other clients do to the server before it, whether the context ends instead, and
what becomes of it. -/
structure Exchange (σ : Type) where
  meanwhile : σ → σ := id
  done : Option TransportError := none
  fate : Fate

/-- The server, and whether it has applied the body of the call. -/
structure World (σ : Type) where
  state : σ
  applied : Bool := false

namespace Server

variable {σ : Type} (server : Server σ) (verdict : Verdict)

/-- A delivered request: judged and, if it passes, applied, in one step. -/
def serve (p : StoragePreconditions) (request : HttpRequest) (applies : Bool) (reply : Reply)
    (w : World σ) : World σ × Except TransportError Int :=
  if verdict.admits p (server.current w.state) then
    let w := if applies then ⟨server.store w.state request, true⟩ else w
    match reply with
    | .status code _ => (w, .ok code)
    | .lost err => (w, .error err)
  else
    match reply with
    | .status _ _ => (w, .ok 412)
    | .lost err => (w, .error err)

def roundTrip (library : HttpLibrary) (p : StoragePreconditions) (request : HttpRequest)
    (exchange : Exchange σ) (w : World σ) : World σ × Except TransportError Int :=
  let w := { w with state := exchange.meanwhile w.state }
  match library.unsent request with
  | some err => (w, .error err)
  | none =>
    match exchange.fate with
    | .undelivered err => (w, .error err)
    | .turnedAway code _ => (w, .ok code)
    | .served applies reply => server.serve verdict p request applies reply w

end Server

inductive StorageBackend where
  | http (backend : HTTPStorageBackend)
  | unconditional

structure StorageAbstractionLayer where
  maxRetries : Int
  defaultBackend : Str
  backends : GoMap Str StorageBackend
  closed : Bool := false

namespace StorageAbstractionLayer

def shouldRetry : StorageError → Bool
  | .transport .timeout => true
  | .transport .contextDeadlineExceeded => true
  | .transport .eof => true
  | .transport .unexpectedEOF => true
  | .httpError statusCode _ => 500 ≤ statusCode && statusCode < 600
  | .errorf _ cause => shouldRetry cause
  | _ => false

section Retry

variable {σ : Type} (done : Nat → Option TransportError) (fn : Nat → World σ → World σ × Except StorageError Unit)

/-- The loop of `doWithRetry` with a number of attempts left; no error is left of no attempt. -/
def attempts : (left attempt : Nat) → (lastErr : Option StorageError) → World σ → World σ × Except StorageError Unit
  | 0, _, none, w => (w, .error (.text "max retries exceeded: %!w(<nil>)"))
  | 0, _, some lastErr, w => (w, .error (.errorf "max retries exceeded: %w" lastErr))
  | left + 1, attempt, _, w =>
    match if attempt = 0 then none else done attempt with
    | some err => (w, .error (.errorf "context cancelled: %w" (.transport err)))
    | none =>
      match fn attempt w with
      | (w, .ok ()) => (w, .ok ())
      | (w, .error err) =>
        if shouldRetry err then attempts left (attempt + 1) (some err) w else (w, .error err)

end Retry

def doWithRetry {σ : Type} (s : StorageAbstractionLayer) (done : Nat → Option TransportError)
    (fn : Nat → World σ → World σ × Except StorageError Unit) (w : World σ) :
    World σ × Except StorageError Unit :=
  attempts done fn (s.maxRetries + 1).toNat 0 none w

/-- The checks of `PutConditional`, and the backend that it finds. -/
def checkPut (s : StorageAbstractionLayer) (uri : Str) (r : StorageResource) :
    Except StorageError StorageBackend := do
  (validateURI uri).mapError fun err => .errorf "invalid URI: %w" (.validation err)
  (validateResourceSize r.body.length).mapError fun err =>
    .errorf "resource validation failed: %w" (.validation err)
  refuse (s.closed = true) (.text "storage layer is closed")
  orError (.text "default backend %q not found") (s.backends.lookup s.defaultBackend)

variable {σ : Type} (library : HttpLibrary) (server : Server σ) (verdict : Verdict)

def httpAttempt (h : HTTPStorageBackend) (uri : Str) (r : StorageResource) (p : StoragePreconditions)
    (schedule : Nat → Exchange σ) (attempt : Nat) (w : World σ) :
    World σ × Except StorageError Unit :=
  match h.putRequest uri r p with
  | .error err => (w, .error err)
  | .ok request =>
    ((server.roundTrip verdict library p request (schedule attempt) w).1, HTTPStorageBackend.putOutcome library
        (server.roundTrip verdict library p request (schedule attempt) w).2)

def putConditional (s : StorageAbstractionLayer) (uri : Str) (r : StorageResource)
    (p : StoragePreconditions) (schedule : Nat → Exchange σ) (w : World σ) :
    World σ × Except StorageError Unit :=
  match s.checkPut uri r with
  | .error err => (w, .error err)
  | .ok .unconditional => (w, .error (.errorf "%w: backend %q" .conditionalUnsupported))
  | .ok (.http h) =>
    s.doWithRetry (fun attempt => (schedule attempt).done) (httpAttempt library server verdict h uri r p schedule) w

/-- The request that a call sends at each attempt, if it sends one. -/
def sent (s : StorageAbstractionLayer) (uri : Str) (r : StorageResource) (p : StoragePreconditions) :
    Option HttpRequest :=
  match s.checkPut uri r with
  | .ok (.http h) =>
    match h.putRequest uri r p with
    | .ok request => if (library.unsent request).isSome then none else some request
    | .error _ => none
  | _ => none

/-- When the call reports that the precondition has failed, the server has not applied its body. -/
def FailsClean (s : StorageAbstractionLayer) (uri : Str) (r : StorageResource)
    (p : StoragePreconditions) (schedule : Nat → Exchange σ) (state : σ) : Prop :=
  ∀ err, (s.putConditional library server verdict uri r p schedule ⟨state, false⟩).2 = .error err →
    err.isPreconditionFailed = true →
    (s.putConditional library server verdict uri r p schedule ⟨state, false⟩).1.applied = false

variable {err : StorageError} {p : StoragePreconditions}

/-- An error that is worth a retry is no failed precondition. -/
theorem not_failed_of_shouldRetry (again : shouldRetry err = true) : err.isPreconditionFailed = false := by
  induction err with
  | errorf format cause ih => exact ih again
  | preconditionFailed => cases again
  | _ => rfl

variable {library server verdict}

theorem serve_cases {request applies reply w} : ((server.serve verdict p request applies reply w).2 = .ok 412 →
        verdict.admits p (server.current w.state) = false ∧
          (server.serve verdict p request applies reply w).1.applied = w.applied) ∧
      ((server.serve verdict p request applies reply w).1.applied = true →
        w.applied = true ∨ verdict.admits p (server.current w.state) = true) := by
  unfold Server.serve
  cases verdict.admits p _ with
  | true =>
    refine ⟨fun failed => ?_, fun _ => .inr rfl⟩
    cases reply with
    | status code other => exact absurd (Except.ok.inj failed) other
    | lost err => cases failed
  | false =>
    cases reply <;> exact ⟨fun _ => ⟨rfl, rfl⟩, fun applied => .inl applied⟩

/-- A failed precondition is reported only where the server says so. -/
theorem status_of_failed {answer} (outcome : HTTPStorageBackend.putOutcome library answer = .error err)
    (failed : err.isPreconditionFailed = true) : answer = .ok 412 := by
  unfold HTTPStorageBackend.putOutcome at outcome
  split at outcome
  · cases outcome
    cases failed
  · split at outcome
    · rename_i status
      rw [status]
    · split at outcome
      · cases outcome
        cases failed
      · cases outcome

/-- What keeps a request from being made is no failed precondition. -/
theorem putRequest_error {h : HTTPStorageBackend} {uri r} (refused : h.putRequest uri r p = .error err) :
    err.isPreconditionFailed = false := by
  unfold HTTPStorageBackend.putRequest HTTPStorageBackend.buildURL at refused
  simp only [bind_eq_error, refuse_eq_error, mapError_eq_error, reduceCtorEq, and_false, exists_false,
    or_false] at refused
  rcases refused with ⟨-, rfl⟩ | ⟨⟨⟩, -, (⟨_, -, rfl⟩ | ⟨_, -, _, -, rfl⟩) | ⟨_, -, _, -, rfl⟩⟩
  all_goals rfl

section Attempt

variable {h : HTTPStorageBackend} {uri : Str} {r : StorageResource} {p : StoragePreconditions}
  {schedule : Nat → Exchange σ} {attempt : Nat} {w : World σ}

/-- An attempt that reports a failed precondition was judged and left alone. -/
theorem httpAttempt_failed {err}
    (outcome : (httpAttempt library server verdict h uri r p schedule attempt w).2 = .error err)
    (failed : err.isPreconditionFailed = true) :
    (∃ current, verdict.admits p current = false) ∧
      (httpAttempt library server verdict h uri r p schedule attempt w).1.applied = w.applied := by
  unfold httpAttempt at outcome ⊢
  cases made : h.putRequest uri r p with
  | error refused =>
    rw [made] at outcome
    cases outcome
    rw [putRequest_error made] at failed
    cases failed
  | ok request =>
    rw [made] at outcome
    have status := status_of_failed outcome failed
    simp only
    unfold Server.roundTrip at status ⊢
    split at status
    · cases status
    · split at status
      · cases status
      · rename_i other _
        exact absurd (Except.ok.inj status) other
      · obtain ⟨refused, kept⟩ := serve_cases.1 status
        exact ⟨⟨_, refused⟩, kept⟩

/-- An attempt that is applied was sent, and passed. -/
theorem httpAttempt_applied
    (applied : (httpAttempt library server verdict h uri r p schedule attempt w).1.applied = true) :
    w.applied = true ∨ (∃ current, verdict.admits p current = true) ∧
      ∃ request, h.putRequest uri r p = .ok request ∧ library.unsent request = none := by
  unfold httpAttempt at applied
  cases made : h.putRequest uri r p with
  | error refused =>
    rw [made] at applied
    exact .inl applied
  | ok request =>
    rw [made] at applied
    simp only at applied
    unfold Server.roundTrip at applied
    split at applied
    · exact .inl applied
    · rename_i free
      split at applied
      · exact .inl applied
      · exact .inl applied
      · rcases serve_cases.2 applied with before | passes
        · exact .inl before
        · exact .inr ⟨⟨_, passes⟩, request, rfl, free⟩

end Attempt

section Attempts

variable {done : Nat → Option TransportError} {fn : Nat → World σ → World σ × Except StorageError Unit}

theorem attempts_inv (Inv : World σ → Prop) (keep : ∀ attempt w, Inv w → Inv (fn attempt w).1)
    (left attempt : Nat) (lastErr : Option StorageError) {w} (start : Inv w) :
    Inv (attempts done fn left attempt lastErr w).1 := by
  induction left generalizing attempt lastErr w with
  | zero =>
    cases lastErr <;> exact start
  | succ left ih =>
    have next := keep attempt w start
    rw [attempts]
    split
    · exact start
    · generalize fn attempt w = result at next ⊢
      rcases result with ⟨_, err | _⟩
      · simp only
        split
        · exact ih (attempt + 1) (some err) next
        · exact next
      · exact next

variable {err : StorageError}

/-- If no attempt reports a failed precondition, then the loop reports none. -/
theorem attempts_error (clean : ∀ attempt w err, (fn attempt w).2 = .error err →
      err.isPreconditionFailed = false) (left attempt : Nat) {lastErr}
    (last : ∀ err, lastErr = some err → err.isPreconditionFailed = false) {w}
    (outcome : (attempts done fn left attempt lastErr w).2 = .error err) :
    err.isPreconditionFailed = false := by
  induction left generalizing attempt lastErr w with
  | zero =>
    cases lastErr with
    | none =>
      cases outcome
      rfl
    | some before =>
      cases outcome
      exact last before rfl
  | succ left ih =>
    have reported := clean attempt w
    rw [attempts] at outcome
    split at outcome
    · cases outcome
      rfl
    · generalize fn attempt w = result at reported outcome
      rcases result with ⟨_, before | _⟩
      · simp only at outcome
        split at outcome
        · exact ih (attempt + 1) (by rintro _ ⟨⟩; exact reported before rfl) outcome
        · obtain rfl := Except.error.inj outcome
          exact reported _ rfl
      · cases outcome

/-- A single attempt that reports a failed precondition has not been applied, if none is that does. -/
theorem attempts_once (clean : ∀ attempt w err, (fn attempt w).2 = .error err →
      err.isPreconditionFailed = true → (fn attempt w).1.applied = w.applied) {left}
    (few : left ≤ 1) {w}
    (outcome : (attempts done fn left 0 none w).2 = .error err)
    (failed : err.isPreconditionFailed = true) :
    (attempts done fn left 0 none w).1.applied = w.applied := by
  match left, few with
  | 0, _ => rfl
  | 1, _ =>
    have reported := clean 0 w
    rw [attempts] at outcome ⊢
    simp only [if_true] at outcome ⊢
    generalize fn 0 w = result at reported outcome ⊢
    rcases result with ⟨_, before | _⟩
    · simp only at outcome reported ⊢
      split at outcome
      · -- an error that ends the retries is none of these
        rename_i again
        obtain rfl := Except.error.inj outcome
        have other := not_failed_of_shouldRetry again
        have failed : before.isPreconditionFailed = true := failed
        rw [failed] at other
        cases other
      · rename_i final
        obtain rfl := Except.error.inj outcome
        rw [if_neg final]
        exact reported _ rfl failed
    · cases outcome

end Attempts

section Call

variable {s : StorageAbstractionLayer} {uri : Str} {r : StorageResource} {p : StoragePreconditions}

/-- A call that finds no HTTP backend applies nothing; else all depends on its attempts. -/
theorem failsClean_of_attempts (clean : ∀ h schedule state err, s.checkPut uri r = .ok (.http h) →
      (attempts (fun attempt => (schedule attempt).done)
        (httpAttempt library server verdict h uri r p schedule) (s.maxRetries + 1).toNat 0 none
        ⟨state, false⟩).2 = .error err → err.isPreconditionFailed = true →
      (attempts (fun attempt => (schedule attempt).done)
        (httpAttempt library server verdict h uri r p schedule) (s.maxRetries + 1).toNat 0 none
        ⟨state, false⟩).1.applied = false) (schedule : Nat → Exchange σ) (state : σ) :
    s.FailsClean library server verdict uri r p schedule state := by
  intro err outcome failed
  unfold putConditional at outcome ⊢
  split
  · rfl
  · rfl
  · rename_i h checked
    rw [checked] at outcome
    exact clean h schedule state err checked outcome failed

/-- With no retry, or preconditions that no state of the resource decides, a call that reports a failed
precondition was not applied; and so was one that sends nothing. -/
theorem failsClean_of_decided (decided : s.sent library uri r p = none ∨ s.maxRetries ≤ 0 ∨
      (∀ current, verdict.admits p current = true) ∨ ∀ current, verdict.admits p current = false)
    (schedule : Nat → Exchange σ) (state : σ) :
    s.FailsClean library server verdict uri r p schedule state := by
  apply failsClean_of_attempts
  intro h schedule state err checked outcome failed
  rcases decided with unsent | _ | always | never
  · apply attempts_inv (fun w => w.applied = false) _ _ _ _ rfl
    intro attempt w before
    by_contra applied
    rcases httpAttempt_applied (by simpa using applied) with already | ⟨-, _, made, free⟩
    · rw [before] at already
      cases already
    · rw [sent, checked] at unsent
      simp [made, free] at unsent
  · apply attempts_once _ (by omega) outcome failed
    intro attempt w err outcome failed
    exact (httpAttempt_failed outcome failed).2
  · have clean := attempts_error (fun attempt w err outcome => by
      by_contra failed
      obtain ⟨⟨current, refused⟩, -⟩ := httpAttempt_failed outcome (by simpa using failed)
      rw [always current] at refused
      cases refused) _ _ (by rintro _ ⟨⟩) outcome
    rw [failed] at clean
    cases clean
  · apply attempts_inv (fun w => w.applied = false) _ _ _ _ rfl
    intro attempt w before
    by_contra applied
    rcases httpAttempt_applied (by simpa using applied) with already | ⟨⟨current, passes⟩, -⟩
    · rw [before] at already
      cases already
    · rw [never current] at passes
      cases passes

/-- A server that moves from one validator to another when it applies a request. -/
def movingServer (next : Option Str) : Server (Option Str) := ⟨id, fun _ _ => next⟩

def losesFirst (attempt : Nat) : Exchange (Option Str) :=
  { fate := if attempt = 0 then .served true (.lost .eof) else .served true (.status 204 (by decide)) }

/-- The first attempt is applied, and the second one fails against what the first one left. -/
theorem putConditional_losesFirst {request} (sends : s.sent library uri r p = some request)
    (repeated : 0 < s.maxRetries) {first next} (passes : verdict.admits p first = true)
    (fails : verdict.admits p next = false) :
    s.putConditional library (movingServer next) verdict uri r p losesFirst ⟨first, false⟩ =
      (⟨next, true⟩, .error (.errorf "%w: HTTP %d" .preconditionFailed)) := by
  obtain ⟨h, checked, made, free⟩ : ∃ h, s.checkPut uri r = .ok (.http h) ∧
      h.putRequest uri r p = .ok request ∧ library.unsent request = none := by
    unfold sent at sends
    split at sends
    · rename_i h checked
      split at sends
      · rename_i _ made
        split at sends
        · cases sends
        · rename_i free
          obtain rfl := Option.some.inj sends
          exact ⟨h, checked, made, by simpa using free⟩
      · cases sends
    · cases sends
  obtain ⟨more, count⟩ : ∃ more, (s.maxRetries + 1).toNat = more + 2 :=
    ⟨(s.maxRetries - 1).toNat, by omega⟩
  have applied : httpAttempt library (movingServer next) verdict h uri r p losesFirst 0 ⟨first, false⟩ =
      (⟨next, true⟩, .error (.transport .eof)) := by
    simp [httpAttempt, made, Server.roundTrip, free, losesFirst, Server.serve, movingServer, passes,
      HTTPStorageBackend.putOutcome]
  have refused : httpAttempt library (movingServer next) verdict h uri r p losesFirst 1 ⟨next, true⟩ =
      (⟨next, true⟩, .error (.errorf "%w: HTTP %d" .preconditionFailed)) := by
    simp [httpAttempt, made, Server.roundTrip, free, losesFirst, Server.serve, movingServer, fails,
      HTTPStorageBackend.putOutcome]
  unfold putConditional doWithRetry
  rw [checked, count]
  simp only [attempts, applied, refused]
  rfl

end Call

/-- A call that reports a failed precondition was not applied, whatever the server and the network do:
exactly if it sends nothing, or does not retry, or its preconditions are decided without the state of the
resource. -/
theorem failsClean_iff (library : HttpLibrary) (verdict : Verdict) (s : StorageAbstractionLayer)
    (uri : Str) (r : StorageResource) (p : StoragePreconditions) :
    (∀ (σ : Type) (server : Server σ) (schedule : Nat → Exchange σ) (state : σ),
      s.FailsClean library server verdict uri r p schedule state) ↔
    s.sent library uri r p = none ∨ s.maxRetries ≤ 0 ∨
      (∀ current, verdict.admits p current = true) ∨ ∀ current, verdict.admits p current = false := by
  constructor
  · intro clean
    by_contra undecided
    simp only [not_or, not_forall, Bool.not_eq_true, Bool.not_eq_false] at undecided
    obtain ⟨sends, _, ⟨_, fails⟩, first, passes⟩ := undecided
    obtain ⟨_, sends⟩ := Option.ne_none_iff_exists'.mp sends
    have outcome := putConditional_losesFirst sends (by omega) passes fails
    have kept := clean _ _ losesFirst first _ (congrArg Prod.snd outcome) rfl
    rw [outcome] at kept
    cases kept
  · intro decided σ server schedule state
    exact failsClean_of_decided decided schedule state

/-- A server that judges preconditions as the runtime itself does. -/
def plainVerdict : Verdict where
  admits p current := (evaluateStoragePreconditions (current.getD []) current.isSome p).isOk
  unconditional _ := rfl

/-- A layer with one HTTP backend and the default number of retries. -/
def podLayer : StorageAbstractionLayer where
  maxRetries := 3
  defaultBackend := "default"
  backends := (∅ : GoMap Str StorageBackend).insert "default" (.http ⟨"http://pod", false⟩)

/-- The body is stored under If-Match, the response is lost, and the retry fails against the new
validator: the call reports a failed precondition although its body was applied. -/
theorem not_failsClean_lostResponse :
    ¬ podLayer.FailsClean ⟨fun _ => "", fun _ => none⟩ (movingServer (some (str "\"2\""))) plainVerdict
      (str "http://pod/a") { body := str "x" } { ifMatch := [str "\"1\""] } losesFirst
      (some (str "\"1\"")) := by
  intro clean
  have kept := clean (.errorf "%w: HTTP %d" .preconditionFailed) (by decide +kernel) rfl
  revert kept
  decide +kernel

end StorageAbstractionLayer

end Runtime
