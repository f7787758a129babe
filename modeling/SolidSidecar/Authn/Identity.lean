import SolidSidecar.Authn.Basic
import SolidSidecar.Go.Url

/-!
# Identity claims

The claims of an identity token and their validation. Issuers and WebIDs are HTTPS URIs that are
compared in canonical form: `url.Parse` and `URL.String`, with the query dropped.
-/

namespace Authn
open Go Strings

def maxIdentityIssuerLength : Nat := 2048

def maxIdentitySubjectLength : Nat := 2048

def maxIdentityClientIDLength : Nat := 512

structure IdentityClaims where
  issuer : Str
  subject : Str
  audience : List Str
  clientID : Str
  issuedAt : Int
  expiresAt : Int
  deriving DecidableEq, Repr

structure IdentityValidationOptions where
  allowedIssuers : List Str
  expectedAudience : Str := []
  now : Time := Time.zero
  clockSkew : Int := 0
  deriving DecidableEq, Repr

structure TrustedIdentity where
  issuer : Str
  webID : Str
  clientID : Str
  audience : List Str
  expiresAt : Time
  deriving DecidableEq, Repr

def parseHTTPSIdentityURI (value : Str) (maxLen : Nat) : Option Url.URL :=
  let value := trimSpace value
  if value = [] ∨ value.length > maxLen ∨ containsAny value lineBreaks then none
  else match Url.parse value with
    | .error _ => none
    | .ok parsed =>
      if parsed.scheme ≠ "https" ∨ parsed.host = [] ∨ parsed.user ≠ none then none
      else some parsed

def canonicalIssuerURI (value : Str) : Option Str :=
  match parseHTTPSIdentityURI value maxIdentityIssuerLength with
  | none => none
  | some parsed => if parsed.fragment ≠ [] then none else some { parsed with rawQuery := [] }.string

def canonicalWebIDURI (value : Str) : Option Str :=
  (parseHTTPSIdentityURI value maxIdentitySubjectLength).map fun parsed =>
    { parsed with rawQuery := [] }.string

def issuerAllowed (issuer : Str) (allowed : List Str) : Bool :=
  allowed.any fun item => canonicalIssuerURI item == some issuer

theorem subject_ne_nil {subject webID} (h : canonicalWebIDURI subject = some webID) : subject ≠ [] := by
  rintro rfl
  cases h

/-- A URI as `URL.String` writes it, without white space around it and without a query. -/
def PlainURI (value : Str) : Prop :=
  trimSpace value = value ∧ ∃ u, Url.parse value = .ok u ∧ u.rawQuery = [] ∧ u.string = value

theorem parseHTTPSIdentityURI_eq_some {value maxLen u} (read : parseHTTPSIdentityURI value maxLen = some u) :
    Url.parse (trimSpace value) = .ok u ∧ u.scheme = "https" ∧ u.host ≠ [] ∧ u.user = none := by
  unfold parseHTTPSIdentityURI at read
  dsimp only at read
  split_ifs at read
  split at read
  · cases read
  · split_ifs at read with refused
    cases read
    simp only [not_or, not_not] at refused
    exact ⟨‹_›, refused⟩

/-- The canonical form of a WebID is the WebID itself when that is plain. -/
theorem canonicalWebIDURI_eq_self_iff {value webID} (h : canonicalWebIDURI value = some webID) :
    webID = value ↔ PlainURI value := by
  obtain ⟨u, read, rfl⟩ := Option.map_eq_some_iff.mp h
  obtain ⟨parsed, scheme, host, nobody⟩ := parseHTTPSIdentityURI_eq_some read
  have plain : u.scheme.all Url.inPath = true := by
    rw [scheme]
    decide
  constructor
  · intro same
    have trimmed := Url.trimSpace_string host nobody plain parsed
    rw [same] at trimmed
    rw [trimmed] at parsed
    have none := Url.rawQuery_of_string host nobody plain (same.symm ▸ parsed)
    refine ⟨trimmed, u, parsed, none, ?_⟩
    have whole : { u with rawQuery := [] } = u := by rw [← none]
    rwa [whole] at same
  · rintro ⟨trimmed, u', parsed', none, same⟩
    rw [trimmed, parsed'] at parsed
    cases parsed
    have whole : { u with rawQuery := [] } = u := by rw [← none]
    rw [whole, same]

/-- `normalizeAudienceClaim`, on the raw text of the claim: absent or `null`, a string, or an array
of strings. -/
def normalizeAudienceClaim (raw : Str) : Except Error (List Str) :=
  match raw with
  | [] => .ok []
  | 0x22 :: rest => .ok [trimSpace (Json.unquote rest)]
  | 0x5B :: _ => do
    let items := (Json.elements? raw).getD []
    items.mapM fun item =>
      match item with
      | 0x22 :: rest => .ok (trimSpace (Json.unquote rest))
      | _ => .error (Sentinel.identityToken.error "invalid audience")
  | _ =>
    if raw = "null" then .ok [] else .error (Sentinel.identityToken.error "invalid audience")

section

variable [Unicode]

/-- The claims as `encoding/json` reads them, with the raw text of the audience. -/
def rawClaims (input : Str) : Option (IdentityClaims × Str) := do
  let ms ← Json.unmarshal input
  let claims : IdentityClaims := {
    issuer := ← Json.stringField "iss" ms
    subject := ← Json.stringField "sub" ms
    audience := []
    clientID := ← Json.stringField "client_id" ms
    issuedAt := ← Json.int64Field "iat" ms
    expiresAt := ← Json.int64Field "exp" ms }
  return (claims, ← Json.rawField "aud" ms)

def parseIdentityClaimsJSON (input : Str) : Except Error IdentityClaims := do
  refuse (input = [] ∨ input.length > 32768) (Sentinel.identityToken.error "claims size out of bounds")
  let (claims, aud) ←
    orError (Sentinel.identityToken.error "claims are not valid JSON") (rawClaims input)
  let audience ← normalizeAudienceClaim aud
  return { claims with audience }

end

def audienceContains (audience : List Str) (expected : Str) : Bool :=
  let expected := trimSpace expected
  if expected = [] then true else audience.any fun item => trimSpace item == expected

namespace IdentityValidationOptions

/-- The instant that expiry is compared with: the configured one, or the clock when it is unset. -/
def instant (opts : IdentityValidationOptions) (clock : Time) : Time :=
  if opts.now.isZero then clock else opts.now

def skew (opts : IdentityValidationOptions) : Int :=
  if opts.clockSkew ≤ 0 then 2 * minute else opts.clockSkew

end IdentityValidationOptions

/-- The checks of `ValidateIdentityClaims` that come before the clock: canonical issuer and WebID. -/
def checkParties (claims : IdentityClaims) (opts : IdentityValidationOptions) : Except Error (Str × Str) := do
  let issuer ← orError (Sentinel.identityToken.error "invalid issuer") (canonicalIssuerURI claims.issuer)
  let webID ← orError (Sentinel.identityToken.error "invalid subject") (canonicalWebIDURI claims.subject)
  refuse (opts.allowedIssuers ≠ [] ∧ issuerAllowed issuer opts.allowedIssuers = false)
    (Sentinel.identityToken.error "issuer is not allowed")
  refuse (opts.expectedAudience ≠ [] ∧ audienceContains claims.audience opts.expectedAudience = false)
    (Sentinel.identityToken.error "audience mismatch")
  return (issuer, webID)

/-- The rejection of a token whose `iat` lies ahead. -/
def issuedInFuture : Error := Sentinel.identityToken.error "issued-at is in the future"

/-- `ValidateIdentityClaims`; `clock` is what `time.Now` returns. -/
def validateIdentityClaims (claims : IdentityClaims) (opts : IdentityValidationOptions)
    (clock : Time) : Except Error TrustedIdentity := do
  let (issuer, webID) ← checkParties claims opts
  refuse (claims.expiresAt ≤ 0) (Sentinel.identityToken.error "expiration is required")
  let expiresAt := Time.unix claims.expiresAt
  refuse ((opts.instant clock).after (expiresAt.add opts.skew)) (Sentinel.identityToken.error "token expired")
  refuse (claims.issuedAt > 0 ∧ (Time.unix claims.issuedAt).after ((opts.instant clock).add opts.skew)) issuedInFuture
  let clientID := trimSpace claims.clientID
  refuse (containsAny clientID lineBreaks ∨ clientID.length > maxIdentityClientIDLength)
    (Sentinel.identityToken.error "invalid client id")
  return ⟨issuer, webID, clientID, claims.audience, expiresAt⟩

variable {claims : IdentityClaims} {opts : IdentityValidationOptions} {clock : Time} {err : Error}

theorem checkParties_eq_ok {issuer webID} : checkParties claims opts = .ok (issuer, webID) ↔
      canonicalIssuerURI claims.issuer = some issuer ∧ canonicalWebIDURI claims.subject = some webID ∧
        ¬ (opts.allowedIssuers ≠ [] ∧ issuerAllowed issuer opts.allowedIssuers = false) ∧
        ¬ (opts.expectedAudience ≠ [] ∧ audienceContains claims.audience opts.expectedAudience = false) := by
  unfold checkParties
  simp only [bind_eq_ok, refuse_eq_ok, orError_eq_ok, pure, Except.pure, Except.ok.injEq, Prod.mk.injEq]
  constructor
  · rintro ⟨_, uri, _, subject, _, allowed, _, audience, rfl, rfl⟩
    exact ⟨uri, subject, allowed, audience⟩
  · rintro ⟨uri, subject, allowed, audience⟩
    exact ⟨_, uri, _, subject, (), allowed, (), audience, rfl, rfl⟩

def ClientOk (claims : IdentityClaims) : Prop :=
  ¬ (containsAny (trimSpace claims.clientID) lineBreaks ∨
    (trimSpace claims.clientID).length > maxIdentityClientIDLength)

/-- The instant is not after the expiry plus the skew. -/
def NotExpired (claims : IdentityClaims) (opts : IdentityValidationOptions) (now : Time) : Prop :=
  now ≤ (Time.unix claims.expiresAt).add opts.skew

/-- The `iat` is not after the instant plus the skew. -/
def NotFuture (claims : IdentityClaims) (opts : IdentityValidationOptions) (now : Time) : Prop :=
  0 < claims.issuedAt → Time.unix claims.issuedAt ≤ now.add opts.skew

/-- What an accepted set of claims satisfies, and what it is turned into. -/
theorem validateIdentityClaims_eq_ok {identity} : validateIdentityClaims claims opts clock = .ok identity ↔
      checkParties claims opts = .ok (identity.issuer, identity.webID) ∧ 0 < claims.expiresAt ∧
        NotExpired claims opts (opts.instant clock) ∧ NotFuture claims opts (opts.instant clock) ∧
        ClientOk claims ∧ identity.clientID = trimSpace claims.clientID ∧
        identity.audience = claims.audience ∧ identity.expiresAt = .unix claims.expiresAt := by
  unfold validateIdentityClaims
  simp only [bind_eq_ok, refuse_eq_ok, pure, Except.pure, Except.ok.injEq, Prod.exists, Int.not_le,
    Time.after_iff, not_lt, not_and]
  constructor
  · rintro ⟨_, _, parties, _, dated, _, fresh, _, issued, _, client, rfl⟩
    exact ⟨parties, dated, fresh, issued, client, rfl, rfl, rfl⟩
  · rintro ⟨parties, dated, fresh, issued, client, h1, h2, h3⟩
    exact ⟨_, _, parties, (), dated, (), fresh, (), issued, (), client, by rw [← h1, ← h2, ← h3]⟩

theorem checkParties_error (h : checkParties claims opts = .error err) :
    err.wraps = some .identityToken ∧ err ≠ issuedInFuture := by
  unfold checkParties at h
  simp only [bind_eq_error, refuse_eq_error, orError_eq_error, pure, Except.pure, reduceCtorEq] at h
  obtain ⟨_, rfl⟩ | ⟨_, _, ⟨_, rfl⟩ | ⟨_, _, ⟨_, rfl⟩ | ⟨_, _, ⟨_, rfl⟩ | ⟨_, _, nothing⟩⟩⟩⟩ := h
  · exact ⟨rfl, by decide⟩
  · exact ⟨rfl, by decide⟩
  · exact ⟨rfl, by decide⟩
  · exact ⟨rfl, by decide⟩
  · exact nothing.elim

/-- The rejections of claims, in the order of the checks. -/
theorem validateIdentityClaims_eq_error : validateIdentityClaims claims opts clock = .error err ↔
      checkParties claims opts = .error err ∨ (∃ parties, checkParties claims opts = .ok parties) ∧
        (claims.expiresAt ≤ 0 ∧ err = Sentinel.identityToken.error "expiration is required" ∨ 0 < claims.expiresAt ∧
            (¬ NotExpired claims opts (opts.instant clock) ∧ err = Sentinel.identityToken.error "token expired" ∨
              NotExpired claims opts (opts.instant clock) ∧
                (¬ NotFuture claims opts (opts.instant clock) ∧ err = issuedInFuture ∨
                  NotFuture claims opts (opts.instant clock) ∧ ¬ ClientOk claims ∧
                    err = Sentinel.identityToken.error "invalid client id"))) := by
  unfold validateIdentityClaims NotExpired NotFuture ClientOk
  simp only [bind_eq_error, refuse_eq_error, refuse_eq_ok, pure, Except.pure, reduceCtorEq, not_le,
    Time.after_iff, not_lt, not_and, not_not, and_false, or_false, exists_const, Classical.not_imp]
  constructor
  · rintro (early | ⟨_, parties, late⟩)
    · exact .inl early
    · exact .inr ⟨⟨_, parties⟩, late⟩
  · rintro (early | ⟨⟨_, parties⟩, late⟩)
    · exact .inl early
    · exact .inr ⟨_, parties, late⟩

/-- Every rejection of claims is one of an identity token. -/
theorem validateIdentityClaims_error (h : validateIdentityClaims claims opts clock = .error err) :
    err.wraps = some .identityToken := by
  obtain early | ⟨_, ⟨_, rfl⟩ | ⟨_, ⟨_, rfl⟩ | ⟨_, ⟨_, rfl⟩ | ⟨_, _, rfl⟩⟩⟩⟩ :=
    validateIdentityClaims_eq_error.mp h
  · exact (checkParties_error early).1
  · rfl
  · rfl
  · rfl
  · rfl

/-- Claims are rejected for their `iat` when they pass every earlier check. -/
theorem validateIdentityClaims_future : validateIdentityClaims claims opts clock = .error issuedInFuture ↔
      (∃ parties, checkParties claims opts = .ok parties) ∧ 0 < claims.expiresAt ∧
        NotExpired claims opts (opts.instant clock) ∧ ¬ NotFuture claims opts (opts.instant clock) := by
  rw [validateIdentityClaims_eq_error]
  constructor
  · rintro (early | ⟨parties, ⟨_, other⟩ | ⟨dated, ⟨_, other⟩ | ⟨fresh, ⟨future, _⟩ | ⟨_, _, other⟩⟩⟩⟩)
    · exact absurd rfl (checkParties_error early).2
    · exact absurd other (by decide)
    · exact absurd other (by decide)
    · exact ⟨parties, dated, fresh, future⟩
    · exact absurd other (by decide)
  · rintro ⟨parties, dated, fresh, future⟩
    exact .inr ⟨parties, .inr ⟨dated, .inr ⟨fresh, .inl ⟨future, rfl⟩⟩⟩⟩

end Authn
