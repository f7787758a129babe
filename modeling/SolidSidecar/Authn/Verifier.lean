import SolidSidecar.Authn.Jwt

/-!
# Identity verification

`IdentityVerifier.Verify` discovers the issuer of a token, verifies the token with the issuer's key
set, and can ask the WebID profile of the subject for its consent. When the signature does not
verify, the key set is fetched anew and the token is tried once more. The network is a parameter:
discovery, the two ways to get a key set, and the client that fetches profiles. `verify` also
returns the ownership check it made, so that theorems can speak about it.
-/

namespace Authn
open Go

def maxWebIDProfileSize : Nat := 64 * 1024

structure WebIDProfile where
  subject : Str
  type : List Str
  solidOIDCIssuer : Str
  deriving DecidableEq, Repr

/-- An HTTP response: its status, and its body unless reading it fails. -/
structure Response where
  status : Nat
  body : Option Str

/-- `WebIDVerifier`; `get` is the client, which may fail to get a response. -/
structure WebIDVerifier where
  get : Str → Option Response
  maxSize : Nat := maxWebIDProfileSize
  allowedIssuers : List Str

section WebID

variable [Unicode]

def WebIDProfile.unmarshal (data : Str) : Option WebIDProfile := do
  let ms ← Json.unmarshal data
  return {
    subject := ← Json.stringField "@id" ms
    type := ← Json.stringsField "type" ms
    solidOIDCIssuer := ← Json.stringField "http://www.w3.org/ns/solid/terms#oidcIssuer" ms }

namespace WebIDVerifier

/-- `fetchWebIDProfile`: the document is the WebID without its fragment. -/
def fetchWebIDProfile (v : WebIDVerifier) (webID : Str) : Except Error WebIDProfile := do
  let baseURL := (Strings.cut webID 0x23).1
  refuse ((Url.parse baseURL).isOk = false) (newError "invalid request")
  let resp ← orError (newError "request failed") (v.get baseURL)
  refuse (resp.status ≠ 200) (newError "WebID profile fetch failed with status")
  let body ← orError (newError "read failed") resp.body
  -- a limited reader stops one byte after the bound
  refuse ((body.take (v.maxSize + 1)).length > v.maxSize) (newError "WebID profile exceeds maximum size")
  orError (newError "failed to parse WebID profile") (WebIDProfile.unmarshal (body.take (v.maxSize + 1)))

def isAllowedIssuer (v : WebIDVerifier) (issuer : Str) : Bool :=
  v.allowedIssuers.any fun allowed => Strings.equalFold issuer allowed

def verifyWebIDOwnership (v : WebIDVerifier) (webID : Str) : Except Error WebIDProfile := do
  refuse (webID = []) (newError "WebID is required")
  match Url.parse webID with
  | .error _ => throw (newError "invalid WebID URI")
  | .ok parsed =>
    refuse (parsed.scheme ≠ "https" ∨ parsed.host = []) (newError "WebID must be an HTTPS URI")
    let profile ← v.fetchWebIDProfile webID
    refuse (profile.subject ≠ webID)
      { text := "WebID profile subject does not match requested WebID", quoted := profile.subject }
    refuse (profile.solidOIDCIssuer ≠ [] ∧ v.isAllowedIssuer profile.solidOIDCIssuer = false)
      { text := "WebID profile issuer is not trusted", quoted := profile.solidOIDCIssuer }
    return profile

/-- A verified profile is the one of the WebID, and names no issuer or one of the allow list. -/
theorem verified_profile {v : WebIDVerifier} {webID profile} (h : v.verifyWebIDOwnership webID = .ok profile) :
    v.fetchWebIDProfile webID = .ok profile ∧ profile.subject = webID ∧
      (profile.solidOIDCIssuer = [] ∨ v.isAllowedIssuer profile.solidOIDCIssuer = true) := by
  unfold verifyWebIDOwnership at h
  simp only [bind_eq_ok] at h
  obtain ⟨_, _, h⟩ := h
  split at h
  · cases h
  · simp only [bind_eq_ok, refuse_eq_ok, pure, Except.pure, Except.ok.injEq] at h
    obtain ⟨_, _, profile, fetched, _, same, _, trusted, rfl⟩ := h
    refine ⟨fetched, not_not.mp same, ?_⟩
    by_cases named : profile.solidOIDCIssuer = []
    · exact .inl named
    · exact .inr (Bool.of_not_eq_false fun untrusted => trusted ⟨named, untrusted⟩)

end WebIDVerifier

end WebID

structure IssuerMetadata where
  issuer : Str
  jwksURI : Str
  deriving DecidableEq, Repr

/-- What the issuer discovery client answers during one call of `Verify`. `RefreshJWKS` also says
whether it fetched anything. -/
structure Discovery where
  discover : Str → Except Error IssuerMetadata
  fetchJWKS : IssuerMetadata → Except Error JWKS
  refreshJWKS : IssuerMetadata → Except Error (JWKS × Bool)

structure IdentityVerifier where
  options : IdentityValidationOptions
  webID : Option WebIDVerifier
  verifyWebIDOwnership : Bool

/-- `NewIdentityVerifier`: profiles are fetched with `get`, ownership is not verified. -/
def newIdentityVerifier (get : Str → Option Response) (opts : IdentityValidationOptions) : IdentityVerifier where
  options := opts
  webID := some { get, allowedIssuers := opts.allowedIssuers }
  verifyWebIDOwnership := false

def newIdentityVerifierWithWebID (get : Str → Option Response) (opts : IdentityValidationOptions)
    (verifyWebID : Bool) : IdentityVerifier :=
  { newIdentityVerifier get opts with verifyWebIDOwnership := verifyWebID }

/-- The outcome of `Verify`: its result, and the WebID ownership check it made, with the subject it
was made for. -/
structure Verification where
  result : Except Error TrustedIdentity
  ownership : Option (Str × Except Error WebIDProfile) := none
  deriving DecidableEq

namespace IdentityVerifier

section

variable [Unicode] (crypto : Crypto) {metadata : IssuerMetadata} {jwks : JWKS} {identity : TrustedIdentity}

/-- The part of `Verify` before any signature: the claims, the metadata of their issuer, and the
key set at hand. -/
def locate (v : IdentityVerifier) (d : Discovery) (token : Str) : Except Error (IssuerMetadata × JWKS) := do
  refuse (v.options.allowedIssuers = []) (Sentinel.identityToken.error "allowed issuers are required")
  let claims ← tokenClaims token
  let issuer ← orError (Sentinel.identityToken.error "invalid issuer") (canonicalIssuerURI claims.issuer)
  refuse (issuerAllowed issuer v.options.allowedIssuers = false)
    (Sentinel.identityToken.error "issuer is not allowed")
  let metadata ← d.discover issuer
  let jwks ← d.fetchJWKS metadata
  return (metadata, jwks)

/-- The optional ownership check after a verified token. A token that does not parse here, or has no
subject, would pass without the check. -/
def checkOwnership (v : IdentityVerifier) (token : Str) (identity : TrustedIdentity) : Verification :=
  match v.verifyWebIDOwnership, v.webID, tokenClaims token with
  | true, some webID, .ok claims =>
    if claims.subject = [] then { result := .ok identity }
    else match webID.verifyWebIDOwnership claims.subject with
      | .ok profile => { result := .ok identity, ownership := some (claims.subject, .ok profile) }
      | .error e =>
        { result := .error (Sentinel.identityToken.error "WebID ownership verification failed")
          ownership := some (claims.subject, .error e) }
  | _, _, _ => { result := .ok identity }

/-- `Verify`; `clock` is what `time.Now` returns during the call. -/
def verify (v : IdentityVerifier) (d : Discovery) (clock : Time) (token : Str) : Verification :=
  match v.locate d token with
  | .error e => { result := .error e }
  | .ok (metadata, jwks) =>
    match verifyIdentityJWT crypto token jwks v.options clock with
    | .ok identity => v.checkOwnership token identity
    | .error e =>
      if e.is .jwt then
        match d.refreshJWKS metadata with
        | .ok (refreshed, true) =>
          { result := verifyIdentityJWT crypto token refreshed v.options clock }
        | _ => { result := .error e }
      else { result := .error e }

variable {crypto} {v : IdentityVerifier} {d : Discovery} {clock : Time} {token : Str}

def AcceptedWithCached (crypto : Crypto) (v : IdentityVerifier) (d : Discovery) (clock : Time) (token : Str) : Prop :=
  ∃ metadata jwks identity, v.locate d token = .ok (metadata, jwks) ∧
    verifyIdentityJWT crypto token jwks v.options clock = .ok identity

/-- The key set at hand does not verify the token, and a refreshed one does. -/
def AcceptedAfterRefresh (crypto : Crypto) (v : IdentityVerifier) (d : Discovery) (clock : Time)
    (token : Str) : Prop :=
  ∃ metadata jwks err refreshed identity, v.locate d token = .ok (metadata, jwks) ∧
    verifyIdentityJWT crypto token jwks v.options clock = .error err ∧ err.is .jwt = true ∧
    d.refreshJWKS metadata = .ok (refreshed, true) ∧
    verifyIdentityJWT crypto token refreshed v.options clock = .ok identity

theorem locate_eq_ok : v.locate d token = .ok (metadata, jwks) ↔ v.options.allowedIssuers ≠ [] ∧
      ∃ claims issuer, tokenClaims token = .ok claims ∧ canonicalIssuerURI claims.issuer = some issuer ∧
        issuerAllowed issuer v.options.allowedIssuers = true ∧
        d.discover issuer = .ok metadata ∧ d.fetchJWKS metadata = .ok jwks := by
  unfold locate
  simp only [bind_eq_ok, refuse_eq_ok, orError_eq_ok, pure, Except.pure, Except.ok.injEq,
    Prod.mk.injEq, Bool.not_eq_false]
  constructor
  · rintro ⟨_, some, claims, read, issuer, uri, _, listed, _, found, _, fetched, rfl, rfl⟩
    exact ⟨some, claims, issuer, read, uri, listed, found, fetched⟩
  · rintro ⟨some, claims, issuer, read, uri, listed, found, fetched⟩
    exact ⟨(), some, claims, read, issuer, uri, (), listed, _, found, _, fetched, rfl, rfl⟩

theorem verify_of_cached (located : v.locate d token = .ok (metadata, jwks))
    (verified : verifyIdentityJWT crypto token jwks v.options clock = .ok identity) :
    v.verify crypto d clock token = v.checkOwnership token identity := by
  simp [verify, located, verified]

/-- A refreshed key set accepts a token without an ownership check. -/
theorem verify_of_refresh {refreshed err} (located : v.locate d token = .ok (metadata, jwks))
    (failed : verifyIdentityJWT crypto token jwks v.options clock = .error err)
    (wrapped : err.is .jwt = true) (answer : d.refreshJWKS metadata = .ok (refreshed, true)) :
    v.verify crypto d clock token = { result := verifyIdentityJWT crypto token refreshed v.options clock } := by
  simp [verify, located, failed, wrapped, answer]

/-- An accepted token was accepted on one of the two ways; only on the first is ownership looked at. -/
theorem verify_cases (accepted : (v.verify crypto d clock token).result = .ok identity) :
    (∃ metadata jwks identity', v.locate d token = .ok (metadata, jwks) ∧
        verifyIdentityJWT crypto token jwks v.options clock = .ok identity' ∧
        v.verify crypto d clock token = v.checkOwnership token identity') ∨
      (AcceptedAfterRefresh crypto v d clock token ∧ v.verify crypto d clock token = { result := .ok identity }) := by
  cases located : v.locate d token with
  | error e => simp [verify, located] at accepted
  | ok pair =>
    obtain ⟨metadata, jwks⟩ := pair
    cases verified : verifyIdentityJWT crypto token jwks v.options clock with
    | ok identity' =>
      exact .inl ⟨metadata, jwks, identity', rfl, verified, verify_of_cached located verified⟩
    | error e =>
      cases wrapped : e.is .jwt with
      | false => simp [verify, located, verified, wrapped] at accepted
      | true =>
        cases answer : d.refreshJWKS metadata with
        | error _ => simp [verify, located, verified, answer] at accepted
        | ok pair =>
          obtain ⟨refreshed, fetched⟩ := pair
          cases fetched with
          | false => simp [verify, located, verified, answer] at accepted
          | true =>
            rw [verify_of_refresh located verified wrapped answer] at accepted ⊢
            dsimp only at accepted
            exact .inr ⟨⟨metadata, jwks, e, refreshed, identity, located, verified, wrapped, answer,
              accepted⟩, by rw [accepted]⟩

/-- The key set at hand verifies the signature of the token, which carries `claims`. -/
def Signed (crypto : Crypto) (v : IdentityVerifier) (d : Discovery) (token : Str) (claims : IdentityClaims) : Prop :=
  ∃ metadata jwks jwt, v.locate d token = .ok (metadata, jwks) ∧ parseCompactJWT token = .ok jwt ∧
    verifyJWTSignature crypto jwt jwks = .ok () ∧ parseIdentityClaimsJSON jwt.payload = .ok claims

/-- Without ownership verification, a signed token stands or falls with its claims. -/
theorem verify_signed {claims} (unowned : v.verifyWebIDOwnership = false) (signed : Signed crypto v d token claims) :
    (v.verify crypto d clock token).result = validateIdentityClaims claims v.options clock := by
  obtain ⟨_, jwks, jwt, located, parsed, signature, read⟩ := signed
  have whole : verifyIdentityJWT crypto token jwks v.options clock =
      validateIdentityClaims claims v.options clock := by
    simp [verifyIdentityJWT, parsed, signature, read, bind, Except.bind]
  cases valid : validateIdentityClaims claims v.options clock with
  | ok identity =>
    rw [verify_of_cached located (whole.trans valid)]
    simp [checkOwnership, unowned]
  | error err =>
    have notJwt : err.is .jwt = false := by
      rw [Error.is, validateIdentityClaims_error valid]
      decide
    simp [verify, located, whole, valid, notJwt]

/-- An accepted token has claims, a canonical WebID among them. -/
theorem claims_of_verified {opts} (verified : verifyIdentityJWT crypto token jwks opts clock = .ok identity) :
    ∃ claims, tokenClaims token = .ok claims ∧ validateIdentityClaims claims opts clock = .ok identity := by
  obtain ⟨jwt, claims, parsed, _, read, valid⟩ := verifyIdentityJWT_eq_ok.mp verified
  exact ⟨claims, tokenClaims_eq_ok.mpr ⟨jwt, parsed, read⟩, valid⟩

/-- On the way with the key set at hand the ownership check is always made: the token parses again,
and validated claims have a subject. -/
theorem checkOwnership_of_verified {w accepted} (wanted : v.verifyWebIDOwnership = true) (present : v.webID = some w)
    (verified : verifyIdentityJWT crypto token jwks v.options clock = .ok identity)
    (result : (v.checkOwnership token identity).result = .ok accepted) :
    accepted = identity ∧ ∃ claims profile, tokenClaims token = .ok claims ∧
      validateIdentityClaims claims v.options clock = .ok identity ∧
      w.verifyWebIDOwnership claims.subject = .ok profile ∧
      (v.checkOwnership token identity).ownership = some (claims.subject, .ok profile) := by
  obtain ⟨claims, read, valid⟩ := claims_of_verified verified
  have subject : claims.subject ≠ [] :=
    subject_ne_nil (checkParties_eq_ok.mp (validateIdentityClaims_eq_ok.mp valid).1).2.1
  cases owned : w.verifyWebIDOwnership claims.subject with
  | error e => simp [checkOwnership, wanted, present, read, subject, owned] at result
  | ok profile =>
    simp only [checkOwnership, wanted, present, read, if_neg subject, owned] at result ⊢
    exact ⟨(Except.ok.inj result).symm, claims, profile, rfl, valid, owned, rfl⟩

/-- An accepted token had its WebID ownership verified, for its own subject. -/
def OwnershipVerified (crypto : Crypto) (v : IdentityVerifier) (d : Discovery) (clock : Time) (token : Str) : Prop :=
  ∀ identity, (v.verify crypto d clock token).result = .ok identity →
    ∃ claims profile, tokenClaims token = .ok claims ∧
      (v.verify crypto d clock token).ownership = some (claims.subject, .ok profile)

/-- **Main result.** With ownership verification switched on, an accepted token had its ownership
verified exactly when it was not a refreshed key set that accepted it. -/
theorem ownershipVerified_iff (wanted : v.verifyWebIDOwnership = true) (present : v.webID ≠ none) :
    OwnershipVerified crypto v d clock token ↔ ¬ AcceptedAfterRefresh crypto v d clock token := by
  obtain ⟨_, present⟩ := Option.ne_none_iff_exists'.mp present
  constructor
  · rintro checked ⟨_, _, _, _, identity, located, failed, wrapped, answer, accepted⟩
    have same := verify_of_refresh located failed wrapped answer
    obtain ⟨_, _, _, made⟩ := checked identity (by rw [same]; exact accepted)
    rw [same] at made
    cases made
  · intro notRefreshed identity accepted
    rcases verify_cases accepted with ⟨_, _, _, _, verified, same⟩ | ⟨refreshed, _⟩
    · rw [same] at accepted ⊢
      obtain ⟨_, claims, profile, read, _, _, made⟩ :=
        checkOwnership_of_verified wanted present verified accepted
      exact ⟨claims, profile, read, made⟩
    · exact absurd refreshed notRefreshed

/-- For a token accepted with the key set at hand, the verified profile is that of
the token's subject as it stands in the token, while the returned WebID is its canonical form; the
returned issuer is the canonical issuer of the token, and the profile names no issuer or one that
the allow list has up to case. -/
theorem verified_profile_of_cached {w : WebIDVerifier} {identity : TrustedIdentity}
    (wanted : v.verifyWebIDOwnership = true) (present : v.webID = some w)
    (cached : AcceptedWithCached crypto v d clock token)
    (accepted : (v.verify crypto d clock token).result = .ok identity) :
    ∃ claims profile, tokenClaims token = .ok claims ∧
      (v.verify crypto d clock token).ownership = some (claims.subject, .ok profile) ∧
      profile.subject = claims.subject ∧ canonicalWebIDURI profile.subject = some identity.webID ∧
      canonicalIssuerURI claims.issuer = some identity.issuer ∧
      issuerAllowed identity.issuer v.options.allowedIssuers = true ∧
      w.fetchWebIDProfile claims.subject = .ok profile ∧
      (profile.solidOIDCIssuer = [] ∨ w.isAllowedIssuer profile.solidOIDCIssuer = true) := by
  obtain ⟨_, _, _, located, verified⟩ := cached
  rw [verify_of_cached located verified] at accepted ⊢
  obtain ⟨rfl, claims, profile, read, valid, owned, made⟩ :=
    checkOwnership_of_verified wanted present verified accepted
  obtain ⟨fetched, subject, issuer⟩ := WebIDVerifier.verified_profile owned
  obtain ⟨uri, webID, allowed, _⟩ := checkParties_eq_ok.mp (validateIdentityClaims_eq_ok.mp valid).1
  have listed := (locate_eq_ok.mp located).1
  refine ⟨claims, profile, read, made, subject, by rw [subject]; exact webID, uri, ?_, fetched, issuer⟩
  exact Bool.of_not_eq_false fun notListed => allowed ⟨listed, notListed⟩

/-- **Main result.** For a token accepted with the key set at hand, the returned WebID is the subject of
the verified profile and the returned issuer the one that the profile names, exactly when the subject of
the token is a plain URI and the profile that is served for it names the issuer of the token. -/
theorem bound_iff {w : WebIDVerifier} {identity : TrustedIdentity} {claims : IdentityClaims} {profile : WebIDProfile}
    (wanted : v.verifyWebIDOwnership = true) (present : v.webID = some w)
    (cached : AcceptedWithCached crypto v d clock token)
    (accepted : (v.verify crypto d clock token).result = .ok identity)
    (read : tokenClaims token = .ok claims) (served : w.fetchWebIDProfile claims.subject = .ok profile) :
    (∃ verified, (v.verify crypto d clock token).ownership = some (claims.subject, .ok verified) ∧
      identity.webID = verified.subject ∧ canonicalIssuerURI verified.solidOIDCIssuer = some identity.issuer) ↔
    PlainURI claims.subject ∧ canonicalIssuerURI profile.solidOIDCIssuer = canonicalIssuerURI claims.issuer := by
  obtain ⟨claims', profile', read', made, subject, webID, issuer, -, fetched, -⟩ :=
    verified_profile_of_cached wanted present cached accepted
  cases read.symm.trans read'
  cases served.symm.trans fetched
  rw [subject] at webID
  rw [← canonicalWebIDURI_eq_self_iff webID, issuer]
  constructor
  · rintro ⟨_, made', same, names⟩
    cases made.symm.trans made'
    exact ⟨same.trans subject, names⟩
  · rintro ⟨same, names⟩
    exact ⟨profile, made, same.trans subject.symm, names⟩

end

/-- A token of `https://idp.example` for `sub`, signed with the key `kid`, issued at
2026-01-01T00:00:00Z for an hour. -/
def sampleToken (kid sub : String) : Str :=
  let header := "\x7b\"alg\":\"RS256\",\"kid\":\"" ++ kid ++ "\"\x7d"
  let claims := "\x7b\"iss\":\"https://idp.example\",\"sub\":\"" ++ sub ++
    "\",\"aud\":\"solid\",\"iat\":1767225600,\"exp\":1767229200\x7d"
  Base64.encode (str header) ++ "." ++ Base64.encode (str claims) ++ "." ++ Base64.encode [1]

def sampleKeys (kid : String) : JWKS where
  keys := [str ("\x7b\"kty\":\"RSA\",\"kid\":\"" ++ kid ++ "\",\"n\":\"") ++
    Base64.encode (List.replicate 256 0xFF) ++ "\",\"e\":\"AQAB\"\x7d"]

def serving (doc : String) : Str → Option Response := fun _ => some ⟨200, some (str doc)⟩

/-- Discovery with the given key sets at hand and after a refresh. -/
def sampleDiscovery (cached refreshed : JWKS) : Discovery where
  discover issuer := .ok ⟨issuer, issuer ++ "/jwks"⟩
  fetchJWKS _ := .ok cached
  refreshJWKS _ := .ok (refreshed, true)

def sampleOptions : IdentityValidationOptions where
  allowedIssuers := ["https://idp.example", "https://other.example"]

/-- A verifier that wants ownership verified, with `profile` served as every profile. -/
def sampleVerifier (profile : String) : IdentityVerifier :=
  newIdentityVerifierWithWebID (serving profile) sampleOptions true

def sampleIdentity : TrustedIdentity where
  issuer := "https://idp.example"
  webID := "https://pod.example/card#me"
  clientID := []
  audience := ["solid"]
  expiresAt := Time.unix 1767229200

def sampleMetadata : IssuerMetadata := ⟨"https://idp.example", "https://idp.example/jwks"⟩

def sampleClock : Time := Time.unix 1767225660

section

attribute [local instance] Unicode.ascii

def sampleClaims : IdentityClaims where
  issuer := "https://idp.example"
  subject := "https://pod.example/card#me"
  audience := ["solid"]
  clientID := []
  issuedAt := 1767225600
  expiresAt := 1767229200

theorem sample_claims : tokenClaims (sampleToken "new" "https://pod.example/card#me") = .ok sampleClaims := by
  decide +kernel

theorem sample_issuer : canonicalIssuerURI sampleClaims.issuer = some (str "https://idp.example") := by
  decide +kernel

/-- Any verifier that allows the sample issuer locates its keys. -/
theorem sample_located {v : IdentityVerifier} (keys refreshed : JWKS)
    (listed : issuerAllowed "https://idp.example" v.options.allowedIssuers = true) :
    v.locate (sampleDiscovery keys refreshed) (sampleToken "new" "https://pod.example/card#me") =
      .ok (sampleMetadata, keys) := by
  refine locate_eq_ok.mpr ⟨?_, sampleClaims, _, sample_claims, sample_issuer, listed, ?_, rfl⟩
  · intro none
    rw [none] at listed
    cases listed
  · have uri : "https://idp.example" ++ "/jwks" = str "https://idp.example/jwks" := by decide
    simp [sampleDiscovery, sampleMetadata, uri]

theorem sample_listed : issuerAllowed "https://idp.example" sampleOptions.allowedIssuers = true := by
  decide +kernel

theorem sample_verified :
    verifyIdentityJWT .trusting (sampleToken "new" "https://pod.example/card#me") (sampleKeys "new")
      sampleOptions sampleClock = .ok sampleIdentity := by
  decide +kernel

/-- With the right key at hand and the right profile served, the sample token is accepted. -/
theorem sample_accepted :
    let v := sampleVerifier "\x7b\"@id\":\"https://pod.example/card#me\"\x7d"
    let d := sampleDiscovery (sampleKeys "new") (sampleKeys "new")
    let token := sampleToken "new" "https://pod.example/card#me"
    (v.verify .trusting d sampleClock token).result = .ok sampleIdentity := by
  decide +kernel

/-- With the right key at hand, a token is accepted and its ownership verified. -/
theorem ownershipVerified_iff_sample :
    let v := sampleVerifier "\x7b\"@id\":\"https://pod.example/card#me\"\x7d"
    let d := sampleDiscovery (sampleKeys "new") (sampleKeys "new")
    let token := sampleToken "new" "https://pod.example/card#me"
    (v.verify .trusting d sampleClock token).result = .ok sampleIdentity ∧
      OwnershipVerified .trusting v d sampleClock token := by
  intro v d token
  have located : v.locate d token = _ := sample_located _ _ sample_listed
  have present : v.webID ≠ none := by
    simp [v, sampleVerifier, newIdentityVerifierWithWebID, newIdentityVerifier]
  refine ⟨sample_accepted, (ownershipVerified_iff rfl present).mpr ?_⟩
  rintro ⟨_, _, _, _, _, located', failed, _⟩
  rw [located] at located'
  cases located'
  rw [show v.options = sampleOptions from rfl, sample_verified] at failed
  cases failed

/-- After a key rotation a token is accepted with the refreshed key set, and its profile is never
asked for. -/
theorem refreshed_without_ownership :
    let v := sampleVerifier "\x7b\"@id\":\"https://pod.example/card#me\"\x7d"
    let d := sampleDiscovery (sampleKeys "old") (sampleKeys "new")
    let token := sampleToken "new" "https://pod.example/card#me"
    v.verifyWebIDOwnership = true ∧ v.webID ≠ none ∧
      (v.verify .trusting d sampleClock token).result = .ok sampleIdentity ∧
      ¬ OwnershipVerified .trusting v d sampleClock token := by
  intro v d token
  have failed : verifyIdentityJWT .trusting token (sampleKeys "old") sampleOptions sampleClock =
      .error (Sentinel.jwt.error "key not found") := by decide +kernel
  have same : v.verify .trusting d sampleClock token =
      { result := verifyIdentityJWT .trusting token _ sampleOptions sampleClock } :=
    verify_of_refresh (sample_located _ _ sample_listed) failed rfl rfl
  rw [sample_verified] at same
  refine ⟨rfl, ?_, by rw [same], fun checked => ?_⟩
  · simp [v, sampleVerifier, newIdentityVerifierWithWebID, newIdentityVerifier]
  · obtain ⟨_, _, _, made⟩ := checked sampleIdentity (by rw [same])
    rw [same] at made
    cases made

/-- The profile of the sample subject, which names the sample issuer. -/
def namingProfile : String := "\x7b\"@id\":\"https://pod.example/card#me\"," ++
  "\"http://www.w3.org/ns/solid/terms#oidcIssuer\":\"https://idp.example\"\x7d"

/-- A token accepted with the key set at hand, whose profile names its issuer. -/
theorem bound_iff_sample :
    let v := sampleVerifier namingProfile
    let d := sampleDiscovery (sampleKeys "new") (sampleKeys "new")
    let token := sampleToken "new" "https://pod.example/card#me"
    (v.verify .trusting d sampleClock token).result = .ok sampleIdentity ∧ (PlainURI sampleClaims.subject ∧
        canonicalIssuerURI (str "https://idp.example") = canonicalIssuerURI sampleClaims.issuer) ∧
      ∃ profile, (v.verify .trusting d sampleClock token).ownership = some (sampleClaims.subject, .ok profile) ∧
        sampleIdentity.webID = profile.subject ∧
        canonicalIssuerURI profile.solidOIDCIssuer = some sampleIdentity.issuer := by
  intro v d token
  let profile : WebIDProfile := ⟨str "https://pod.example/card#me", [], str "https://idp.example"⟩
  have located : v.locate d token = _ := sample_located _ _ sample_listed
  have accepted : (v.verify .trusting d sampleClock token).result = .ok sampleIdentity := by decide +kernel
  have served : WebIDVerifier.fetchWebIDProfile ⟨serving namingProfile, maxWebIDProfileSize, sampleOptions.allowedIssuers⟩
      sampleClaims.subject = .ok profile := by decide +kernel
  have plain : PlainURI sampleClaims.subject :=
    ⟨by decide +kernel, { scheme := "https", host := "pod.example", path := "/card", fragment := "me" },
      by decide +kernel, rfl, by decide +kernel⟩
  exact ⟨accepted, ⟨plain, rfl⟩, (bound_iff rfl rfl ⟨_, _, _, located, sample_verified⟩ accepted sample_claims served).mpr
    ⟨plain, rfl⟩⟩

/-- A profile that is verified for another WebID than the one returned, and names another issuer
than the one returned: the subject carries a query, and the profile's issuer is on the allow list. -/
theorem verified_profile_of_other :
    let v := sampleVerifier ("\x7b\"@id\":\"https://pod.example/card?v=2#me\"," ++
      "\"http://www.w3.org/ns/solid/terms#oidcIssuer\":\"https://other.example\"\x7d")
    let d := sampleDiscovery (sampleKeys "new") (sampleKeys "new")
    let token := sampleToken "new" "https://pod.example/card?v=2#me"
    let profile : WebIDProfile :=
      ⟨str "https://pod.example/card?v=2#me", [], str "https://other.example"⟩
    v.verifyWebIDOwnership = true ∧ AcceptedWithCached .trusting v d sampleClock token ∧
      v.verify .trusting d sampleClock token =
        { result := .ok sampleIdentity, ownership := some (profile.subject, .ok profile) } ∧
      sampleIdentity.webID ≠ profile.subject ∧
      canonicalIssuerURI profile.solidOIDCIssuer ≠ some sampleIdentity.issuer := by
  intro v d token profile
  have located : v.locate d token = .ok (sampleMetadata, sampleKeys "new") := by decide +kernel
  have verified : verifyIdentityJWT .trusting token (sampleKeys "new") v.options sampleClock =
      .ok sampleIdentity := by decide +kernel
  refine ⟨rfl, ⟨_, _, _, located, verified⟩, ?_, ?_, ?_⟩
  · decide +kernel
  · decide +kernel
  · decide +kernel

end

end IdentityVerifier

end Authn
