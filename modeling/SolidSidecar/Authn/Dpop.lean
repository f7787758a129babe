import SolidSidecar.Authn.Basic
import SolidSidecar.Authn.ReplayCache
import SolidSidecar.Go.Http

/-!
# Verification of DPoP proofs

`DPoPVerifier.VerifyRequest` parses a proof, checks its signature, its target, its age and its
binding to the access token, and last records it in the replay cache. `admission` is everything before
the cache, `verifyRequest` the whole call.
-/

namespace Authn
open Go Base64 Strings

structure ProofClaims where
  htm : Str
  htu : Str
  jti : Str
  iat : Int
  ath : Str
  deriving DecidableEq, Repr

structure ProofHeader where
  typ : Str
  alg : Str
  jwk : Str
  deriving DecidableEq, Repr

structure Jwk where
  kty : Str
  crv : Str
  x : Str
  y : Str
  n : Str
  e : Str
  deriving DecidableEq, Repr

structure Proof where
  header : ProofHeader
  claims : ProofClaims
  signingInput : Str
  signature : Str
  deriving DecidableEq, Repr

section Parsing

variable [Unicode]

def ProofHeader.unmarshal (data : Str) : Option ProofHeader := do
  let ms ← Json.unmarshal data
  return {
    typ := ← Json.stringField "typ" ms
    alg := ← Json.stringField "alg" ms
    jwk := ← Json.rawField "jwk" ms }

def ProofClaims.unmarshal (data : Str) : Option ProofClaims := do
  let ms ← Json.unmarshal data
  return {
    htm := ← Json.stringField "htm" ms
    htu := ← Json.stringField "htu" ms
    jti := ← Json.stringField "jti" ms
    iat := ← Json.int64Field "iat" ms
    ath := ← Json.stringField "ath" ms }

def Jwk.unmarshal (data : Str) : Option Jwk := do
  let ms ← Json.unmarshal data
  return {
    kty := ← Json.stringField "kty" ms
    crv := ← Json.stringField "crv" ms
    x := ← Json.stringField "x" ms
    y := ← Json.stringField "y" ms
    n := ← Json.stringField "n" ms
    e := ← Json.stringField "e" ms }

def parseProof (proof : Str) : Except Error Proof :=
  match split 0x2E proof with
  | [header, claims, signature] => do
    let headerBytes ← orError (newError "DPoP header is not valid base64url") (Base64.decode header)
    let claimsBytes ← orError (newError "DPoP claims are not valid base64url") (Base64.decode claims)
    let signatureBytes ←
      orError (newError "DPoP signature is not valid base64url") (Base64.decode signature)
    let h ← orError (newError "DPoP header is not valid JSON") (ProofHeader.unmarshal headerBytes)
    let c ← orError (newError "DPoP claims are not valid JSON") (ProofClaims.unmarshal claimsBytes)
    return ⟨h, c, header ++ "." ++ claims, signatureBytes⟩
  | _ => .error (newError "DPoP proof must be a compact JWT")

end Parsing

section Signature

variable [Unicode] (crypto : Crypto)

def ecdsaPublicKey (key : Jwk) : Except Error (Nat × Nat) := do
  refuse (key.kty ≠ "EC" ∨ key.crv ≠ "P-256") (newError "ES256 DPoP jwk must be EC P-256")
  let x ← orError (newError "EC jwk x is invalid") (Base64.decode key.x)
  let y ← orError (newError "EC jwk y is invalid") (Base64.decode key.y)
  refuse (crypto.onP256 (bigInt x) (bigInt y) = false) (newError "EC jwk point is not on P-256")
  return (bigInt x, bigInt y)

def rsaPublicKey (key : Jwk) : Except Error (Nat × Int) := do
  refuse (key.kty ≠ "RSA") (newError "RS256 DPoP jwk must be RSA")
  let n ← orError (newError "RSA jwk n is invalid") (Base64.decode key.n)
  let e ← orError (newError "RSA jwk e is invalid") (Base64.decode key.e)
  -- `Int64` keeps the low 64 bits
  let e := wrap64 (bigInt e)
  refuse (bigInt n = 0 ∨ e < 3 ∨ e > 2 ^ 31 - 1) (newError "RSA jwk parameters are invalid")
  return (bigInt n, e)

def verifySignature (proof : Proof) : Except Error Unit := do
  refuse (proof.header.jwk = []) (newError "DPoP proof header must include jwk")
  let key ← orError (newError "DPoP jwk is not valid JSON") (Jwk.unmarshal proof.header.jwk)
  let digest := crypto.sha256 proof.signingInput
  if proof.header.alg = "ES256" then
    let (x, y) ← ecdsaPublicKey crypto key
    refuse (proof.signature.length ≠ 64) (newError "ES256 DPoP signature must be 64 bytes")
    let r := bigInt (proof.signature.take 32)
    let s := bigInt (proof.signature.drop 32)
    refuse (crypto.verifyECDSA x y digest r s = false) (newError "ES256 DPoP signature verification failed")
  else if proof.header.alg = "RS256" then
    let (n, e) ← rsaPublicKey key
    refuse (crypto.verifyRSA n e digest proof.signature = false) (newError "RS256 DPoP signature verification failed")
  else throw { text := "unsupported DPoP alg", quoted := proof.header.alg }

end Signature

def expectedHTU (r : Http.Request) (publicBaseURL : Str) : Str :=
  let path := if r.url.escapedPath = [] then str "/" else r.url.escapedPath
  let direct := (if r.tls then str "https" else "http") ++ "://" ++ r.host ++ path
  if publicBaseURL = [] then direct
  else match Url.parse publicBaseURL with
    | .error _ => direct
    | .ok base =>
      { base with path := trimRight base.path 0x2F ++ path, rawQuery := [], fragment := [] }.string

def normalizeHTU (value : Str) : Str :=
  match Url.parse value with
  | .error _ => value
  | .ok parsed => { parsed with rawQuery := [], fragment := [] }.string

section Binding

variable [Unicode] (crypto : Crypto)

def accessTokenHash (accessToken : Str) : Str := Base64.encode (crypto.sha256 accessToken)

def maxDPoPThumbprintLength : Nat := 128

def looksLikeJWTHeader (encodedHeader : Str) : Bool :=
  match (Base64.decode encodedHeader).bind Json.unmarshal |>.bind (Json.stringField "typ") with
  | some typ => equalFold (trimSpace typ) "JWT"
  | none => false

def confirmationOf (claims : Str) : Option Str :=
  (Json.unmarshal claims).bind fun ms =>
    (Json.structField (str "cnf") ms).bind (Json.stringField "jkt")

/-- The thumbprint a compact JWT is bound to, if it names one. -/
def dpopConfirmationThumbprint (accessToken : Str) : Except Error (Option Str) :=
  let token := trimSpace accessToken
  let invalid text := .error (Sentinel.dpopTokenBinding.error text)
  if token = [] then .ok none
  else if token.length > 32768 || containsAny token lineBreaks then
    invalid "token size or characters invalid"
  else match split 0x2E token with
    | [header, claims, _] =>
      if !looksLikeJWTHeader header then .ok none
      else match Base64.decode claims with
        | none => invalid "token claims are not base64url"
        | some claimsBytes =>
          match confirmationOf claimsBytes with
          | none => invalid "token claims are not valid JSON"
          | some jkt =>
            let jkt := trimSpace jkt
            if jkt = [] then .ok none
            else if jkt.length > maxDPoPThumbprintLength || containsAny jkt lineBreaks then
              invalid "cnf.jkt is invalid"
            else .ok (some jkt)
    | _ => .ok none

/-- The JSON object with the given members, in their order. -/
def jsonObject (ms : List (String × Str)) : Str :=
  let member m := Json.quote (str m.1) ++ ":" ++ Json.quote m.2
  "\x7b" ++ (str ",").intercalate (ms.map member) ++ "\x7d"

def proofJWKThumbprint (raw : Str) : Except Error Str := do
  let invalid := Sentinel.dpopTokenBinding.error
  refuse (raw = [] ∨ raw.length > 16384) (invalid "DPoP proof header must include bounded jwk")
  let key ← orError (invalid "DPoP jwk is not valid JSON") (Jwk.unmarshal raw)
  let thumbprint ms := Base64.encode (crypto.sha256 (jsonObject ms))
  -- the encoder sorts the members by name
  if key.kty = "EC" then
    refuse (key.crv = [] ∨ key.x = [] ∨ key.y = []) (invalid "EC jwk is missing public members")
    return thumbprint [("crv", key.crv), ("kty", key.kty), ("x", key.x), ("y", key.y)]
  else if key.kty = "RSA" then
    refuse (key.n = [] ∨ key.e = []) (invalid "RSA jwk is missing public members")
    return thumbprint [("e", key.e), ("kty", key.kty), ("n", key.n)]
  else throw (invalid "unsupported DPoP jwk type")

def confirmDPoPTokenBinding (header : ProofHeader) (expected : Str) : Except Error Unit := do
  let actual ← proofJWKThumbprint crypto header.jwk
  refuse (expected ≠ actual) (Sentinel.dpopTokenBinding.error "cnf.jkt does not match DPoP proof key")

def checkAccessToken (proof : Proof) (accessToken : Str) : Except Error Unit := do
  if accessToken ≠ [] then
    refuse (proof.claims.ath = []) (newError "DPoP ath is required when an access token is present")
    refuse (proof.claims.ath ≠ accessTokenHash crypto accessToken) (newError "DPoP ath does not match access token")
    match ← dpopConfirmationThumbprint accessToken with
    | some expectedJKT => confirmDPoPTokenBinding crypto proof.header expectedJKT
    | none => return ()

end Binding

section ReplayKey

variable (crypto : Crypto)

def replayKey (header : ProofHeader) (claims : ProofClaims) : Str :=
  Base64.encode (crypto.sha256 header.jwk) ++ ":" ++ claims.jti

theorem colon : str ":" = [0x3A] := by decide

/-- A replay key is never empty, so `Store` takes it. -/
theorem replayKey_ne_nil (header : ProofHeader) (claims : ProofClaims) : replayKey crypto header claims ≠ [] := by
  rw [replayKey, colon]
  simp

/-- The colon ends the digest, so a replay key determines the key and the identifier. -/
theorem replayKey_inj {crypto} (collisionFree : Function.Injective crypto.sha256) {header header' claims claims'} :
    replayKey crypto header claims = replayKey crypto header' claims' ↔
      header.jwk = header'.jwk ∧ claims.jti = claims'.jti := by
  constructor
  · intro same
    rw [replayKey, replayKey, List.append_assoc, List.append_assoc] at same
    have noColon : ∀ s, (0x3A : UInt8) ∉ encode s :=
      fun s mem => (mem_encode mem).2.2 rfl
    obtain ⟨digest, jti⟩ := append_cons_inj (noColon _) (noColon _) same
    exact ⟨collisionFree (encode_injective digest), jti⟩
  · rintro ⟨jwk, jti⟩
    rw [replayKey, replayKey, jwk, jti]

end ReplayKey

section Verify

variable [Unicode] (crypto : Crypto)

/-- Every check on a parsed proof, at the instant `now`. -/
def checkProof (cfg : AuthConfig) (now : Time) (r : Http.Request) (accessToken : Str)
    (proof : Proof) : Except Error Unit := do
  refuse (equalFold (trimSpace proof.header.typ) "dpop+jwt" = false) (newError "DPoP proof typ must be dpop+jwt")
  if cfg.validateDPoPSignature then verifySignature crypto proof
  refuse (toUpper proof.claims.htm ≠ r.method) (newError "DPoP htm does not match request method")
  refuse (normalizeHTU proof.claims.htu ≠ normalizeHTU (expectedHTU r cfg.publicBaseURL))
    (newError "DPoP htu does not match request target")
  refuse (proof.claims.jti = [] ∨ proof.claims.jti.length > 512) (newError "DPoP jti is required and must be bounded")
  let issuedAt := Time.unix proof.claims.iat
  refuse (issuedAt.after (now.add cfg.maxClockSkew)) (newError "DPoP iat is in the future")
  refuse (issuedAt.before (now.add (wrap64 (wrap64 (-cfg.replayWindow) - cfg.maxClockSkew))))
    (newError "DPoP proof is too old")
  checkAccessToken crypto proof accessToken

/-- `VerifyRequest` up to the replay cache: the key to record and its expiry. -/
def admission (cfg : AuthConfig) (now : Time) (r : Http.Request) (accessToken proof : Str) :
    Except Error (Str × Time) := do
  let proof ← parseProof proof
  checkProof crypto cfg now r accessToken proof
  return (replayKey crypto proof.header proof.claims, (Time.unix proof.claims.iat).add cfg.replayWindow)

/-- One call of `VerifyRequest`: its arguments, what the verifier's clock and then the cache's clock
read during it, and the order in which the cache ranges over its map. -/
structure DPoPCall where
  request : Http.Request
  accessToken : Str
  proof : Str
  now : Time
  cacheNow : Time
  order : RangeOrder Str := default

def verifyRequest (cfg : AuthConfig) (cache : ReplayCache) (c : DPoPCall) : ReplayCache × Except Error Unit :=
  match admission crypto cfg c.now c.request c.accessToken c.proof with
  | .error e => (cache, .error e)
  | .ok (cacheKey, expiresAt) =>
    match cache.store c.order c.cacheNow cacheKey expiresAt with
    | (cache, true) => (cache, .ok ())
    | (cache, false) => (cache, .error (newError "DPoP proof replay detected"))

theorem admission_eq_ok {cfg now r accessToken proof admitted} :
    admission crypto cfg now r accessToken proof = .ok admitted ↔
      ∃ p, parseProof proof = .ok p ∧ checkProof crypto cfg now r accessToken p = .ok () ∧
        admitted = (replayKey crypto p.header p.claims, (Time.unix p.claims.iat).add cfg.replayWindow) := by
  unfold admission
  simp only [bind_eq_ok, pure, Except.pure, Except.ok.injEq]
  constructor
  · rintro ⟨p, parsed, _, checked, rfl⟩
    exact ⟨p, parsed, checked, rfl⟩
  · rintro ⟨p, parsed, checked, rfl⟩
    exact ⟨p, parsed, (), checked, rfl⟩

end Verify

end Authn
