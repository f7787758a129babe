import SolidSidecar.Authn.Identity

/-!
# Identity tokens

A compact RS256 token is parsed, its signature is checked against a key set, and its claims are
validated. `verifyIdentityJWT` fails with the `jwt` sentinel up to the signature and with the
`identityToken` sentinel after it; that is what decides whether a key set is refreshed.
-/

namespace Authn
open Go Strings

def maxCompactJWTLength : Nat := 32768

structure JwtHeader where
  algorithm : Str
  keyID : Str
  deriving DecidableEq, Repr

structure CompactJWT where
  header : JwtHeader
  payload : Str
  signingInput : Str
  signature : Str
  deriving DecidableEq, Repr

structure RsaJWK where
  keyType : Str
  keyID : Str
  algorithm : Str
  use : Str
  n : Str
  e : Str
  deriving DecidableEq, Repr

structure JWKS where
  keys : List Str
  deriving DecidableEq, Repr

section

variable [Unicode] (crypto : Crypto)

/-- The header of a token; its `typ` must be a string and is not looked at. -/
def JwtHeader.unmarshal (data : Str) : Option JwtHeader := do
  let ms ← Json.unmarshal data
  let _ ← Json.stringField "typ" ms
  return {
    algorithm := ← Json.stringField "alg" ms
    keyID := ← Json.stringField "kid" ms }

def RsaJWK.unmarshal (data : Str) : Option RsaJWK := do
  let ms ← Json.unmarshal data
  return {
    keyType := ← Json.stringField "kty" ms
    keyID := ← Json.stringField "kid" ms
    algorithm := ← Json.stringField "alg" ms
    use := ← Json.stringField "use" ms
    n := ← Json.stringField "n" ms
    e := ← Json.stringField "e" ms }

/-- A part of a token: base64url of at least one and at most `limit` bytes. -/
def decodePart (part : Str) (limit : Nat) (text : String) : Except Error Str := do
  let bytes ← orError (Sentinel.jwt.error text) (Base64.decode part)
  refuse (bytes = [] ∨ bytes.length > limit) (Sentinel.jwt.error text)
  return bytes

def parseCompactJWT (token : Str) : Except Error CompactJWT := do
  let token := trimSpace token
  refuse (token = [] ∨ token.length > maxCompactJWTLength ∨ containsAny token lineBreaks)
    (Sentinel.jwt.error "invalid token length")
  match split 0x2E token with
  | [first, second, third] => do
    refuse (first = [] ∨ second = [] ∨ third = []) (Sentinel.jwt.error "compact token must have three parts")
    let headerBytes ← decodePart first 4096 "invalid header"
    let payload ← decodePart second 32768 "invalid payload"
    let signature ← decodePart third 8192 "invalid signature"
    let header ← orError (Sentinel.jwt.error "invalid header json") (JwtHeader.unmarshal headerBytes)
    return ⟨header, payload, first ++ "." ++ second, signature⟩
  | _ => throw (Sentinel.jwt.error "compact token must have three parts")

def bitLen (n : Nat) : Nat := if n = 0 then 0 else n.log2 + 1

def rsaPublicKeyFromJWK (key : RsaJWK) : Except Error (Nat × Int) := do
  let nBytes ← decodePart key.n 8192 "invalid rsa modulus"
  let eBytes ← decodePart key.e 8 "invalid rsa exponent"
  refuse (bigInt eBytes ≥ 2 ^ 63 ∨ bigInt eBytes = 0 ∨ bigInt eBytes > 2 ^ 31 - 1)
    (Sentinel.jwt.error "invalid rsa exponent")
  refuse (bitLen (bigInt nBytes) < 2048) (Sentinel.jwt.error "rsa key too small")
  return (bigInt nBytes, bigInt eBytes)

/-- The loop over the keys: the first key with the wanted identifier is the one that counts. -/
def findRsaKey (kid alg : Str) : List Str → Except Error (Nat × Int)
  | [] => .error (Sentinel.jwt.error "key not found")
  | raw :: rest =>
    match RsaJWK.unmarshal raw with
    | none => .error (Sentinel.jwt.error "invalid jwk")
    | some key =>
      if key.keyID ≠ kid then findRsaKey kid alg rest
      else if key.keyType ≠ "RSA" ∨ key.n = [] ∨ key.e = [] then
        .error (Sentinel.jwt.error "invalid rsa jwk")
      else if key.algorithm ≠ [] ∧ key.algorithm ≠ alg then
        .error (Sentinel.jwt.error "jwk algorithm mismatch")
      else if key.use ≠ [] ∧ key.use ≠ "sig" then
        .error (Sentinel.jwt.error "jwk use mismatch")
      else rsaPublicKeyFromJWK key

def rsaPublicKeyForJWT (jwks : JWKS) (kid alg : Str) : Except Error (Nat × Int) := do
  refuse (kid = [] ∨ alg ≠ "RS256") (Sentinel.jwt.error "invalid key selector")
  refuse (jwks.keys = [] ∨ jwks.keys.length > 32) (Sentinel.jwt.error "invalid jwks")
  findRsaKey kid alg jwks.keys

/-- The checks of `VerifyIdentityJWT` up to the signature. -/
def verifyJWTSignature (jwt : CompactJWT) (jwks : JWKS) : Except Error Unit := do
  refuse (jwt.header.algorithm ≠ "RS256") (Sentinel.jwt.error "unsupported algorithm")
  refuse (jwt.header.keyID = []) (Sentinel.jwt.error "missing key id")
  let (n, e) ← rsaPublicKeyForJWT jwks jwt.header.keyID jwt.header.algorithm
  refuse (crypto.verifyRSA n e (crypto.sha256 jwt.signingInput) jwt.signature = false)
    (Sentinel.jwt.error "signature verification failed")

def verifyIdentityJWT (token : Str) (jwks : JWKS) (opts : IdentityValidationOptions)
    (clock : Time) : Except Error TrustedIdentity := do
  let jwt ← parseCompactJWT token
  verifyJWTSignature crypto jwt jwks
  let claims ← parseIdentityClaimsJSON jwt.payload
  validateIdentityClaims claims opts clock

def tokenClaims (token : Str) : Except Error IdentityClaims := do
  let jwt ← parseCompactJWT token
  parseIdentityClaimsJSON jwt.payload

variable {crypto}

/-- An accepted token carries a signature of the key set and claims that are valid now. -/
theorem verifyIdentityJWT_eq_ok {token jwks opts clock identity} :
    verifyIdentityJWT crypto token jwks opts clock = .ok identity ↔
      ∃ jwt claims, parseCompactJWT token = .ok jwt ∧ verifyJWTSignature crypto jwt jwks = .ok () ∧
        parseIdentityClaimsJSON jwt.payload = .ok claims ∧
        validateIdentityClaims claims opts clock = .ok identity := by
  unfold verifyIdentityJWT
  simp only [bind_eq_ok]
  constructor
  · rintro ⟨jwt, parsed, _, signed, claims, read, valid⟩
    exact ⟨jwt, claims, parsed, signed, read, valid⟩
  · rintro ⟨jwt, claims, parsed, signed, read, valid⟩
    exact ⟨jwt, parsed, (), signed, claims, read, valid⟩

theorem tokenClaims_eq_ok {token claims} : tokenClaims token = .ok claims ↔
      ∃ jwt, parseCompactJWT token = .ok jwt ∧ parseIdentityClaimsJSON jwt.payload = .ok claims := by
  rw [tokenClaims, bind_eq_ok]

end

end Authn
