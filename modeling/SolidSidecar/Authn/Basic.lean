import SolidSidecar.Go.Base64
import SolidSidecar.Go.Check
import SolidSidecar.Go.Json
import SolidSidecar.Go.Time

/-!
# Errors, keys and configuration of package `authn`

What the verifiers of the package share: their errors, the cryptographic primitives they call, and
the authentication part of the configuration.
-/

namespace Authn
open Go

/-- The sentinel errors that `errors.Is` is asked about. -/
inductive Sentinel where
  | dpopTokenBinding
  | jwt
  | identityToken
  | issuerMetadata
  deriving DecidableEq, Repr

/-- An error: the sentinel it wraps, its own text after the sentinel's, and a value it quotes. -/
structure Error where
  wraps : Option Sentinel := none
  text : String
  quoted : Str := []
  deriving DecidableEq, Repr

def newError (text : String) : Error := { text }

def Sentinel.error (sentinel : Sentinel) (text : String) : Error := { wraps := sentinel, text }

def Error.is (err : Error) (sentinel : Sentinel) : Bool := err.wraps == some sentinel

/-- The primitives of the `crypto` packages: the digest, the P-256 curve, and the two signature
schemes on a public key, a digest and a signature. -/
structure Crypto where
  sha256 : Str → Str
  onP256 : Nat → Nat → Bool
  verifyECDSA : (x y : Nat) → (digest : Str) → (r s : Nat) → Bool
  verifyRSA : (n : Nat) → (e : Int) → (digest signature : Str) → Bool

/-- Signatures that always verify, and an injective digest. -/
def Crypto.trusting : Crypto where
  sha256 := id
  onP256 _ _ := true
  verifyECDSA _ _ _ _ _ := true
  verifyRSA _ _ _ _ := true

/-- `config.AuthConfig`, without the switch that no function of the package reads. -/
structure AuthConfig where
  preflightEnabled : Bool := true
  requireDPoPForDPoPAuthorization : Bool := true
  validateDPoPSignature : Bool := true
  maxClockSkew : Int := 5 * minute
  replayWindow : Int := 10 * minute
  publicBaseURL : Str := []
  identityValidationEnabled : Bool := false
  allowedIdentityIssuers : List Str := []
  expectedIdentityAudience : Str := []

def bigInt (bytes : Str) : Nat := bytes.foldl (fun n b => n * 256 + b.toNat) 0

/-- The control characters refused in tokens and identifiers. -/
def lineBreaks : Str := [0x0D, 0x0A, 0x00]

end Authn
