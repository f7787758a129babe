import SolidSidecar.Go.Url

/-!
# Validation in the runtime

The checks of `validation.go` that the layers of the runtime make of their arguments.
-/

namespace Runtime
open Go Strings

def maxURILength : Nat := 4096

def maxWebIDLength : Nat := 4096

def maxResourceSize : Nat := 10 * 1024 * 1024

def maxContentTypeLength : Nat := 256

inductive ValidationError where
  | invalidURI (cause : Option Url.ParseError)
  | uriTooLong
  | invalidURIScheme (scheme : Str)
  | invalidURICharacters
  | invalidWebID (cause : Option Url.ParseError)
  | resourceTooLarge
  | invalidContentType
  | contentTypeTooLong
  | emptyTerm
  deriving DecidableEq, Repr

def control (r : Nat) : Bool := r < 0x20 || r == 0x7F

def allowedSchemes : List Str :=
  ["http", "https", "boundary", "file", "memory", "internal", "test"]

def validateURI (uri : Str) : Except ValidationError Unit := do
  refuse (uri = []) (.invalidURI none)
  refuse (uri.length > maxURILength) .uriTooLong
  refuse ((runes uri).any control = true) .invalidURICharacters
  refuse (containsAny uri "\\#" = true) .invalidURICharacters
  match Url.parse uri with
  | .error err => .error (.invalidURI (some err))
  | .ok parsed => do
    refuse (parsed.scheme ∉ allowedSchemes) (.invalidURIScheme parsed.scheme)
    refuse ((parsed.scheme = "http" ∨ parsed.scheme = "https") ∧ parsed.host = []) (.invalidURI none)

def validateWebID (webID : Str) : Except ValidationError Unit := do
  refuse (webID = []) (.invalidWebID none)
  refuse (webID.length > maxWebIDLength) .uriTooLong
  refuse ((runes webID).any control = true) .invalidURICharacters
  match Url.parse webID with
  | .error err => .error (.invalidWebID (some err))
  | .ok parsed => do
    refuse (parsed.scheme ≠ "http" ∧ parsed.scheme ≠ "https") (.invalidURIScheme parsed.scheme)
    refuse (parsed.host = []) (.invalidWebID none)

def validateContainerURI (uri : Str) : Except ValidationError Unit := do
  refuse (uri = []) (.invalidURI none)
  validateURI uri

def validatePolicyURI (uri : Str) : Except ValidationError Unit := validateURI uri

def validateResourceSize (size : Nat) : Except ValidationError Unit :=
  refuse (size > maxResourceSize) .resourceTooLarge

def validateContentType (contentType : Str) : Except ValidationError Unit := do
  refuse (contentType = []) .invalidContentType
  refuse (contentType.length > maxContentTypeLength) .contentTypeTooLong
  refuse ((runes contentType).any control = true) .invalidURICharacters

/-- `ValidateRDFTerm`, which takes a web address with a fragment for a malicious one. -/
def validateRDFTerm (term : Str) : Except ValidationError Unit := do
  refuse (term = []) .emptyTerm
  refuse ((runes term).any control = true) .invalidURICharacters
  refuse ((hasPrefix term "http://" || hasPrefix term "https://") = true ∧
    containsAny term "\\#" = true) .invalidURICharacters

def ifPresent {ε : Type} (check : Str → Except ε Unit) (s : Str) : Except ε Unit :=
  if s = [] then .ok () else check s

@[simp] theorem ifPresent_eq_ok {ε} {check : Str → Except ε Unit} {s} :
    ifPresent check s = .ok () ↔ s = [] ∨ check s = .ok () := by
  unfold ifPresent
  split_ifs with absent <;> simp [absent]

@[simp] theorem validateURI_nil : validateURI [] ≠ .ok () := by decide

@[simp] theorem validateWebID_nil : validateWebID [] ≠ .ok () := by decide

end Runtime
