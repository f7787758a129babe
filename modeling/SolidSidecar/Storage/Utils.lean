import SolidSidecar.Go.Check
import SolidSidecar.Go.Strings
import SolidSidecar.Storage.Types

/-!
# Validation and digests in the storage layer

The functions of `utils.go`, with the two checks of URIs: `validateURI`, which also rewrites its
argument, and `validateStorageURI` of `engine.go`. SHA-256 is a parameter.
-/

namespace Storage
open Go Strings

def maxURILength : Nat := 8192

def maxBodySize : Nat := 100 * 1024 * 1024

def maxContentAddressLength : Nat := 128

def maxResourceCountPerList : Nat := 10000

def alphanumeric (r : Nat) : Bool :=
  (0x61 ≤ r && r ≤ 0x7A) || (0x41 ≤ r && r ≤ 0x5A) || (0x30 ≤ r && r ≤ 0x39)

def validChar (r : Nat) : Bool :=
  alphanumeric r || (str "/.-_~:?#[]!$&'()*+,;=@%").any fun b => b.toNat == r

/-- `ValidateURI`: the URI with a slash in front if it is a relative path, each pair of slashes made
one, and without a slash at the end. -/
def validateURI (uri : Str) : Except StorageError Str := do
  refuse (uri = []) .emptyURI
  refuse (uri.length > maxURILength) .uriTooLong
  refuse ((runes uri).any (fun r => !validChar r) = true) (.errorf "%w: invalid character in URI" .invalidURI)
  let uri := if !hasPrefix uri "/" && !contains uri ":" then "/" ++ uri else uri
  let uri := replaceAll uri "//" "/"
  .ok (if uri.length > 1 && hasSuffix uri "/" then trimSuffix uri "/" else uri)

def validateStorageURI (uri : Str) : Except StorageError Unit := do
  refuse (uri = []) .invalidURI
  refuse (contains uri ".." = true) .invalidURI
  refuse (contains uri "\x00" = true) .invalidURI

def validateBodySize (body : Str) : Except StorageError Unit :=
  refuse (body.length > maxBodySize) .bodyTooLarge

def validateContentAddress (address : ContentAddress) : Except StorageError Unit :=
  if address = [] then .ok ()
  else do
    refuse (address.length > maxContentAddressLength) .addressTooLong
    refuse ((runes address).any (fun r =>
      !(alphanumeric r || (str "-_./:").any fun b => b.toNat == r)) = true) .addressCharacter

/-- The storage root of a URI whose metadata name none: its part before the first slash, or all of it
when that part is empty. -/
def defaultStorageRoot (uri : Str) : Str :=
  let head := (cut uri '/'.toUInt8).1
  if head = [] then uri else head

def storageRootOf (uri : Str) (m : Metadata) : Str :=
  if m.storageRoot = [] then defaultStorageRoot uri else m.storageRoot

def estimateMetadataSize (m : Metadata) : Int :=
  m.uri.length + m.resourceType.length + m.contentType.length + m.digest.length + m.owner.length +
    m.storageRoot.length + m.tenant.length + m.contentAddress.length + m.etag.length +
    m.auxiliaryLinks.textLength + (m.policyReferences.map List.length).sum +
    m.validatorState.textLength + m.custom.textLength + 200

section Digest

variable (sha256 : Str → Str)

def sha256Sum (data : Str) : Str := if data = [] then List.replicate 32 0 else sha256 data

def computeDigest (data : Str) : Str := hexEncode (sha256Sum sha256 data)

def computeContentAddress (data : Str) : ContentAddress := computeDigest sha256 data

def generateETag (data : Str) : Str :=
  if data = [] then "\"0-0\""
  else "\"" ++ hexEncode ((sha256Sum sha256 data).take 8) ++ "\""

end Digest

/-- The content types that `detectContentType` knows by the extension of the URI. -/
def contentTypes : List (String × String) :=
  [(".ttl", "text/turtle"), (".n3", "text/n3"), (".json", "application/json"),
   (".jsonld", "application/ld+json"), (".rdf", "application/rdf+xml"), (".xml", "application/xml"),
   (".html", "text/html"), (".htm", "text/html"), (".txt", "text/plain"), (".jpeg", "image/jpeg"),
   (".jpg", "image/jpeg"), (".png", "image/png"), (".gif", "image/gif")]

def detectContentType (uri data : Str) : Str :=
  match contentTypes.find? fun entry => str entry.1 = Filepath.ext uri with
  | some (_, contentType) => contentType
  | none =>
    if hasPrefix data "\x7b" || hasPrefix data "[" then "application/json"
    else if hasPrefix data "@prefix" then "text/turtle"
    else "application/octet-stream"

end Storage
