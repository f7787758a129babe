import SolidSidecar.Go.Url
import SolidSidecar.Sai.Types

/-!
# Validation of SAI requests

The checks of `validation.go` that the service makes on what a request brings: WebIDs, URLs and IRIs,
and the applications, data grants and data instances that hold them.
-/

namespace Sai
open Go

/-- An error: a text, the error of `url.Parse` behind a text, or an error behind a text. -/
inductive ValidationError where
  | text (text : Str)
  | url (text : String) (cause : Url.ParseError)
  | within (text : Str) (err : ValidationError)
  deriving DecidableEq, Repr

abbrev Check := Except ValidationError Unit

def ValidationError.of (text : String) : ValidationError := .text (str text)

def Check.within (check : Check) (text : String) : Check := check.mapError (.within (str text))

/-- A check on each element of a list, with its index in the error. -/
def checkEach {α : Type} (text : String) (check : α → Check) (l : List α) : Check :=
  checkAll (fun (a, i) => (check a).mapError (.within (str text ++ " at index " ++ str (toString i)))) l.zipIdx

def ifPresent (value : Str) (check : Str → Check) : Check := if value = [] then .ok () else check value

def saiMaxApplicationNameLength : Nat := 256

def saiMaxDescriptionLength : Nat := 1024

def saiMaxIRILength : Nat := 2048

def saiMaxInputSize : Nat := 1024 * 1024

def outside (low : Nat) (s : Str) : Bool := (runes s).any fun r => r < low || r > 0x7E

/-- A length that is exceeded, as the error says it. -/
def tooLong (what : String) (limit : Nat) : ValidationError :=
  .text (str what ++ " exceeds maximum length of " ++ str (toString limit) ++ " characters")

def validateApplicationName (name : Str) : Check := do
  refuse (name = []) (.of "application name cannot be empty")
  refuse (name.length > saiMaxApplicationNameLength) (tooLong "application name" saiMaxApplicationNameLength)
  refuse (outside 0x20 name) (.of "application name contains invalid characters")

def validateDescription (desc : Str) : Check := do
  refuse (desc.length > saiMaxDescriptionLength) (tooLong "description" saiMaxDescriptionLength)
  refuse (outside 0x20 desc) (.of "description contains invalid characters")

def isValidWebIDFragment (fragment : Str) : Bool := fragment ≠ [] && !outside 0x21 fragment

def validateWebID (webID : Str) : Check := do
  refuse (webID = []) (.of "WebID cannot be empty")
  refuse (webID.length > saiMaxIRILength) (tooLong "WebID" saiMaxIRILength)
  let parsed ← (Url.parse webID).mapError (.url "invalid WebID URL")
  refuse (parsed.scheme ≠ "https" ∧ parsed.scheme ≠ "http") (.of "WebID must use http or https scheme")
  refuse (parsed.fragment = []) (.of "WebID must have a fragment identifier")
  refuse (isValidWebIDFragment parsed.fragment = false) (.text ("invalid WebID fragment: " ++ parsed.fragment))

def validatePresentURL (u : Str) : Check := do
  refuse (u.length > saiMaxIRILength) (tooLong "URL" saiMaxIRILength)
  let parsed ← (Url.parse u).mapError (.url "invalid URL")
  refuse (parsed.scheme ≠ "https" ∧ parsed.scheme ≠ "http") (.of "URL must use http or https scheme")
  refuse (parsed.host = []) (.of "URL must have a host")
  refuse ((0x0A : UInt8) ∈ parsed.host ∨ (0x0D : UInt8) ∈ parsed.host) (.of "URL contains invalid characters")

def validateURL (u : Str) : Check := ifPresent u validatePresentURL

def validIRISchemes : List Str :=
  ["http", "https", "urn", "", "pm", "solid", "interop",
    "shapetrees", "solidshapes", "shape", "uuid", "ldp", "acl", "foaf",
    "rdf", "rdfs", "xsd", "solidtrees", "projectron"]

/-- The scheme of an IRI that parses as a URL; one that does not parse is accepted. -/
def checkScheme (iri : Str) : Check :=
  match Url.parse iri with
  | .error _ => .ok ()
  | .ok parsed => refuse (parsed.scheme ∉ validIRISchemes) (.text ("invalid IRI scheme: " ++ parsed.scheme))

def validateIRI (iri : Str) : Check := do
  refuse (iri = []) (.of "IRI cannot be empty")
  refuse (iri.length > saiMaxIRILength) (tooLong "IRI" saiMaxIRILength)
  refuse (outside 0x20 iri) (.of "IRI contains invalid characters")
  checkScheme iri

def validateACLMode : ACLMode → Check
  | .read | .write | .append | .control => .ok ()
  | .other text _ => .error (.text ("invalid ACL mode: " ++ text))

def validateAccessNecessity : AccessNecessity → Check
  | .required | .optional | .prohibited => .ok ()
  | .other text _ => .error (.text ("invalid access necessity: " ++ text))

def validateAccessScenario : AccessScenario → Check
  | .personalAccess | .collaborativeAccess | .publicAccess | .emergencyAccess => .ok ()
  | .other text _ => .error (.text ("invalid access scenario: " ++ text))

def validateScopeOfGrant : ScopeOfGrant → Check
  | .allFromRegistry | .selectedFromRegistry | .inherited => .ok ()
  | .other text _ => .error (.text ("invalid scope of grant: " ++ text))

def validateAccessNeed (need : AccessNeed) : Check := do
  (validateIRI need.id).within "invalid access need ID"
  (validateIRI need.registeredShapeTree).within "invalid registered shape tree"
  checkEach "invalid access mode" validateACLMode need.accessMode
  (validateAccessNecessity need.accessNecessity).within "invalid access necessity"
  (ifPresent need.inheritsFromNeed validateIRI).within "invalid inherits from need"

def validateAccessNeedGroup (group : AccessNeedGroup) : Check := do
  (validateIRI group.id).within "invalid access need group ID"
  (validateAccessNecessity group.accessNecessity).within "invalid access necessity"
  (validateAccessScenario group.accessScenario).within "invalid access scenario"
  checkEach "invalid access need" validateAccessNeed group.hasAccessNeed

/-- `ValidateApplication`; its errors wrap `ErrSAIValidation`. -/
def validateApplication (app : Application) : Check := Check.within (do
  (validateWebID app.id).within "invalid application ID"
  (validateApplicationName app.applicationName).within "invalid application name"
  (validateDescription app.applicationDescription).within "invalid application description"
  (ifPresent app.applicationAuthor validateWebID).within "invalid application author"
  (ifPresent app.applicationThumbnail validateURL).within "invalid application thumbnail"
  checkEach "invalid access need group" validateAccessNeedGroup app.hasAccessNeedGroup
  (ifPresent app.hasAuthorizationCallbackEndpoint validateURL).within "invalid callback endpoint")
  "SAI validation failed"

def validateDataGrant (grant : DataGrant) : Check := do
  (validateIRI grant.id).within "invalid data grant ID"
  (validateWebID grant.dataOwner).within "invalid data owner"
  (validateWebID grant.grantedBy).within "invalid granted by"
  (validateIRI grant.registeredShapeTree).within "invalid registered shape tree"
  (validateIRI grant.hasDataRegistration).within "invalid has data registration"
  checkEach "invalid access mode" validateACLMode grant.accessMode
  (validateScopeOfGrant grant.scopeOfGrant).within "invalid scope of grant"
  checkEach "invalid data instance" validateIRI grant.hasDataInstance
  (ifPresent grant.inheritsFromGrant validateIRI).within "invalid inherits from grant"
  (ifPresent grant.delegationOfGrant validateIRI).within "invalid delegation of grant"

def validateDataInstance (inst : DataInstance) : Check := do
  (validateIRI inst.id).within "invalid instance ID"
  (ifPresent inst.type validateIRI).within "invalid type"
  (ifPresent inst.shapeTree validateIRI).within "invalid shape tree"
  refuse (inst.data.length > saiMaxInputSize)
    (.text ("data exceeds maximum size of " ++ str (toString saiMaxInputSize) ++ " bytes"))
  refuse (inst.contentType = []) (.of "content type cannot be empty")

end Sai
