import SolidSidecar.Go.Str
import SolidSidecar.Go.Time

/-!
# The data of package `sai`

Applications with their access needs, registrations, grants and data instances. The enumerations are
string types in the source, and a value outside the constants can arrive in a request; the
constructor `other` keeps such a value.
-/

namespace Sai
open Go

def knownACLModes : List Str :=
  ["http://www.w3.org/ns/auth/acl#Read", "http://www.w3.org/ns/auth/acl#Write",
    "http://www.w3.org/ns/auth/acl#Append", "http://www.w3.org/ns/auth/acl#Control"]

inductive ACLMode where
  | read
  | write
  | append
  | control
  | other (text : Str) (unknown : text ∉ knownACLModes)
  deriving DecidableEq, Repr

def ACLMode.zero : ACLMode := .other [] (by decide)

def knownScopes : List Str :=
  ["http://www.w3.org/ns/solid/interop#AllFromRegistry", "http://www.w3.org/ns/solid/interop#SelectedFromRegistry",
    "http://www.w3.org/ns/solid/interop#Inherited"]

inductive ScopeOfGrant where
  | allFromRegistry
  | selectedFromRegistry
  | inherited
  | other (text : Str) (unknown : text ∉ knownScopes)
  deriving DecidableEq, Repr

def knownNecessities : List Str :=
  ["http://www.w3.org/ns/solid/interop#accessRequired", "http://www.w3.org/ns/solid/interop#accessOptional",
    "http://www.w3.org/ns/solid/interop#accessProhibited"]

inductive AccessNecessity where
  | required
  | optional
  | prohibited
  | other (text : Str) (unknown : text ∉ knownNecessities)
  deriving DecidableEq, Repr

def knownScenarios : List Str :=
  ["http://www.w3.org/ns/solid/interop#PersonalAccess", "http://www.w3.org/ns/solid/interop#CollaborativeAccess",
    "http://www.w3.org/ns/solid/interop#PublicAccess",
    "http://www.w3.org/ns/solid/interop#EmergencyAccess"]

inductive AccessScenario where
  | personalAccess
  | collaborativeAccess
  | publicAccess
  | emergencyAccess
  | other (text : Str) (unknown : text ∉ knownScenarios)
  deriving DecidableEq, Repr

structure AccessNeed where
  id : Str
  registeredShapeTree : Str
  accessMode : List ACLMode := []
  accessNecessity : AccessNecessity
  inheritsFromNeed : Str := []
  deriving DecidableEq, Repr

structure AccessNeedGroup where
  id : Str
  accessNecessity : AccessNecessity
  accessScenario : AccessScenario
  authenticatesAs : Str := []
  hasAccessNeed : List AccessNeed := []
  deriving DecidableEq, Repr

structure Application where
  id : Str
  applicationName : Str
  applicationDescription : Str := []
  applicationAuthor : Str := []
  applicationThumbnail : Str := []
  hasAccessNeedGroup : List AccessNeedGroup := []
  hasAuthorizationCallbackEndpoint : Str := []
  authenticatesAs : Str := []
  deriving DecidableEq, Repr

structure ApplicationRegistration where
  id : Str
  registeredBy : Str
  registeredWith : Str
  registeredAt : Time
  updatedAt : Time
  registeredAgent : Str
  hasAccessGrant : Str := []
  deriving DecidableEq, Repr

structure AccessGrantSubject where
  id : Str
  accessByAgent : Str
  accessByApplication : Str
  deriving DecidableEq, Repr

structure AccessGrant where
  id : Str
  grantedBy : Str
  grantedWith : Str
  grantedAt : Time
  providedAt : Time
  updatedAt : Time
  fromAgent : Str
  viaAgent : Str
  hasAccessGrantSubject : AccessGrantSubject
  hasAccessNeedGroup : List Str := []
  hasDataGrant : List Str := []
  deriving DecidableEq, Repr

structure DataGrant where
  id : Str
  dataOwner : Str
  grantedBy : Str
  registeredShapeTree : Str
  hasDataRegistration : Str
  accessMode : List ACLMode := []
  scopeOfGrant : ScopeOfGrant
  hasDataInstance : List Str := []
  inheritsFromGrant : Str := []
  delegationOfGrant : Str := []
  deriving DecidableEq, Repr

structure DataRegistration where
  id : Str
  registeredShapeTree : Str
  registeredAt : Time
  registeredBy : Str
  registeredWith : Str
  iriPrefix : Str
  contains : List Str := []
  deriving DecidableEq, Repr

structure DataInstance where
  id : Str
  type : Str := []
  shapeTree : Str := []
  data : Str := []
  contentType : Str := []
  deriving DecidableEq, Repr

/-- A list that is made with its length and then appended to: as many zero values come first. -/
def appendedCopy {α : Type} (zero : α) (l : List α) : List α := List.replicate l.length zero ++ l

def copyAccessGrant (grant : AccessGrant) : AccessGrant :=
  { grant with
    hasAccessNeedGroup := appendedCopy [] grant.hasAccessNeedGroup
    hasDataGrant := appendedCopy [] grant.hasDataGrant }

def copyDataGrant (grant : DataGrant) : DataGrant :=
  { grant with
    accessMode := appendedCopy ACLMode.zero grant.accessMode
    hasDataInstance := appendedCopy [] grant.hasDataInstance }

def copyDataRegistration (reg : DataRegistration) : DataRegistration :=
  { reg with contains := appendedCopy [] reg.contains }

end Sai
