import SolidSidecar.Go.Time
import SolidSidecar.Runtime.Privacy

/-!
# Stream events and filters

The records that the event stream, the durable log, the subscription registry and the fan-out share.
-/

namespace Runtime
open Go

/-- `StreamEvent`. A nil metadata map is told from an empty one. -/
structure StreamEvent where
  eventID : Str
  eventType : Str
  resourceURI : Str
  containerURI : Str
  timestamp : Time
  agent : Str
  agentType : Str
  action : Str
  metadata : Option (GoMap Str Str)
  sequenceNumber : Int
  streamTimestamp : Time
  privacyLevel : PrivacyLevel

structure StreamFilter where
  resourceURIs : List Str
  resourcePatterns : List Str
  containerURIs : List Str
  eventTypes : List Str
  agents : List Str
  minPrivacyLevel : PrivacyLevel
  maxPrivacyLevel : PrivacyLevel
  deriving DecidableEq, Repr

def validPrivacyLevels : List PrivacyLevel :=
  [privacyLevelPublic, privacyLevelMetadata, privacyLevelSensitive, privacyLevelPrivate]

/-- A resource is in a container when its URI goes on from the container's. -/
def isInContainer (resourceURI containerURI : Str) : Bool :=
  decide (containerURI.length < resourceURI.length) && containerURI.isPrefixOf resourceURI

end Runtime
