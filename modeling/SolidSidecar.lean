import SolidSidecar.Authz.PolicyChange
import SolidSidecar.Kernel.Wire
import SolidSidecar.Authz.GateGuards
import SolidSidecar.Authz.InTree
import SolidSidecar.Authz.CanonicalTriples
import SolidSidecar.Authz.RuleSets
import SolidSidecar.Runtime.RdfIndex
import SolidSidecar.Storage.CacheInvalidator
import SolidSidecar.Storage.Quota
import SolidSidecar.Runtime.ConditionalWrites
import SolidSidecar.Runtime.StorageRetry
import SolidSidecar.Storage.FilesystemIsolation
import SolidSidecar.Runtime.IndexAccess
import SolidSidecar.Runtime.IndexScope
import SolidSidecar.Runtime.EventStreamProgress
import SolidSidecar.Gateway.Handlers
import SolidSidecar.Runtime.ContainerOperations
import SolidSidecar.Authn.DidBinding
import SolidSidecar.Safety.StorageRoot
import SolidSidecar.Sai.StorageRefinement
import SolidSidecar.Sai.Isolation
import SolidSidecar.Compression.Middleware
import SolidSidecar.Sdk.HttpClient
import SolidSidecar.Sdk.SyncSafety
import SolidSidecar.Runtime.EventLogSubscription
import SolidSidecar.Runtime.PolicyCache
import SolidSidecar.Storage.EnginePreconditions
import SolidSidecar.Runtime.MultiStorage
import SolidSidecar.Authn.ClientTrust
