import SolidSidecar.Go.Check
import SolidSidecar.Go.Postings
import SolidSidecar.Runtime.Events

/-!
# The subscription registry

`subscription_registry.go`: subscriptions by id, and two indexes from WebIDs and channels to ids. An entry
of the table stands under its own id (`SubscriptionTable`).

The providers are what a call is given: functions that decide for the length of that call. So is a new
id, the clock and the cursor of the durable log. A nil dereference is an outcome of its own.
-/

namespace Runtime
open Go

inductive SubscriptionStatus where
  | active
  | paused
  | cancelled
  | expired
  | error
  deriving DecidableEq, Repr

structure Subscription where
  subscriptionID : Str
  webID : Str
  clientID : Str
  channelID : Str
  filter : StreamFilter
  endpoint : Str
  protocol : Str
  status : SubscriptionStatus
  created : Time
  lastActivity : Time
  lastCursor : Int
  resumeCursor : Int
  priority : Int
  metadata : Option (GoMap Str Str)
  errorCount : Int
  lastError : Str

inductive SubscriptionError where
  | closed
  | maxSubscriptionsReached
  | maxSubscriptionsPerWebIDReached (limit : Int)
  | authenticationRequired (cause : Str)
  | invalidSubscriptionFilter
  | accessCheckFailed (cause : Str)
  | resourceAccessDenied (webID resourceURI : Str)
  | containerAccessDenied (webID containerURI : Str)
  | alreadyExists
  | notFound
  deriving DecidableEq, Repr

/-- An authentication provider: what it answers to a WebID, and to a WebID and a token. -/
structure Authenticator where
  validateWebID : Str → Except Str Unit
  authenticate : Str → Str → Except Str Str

/-- An authorization provider: whether an agent may read a resource. -/
structure Authorizer where
  checkAccess : Str → Str → Except Str Bool

structure SubscriptionRegistryConfig where
  maxSubscriptions : Int
  maxSubscriptionsPerWebID : Int
  maxSubscriptionAge : Int

def defaultSubscriptionRegistryConfig : SubscriptionRegistryConfig where
  maxSubscriptions := 10000
  maxSubscriptionsPerWebID := 100
  maxSubscriptionAge := 24 * hour

def StreamFilter.validLevel (level : PrivacyLevel) : Bool := level = [] || validPrivacyLevels.contains level

def validateSubscriptionFilter (filter : StreamFilter) : Except SubscriptionError Unit := do
  refuse (filter.minPrivacyLevel ≠ [] ∧ filter.maxPrivacyLevel ≠ [] ∧
    Str.less filter.maxPrivacyLevel filter.minPrivacyLevel = true) .invalidSubscriptionFilter
  refuse (StreamFilter.validLevel filter.minPrivacyLevel = false) .invalidSubscriptionFilter
  refuse (StreamFilter.validLevel filter.maxPrivacyLevel = false) .invalidSubscriptionFilter

/-- `filtersEqual`, which compares levels and lengths. -/
def filtersEqual (a b : StreamFilter) : Bool :=
  a.minPrivacyLevel == b.minPrivacyLevel && a.maxPrivacyLevel == b.maxPrivacyLevel &&
  a.eventTypes.length == b.eventTypes.length && a.resourceURIs.length == b.resourceURIs.length &&
  a.containerURIs.length == b.containerURIs.length

/-- `subscriptions`: an entry stands under its own id. -/
structure SubscriptionTable where
  entries : GoMap Str Subscription
  keyed : ∀ id sub, entries.lookup id = some sub → sub.subscriptionID = id

namespace SubscriptionTable

variable (table : SubscriptionTable)

def empty : SubscriptionTable := ⟨∅, by intro id sub found; cases found⟩

def lookup (table : SubscriptionTable) (id : Str) : Option Subscription := table.entries.lookup id

def put (sub : Subscription) : SubscriptionTable where
  entries := table.entries.insert sub.subscriptionID sub
  keyed := by
    intro id sub' found
    rw [GoMap.lookup_insert_eq] at found
    split_ifs at found with same
    · cases found
      exact same.symm
    · exact table.keyed id sub' found

def delete (id : Str) : SubscriptionTable where
  entries := table.entries.erase id
  keyed := fun id' sub found => table.keyed id' sub (GoMap.erase_sub table.entries id id' sub found)

theorem lookup_put (sub : Subscription) (id : Str) :
    (table.put sub).lookup id = if id = sub.subscriptionID then some sub else table.lookup id :=
  GoMap.lookup_insert_eq table.entries sub.subscriptionID id sub

theorem lookup_delete (id id' : Str) : (table.delete id).lookup id' = if id' = id then none else table.lookup id' :=
  GoMap.lookup_erase_eq table.entries id id'

end SubscriptionTable

structure SubscriptionRegistry where
  config : SubscriptionRegistryConfig
  subscriptions : SubscriptionTable
  subscriptionsByWebID : Postings Str Str
  subscriptionsByChannel : Postings Str Str
  closed : Bool

inductive Created where
  | ok (sub : Subscription)
  | error (err : SubscriptionError)
  | nilDereference

structure CreateRequest where
  webID : Str
  token : Str
  clientID : Str
  channelID : Str
  filter : StreamFilter
  endpoint : Str
  protocol : Str
  priority : Int
  metadata : Option (GoMap Str Str)

/-- What a call meets: the clock, the providers, the cursor of the log and the id it generates. -/
structure CallContext where
  now : Time
  auth : Option Authenticator := none
  authz : Option Authorizer := none
  cursor : Int := 0
  newID : Str := []

namespace SubscriptionRegistry

variable (r : SubscriptionRegistry)

def new (config : SubscriptionRegistryConfig) : SubscriptionRegistry where
  config := config
  subscriptions := .empty
  subscriptionsByWebID := ∅
  subscriptionsByChannel := ∅
  closed := false

/-- The subscription is looked up first; one that is gone is not taken out of the indexes. -/
def removeFromIndexes (id : Str) : SubscriptionRegistry :=
  match r.subscriptions.lookup id with
  | none => r
  | some sub =>
    { r with
      subscriptionsByWebID := r.subscriptionsByWebID.leaveFirst sub.webID id
      subscriptionsByChannel := r.subscriptionsByChannel.leaveFirst sub.channelID id }

def delete (r : SubscriptionRegistry) (id : Str) : SubscriptionRegistry :=
  { r with subscriptions := r.subscriptions.delete id }

def stale (cutoff : Time) (sub : Subscription) : Bool :=
  sub.status == .active && sub.lastActivity.before cutoff

/-- The cleanup deletes each stale subscription and unindexes it then. -/
def cleanupStaleSubscriptions (now : Time) (order : RangeOrder (Str × Subscription)) (r : SubscriptionRegistry) :
    SubscriptionRegistry :=
  if r.closed then r
  else
    let cutoff := now.add (-r.config.maxSubscriptionAge)
    let toRemove := ((order.visit r.subscriptions.entries.pairs).filter fun e => stale cutoff e.2).map Prod.fst
    toRemove.foldl (fun r id => (r.delete id).removeFromIndexes id) r

/-- The WebID to go by, once the authentication provider was asked. -/
def authenticate (auth : Option Authenticator) (webID token : Str) : Except SubscriptionError Str :=
  match auth with
  | none => .ok webID
  | some provider => do
    (provider.validateWebID webID).mapError .authenticationRequired
    (provider.authenticate webID token).mapError .authenticationRequired

def requireAccess (provider : Authorizer) (webID uri : Str) (denied : SubscriptionError) :
    Except SubscriptionError Unit := do
  let granted ← (provider.checkAccess webID uri).mapError .accessCheckFailed
  refuse (granted = false) denied

def authorize (authz : Option Authorizer) (webID : Str) (filter : StreamFilter) : Except SubscriptionError Unit :=
  match authz with
  | none => .ok ()
  | some provider => do
    checkAll (fun uri => requireAccess provider webID uri (.resourceAccessDenied webID uri)) filter.resourceURIs
    checkAll (fun uri => requireAccess provider webID uri (.containerAccessDenied webID uri)) filter.containerURIs

/-- Whether one of the listed subscriptions is the one asked for; `none` when a listed one is missing. -/
def isDuplicate (r : SubscriptionRegistry) (request : CreateRequest) : List Str → Option Bool
  | [] => some false
  | id :: rest =>
    match r.subscriptions.lookup id with
    | none => none
    | some sub =>
      if sub.clientID = request.clientID ∧ sub.channelID = request.channelID ∧
          filtersEqual sub.filter request.filter = true then some true
      else r.isDuplicate request rest

/-- The checks before the search for a duplicate. They end with the authenticated WebID. -/
def admission (c : CallContext) (r : SubscriptionRegistry) (request : CreateRequest) : Except SubscriptionError Str := do
  refuse (r.closed = true) .closed
  refuse (r.config.maxSubscriptions ≤ r.subscriptions.entries.size) .maxSubscriptionsReached
  refuse (r.config.maxSubscriptionsPerWebID ≤ (r.subscriptionsByWebID.under request.webID).length)
    (.maxSubscriptionsPerWebIDReached r.config.maxSubscriptionsPerWebID)
  let webID ← authenticate c.auth request.webID request.token
  validateSubscriptionFilter request.filter
  authorize c.authz webID request.filter
  .ok webID

def newSubscription (c : CallContext) (request : CreateRequest) (webID : Str) : Subscription where
  subscriptionID := c.newID
  webID := webID
  clientID := request.clientID
  channelID := request.channelID
  filter := request.filter
  endpoint := request.endpoint
  protocol := request.protocol
  status := .active
  created := c.now
  lastActivity := c.now
  lastCursor := c.cursor
  resumeCursor := c.cursor
  priority := request.priority
  metadata := request.metadata
  errorCount := 0
  lastError := []

def insert (sub : Subscription) : SubscriptionRegistry :=
  { r with
    subscriptions := r.subscriptions.put sub
    subscriptionsByWebID := r.subscriptionsByWebID.enter sub.webID sub.subscriptionID
    subscriptionsByChannel := r.subscriptionsByChannel.enter sub.channelID sub.subscriptionID }

def createSubscription (c : CallContext) (r : SubscriptionRegistry) (request : CreateRequest) :
    SubscriptionRegistry × Created :=
  match admission c r request with
  | .error err => (r, .error err)
  | .ok webID =>
    let listed := if 0 < r.config.maxSubscriptionsPerWebID then r.subscriptionsByWebID.under webID else []
    match r.isDuplicate request listed with
    | none => (r, .nilDereference)
    | some true => (r, .error .alreadyExists)
    | some false =>
      let sub := newSubscription c request webID
      (r.insert sub, .ok sub)

def modify (id : Str) (f : Subscription → Except SubscriptionError Subscription) :
    SubscriptionRegistry × Except SubscriptionError Unit :=
  if r.closed then (r, .error .closed)
  else
    match r.subscriptions.lookup id with
    | none => (r, .error .notFound)
    | some sub =>
      match f sub with
      | .error err => (r, .error err)
      | .ok sub' => ({ r with subscriptions := r.subscriptions.put sub' }, .ok ())

def mergeMetadata (old : Option (GoMap Str Str)) (new : Option (GoMap Str Str)) : Option (GoMap Str Str) :=
  match new with
  | none => old
  | some members => some (members.pairs.foldl (fun m kv => m.insert kv.1 kv.2) (old.getD ∅))

/-- A new filter is checked and, unlike at creation, not authorized. -/
def checkNewFilter : Option StreamFilter → Except SubscriptionError Unit
  | none => .ok ()
  | some filter => validateSubscriptionFilter filter

def updateSubscription (now : Time) (r : SubscriptionRegistry) (id : Str) (filter : Option StreamFilter)
    (priority : Option Int) (metadata : Option (GoMap Str Str)) :
    SubscriptionRegistry × Except SubscriptionError Unit :=
  r.modify id fun sub => do
    checkNewFilter filter
    .ok { sub with
      filter := filter.getD sub.filter
      priority := priority.getD sub.priority
      metadata := mergeMetadata sub.metadata metadata
      lastActivity := now }

def setStatus (now : Time) (status : SubscriptionStatus) (sub : Subscription) : Subscription :=
  if sub.status = status then sub else { sub with status := status, lastActivity := now }

def pauseSubscription (now : Time) (r : SubscriptionRegistry) (id : Str) :
    SubscriptionRegistry × Except SubscriptionError Unit :=
  r.modify id fun sub => .ok (setStatus now .paused sub)

def resumeSubscription (now : Time) (r : SubscriptionRegistry) (id : Str) :
    SubscriptionRegistry × Except SubscriptionError Unit :=
  r.modify id fun sub => .ok (setStatus now .active sub)

/-- The subscription is unindexed while it is still stored. -/
def cancelSubscription (id : Str) : SubscriptionRegistry × Except SubscriptionError Unit :=
  if r.closed then (r, .error .closed)
  else
    match r.subscriptions.lookup id with
    | none => (r, .error .notFound)
    | some _ => ((r.removeFromIndexes id).delete id, .ok ())

/-- Whether a listed subscription meets the criteria that are given. -/
def meets (webID channelID protocol : Str) (status : Option SubscriptionStatus) (sub : Subscription) : Bool :=
  (webID = [] || sub.webID == webID) && (channelID = [] || sub.channelID == channelID) &&
  (match status with
    | none => true
    | some status => sub.status == status) &&
  (protocol = [] || sub.protocol == protocol)

/-- The subscriptions that meet the criteria, a limit of 0 being none, and how many there are. -/
def listSubscriptions (order : RangeOrder Subscription) (r : SubscriptionRegistry) (webID channelID : Str)
    (status : Option SubscriptionStatus) (protocol : Str) (limit offset : Nat) :
    Except SubscriptionError (List Subscription × Nat) := do
  refuse (r.closed = true) .closed
  let all := (order.visit r.subscriptions.entries.values).filter (meets webID channelID protocol status)
  let page := all.drop offset
  .ok (if limit = 0 then page else page.take limit, all.length)

/-- Whether the filter of a subscription admits an event about a resource. -/
def admits (filter : StreamFilter) (resourceURI : Str) (privacyLevel : PrivacyLevel) : Bool :=
  !below filter.minPrivacyLevel privacyLevel && !above filter.maxPrivacyLevel privacyLevel &&
  (filter.resourceURIs.isEmpty || filter.resourceURIs.contains resourceURI) &&
  (filter.containerURIs.isEmpty || filter.containerURIs.contains resourceURI ||
    filter.containerURIs.any (isInContainer resourceURI))

def checkAccessForSubscription (authz : Option Authorizer) (r : SubscriptionRegistry) (id resourceURI : Str)
    (privacyLevel : PrivacyLevel) : Except SubscriptionError Bool := do
  refuse (r.closed = true) .closed
  let sub ← orError .notFound (r.subscriptions.lookup id)
  if sub.status ≠ .active ∨ admits sub.filter resourceURI privacyLevel = false then .ok false
  else
    match authz with
    | none => .ok true
    | some provider =>
      if sub.webID = [] then .ok true
      else (provider.checkAccess sub.webID resourceURI).mapError .accessCheckFailed

end SubscriptionRegistry

end Runtime
