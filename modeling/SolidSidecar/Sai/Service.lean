import SolidSidecar.Sai.Storage
import SolidSidecar.Sai.Validation

/-!
# The service and its HTTP handler

`service.go` registers applications and data and creates access grants; `handler.go` puts rate
limiting and authentication in front of it. The user that a registration or a grant is filed under is
the one that the body of the request names. The authenticated user is put into the context, which no
operation reads.
-/

namespace Sai
open Go

structure RegisterApplicationRequest where
  application : Application
  userID : Str
  authorizationAgentURL : Str

structure CreateAccessGrantRequest where
  userID : Str
  applicationID : Str
  accessNeedGroupIDs : List Str
  dataGrants : List DataGrant
  authorizationAgentURL : Str

structure RegisterDataRequest where
  userID : Str
  applicationID : Str
  shapeTreeID : Str
  iriPrefix : Str
  initialDataInstances : List DataInstance

inductive ServiceError where
  | contextCancelled
  | invalid (err : ValidationError)
  | storage (text : String) (err : StorageError)
  /-- A nil pointer in a list of registrations. -/
  | nilDereference
  deriving DecidableEq, Repr

def validateRegisterApplicationRequest (req : RegisterApplicationRequest) : Check := do
  (validateWebID req.userID).within "invalid user ID"
  (validateURL req.authorizationAgentURL).within "invalid authorization agent URL"
  (validateApplication req.application).within "invalid application"

def validateCreateAccessGrantRequest (req : CreateAccessGrantRequest) : Check := do
  (validateWebID req.userID).within "invalid user ID"
  (validateWebID req.applicationID).within "invalid application ID"
  (validateURL req.authorizationAgentURL).within "invalid authorization agent URL"
  checkEach "invalid access need group ID" validateIRI req.accessNeedGroupIDs
  checkEach "invalid data grant" validateDataGrant req.dataGrants

def validateRegisterDataRequest (req : RegisterDataRequest) : Check := do
  (validateWebID req.userID).within "invalid user ID"
  (validateWebID req.applicationID).within "invalid application ID"
  (validateIRI req.shapeTreeID).within "invalid shape tree ID"
  (validateURL req.iriPrefix).within "invalid IRI prefix"
  checkEach "invalid data instance" validateDataInstance req.initialDataInstances

/-- What a request finds in the process: the error of its context, the instant it is served at, and
the text of the clock whenever an id is made, by purpose and number. -/
structure Moment where
  contextError : Bool := false
  now : Time
  clock : String → Nat → Str

variable (sha256 : Str → Str)

def generateSAIID (purpose : String) (text : Str) : Str :=
  "urn:sai:" ++ str purpose ++ ":" ++ (hexEncode (sha256 (str purpose ++ text))).take 24

def generateDataInstanceID (iriPrefix text : Str) : Str :=
  iriPrefix ++ (hexEncode (sha256 (iriPrefix ++ text))).take 16

/-- The id that is made for a purpose the `n`-th time. -/
def Moment.newID (moment : Moment) (purpose : String) (n : Nat) : Str :=
  generateSAIID sha256 purpose (moment.clock purpose n)

def Table.put {α : Type} (k : Kind α) (t : Table α) (v : α) : Table α × Option StorageError :=
  ({ t with heap := (t.heap.alloc v).1 } : Table α).store k (some (t.heap.alloc v).2)

abbrev Service (β : Type) := InMemorySAIStorage → InMemorySAIStorage × Except ServiceError β

/-- A store with its error, which ends the operation. -/
def Service.orFail {β : Type} (text : String) (result : InMemorySAIStorage × Option StorageError)
    (next : Service β) : InMemorySAIStorage × Except ServiceError β :=
  match result with
  | (s, some err) => (s, .error (.storage text err))
  | (s, none) => next s

def storeApplication (app : Application) (s : InMemorySAIStorage) : InMemorySAIStorage × Option StorageError :=
  if app.id = [] then (s, some (.idCannotBeEmpty "application"))
  else ({ s with applications := s.applications.insert app.id app }, none)

def storeDataInstance (inst : DataInstance) (s : InMemorySAIStorage) : InMemorySAIStorage × Option StorageError :=
  if inst.id = [] then (s, some (.idCannotBeEmpty "data instance"))
  else ({ s with dataInstances := s.dataInstances.insert inst.id inst }, none)

def storeApplicationRegistration (reg : ApplicationRegistration) (s : InMemorySAIStorage) :
    InMemorySAIStorage × Option StorageError :=
  ({ s with applicationRegistrations := (s.applicationRegistrations.put applicationRegistrations reg).1 },
    (s.applicationRegistrations.put applicationRegistrations reg).2)

def storeAccessGrant (grant : AccessGrant) (s : InMemorySAIStorage) : InMemorySAIStorage × Option StorageError :=
  ({ s with accessGrants := (s.accessGrants.put accessGrants grant).1 }, (s.accessGrants.put accessGrants grant).2)

def storeDataRegistration (reg : DataRegistration) (s : InMemorySAIStorage) :
    InMemorySAIStorage × Option StorageError :=
  ({ s with dataRegistrations := (s.dataRegistrations.put dataRegistrations reg).1 },
    (s.dataRegistrations.put dataRegistrations reg).2)

def storeDataGrant (grant : DataGrant) (s : InMemorySAIStorage) : InMemorySAIStorage × Option StorageError :=
  ({ s with dataGrants := (s.dataGrants.put dataGrants grant).1 }, (s.dataGrants.put dataGrants grant).2)

/-- The registration that `RegisterApplication` makes. -/
def RegisterApplicationRequest.registration (req : RegisterApplicationRequest) (moment : Moment) :
    ApplicationRegistration where
  id := moment.newID sha256 "registration" 0
  registeredBy := req.userID
  registeredWith := req.authorizationAgentURL
  registeredAt := moment.now
  updatedAt := moment.now
  registeredAgent := req.application.id

def registerApplication (moment : Moment) (req : RegisterApplicationRequest) :
    Service ApplicationRegistration := fun s =>
  if moment.contextError then (s, .error .contextCancelled)
  else match validateRegisterApplicationRequest req with
    | .error err => (s, .error (.invalid err))
    | .ok () =>
      Service.orFail "failed to store application" (storeApplication req.application s) fun s =>
      Service.orFail "failed to store application registration"
        (storeApplicationRegistration (req.registration sha256 moment) s) fun s =>
      (s, .ok (req.registration sha256 moment))

def withGrantID (moment : Moment) (grant : DataGrant) (n : Nat) : DataGrant :=
  if grant.id = [] then { grant with id := moment.newID sha256 "data-grant" n } else grant

def storeDataGrants (grants : List DataGrant) (s : InMemorySAIStorage) : InMemorySAIStorage × Option StorageError :=
  match grants with
  | [] => (s, none)
  | grant :: rest =>
    match storeDataGrant grant s with
    | (s, some err) => (s, some err)
    | (s, none) => storeDataGrants rest s

/-- The access grant that `CreateAccessGrant` makes, with the ids of its data grants. -/
def CreateAccessGrantRequest.accessGrant (req : CreateAccessGrantRequest) (moment : Moment) : AccessGrant where
  id := moment.newID sha256 "access-grant" 0
  grantedBy := req.userID
  grantedWith := req.authorizationAgentURL
  grantedAt := moment.now
  providedAt := moment.now
  updatedAt := moment.now
  fromAgent := req.userID
  viaAgent := req.userID
  hasAccessGrantSubject := ⟨moment.newID sha256 "grant-subject" 0, req.userID, req.applicationID⟩
  hasAccessNeedGroup := req.accessNeedGroupIDs
  hasDataGrant := req.dataGrants.zipIdx.map fun (grant, n) => (withGrantID sha256 moment grant n).id

/-- The loop over the registrations of the user: the first one of the application. -/
def findRegistration (applicationID : Str) :
    List (Option ApplicationRegistration) → Except ServiceError (Option ApplicationRegistration)
  | [] => .ok none
  | none :: _ => .error .nilDereference
  | some reg :: rest =>
    if reg.registeredAgent = applicationID then .ok (some reg) else findRegistration applicationID rest

/-- The registration with the grant: the one that was found, or a new one. -/
def CreateAccessGrantRequest.updatedRegistration (req : CreateAccessGrantRequest) (moment : Moment)
    (grantID : Str) : Option ApplicationRegistration → ApplicationRegistration
  | some reg => { reg with hasAccessGrant := grantID, updatedAt := moment.now }
  | none => {
      id := moment.newID sha256 "registration" 0
      registeredBy := req.userID
      registeredWith := req.authorizationAgentURL
      registeredAt := moment.now
      updatedAt := moment.now
      registeredAgent := req.applicationID
      hasAccessGrant := grantID }

def Table.listed {α : Type} (k : Kind α) (t : Table α) (user : Str) : List (Option α) :=
  (t.list k default user).2.map fun ref => ref.bind (t.list k default user).1.heap.read

/-- The end of `CreateAccessGrant`: the registration is found and stored again, or made. -/
def recordGrant (moment : Moment) (req : CreateAccessGrantRequest) : Service AccessGrant := fun s =>
  let grant := req.accessGrant sha256 moment
  let listed := s.applicationRegistrations.listed applicationRegistrations req.userID
  let s := { s with applicationRegistrations :=
    (s.applicationRegistrations.list applicationRegistrations default req.userID).1 }
  match findRegistration req.applicationID listed with
  | .error err => (s, .error err)
  | .ok found =>
    Service.orFail "failed to store application registration"
      (storeApplicationRegistration (req.updatedRegistration sha256 moment grant.id found) s) fun s =>
    (s, .ok grant)

def createAccessGrant (moment : Moment) (req : CreateAccessGrantRequest) : Service AccessGrant := fun s =>
  if moment.contextError then (s, .error .contextCancelled)
  else match validateCreateAccessGrantRequest req with
    | .error err => (s, .error (.invalid err))
    | .ok () =>
      Service.orFail "failed to store data grant"
        (storeDataGrants (req.dataGrants.zipIdx.map fun (grant, n) => withGrantID sha256 moment grant n) s)
        fun s =>
      Service.orFail "failed to store access grant"
        (storeAccessGrant (req.accessGrant sha256 moment) s) (recordGrant sha256 moment req)

def withInstanceID (moment : Moment) (iriPrefix : Str) (inst : DataInstance) (n : Nat) : DataInstance :=
  if inst.id = [] then
    { inst with id := generateDataInstanceID sha256 iriPrefix (moment.clock "data-instance" n) }
  else inst

def storeDataInstances (instances : List (DataInstance × Nat)) : Service Unit := fun s =>
  match instances with
  | [] => (s, .ok ())
  | (inst, n) :: rest =>
    match validateDataInstance inst with
    | .error err => (s, .error (.invalid (.within ("invalid data instance at index " ++ str (toString n)) err)))
    | .ok () =>
      Service.orFail "failed to store data instance" (storeDataInstance inst s) (storeDataInstances rest)

def RegisterDataRequest.instances (req : RegisterDataRequest) (moment : Moment) : List (DataInstance × Nat) :=
  req.initialDataInstances.zipIdx.map fun (inst, n) => (withInstanceID sha256 moment req.iriPrefix inst n, n)

def RegisterDataRequest.registration (req : RegisterDataRequest) (moment : Moment) : DataRegistration where
  id := moment.newID sha256 "data-registration" 0
  registeredShapeTree := req.shapeTreeID
  registeredAt := moment.now
  registeredBy := req.userID
  registeredWith := req.applicationID
  iriPrefix := req.iriPrefix
  contains := (req.instances sha256 moment).map fun p => p.1.id

def registerData (moment : Moment) (req : RegisterDataRequest) : Service DataRegistration := fun s =>
  if moment.contextError then (s, .error .contextCancelled)
  else match validateRegisterDataRequest req with
    | .error err => (s, .error (.invalid err))
    | .ok () =>
      match storeDataInstances (req.instances sha256 moment) s with
      | (s, .error err) => (s, .error err)
      | (s, .ok ()) =>
        Service.orFail "failed to store data registration"
          (storeDataRegistration (req.registration sha256 moment) s) fun s =>
        (s, .ok (req.registration sha256 moment))

structure RateLimiter where
  maxRequests : Int
  window : Int
  lastRequest : Time
  requests : Int := 0

def RateLimiter.allow (rl : RateLimiter) (now : Time) : RateLimiter × Bool :=
  let rl := if now.sub rl.lastRequest > rl.window then { rl with requests := 0, lastRequest := now } else rl
  let rl := { rl with requests := rl.requests + 1 }
  (rl, rl.requests ≤ rl.maxRequests)

/-- The decoded body of a request to one of the three routes; nothing if it does not decode. -/
inductive Body where
  | applications (req : Option RegisterApplicationRequest)
  | grants (req : Option CreateAccessGrantRequest)
  | dataRegistrations (req : Option RegisterDataRequest)

def Body.userID : Body → Option Str
  | .applications req => req.map (·.userID)
  | .grants req => req.map (·.userID)
  | .dataRegistrations req => req.map (·.userID)

/-- A `POST` request: what the authenticator looks at, the body, and the moment. -/
structure Arrival (ρ : Type) where
  request : ρ
  body : Body
  moment : Moment

inductive Response where
  | tooManyRequests
  | unauthorized
  | badRequest
  | failed (err : ServiceError)
  | registered (reg : ApplicationRegistration)
  | granted (grant : AccessGrant)
  | dataRegistered (reg : DataRegistration)

def Response.of {β : Type} (answer : β → Response) : Except ServiceError β → Response
  | .ok b => answer b
  | .error err => .failed err

def Body.serve (body : Body) (moment : Moment) (s : InMemorySAIStorage) : InMemorySAIStorage × Response :=
  match body with
  | .applications none | .grants none | .dataRegistrations none => (s, .badRequest)
  | .applications (some req) =>
    ((registerApplication sha256 moment req s).1, .of .registered (registerApplication sha256 moment req s).2)
  | .grants (some req) =>
    ((createAccessGrant sha256 moment req s).1, .of .granted (createAccessGrant sha256 moment req s).2)
  | .dataRegistrations (some req) =>
    ((registerData sha256 moment req s).1, .of .dataRegistered (registerData sha256 moment req s).2)

structure Handler where
  limiter : RateLimiter
  storage : InMemorySAIStorage := {}

variable {ρ : Type} (authenticate : ρ → Option Str)

/-- `withSAISecurityMiddleware` and the operation of the route. -/
def Handler.serve (h : Handler) (a : Arrival ρ) : Handler × Response :=
  match h.limiter.allow a.moment.now with
  | (limiter, false) => ({ h with limiter }, .tooManyRequests)
  | (limiter, true) =>
    match authenticate a.request with
    | none => ({ h with limiter }, .unauthorized)
    | some _ =>
      ({ limiter, storage := (a.body.serve sha256 a.moment h.storage).1 }, (a.body.serve sha256 a.moment h.storage).2)

end Sai
