import SolidSidecar.Authn.Identity
import SolidSidecar.Authz.Audit
import SolidSidecar.Authz.Validation
import SolidSidecar.Go.Http

/-!
# The request builder

`builder.go` makes an authorization request out of an HTTP request and the values in its context,
`policy_input.go` brings policy documents and resource metadata into a normal form on the way. The
requester is the identity that the context carries; without one the fields stay empty, and the
request is that of an anonymous agent. `mime.ParseMediaType` is a parameter.
-/

namespace Authz
open Go Strings
open Authn (TrustedIdentity)

/-- The values of a request's context that the handlers of the gateway read. -/
structure Context where
  requestID : Str := []
  identity : Option TrustedIdentity := none
  policyDocuments : List PolicyDocument := []

def noIdentity : TrustedIdentity := ⟨[], [], [], [], Time.zero⟩

def Context.identityFromContext (ctx : Context) : TrustedIdentity := ctx.identity.getD noIdentity

def invalidPolicyInput (text : String) : String := "invalid authz policy input: " ++ text

def containsControlRune (value : Str) : Bool := (runes value).any fun r => r < 0x20 || r == 0x7F

section

variable [Unicode]

-- `mime.ParseMediaType`: the type and its parameters, whose names are distinct.
variable (parseMediaType : Str → Option (Str × List (Str × Str)))

def canonicalKey (key : Str) : Str := toLower (trimSpace key)

def badParameter (parameter : Str × Str) : Bool :=
  canonicalKey parameter.1 = [] || containsAny (canonicalKey parameter.1) Authn.lineBreaks ||
    containsControlRune parameter.2

/-- The parameters as text, in the order of their names. -/
def parameterTexts (parameters : List (Str × Str)) : List Str :=
  ((parameters.map fun p => (canonicalKey p.1, p.2)).insertionSort fun p q => p.1.le q.1 = true).map
    fun p => p.1 ++ "=" ++ p.2

def normalizeContentType (value : Str) : Except String Str := do
  refuse (trimSpace value = []) (invalidPolicyInput "policy document content type is required")
  let (mediaType, parameters) ← orError (invalidPolicyInput "invalid policy document content type")
    (parseMediaType (trimSpace value))
  let mediaType := toLower (trimSpace mediaType)
  refuse (mediaType = [] ∨ containsAny mediaType Authn.lineBreaks)
    (invalidPolicyInput "invalid policy document content type")
  refuse (parameters.any badParameter) (invalidPolicyInput "invalid policy document content type parameter")
  return join (mediaType :: parameterTexts parameters) ";"

def normalizePolicyDocument (input : PolicyDocument) : Except String PolicyDocument := do
  let uri := trimSpace input.uri
  refuse (validResourceURI uri = false) (invalidPolicyInput "invalid policy document uri")
  let sha := toLower (trimSpace input.sha256)
  refuse (validSHA256Hex sha = false) (invalidPolicyInput "invalid policy document hash")
  let contentType ← normalizeContentType parseMediaType input.contentType
  return { uri, sha256 := sha, contentType }

/-- The loop of `NormalizePolicyDocuments` with the documents seen so far: one that is seen again is
skipped, unless its hash or type differs. -/
def collectDocuments (seen : GoMap Str PolicyDocument) :
    List PolicyDocument → Except String (GoMap Str PolicyDocument)
  | [] => .ok seen
  | document :: rest => do
    let normalized ← normalizePolicyDocument parseMediaType document
    match seen.lookup normalized.uri with
    | some existing =>
      refuse (existing.sha256 ≠ normalized.sha256 ∨ existing.contentType ≠ normalized.contentType)
        (invalidPolicyInput "conflicting policy document metadata for uri")
      collectDocuments seen rest
    | none => collectDocuments (seen.insert normalized.uri normalized) rest

/-- `NormalizePolicyDocuments`. No URI repeats, so its sorting is by URI. -/
def normalizePolicyDocuments (input : List PolicyDocument) : Except String (List PolicyDocument) := do
  let seen ← collectDocuments parseMediaType ∅ input
  return seen.sortedKeys.filterMap seen.lookup

def policyVersionForDocuments (sha256 : Str → Str) (documents : List PolicyDocument) : Str :=
  match normalizePolicyDocuments parseMediaType documents with
  | .error _ => []
  | .ok [] => []
  | .ok normalized => "sha256:" ++ sha256Hex sha256 (canonicalPolicyDocuments normalized)

/-- The loop of `NormalizeResourceMetadata`, in the order in which the map is walked. -/
def collectMetadata (out : GoMap Str Str) : List (Str × Str) → Except String (GoMap Str Str)
  | [] => .ok out
  | (key, value) :: rest => do
    let key := trimSpace key
    let value := trimSpace value
    refuse (key = [] ∨ key.length > 128 ∨ containsControlRune key)
      (invalidPolicyInput "invalid resource metadata key")
    refuse (value.length > 1024 ∨ containsControlRune value) (invalidPolicyInput "invalid resource metadata value")
    collectMetadata (out.insert key value) rest

def normalizeResourceMetadata (order : RangeOrder (Str × Str)) (input : GoMap Str Str) :
    Except String (GoMap Str Str) :=
  collectMetadata ∅ (order.visit input.inOrder)

def joinBaseAndRequestPath (basePath requestPath : Str) : Str :=
  let basePath := trimRight basePath 0x2F
  if basePath = [] then
    if requestPath = [] then "/" else requestPath
  else if requestPath = [] ∨ requestPath = "/" then basePath
  else basePath ++ "/" ++ requestPath.dropWhile (· == 0x2F)

def sanitizedQuery (u : Url.URL) : Str := (cut u.rawQuery 0x23).1

def publicResource (base : Str) (u : Url.URL) : Except String Str :=
  match Url.parse base with
  | .error _ => .error "public base url is invalid"
  | .ok parsed =>
    if parsed.scheme = [] ∨ parsed.host = [] then .error "public base url is invalid"
    else .ok { parsed with
      path := joinBaseAndRequestPath parsed.escapedPath u.escapedPath
      rawQuery := sanitizedQuery u
      fragment := [] }.string

def requestedResource (r : Http.Request) : Except String Str :=
  let host := if r.url.host = [] then r.host else r.url.host
  if host = [] then .error "request host is required"
  else .ok { r.url with
    scheme := if r.url.scheme = [] then (if r.tls then str "https" else str "http") else r.url.scheme
    host := host
    rawQuery := sanitizedQuery r.url
    fragment := [] }.string

def resourceURIForRequest (r : Http.Request) (publicBaseURL : Str) : Except String Str :=
  let base := trimSpace publicBaseURL
  if base ≠ [] then publicResource base r.url else requestedResource r

structure BuildOptions where
  publicBaseURL : Str := []
  policyDocuments : List PolicyDocument := []
  policyVersion : Str := []
  resourceMetadata : GoMap Str Str := ∅
  resourceVersion : Str := []

/-- The id in the context, or the one in the header. -/
def requestIDFor (ctx : Context) (r : Http.Request) : Str :=
  if ctx.requestID = [] then trimSpace (r.header.get "X-Request-ID") else ctx.requestID

def buildRequest (sha256 : Str → Str) (order : RangeOrder (Str × Str)) (ctx : Context)
    (r : Http.Request) (options : BuildOptions) (now : Time) : Except String Request := do
  refuse (requestIDFor ctx r = []) "authz request id is required"
  let resourceURI ← resourceURIForRequest r options.publicBaseURL
  let modes ← orError "unsupported authz method" (modesForMethod r.method)
  let documents ← normalizePolicyDocuments parseMediaType options.policyDocuments
  let metadata ← normalizeResourceMetadata order options.resourceMetadata
  let given := trimSpace options.policyVersion
  return {
    schemaVersion := schemaVersion
    requestID := requestIDFor ctx r
    method := r.method
    resourceURI := resourceURI
    agentWebID := ctx.identityFromContext.webID
    clientID := ctx.identityFromContext.clientID
    issuer := ctx.identityFromContext.issuer
    origin := trimSpace (r.header.get "Origin")
    requestedModes := modes
    resourceVersion := trimSpace options.resourceVersion
    policyVersion :=
      if given = [] then policyVersionForDocuments parseMediaType sha256 documents else given
    resourceMetadata := metadata
    policyDocuments := documents
    nowUnix := Int64.ofInt (now.ns / second - unixToInternal) }

variable {parseMediaType} {sha256 : Str → Str} {order : RangeOrder (Str × Str)} {ctx : Context}
  {r : Http.Request} {options : BuildOptions} {now : Time}

/-- The requester named in a request that is built is the one in the context. -/
theorem buildRequest_identity {request}
    (built : buildRequest parseMediaType sha256 order ctx r options now = .ok request) :
    request.agentWebID = ctx.identityFromContext.webID ∧ request.clientID = ctx.identityFromContext.clientID ∧
      request.issuer = ctx.identityFromContext.issuer := by
  simp only [buildRequest, bind_eq_ok] at built
  obtain ⟨_, _, _, _, _, _, _, _, _, _, made⟩ := built
  cases made
  exact ⟨rfl, rfl, rfl⟩

/-- Without documents and metadata to normalise, a request is built when it has an id, a resource
and a supported method. -/
theorem buildRequest_plain (documents : options.policyDocuments = []) (metadata : options.resourceMetadata = ∅) :
    (∃ request, buildRequest parseMediaType sha256 order ctx r options now = .ok request) ↔
      requestIDFor ctx r ≠ [] ∧ (∃ uri, resourceURIForRequest r options.publicBaseURL = .ok uri) ∧
        modesForMethod r.method ≠ none := by
  have noDocuments : normalizePolicyDocuments parseMediaType options.policyDocuments = .ok [] := by
    rw [documents]
    rfl
  have noMetadata : normalizeResourceMetadata order options.resourceMetadata = .ok ∅ := by
    have none : order.visit (∅ : GoMap Str Str).inOrder = [] := List.perm_nil.mp (order.perm [])
    rw [metadata, normalizeResourceMetadata, none]
    rfl
  simp only [buildRequest, bind_eq_ok, refuse_eq_ok, orError_eq_ok, noDocuments, noMetadata]
  constructor
  · rintro ⟨_, _, id, uri, resource, modes, supported, _⟩
    exact ⟨id, ⟨uri, resource⟩, by simp [supported]⟩
  · rintro ⟨id, ⟨uri, resource⟩, supported⟩
    obtain ⟨modes, supported⟩ := Option.ne_none_iff_exists'.mp supported
    exact ⟨_, (), id, uri, resource, modes, supported, _, rfl, _, rfl, rfl⟩

end

end Authz
