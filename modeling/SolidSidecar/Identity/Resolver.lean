import SolidSidecar.Go.Time
import SolidSidecar.Identity.Did

/-!
# The resolver and the back link

`did_resolver.go`: a DID is resolved to a document, and the binding of a DID and a WebID is checked
in both directions. The document has to name the WebID as its service, and the profile of the WebID
has to contain the DID and the predicate somewhere, in any case of letters. The cache, the local
registry and the HTTPS mapping are one lookup, whose documents have been validated.
-/

namespace Identity
open Go Strings

def webIDBacklinkPredicate : Str := "https://solidproject.org/ns/did#controller"

/-- A resolved document, and until when it may be used. -/
structure Known where
  document : DIDDocument
  expiresAt : Option Time := none

def Known.expired (k : Known) (now : Time) : Bool := k.expiresAt.any now.after

def lowerByte (b : UInt8) : UInt8 :=
  if 0x41 ≤ b.toNat && b.toNat ≤ 0x5A then UInt8.ofNat (b.toNat + 32) else b

def equalCI (a b : Str) : Bool := a.map lowerByte == b.map lowerByte

/-- The loop of `containsSubstringCI`, at the text from one position on. -/
def containsSubstringCI (substr : Str) : Str → Bool
  | [] => substr.isEmpty
  | b :: rest =>
    (substr.length ≤ (b :: rest).length && equalCI ((b :: rest).take substr.length) substr) ||
      containsSubstringCI substr rest

def containsStringCI (s substr : Str) : Bool :=
  substr.length ≤ s.length && (s == substr || s.length > 0 && containsSubstringCI substr s)

def containsBacklink (body did predicate : Str) : Bool :=
  containsStringCI body did && containsStringCI body predicate

section

variable [Unicode]

/-- `isUnsafeResolutionHost`, given what `net.ParseIP` makes of a host and whether the address is
one that is refused. -/
def isUnsafeResolutionHost (ipUnsafe : Str → Option Bool) (host : Str) : Bool :=
  let lower := toLower (trim host ".")
  if lower = [] || lower = "localhost" || hasSuffix lower ".localhost" || hasSuffix lower ".local" then true
  else if !lower.contains 0x2E && !lower.contains 0x3A then true
  else (ipUnsafe lower).getD false

def validateOutboundResolutionURL (ipUnsafe : Str → Option Bool) (u : Url.URL) : Except Error Unit := do
  refuse (toLower u.scheme ≠ "https") (Sentinel.unsafeDID.error "resolution URL must use HTTPS")
  refuse (u.user ≠ none) (Sentinel.unsafeDID.error "resolution URL must not include userinfo")
  refuse (trimSpace u.hostname = []) (Sentinel.unsafeDID.error "resolution URL host is empty")
  refuse (isUnsafeResolutionHost ipUnsafe (trimSpace u.hostname))
    (Sentinel.unsafeDID.error "resolution URL host is not allowed")

/-- The resolver: its parser, the documents it finds under a normal form, and its HTTP client as the
status and body that a URL is answered with. -/
structure Resolver where
  enabled : Bool
  parser : DIDParser
  known : Str → Option Known
  maxDocumentBytes : Nat
  fetch : Str → Option (Nat × Str)
  ipUnsafe : Str → Option Bool
  valid : ∀ did k, known did = some k → parser.validateDIDDocument k.document = .ok () ∧ k.document.id = did

namespace Resolver

variable {didString webID : Str} {u : Unit}

def resolve (r : Resolver) (didString : Str) : Except Error (DID × Known) := do
  refuse (r.enabled = false) ⟨none, "DID resolver is disabled"⟩
  let did ← (r.parser.parseDID didString).mapError (·.under "failed to parse DID")
  let k ← orError (Sentinel.invalidDID.error didString) (r.known did.normalizedString)
  return (did, k)

/-- The body of a profile: a response with status 200 that is not too large. -/
def profileBody (r : Resolver) (response : Option (Nat × Str)) : Except Error Str := do
  let (status, body) ← orError (Sentinel.webIDBacklinkMissing.error "failed to fetch WebID profile") response
  refuse (status ≠ 200) (Sentinel.webIDBacklinkMissing.error
    ("WebID profile returned status " ++ str (toString status)))
  refuse (body.length > r.maxDocumentBytes) (Sentinel.webIDBacklinkMissing.error "WebID profile exceeds maximum size")
  return body

/-- `validateWebIDProfileBacklink`, under a live context. -/
def validateWebIDProfileBacklink (r : Resolver) (did : DID) (webID : Str) : Except Error Unit := do
  let webIDURL ← (Url.parse webID).mapError fun _ => ⟨none, "invalid WebID URL"⟩
  (validateOutboundResolutionURL r.ipUnsafe webIDURL).mapError
    fun err => ⟨err.wraps, err.text ++ ": WebID profile URL is not allowed"⟩
  let body ← r.profileBody (r.fetch webIDURL.string)
  refuse (containsBacklink body did.normalizedString webIDBacklinkPredicate = false)
    (Sentinel.webIDBacklinkMissing.error ("WebID profile does not contain backlink to DID '" ++
      did.normalizedString ++ "'"))

def validateWebIDBacklink (r : Resolver) (didString webID : Str) : Except Error Unit := do
  let (did, k) ← (r.resolve didString).mapError (·.under "failed to resolve DID")
  let service ← orError (Sentinel.webIDBacklinkMissing.error "no WebID service in DID document")
    k.document.getSolidWebIDService
  refuse (service.serviceEndpoint ≠ webID) (Sentinel.webIDBacklinkMissing.error
    ("WebID service endpoint '" ++ service.serviceEndpoint ++ "' does not match provided WebID '" ++ webID ++ "'"))
  refuse (service.isHTTPS = false) (Sentinel.webIDBacklinkMissing.error "WebID service endpoint must use HTTPS")
  r.validateWebIDProfileBacklink did webID

def validateDIDBinding (r : Resolver) (now : Time) (didString webID : Str) : Except Error Unit := do
  let did ← (r.parser.parseDID didString).mapError (·.under "invalid DID")
  refuse (did.isSolidDID = false) (Sentinel.invalidDIDMethod.error "only did:solid DIDs are supported")
  let (_, k) ← (r.resolve didString).mapError (·.under "failed to resolve DID")
  refuse (k.document.isValid = false ∨ k.expired now)
    (Sentinel.didBindingFailed.error "resolved DID document is invalid")
  refuse (k.document.deactivated = true) (Sentinel.didBindingFailed.error "DID is deactivated")
  (r.validateWebIDBacklink didString webID).mapError (·.under "WebID backlink validation failed")
  refuse (k.document.verificationMethod = [])
    (Sentinel.didBindingFailed.error "no verification methods in DID document")
  refuse (k.document.hasAuthentication = false)
    (Sentinel.didBindingFailed.error "no authentication methods in DID document")

/-- What a binding of a DID and a WebID rests on: the document of the DID, with the WebID as its
service, and the profile that the WebID is answered with. -/
structure Binding (r : Resolver) (now : Time) (webID : Str) (did : DID) (k : Known) (body : Str) :
    Prop where
  enabled : r.enabled = true
  solid : did.isSolidDID = true
  known : r.known did.normalizedString = some k
  current : k.expired now = false
  active : k.document.deactivated = false
  authentication : k.document.hasAuthentication = true
  service : ∃ service, k.document.getSolidWebIDService = some service ∧
    service.serviceEndpoint = webID ∧ service.isHTTPS = true
  served : ∃ u, Url.parse webID = .ok u ∧ validateOutboundResolutionURL r.ipUnsafe u = .ok () ∧
    r.fetch u.string = some (200, body)
  bounded : body.length ≤ r.maxDocumentBytes
  backlink : containsBacklink body did.normalizedString webIDBacklinkPredicate = true

variable {r : Resolver}

theorem resolve_eq_ok {did k} : r.resolve didString = .ok (did, k) ↔
      r.enabled = true ∧ r.parser.parseDID didString = .ok did ∧ r.known did.normalizedString = some k := by
  simp only [resolve, bind_eq_ok, refuse_eq_ok, Bool.not_eq_false, mapError_eq_ok, orError_eq_ok]
  constructor
  · rintro ⟨_, enabled, _, parsed, _, known, made⟩
    cases made
    exact ⟨enabled, parsed, known⟩
  · rintro ⟨enabled, parsed, known⟩
    exact ⟨(), enabled, did, parsed, k, known, rfl⟩

theorem profileBody_eq_ok {response body} : r.profileBody response = .ok body ↔
      response = some (200, body) ∧ body.length ≤ r.maxDocumentBytes := by
  simp only [profileBody, bind_eq_ok, orError_eq_ok, refuse_eq_ok, not_not, not_lt]
  constructor
  · rintro ⟨⟨_, _⟩, answered, _, ok, _, bounded, made⟩
    cases made
    cases ok
    exact ⟨answered, bounded⟩
  · rintro ⟨answered, bounded⟩
    exact ⟨_, answered, (), rfl, (), bounded, rfl⟩

theorem validateWebIDProfileBacklink_eq_ok {did} : r.validateWebIDProfileBacklink did webID = .ok u ↔
      ∃ webIDURL body, Url.parse webID = .ok webIDURL ∧ validateOutboundResolutionURL r.ipUnsafe webIDURL = .ok () ∧
        r.fetch webIDURL.string = some (200, body) ∧ body.length ≤ r.maxDocumentBytes ∧
        containsBacklink body did.normalizedString webIDBacklinkPredicate = true := by
  simp only [validateWebIDProfileBacklink, bind_eq_ok, mapError_eq_ok, refuse_eq_ok,
    profileBody_eq_ok, Bool.not_eq_false]
  constructor
  · rintro ⟨webIDURL, parsed, _, outbound, body, ⟨answered, bounded⟩, backlink⟩
    exact ⟨webIDURL, body, parsed, outbound, answered, bounded, backlink⟩
  · rintro ⟨webIDURL, body, parsed, outbound, answered, bounded, backlink⟩
    exact ⟨webIDURL, parsed, (), outbound, body, ⟨answered, bounded⟩, backlink⟩

theorem validateWebIDBacklink_eq_ok : r.validateWebIDBacklink didString webID = .ok u ↔
      ∃ did k service, r.resolve didString = .ok (did, k) ∧
        k.document.getSolidWebIDService = some service ∧ service.serviceEndpoint = webID ∧
        service.isHTTPS = true ∧ r.validateWebIDProfileBacklink did webID = .ok () := by
  simp only [validateWebIDBacklink, bind_eq_ok, mapError_eq_ok, orError_eq_ok, refuse_eq_ok, not_not,
    Bool.not_eq_false]
  constructor
  · rintro ⟨⟨did, k⟩, resolved, service, offered, _, named, _, https, backlink⟩
    exact ⟨did, k, service, resolved, offered, named, https, backlink⟩
  · rintro ⟨did, k, service, resolved, offered, named, https, backlink⟩
    exact ⟨(did, k), resolved, service, offered, (), named, (), https, backlink⟩

/-- A DID and a WebID are bound exactly when a document and a profile bind them. -/
theorem validateDIDBinding_eq_ok {now} : r.validateDIDBinding now didString webID = .ok u ↔
      ∃ did k body, r.parser.parseDID didString = .ok did ∧ r.Binding now webID did k body := by
  simp only [validateDIDBinding, bind_eq_ok, mapError_eq_ok, refuse_eq_ok, Bool.not_eq_false, not_or,
    Bool.not_eq_true, validateWebIDBacklink_eq_ok]
  constructor
  · rintro ⟨did, parsed, _, solid, ⟨_, k⟩, resolved, _, ⟨_, current⟩, _, active, _,
      ⟨_, _, service, resolved', offered, named, https, profile⟩, _, _, authentication⟩
    rw [resolved] at resolved'
    cases resolved'
    obtain ⟨enabled, parsed', known⟩ := resolve_eq_ok.mp resolved
    rw [parsed] at parsed'
    cases parsed'
    obtain ⟨webIDURL, body, read, outbound, answered, bounded, backlink⟩ :=
      validateWebIDProfileBacklink_eq_ok.mp profile
    exact ⟨did, k, body, parsed, enabled, solid, known, current, active, authentication,
      ⟨service, offered, named, https⟩, ⟨webIDURL, read, outbound, answered⟩, bounded, backlink⟩
  · rintro ⟨did, k, body, parsed, binding⟩
    obtain ⟨service, offered, named, https⟩ := binding.service
    obtain ⟨webIDURL, read, outbound, answered⟩ := binding.served
    have resolved := resolve_eq_ok.mpr ⟨binding.enabled, parsed, binding.known⟩
    have valid := isValid_of_validated (r.valid _ _ binding.known).1
    have methods : k.document.verificationMethod ≠ [] := by
      intro none
      simp [DIDDocument.isValid, none] at valid
    have profile : r.validateWebIDProfileBacklink did webID = .ok () :=
      validateWebIDProfileBacklink_eq_ok.mpr
        ⟨webIDURL, body, read, outbound, answered, binding.bounded, binding.backlink⟩
    exact ⟨did, parsed, (), binding.solid, (did, k), resolved, (), ⟨valid, binding.current⟩, (),
      binding.active, (), ⟨did, k, service, resolved, offered, named, https, profile⟩, (), methods,
      binding.authentication⟩

end Resolver

end

end Identity
