import SolidSidecar.Go.Url

/-!
# Decentralized identifiers and their documents

`did_types.go` and `did_parser.go`: a DID is `did:<method>:<id>`, its normal form is in lower case,
and a document is valid when it describes its DID with verification methods of its own. What no
function here reads is left out of a document: its context, its times and its other key lists.
-/

namespace Identity
open Go Strings

inductive Sentinel where
  | invalidDID
  | invalidDIDMethod
  | invalidMethodSpecificID
  | didTooLong
  | unsafeDID
  | didBindingFailed
  | webIDBacklinkMissing
  | verificationMethodInvalid
  deriving DecidableEq, Repr

/-- An error: the sentinel it wraps, and its own text. -/
structure Error where
  wraps : Option Sentinel
  text : Str
  deriving DecidableEq, Repr

def Sentinel.error (sentinel : Sentinel) (text : Str) : Error := ⟨some sentinel, text⟩

def Error.under (err : Error) (text : String) : Error := ⟨err.wraps, str text ++ ": " ++ err.text⟩

def maxDIDLength : Nat := 1024

def maxMethodSpecificIDLength : Nat := 512

def didPrefix : Str := "did:"

structure DID where
  method : Str
  methodSpecificID : Str
  original : Str
  deriving DecidableEq, Repr

structure DIDParser where
  maxDIDLength : Nat := Identity.maxDIDLength
  maxMethodSpecificIDLength : Nat := Identity.maxMethodSpecificIDLength
  allowedMethods : List Str := ["solid"]
  requireHostLikeID : Bool := false

section

variable [Unicode]

def DID.normalizedString (d : DID) : Str :=
  didPrefix ++ toLower d.method ++ ":" ++ toLower d.methodSpecificID

def DID.isSolidDID (d : DID) : Bool := toLower d.method = "solid"

/-- The characters of an identifier: letters, digits and `-._:`. -/
def safeRune (r : Nat) : Bool :=
  (0x61 ≤ r && r ≤ 0x7A) || (0x41 ≤ r && r ≤ 0x5A) || (0x30 ≤ r && r ≤ 0x39) ||
    r == 0x2D || r == 0x2E || r == 0x5F || r == 0x3A

def containsUnsafeCharacters (s : Str) : Bool := (runes s).any fun r => !safeRune r

def labelByte (b : UInt8) : Bool := (0x61 ≤ b.toNat && b.toNat ≤ 0x7A) || Url.isDigit b

/-- A label of a host name: such bytes and hyphens, with no hyphen at an end. -/
def hostLabel (label : Str) : Bool :=
  label.head?.any labelByte && label.getLast?.any labelByte && label.all fun b => labelByte b || b == 0x2D

/-- `hostLikeIDRegex`: labels with dots between them. -/
def hostLikeID (id : Str) : Bool := (split 0x2E id).all hostLabel

/-- The identifier that is kept: in lower case where it has to look like a host. -/
def hostChecked (p : DIDParser) (id : Str) : Except Error Str :=
  if !p.requireHostLikeID then .ok id
  else if hostLikeID (toLower id) then .ok (toLower id)
  else .error (Sentinel.invalidMethodSpecificID.error "method-specific ID is not host-like")

def DIDParser.parseDID (p : DIDParser) (didString : Str) : Except Error DID := do
  refuse (didString = []) (Sentinel.invalidDID.error "empty DID string")
  refuse (didString.length > p.maxDIDLength)
    (Sentinel.didTooLong.error ("DID exceeds maximum length (" ++ str (toString didString.length) ++
      " > " ++ str (toString p.maxDIDLength) ++ ")"))
  refuse (hasPrefix didString didPrefix = false) (Sentinel.invalidDID.error "missing 'did:' prefix")
  let rest := trimPrefix didString didPrefix
  refuse ((0x3A : UInt8) ∉ rest) (Sentinel.invalidDID.error "missing method separator ':'")
  let (method, id) := cut rest 0x3A
  refuse (method = []) (Sentinel.invalidDIDMethod.error "empty method")
  refuse (p.allowedMethods ≠ [] ∧ ¬ p.allowedMethods.any (equalFold method ·))
    (Sentinel.invalidDIDMethod.error ("method '" ++ method ++ "' not allowed"))
  refuse (id = []) (Sentinel.invalidMethodSpecificID.error "empty method-specific ID")
  refuse (id.length > p.maxMethodSpecificIDLength)
    (Sentinel.invalidMethodSpecificID.error ("method-specific ID exceeds maximum length (" ++
      str (toString id.length) ++ " > " ++ str (toString p.maxMethodSpecificIDLength) ++ ")"))
  refuse (containsUnsafeCharacters id) (Sentinel.unsafeDID.error "method-specific ID contains unsafe characters")
  let id ← hostChecked p id
  return ⟨method, id, didString⟩

end

structure VerificationMethod where
  id : Str
  type : Str
  controller : Str
  publicKeyMultibase : Str := []
  publicKeyJWK : Str := []
  deriving DecidableEq, Repr

def VerificationMethod.isValid (vm : VerificationMethod) : Bool :=
  !(vm.id = [] || vm.type = [] || vm.controller = []) && (vm.publicKeyMultibase ≠ [] || vm.publicKeyJWK ≠ [])

structure Service where
  id : Str
  type : Str
  serviceEndpoint : Str
  deriving DecidableEq, Repr

def Service.isValid (s : Service) : Bool := s.id ≠ [] && s.type ≠ [] && s.serviceEndpoint ≠ []

structure DIDDocument where
  id : Str
  verificationMethod : List VerificationMethod
  authentication : List Str := []
  service : List Service := []
  deactivated : Bool := false
  deriving DecidableEq, Repr

def DIDDocument.isValid (doc : DIDDocument) : Bool :=
  doc.id ≠ [] && !doc.verificationMethod.isEmpty && doc.verificationMethod.all (·.isValid)

def DIDDocument.hasAuthentication (doc : DIDDocument) : Bool := !doc.authentication.isEmpty

section

variable [Unicode]

def Service.isHTTPS (s : Service) : Bool :=
  match Url.parse s.serviceEndpoint with
  | .error _ => false
  | .ok u => toLower u.scheme = "https"

/-- `GetSolidWebIDService`: the first service of one of the two types. -/
def DIDDocument.getSolidWebIDService (doc : DIDDocument) : Option Service :=
  doc.service.find? fun s =>
    equalFold s.type "SolidWebID" || equalFold s.type "WebID"

/-- The checks on one verification method of a document, with its position. -/
def checkVerificationMethod (doc : DIDDocument) (i : Nat) (vm : VerificationMethod) : Except Error Unit := do
  refuse (vm.isValid = false) (Sentinel.verificationMethodInvalid.error
    ("verification method " ++ str (toString i) ++ " is invalid"))
  refuse (vm.controller ≠ doc.id) (Sentinel.verificationMethodInvalid.error
    "verification method controller does not match document ID")
  refuse (hasPrefix vm.id doc.id = false ∨ vm.id = doc.id) (Sentinel.verificationMethodInvalid.error
      "verification method ID must be a DID URL under the document ID")

def checkAuthentication (doc : DIDDocument) (authRef : Str) : Except Error Unit := do
  refuse (authRef = []) (Sentinel.verificationMethodInvalid.error "empty authentication reference")
  refuse (¬ doc.verificationMethod.any (·.id == authRef)) (Sentinel.verificationMethodInvalid.error
    ("authentication reference '" ++ authRef ++ "' not found in verification methods"))

/-- `ValidateDIDDocument`; a document that is deactivated passes. -/
def DIDParser.validateDIDDocument (p : DIDParser) (doc : DIDDocument) : Except Error Unit := do
  refuse (doc.id = []) (Sentinel.invalidDID.error "missing ID")
  let parsed ← (p.parseDID doc.id).mapError fun err => ⟨err.wraps, err.text ++ ": invalid DID in document ID"⟩
  refuse (parsed.normalizedString ≠ doc.id) (Sentinel.invalidDID.error "document ID does not match normalized DID")
  refuse (doc.verificationMethod = [])
    (Sentinel.verificationMethodInvalid.error "at least one verification method is required")
  checkAll (fun (vm, i) => checkVerificationMethod doc i vm) doc.verificationMethod.zipIdx
  checkAll (checkAuthentication doc) doc.authentication
  checkAll (fun (s, i) => refuse (Service.isValid s = false)
    ⟨none, "service " ++ str (toString i) ++ " is invalid"⟩) doc.service.zipIdx

/-- Every method of a document that passes is checked. -/
theorem checked_of_validated {p : DIDParser} {doc vm} (validated : p.validateDIDDocument doc = .ok ())
    (mem : vm ∈ doc.verificationMethod) : vm.isValid = true ∧ doc.id <+: vm.id := by
  simp only [DIDParser.validateDIDDocument, bind_eq_ok, checkAll_eq_ok] at validated
  obtain ⟨_, _, _, _, _, _, _, _, _, methods, _⟩ := validated
  obtain ⟨i, found⟩ := List.getElem?_of_mem mem
  have checked := methods (vm, i) (List.mem_zipIdx_iff_getElem?.mpr found)
  simp only [checkVerificationMethod, bind_eq_ok, refuse_eq_ok, Bool.not_eq_false, not_or] at checked
  obtain ⟨_, valid, _, _, under, _⟩ := checked
  exact ⟨valid, List.isPrefixOf_iff_prefix.mp under⟩

/-- A document that passes has all that `IsValid` asks for. -/
theorem isValid_of_validated {p : DIDParser} {doc}
    (validated : p.validateDIDDocument doc = .ok ()) : doc.isValid = true := by
  have each : ∀ vm ∈ doc.verificationMethod, vm.isValid = true := fun vm mem => (checked_of_validated validated mem).1
  simp only [DIDParser.validateDIDDocument, bind_eq_ok, refuse_eq_ok] at validated
  obtain ⟨_, named, _, _, _, _, _, listed, _⟩ := validated
  simpa [DIDDocument.isValid, named, listed] using each

/-- `GetAuthenticationVerificationMethods`: for each reference the first method with its id. -/
def DIDDocument.getAuthenticationVerificationMethods (doc : DIDDocument) : List VerificationMethod :=
  doc.authentication.filterMap fun authRef => doc.verificationMethod.find? (·.id == authRef)

def urlMarks : List UInt8 := ['/'.toUInt8, '?'.toUInt8, '#'.toUInt8]

def Under (did url : Str) : Prop := ∃ mark ∈ urlMarks, ∃ rest, url = did ++ mark :: rest

/-- The methods of a document are named by DID URLs of its own DID, and so are its keys, one for each reference
and in their order. -/
structure DIDDocument.OwnsKeys (doc : DIDDocument) : Prop where
  methods : ∀ vm ∈ doc.verificationMethod, Under doc.id vm.id
  keys : ∀ vm ∈ doc.getAuthenticationVerificationMethods, Under doc.id vm.id
  answers : doc.getAuthenticationVerificationMethods.map (·.id) = doc.authentication

/-- Every reference of a document that passes is answered by a method of that name. -/
theorem answers_of_validated {p : DIDParser} {doc} (validated : p.validateDIDDocument doc = .ok ()) :
    doc.getAuthenticationVerificationMethods.map (·.id) = doc.authentication := by
  simp only [DIDParser.validateDIDDocument, bind_eq_ok, checkAll_eq_ok] at validated
  obtain ⟨_, _, _, _, _, _, _, _, _, _, _, references, _⟩ := validated
  unfold DIDDocument.getAuthenticationVerificationMethods
  generalize doc.authentication = refs at references
  induction refs with
  | nil => rfl
  | cons authRef refs ih =>
    have checked := references authRef (by simp)
    simp only [checkAuthentication, bind_eq_ok, refuse_eq_ok, not_not] at checked
    obtain ⟨vm, found⟩ := Option.isSome_iff_exists.mp (List.find?_isSome.mpr (List.any_eq_true.mp checked.choose_spec.2))
    have named : vm.id = authRef := by simpa using List.find?_some found
    simp only [List.filterMap_cons, found, List.map_cons, named]
    rw [ih fun ref mem => references ref (by simp [mem])]

/-- A document that passes owns its keys exactly when no method is named under a longer DID. -/
theorem ownsKeys_iff {p : DIDParser} {doc} (validated : p.validateDIDDocument doc = .ok ()) :
    doc.OwnsKeys ↔ ∀ vm ∈ doc.verificationMethod, ∃ mark ∈ urlMarks, vm.id[doc.id.length]? = some mark := by
  have under vm (mem : vm ∈ doc.verificationMethod) :
      Under doc.id vm.id ↔ ∃ mark ∈ urlMarks, vm.id[doc.id.length]? = some mark := by
    obtain ⟨rest, id⟩ := (checked_of_validated validated mem).2
    rw [Under, ← id]
    cases rest <;> simp
  rw [← forall₂_congr under]
  refine ⟨DIDDocument.OwnsKeys.methods, fun methods => ⟨methods, fun vm mem => ?_, answers_of_validated validated⟩⟩
  obtain ⟨_, _, found⟩ := List.mem_filterMap.mp mem
  exact methods vm (List.mem_of_find?_eq_some found)

end

def documentOf (did method : String) : DIDDocument where
  id := str did
  verificationMethod := [⟨str method, "JsonWebKey2020", str did, [], "k"⟩]
  authentication := [str method]

attribute [local instance] Unicode.ascii

theorem ownsKeys_iff_fragment : (documentOf "did:solid:alice" "did:solid:alice#key").OwnsKeys :=
  (ownsKeys_iff (p := {}) (by decide +kernel)).mpr (by decide +kernel)

/-- A document for `did:solid:alice` with a key of `did:solid:alice2` passes. -/
theorem validated_foreign :
    ¬ ∀ doc : DIDDocument, ({} : DIDParser).validateDIDDocument doc = .ok () → doc.OwnsKeys := by
  intro owned
  have owns := owned (documentOf "did:solid:alice" "did:solid:alice2#key") (by decide +kernel)
  obtain ⟨mark, marked, rest, id⟩ := owns.methods _ List.mem_cons_self
  have longer : "did:solid:alice2#key" = "did:solid:alice" ++ 0x32 :: str "#key" := by decide +kernel
  cases List.append_cancel_left (longer.symm.trans id)
  exact absurd marked (by decide)

end Identity
