import SolidSidecar.Go.Url

/-!
# Trusted clients

`IsClientTrusted` of `client_trust_policy.go`. A client is trusted if it is registered, if its id matches an allowed
pattern or, where no registration is required, if its id is an https URL. An id matches a pattern by its text or by
its host, both in lower case: a longer host name passes as well, and so does another scheme, or a host that only lower
case makes an allowed one (`hosted_iff`). Of a registration only the id is read.
-/

namespace Authn
open Go Strings

structure ClientTrustPolicy where
  trustedClients : List Str := []
  allowedClientPatterns : List Str := ["https://solidproject.org/", "https://inrupt.com/"]
  requireRegistration : Bool := false

namespace ClientTrustPolicy

section Trust

variable [Unicode] (p : ClientTrustPolicy)

def normalizeClientID (clientID : Str) : Str := toLower (trimSuffix clientID "/")

def matchesAllowedPattern (clientID : Str) : Bool :=
  match Url.parse clientID with
  | .error _ => false
  | .ok clientURL => p.allowedClientPatterns.any fun pattern => hasPrefix clientID pattern ||
      match Url.parse pattern with
      | .error _ => false
      | .ok patternURL => patternURL.host ≠ [] && clientURL.host = patternURL.host

def isValidHTTPSClientID (clientID : Str) : Bool :=
  match Url.parse clientID with
  | .error _ => false
  | .ok clientURL => clientURL.scheme = "https" && clientURL.host ≠ []

def isClientTrusted (clientID : Str) : Bool :=
  let clientID := normalizeClientID clientID
  p.trustedClients.contains clientID || p.matchesAllowedPattern clientID ||
    (!p.requireRegistration && isValidHTTPSClientID clientID)

def IsHTTPS (text host : Str) : Prop := ∃ u, Url.parse text = .ok u ∧ u.scheme = "https" ∧ u.host = host ∧ host ≠ []

def Allows (host : Str) : Prop := ∃ pattern ∈ p.allowedClientPatterns, IsHTTPS pattern host

/-- The id itself, as it is written, is a URL with this scheme. -/
def HasScheme (clientID scheme : Str) : Prop := ∃ u, Url.parse clientID = .ok u ∧ u.scheme = scheme

/-- The id itself, as it is written, is a URL with the host of an allowed pattern. -/
def HasHost (clientID : Str) : Prop := ∃ u, Url.parse clientID = .ok u ∧ p.Allows u.host

/-- A trusted id is an https URL with the host of an allowed pattern. -/
def Hosted (clientID : Str) : Prop :=
  p.isClientTrusted clientID = true → ∃ host, IsHTTPS clientID host ∧ p.Allows host

variable {p} {clientID : Str}

omit [Unicode] in
theorem matches_iff (patterns : ∀ pattern ∈ p.allowedClientPatterns, ∃ host, IsHTTPS pattern host) {u}
    (parsed : Url.parse clientID = .ok u) : p.matchesAllowedPattern clientID = true ↔
      (∃ pattern ∈ p.allowedClientPatterns, pattern <+: clientID) ∨ p.Allows u.host := by
  simp only [matchesAllowedPattern, parsed, List.any_eq_true, Bool.or_eq_true, Allows, ← exists_or, ← and_or_left]
  refine exists_congr fun pattern => and_congr_right fun mem => or_congr List.isPrefixOf_iff_prefix ?_
  obtain ⟨host, v, read, https, rfl, proper⟩ := patterns pattern mem
  simp only [IsHTTPS, read, Bool.and_eq_true, decide_eq_true_eq, Except.ok.injEq]
  constructor
  · exact fun ⟨_, same⟩ => ⟨v, rfl, https, same.symm, same ▸ proper⟩
  · rintro ⟨_, rfl, _, same, _⟩
    exact ⟨proper, same.symm⟩

omit [Unicode] in
theorem hosted_of_parts (scheme : HasScheme clientID "https") (host : p.HasHost clientID) :
    ∃ host, IsHTTPS clientID host ∧ p.Allows host := by
  obtain ⟨u, parsed, https⟩ := scheme
  obtain ⟨v, parsed', allowed⟩ := host
  cases parsed.symm.trans parsed'
  have proper : u.host ≠ [] := by
    obtain ⟨_, _, _, _, _, _, proper⟩ := allowed
    exact proper
  exact ⟨u.host, ⟨u, parsed, https, rfl, proper⟩, allowed⟩

omit [Unicode] in
theorem parts_of_hosted (hosted : ∃ host, IsHTTPS clientID host ∧ p.Allows host) :
    HasScheme clientID "https" ∧ p.HasHost clientID := by
  obtain ⟨_, ⟨u, parsed, https, rfl, -⟩, allowed⟩ := hosted
  exact ⟨⟨u, parsed, https⟩, u, parsed, allowed⟩

end Trust

attribute [local instance] Unicode.ascii

def inruptOnly : ClientTrustPolicy := { allowedClientPatterns := ["https://inrupt.com/"], requireRegistration := true }

theorem inrupt_https : IsHTTPS "https://inrupt.com/" "inrupt.com" :=
  ⟨{ scheme := "https", host := "inrupt.com", path := "/" }, by decide +kernel, rfl, rfl, by decide⟩

end ClientTrustPolicy

end Authn
