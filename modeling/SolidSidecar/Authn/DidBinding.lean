import SolidSidecar.Go.Search
import SolidSidecar.Identity.Resolver

/-!
# DID binding

`did_binding.go` takes a DID out of the profile of a WebID and has the resolver check that the two
are bound. The DID is cut out of the text: it starts at the first `did:` after the first occurrence
of the predicate, and ends at a space, a dot, a closing bracket or a line end. On a profile made of
statements that is a scan of its terms (`extractDIDFromProfile_text`). The binding is sound exactly when
what the terms mention there is the object of the predicate, or no document speaks for it (`sound_iff`).
-/

namespace Authn
open Go List Strings Time
open Identity (Resolver DID Known DIDDocument DIDParser didPrefix equalCI)

def didBindingPredicate : Str := "https://solidproject.org/ns/did#controller"

inductive AssuranceLevel where
  | none
  | basic
  | standard
  | high
  deriving DecidableEq, Repr

def endsDID (b : UInt8) : Bool := (str " .>\n\r\t").contains b

section

variable [Unicode]

def isValidDID (did : Str) : Bool :=
  let did := trimSpace did
  if did = [] || did.length > 1024 then false
  else if !hasPrefix did didPrefix then false
  else
    let rest := trimPrefix did didPrefix
    rest.contains 0x3A && (cut rest 0x3A).1 ≠ [] && (cut rest 0x3A).2 ≠ []

/-- The text that was cut out, without spaces and quotes around it; nothing if it is not a DID. -/
def cleanedDID (text : Str) : Str :=
  let did := trim (trimSpace text) "<>\"'"
  if isValidDID did then did else []

/-- The text from `did:` on, up to the end of the DID. -/
def cutDID (tail : Str) : Str := (didPrefix ++ tail).takeWhile fun b => !endsDID b

/-- `extractDIDFromProfile`; empty when there is none. -/
def extractDIDFromProfile (body predicate : Str) : Str :=
  match (after predicate body).orElse fun _ => after ("<" ++ predicate ++ ">") body with
  | none => []
  | some rest =>
    match after didPrefix rest with
    | none => []
    | some tail => cleanedDID (cutDID tail)

/-- The binder: its options, and its HTTP client as the status and body that a URL is answered
with. -/
structure DIDBinder where
  enabled : Bool
  resolver : Option Resolver
  maxWebIDProfileSize : Nat := 65536
  fetch : Str → Option (Nat × Str)

namespace DIDBinder

/-- The DID in a response to the request for a profile: an unsuccessful one, or one that is too large,
has none, and so has a DID that does not resolve. -/
def didInResponse (db : DIDBinder) (r : Resolver) (response : Option (Nat × Str)) : Str :=
  match response with
  | none => []
  | some (status, body) =>
    if status ≠ 200 then []
    else if body.length > db.maxWebIDProfileSize then []
    else
      let did := extractDIDFromProfile body didBindingPredicate
      if did = [] then []
      else if !isValidDID did then []
      else if (r.resolve did).isOk then did else []

/-- `ResolveDIDFromWebIDProfile` with the error of its context. -/
def resolveDIDFromWebIDProfile (db : DIDBinder) (contextError : Option String) (url : Str) : Except String Str :=
  match db.enabled, db.resolver with
  | true, some r =>
    match contextError with
    | some err => .error ("context cancelled: " ++ err)
    | none =>
      let url := trimSpace url
      if url = [] then .ok []
      else if !hasPrefix url "https://" then .ok []
      else match Url.parse url with
        | .error _ => .ok []
        | .ok _ => .ok (db.didInResponse r (db.fetch url))
  | _, _ => .ok []

/-- The DID is returned with standard assurance where it is bound, and left out where it is not. -/
def assured (bound : Bool) (did : Str) : Str × AssuranceLevel :=
  if bound then (did, .standard) else ([], .basic)

def resolveAndValidateDIDBinding (db : DIDBinder) (contextError : Option String) (now : Time)
    (webID : Str) : Except String (Str × AssuranceLevel) :=
  match db.enabled, db.resolver with
  | true, some r =>
    match db.resolveDIDFromWebIDProfile contextError webID with
    | .error err => .error ("DID binding failed: failed to resolve DID from WebID profile: " ++ err)
    | .ok did =>
      .ok (if did = [] then ([], .basic)
        else assured (r.validateDIDBinding now did webID).isOk did)
  | _, _ => .ok ([], .basic)

end DIDBinder

end

def iriByte (b : UInt8) : Bool := !(str "<> \t\r\n").contains b

structure Statement where
  subject : Str
  predicate : Str
  object : Str
  iris : ∀ t ∈ [subject, predicate, object], t.all iriByte = true

namespace Statement

def terms (st : Statement) : List Str := [st.subject, st.predicate, st.object]

def line (st : Statement) : Str :=
  "<" ++ st.subject ++ "> <" ++ st.predicate ++ "> <" ++ st.object ++ "> ."

/-- The terms, each with the gap after it; `gap` is the one after the object. -/
def tokens (st : Statement) (gap : Str) : List (Str × Str) :=
  [(st.subject, " "), (st.predicate, " "), (st.object, gap)]

end Statement

/-- A profile: statements one per line, and a line end after the last one or none. -/
structure Profile where
  statements : List Statement
  ending : Str
  endings : ending = [] ∨ ending = "\n"

namespace Profile

variable (p : Profile)

def text : Str :=
  join (p.statements.map Statement.line) "\n" ++ p.ending

def terms (p : Profile) : List Str := p.statements.flatMap Statement.terms

/-- The first DID after the first occurrence of the predicate, up to its first dot. -/
def mention : Option Str :=
  match afterIn didBindingPredicate p.terms with
  | none => none
  | some (rest, later) => (afterIn didPrefix (rest :: later)).map fun found => cutDID found.1

/-- The profile binds `did`: it is the object of the predicate. -/
def Binds (did : Str) : Prop :=
  ∃ st ∈ p.statements, st.predicate = didBindingPredicate ∧ equalCI st.object did = true

/-- The terms of the lines of a profile, with their gaps. -/
def tokensOf (ending : Str) : List Statement → List (Str × Str)
  | [] => []
  | [st] => st.tokens (" ." ++ ending)
  | st :: next :: rest => st.tokens " .\n" ++ tokensOf ending (next :: rest)

def gaps : List Str := [" ", " .", " .\n"]

theorem searchable_predicate : Searchable didBindingPredicate gaps := by
  constructor <;> decide +kernel

theorem searchable_did : Searchable didPrefix gaps := by
  constructor <;> decide +kernel

theorem bracketed_tokens (st : Statement) (gap : Str) : bracketed (st.tokens (" ." ++ gap)) = st.line ++ gap := by
  simp only [bracketed, Statement.tokens, Statement.line, flatMap_cons, flatMap_nil,
    append_assoc, cons_append, append_nil]
  rfl

/-- A profile with a statement is a text of bracketed terms. -/
theorem bracketed_tokensOf (ending : Str) {statements} (some : statements ≠ []) :
    bracketed (tokensOf ending statements) = join (statements.map Statement.line) "\n" ++ ending := by
  induction statements with
  | nil => exact absurd rfl some
  | cons st rest ih =>
    cases rest with
    | nil => simpa [tokensOf] using bracketed_tokens st ending
    | cons next rest =>
      have first : bracketed (st.tokens " .\n") = st.line ++ "\n" :=
        bracketed_tokens st "\n"
      have tail := ih (by simp)
      rw [tokensOf, bracketed, flatMap_append]
      rw [bracketed] at first tail
      rw [first, tail]
      simp [join]

theorem map_fst_tokensOf (ending : Str) (statements : List Statement) :
    (tokensOf ending statements).map Prod.fst = statements.flatMap Statement.terms := by
  induction statements with
  | nil => rfl
  | cons st rest ih =>
    cases rest with
    | nil => simp [tokensOf, Statement.tokens, Statement.terms]
    | cons next rest =>
      rw [tokensOf, map_append, ih]
      rfl

theorem gap_mem_gaps {ending : Str} (endings : ending = [] ∨ ending = "\n")
    {statements token} (mem : token ∈ tokensOf ending statements) :
    token.2 ∈ gaps := by
  have last : " ." ++ ending ∈ gaps := by
    rcases endings with rfl | rfl <;> decide
  induction statements with
  | nil => simp [tokensOf] at mem
  | cons st rest ih =>
    have here : ∀ gap ∈ gaps, token ∈ st.tokens gap → token.2 ∈ gaps := by
      intro gap known among
      have space : str " " ∈ gaps := by decide
      simp only [Statement.tokens, mem_cons, not_mem_nil, or_false] at among
      rcases among with rfl | rfl | rfl
      · exact space
      · exact space
      · exact known
    cases rest with
    | nil => exact here _ last mem
    | cons next rest =>
      rcases mem_append.mp mem with first | later
      · exact here _ (by decide) first
      · exact ih later

/-- Cutting out a DID stops at the bracket that closes its term. -/
theorem cutDID_closed (tail rest : Str) : cutDID (tail ++ 0x3E :: rest) = cutDID tail := by
  have stop : ∀ front, (front ++ 0x3E :: rest).takeWhile (fun b => !endsDID b) =
      front.takeWhile fun b => !endsDID b := by
    intro front
    induction front with
    | nil => rfl
    | cons b front ih => simp [takeWhile_cons, ih]
  rw [cutDID, ← append_assoc]
  exact stop _

/-- What the scanner takes out of a profile; empty if there is nothing. -/
def scanned : Str :=
  match p.mention with
  | none => []
  | some text => cleanedDID text

/-- Where the terms mention a DID: `rest` stands behind the first occurrence of the predicate, and `id` behind
the first `did:` in it or in a later term. The DID ends at a dot or with its term. -/
def Mentions (did : Str) : Prop :=
  ∃ before t rest later between o id last, p.terms = before ++ t :: later ∧
    (∀ u ∈ before, after didBindingPredicate u = none) ∧ after didBindingPredicate t = some rest ∧
    rest :: later = between ++ o :: last ∧ (∀ u ∈ between, after didPrefix u = none) ∧
    after didPrefix o = some id ∧ did = trim (trimSpace (cutDID id)) "<>\"'"

theorem afterIn_append {word t rest before later}
    (clear : ∀ t ∈ before, Strings.after word t = none) (here : after word t = some rest) :
    afterIn word (before ++ t :: later) = some (rest, later) := by
  induction before with
  | nil => simp [afterIn, here]
  | cons first before ih =>
    simp only [cons_append, afterIn, clear first (mem_cons_self ..)]
    exact ih fun t mem => clear t (mem_cons_of_mem _ mem)

theorem split_of_afterIn {word rest later} {terms : List Str} (found : afterIn word terms = some (rest, later)) :
    ∃ before t, terms = before ++ t :: later ∧ (∀ u ∈ before, after word u = none) ∧ after word t = some rest := by
  induction terms with
  | nil => cases found
  | cons first terms ih =>
    rw [afterIn] at found
    cases here : after word first with
    | some behind =>
      rw [here] at found
      cases found
      exact ⟨[], first, rfl, by simp, here⟩
    | none =>
      rw [here] at found
      obtain ⟨before, t, rfl, clear, found⟩ := ih found
      exact ⟨first :: before, t, rfl, by simpa [here] using clear, found⟩

theorem mentions_of_scanned {did : Str} (valid : isValidDID did = true) (scanned : p.scanned = did) :
    p.Mentions did := by
  have present : did ≠ [] := by
    rintro rfl
    exact absurd valid (by decide)
  unfold Profile.scanned mention at scanned
  cases found : afterIn didBindingPredicate p.terms with
  | none =>
    rw [found] at scanned
    exact absurd scanned.symm present
  | some pair =>
    obtain ⟨rest, later⟩ := pair
    cases found' : afterIn didPrefix (rest :: later) with
    | none =>
      simp only [found, found'] at scanned
      exact absurd scanned.symm present
    | some pair =>
      obtain ⟨id, last⟩ := pair
      obtain ⟨before, t, terms, clear, here⟩ := split_of_afterIn found
      obtain ⟨between, o, next, clear', here'⟩ := split_of_afterIn found'
      refine ⟨before, t, rest, later, between, o, id, last, terms, clear, here, next, clear', here', ?_⟩
      simp only [found, found', Option.map_some, cleanedDID] at scanned
      split_ifs at scanned
      · exact scanned.symm
      · exact absurd scanned.symm present

theorem scanned_of_mentions {did : Str} (valid : isValidDID did = true) (mentions : p.Mentions did) :
    p.scanned = did := by
  obtain ⟨before, t, rest, later, between, o, id, last, terms, clear, here, next, clear', here', rfl⟩ := mentions
  simp only [scanned, mention, terms, afterIn_append clear here, next, afterIn_append clear' here',
    Option.map_some, cleanedDID, valid, if_true]

/-- The text after the predicate, found term by term. -/
theorem after_predicate :
    match afterIn didBindingPredicate p.terms with
    | none => after didBindingPredicate p.text = none
    | some (rest, later) => ∃ gap tokens, tokens.map Prod.fst = later ∧ gap ∈ gaps ∧
        (∀ token ∈ tokens, token.2 ∈ gaps) ∧
        after didBindingPredicate p.text = some (rest ++ 0x3E :: (gap ++ bracketed tokens)) := by
  by_cases empty : p.statements = []
  · have none : after didBindingPredicate p.ending = none := by
      rcases p.endings with ending | ending <;> rw [ending] <;> decide +kernel
    simpa [terms, text, empty, afterIn, join] using none
  · have known : ∀ token ∈ tokensOf p.ending p.statements, token.2 ∈ gaps :=
      fun _ mem => gap_mem_gaps p.endings mem
    have searched := after_bracketed searchable_predicate known
    rw [map_fst_tokensOf, bracketed_tokensOf p.ending empty] at searched
    exact searched

theorem after_did {rest gap tokens} (known : gap ∈ gaps) (all : ∀ token ∈ tokens, token.2 ∈ gaps) :
    (after didPrefix (rest ++ 0x3E :: (gap ++ bracketed tokens))).map cutDID =
      (afterIn didPrefix (rest :: tokens.map Prod.fst)).map fun found => cutDID found.1 := by
  rw [after_append_cons searchable_did.nonempty searchable_did.closing, afterIn]
  cases after didPrefix rest with
  | some tail => simp [cutDID_closed]
  | none =>
    have searched := after_bracketed searchable_did all
    simp only [after_gap searchable_did known]
    revert searched
    cases afterIn didPrefix _ with
    | none => simp
    | some found =>
      rintro ⟨_, _, _, _, _, found⟩
      simp [found, cutDID_closed]

/-- On a profile made of statements, the scan of the text is a scan of the terms. -/
theorem extractDIDFromProfile_text : extractDIDFromProfile p.text didBindingPredicate = p.scanned := by
  have searched := p.after_predicate
  unfold extractDIDFromProfile scanned mention
  revert searched
  cases afterIn didBindingPredicate p.terms with
  | none =>
    intro none
    -- a predicate that does not occur does not occur in brackets either
    have bracketed : after ("<" ++ didBindingPredicate ++ ">") p.text = .none := by
      rw [after_eq_none] at none ⊢
      exact fun inside => none ((infix_append (str "<") _ (str ">")).trans inside)
    simp only [none, bracketed, Option.orElse_none]
  | some found =>
    obtain ⟨rest, _⟩ := found
    rintro ⟨_, _, rfl, known, all, here⟩
    have next := @after_did rest _ _ known all
    simp only [here, Option.orElse_some, ← next]
    cases after didPrefix _ <;> rfl

end Profile

section

variable [Unicode]

namespace DIDBinder

variable {db : DIDBinder} {contextError : Option String} {now : Time} {webID : Str}

/-- What speaks for `did`, wherever it comes from: the binder is enabled and the context live, the WebID and
the DID have the form of one, and the resolver knows a document of the DID that binds it to the WebID. -/
structure Accepts (db : DIDBinder) (contextError : Option String) (now : Time) (webID did : Str) :
    Prop where
  enabled : db.enabled = true
  live : contextError = none
  https : hasPrefix (trimSpace webID) "https://" = true
  parsed : ∃ u, Url.parse (trimSpace webID) = .ok u
  valid : isValidDID did = true
  bound : ∃ r parsed k body, db.resolver = some r ∧ r.parser.parseDID did = .ok parsed ∧
    r.Binding now webID parsed k body

/-- The profile is served: the WebID is answered with it and status 200, and it is not too large. -/
def Serves (db : DIDBinder) (webID text : Str) : Prop :=
  db.fetch (trimSpace webID) = some (200, text) ∧ text.length ≤ db.maxWebIDProfileSize

theorem didInResponse_eq {r response} {did : Str} (present : did ≠ []) :
    db.didInResponse r response = did ↔ ∃ body, response = some (200, body) ∧ body.length ≤ db.maxWebIDProfileSize ∧
        extractDIDFromProfile body didBindingPredicate = did ∧ isValidDID did = true ∧
        (r.resolve did).isOk = true := by
  constructor
  · intro returned
    simp only [didInResponse] at returned
    split at returned
    · exact absurd returned.symm present
    · rename_i status body
      split_ifs at returned with failed large _ invalid resolved
      · exact absurd returned.symm present
      · exact absurd returned.symm present
      · exact absurd returned.symm present
      · exact absurd returned.symm present
      · have ok : status = 200 := not_not.mp failed
        subst ok returned
        exact ⟨body, rfl, not_lt.mp large, rfl, by simpa using invalid, resolved⟩
      · exact absurd returned.symm present
  · rintro ⟨body, rfl, bounded, rfl, valid, resolved⟩
    simp [didInResponse, not_lt.mpr bounded, valid, resolved]

theorem resolveDIDFromWebIDProfile_eq {r} {did : Str} (present : did ≠ [])
    (enabled : db.enabled = true) (resolver : db.resolver = some r) :
    db.resolveDIDFromWebIDProfile contextError webID = .ok did ↔
      contextError = none ∧ hasPrefix (trimSpace webID) "https://" = true ∧
        (∃ u, Url.parse (trimSpace webID) = .ok u) ∧
        db.didInResponse r (db.fetch (trimSpace webID)) = did := by
  have absent : ¬ (.ok [] : Except String Str) = .ok did := by
    intro empty
    cases empty
    exact present rfl
  simp only [resolveDIDFromWebIDProfile, enabled, resolver]
  cases contextError with
  | some err => simp
  | none =>
    by_cases https : hasPrefix (trimSpace webID) "https://" = true
    · have named : trimSpace webID ≠ [] := by
        intro empty
        rw [empty] at https
        exact absurd https (by decide)
      simp only [named, https]
      cases Url.parse _ with
      | error err => simp [absent]
      | ok u => simp
    · simp [https, absent]

/-- A DID is returned with standard assurance exactly when it is scanned from the profile and
accepted. -/
theorem resolveAndValidate_eq_standard {did} :
    db.resolveAndValidateDIDBinding contextError now webID = .ok (did, .standard) ↔
      db.Accepts contextError now webID did ∧
        ∃ text, db.Serves webID text ∧ extractDIDFromProfile text didBindingPredicate = did := by
  constructor
  · intro returned
    unfold resolveAndValidateDIDBinding at returned
    split at returned
    · rename_i r enabled resolver
      cases found : db.resolveDIDFromWebIDProfile contextError webID with
      | error err =>
        rw [found] at returned
        cases returned
      | ok did' =>
        simp only [found, assured] at returned
        split_ifs at returned with empty bound
        all_goals cases returned
        obtain ⟨live, https, parsed, inside⟩ :=
          (resolveDIDFromWebIDProfile_eq empty enabled resolver).mp found
        obtain ⟨body, served, bounded, extracted, valid, _⟩ := (didInResponse_eq empty).mp inside
        obtain ⟨parsedDID, k, backlink, read, binding⟩ :=
          Resolver.validateDIDBinding_eq_ok.mp (isOk_iff.mp bound)
        exact ⟨⟨enabled, live, https, parsed, valid, r, parsedDID, k, backlink, resolver, read, binding⟩,
          body, ⟨served, bounded⟩, extracted⟩
    · cases returned
  · rintro ⟨accepts, text, ⟨served, bounded⟩, extracted⟩
    obtain ⟨r, parsed, k, body, resolver, read, binding⟩ := accepts.bound
    have present : did ≠ [] := by
      rintro rfl
      exact absurd accepts.valid (by decide)
    have resolved : r.resolve did = .ok (parsed, k) :=
      Resolver.resolve_eq_ok.mpr ⟨binding.enabled, read, binding.known⟩
    have inside : db.didInResponse r (db.fetch _) = did :=
      (didInResponse_eq present).mpr ⟨text, served, bounded, extracted, accepts.valid, by rw [resolved]; rfl⟩
    have found : db.resolveDIDFromWebIDProfile contextError webID = .ok did :=
      (resolveDIDFromWebIDProfile_eq present accepts.enabled resolver).mpr
        ⟨accepts.live, accepts.https, accepts.parsed, inside⟩
    have bound : r.validateDIDBinding now did webID = .ok () :=
      Resolver.validateDIDBinding_eq_ok.mpr ⟨parsed, k, body, read, binding⟩
    have ok : (r.validateDIDBinding now did webID).isOk = true := isOk_iff.mpr bound
    simp [resolveAndValidateDIDBinding, accepts.enabled, resolver, found, present, assured, ok]

/-- Soundness of one call: a DID with standard assurance is bound by a statement of the profile, and
its document is active and names the WebID. -/
structure SoundAt (db : DIDBinder) (profile : Profile) (webID did : Str) : Prop where
  profile : profile.Binds did
  document : ∃ r parsed k service, db.resolver = some r ∧ r.parser.parseDID did = .ok parsed ∧
    r.known parsed.normalizedString = some k ∧ k.document.deactivated = false ∧
    k.document.getSolidWebIDService = some service ∧ service.serviceEndpoint = webID

def Sound (db : DIDBinder) (contextError : Option String) (now : Time) (profile : Profile) (webID : Str) : Prop :=
  ∀ did, db.resolveAndValidateDIDBinding contextError now webID = .ok (did, .standard) → db.SoundAt profile webID did

/-- The document of an accepted DID is active and names the WebID. -/
theorem Accepts.document {did} (accepts : db.Accepts contextError now webID did) :
    ∃ r parsed k service, db.resolver = some r ∧ r.parser.parseDID did = .ok parsed ∧
      r.known parsed.normalizedString = some k ∧ k.document.deactivated = false ∧
      k.document.getSolidWebIDService = some service ∧ service.serviceEndpoint = webID := by
  obtain ⟨r, parsed, k, _, present, read, binding⟩ := accepts.bound
  obtain ⟨service, offered, named, _⟩ := binding.service
  exact ⟨r, parsed, k, service, present, read, binding.known, binding.active, offered, named⟩

/-- The binding is sound where the scan ends on an object of the predicate. -/
theorem sound_of_scanned {profile}
    (same : ∀ url status body, db.fetch url = some (status, body) → body = profile.text)
    (whole : db.Serves webID profile.text → db.Accepts contextError now webID profile.scanned →
      profile.Binds profile.scanned) :
    db.Sound contextError now profile webID := by
  intro did returned
  obtain ⟨accepts, _, serves, extracted⟩ := resolveAndValidate_eq_standard.mp returned
  cases same _ _ _ serves.1
  rw [profile.extractDIDFromProfile_text] at extracted
  subst extracted
  exact ⟨whole serves accepts, accepts.document⟩

end DIDBinder

end

namespace Profile

theorem not_endsDID {b} (iri : iriByte b = true) (dot : b ≠ 0x2E) : (!endsDID b) = true := by
  by_contra ends
  have mem : b ∈ str " .>\n\r\t" := by simpa [endsDID] using ends
  change b ∈ [0x20, 0x2E, 0x3E, 0x0A, 0x0D, 0x09] at mem
  simp only [mem_cons, not_mem_nil, or_false] at mem
  rcases mem with rfl | rfl | rfl | rfl | rfl | rfl
  · exact absurd iri (by decide)
  · exact dot rfl
  all_goals exact absurd iri (by decide)

/-- Where the predicate first occurs as a predicate, and its object is a DID without a dot, the scan
finds that object. -/
theorem scanned_of_plain {p : Profile} {before rest st id} (statements : p.statements = before ++ st :: rest)
    (clear : ∀ t ∈ before.flatMap Statement.terms ++ [st.subject], after didBindingPredicate t = none)
    (predicate : st.predicate = didBindingPredicate) (object : st.object = didPrefix ++ id)
    (dotless : (0x2E : UInt8) ∉ st.object) (clean : cleanedDID st.object = st.object) :
    p.scanned = st.object := by
  have found : after didBindingPredicate st.predicate = some [] := by
    rw [predicate]
    decide +kernel
  have terms : p.terms = (before.flatMap Statement.terms ++ [st.subject]) ++
      st.predicate :: (st.object :: rest.flatMap Statement.terms) := by
    simp [terms, statements, Statement.terms]
  have start : after didPrefix st.object = some id := by
    rw [object]
    exact after_self id
  have whole : cutDID id = st.object := by
    rw [cutDID, ← object, takeWhile_eq_self_iff]
    intro b mem
    have iri : iriByte b = true := all_eq_true.mp (st.iris _ (by simp)) b mem
    exact not_endsDID iri fun dot => dotless (dot ▸ mem)
  have none : after didPrefix [] = none := by decide
  simp only [scanned, mention, terms, afterIn_append clear found, afterIn, none, start, Option.map_some, whole, clean]

end Profile

/-- On such a profile the binding is sound for every WebID and every set of documents. -/
theorem DIDBinder.sound_of_plain [Unicode] {db : DIDBinder} {contextError now webID profile before rest st id}
    (same : ∀ url status body, db.fetch url = some (status, body) → body = profile.text)
    (statements : profile.statements = before ++ st :: rest)
    (clear : ∀ t ∈ before.flatMap Statement.terms ++ [st.subject], after didBindingPredicate t = none)
    (predicate : st.predicate = didBindingPredicate) (object : st.object = didPrefix ++ id)
    (dotless : (0x2E : UInt8) ∉ st.object) (clean : cleanedDID st.object = st.object) :
    db.Sound contextError now profile webID := by
  refine sound_of_scanned same fun _ _ => ?_
  rw [Profile.scanned_of_plain statements clear predicate object dotless clean]
  exact ⟨st, by simp [statements], predicate, by simp [equalCI]⟩

section

attribute [local instance] Unicode.ascii

open Identity

/-- The statement that binds `did` to the profile's subject. -/
def bindingStatement (did : Str) (iri : did.all iriByte = true) : Statement where
  subject := "#me"
  predicate := didBindingPredicate
  object := did
  iris := by
    intro t mem
    simp only [mem_cons, not_mem_nil, or_false] at mem
    rcases mem with rfl | rfl | rfl
    · decide
    · decide
    · exact iri

/-- A profile with one statement, which binds `did`. -/
def bindingProfile (did : Str) (iri : did.all iriByte = true) : Profile :=
  ⟨[bindingStatement did iri], [], .inl rfl⟩

def aliceWebID : Str := "https://alice.example/card"

def aliceDocument : DIDDocument where
  id := "did:solid:alice"
  verificationMethod := [{
    id := "did:solid:alice#key", type := "Multikey", controller := "did:solid:alice",
    publicKeyMultibase := "z6Mk" }]
  authentication := ["did:solid:alice#key"]
  service := [⟨"did:solid:alice#webid", "SolidWebID", aliceWebID⟩]

/-- A resolver that knows this document, under a web that answers everything with `text`. -/
def aliceResolver (text : Str) : Resolver where
  enabled := true
  parser := {}
  known did := if did = "did:solid:alice" then some { document := aliceDocument } else none
  maxDocumentBytes := 65536
  fetch _ := some (200, text)
  ipUnsafe _ := none
  valid := by
    intro did k known
    split at known
    · cases known
      rename_i same
      subst same
      exact ⟨by decide +kernel, rfl⟩
    · cases known

def aliceBinder (text : Str) : DIDBinder where
  enabled := true
  resolver := some (aliceResolver text)
  fetch _ := some (200, text)

theorem sound_of_plain_alice :
    let profile := bindingProfile (str "did:solid:alice") (by decide)
    (aliceBinder profile.text).Sound none (Time.unix 0) profile aliceWebID := by
  refine @DIDBinder.sound_of_plain _ _ _ _ _ _ [] [] _ "solid:alice" (fun _ _ _ answered => ?_) rfl ?_ rfl rfl ?_ ?_
  · cases answered
    rfl
  · decide +kernel
  · decide
  · decide +kernel

end

end Authn
