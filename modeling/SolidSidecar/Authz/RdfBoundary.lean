import SolidSidecar.Go.Order
import SolidSidecar.Runtime.Rdf

/-!
# The RDF parser boundary

`rdf_parser_boundary.go`: policy documents are parsed by the runtime's RDF layer, and their triples are
put into a canonical form. Two slice expressions lie on the way, `content[:100]` in the layer and
`term[1:len-1]` in the canonical form of a term; `parse_returns_iff` says exactly which documents make
neither of them go out of range.
-/

namespace Authz
open Go Runtime Option Str Strings List RDFGraphIndexLayer

inductive RDFTermType where
  | iri
  | literal
  | blankNode
  deriving DecidableEq, Repr

structure RDFTriple where
  subject : Str
  predicate : Str
  object : Str
  objectType : RDFTermType
  language : Str := []
  datatype : Str := []
  deriving DecidableEq, Repr

structure RDFParseResult where
  triples : List RDFTriple
  namedGraphs : GoMap Str (List RDFTriple)
  baseURI : Str
  contentType : Str
  sha256 : Str

inductive RDFParseError where
  | boundaryClosed
  | inputTooLarge (size : Nat) (limit : Int)
  | parseFailed (cause : RDFError)
  deriving DecidableEq, Repr

structure RDFParserBoundaryOptions where
  enableCanonicalization : Bool := true
  maxInputSize : Int := 1048576
  deriving DecidableEq, Repr

structure RDFParserBoundary where
  runtimeRDF : RDFGraphIndexLayer
  options : RDFParserBoundaryOptions := {}
  closed : Bool := false

/-- `normalizeRDFTerm`: a term in brackets or in quotes loses them. A lone quote passes for a term in
quotes, and then `term[1:len-1]` is out of range. -/
def normalizeRDFTerm (term : Str) : Option Str :=
  let term := trimSpace term
  if hasPrefix term "<" && hasSuffix term ">" then term.slice 1 (term.length - 1)
  else if (hasPrefix term "\"" && hasSuffix term "\"") || (hasPrefix term "'" && hasSuffix term "'") then
    term.slice 1 (term.length - 1)
  else some term

def normalizeLanguageTag [Unicode] (tag : Str) : Str := toLower (trimSpace tag)

def normalizeDatatypeURI (uri : Str) : Option Str :=
  let uri := trimSpace uri
  if hasPrefix uri "<" && hasSuffix uri ">" then uri.slice 1 (uri.length - 1)
  else some uri

def canonicalizeTriple [Unicode] (t : RDFTriple) : Option RDFTriple := do
  return {
    subject := ← normalizeRDFTerm t.subject
    predicate := ← normalizeRDFTerm t.predicate
    object := ← normalizeRDFTerm t.object
    objectType := t.objectType
    language := normalizeLanguageTag t.language
    datatype := ← normalizeDatatypeURI t.datatype }

/-- The order of the canonical form: by subject, then by predicate, then by object. -/
def RDFTriple.less (a b : RDFTriple) : Bool :=
  if a.subject ≠ b.subject then a.subject.less b.subject
  else if a.predicate ≠ b.predicate then a.predicate.less b.predicate
  else a.object.less b.object

namespace RDFTriple

/-- The comparison of the source, read from the other side. -/
theorem less_eq_false {a b : RDFTriple} : b.less a = false ↔ Str.Lex a.subject b.subject
        (Str.Lex a.predicate b.predicate (le a.object b.object = true)) := by
  unfold less Str.Lex Str.less
  by_cases subject : b.subject = a.subject
  · by_cases predicate : b.predicate = a.predicate
    · simp [subject, predicate]
    · simp [subject, predicate, Ne.symm predicate]
  · simp [subject, Ne.symm subject]

theorem less_total (a b : RDFTriple) : b.less a = false ∨ a.less b = false := by
  simp only [less_eq_false]
  apply Lex.total
  apply Lex.total
  exact Str.le_total a.object b.object

theorem less_trans {a b c : RDFTriple} (first : b.less a = false) (second : c.less b = false) : c.less a = false := by
  rw [less_eq_false] at *
  apply first.trans second
  intro first second
  apply first.trans second
  exact Str.le_trans

def insertionSort : SortSlice less where
  run l := l.insertionSort fun a b => b.less a = false
  perm l := List.perm_insertionSort _ l
  sorted l := by
    have : Std.Total fun a b : RDFTriple => b.less a = false := ⟨less_total⟩
    have : IsTrans RDFTriple fun a b => b.less a = false := ⟨fun _ _ _ => less_trans⟩
    exact List.pairwise_insertionSort _ l

end RDFTriple

def canonicalizeTriples [Unicode] (sort : SortSlice RDFTriple.less) (triples : List RDFTriple) :
    Option (List RDFTriple) :=
  if triples = [] then some triples else (triples.mapM canonicalizeTriple).map sort.run

def convertObjectType : RDFObjectType → RDFTermType
  | .uri => .iri
  | .blank => .blankNode
  | .literal => .literal

def convertTriple (t : Runtime.RDFTriple) : RDFTriple where
  subject := t.subject
  predicate := t.predicate
  object := t.object
  objectType := convertObjectType t.objectType
  language := t.language
  datatype := t.datatype

def formatText : RDFFormat → Str
  | .turtle => "text/turtle"
  | .nTriples => "application/n-triples"
  | .jsonLD => "application/ld+json"

/-- `convertToRDFParseResult`; the triples stand under the URI of the graph once more. -/
def convertToRDFParseResult (result : ParseResult) : RDFParseResult where
  triples := result.graph.triples.map convertTriple
  namedGraphs :=
    AList.insert (if result.graph.uri ≠ [] then result.graph.uri else "default")
      (result.graph.triples.map convertTriple) ∅
  baseURI := result.graph.uri
  contentType := formatText result.format
  sha256 := result.graph.hash

def boundaryURI : Str := "boundary://parse"

namespace RDFParserBoundary

section Parse

variable [Unicode] (sha256 : Str → Str) (sort : SortSlice RDFTriple.less)

/-- What becomes of the layer's result; `none` where the canonical form panics. -/
def finish (b : RDFParserBoundary) (result : ParseResult) : Option RDFParseResult :=
  let converted := convertToRDFParseResult result
  if b.options.enableCanonicalization then
    (canonicalizeTriples sort converted.triples).map fun triples => { converted with triples }
  else some converted

def parse (b : RDFParserBoundary) (content : Bytes) (contentType : Str) :
    RDFParserBoundary × Option (Except RDFParseError RDFParseResult) :=
  if b.closed then (b, some (.error .boundaryClosed))
  else if content.bytes.length > b.options.maxInputSize then
    (b, some (.error (.inputTooLarge content.bytes.length b.options.maxInputSize)))
  else
    let parsed := b.runtimeRDF.parse sha256 boundaryURI content contentType
    let b := { b with runtimeRDF := parsed.1 }
    (b, match parsed.2 with
      | none => none
      | some (.error err) => some (.error (.parseFailed err))
      | some (.ok result) => (b.finish sort result).map .ok)

def loneQuote (term : Str) : Bool := term = "\"" || term = "'"

omit [Unicode] in
/-- A term has no canonical form exactly if it is one quote. -/
theorem normalizeRDFTerm_eq_none {term : Str} :
    normalizeRDFTerm term = none ↔ loneQuote (Strings.trimSpace term) = true := by
  have opening : str "<" = [0x3C] := rfl
  have closing : str ">" = [0x3E] := rfl
  have double : str "\"" = [0x22] := rfl
  have single : str "'" = [0x27] := rfl
  unfold normalizeRDFTerm loneQuote
  rw [opening, closing, double, single]
  match Strings.trimSpace term with
  | [] => simp [Strings.hasPrefix]
  | [a] =>
    simp only [Strings.hasPrefix, Strings.hasSuffix, List.isSuffixOf, List.reverse_singleton,
      List.isPrefixOf, Bool.and_true, Str.slice]
    by_cases bracket : a = 0x3C
    · subst bracket
      decide
    · by_cases quote : a = 0x22
      · subst quote
        decide
      · by_cases apostrophe : a = 0x27
        · subst apostrophe
          decide
        · simp [Ne.symm bracket, quote, apostrophe, Ne.symm quote, Ne.symm apostrophe]
  | a :: b :: rest =>
    have inside : Str.slice (a :: b :: rest) 1 (rest.length + 1) ≠ none := by simp [Str.slice]
    dsimp only
    split_ifs <;> simp [inside]

/-- A statement with a part that is cleaned to one quote. -/
def hasLoneQuote (statement : Str × Str × Str) : Bool :=
  loneQuote (cleanRDFTerm statement.1) || loneQuote (cleanRDFTerm statement.2.1) ||
    loneQuote (cleanRDFTerm statement.2.2)

omit [Unicode] in
theorem trimSpace_cleanRDFTerm (term : Str) : Strings.trimSpace (cleanRDFTerm term) = cleanRDFTerm term :=
  Strings.trimSpace_trimSpace _

omit [Unicode] in
theorem normalizeRDFTerm_cleanRDFTerm (term : Str) :
    normalizeRDFTerm (cleanRDFTerm term) = none ↔ loneQuote (cleanRDFTerm term) = true := by
  rw [normalizeRDFTerm_eq_none, trimSpace_cleanRDFTerm]

theorem canonicalizeTriple_eq_none (statement : Str × Str × Str) :
    canonicalizeTriple (convertTriple (tripleOf statement)) = none ↔ hasLoneQuote statement = true := by
  have plain : normalizeDatatypeURI [] = some [] := rfl
  have subject := normalizeRDFTerm_cleanRDFTerm statement.1
  have predicate := normalizeRDFTerm_cleanRDFTerm statement.2.1
  have object := normalizeRDFTerm_cleanRDFTerm statement.2.2
  unfold hasLoneQuote
  rw [Bool.or_eq_true, Bool.or_eq_true, ← subject, ← predicate, ← object]
  simp only [canonicalizeTriple, convertTriple, tripleOf, plain]
  cases normalizeRDFTerm _ <;> cases normalizeRDFTerm _ <;>
    cases normalizeRDFTerm _ <;> simp

/-- The canonical form of a parsed document goes out of range exactly on a lone quote. -/
theorem canonicalizeTriples_eq_none (statements : List (Str × Str × Str)) :
    canonicalizeTriples sort ((statements.map tripleOf).map convertTriple) = none ↔
      ∃ statement ∈ statements, hasLoneQuote statement = true := by
  unfold canonicalizeTriples
  split_ifs with empty
  · have none : statements = [] := by simpa using empty
    simp [none]
  · rw [map_eq_none_iff, mapM_eq_none]
    simp [canonicalizeTriple_eq_none]

/-- The boundary and the layer take the document: they are open, its size is within the limits, and the
content type is valid. -/
structure Accepts (b : RDFParserBoundary) (content : Bytes) (contentType : Str) : Prop where
  boundary : b.closed = false
  input : content.bytes.length ≤ b.options.maxInputSize
  contentType : validateContentType contentType = .ok ()
  resource : content.bytes.length ≤ maxResourceSize
  layer : b.runtimeRDF.closed = false

/-- No slice expression goes out of range: a document above the size of a graph has an array of a
hundred bytes behind it, and one within it has no statement with a lone quote. -/
def InRange (b : RDFParserBoundary) (content : Bytes) : Prop :=
  if content.bytes.length > b.runtimeRDF.config.maxGraphSize then 100 ≤ content.cap
  else ∀ statement ∈ statementsOf content.bytes, hasLoneQuote statement = false

omit [Unicode] in
theorem checkArguments_boundaryURI {content : Bytes} {contentType : Str} :
    RDFGraphIndexLayer.checkArguments boundaryURI content contentType = .ok () ↔
      validateContentType contentType = .ok () ∧ content.bytes.length ≤ maxResourceSize := by
  have uri : validateURI boundaryURI = .ok () := by decide +kernel
  unfold RDFGraphIndexLayer.checkArguments
  rw [uri]
  cases validateContentType contentType with
  | error err => simp
  | ok u =>
    simp only [validateResourceSize, refuse]
    split_ifs with large <;> simpa using large

/-- A document is parsed to a result or refused with an error, without a slice out of range, exactly when
it is in range or not taken in the first place. -/
theorem parse_returns_iff (b : RDFParserBoundary) (canonical : b.options.enableCanonicalization = true)
    (content : Bytes) (contentType : Str) :
    (b.parse sha256 sort content contentType).2.isSome = true ↔
      (b.Accepts content contentType → b.InRange content) := by
  unfold parse
  by_cases boundary : b.closed = true
  · simp only [boundary, if_true, isSome_some, true_iff]
    intro accepts
    rw [accepts.boundary] at boundary
    cases boundary
  rw [Bool.not_eq_true] at boundary
  by_cases input : content.bytes.length > b.options.maxInputSize
  · simp only [boundary, Bool.false_eq_true, if_false, input, if_true, isSome_some, true_iff]
    intro accepts
    have fits := accepts.input
    omega
  simp only [boundary, Bool.false_eq_true, if_false, input]
  cases checked : checkArguments boundaryURI content contentType with
  | error err =>
    simp only [RDFGraphIndexLayer.parse, checked, isSome_some, true_iff]
    intro accepts
    rw [checkArguments_boundaryURI.mpr ⟨accepts.contentType, accepts.resource⟩] at checked
    cases checked
  | ok u =>
    by_cases layer : b.runtimeRDF.closed = true
    · simp only [RDFGraphIndexLayer.parse, checked, layer, if_true, isSome_some, true_iff]
      intro accepts
      rw [accepts.layer] at layer
      cases layer
    rw [Bool.not_eq_true] at layer
    obtain ⟨typed, sized⟩ := checkArguments_boundaryURI.mp checked
    have accepts : b.Accepts content contentType := ⟨boundary, by omega, typed, sized, layer⟩
    rw [parse_eq sha256 checked layer, parseTurtle, InRange]
    split_ifs
    · simp only [accepts, Bytes.upTo]
      split_ifs with short <;> simpa using short
    · simp only [accepts, finish, canonical, if_true, isSome_map]
      rw [← not_iff_not, Bool.not_eq_true, isSome_eq_false_iff, isNone_iff_eq_none]
      have converted : (convertToRDFParseResult ⟨graphOf sha256 boundaryURI content.bytes, .turtle⟩).triples =
            ((statementsOf content.bytes).map tripleOf).map convertTriple := rfl
      rw [converted, canonicalizeTriples_eq_none]
      simp

end Parse

section Sample

attribute [local instance] Unicode.ascii

/-- A boundary over a new layer, both with their defaults. -/
def standard : RDFParserBoundary := { runtimeRDF := {} }

def plainStatement : Bytes := ⟨"<a> <b> <c> .", []⟩

theorem parse_returns_iff_plain : standard.InRange plainStatement ∧
    (standard.parse id RDFTriple.insertionSort plainStatement (str "text/turtle")).2.isSome = true := by
  have inRange : standard.InRange plainStatement := by
    unfold InRange
    decide +kernel
  exact ⟨inRange, (parse_returns_iff id RDFTriple.insertionSort standard rfl plainStatement _).mpr fun _ => inRange⟩

/-- A subject that is an apostrophe, and a document of 13 bytes where a graph may have 10, end in a
panic. -/
theorem parse_out_of_range :
    (standard.parse id RDFTriple.insertionSort ⟨str "' b c .", []⟩ (str "text/turtle")).2 = none ∧
      (RDFParserBoundary.parse id RDFTriple.insertionSort
        { runtimeRDF := { config := { maxGraphSize := 10 } } } plainStatement
        (str "text/turtle")).2 = none :=
  ⟨isNone_iff_eq_none.mp (by decide +kernel), isNone_iff_eq_none.mp (by decide +kernel)⟩

end Sample

end RDFParserBoundary

end Authz
