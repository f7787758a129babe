import SolidSidecar.Go.Map
import SolidSidecar.Runtime.Validation

/-!
# The RDF graph and index layer

`rdf.go`: documents are read line by line into triples, and each parsed graph is stored under its URI
and entered into three indexes, maps of maps that lead from a pair of terms to one graph. A call that
ends in a run-time panic has the outcome `none`; here that is an error message that quotes the first
hundred bytes of a document (`content[:100]`), which a shorter array does not have.

Counters, logs and locks are left out; `AddGraph` and `UpdateGraph`, which take the layer's lock
twice, are not modelled.
-/

namespace Runtime
open Go Strings

inductive RDFObjectType where
  | uri
  | blank
  | literal
  deriving DecidableEq, Repr

def RDFObjectType.text : RDFObjectType → Str
  | .uri => "uri"
  | .blank => "blank"
  | .literal => "literal"

structure RDFTriple where
  subject : Str
  predicate : Str
  object : Str
  objectType : RDFObjectType
  language : Str := []
  datatype : Str := []
  deriving DecidableEq, Repr

structure RDFGraph where
  uri : Str
  triples : List RDFTriple
  format : Str
  hash : Str
  size : Nat
  deriving DecidableEq, Repr

inductive RDFFormat where
  | turtle
  | nTriples
  | jsonLD
  deriving DecidableEq, Repr

inductive RDFError where
  | invalidURI (cause : ValidationError)
  | invalidContentType (cause : ValidationError)
  | content (cause : ValidationError)
  | closed
  | parse (message : String) (input : Str)
  | invalidTerm (cause : ValidationError)
  deriving DecidableEq, Repr

/-- `cleanRDFTerm`: one bracket and one quote are dropped at each end, and white space around and
inside them. -/
def cleanRDFTerm (term : Str) : Str :=
  let term := trimSpace term
  let term := trimPrefix term "<"
  let term := trimSuffix term ">"
  let term := trimPrefix term "\""
  let term := trimSuffix term "\""
  trimSpace term

def determineObjectType (obj : Str) : RDFObjectType :=
  if hasPrefix obj "<" && hasSuffix obj ">" then .uri
  else if hasPrefix obj "_" then .blank
  else .literal

/-- The three parts of a line that is a statement: comments and declarations are skipped, and so is a
line without a full stop at its end or with fewer than three parts. -/
def statementOf (line : Str) : Option (Str × Str × Str) :=
  let line := trimSpace line
  if line = [] || hasPrefix line "#" || hasPrefix line "@prefix" || hasPrefix line "PREFIX" then none
  else if hasSuffix line "." then
    match fields (trimSpace (trimSuffix line ".")) with
    | subject :: predicate :: object :: rest =>
      some (subject, predicate, join (object :: rest) " ")
    | _ => none
  else none

def statementsOf (content : Str) : List (Str × Str × Str) :=
  (split '\n'.toUInt8 content).filterMap statementOf

def tripleOf (statement : Str × Str × Str) : RDFTriple where
  subject := cleanRDFTerm statement.1
  predicate := cleanRDFTerm statement.2.1
  object := cleanRDFTerm statement.2.2
  objectType := determineObjectType (cleanRDFTerm statement.2.2)

/-- `detectRDFFormat`; what it cannot tell is taken for Turtle. -/
def detectRDFFormat [Unicode] (contentType content : Str) : RDFFormat :=
  let contentType := toLower contentType
  if contains contentType "text/turtle" then .turtle
  else if contains contentType "application/n-triples" then .nTriples
  else if contains contentType "application/ld+json" || contains contentType "application/json" then .jsonLD
  else
    let content := trimSpace content
    if hasPrefix content "@prefix" || hasPrefix content "PREFIX" then .turtle
    else if hasPrefix content "<" || hasPrefix content "_" then .nTriples
    else if hasPrefix content "\x7b" then .jsonLD
    else .turtle

/-- `hashGraph`: the first half of the digest of all terms, without separators. -/
def hashGraph (sha256 : Str → Str) (triples : List RDFTriple) : Str :=
  hexEncode ((sha256 (triples.flatMap fun t =>
    t.subject ++ t.predicate ++ t.object ++ t.objectType.text)).take 16)

structure RDFGraphIndexConfig where
  maxGraphSize : Int := 1024 * 1024
  maxGraphs : Int := 10000
  deriving DecidableEq, Repr

abbrev Index := GoMap Str (GoMap Str RDFGraph)

/-- The graphs under one term, none where the index does not have it. -/
def under (index : Index) (term : Str) : GoMap Str RDFGraph := (index.lookup term).getD ∅

structure RDFGraphIndexLayer where
  config : RDFGraphIndexConfig := {}
  graphs : GoMap Str RDFGraph := ∅
  subjectIndex : Index := ∅
  predicateIndex : Index := ∅
  objectIndex : Index := ∅
  typeIndex : GoMap Str (List Str) := ∅
  closed : Bool := false

structure ParseResult where
  graph : RDFGraph
  format : RDFFormat
  deriving DecidableEq, Repr

namespace RDFGraphIndexLayer

variable (r : RDFGraphIndexLayer)

/-- The predicates that `parseTurtle` and `RemoveGraph` take for `rdf:type`. -/
def isTypePredicate (predicate : Str) : Bool :=
  predicate = "<http://www.w3.org/1999/02/22-rdf-syntax-ns#type>" || predicate = "a"

/-- A triple of the document `uri` in the index of types. -/
def addType (uri : Str) (types : GoMap Str (List Str)) (t : RDFTriple) : GoMap Str (List Str) :=
  if isTypePredicate t.predicate then
    types.insert t.object ((types.lookup t.object).getD [] ++ [uri])
  else types

def indexTriple (g : RDFGraph) (r : RDFGraphIndexLayer) (t : RDFTriple) : RDFGraphIndexLayer :=
  { r with
    subjectIndex := r.subjectIndex.insertIn t.subject t.predicate g
    predicateIndex := r.predicateIndex.insertIn t.predicate t.object g
    objectIndex := r.objectIndex.insertIn t.object t.subject g }

/-- `addToIndexes`: nothing is stored once the limit is reached. Each index also gets an empty map for
the URI of the graph. -/
def addToIndexes (g : RDFGraph) : RDFGraphIndexLayer :=
  if r.closed then r
  else if r.graphs.size ≥ r.config.maxGraphs then r
  else
    g.triples.foldl (indexTriple g) { r with
        graphs := r.graphs.insert g.uri g
        subjectIndex := r.subjectIndex.ensureIn g.uri
        predicateIndex := r.predicateIndex.ensureIn g.uri
        objectIndex := r.objectIndex.ensureIn g.uri }

def graphOf (sha256 : Str → Str) (uri content : Str) : RDFGraph :=
  let triples := (statementsOf content).map tripleOf
  { uri, triples, format := "text/turtle", hash := hashGraph sha256 triples
    size := content.length }

variable (sha256 : Str → Str)

def parseTurtle (r : RDFGraphIndexLayer) (uri : Str) (content : Bytes) :
    RDFGraphIndexLayer × Option (Except RDFError ParseResult) :=
  if content.bytes.length > r.config.maxGraphSize then
    (r, (content.upTo 100).map fun start =>
      .error (.parse "graph exceeds maximum size" (start ++ "...")))
  else
    let g := graphOf sha256 uri content.bytes
    let r := { r with typeIndex := g.triples.foldl (addType uri) r.typeIndex }
    (r.addToIndexes g, some (.ok ⟨g, .turtle⟩))

def parseNTriples : RDFGraphIndexLayer → Str → Bytes →
    RDFGraphIndexLayer × Option (Except RDFError ParseResult) := parseTurtle sha256

def parseJSONLD : RDFGraphIndexLayer → Str → Bytes →
    RDFGraphIndexLayer × Option (Except RDFError ParseResult) := parseTurtle sha256

def checkArguments (uri : Str) (content : Bytes) (contentType : Str) : Except RDFError Unit :=
  match validateURI uri with
  | .error err => .error (.invalidURI err)
  | .ok () =>
    match validateContentType contentType with
    | .error err => .error (.invalidContentType err)
    | .ok () =>
      match validateResourceSize content.bytes.length with
      | .error err => .error (.content err)
      | .ok () => .ok ()

def parse [Unicode] (r : RDFGraphIndexLayer) (uri : Str) (content : Bytes) (contentType : Str) :
    RDFGraphIndexLayer × Option (Except RDFError ParseResult) :=
  match checkArguments uri content contentType with
  | .error err => (r, some (.error err))
  | .ok () =>
    if r.closed then (r, some (.error .closed))
    else match detectRDFFormat contentType content.bytes with
      | .turtle => r.parseTurtle sha256 uri content
      | .nTriples => r.parseNTriples sha256 uri content
      | .jsonLD => r.parseJSONLD sha256 uri content

/-- Whatever the format, an open layer parses a checked document by one function. -/
theorem parse_eq [Unicode] {r : RDFGraphIndexLayer} {uri content contentType}
    (checked : checkArguments uri content contentType = .ok ()) (running : r.closed = false) :
    r.parse sha256 uri content contentType = r.parseTurtle sha256 uri content := by
  unfold parse
  rw [checked, running]
  simp only [Bool.false_eq_true, if_false]
  split <;> rfl

/-- A triple of the document `uri` taken out of the index of types. -/
def dropType (uri : Str) (types : GoMap Str (List Str)) (t : RDFTriple) : GoMap Str (List Str) :=
  if isTypePredicate t.predicate then
    match types.lookup t.object with
    | none => types
    | some uris =>
      if uris.filter (· ≠ uri) = [] then types.erase t.object
      else types.insert t.object (uris.filter (· ≠ uri))
  else types

/-- One triple of the graph `uri` taken out of the indexes, whichever graph they hold for it. -/
def unindexTriple (uri : Str) (r : RDFGraphIndexLayer) (t : RDFTriple) : RDFGraphIndexLayer :=
  { r with
    subjectIndex := r.subjectIndex.eraseIn t.subject t.predicate
    predicateIndex := r.predicateIndex.eraseIn t.predicate t.object
    objectIndex := r.objectIndex.eraseIn t.object t.subject
    typeIndex := dropType uri r.typeIndex t }

def removeGraph (uri : Str) : RDFGraphIndexLayer × Except RDFError Unit :=
  if r.closed then (r, .error .closed)
  else match r.graphs.lookup uri with
    | none => (r, .ok ())
    | some g =>
      let r := g.triples.foldl (unindexTriple uri) r
      ({ r with graphs := r.graphs.erase uri }, .ok ())

/-- The three queries: the graphs under one term of an index, in the order of the `range` loop. -/
def query (index : Index) (order : RangeOrder RDFGraph) (term : Str) : Except RDFError (List RDFGraph) :=
  match validateRDFTerm term with
  | .error err => .error (.invalidTerm err)
  | .ok () =>
    if r.closed then .error .closed
    else .ok (order.visit (under index term).values)

def queryBySubject : RangeOrder RDFGraph → Str → Except RDFError (List RDFGraph) := r.query r.subjectIndex

def queryByPredicate : RangeOrder RDFGraph → Str → Except RDFError (List RDFGraph) := r.query r.predicateIndex

def queryByObject : RangeOrder RDFGraph → Str → Except RDFError (List RDFGraph) := r.query r.objectIndex

end RDFGraphIndexLayer

end Runtime
