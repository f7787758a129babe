import SolidSidecar.Compression.Decompression

/-!
# The compression middleware

The handler writes to a `compressionResponseWriter`, which keeps the status, the body and a copy of
the headers. Afterwards the headers of the real writer are adjusted and the copy is written over them,
except under the names `Content-Encoding`, `Vary`, `ETag` and `Content-Length`. A header map has
`Etag`, so the validator of the handler comes back; and `Vary` is read and set as one line.
-/

namespace Compression
open Go Go.Io List Http Strings

variable (calls : List Http.Call)

/-- `compressionResponseWriter`; `inner` is the writer it wraps. -/
structure ResponseWriter where
  inner : Http.Writer
  body : Str := []
  status : Int := 200
  headers : Http.Header := ∅
  wroteHeader : Bool := false

namespace ResponseWriter

variable (crw : ResponseWriter)

def writeHeader (statusCode : Int) : ResponseWriter :=
  { crw with status := statusCode, wroteHeader := true, headers := crw.inner.header }

def write (b : Str) : ResponseWriter :=
  let crw := if crw.wroteHeader then crw else crw.writeHeader 200
  { crw with body := crw.body ++ b }

/-- A call of the handler; the header map is that of the wrapped writer. -/
def call : Http.Call → ResponseWriter
  | .writeHeader status => crw.writeHeader status
  | .write b => crw.write b
  | .change c => { crw with inner := { crw.inner with header := c.apply crw.inner.header } }

def serve (calls : List Http.Call) : ResponseWriter := calls.foldl call crw

theorem serve_cons (c : Call) (rest : List Call) : crw.serve (c :: rest) = (crw.call c).serve rest := rfl

theorem serve_append (first rest : List Call) :
    crw.serve (first ++ rest) = (crw.serve first).serve rest := foldl_append

end ResponseWriter

def adjustedNames : List Str :=
  ["Content-Encoding", "Vary", "ETag", "Content-Length"]

section Middleware

variable [Unicode] (codecs : Codecs) (cfg : ResponsesConfig) (order : RangeOrder (Str × List Str))

/-- The encoding and the compressed body, where the response is compressed. -/
def compression (req : Http.Request) (status : Int) (headers : Http.Header) (body : Str) : Option (Str × Str) :=
  if body ≠ [] ∧ shouldSkipResponseCompression req cfg status headers body.length = none then
    (selectEncoding (getAcceptedEncodings req) cfg).bind fun encoding =>
      (compressResponse codecs body encoding cfg).map fun compressed => (encoding, compressed)
  else none

def compressedHeader (encoding : Str) (live captured : Http.Header) : Http.Header :=
  let h := live.set "Content-Encoding" encoding
  let h := handleContentLength (handleETag (addVaryHeader h))
  h.assign order (adjustedNames.contains ·) captured

def finish (req : Http.Request) (crw : ResponseWriter) : Http.Writer :=
  match compression codecs cfg req crw.status crw.headers crw.body with
  | some (encoding, compressed) =>
    let w := { crw.inner with header := compressedHeader order encoding crw.inner.header crw.headers }
    (w.writeHeader crw.status).write compressed
  | none =>
    let w := if crw.wroteHeader then
        { crw.inner with header := crw.inner.header.assign order (fun _ => false) crw.headers }
      else crw.inner
    let w := w.writeHeader crw.status
    if crw.body ≠ [] then w.write crw.body else w

/-- `Middleware`: the response that a handler gives through it, on a writer with headers `h`. -/
def middleware (pace : Nat → Nat) (decoders : Decoders) (requests : RequestsConfig)
    (next : Message (Option Stream) → List Http.Call) (h : Http.Header) (r : Message Stream) :
    Http.Response :=
  let w : Http.Writer := { header := h }
  match decompressed pace decoders requests r with
  | (seen, true) => (w.serve (next seen)).response
  | (seen, false) =>
    (finish codecs cfg order r.request (({ inner := w } : ResponseWriter).serve (next seen))).response

end Middleware

/-- No header changes once the header is written, by `WriteHeader` or by a `Write`. -/
def Settled : Prop := ∀ c ∈ calls.dropWhile Http.Call.isChange, c.isChange = false

instance (calls : List Http.Call) : Decidable (Settled calls) :=
  inferInstanceAs (Decidable (∀ c ∈ _, _))

/-- The changes that come first, and the calls after them. -/
theorem Settled.split {calls} (settled : Settled calls) : ∃ (changes : List Change) (rest : List Call),
      calls = changes.map .change ++ rest ∧ ∀ c ∈ rest, c.isChange = false := by
  induction calls with
  | nil => exact ⟨[], [], rfl, by simp⟩
  | cons c calls ih =>
    cases c with
    | change c =>
      obtain ⟨changes, rest, rfl, none⟩ := ih settled
      exact ⟨c :: changes, rest, rfl, none⟩
    | writeHeader status => exact ⟨[], _, rfl, settled⟩
    | write b => exact ⟨[], _, rfl, settled⟩

/-- The status that a server sends: that of the first `WriteHeader`, which a `Write` calls too. -/
def firstStatus : Int :=
  match calls.dropWhile Http.Call.isChange with
  | .writeHeader status :: _ => status
  | _ => 200

/-- The status after a call, where the last `WriteHeader` counts. -/
def nextStatus (status : Int) : Http.Call → Int
  | .writeHeader status => status
  | _ => status

def lastStatus : Int := calls.foldl nextStatus 200

def written : Str :=
  calls.flatMap fun c => match c with | .write b => b | _ => []

variable (changes : List Http.Change)

theorem serve_changes (w : Writer) :
    w.serve (changes.map .change) = { w with header := changes.foldl Change.apply w.header } := by
  induction changes generalizing w with
  | nil => rfl
  | cons c changes ih => exact ih _

theorem capture_changes (crw : ResponseWriter) : crw.serve (changes.map .change) = { crw with
      inner := { crw.inner with header := changes.foldl Change.apply crw.inner.header } } := by
  induction changes generalizing crw with
  | nil => rfl
  | cons c changes ih => exact ih _

variable (rest : List Http.Call)

theorem serve_sent (none : ∀ c ∈ rest, c.isChange = false) (w : Writer)
    (sent : w.sent.isSome = true) : w.serve rest = { w with body := w.body ++ written rest } := by
  induction rest generalizing w with
  | nil => simp [Writer.serve, written]
  | cons c rest ih =>
    have later := ih fun c mem => none c (mem_cons_of_mem _ mem)
    rw [Writer.serve_cons]
    cases c with
    | change c => cases none _ mem_cons_self
    | writeHeader status =>
      have same : w.call (.writeHeader status) = w := if_pos sent
      rw [same, later w sent]
      simp [written]
    | write b =>
      have grown : w.call (.write b) = { w with body := w.body ++ b } := by
        simp [Writer.call, Writer.write, Writer.writeHeader, sent]
      rw [grown, later { w with body := w.body ++ b } sent]
      simp [written]

/-- After the header is captured the body and the status follow the calls. -/
theorem capture_wrote (none : ∀ c ∈ rest, c.isChange = false)
    (crw : ResponseWriter) (wrote : crw.wroteHeader = true) (same : crw.headers = crw.inner.header) :
    crw.serve rest = { crw with
      body := crw.body ++ written rest
      status := rest.foldl nextStatus crw.status } := by
  induction rest generalizing crw with
  | nil => simp [ResponseWriter.serve, written]
  | cons c rest ih =>
    have later := ih fun c mem => none c (mem_cons_of_mem _ mem)
    rw [ResponseWriter.serve_cons]
    cases c with
    | change c => cases none _ mem_cons_self
    | writeHeader status =>
      have set : crw.call (.writeHeader status) = { crw with status := status } := by
        simp [ResponseWriter.call, ResponseWriter.writeHeader, wrote, same]
      rw [set, later { crw with status := status } wrote same]
      simp [written, nextStatus]
    | write b =>
      have grown : crw.call (.write b) = { crw with body := crw.body ++ b } := by
        simp [ResponseWriter.call, ResponseWriter.write, wrote]
      rw [grown, later { crw with body := crw.body ++ b } wrote same]
      simp [written, nextStatus]

theorem after_changes : firstStatus (changes.map .change ++ rest) = firstStatus rest ∧
      lastStatus (changes.map .change ++ rest) = lastStatus rest ∧
      written (changes.map .change ++ rest) = written rest := by
  induction changes with
  | nil => exact ⟨rfl, rfl, rfl⟩
  | cons c changes ih => exact ih

/-- The response of a settled handler, and what the middleware keeps of it. -/
theorem settled_outcome {calls} (settled : Settled calls) (h : Header) :
    ∃ (own : Header) (wrote : Bool), (({ header := h } : Writer).serve calls).response =
        ⟨firstStatus calls, own, written calls⟩ ∧
      ({ inner := { header := h } } : ResponseWriter).serve calls = {
        inner := { header := own }
        body := written calls
        status := lastStatus calls
        headers := if wrote then own else ∅
        wroteHeader := wrote } ∧
      (wrote = false → written calls = []) := by
  obtain ⟨changes, rest, rfl, none⟩ := settled.split
  obtain ⟨first, last, body⟩ := after_changes changes rest
  rw [first, last, body, Writer.serve_append, serve_changes, ResponseWriter.serve_append, capture_changes]
  refine ⟨changes.foldl Change.apply h, rest ≠ [], ?_⟩
  cases rest with
  | nil => exact ⟨rfl, rfl, fun _ => rfl⟩
  | cons c rest =>
    have later := fun c mem => none c (mem_cons_of_mem _ mem)
    rw [Writer.serve_cons, ResponseWriter.serve_cons]
    cases c with
    | change c => cases none _ mem_cons_self
    | writeHeader status =>
      rw [serve_sent rest later _ rfl, capture_wrote rest later _ rfl rfl]
      refine ⟨?_, ?_, by simp⟩
      · simp [Writer.response, Writer.call, Writer.writeHeader, firstStatus, Call.isChange, written]
      · simp [ResponseWriter.call, ResponseWriter.writeHeader, lastStatus, nextStatus, written]
    | write b =>
      rw [serve_sent rest later _ rfl, capture_wrote rest later _ rfl rfl]
      refine ⟨?_, ?_, by simp⟩
      · simp [Writer.response, Writer.call, Writer.write, Writer.writeHeader, firstStatus, Call.isChange, written]
      · simp [ResponseWriter.call, ResponseWriter.write, ResponseWriter.writeHeader, lastStatus, nextStatus, written]

theorem canonical_names : canonicalHeaderKey "Content-Encoding" = "Content-Encoding" ∧
      canonicalHeaderKey "Content-Length" = "Content-Length" ∧
      canonicalHeaderKey "Vary" = "Vary" ∧
      canonicalHeaderKey "ETag" = "Etag" := by
  decide

theorem get_eTag (h : Header) : h.get "ETag" = ((h.lookup (str "Etag")).getD []).headD [] := by
  rw [Header.get, Header.values, canonical_names.2.2.2]

/-- A change of the validator touches `Etag` only, and only if there is one. -/
theorem lookup_handleETag {h key} (other : key ≠ str "Etag" ∨ h.lookup key = none) :
    (handleETag h).lookup key = h.lookup key := by
  unfold handleETag
  split_ifs with empty
  · rfl
  · rfl
  · rw [Header.lookup_set canonical_names.2.2.2]
    refine if_neg fun here => ?_
    rcases other with apart | none
    · exact apart here
    · rw [get_eTag, ← here, none] at empty
      exact empty rfl

section Case

variable [Unicode]

def varyLines (lines : Option (List Str)) : Option (List Str) :=
  let vary := (lines.getD []).headD []
  if vary = [] then some ["Accept-Encoding"]
  else if contains (toLower vary) "accept-encoding" then lines
  else some [vary ++ ", Accept-Encoding"]

theorem lookup_addVaryHeader (h : Header) (key : Str) : (addVaryHeader h).lookup key =
      if key = "Vary" then varyLines (h.lookup (str "Vary")) else h.lookup key := by
  have set : ∀ value, (h.set (str "Vary") value).lookup key = _ :=
    fun value => Header.lookup_set canonical_names.2.2.1 h value key
  simp only [addVaryHeader, varyLines, Header.get_eq canonical_names.2.2.1]
  by_cases here : key = "Vary"
  · subst here
    rw [if_pos rfl]
    split_ifs <;> simp [set]
  · split_ifs <;> simp [set, here]

/-- The headers of a compressed response: the encoding, no length, `Vary` as `addVaryHeader` leaves it,
and everything else as the handler gave it, the validator included. -/
theorem lookup_compressedHeader (order : RangeOrder (Str × List Str)) (encoding : Str) (h : Header) (key : Str) :
    (compressedHeader order encoding h h).lookup key =
      if key = "Content-Encoding" then some [encoding]
      else if key = "Content-Length" then none
      else if key = "Vary" then varyLines (h.lookup (str "Vary"))
      else h.lookup key := by
  -- what the adjustments leave under a name, wherever the validator does not matter
  have adjusted : ∀ {key}, key ≠ str "Etag" ∨ h.lookup key = none →
      (handleContentLength (handleETag (addVaryHeader (h.set (str "Content-Encoding") encoding)))).lookup key =
        if key = "Content-Length" then none
        else if key = "Vary" then varyLines (h.lookup (str "Vary"))
        else if key = "Content-Encoding" then some [encoding]
        else h.lookup key := by
    intro key other
    have vary : (h.set (str "Content-Encoding") encoding).lookup (str "Vary") = h.lookup (str "Vary") := by
      rw [Header.lookup_set canonical_names.1, if_neg (by decide)]
    have base : (addVaryHeader (h.set (str "Content-Encoding") encoding)).lookup key =
        if key = "Vary" then varyLines (h.lookup (str "Vary"))
        else if key = "Content-Encoding" then some [encoding] else h.lookup key := by
      rw [lookup_addVaryHeader, vary, Header.lookup_set canonical_names.1]
    rw [handleContentLength, Header.lookup_del canonical_names.2.1, ← base]
    congr 1
    apply lookup_handleETag
    rcases other with other | none
    · exact .inl other
    · by_cases here : key = "Etag"
      · subst here
        rw [base]
        exact .inr none
      · exact .inl here
  rw [compressedHeader, Header.lookup_assign]
  by_cases encodingName : key = "Content-Encoding"
  · subst encodingName
    rw [adjusted (.inl (by decide))]
    rfl
  by_cases lengthName : key = "Content-Length"
  · subst lengthName
    rw [adjusted (.inl (by decide))]
    rfl
  by_cases varyName : key = "Vary"
  · subst varyName
    rw [adjusted (.inl (by decide))]
    rfl
  simp only [if_neg encodingName, if_neg lengthName, if_neg varyName] at adjusted ⊢
  by_cases rawName : key = "ETag"
  · subst rawName
    rw [adjusted (.inl (by decide))]
    rfl
  · have copied : adjustedNames.contains key = false := by
      simp [adjustedNames, encodingName, lengthName, varyName, rawName]
    rw [copied]
    cases given : h.lookup key with
    | none => simp [adjusted (.inr given), encodingName, varyName, given]
    | some values => rfl

end Case

/-- The fields that a `Vary` line lists, in lower case. -/
def lineFields (line : Str) : List Str :=
  ((split ','.toUInt8 line).map fun part =>
    lowerAscii (trim part (str " \t"))).filter (· ≠ [])

def varyFields (h : Http.Header) : List Str := (h.values (str "Vary")).flatMap lineFields

theorem lineFields_append (line : Str) :
    lineFields (line ++ ", Accept-Encoding") = lineFields line ++ [str "accept-encoding"] := by
  have whole : line ++ ", Accept-Encoding" = line ++ ','.toUInt8 :: " Accept-Encoding" := rfl
  rw [lineFields, whole, split_append_cons, map_append, filter_append]
  congr 1

def StrongETag (h : Http.Header) : Prop :=
  h.get "ETag" ≠ [] ∧ hasPrefix (h.get "ETag") "W/" = false

def Unchanged (own sent : Http.Response) : Prop :=
  sent.status = own.status ∧ sent.header.Same own.header ∧ sent.body = own.body

structure Encoded (codecs : Codecs) (own sent : Http.Response) : Prop where
  status : sent.status = own.status
  body : ∃ encoding, sent.header.lookup (str "Content-Encoding") = some [encoding] ∧
    codecs.decode encoding sent.body = some own.body
  length : sent.header.lookup (str "Content-Length") = none
  vary : ∀ field ∈ varyFields own.header, field ∈ varyFields sent.header
  acceptEncoding : str "accept-encoding" ∈ varyFields sent.header
  eTag : StrongETag own.header → sent.header.get "ETag" = "W/" ++ own.header.get "ETag"
  others : ∀ key, key ∉ [str "Content-Encoding", "Content-Length", "Vary", "Etag"] →
    sent.header.lookup key = own.header.lookup key
  weak : ¬ StrongETag own.header → sent.header.lookup (str "Etag") = own.header.lookup (str "Etag")

/-- What is sent is what the handler gave, or that in another encoding. -/
def Transparent (codecs : Codecs) (own sent : Http.Response) : Prop :=
  Unchanged own sent ∨ Encoded codecs own sent

section Results

variable [Unicode] {encoding compressed body : Str} {req : Http.Request} {status : Int}

/-- The `Vary` lines survive: the first line speaks of `Accept-Encoding` and one of them lists it, or
the first line has all that the others list. -/
def VaryKept (h : Http.Header) : Prop :=
  let lines := h.values "Vary"
  if contains (toLower (lines.headD [])) "accept-encoding" = true then
    str "accept-encoding" ∈ varyFields h
  else ∀ field ∈ lines.tail.flatMap lineFields, field ∈ lineFields (lines.headD []) ∨ field = "accept-encoding"

/-- The `Vary` lines that are sent have what the handler listed and `Accept-Encoding`, exactly if they
survive. -/
theorem varyKept_iff {h h'} (lines : h'.lookup (str "Vary") = varyLines (h.lookup (str "Vary"))) :
    ((∀ field ∈ varyFields h, field ∈ varyFields h') ∧ str "accept-encoding" ∈ varyFields h') ↔ VaryKept h := by
  unfold VaryKept varyFields
  rw [Header.values_eq canonical_names.2.2.1, Header.values_eq canonical_names.2.2.1, lines]
  have whole : ((h.lookup (str "Vary")).getD []).flatMap lineFields =
      lineFields (((h.lookup (str "Vary")).getD []).headD []) ++
        ((h.lookup (str "Vary")).getD []).tail.flatMap lineFields := by
    cases (h.lookup (str "Vary")).getD [] <;> rfl
  by_cases listed : contains (toLower (((h.lookup (str "Vary")).getD []).headD [])) "accept-encoding" = true
  · -- the lines are left as they are
    have some : ((h.lookup (str "Vary")).getD []).headD [] ≠ [] := by
      intro empty
      rw [empty] at listed
      cases listed
    simp only [varyLines, if_neg some, if_pos listed]
    exact ⟨fun kept => kept.2, fun here => ⟨fun _ mem => mem, here⟩⟩
  · -- one line takes the place of all
    have one : ((varyLines (h.lookup (str "Vary"))).getD []).flatMap lineFields =
        lineFields (((h.lookup (str "Vary")).getD []).headD []) ++ [str "accept-encoding"] := by
      simp only [varyLines]
      split_ifs with empty
      · rw [empty]
        decide
      · simp [lineFields_append]
    rw [one, whole]
    simp only [if_neg listed, mem_append, mem_singleton, or_true, and_true]
    constructor
    · exact fun kept field mem => kept field (.inr mem)
    · rintro kept field (mem | mem)
      · exact .inl mem
      · exact kept field mem

/-- A compressed response is transparent where the validator is not strong and `Vary` survives. -/
theorem encoded_iff {codecs order own} (decodes : codecs.decode encoding compressed = some own.body) :
    Encoded codecs own ⟨own.status, compressedHeader order encoding own.header own.header, compressed⟩ ↔
      ¬ StrongETag own.header ∧ VaryKept own.header := by
  have look := lookup_compressedHeader order encoding own.header
  have eTag : (compressedHeader order encoding own.header own.header).lookup (str "Etag") =
      own.header.lookup (str "Etag") := by
    rw [look, if_neg (by decide), if_neg (by decide), if_neg (by decide)]
  have vary : (compressedHeader order encoding own.header own.header).lookup (str "Vary") =
      varyLines (own.header.lookup (str "Vary")) := by
    rw [look, if_neg (by decide), if_neg (by decide), if_pos rfl]
  constructor
  · intro encoded
    refine ⟨fun strong => ?_, (varyKept_iff vary).mp ⟨encoded.vary, encoded.acceptEncoding⟩⟩
    -- the validator came back as it was
    have weak := encoded.eTag strong
    rw [get_eTag, eTag, ← get_eTag] at weak
    have lengths := congrArg length weak
    simp [str] at lengths
  · rintro ⟨notStrong, kept⟩
    obtain ⟨all, listed⟩ := (varyKept_iff vary).mpr kept
    refine ⟨rfl, ⟨encoding, ?_, decodes⟩, ?_, all, listed, fun strong => absurd strong notStrong, ?_, fun _ => eTag⟩
    · rw [look, if_pos rfl]
    · rw [look, if_neg (by decide), if_pos rfl]
    · intro key other
      simp only [mem_cons, not_or] at other
      rw [look, if_neg other.1, if_neg other.2.1, if_neg other.2.2.1]

variable (codecs : Codecs) (cfg : ResponsesConfig) (order : RangeOrder (Str × List Str))

/-- What is sent for a captured response that is compressed. -/
theorem finish_compressed {own} (done : compression codecs cfg req status own body = some (encoding, compressed)) :
    (finish codecs cfg order req ⟨{ header := own }, body, status, own, true⟩).response =
      ⟨status, compressedHeader order encoding own own, compressed⟩ := by
  simp [finish, done, Writer.writeHeader, Writer.write, Writer.response]

theorem finish_unchanged {own} {wrote : Bool}
    (skipped : compression codecs cfg req status (if wrote then own else ∅) body = none) :
    Unchanged ⟨status, own, body⟩ (finish codecs cfg order req
      ⟨{ header := own }, body, status, if wrote then own else ∅, wrote⟩).response := by
  have restored : (own.assign order (fun _ => false) own).Same own := by
    intro key
    rw [Header.lookup_assign]
    cases own.lookup key <;> rfl
  unfold finish
  rw [skipped]
  cases wrote with
  | false => by_cases empty : body = [] <;>
      simp [empty, Unchanged, Writer.writeHeader, Writer.write, Writer.response, Header.Same.refl]
  | true => by_cases empty : body = [] <;>
      simp [empty, Unchanged, Writer.writeHeader, Writer.write, Writer.response, restored]

/-- A response that is compressed has a body and no encoding yet, and its encoding decodes. -/
theorem compression_spec {headers}
    (done : compression codecs cfg req status headers body = some (encoding, compressed)) :
    body ≠ [] ∧ headers.get "Content-Encoding" = [] ∧ encoding ≠ [] ∧
      codecs.decode encoding compressed = some body := by
  unfold compression at done
  split_ifs at done with eligible
  obtain ⟨_, _, rest⟩ := Option.bind_eq_some_iff.mp done
  obtain ⟨_, encoded, same⟩ := Option.map_eq_some_iff.mp rest
  cases same
  exact ⟨eligible.1, not_encoded eligible.2, compressResponse_named encoded, decode_compressResponse encoded⟩

/-- A response that is compressed is not what the handler gave. -/
theorem not_unchanged {own : Response} (plain : own.header.get "Content-Encoding" = []) (named : encoding ≠ []) :
    ¬ Unchanged own ⟨status, compressedHeader order encoding own.header own.header, compressed⟩ := by
  rintro ⟨_, same, _⟩
  have here := same "Content-Encoding"
  rw [lookup_compressedHeader] at here
  rw [Header.get_eq canonical_names.1, ← here] at plain
  exact named plain

/-- The transparency of what is sent for the calls of a handler. -/
theorem captured_iff (req : Request) (h : Header) {calls} (settled : Settled calls) :
    let own := (({ header := h } : Writer).serve calls).response
    Transparent codecs own
        (finish codecs cfg order req (({ inner := { header := h } } : ResponseWriter).serve calls)).response ↔
      lastStatus calls = firstStatus calls ∧
        ((compression codecs cfg req own.status own.header own.body).isSome = true →
          ¬ StrongETag own.header ∧ VaryKept own.header) := by
  obtain ⟨own, wrote, response, captured, empty⟩ := settled_outcome settled h
  rw [response, captured]
  -- what was captured decides as the headers themselves do
  have same : compression codecs cfg req (lastStatus calls) (if wrote then own else ∅) (written calls) =
      compression codecs cfg req (lastStatus calls) own (written calls) := by
    cases wrote with
    | false => simp [compression, empty rfl]
    | true => rfl
  cases done : compression codecs cfg req _ own (written calls) with
  | none =>
    have sent := finish_unchanged codecs cfg order (same.trans done)
    constructor
    · intro transparent
      have status : lastStatus calls = firstStatus calls := by
        rcases transparent with unchanged | encoded
        · exact sent.1.symm.trans unchanged.1
        · exact sent.1.symm.trans encoded.status
      refine ⟨status, fun compresses => ?_⟩
      rw [← status, done] at compresses
      cases compresses
    · rintro ⟨status, _⟩
      rw [← status]
      exact .inl sent
  | some result =>
    obtain ⟨nonempty, plain, named, decodes⟩ := compression_spec codecs cfg done
    have wrote_eq : wrote = true := by
      cases wrote with
      | false => exact absurd (empty rfl) nonempty
      | true => rfl
    subst wrote_eq
    rw [if_pos rfl, finish_compressed codecs cfg order done]
    constructor
    · intro transparent
      have encoded := transparent.resolve_left (not_unchanged order plain named)
      have status : lastStatus calls = firstStatus calls := encoded.status
      rw [← status] at encoded ⊢
      exact ⟨rfl, fun _ => (encoded_iff decodes).mp encoded⟩
    · rintro ⟨status, kept⟩
      rw [← status] at kept ⊢
      exact .inr ((encoded_iff decodes).mpr (kept (by rw [done]; rfl)))

/-- **Main result.** Where the handler changes no header after it is written, the middleware is
transparent exactly if it calls no handler through its own writer, or if the last status is the first
and a response that is compressed has no strong validator and `Vary` lines that survive. -/
theorem transparent_iff (pace : Nat → Nat) (decoders : Decoders) (requests : RequestsConfig)
    (next : Message (Option Stream) → List Http.Call) (h : Http.Header) (r : Message Stream)
    (settled : Settled (next (decompressed pace decoders requests r).1)) :
    let calls := next (decompressed pace decoders requests r).1
    let own := (({ header := h } : Http.Writer).serve calls).response
    Transparent codecs own (middleware codecs cfg order pace decoders requests next h r) ↔
      ((decompressed pace decoders requests r).2 = true ∨ (lastStatus calls = firstStatus calls ∧
          ((compression codecs cfg r.request own.status own.header own.body).isSome = true →
            ¬ StrongETag own.header ∧ VaryKept own.header))) := by
  have captured := captured_iff codecs cfg order r.request h settled
  unfold middleware
  cases given : decompressed pace decoders requests r with
  | mk seen failed =>
    rw [given] at captured
    cases failed with
    | true => exact iff_of_true (.inl ⟨rfl, .refl _, rfl⟩) (.inl rfl)
    | false => exact captured.trans ⟨.inr, fun kept => kept.resolve_left Bool.false_ne_true⟩

end Results

def sampleCodecs : Codecs where
  gzip _ body := some (0x1F :: body)
  zstd _ _ := none
  gunzip compressed := some compressed.tail
  unzstd _ := none
  gzip_lossless := by
    rintro level body compressed ⟨⟩
    rfl
  zstd_lossless := by
    rintro level body compressed ⟨⟩

def sampleResponses : ResponsesConfig where
  enabled := true
  gzip := ⟨true, 0⟩
  zstd := ⟨false, 0⟩
  prefer := "gzip"
  skipContentTypes := []
  skipSensitiveResponses := true
  skipErrorResponses := true
  skipRanges := true
  minBytes := 1

def sampleGet : Message Stream where
  request := {
    method := "GET"
    url := {}
    header := (∅ : Http.Header).set "Accept-Encoding" "gzip" }
  body := ⟨[], .eof⟩

def noDecompression : RequestsConfig where
  enabled := false
  allowedEncodings := []
  maxDecompressedBytes := 0
  zstdEnabled := false

/-- The response to `sampleGet` of a handler that makes these calls. -/
def sampleSent : Http.Response :=
  letI := Unicode.ascii
  middleware sampleCodecs sampleResponses default id sampleDecoders noDecompression (fun _ => calls) ∅ sampleGet

def sampleOwn : Http.Response := (({} : Http.Writer).serve calls).response

/-- A handler with a weak validator and one `Vary` line. -/
def weakHandler : List Http.Call :=
  [.change (.set "ETag" "W/\"v1\""), .change (.set "Vary" "Origin"), .write "text"]

theorem transparent_iff_weak : Transparent sampleCodecs (sampleOwn weakHandler) (sampleSent weakHandler) ∧
      (sampleSent weakHandler).header.get (str "Vary") = str "Origin, Accept-Encoding" := by
  let _ : Unicode := .ascii
  refine ⟨(transparent_iff sampleCodecs sampleResponses default id sampleDecoders noDecompression
    (fun _ => weakHandler) ∅ sampleGet (by decide)).mpr (.inr ⟨by decide, fun _ => ?_⟩), by decide +kernel⟩
  constructor
  · unfold StrongETag
    decide +kernel
  · unfold VaryKept
    decide +kernel

/-- A strong validator is sent with the compressed bytes; of two `Vary` lines one is lost; and a status
after the body replaces the one that was sent with it. -/
theorem compression_not_transparent :
    let strong : List Http.Call := [.change (.set (str "ETag") (str "\"v1\"")), .write (str "text")]
    let lines : List Http.Call := [.change (.add (str "Vary") (str "Origin")),
      .change (.add (str "Vary") (str "Accept")), .write (str "text")]
    let late : List Http.Call := [.write (str "text"), .writeHeader 404]
    (¬ Transparent sampleCodecs (sampleOwn strong) (sampleSent strong) ∧
      (sampleSent strong).header.get (str "ETag") = str "\"v1\"" ∧
      (sampleSent strong).header.get (str "Content-Encoding") = str "gzip") ∧
    (¬ Transparent sampleCodecs (sampleOwn lines) (sampleSent lines) ∧
      (sampleSent lines).header.values (str "Vary") = [str "Origin, Accept-Encoding"]) ∧
    ¬ Transparent sampleCodecs (sampleOwn late) (sampleSent late) := by
  intro strong lines late
  let _ : Unicode := .ascii
  have kept (calls : List Call) (settled : Settled calls) (transparent : Transparent sampleCodecs _ _) :=
    (captured_iff sampleCodecs sampleResponses default sampleGet.request ∅ settled).mp transparent
  refine ⟨⟨fun transparent => ?_, by decide +kernel⟩, ⟨fun transparent => ?_, by decide +kernel⟩,
    fun transparent => ?_⟩
  · refine ((kept strong (by decide) transparent).2 (by decide +kernel)).1 ?_
    unfold StrongETag
    decide +kernel
  · have vary := ((kept lines (by decide) transparent).2 (by decide +kernel)).2
    unfold VaryKept at vary
    exact absurd vary (by decide +kernel)
  · exact absurd (kept late (by decide) transparent).1 (by decide)

end Compression
