import SolidSidecar.Compression.Encoding
import SolidSidecar.Go.Reader

/-!
# Decompression of requests

`decompressRequestBody` puts a decoder, a limit and a pipe between the body and the handler. The
decoders are parameters, any functions on streams that may refuse to start. `pumped_eq` says what
arrives at the other end of the pipe. The headers stay those of the compressed form, and where the
decoder refuses to start the body is nil (`keepsMeaning_iff`).
-/

namespace Compression
open Go Go.Io Strings

variable (pace : Nat → Nat)

/-- A request with its body; `β` is `Stream`, or `Option Stream` where the body may be nil. -/
structure Message (β : Type) where
  request : Http.Request
  contentLength : Int := -1
  body : β

structure Decoders where
  gzip : Stream → Except Str Stream
  zstd : Stream → Except Str Stream

def exceedsMaximum (maxDecompressedBytes : Int) : Str :=
  "decompressed body exceeds maximum size of " ++ str (toString maxDecompressedBytes) ++ " bytes"

/-- The goroutine between a decoder and the pipe, until it has returned: the copy, the test of the
limit, and the deferred `Close`. -/
def pump (maxDecompressedBytes : Int) (decoded : Stream) : Pipe :=
  let (written, err, limited) :=
    copy pace 4096 (decoded.bytes.length + 1) ⟨decoded, wrap64 (maxDecompressedBytes + 1)⟩
  let pw : Pipe := { written }
  let pw := match err with
    | some text => pw.close (.error text)
    | none => if limited.n = 0 then pw.close (.error (exceedsMaximum maxDecompressedBytes)) else pw
  pw.close .eof

def decompressGzip (decoders : Decoders) (body : Stream) (maxDecompressedBytes : Int) : Except Str Stream :=
  match decoders.gzip body with
  | .error text => .error ("failed to create gzip reader: " ++ text)
  | .ok gzReader => .ok (pump pace maxDecompressedBytes gzReader).stream

def decompressZstd (decoders : Decoders) (body : Stream) (maxDecompressedBytes : Int) : Except Str Stream :=
  match decoders.zstd body with
  | .error text => .error ("failed to create zstd decoder: " ++ text)
  | .ok decoder => .ok (pump pace maxDecompressedBytes decoder).stream

section Case

variable [Unicode]

def isEncodingAllowed (encoding : Str) (cfg : RequestsConfig) : Bool :=
  cfg.allowedEncodings.any fun allowed => toLower allowed = encoding

def decompressRequestBody (pace : Nat → Nat) (decoders : Decoders) (req : Message Stream)
    (cfg : RequestsConfig) : Except Str Stream :=
  let contentEncoding := req.request.header.get "Content-Encoding"
  if contentEncoding = [] then .ok req.body
  else if isEncodingAllowed (toLower contentEncoding) cfg = false then .ok req.body
  else if toLower contentEncoding = encodingGzip then
    decompressGzip pace decoders req.body cfg.maxDecompressedBytes
  else if toLower contentEncoding = encodingZstd then
    if cfg.zstdEnabled then decompressZstd pace decoders req.body cfg.maxDecompressedBytes
    else .ok req.body
  else .ok req.body

/-- The start of `Middleware`: the request that the handler is given, and whether there was an error.
The body is assigned from the call that failed too. -/
def decompressed (pace : Nat → Nat) (decoders : Decoders) (cfg : RequestsConfig) (r : Message Stream) :
    Message (Option Stream) × Bool :=
  if cfg.enabled then
    match decompressRequestBody pace decoders r cfg with
    | .ok body => ({ r with body := some body }, false)
    | .error _ => ({ r with body := none }, true)
  else ({ r with body := some r.body }, false)

end Case

/-- A stream under a limit: whole if it is within it, otherwise cut off after one more byte with an
error. A limit whose successor is negative as a 64-bit integer is no limit but an empty body. -/
def clipped (maxDecompressedBytes : Int) (decoded : Stream) : Stream :=
  let n := wrap64 (maxDecompressedBytes + 1)
  if (decoded.bytes.length : Int) < n then decoded
  else ⟨decoded.bytes.take n.toNat, if n < 0 then .eof else .error (exceedsMaximum maxDecompressedBytes)⟩

/-- What the pipe gives, whatever portions the decoder reads in. -/
theorem pumped_eq (maxDecompressedBytes : Int) (decoded : Stream) :
    (pump pace maxDecompressedBytes decoded).stream = clipped maxDecompressedBytes decoded := by
  simp only [pump, clipped, copy_eq pace 4096 _ decoded _ (Nat.lt_succ_self _)]
  generalize wrap64 _ = n
  by_cases within : decoded.bytes.length < n
  · obtain ⟨bytes, ending⟩ := decoded
    simp only [if_pos within]
    have positive : n - bytes.length ≠ 0 := by
      simp only at within
      omega
    cases ending <;> simp [Ending.err, Pipe.close, Pipe.stream, positive]
  · simp only [if_neg within]
    by_cases negative : n < 0
    · simp [Int.min_eq_left (Int.le_of_lt negative), negative, Int.ne_of_lt negative, Pipe.close, Pipe.stream]
    · simp [Int.min_eq_right (Int.not_lt.mp negative), negative, Pipe.close, Pipe.stream]

section Case

variable [Unicode] {decoders : Decoders} {cfg : RequestsConfig} {r : Message Stream}

/-- The decoder that a request goes through, if it is decompressed at all. -/
def decoderOf (decoders : Decoders) (cfg : RequestsConfig) (r : Message Stream) :
    Option (Stream → Except Str Stream) :=
  let contentEncoding := r.request.header.get "Content-Encoding"
  if cfg.enabled = false ∨ contentEncoding = [] ∨ isEncodingAllowed (toLower contentEncoding) cfg = false then none
  else if toLower contentEncoding = encodingGzip then some decoders.gzip
  else if toLower contentEncoding = encodingZstd ∧ cfg.zstdEnabled = true then some decoders.zstd
  else none

theorem decoderOf_encoded {decoder} (chosen : decoderOf decoders cfg r = some decoder) :
    r.request.header.get "Content-Encoding" ≠ [] := by
  intro plain
  simp [decoderOf, plain] at chosen

/-- The request that the handler is given: as it came, without a body, or with what the decoder and
the limit leave; the rest of it never changes. -/
theorem decompressed_eq (pace : Nat → Nat) (decoders : Decoders) (cfg : RequestsConfig) (r : Message Stream) :
    decompressed pace decoders cfg r =
      match decoderOf decoders cfg r with
      | none => ({ r with body := some r.body }, false)
      | some decoder =>
        match decoder r.body with
        | .error _ => ({ r with body := none }, true)
        | .ok content => ({ r with body := some (clipped cfg.maxDecompressedBytes content) }, false) := by
  unfold decompressed decoderOf decompressRequestBody decompressGzip decompressZstd
  simp only [pumped_eq]
  generalize r.request.header.get _ = contentEncoding
  generalize toLower contentEncoding = encoding
  by_cases enabled : cfg.enabled = true
  swap
  · simp [enabled]
  by_cases plain : contentEncoding = []
  · simp [plain]
  cases isEncodingAllowed encoding cfg with
  | false => simp
  | true =>
    simp only [enabled, plain, if_false, or_self, Bool.true_eq_false]
    split_ifs with gzip zstd
    · cases opened : decoders.gzip r.body <;> simp [opened]
    · cases opened : decoders.zstd r.body <;> simp_all
    all_goals simp_all

/-- The message as it was sent, or the content without the headers of its compressed form; what is too
long ends in an error; and there is a body. -/
def KeepsMeaning (decoders : Decoders) (cfg : RequestsConfig) (r : Message Stream)
    (seen : Message (Option Stream)) : Prop :=
  let decodes content := ∃ decoder, decoderOf decoders cfg r = some decoder ∧ decoder r.body = .ok content
  ∃ body, seen.body = some body ∧ ((seen.request = r.request ∧ seen.contentLength = r.contentLength ∧ body = r.body) ∨
      (seen.request.header.lookup (str "Content-Encoding") = none ∧
        seen.request.header.lookup (str "Content-Length") = none ∧ seen.contentLength = -1 ∧
        ∃ content, decodes content ∧ (content.bytes.length ≤ cfg.maxDecompressedBytes → body = content))) ∧
    ∀ content, decodes content → cfg.maxDecompressedBytes < content.bytes.length → body.ending ≠ .eof

/-- Nothing is decompressed, or what the decoder and the limit leave is what was sent. -/
def Untouched (decoders : Decoders) (cfg : RequestsConfig) (r : Message Stream) : Prop :=
  ∀ decoder, decoderOf decoders cfg r = some decoder →
    ∃ content, decoder r.body = .ok content ∧ clipped cfg.maxDecompressedBytes content = r.body ∧
      (cfg.maxDecompressedBytes < content.bytes.length → r.body.ending ≠ .eof)

/-- A body that went through a decoder keeps the header, so it can only be kept by being the same. -/
theorem KeepsMeaning.untouched {pace} (kept : KeepsMeaning decoders cfg r (decompressed pace decoders cfg r).1) :
    Untouched decoders cfg r := by
  intro decoder chosen
  have given := decompressed_eq pace decoders cfg r
  obtain ⟨body, here, meaning, long⟩ := kept
  cases decoded : decoder r.body with
  | error text =>
    simp only [chosen, decoded] at given
    rw [given] at here
    cases here
  | ok content =>
    simp only [chosen, decoded] at given
    rw [given] at here meaning
    cases here
    rcases meaning with ⟨_, _, same⟩ | ⟨stripped, _⟩
    · refine ⟨content, rfl, same, fun large => ?_⟩
      rw [← same]
      exact long content ⟨decoder, chosen, decoded⟩ large
    · refine absurd ?_ (decoderOf_encoded chosen)
      rw [Http.Header.get_eq (by decide), stripped]
      rfl

theorem Untouched.keepsMeaning (untouched : Untouched decoders cfg r) (pace : Nat → Nat) :
    KeepsMeaning decoders cfg r (decompressed pace decoders cfg r).1 := by
  have given := decompressed_eq pace decoders cfg r
  cases chosen : decoderOf decoders cfg r with
  | none =>
    rw [chosen] at given
    rw [given]
    refine ⟨r.body, rfl, .inl ⟨rfl, rfl, rfl⟩, ?_⟩
    rintro content ⟨decoder, other, _⟩
    rw [chosen] at other
    cases other
  | some decoder =>
    obtain ⟨content, decoded, same, long⟩ := untouched decoder chosen
    simp only [chosen, decoded] at given
    rw [given]
    refine ⟨_, rfl, .inl ⟨rfl, rfl, same⟩, ?_⟩
    rintro _ ⟨other, here, decoded'⟩ large
    cases chosen.symm.trans here
    cases decoded.symm.trans decoded'
    rw [same]
    exact long large

/-- **Main result.** The meaning is kept exactly for the requests that are not touched. -/
theorem keepsMeaning_iff (pace : Nat → Nat) (decoders : Decoders) (cfg : RequestsConfig) (r : Message Stream) :
    KeepsMeaning decoders cfg r (decompressed pace decoders cfg r).1 ↔ Untouched decoders cfg r :=
  ⟨KeepsMeaning.untouched, fun untouched => untouched.keepsMeaning pace⟩

end Case

/-- Decoders that start only at the magic number of gzip, and give what follows it. -/
def sampleDecoders : Decoders where
  gzip s := match s.bytes with
    | 0x1F :: 0x8B :: rest => .ok { s with bytes := rest }
    | _ => .error "gzip: invalid header"
  zstd _ := .error "magic number mismatch"

def sampleRequests (maxDecompressedBytes : Int) : RequestsConfig where
  enabled := true
  allowedEncodings := ["gzip"]
  maxDecompressedBytes := maxDecompressedBytes
  zstdEnabled := false

/-- A request that says that its body is compressed. -/
def gzipRequest (bytes : Str) : Message Stream where
  request := {
    method := "PUT"
    url := {}
    header := (∅ : Http.Header).set "Content-Encoding" "gzip" }
  body := ⟨bytes, .eof⟩

/-- A body that is decompressed still has the header of its compressed form; one with an invalid header
is nil; and under a negative limit a body that is too long is an empty one. -/
theorem meaning_lost :
    letI := Unicode.ascii
    let seen max bytes := (decompressed id sampleDecoders (sampleRequests max) (gzipRequest bytes)).1
    (¬ KeepsMeaning sampleDecoders (sampleRequests 100) (gzipRequest ([0x1F, 0x8B] ++ str "text"))
        (seen 100 ([0x1F, 0x8B] ++ str "text")) ∧
      (seen 100 ([0x1F, 0x8B] ++ str "text")).body = some ⟨str "text", .eof⟩ ∧
      (seen 100 ([0x1F, 0x8B] ++ str "text")).request.header.get (str "Content-Encoding") = str "gzip") ∧
    (¬ KeepsMeaning sampleDecoders (sampleRequests 100) (gzipRequest (str "text")) (seen 100 (str "text")) ∧
      (seen 100 (str "text")).body = none) ∧
    (seen (-5) ([0x1F, 0x8B] ++ str "text")).body = some ⟨[], .eof⟩ := by
  refine ⟨⟨fun kept => ?_, by decide +kernel, by decide +kernel⟩,
    ⟨fun kept => ?_, by decide +kernel⟩, by decide +kernel⟩
  · obtain ⟨content, decoded, whole, _⟩ := @KeepsMeaning.untouched .ascii _ _ _ _ kept _ rfl
    cases decoded
    exact absurd whole (by decide +kernel)
  · obtain ⟨content, decoded, _⟩ := @KeepsMeaning.untouched .ascii _ _ _ _ kept _ rfl
    cases decoded

end Compression
