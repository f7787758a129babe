import SolidSidecar.Go.ResponseWriter

/-!
# Which responses are compressed, and how

The configuration, the tests that keep a response as it is, the choice of an encoding, and the
headers that change with it. The codecs are those of the libraries: a parameter, with the one thing
that is assumed of it, that decoding gives back what was encoded.
-/

namespace Compression
open Go List Strings

variable (codecs : Codecs)

def encodingGzip : Str := "gzip"

def encodingZstd : Str := "zstd"

structure CodecConfig where
  enabled : Bool
  level : Int

structure ResponsesConfig where
  enabled : Bool
  gzip : CodecConfig
  zstd : CodecConfig
  prefer : Str
  skipContentTypes : List Str
  skipSensitiveResponses : Bool
  skipErrorResponses : Bool
  skipRanges : Bool
  minBytes : Int

structure RequestsConfig where
  enabled : Bool
  allowedEncodings : List Str
  maxDecompressedBytes : Int
  zstdEnabled : Bool

def sensitiveRequestHeaders : List Str := ["authorization", "cookie"]

def sensitiveResponseHeaders : List Str := ["set-cookie", "www-authenticate"]

def sensitiveCacheControlDirectives : List Str := ["private", "no-store"]

def errorResponseStatuses : List Int :=
  [100, 101, 204, 205, 304, 400, 401, 403, 405, 408, 410, 413, 414, 415, 422, 426, 429, 500, 501, 502, 503, 504]

def eligibleMethods : List Str := ["GET"]

def skippedMethods : List Str :=
  ["HEAD", "OPTIONS", "POST", "PUT", "DELETE", "PATCH", "CONNECT", "TRACE"]

inductive SkipReason where
  | compressionDisabled
  | methodNotEligible
  | methodSkipped
  | errorResponse
  | sensitiveResponse
  | rangeRequest
  | alreadyEncoded
  | tooSmall
  | contentTypeSkipped
  deriving DecidableEq, Repr

/-- The codecs. `zstd` without a level is the default speed of the encoder. -/
structure Codecs where
  gzip : Int → Str → Option Str
  zstd : Option Int → Str → Option Str
  gunzip : Str → Option Str
  unzstd : Str → Option Str
  gzip_lossless : ∀ level body compressed, gzip level body = some compressed → gunzip compressed = some body
  zstd_lossless : ∀ level body compressed, zstd level body = some compressed → unzstd compressed = some body

/-- What a client decodes that reads the name of an encoding. -/
def Codecs.decode (encoding compressed : Str) : Option Str :=
  if encoding = encodingGzip then codecs.gunzip compressed
  else if encoding = encodingZstd then codecs.unzstd compressed
  else none

def compressGzip (data : Str) (level : Int) : Option Str := codecs.gzip level data

def compressZstd (data : Str) (level : Int) : Option Str :=
  codecs.zstd (if level > 0 then some level else none) data

def compressResponse (body encoding : Str) (cfg : ResponsesConfig) : Option Str :=
  if encoding = encodingGzip then compressGzip codecs body cfg.gzip.level
  else if encoding = encodingZstd then compressZstd codecs body cfg.zstd.level
  else none

theorem decode_compressResponse {codecs body encoding compressed cfg}
    (done : compressResponse codecs body encoding cfg = some compressed) :
    codecs.decode encoding compressed = some body := by
  unfold compressResponse at done
  unfold Codecs.decode
  split_ifs at done ⊢
  · exact codecs.gzip_lossless _ _ _ done
  · exact codecs.zstd_lossless _ _ _ done

theorem compressResponse_named {codecs body encoding compressed cfg}
    (done : compressResponse codecs body encoding cfg = some compressed) : encoding ≠ [] := by
  rintro rfl
  cases done

def handleContentLength (h : Http.Header) : Http.Header := h.del "Content-Length"

def handleETag (h : Http.Header) : Http.Header :=
  if h.get "ETag" = [] then h
  else if hasPrefix (h.get "ETag") "W/" then h
  else h.set "ETag" ("W/" ++ h.get "ETag")

section Case

variable [Unicode]

/-- `addVaryHeader`; only the first `Vary` line is read. -/
def addVaryHeader (h : Http.Header) : Http.Header :=
  let vary := h.get "Vary"
  if vary = [] then h.set "Vary" "Accept-Encoding"
  else if contains (toLower vary) "accept-encoding" then h
  else h.set "Vary" (vary ++ ", Accept-Encoding")

def isSensitiveResponse (req : Http.Request) (respHeaders : Http.Header) : Bool :=
  sensitiveRequestHeaders.any (fun header => req.header.get header ≠ []) ||
    sensitiveResponseHeaders.any (fun header => respHeaders.get header ≠ []) ||
    (respHeaders.get "Cache-Control" ≠ [] && sensitiveCacheControlDirectives.any fun directive =>
        contains (toLower (respHeaders.get "Cache-Control")) directive)

/-- `shouldSkipResponseCompression`; nothing means that the response is compressed. -/
def shouldSkipResponseCompression (req : Http.Request) (cfg : ResponsesConfig) (statusCode : Int)
    (headers : Http.Header) (bodySize : Int) : Option SkipReason :=
  let method := toUpper req.method
  if cfg.enabled = false then some .compressionDisabled
  else if method ∉ eligibleMethods then some .methodNotEligible
  else if method ∈ skippedMethods then some .methodSkipped
  else if cfg.skipErrorResponses = true ∧ (statusCode ≥ 400 ∨ statusCode ∈ errorResponseStatuses) then
    some .errorResponse
  else if cfg.skipSensitiveResponses = true ∧ isSensitiveResponse req headers = true then
    some .sensitiveResponse
  else if cfg.skipRanges = true ∧ req.header.get "Range" ≠ [] then some .rangeRequest
  else if headers.get "Content-Encoding" ≠ [] then some .alreadyEncoded
  else if bodySize < cfg.minBytes then some .tooSmall
  else if cfg.skipContentTypes.any (hasPrefix (headers.get "Content-Type")) then
    some .contentTypeSkipped
  else none

/-- A response that has an encoding is not encoded again. -/
theorem not_encoded {req cfg status headers size} (eligible : shouldSkipResponseCompression req cfg status headers size = none) :
    headers.get "Content-Encoding" = [] := by
  by_contra _
  simp only [shouldSkipResponseCompression] at eligible
  split_ifs at eligible

/-- One element of `Accept-Encoding`, without its quality value. -/
def acceptedEncoding (element : Str) : Str :=
  trimSpace (cut (trimSpace element) ';'.toUInt8).1

def getAcceptedEncodings (req : Http.Request) : List Str :=
  let acceptEncoding := req.header.get "Accept-Encoding"
  if acceptEncoding = [] then []
  else (((split ','.toUInt8 acceptEncoding).map acceptedEncoding).filter (· ≠ [])).map toLower

def isEncodingEnabled (encoding : Str) (cfg : ResponsesConfig) : Bool :=
  if toLower encoding = encodingGzip then cfg.gzip.enabled
  else if toLower encoding = encodingZstd then cfg.zstd.enabled
  else false

def prefers (accepted : List Str) (prefer : Str) : Bool := accepted.contains prefer

/-- `selectEncoding`; nothing is the empty encoding. -/
def selectEncoding (accepted : List Str) (cfg : ResponsesConfig) : Option Str :=
  let prefer := toLower cfg.prefer
  if prefer ≠ [] ∧ prefers accepted prefer = true ∧ isEncodingEnabled prefer cfg = true then some prefer
  else accepted.find? (isEncodingEnabled · cfg)

/-- The elements of a line of `Accept-Encoding`: a coding, in which the case of ASCII letters does not count, and
what is after its semicolon. -/
def elementsOf (line : Str) : List (Str × Str) :=
  (split ','.toUInt8 line).map fun element => (lowerAscii (acceptedEncoding element),
    trimSpace (cut (trimSpace element) ';'.toUInt8).2)

def zeroWeight (weight : Str) : Bool :=
  hasPrefix (lowerAscii weight) "q=0" && (weight.drop 3).all fun b => b == 0x2E || b == 0x30

/-- A coding stands in one of the lines, with a quality value above zero. -/
def Listed (req : Http.Request) (coding : Str) : Prop :=
  ∃ line ∈ req.header.values "Accept-Encoding", ∃ weight, (coding, weight) ∈ elementsOf line ∧ zeroWeight weight = false

/-- The client accepts a coding that it lists, and with `*` those that it does not name. -/
def Accepts (req : Http.Request) (coding : Str) : Prop :=
  Listed req coding ∨
    (∀ line ∈ req.header.values "Accept-Encoding", ∀ weight, (coding, weight) ∉ elementsOf line) ∧ Listed req "*"

def ResponsesConfig.Prefers (cfg : ResponsesConfig) (coding : Str) : Prop :=
  coding = toLower cfg.prefer ∧ isEncodingEnabled coding cfg = true

/-- The coding that is chosen is enabled and accepted, and the preferred one where that is. -/
def Negotiated (req : Http.Request) (cfg : ResponsesConfig) : Prop :=
  ∀ e, selectEncoding (getAcceptedEncodings req) cfg = some e →
    isEncodingEnabled e cfg = true ∧ Accepts req e ∧ ∀ p, cfg.Prefers p → Accepts req p → e = p

/-- The codings of the first line, in the lower case of Unicode, where `İ` becomes `i`. -/
def firstLine (req : Http.Request) : List Str :=
  (split ','.toUInt8 (req.header.get "Accept-Encoding")).map fun element => toLower (acceptedEncoding element)

/-- The preferred coding is accepted if the first line names it. If not, it is not accepted, and the first coding
there that is enabled is. -/
structure Heeded (req : Http.Request) (cfg : ResponsesConfig) : Prop where
  preferred : ∀ p ∈ firstLine req, cfg.Prefers p → Accepts req p
  first : (∀ p ∈ firstLine req, ¬ cfg.Prefers p) → ∀ e, (firstLine req).find? (isEncodingEnabled · cfg) = some e →
    Accepts req e ∧ ∀ p, cfg.Prefers p → ¬ Accepts req p

variable {req : Http.Request} {cfg : ResponsesConfig} {e : Str}

theorem isEncodingEnabled_nil : isEncodingEnabled [] cfg = false := by
  have empty : toLower ([] : Str) = [] := rfl
  have gzip : [] ≠ encodingGzip := by decide
  have zstd : [] ≠ encodingZstd := by decide
  simp [isEncodingEnabled, empty, gzip, zstd]

omit [Unicode] in
theorem acceptedEncoding_nil : acceptedEncoding [] = [] := rfl

/-- The enabled codings that are taken are those of the first line, in its order. -/
theorem filter_accepted : (getAcceptedEncodings req).filter (isEncodingEnabled · cfg) =
    (firstLine req).filter (isEncodingEnabled · cfg) := by
  have none : isEncodingEnabled (toLower []) cfg = false := isEncodingEnabled_nil
  simp only [getAcceptedEncodings, firstLine, decide_not]
  split_ifs with empty
  · rw [empty]
    exact (List.filter_eq_nil_iff.mpr (by simp [split, acceptedEncoding_nil, none])).symm
  · induction split ','.toUInt8 (req.header.get "Accept-Encoding") with
    | nil => rfl
    | cons element rest ih => by_cases blank : acceptedEncoding element = [] <;> simp [blank, none, filter_cons, ih]

theorem find?_accepted : (getAcceptedEncodings req).find? (isEncodingEnabled · cfg) =
    (firstLine req).find? (isEncodingEnabled · cfg) := by
  rw [← head?_filter, filter_accepted, head?_filter]

theorem mem_accepted (enabled : isEncodingEnabled e cfg = true) :
    e ∈ getAcceptedEncodings req ↔ e ∈ firstLine req := by
  have same := congrArg (e ∈ ·) (@filter_accepted _ req cfg)
  simpa [enabled] using same

end Case

attribute [local instance] Unicode.ascii

def withoutGzip : Http.Request :=
  { method := "GET", url := {}, header := AList.insert "Accept-Encoding" ["gzip;q=0"] ∅ }

end Compression
