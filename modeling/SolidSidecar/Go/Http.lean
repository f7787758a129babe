import SolidSidecar.Go.Map
import SolidSidecar.Go.Url

/-!
# Requests of `net/http`

The parts of `http.Request` and `http.Header` that a handler reads. Header names are stored in
canonical form, and `Values` and `Get` put their argument into that form first.
-/

namespace Go.Http

def validHeaderFieldByte (b : UInt8) : Bool :=
  Url.isAlpha b || Url.isDigit b || (str "!#$%&'*+-.^_|~").contains b || b == 0x60

/-- Upper case at the start and after a hyphen, lower case elsewhere. -/
def canonicalFrom : Bool → Str → Str
  | _, [] => []
  | upper, b :: rest =>
    let c :=
      if upper && 0x61 ≤ b.toNat && b.toNat ≤ 0x7A then UInt8.ofNat (b.toNat - 32)
      else if !upper && 0x41 ≤ b.toNat && b.toNat ≤ 0x5A then UInt8.ofNat (b.toNat + 32)
      else b
    c :: canonicalFrom (c == 0x2D) rest

/-- `textproto.CanonicalMIMEHeaderKey`: a name that is not a token is left as it is. -/
def canonicalHeaderKey (key : Str) : Str :=
  if key.all validHeaderFieldByte then canonicalFrom true key else key

abbrev Header := GoMap Str (List Str)

def Header.values (h : Header) (key : Str) : List Str :=
  (h.lookup (canonicalHeaderKey key)).getD []

def Header.get (h : Header) (key : Str) : Str := (h.values key).headD []

/-- `http.Request`; `tls` says whether the connection state is present. -/
structure Request where
  method : Str
  url : Url.URL
  host : Str := []
  tls : Bool := false
  header : Header := ∅

example : canonicalHeaderKey "dPoP" = "Dpop" := by decide

end Go.Http
