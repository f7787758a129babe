import SolidSidecar.Go.Check
import SolidSidecar.Go.Strings

/-!
# The `net/url` package

`url.Parse`, `URL.String` and the escaping they rest on, byte by byte as the package of Go 1.25
computes them. `unescape` decodes one component and refuses what the component may not hold,
`escape` is the default encoding, and `RawPath` and `RawFragment` keep a spelling that differs from
the default one (`EscapedPath`, `EscapedFragment`).
-/

namespace Go.Url

/-- The component an escaping is for (`url.encoding`). -/
inductive Encoding where
  | path | pathSegment | host | zone | userPassword | queryComponent | fragment
  deriving DecidableEq, Repr

inductive ParseError where
  | controlCharacter
  | missingScheme
  | colonInFirstSegment
  | missingBracket
  | invalidPort (port : Str)
  | invalidUserinfo
  | escape (text : Str)
  | invalidHost (byte : UInt8)
  deriving DecidableEq, Repr

structure Userinfo where
  username : Str
  password : Option Str
  deriving DecidableEq, Repr

structure URL where
  scheme : Str := []
  opaqueData : Str := []
  user : Option Userinfo := none
  host : Str := []
  path : Str := []
  rawPath : Str := []
  omitHost : Bool := false
  forceQuery : Bool := false
  rawQuery : Str := []
  fragment : Str := []
  rawFragment : Str := []
  deriving DecidableEq, Repr

def isAlpha (c : UInt8) : Bool :=
  (0x61 ≤ c.toNat && c.toNat ≤ 0x7A) || (0x41 ≤ c.toNat && c.toNat ≤ 0x5A)

def isDigit (c : UInt8) : Bool := 0x30 ≤ c.toNat && c.toNat ≤ 0x39

def isHex (c : UInt8) : Bool :=
  isDigit c || (0x61 ≤ c.toNat && c.toNat ≤ 0x66) || (0x41 ≤ c.toNat && c.toNat ≤ 0x46)

def unhex (c : UInt8) : Nat :=
  if isDigit c then c.toNat - 0x30
  else if 0x61 ≤ c.toNat && c.toNat ≤ 0x66 then c.toNat - 0x61 + 10
  else if 0x41 ≤ c.toNat && c.toNat ≤ 0x46 then c.toNat - 0x41 + 10
  else 0

def upperHex (n : Nat) : UInt8 := UInt8.ofNat (if n < 10 then 0x30 + n else 0x41 + (n - 10))

def shouldEscape (c : UInt8) (mode : Encoding) : Bool :=
  if isAlpha c || isDigit c then false
  else if (mode == .host || mode == .zone) && (str "!$&'()*+,;=:[]<>\"").contains c then false
  else if (str "-_.~").contains c then false
  else if (str "$&+,/:;=?@").contains c then
    match mode with
    | .path => c == '?'.toUInt8
    | .pathSegment => (str "/;,?").contains c
    | .userPassword => (str "@/?:").contains c
    | .queryComponent => true
    | .fragment => false
    | .host => true
    | .zone => true
  else if mode == .fragment && (str "!()*").contains c then false
  else true

/-- The check `unescape` makes of the escape `%ab` in a component. -/
def escapeAllowed (mode : Encoding) (a b : UInt8) : Bool :=
  let percent := a == '2'.toUInt8 && b == '5'.toUInt8
  match mode with
  | .host => 8 ≤ unhex a || percent
  | .zone =>
    let v := UInt8.ofNat (unhex a * 16 + unhex b)
    percent || v == ' '.toUInt8 || !shouldEscape v .host
  | _ => true

def unescape (mode : Encoding) : Str → Except ParseError Str
  | [] => .ok []
  | c :: rest =>
    if c = '%'.toUInt8 then
      match rest with
      | a :: b :: rest' =>
        if isHex a && isHex b && escapeAllowed mode a b then
          (unescape mode rest').map (UInt8.ofNat (unhex a * 16 + unhex b) :: ·)
        else .error (.escape [c, a, b])
      | short => .error (.escape (c :: short))
    else if c = '+'.toUInt8 then
      (unescape mode rest).map ((if mode = .queryComponent then ' '.toUInt8 else c) :: ·)
    else if (mode == .host || mode == .zone) && c.toNat < 0x80 && shouldEscape c mode then
      .error (.invalidHost c)
    else (unescape mode rest).map (c :: ·)

def escape (s : Str) (mode : Encoding) : Str :=
  s.flatMap fun c =>
    if shouldEscape c mode then
      if c = ' '.toUInt8 ∧ mode = .queryComponent then ['+'.toUInt8]
      else ['%'.toUInt8, upperHex (c.toNat / 16), upperHex (c.toNat % 16)]
    else [c]

/-- Whether `s` may stand as it is where `mode` is expected. -/
def validEncoded (s : Str) (mode : Encoding) : Bool :=
  s.all fun c => (str "!$&'()*+,;=:@[]%").contains c || !shouldEscape c mode

def Userinfo.string (u : Userinfo) : Str :=
  match u.password with
  | some p => escape u.username .userPassword ++ ":" ++ escape p .userPassword
  | none => escape u.username .userPassword

def validUserinfo (s : Str) : Bool :=
  (runes s).all fun r =>
    (0x41 ≤ r && r ≤ 0x5A) || (0x61 ≤ r && r ≤ 0x7A) || (0x30 ≤ r && r ≤ 0x39) ||
      ((str "-._:~!$&'()*+,;=%@").map UInt8.toNat).contains r

def validOptionalPort : Str → Bool
  | [] => true
  | c :: digits => c == ':'.toUInt8 && (runes digits).all fun r => 0x30 ≤ r && r ≤ 0x39

/-- The scheme and the rest: the scheme ends at the first `:` after letters, digits, `+`, `-`, `.`
(none of the last kinds first); any other byte means there is none. -/
def getSchemeFrom (whole seen : Str) : Str → Except ParseError (Str × Str)
  | [] => .ok ([], whole)
  | c :: rest =>
    if isAlpha c then getSchemeFrom whole (seen ++ [c]) rest
    else if isDigit c || (str "+-.").contains c then
      if seen = [] then .ok ([], whole) else getSchemeFrom whole (seen ++ [c]) rest
    else if c = ':'.toUInt8 then
      if seen = [] then .error .missingScheme else .ok (seen, rest)
    else .ok ([], whole)

def getScheme (rawURL : Str) : Except ParseError (Str × Str) := getSchemeFrom rawURL [] rawURL

/-- `strings.Index(s, "%25")`: what stands before it and from it on. -/
def cutZone : Str → Option (Str × Str)
  | [] => none
  | c :: rest =>
    if Strings.hasPrefix (c :: rest) "%25" then some ([], c :: rest)
    else (cutZone rest).map fun (before, zone) => (c :: before, zone)

def parseHost (host : Str) : Except ParseError Str :=
  if Strings.hasPrefix host "[" then
    match Strings.cutLast host ']'.toUInt8 with
    | none => .error .missingBracket
    | some (inside, colonPort) =>
      if !validOptionalPort colonPort then .error (.invalidPort colonPort)
      else match cutZone inside with
        | some (before, zone) => do
          let host1 ← unescape .host before
          let host2 ← unescape .zone zone
          let host3 ← unescape .host (']'.toUInt8 :: colonPort)
          return host1 ++ host2 ++ host3
        | none => unescape .host host
  else match Strings.cutLast host ':'.toUInt8 with
    | some (_, digits) =>
      if !validOptionalPort (':'.toUInt8 :: digits) then
        .error (.invalidPort (':'.toUInt8 :: digits))
      else unescape .host host
    | none => unescape .host host

def parseUser (userinfo : Str) : Except ParseError Userinfo :=
  if !validUserinfo userinfo then .error .invalidUserinfo
  else if userinfo.contains ':'.toUInt8 then do
    let (username, password) := Strings.cut userinfo ':'.toUInt8
    return ⟨← unescape .userPassword username, some (← unescape .userPassword password)⟩
  else return ⟨← unescape .userPassword userinfo, none⟩

def parseAuthority (authority : Str) : Except ParseError (Option Userinfo × Str) :=
  match Strings.cutLast authority '@'.toUInt8 with
  | none => do return (none, ← parseHost authority)
  | some (userinfo, hostPort) => do
    let host ← parseHost hostPort
    return (some (← parseUser userinfo), host)

def setPath (u : URL) (p : Str) : Except ParseError URL := do
  let path ← unescape .path p
  return { u with path, rawPath := if p = escape path .path then [] else p }

def setFragment (u : URL) (f : Str) : Except ParseError URL := do
  let fragment ← unescape .fragment f
  return { u with fragment, rawFragment := if f = escape fragment .fragment then [] else f }

def containsCTL (s : Str) : Bool := s.any fun c => c.toNat < 0x20 || c.toNat == 0x7F

/-- The query: a lone trailing `?` only forces one, otherwise it starts after the first `?`. -/
def cutQuery (u : URL) (rest : Str) : URL × Str :=
  if Strings.hasSuffix rest "?" && rest.count '?'.toUInt8 = 1 then
    ({ u with forceQuery := true }, rest.dropLast)
  else
    let (before, query) := Strings.cut rest '?'.toUInt8
    ({ u with rawQuery := query }, before)

/-- The authority and the path of a URL with its scheme and query already set. -/
def parseHierarchy (u : URL) (rest : Str) : Except ParseError URL :=
  if (u.scheme ≠ [] || !Strings.hasPrefix rest "///") && Strings.hasPrefix rest "//" then do
    let afterSlashes := rest.drop 2
    let authority := afterSlashes.takeWhile (· != '/'.toUInt8)
    let path := afterSlashes.dropWhile (· != '/'.toUInt8)
    let (user, host) ← parseAuthority authority
    setPath { u with user, host } path
  else if u.scheme ≠ [] && Strings.hasPrefix rest "/" then setPath { u with omitHost := true } rest
  else setPath u rest

/-- `url.parse` without its fragment, `viaRequest` false. -/
def parseNoFragment (rawURL : Str) : Except ParseError URL :=
  if containsCTL rawURL then .error .controlCharacter
  else if rawURL = "*" then .ok { path := "*" }
  else do
    let (scheme, rest) ← getScheme rawURL
    let (u, rest) := cutQuery { scheme := Strings.lowerAscii scheme } rest
    if !Strings.hasPrefix rest "/" && u.scheme ≠ [] then .ok { u with opaqueData := rest }
    else if !Strings.hasPrefix rest "/" && (Strings.cut rest '/'.toUInt8).1.contains ':'.toUInt8 then
      .error .colonInFirstSegment
    else parseHierarchy u rest

def parse (rawURL : Str) : Except ParseError URL := do
  let (before, frag) := Strings.cut rawURL '#'.toUInt8
  let u ← parseNoFragment before
  if frag = [] then return u else setFragment u frag

namespace URL

variable (u : URL)

def withoutPort (host : Str) : Str :=
  match Strings.cutLast host 0x3A with
  | some (before, port) => if validOptionalPort (0x3A :: port) then before else host
  | none => host

def hostname : Str :=
  let host := withoutPort u.host
  if Strings.hasPrefix host "[" && Strings.hasSuffix host "]" then
    (host.drop 1).dropLast
  else host

def escapedPath : Str :=
  if u.rawPath ≠ [] && validEncoded u.rawPath .path && unescape .path u.rawPath == .ok u.path then
    u.rawPath
  else if u.path = "*" then "*"
  else escape u.path .path

def escapedFragment : Str :=
  if u.rawFragment ≠ [] && validEncoded u.rawFragment .fragment &&
      unescape .fragment u.rawFragment == .ok u.fragment then
    u.rawFragment
  else escape u.fragment .fragment

/-- The scheme and the authority as `String` writes them. -/
def schemeAndAuthority : Str :=
  (if u.scheme ≠ [] then u.scheme ++ ":" else []) ++
    if (u.scheme ≠ [] || u.host ≠ [] || u.user.isSome) && !(u.omitHost && u.host = [] && u.user.isNone) then
      (if u.host ≠ [] || u.path ≠ [] || u.user.isSome then str "//" else []) ++
        (match u.user with | some ui => ui.string ++ "@" | none => []) ++ escape u.host .host
    else []

def writtenPath (before : Str) : Str :=
  let path := u.escapedPath
  let slash : Str := if path ≠ [] && path.head? ≠ some '/'.toUInt8 && u.host ≠ [] then "/" else []
  let dot : Str :=
    if (before ++ slash).isEmpty && (Strings.cut path '/'.toUInt8).1.contains ':'.toUInt8 then "./"
    else []
  slash ++ dot ++ path

def string : Str :=
  (if u.opaqueData ≠ [] then (if u.scheme ≠ [] then u.scheme ++ ":" else []) ++ u.opaqueData
    else u.schemeAndAuthority ++ u.writtenPath u.schemeAndAuthority) ++
  (if u.forceQuery || u.rawQuery ≠ [] then "?" ++ u.rawQuery else []) ++
  (if u.fragment ≠ [] then "#" ++ u.escapedFragment else [])

end URL

theorem unescape_cons {mode} (own : mode = .path ∨ mode = .pathSegment) {c} (plain : c ≠ '%'.toUInt8)
    (rest : Str) : unescape mode (c :: rest) = (unescape mode rest).map (c :: ·) := by
  rw [unescape.eq_def]
  rcases own with rfl | rfl <;> simp [plain]

/-- The digits of an escape give the byte back, and a byte that stands for itself starts none. -/
def readable (c : UInt8) : Bool :=
  if shouldEscape c .path then isHex (upperHex (c.toNat / 16)) && isHex (upperHex (c.toNat % 16)) &&
    UInt8.ofNat (unhex (upperHex (c.toNat / 16)) * 16 + unhex (upperHex (c.toNat % 16))) == c
  else c != '%'.toUInt8

theorem unescape_escape (s : Str) : unescape .path (escape s .path) = .ok s := by
  induction s with
  | nil => rfl
  | cons c rest ih =>
    have bytes : ∀ i, readable (.ofFin i) = true := by decide +kernel
    have byte : readable c = true := bytes c.toFin
    rw [escape, List.flatMap_cons, ← escape]
    unfold readable at byte
    split_ifs at byte ⊢ with _ space
    · cases space.2
    · simp only [Bool.and_eq_true, beq_iff_eq] at byte
      simp [unescape, byte, escapeAllowed, ih, Except.map]
    · rw [List.singleton_append, unescape_cons (.inl rfl) (by simpa using byte), ih, Except.map]

theorem unescape_escapedPath (u : URL) : unescape .path u.escapedPath = .ok u.path := by
  unfold URL.escapedPath
  split_ifs with raw star
  · simp only [Bool.and_eq_true, beq_iff_eq] at raw
    exact raw.2
  · rw [star]
    decide +kernel
  · exact unescape_escape u.path

def pathUnescape (s : Str) : Except ParseError Str := unescape .pathSegment s

theorem pathUnescape_of_notMem {s} (plain : '%'.toUInt8 ∉ s) : pathUnescape s = .ok s := by
  induction s with
  | nil => rfl
  | cons c rest ih =>
    rw [List.mem_cons, not_or] at plain
    rw [pathUnescape, unescape_cons (.inr rfl) (.symm plain.1), ← pathUnescape, ih plain.2]
    rfl

theorem map_cons_eq_ok {x : Except ParseError Str} {c} {d : Str} :
    x.map (c :: ·) = .ok d ↔ ∃ d', x = .ok d' ∧ d = c :: d' := by
  cases x <;> simp [Except.map, eq_comm]

/-- A byte that can be no part of an escape stays between what is decoded before and after it. -/
theorem pathUnescape_append_cons {c} (apart : c ≠ '%'.toUInt8 ∧ isHex c = false) :
    ∀ {s t d : Str}, pathUnescape (s ++ c :: t) = .ok d →
      ∃ s' t', pathUnescape s = .ok s' ∧ pathUnescape t = .ok t' ∧ d = s' ++ c :: t'
  | [], t, d, decoded => by
    rw [List.nil_append, pathUnescape, unescape_cons (.inr rfl) apart.1, map_cons_eq_ok] at decoded
    obtain ⟨t', rest, rfl⟩ := decoded
    exact ⟨[], t', rfl, rest, rfl⟩
  | b :: s, t, d, decoded => by
    by_cases escape : b = '%'.toUInt8
    · subst escape
      match s with
      | [] => cases t <;> simp [pathUnescape, unescape, apart.2] at decoded
      | [a] => simp [pathUnescape, unescape, apart.2] at decoded
      | x :: y :: s =>
        rw [List.cons_append, List.cons_append, List.cons_append, pathUnescape, unescape, if_pos rfl] at decoded
        split_ifs at decoded with digits
        obtain ⟨d', rest, rfl⟩ := map_cons_eq_ok.mp decoded
        obtain ⟨s', t', first, second, rfl⟩ := pathUnescape_append_cons apart rest
        refine ⟨_ :: s', t', ?_, second, rfl⟩
        rw [pathUnescape, unescape, if_pos digits, ← pathUnescape, first]
        rfl
    · rw [List.cons_append, pathUnescape, unescape_cons (.inr rfl) escape, map_cons_eq_ok] at decoded
      obtain ⟨d', rest, rfl⟩ := decoded
      obtain ⟨s', t', first, second, rfl⟩ := pathUnescape_append_cons apart rest
      refine ⟨b :: s', t', ?_, second, rfl⟩
      rw [pathUnescape, unescape_cons (.inr rfl) escape, ← pathUnescape, first]
      rfl

def decoded (s : Str) : Str := (pathUnescape s).toOption.getD []

theorem decoded_of_notMem {s} (plain : '%'.toUInt8 ∉ s) : decoded s = s := by
  rw [decoded, pathUnescape_of_notMem plain]
  rfl

/-- Decoding splits the parts of a text further, each on its own. -/
theorem split_of_pathUnescape {c} (apart : c ≠ '%'.toUInt8 ∧ isHex c = false) {s d} (ok : pathUnescape s = .ok d) :
    Strings.split c d = (Strings.split c s).flatMap fun part => Strings.split c (decoded part) := by
  by_cases mem : c ∈ s
  · obtain ⟨_, _, rfl⟩ := List.append_of_mem mem
    obtain ⟨_, _, first, second, rfl⟩ := pathUnescape_append_cons apart ok
    rw [Strings.split_append_cons, Strings.split_append_cons, List.flatMap_append,
      split_of_pathUnescape apart first, split_of_pathUnescape apart second]
  · rw [Strings.split_of_notMem mem, List.flatMap_singleton, decoded, ok]
    rfl
termination_by s.length

def Rooted (p : Str) : Prop := p = [] ∨ p.head? = some '/'.toUInt8

theorem rooted_dropWhile (s : Str) : Rooted (s.dropWhile (· != '/'.toUInt8)) := by
  induction s with
  | nil => exact .inl rfl
  | cons c rest ih =>
    rw [List.dropWhile_cons]
    split_ifs with other
    · exact ih
    · exact .inr (by simpa using other)

theorem setPath_eq_ok {u v p} (set : setPath u p = .ok v) :
    v.scheme = u.scheme ∧ v.host = u.host ∧ v.opaqueData = u.opaqueData ∧
      (Rooted p → Rooted v.path ∧ Rooted v.rawPath) := by
  obtain ⟨path, decoded, made⟩ := bind_eq_ok.mp set
  cases made
  refine ⟨rfl, rfl, rfl, fun rooted => ⟨?_, ?_⟩⟩
  · cases p with
    | nil => exact .inl (Except.ok.inj decoded).symm
    | cons c rest =>
      obtain rfl : c = '/'.toUInt8 := by simpa [Rooted] using rooted
      rw [unescape_cons (.inl rfl) (by decide)] at decoded
      cases tail : unescape .path rest with
      | error err => simp [tail, Except.map] at decoded
      | ok tail' =>
        simp only [tail, Except.map, Except.ok.injEq] at decoded
        exact .inr (by simp [← decoded])
  · split_ifs
    · exact .inl rfl
    · exact rooted

/-- The path of a URL with a scheme or a host is rooted, and a URL with a host is not opaque. -/
theorem rooted_of_parse {s u} (parsed : parse s = .ok u) (absolute : u.scheme ≠ [] ∨ u.host ≠ []) :
    (Rooted u.path ∧ Rooted u.rawPath) ∧ (u.host ≠ [] → u.opaqueData = []) := by
  obtain ⟨u₀, begins, finished⟩ := bind_eq_ok.mp parsed
  have same : ∃ f r, u = { u₀ with fragment := f, rawFragment := r } := by
    split_ifs at finished
    · cases finished
      exact ⟨_, _, rfl⟩
    · obtain ⟨_, _, made⟩ := bind_eq_ok.mp finished
      cases made
      exact ⟨_, _, rfl⟩
  obtain ⟨_, _, rfl⟩ := same
  unfold parseNoFragment at begins
  split_ifs at begins
  · cases begins
    simp at absolute
  · obtain ⟨⟨scheme, rest⟩, -, parsed⟩ := bind_eq_ok.mp begins
    have blank : let u := (cutQuery { scheme := Strings.lowerAscii scheme } rest).1
        u.path = [] ∧ u.rawPath = [] ∧ u.host = [] ∧ u.opaqueData = [] := by
      unfold cutQuery
      split_ifs <;> exact ⟨rfl, rfl, rfl, rfl⟩
    dsimp only at parsed
    split_ifs at parsed
    · cases parsed
      exact ⟨⟨.inl blank.1, .inl blank.2.1⟩, fun host => absurd blank.2.2.1 host⟩
    · unfold parseHierarchy at parsed
      split_ifs at parsed with _ slash
      · obtain ⟨⟨_, host⟩, -, set⟩ := bind_eq_ok.mp parsed
        obtain ⟨-, -, data, roots⟩ := setPath_eq_ok set
        exact ⟨roots (rooted_dropWhile _), fun _ => data.trans blank.2.2.2⟩
      · simp only [Bool.and_eq_true] at slash
        obtain ⟨rest, whole⟩ := List.isPrefixOf_iff_prefix.mp slash.2
        obtain ⟨-, -, data, roots⟩ := setPath_eq_ok parsed
        exact ⟨roots (.inr (by rw [← whole]; rfl)), fun _ => data.trans blank.2.2.2⟩
      · obtain ⟨scheme, host, -, -⟩ := setPath_eq_ok parsed
        simp_all

theorem rooted_escapedPath {u : URL} (path : Rooted u.path) (rawPath : Rooted u.rawPath) : Rooted u.escapedPath := by
  unfold URL.escapedPath
  split_ifs with _ star
  · exact rawPath
  · rw [star] at path
    exact absurd path (by unfold Rooted; decide)
  · cases whole : u.path with
    | nil => exact .inl rfl
    | cons c rest =>
      obtain rfl : c = '/'.toUInt8 := by simpa [Rooted, whole] using path
      exact .inr rfl

/-- With a host, the URL is written around its escaped path. -/
theorem string_of_host {u : URL} (host : u.host ≠ []) (hierarchical : u.opaqueData = []) (rooted : Rooted u.escapedPath) :
    u.string = u.schemeAndAuthority ++ u.escapedPath ++ ((if u.forceQuery || u.rawQuery ≠ [] then "?" ++ u.rawQuery else []) ++
      (if u.fragment ≠ [] then "#" ++ u.escapedFragment else [])) := by
  have before : u.schemeAndAuthority ≠ [] := by simp [URL.schemeAndAuthority, host, show str "//" ≠ [] by decide]
  have written : u.writtenPath u.schemeAndAuthority = u.escapedPath := by
    unfold URL.writtenPath
    rcases rooted with empty | slash
    · simp [empty, before]
    · simp [slash, before]
  rw [URL.string, if_neg (by simp [hierarchical]), written, List.append_assoc]

/-- URLs that differ in their paths are written differently. -/
theorem string_inj {u : URL} {p q} (host : u.host ≠ []) (hierarchical : u.opaqueData = []) (rooted : Rooted u.rawPath)
    (first : Rooted p) (second : Rooted q) (same : { u with path := p }.string = { u with path := q }.string) : p = q := by
  have authority (r : Str) : ({ u with path := r } : URL).schemeAndAuthority = u.schemeAndAuthority := by
    simp [URL.schemeAndAuthority, host]
  have written (r : Str) (root : Rooted r) := @string_of_host { u with path := r } host hierarchical
    (@rooted_escapedPath { u with path := r } root rooted)
  rw [written p first, written q second, authority p, authority q] at same
  have escaped := List.append_cancel_left (List.append_cancel_right same)
  have decoded := (unescape_escapedPath { u with path := p }).symm.trans (escaped ▸ unescape_escapedPath { u with path := q })
  exact Except.ok.inj decoded

open List

theorem suffix_of_getScheme {s scheme rest} (read : getScheme s = .ok (scheme, rest)) : rest <:+ s := by
  have each {left seen : Str} (inside : left <:+ s) (read : getSchemeFrom s seen left = .ok (scheme, rest)) : rest <:+ s := by
    induction left generalizing seen with
    | nil =>
      cases read
      exact suffix_rfl
    | cons c left ih =>
      have inside := (suffix_cons c left).trans inside
      unfold getSchemeFrom at read
      split_ifs at read
      · exact ih inside read
      · cases read
        exact suffix_rfl
      · exact ih inside read
      · cases read
        exact inside
      · cases read
        exact suffix_rfl
  exact each suffix_rfl read

/-- A query that was read stands behind a question mark before the fragment. -/
theorem query_of_parse {s u} (parsed : parse s = .ok u) (some : u.rawQuery ≠ []) :
    u.forceQuery = false ∧ '?'.toUInt8 ∈ (Strings.cut s '#'.toUInt8).1 := by
  obtain ⟨u₀, begins, finished⟩ := bind_eq_ok.mp parsed
  have same : u₀.rawQuery = u.rawQuery ∧ u₀.forceQuery = u.forceQuery := by
    split_ifs at finished
    · cases finished
      exact ⟨rfl, rfl⟩
    · obtain ⟨_, _, made⟩ := bind_eq_ok.mp finished
      cases made
      exact ⟨rfl, rfl⟩
  rw [← same.1] at some
  rw [← same.2]
  unfold parseNoFragment at begins
  split_ifs at begins
  · cases begins
    exact absurd rfl some
  · obtain ⟨⟨scheme, rest⟩, read, parsed⟩ := bind_eq_ok.mp begins
    have kept : u₀.rawQuery = (cutQuery { scheme := Strings.lowerAscii scheme } rest).1.rawQuery ∧
        u₀.forceQuery = (cutQuery { scheme := Strings.lowerAscii scheme } rest).1.forceQuery := by
      have set {v w p} (set : setPath v p = .ok w) : w.rawQuery = v.rawQuery ∧ w.forceQuery = v.forceQuery := by
        obtain ⟨_, _, made⟩ := bind_eq_ok.mp set
        cases made
        exact ⟨rfl, rfl⟩
      dsimp only at parsed
      split_ifs at parsed
      · cases parsed
        exact ⟨rfl, rfl⟩
      · unfold parseHierarchy at parsed
        split_ifs at parsed
        · obtain ⟨_, -, parsed⟩ := bind_eq_ok.mp parsed
          have kept := set parsed
          exact kept
        · have kept := set parsed
          exact kept
        · exact set parsed
    rw [kept.1] at some
    rw [kept.2]
    unfold cutQuery at some ⊢
    split_ifs at some ⊢
    · exact absurd rfl some
    · refine ⟨rfl, (suffix_of_getScheme read).subset ?_⟩
      by_contra absent
      have none : rest.dropWhile (· != '?'.toUInt8) = [] := dropWhile_eq_nil_iff.mpr fun b mem => by
        simpa using ne_of_mem_of_not_mem mem absent
      exact some (by simp [Strings.cut, none])

/-- Visible ASCII, and none of the two bytes that end a path. -/
def inPath (c : UInt8) : Bool := Strings.visible c && c != '#'.toUInt8 && c != '?'.toUInt8

theorem inPath_escape {mode} (own : mode = .host ∨ mode = .path) (s : Str) : (escape s mode).all inPath = true := by
  have bytes : ∀ i, ((escape [.ofFin i] .host) ++ escape [.ofFin i] .path).all inPath = true := by decide +kernel
  refine all_eq_true.mpr fun b mem => ?_
  obtain ⟨c, -, written⟩ := mem_flatMap.mp mem
  refine all_eq_true.mp (bytes c.toFin) b ?_
  rcases own with rfl | rfl
  · exact mem_append_left _ (mem_flatMap.mpr ⟨c, mem_singleton_self c, written⟩)
  · exact mem_append_right _ (mem_flatMap.mpr ⟨c, mem_singleton_self c, written⟩)

theorem inPath_escapedPath (u : URL) : u.escapedPath.all inPath = true := by
  unfold URL.escapedPath
  split_ifs with raw
  · simp only [Bool.and_eq_true] at raw
    have bytes : ∀ i, validEncoded [.ofFin i] .path = true → inPath (.ofFin i) = true := by decide +kernel
    refine all_eq_true.mpr fun b mem => bytes b.toFin ?_
    simpa [validEncoded] using all_eq_true.mp raw.1.2 b mem
  · decide
  · exact inPath_escape (.inr rfl) u.path

theorem visible_escapedFragment (u : URL) : u.escapedFragment.all Strings.visible = true := by
  unfold URL.escapedFragment
  split_ifs with raw
  · simp only [Bool.and_eq_true] at raw
    have bytes : ∀ i, validEncoded [.ofFin i] .fragment = true → Strings.visible (.ofFin i) = true := by decide +kernel
    refine all_eq_true.mpr fun b mem => bytes b.toFin ?_
    simpa [validEncoded] using all_eq_true.mp raw.1.2 b mem
  · have bytes : ∀ i, (escape [.ofFin i] .fragment).all Strings.visible = true := by decide +kernel
    refine all_eq_true.mpr fun b mem => ?_
    obtain ⟨c, -, written⟩ := mem_flatMap.mp mem
    exact all_eq_true.mp (bytes c.toFin) b (mem_flatMap.mpr ⟨c, mem_singleton_self c, written⟩)

/-- A URL with a host and without user information, up to its query. -/
theorem inPath_address {u : URL} (scheme : u.scheme.all inPath = true) (nobody : u.user = none) :
    (u.schemeAndAuthority ++ u.escapedPath).all inPath = true := by
  have host := inPath_escape (.inl rfl) u.host
  have path := inPath_escapedPath u
  have colon : (str ":").all inPath = true := by decide
  have slashes : (str "//").all inPath = true := by decide
  unfold URL.schemeAndAuthority
  split_ifs <;> simp_all [all_append]

section

variable {u : URL} (host : u.host ≠ []) (nobody : u.user = none) (scheme : u.scheme.all inPath = true)

include host nobody scheme

/-- What stands before the query and the fragment of a URL, and that these are set off from it. -/
theorem string_of_address {s} (parsed : parse s = .ok u) : ∃ address : Str, address.all inPath = true ∧
    { u with rawQuery := [] }.string = address ++ ((if u.forceQuery then str "?" else []) ++
      (if u.fragment ≠ [] then str "#" ++ u.escapedFragment else [])) := by
  obtain ⟨⟨path, rawPath⟩, hierarchical⟩ := rooted_of_parse parsed (.inr host)
  refine ⟨_, @inPath_address { u with rawQuery := [] } scheme nobody, ?_⟩
  rw [@string_of_host { u with rawQuery := [] } host (hierarchical host)
    (@rooted_escapedPath { u with rawQuery := [] } path rawPath)]
  simp [URL.escapedFragment]

theorem trimSpace_string {s} (parsed : parse s = .ok u) :
    Strings.trimSpace { u with rawQuery := [] }.string = { u with rawQuery := [] }.string := by
  apply Strings.trimSpace_of_visible
  obtain ⟨address, inside, whole⟩ := string_of_address host nobody scheme parsed
  have plain : address.all Strings.visible = true := all_eq_true.mpr fun b mem => by
    simp_all [inPath]
  have fragment := visible_escapedFragment u
  have mark : (str "?").all Strings.visible = true := by decide
  have hash : (str "#").all Strings.visible = true := by decide
  rw [whole]
  split_ifs <;> simp_all [all_append]

/-- A URL that is written without its query as it was read had no query. -/
theorem rawQuery_of_string (parsed : parse { u with rawQuery := [] }.string = .ok u) : u.rawQuery = [] := by
  by_contra some
  obtain ⟨unforced, marked⟩ := query_of_parse parsed some
  obtain ⟨address, inside, whole⟩ := string_of_address host nobody scheme parsed
  have cut : (Strings.cut { u with rawQuery := [] }.string '#'.toUInt8).1 = address := by
    have before : ∀ b ∈ address, (b != '#'.toUInt8) = true := fun b mem => by
      simp_all [inPath]
    rw [whole, Strings.cut, takeWhile_append_of_pos before, if_neg (by simp [unforced])]
    split_ifs <;> simp [show str "#" = ['#'.toUInt8] by decide]
  rw [cut] at marked
  have := all_eq_true.mp inside _ marked
  revert this
  decide

end

end Go.Url
