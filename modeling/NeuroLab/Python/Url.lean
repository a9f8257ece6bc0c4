import NeuroLab.Python.Text

/-!
# `urllib.parse.urlparse`

The parts of a URL its callers look at: scheme, host, user, password and port, and the
path with what follows it. Control characters and spaces in front are dropped, tabs and
line ends anywhere. A location that is not ASCII is checked under NFKC and a bracketed
address by `ipaddress`; these two checks, and the lowering of text outside ASCII, are
taken as given.
-/

namespace NeuroLab.Python

/-- What `urlparse` and `str.lower` take from the Unicode database and from `ipaddress`. -/
structure UrlChecks where
  lower : Str → Str
  normalized : Str → Bool
  bracketed : Str → Bool
  lower_ascii : ∀ s : Str, (∀ c ∈ s, c < 0x80) → lower s = s.map asciiLower

/-- The text before the first separator, and the text after it when there is one. -/
def partition (sep : ℕ) (s : Str) : Str × Option Str :=
  (s.takeWhile (· ≠ sep), if sep ∈ s then some (s.dropWhile (· ≠ sep)).tail else none)

/-- The text before the last separator when there is one, and the text after it. -/
def rpartition (sep : ℕ) (s : Str) : Option Str × Str :=
  let (after, before) := partition sep s.reverse
  (before.map List.reverse, after.reverse)

/-- `text.rsplit(sep, 1)[-1]`. -/
def afterLast (sep : ℕ) (s : Str) : Str := (rpartition sep s).2

/-- The characters of a scheme. -/
def isSchemeChar (c : ℕ) : Bool := isLetter c || isDigit c || c = 0x2B || c = 0x2D || c = 0x2E

/-- The scheme in front of a URL, lowered, and the rest. -/
def splitScheme (s : Str) : Str × Str :=
  match partition 0x3A s with
  | (c :: scheme, some rest) =>
    if isLetter c && scheme.all isSchemeChar then ((c :: scheme).map asciiLower, rest) else ([], s)
  | _ => ([], s)

/-- The scheme and the network location of a URL. -/
structure ParsedUrl where
  scheme : Str
  netloc : Str

/-- Whether a network location passes the checks of `urlsplit`. -/
def UrlChecks.acceptsNetloc (checks : UrlChecks) (netloc : Str) : Bool :=
  (decide (0x5B ∈ netloc) == decide (0x5D ∈ netloc)) &&
    (decide (0x5B ∉ netloc) || checks.bracketed netloc) && (netloc.all (· < 0x80) || checks.normalized netloc)

/-- `urlparse(url)`, or its `ValueError`. -/
def UrlChecks.urlparse (checks : UrlChecks) (url : Str) : Option ParsedUrl :=
  let url := (url.dropWhile (· ≤ 0x20)).filter fun c => c ≠ 0x09 && c ≠ 0x0A && c ≠ 0x0D
  let (scheme, rest) := splitScheme url
  let netloc := match after? (lit "//") rest with
    | some rest => rest.takeWhile fun c => c ≠ 0x2F && c ≠ 0x3F && c ≠ 0x23
    | none => []
  if checks.acceptsNetloc netloc then some ⟨scheme, netloc⟩ else none

namespace ParsedUrl

variable (url : ParsedUrl)

/-- `url.username` and `url.password`. -/
def userinfo : Option Str × Option Str :=
  match (rpartition 0x40 url.netloc).1 with
  | some info => (some (partition 0x3A info).1, (partition 0x3A info).2)
  | none => (none, none)

/-- The host and the text of the port. -/
def hostinfo : Str × Option Str :=
  let info := (rpartition 0x40 url.netloc).2
  let (host, port) := match (partition 0x5B info).2 with
    | some bracketed =>
      let (host, rest) := partition 0x5D bracketed
      (host, (partition 0x3A (rest.getD [])).2)
    | none => partition 0x3A info
  (host, port.filter fun p => !p.isEmpty)

/-- `url.hostname`; a zone keeps its case. -/
def hostname (checks : UrlChecks) : Option Str :=
  let host := url.hostinfo.1
  if host.isEmpty then none
  else match partition 0x25 host with
    | (name, some zone) => some (checks.lower name ++ 0x25 :: zone)
    | (name, none) => some (checks.lower name)

/-- `url.port`, or its `ValueError`. -/
def port : Option (Option ℕ) :=
  match url.hostinfo.2 with
  | none => some none
  | some digits =>
    if digits.all isDigit && digits.length ≤ maxStrDigits && digitsValue digits ≤ 0xFFFF then
      some (some (digitsValue digits))
    else none

end ParsedUrl

/-- The path of a URL, its query and its fragment. -/
structure UrlPath where
  path : Str
  query : Str
  fragment : Str

/-- A path without the parameters of its last segment. -/
def dropParams (path : Str) : Str :=
  match rpartition 0x2F path with
  | (some before, segment) => before ++ 0x2F :: (partition 0x3B segment).1
  | (none, segment) => (partition 0x3B segment).1

/-- What `urlparse(url)` finds behind the network location, under a scheme with parameters such as `https`. -/
def urlPath (url : Str) : UrlPath :=
  let url := (url.dropWhile (· ≤ 0x20)).filter fun c => c ≠ 0x09 && c ≠ 0x0A && c ≠ 0x0D
  let rest := (splitScheme url).2
  let rest := match after? (lit "//") rest with
    | some rest => rest.dropWhile fun c => c ≠ 0x2F && c ≠ 0x3F && c ≠ 0x23
    | none => rest
  let (rest, fragment) := partition 0x23 rest
  let (path, query) := partition 0x3F rest
  ⟨dropParams path, query.getD [], fragment.getD []⟩

end NeuroLab.Python
