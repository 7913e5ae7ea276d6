import SetadJang.Framework.PyCase
import SetadJang.Framework.PyIp

/-!
# URLs

`urlparse` and `urljoin` of `urllib.parse`.  `none` is their `ValueError`, and `nfkc` is
Unicode's compatibility composition.
-/

namespace SetadJang.Framework

/-- What `urlparse` returns. -/
structure ParsedUrl where
  scheme : List Char
  netloc : List Char
  path : List Char
  params : List Char
  query : List Char
  fragment : List Char
deriving DecidableEq, Repr

/-! ## Splitting -/

def isSchemeChar (c : Char) : Bool := c.isAlphanum || c == '+' || c == '-' || c == '.'

/-- The scheme that a text starts with, and the rest; without one it is `scheme`. -/
def splitScheme (scheme url : List Char) : List Char × List Char :=
  match pyPartition ':' url with
  | (head, colon, rest) =>
      if colon = true ∧ head.head?.any Char.isAlpha = true ∧ head.all isSchemeChar = true then
        (lowerChars [] head, rest)
      else (scheme, url)

/-- `_check_bracketed_host`. -/
def bracketedHostOk : List Char → Bool
  | 'v' :: rest =>
      match pyPartition '.' rest with
      | (version, dot, address) =>
          !version.isEmpty && version.all (fun c => (hexValue c).isSome) && dot && !address.isEmpty
  | host =>
      match ipAddress host with
      | some (.v6 ..) => true
      | _ => false

/-- `_check_bracketed_netloc`. -/
def bracketedNetlocOk (netloc : List Char) : Bool :=
  let hostAndPort := (pyRPartition '@' netloc).2.2
  match pyPartition '[' hostAndPort with
  | (before, true, bracketed) =>
      match pyPartition ']' bracketed with
      | (host, _, port) =>
          before.isEmpty && (port.isEmpty || port.head? == some ':') && bracketedHostOk host
  | _ => bracketedHostOk (pyPartition ':' hostAndPort).1

/-- The checks of `urlsplit` on a netloc with brackets. -/
def bracketsOk (netloc : List Char) : Bool :=
  netloc.contains '[' == netloc.contains ']' && (!netloc.contains '[' || bracketedNetlocOk netloc)

section

variable (nfkc : List Char → List Char)

/-- `_checknetloc`. -/
def netlocOk (netloc : List Char) : Bool :=
  let bare := netloc.filter fun c => !(['@', ':', '#', '?'].contains c)
  netloc.all (fun c => decide (c.toNat < 128)) || bare == nfkc bare ||
    !(['/', '?', '#', '@', ':'].any fun c => (nfkc bare).contains c)

/-- `_splitparams`: the parameters of the last segment. -/
def splitParams (path : List Char) : List Char × List Char :=
  match pyRPartition '/' path with
  | (directory, slash, segment) =>
      match pyPartition ';' segment with
      | (name, _, params) => (if slash then directory ++ '/' :: name else name, params)

def usesParams : List (List Char) :=
  ["", "ftp", "hdl", "prospero", "http", "imap", "https", "shttp", "rtsp", "rtsps", "rtspu", "sip",
    "sips", "mms", "sftp", "tel"].map String.toList

/-- `urlparse(url, scheme)`. -/
def urlparse (url : List Char) (scheme : List Char) : Option ParsedUrl :=
  let url := (url.dropWhile fun c => decide (c.toNat ≤ 32)).filter fun c =>
    !(['\t', '\r', '\n'].contains c)
  let (scheme, url) := splitScheme scheme url
  let (netloc, url) :=
    match url with
    | '/' :: '/' :: rest => rest.span fun c => !(['/', '?', '#'].contains c)
    | _ => ([], url)
  if bracketsOk netloc && netlocOk nfkc netloc then
    let (url, _, fragment) := pyPartition '#' url
    let (path, _, query) := pyPartition '?' url
    let (path, params) := if usesParams.contains scheme then splitParams path else (path, [])
    some ⟨scheme, netloc, path, params, query, fragment⟩
  else none

end

/-! ## The parts of a netloc -/

namespace ParsedUrl

variable (url : ParsedUrl)

/-- `username` and `password`; what is missing is empty. -/
def userinfo : List Char × List Char :=
  match pyRPartition '@' url.netloc with
  | (userinfo, true, _) =>
      match pyPartition ':' userinfo with
      | (username, _, password) => (username, password)
  | _ => ([], [])

/-- `_hostinfo`. -/
def hostinfo : List Char × List Char :=
  let hostinfo := (pyRPartition '@' url.netloc).2.2
  match pyPartition '[' hostinfo with
  | (_, true, bracketed) =>
      match pyPartition ']' bracketed with
      | (hostname, _, port) => (hostname, (pyPartition ':' port).2.2)
  | _ =>
      match pyPartition ':' hostinfo with
      | (hostname, _, port) => (hostname, port)

/-- `hostname`: in lower case up to the zone. -/
def hostname : Option (List Char) :=
  if url.hostinfo.1 = [] then none
  else
    match pyPartition '%' url.hostinfo.1 with
    | (host, percent, zone) => some (lowerChars [] host ++ if percent then '%' :: zone else [])

/-- `port`: no port, or a number; the outer `none` is the `ValueError`. -/
def port : Option (Option ℕ) :=
  let digits := url.hostinfo.2
  if digits = [] then some none
  else if digits.all Char.isDigit = true ∧ digitsValue digits ≤ 65535 then
    some (some (digitsValue digits))
  else none

end ParsedUrl

/-! ## Joining -/

def usesRelative : List (List Char) :=
  ["", "ftp", "http", "gopher", "nntp", "imap", "wais", "file", "https", "shttp", "mms", "prospero",
    "rtsp", "rtsps", "rtspu", "sftp", "svn", "svn+ssh", "ws", "wss"].map String.toList

def usesNetloc : List (List Char) :=
  ["", "ftp", "http", "gopher", "nntp", "telnet", "imap", "wais", "file", "mms", "https", "shttp",
    "snews", "prospero", "rtsp", "rtsps", "rtspu", "rsync", "svn", "svn+ssh", "sftp", "nfs", "git",
    "git+ssh", "ws", "wss"].map String.toList

/-- `urlunparse`. -/
def urlunparse (url : ParsedUrl) : List Char :=
  let path := if url.params = [] then url.path else url.path ++ ';' :: url.params
  let path :=
    if url.netloc ≠ [] then
      '/' :: '/' :: url.netloc ++
        (if path ≠ [] ∧ path.head? ≠ some '/' then '/' :: path else path)
    else if path.take 2 = ['/', '/'] then '/' :: '/' :: path
    else if url.scheme ≠ [] ∧ usesNetloc.contains url.scheme = true ∧
        (path = [] ∨ path.head? = some '/') then
      '/' :: '/' :: path
    else path
  let path := if url.scheme = [] then path else url.scheme ++ ':' :: path
  let path := if url.query = [] then path else path ++ '?' :: url.query
  if url.fragment = [] then path else path ++ '#' :: url.fragment

/-- The loop over the segments; the segments that stay, the last one first. -/
def resolveSegments : List (List Char) → List (List Char) → List (List Char)
  | resolved, [] => resolved
  | resolved, segment :: segments =>
      if segment = ['.', '.'] then resolveSegments resolved.tail segments
      else if segment = ['.'] then resolveSegments resolved segments
      else resolveSegments (segment :: resolved) segments

/-- `segments[1:-1] = filter(None, segments[1:-1])`. -/
def withoutEmptyMiddle : List (List Char) → List (List Char)
  | first :: second :: rest =>
      first :: ((second :: rest).dropLast.filter (· ≠ [])) ++ [(second :: rest).getLastD []]
  | segments => segments

/-- The path that a relative path stands for beside the path of a base. -/
def joinPaths (basePath path : List Char) : List Char :=
  let baseParts := pySplit '/' basePath
  let baseParts := if baseParts.getLastD [] = [] then baseParts else baseParts.dropLast
  let segments :=
    if path.head? = some '/' then pySplit '/' path
    else withoutEmptyMiddle (baseParts ++ pySplit '/' path)
  let last := segments.getLastD []
  let resolved := (resolveSegments [] segments).reverse
  let resolved := if last = ['.'] ∨ last = ['.', '.'] then resolved ++ [[]] else resolved
  let joined := ['/'].intercalate resolved
  if joined = [] then ['/'] else joined

/-- `urljoin`. -/
def urljoin (nfkc : List Char → List Char) (base url : List Char) : Option (List Char) :=
  if base = [] then some url
  else if url = [] then some base
  else do
    let parsedBase ← urlparse nfkc base []
    let parsed ← urlparse nfkc url parsedBase.scheme
    if parsed.scheme ≠ parsedBase.scheme ∨ usesRelative.contains parsed.scheme = false then
      return url
    else if usesNetloc.contains parsed.scheme = true ∧ parsed.netloc ≠ [] then
      return urlunparse parsed
    else
      let netloc :=
        if usesNetloc.contains parsed.scheme = true then parsedBase.netloc else parsed.netloc
      if parsed.path = [] ∧ parsed.params = [] then
        return urlunparse
          { parsed with
            netloc := netloc
            path := parsedBase.path
            params := parsedBase.params
            query := if parsed.query = [] then parsedBase.query else parsed.query }
      else
        return urlunparse
          { parsed with netloc := netloc, path := joinPaths parsedBase.path parsed.path }

end SetadJang.Framework
