import Courier.Url.Host

/-!
URLs in their normal form. Reading one forgives much: blanks around it, tabs and line ends inside
it, capital letters, a port that says nothing, dots in the path, characters that have to be
encoded, and under some schemes backslashes for slashes. Writing it gives the form under which it
is requested.
-/

namespace Courier

/-- The path of a URL: segments behind slashes, or a text under a scheme without a hierarchy. -/
inductive Url.Path where
  | segments (names : List (List Char))
  | opaqueText (text : List Char)
  deriving DecidableEq

structure Url where
  scheme : List Char
  user : List Char
  password : Option (List Char)
  host : Option Url.Host
  port : Option Nat
  path : Url.Path
  query : Option (List Char)
  fragment : Option (List Char)
  deriving DecidableEq

namespace Url

/-- The port that a scheme implies, for the schemes that require a host. -/
def defaultPort? (scheme : List Char) : Option Nat :=
  [("http", 80), ("https", 443), ("ws", 80), ("wss", 443), ("ftp", 21)].lookup
    (String.ofList scheme)

def isFile (scheme : List Char) : Bool := scheme == "file".toList

/-- Whether a scheme is one of those under which backslashes count as slashes. -/
def isSpecial (scheme : List Char) : Bool := (defaultPort? scheme).isSome || isFile scheme

/-- The text without blanks and control characters around it and without tabs and line ends. -/
def clean (cs : List Char) : List Char :=
  let trimmed := ((cs.dropWhile (· ≤ ' ')).reverse.dropWhile (· ≤ ' ')).reverse
  trimmed.filter fun c => !(c = '\t' || c = '\n' || c = '\r')

/-- The scheme, in lower case, and the text behind its colon. -/
def takeScheme (cs : List Char) : Option (List Char × List Char) :=
  let isPart (c : Char) : Bool := c.isAlphanum || c = '+' || c = '-' || c = '.'
  let scheme := cs.takeWhile isPart
  match scheme, cs.drop scheme.length with
  | c :: _, ':' :: rest => if c.isAlpha then some (scheme.map Char.toLower, rest) else none
  | _, _ => none

/-- A text up to the first character of a kind, and from there on. -/
def upTo (isEnd : Char → Bool) (cs : List Char) : List Char × List Char :=
  let taken := cs.takeWhile (!isEnd ·)
  (taken, cs.drop taken.length)

/-- The user name and the password before the last at sign, and the text behind it. Without the
sign there is neither. -/
def takeUser (cs : List Char) : Option (List Char × List Char) × List Char :=
  let behind := (cs.reverse.takeWhile (· ≠ '@')).reverse
  if behind.length = cs.length then (none, cs)
  else
    let before := cs.take (cs.length - behind.length - 1)
    (some (upTo (· = ':') before), behind)

/-- The text of the host and that of the port, if there is one. Colons in brackets belong to the
host. -/
def takeHost (cs : List Char) : List Char × Option (List Char) :=
  go false cs
where
  go (inside : Bool) : List Char → List Char × Option (List Char)
    | [] => ([], none)
    | c :: rest =>
      if c = ':' ∧ !inside then ([], some rest)
      else
        let (host, port) := go (if c = '[' then true else if c = ']' then false else inside) rest
        (c :: host, port)

/-- The number of a port. An empty text, and the port that the scheme implies, count as none. -/
def readPort (scheme : List Char) (cs : List Char) : Option (Option Nat) :=
  if cs.isEmpty then some none
  else do
    let n ← Text.numeral 10 cs
    if 65535 < n then none
    return if defaultPort? scheme = some n then none else some n

/-- A segment that stands for its directory. -/
def isDot (segment : List Char) : Bool :=
  ["." , "%2e"].contains (String.ofList segment).toLower

/-- A segment that stands for the directory above. -/
def isDoubleDot (segment : List Char) : Bool :=
  ["..", ".%2e", "%2e.", "%2e%2e"].contains (String.ofList segment).toLower

/-- The path of these parts. Parts that stand for directories are followed; at the end they leave
an empty segment. -/
def normalPath : List (List Char) → List (List Char) → List (List Char)
  | done, [] => done
  | done, part :: rest =>
    let next :=
      if isDoubleDot part then
        if rest.isEmpty then done.dropLast ++ [[]] else done.dropLast
      else if isDot part then if rest.isEmpty then done ++ [[]] else done
      else done ++ [percentEncode outsidePath part]
    normalPath next rest

/-- The path of a text that begins with a slash or is empty. -/
def readPath (special : Bool) (cs : List Char) : Path :=
  let isSlash (c : Char) : Bool := c = '/' || (special && c = '\\')
  match cs with
  | [] => .segments (if special then [[]] else [])
  | c :: rest =>
    .segments (normalPath [] (splitAt isSlash (if isSlash c then rest else c :: rest)))

structure Authority where
  user : List Char
  password : Option (List Char)
  host : Host
  port : Option Nat

/-- The authority that a text spells under a scheme. -/
def readAuthority (scheme : List Char) (cs : List Char) : Option Authority := do
  let special := isSpecial scheme
  let (login, rest) := takeUser cs
  let (hostText, portText) := takeHost rest
  let (user, password) := login.getD ([], [])
  if hostText.isEmpty ∧ (special ∨ login.isSome ∨ portText.isSome) then none
  let host ← Host.parse special hostText
  let port ← readPort scheme (portText.getD [])
  let secret := password.drop 1
  return {
    user := percentEncode outsideUser user
    password := if secret.isEmpty then none else some (percentEncode outsideUser secret)
    host, port }

/-- The host of a file, if there is one. -/
def readFileHost (cs : List Char) : Option (Option Host) :=
  if cs.isEmpty then some none
  else do
    let host ← Host.parse true cs
    return if host.text = "localhost".toList then none else some host

/-- The URL that a text spells, which must name its scheme. -/
def ofText (s : String) : Option Url := do
  let (scheme, rest) ← takeScheme (clean s.toList)
  let special := isSpecial scheme
  let isSlash (c : Char) : Bool := c = '/' || (special && c = '\\')
  let (body, fragment) := upTo (· = '#') rest
  let (body, query) := upTo (· = '?') body
  let encodeTail (set : Char → Bool) : List Char → Option (List Char)
    | [] => none
    | _ :: cs => some (percentEncode set cs)
  let bare : Url := {
    scheme, user := [], password := none, host := none, port := none, path := .segments []
    query := encodeTail (outsideQuery special) query
    fragment := encodeTail outsideFragment fragment }
  let slashes := body.takeWhile isSlash
  if isFile scheme then
    if 2 ≤ slashes.length then
      let (host, path) := upTo isSlash (body.drop 2)
      return { bare with host := ← readFileHost host, path := readPath true path }
    else return { bare with path := readPath true body }
  else if special ∨ 2 ≤ slashes.length then
    let (authority, path) := upTo isSlash (body.drop (if special then slashes.length else 2))
    let a ← readAuthority scheme authority
    return { bare with
      user := a.user, password := a.password, host := some a.host, port := a.port
      path := readPath special path }
  else if slashes.length = 1 then return { bare with path := readPath false body }
  else return { bare with path := .opaqueText (percentEncode isControl body) }

/-- The path as it is written. One that would read as a host gets a dot before it. -/
def pathText (u : Url) : List Char :=
  match u.path with
  | .opaqueText cs => cs
  | .segments names =>
    let text := names.flatMap ('/' :: ·)
    match u.host, names with
    | none, [] :: _ :: _ => if isFile u.scheme then text else "/.".toList ++ text
    | _, _ => text

def authorityText (u : Url) : List Char :=
  match u.host with
  | none => if isFile u.scheme then "//".toList else []
  | some host =>
    let secret := match u.password with
      | none => []
      | some p => ':' :: p
    let login := if u.user.isEmpty ∧ secret.isEmpty then [] else u.user ++ secret ++ ['@']
    let port := match u.port with
      | none => []
      | some n => (s!":{n}").toList
    "//".toList ++ login ++ host.text ++ port

/-- A URL in its normal form. -/
def text (u : Url) : String :=
  let tail (mark : Char) : Option (List Char) → List Char
    | none => []
    | some cs => mark :: cs
  String.ofList (u.scheme ++ ':' :: u.authorityText ++ u.pathText ++ tail '?' u.query ++
    tail '#' u.fragment)

/-- The URL without user name and password, which are not part of what is requested. Those that do
not decode to text are kept. -/
def withoutUser (u : Url) : Url :=
  if (Bytes.toString? (percentDecode u.user)).isSome then { u with user := [], password := none }
  else u

/-- Whether a character can stand in the host of a request. -/
def isHostChar (c : Char) : Bool := c.isAlphanum || "!$&'()*+,-.:;=[]_~".contains c

/-- Whether a request can be sent to a URL: it needs a host, one of two schemes, and a length
below 64 KiB. -/
def isRequestable (u : Url) : Bool :=
  ["http", "https"].contains (String.ofList u.scheme) &&
    u.host.any (fun h => h.text.all isHostChar) && u.text.utf8ByteSize < 65535

end Url
end Courier
