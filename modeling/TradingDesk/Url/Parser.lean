import TradingDesk.Url.Host

/-! Reading absolute URLs. The web's own schemes are lenient with slashes and always have a host
and a path. -/
namespace TradingDesk.Url

def isAlpha (c : Char) : Bool := ('a' ≤ c && c ≤ 'z') || ('A' ≤ c && c ≤ 'Z')

/-- The scheme, in small letters, and what follows its colon. -/
def scheme? (cs : List Char) : Option (String × List Char) :=
  let isPart (c : Char) := isAlpha c || Numeral.isDigit c || c = '+' || c = '-' || c = '.'
  match cs, cs.dropWhile isPart with
  | c :: _, ':' :: r =>
    if isAlpha c then some ((String.ofList (cs.takeWhile isPart)).toLower, r) else none
  | _, _ => none

/-- The web's own schemes. -/
def isWeb (scheme : String) : Bool := ["http", "https", "ws", "wss", "ftp"].contains scheme

def defaultPort? (scheme : String) : Option Nat :=
  [("http", 80), ("https", 443), ("ws", 80), ("wss", 443), ("ftp", 21)].lookup scheme

def isSlash (special : Bool) (c : Char) : Bool := c = '/' || (special && c = '\\')

/-! ### Authorities -/

/-- What stands before and after the last `@`. -/
def user? (cs : List Char) : Option (List Char × List Char) :=
  let tail := cs.reverse.takeWhile (· ≠ '@')
  if tail.length = cs.length then none
  else some (cs.take (cs.length - tail.length - 1), tail.reverse)

/-- The host and, after a colon outside of brackets, the port. -/
def splitPort (cs : List Char) : List Char × Option (List Char) :=
  let bracket := match cs with
    | '[' :: _ => cs.takeWhile (· ≠ ']')
    | _ => []
  let r := cs.drop bracket.length
  let host := bracket ++ r.takeWhile (· ≠ ':')
  match r.dropWhile (· ≠ ':') with
  | _ :: port => (host, some port)
  | [] => (host, none)

def readPort (scheme : String) : Option (List Char) → Except ParseError (Option Nat)
  | none => .ok none
  | some ds =>
    if !ds.all Numeral.isDigit || 65535 < Numeral.value ds then .error .invalidPort
    else if ds.isEmpty || defaultPort? scheme = some (Numeral.value ds) then .ok none
    else .ok (some (Numeral.value ds))

def readAuthority (scheme : String) (cs : List Char) : Except ParseError Url := do
  let encode (cs : List Char) := Percent.encode Percent.userinfo (String.ofList cs)
  let (user, rest) := match user? cs with
    | some (u, r) => (some u, r)
    | none => (none, cs)
  if user.isSome && rest.isEmpty then throw .emptyHost
  let (host, port) := splitPort rest
  if host.isEmpty && (port.isSome || user.isSome) then throw .emptyHost
  let host ← if isWeb scheme then webHost host else opaqueHost host
  let port ← readPort scheme port
  let user := user.getD []
  return {
    scheme := scheme
    username := encode (user.takeWhile (· ≠ ':'))
    password := encode ((user.dropWhile (· ≠ ':')).drop 1)
    host := some host
    port := port }

/-! ### Paths -/

def isSingleDot (s : String) : Bool := s = "." || s.toLower = "%2e"

def isDoubleDot (s : String) : Bool :=
  s = ".." || s.toLower = ".%2e" || s.toLower = "%2e." || s.toLower = "%2e%2e"

/-- Dots go nowhere or back; after them the path still ends with a slash. -/
def resolve : (done : List String) → List String → List String
  | done, [] => done
  | done, s :: r =>
    let ending := if r.isEmpty then [""] else []
    if isDoubleDot s then resolve (done.dropLast ++ ending) r
    else if isSingleDot s then resolve (done ++ ending) r
    else resolve (done ++ [s]) r

def readSegments (special : Bool) (cs : List Char) : List String :=
  resolve [] ((splitAt (isSlash special) cs).map fun s =>
    Percent.encode Percent.path (String.ofList s))

/-- The path after an authority. -/
def readPath (special : Bool) : List Char → UrlPath
  | [] => .segments (if special then [""] else [])
  | c :: cs => .segments (readSegments special (if isSlash special c then cs else c :: cs))

/-! ### All together -/

/-- Tabs and line ends do not count, nor do controls and spaces at the ends. -/
def cleaned (s : String) : List Char :=
  let isEdge (c : Char) := c.toNat ≤ 32
  let cs := ((s.toList.dropWhile isEdge).reverse.dropWhile isEdge).reverse
  cs.filter fun c => c ≠ '\t' && c ≠ '\n' && c ≠ '\r'

/-- What stands before the first of these characters, and what from there on. -/
def upTo (p : Char → Bool) (cs : List Char) : List Char × List Char :=
  (cs.takeWhile (!p ·), cs.dropWhile (!p ·))

def readHierarchy (scheme : String) (special : Bool) (cs : List Char) : Except ParseError Url := do
  let (authority, path) := upTo (isSlash special) cs
  return { ← readAuthority scheme authority with path := readPath special path }

def readFile (cs : List Char) : Except ParseError Url := do
  match cs with
  | a :: b :: r =>
    if isSlash true a && isSlash true b then
      let (host, path) := upTo (isSlash true) r
      let host ← if host.isEmpty then pure "" else webHost host
      return {
        scheme := "file"
        host := some (if host = "localhost" then "" else host)
        path := readPath true path }
    else return { scheme := "file", host := some "", path := readPath true cs }
  | _ => return { scheme := "file", host := some "", path := readPath true cs }

/-- All but the query and the fragment. -/
def readBody (scheme : String) (cs : List Char) : Except ParseError Url :=
  if scheme = "file" then readFile cs
  else if isWeb scheme then readHierarchy scheme true (cs.dropWhile (isSlash true))
  else
    match cs with
    | '/' :: '/' :: r => readHierarchy scheme false r
    | '/' :: r => .ok { scheme := scheme, path := readPath false ('/' :: r) }
    | r => .ok {
        scheme := scheme
        path := .opaquePath (Percent.encode Percent.control (String.ofList r)) }

def parse (text : String) : Except ParseError Url := do
  match scheme? (cleaned text) with
  | none => .error .noBase
  | some (scheme, cs) =>
    let (cs, fragment) := upTo (· = '#') cs
    let (cs, query) := upTo (· = '?') cs
    let querySet := if isWeb scheme || scheme = "file" then Percent.specialQuery else Percent.query
    let part (escape : UInt8 → Bool) : List Char → Option String
      | _ :: cs => some (Percent.encode escape (String.ofList cs))
      | [] => none
    return { ← readBody scheme cs with
      query := part querySet query
      fragment := part Percent.fragment fragment }

end TradingDesk.Url
