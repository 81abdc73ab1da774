import TradingDesk.Text.Numeral

/-! Absolute URLs in their normal form. -/
namespace TradingDesk

/-- A path that cannot be divided is kept as it is; any other is a list of segments. -/
inductive UrlPath where
  | opaquePath (text : String)
  | segments (names : List String)
deriving DecidableEq

/-- The port is absent where it is the scheme's own. -/
structure Url where
  scheme : String
  username : String := ""
  password : String := ""
  host : Option String := none
  port : Option Nat := none
  path : UrlPath := .segments []
  query : Option String := none
  fragment : Option String := none
deriving DecidableEq

namespace Url

inductive ParseError where
  | noBase
  | emptyHost
  | invalidPort
  | invalidDomain
  | invalidHostCharacter
  | invalidIpv4
  | invalidIpv6
deriving DecidableEq

def ParseError.message : ParseError → String
  | noBase => "relative URL without a base"
  | emptyHost => "empty host"
  | invalidPort => "invalid port number"
  | invalidDomain => "invalid international domain name"
  | invalidHostCharacter => "invalid domain character"
  | invalidIpv4 => "invalid IPv4 address"
  | invalidIpv6 => "invalid IPv6 address"

/-! ### Text -/

def userText (u : Url) : String :=
  if u.username = "" && u.password = "" then ""
  else if u.password = "" then u.username ++ "@"
  else u.username ++ ":" ++ u.password ++ "@"

def authorityText (u : Url) : String :=
  match u.host with
  | some h => "//" ++ u.userText ++ h ++ (u.port.elim "" fun p => ":" ++ Numeral.ofNat p)
  | none => ""

def pathText (u : Url) : String :=
  match u.path with
  | .opaquePath s => s
  | .segments ss =>
    let text := String.join (ss.map ("/" ++ ·))
    if u.host.isNone && 1 < ss.length && ss.head? = some "" then "/." ++ text else text

/-- The path and the query, as a request asks for them. -/
def target (u : Url) : String := u.pathText ++ u.query.elim "" ("?" ++ ·)

def toText (u : Url) : String :=
  u.scheme ++ ":" ++ u.authorityText ++ u.target ++ u.fragment.elim "" ("#" ++ ·)

end Url
end TradingDesk
