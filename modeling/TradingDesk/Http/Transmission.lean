import TradingDesk.Http.Message
import TradingDesk.Url.Parser

/-! How a request goes to a service, and what comes back. The request names a path below the
service's own URL. -/
namespace TradingDesk

/-- A request as it is written out. -/
structure Transmission where
  method : Method
  target : String
  headers : List (String × String)
  body : Option String
deriving DecidableEq

namespace Transmission

/-- The service's own URL. -/
def serviceUrl (text : String) : Except SettingsFault Url :=
  (Url.parse text).mapError (.baseUrl text)

def withoutSlashes (s : String) : String :=
  String.ofList (s.toList.reverse.dropWhile (· = '/')).reverse

def urlFor (base : Url) (path : String) : Except TransportFault Url :=
  (Url.parse (withoutSlashes base.toText ++ path)).mapError (.path path)

/-- Pairs are added to the query that is there. -/
def withQuery (u : Url) (pairs : List (String × String)) : Url :=
  if pairs.isEmpty then u
  else
    let added := Percent.formQuery pairs
    match u.query with
    | none => { u with query := some added }
    | some q => { u with query := some (if q = "" then added else q ++ "&" ++ added) }

/-! ### Headers -/

def isNameChar (c : Char) : Bool :=
  Url.isAlpha c || Numeral.isDigit c || "!#$%&'*+-.^_\x60|~".toList.contains c

def isPadding (c : Char) : Bool := c = ' ' || c = '\t'

/-- All but the controls. -/
def isValueChar (c : Char) : Bool := isPadding c || (32 < c.toNat && c.toNat ≠ 127)

def unpadded (s : String) : String :=
  String.ofList ((s.toList.dropWhile isPadding).reverse.dropWhile isPadding).reverse

def isHeader (h : String × String) : Bool :=
  h.1 ≠ "" && h.1.toList.all isNameChar && h.2.toList.all isValueChar

/-- Values of one name are joined in order; names are written in small letters. -/
def join (hs : List (String × String)) (h : String × String) : List (String × String) :=
  let name := h.1.toLower
  let value := unpadded h.2
  if hs.any (·.1 = name) then
    hs.map fun g => if g.1 = name then (name, g.2 ++ ", " ++ value) else g
  else hs ++ [(name, value)]

def contentType (r : Request) : List (String × String) :=
  if r.body.isSome then [("content-type", "application/json")] else []

/-! ### There and back -/

def ofRequest (base : Url) (r : Request) : Except Error Transmission := do
  let url ← (urlFor base r.path).mapError .transport
  if !r.headers.all isHeader then throw .connection
  return {
    method := r.method
    target := (withQuery url r.query).target
    headers := (r.headers ++ contentType r).foldl join []
    body := r.body }

/-- Some statuses never come with a body. -/
def received (r : Response) : Response :=
  if r.status = 204 || r.status = 304 then { r with body := [] } else r

end Transmission
end TradingDesk
