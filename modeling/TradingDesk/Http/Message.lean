import TradingDesk.Bytes.Utf8
import TradingDesk.Error
import TradingDesk.Json.Parser
import TradingDesk.Json.Record

/-! Requests, which name a path below the service's own URL, and the answers to them. -/
namespace TradingDesk

inductive Method where
  | get
  | post
  | delete
deriving DecidableEq

def Method.name : Method → String
  | get => "GET"
  | post => "POST"
  | delete => "DELETE"

/-! ### Headers -/

/-- Names and values, in the order of the names. -/
abbrev Headers := List (String × String)

namespace Headers

/-- A header of that name gives way. -/
def insert (name value : String) : Headers → Headers
  | [] => [(name, value)]
  | (k, v) :: r =>
    if name = k then (name, value) :: r
    else if name < k then (name, value) :: (k, v) :: r
    else (k, v) :: insert name value r

def ofList (hs : List (String × String)) : Headers := hs.foldl (fun t h => t.insert h.1 h.2) []

/-- The headers of `added` win. -/
def merge (hs added : Headers) : Headers := added.foldl (fun t h => Headers.insert h.1 h.2 t) hs

end Headers

structure Request where
  method : Method
  path : String
  headers : Headers := []
  query : List (String × String) := []
  body : Option String := none
deriving DecidableEq

namespace Request

def get (path : String) (query : List (String × String) := []) : Request where
  method := .get
  path := path
  query := query

def post (path body : String) : Request where
  method := .post
  path := path
  body := some body

def delete (path : String) (body : Option String) : Request where
  method := .delete
  path := path
  body := body

def withHeaders (r : Request) (hs : Headers) : Request :=
  { r with headers := r.headers.merge hs }

end Request

/-! ### Responses -/

structure Response where
  status : Nat
  body : Bytes
deriving DecidableEq

/-- What a service says about a request that it refuses: the first of three members that is not
null, if the body is an object that has one, and else the body. -/
def refusalReason (body : Bytes) : String :=
  let stated := do
    let j ← (← Json.parse? body).value?
    ["error", "message", "msg"].findSome? fun k =>
      match j.member? k with
      | some (.string s) => some s
      | some .null => none
      | some v => some v.text
      | none => none
  stated.getD (Utf8.decodeLossy body)

def Error.ofRefusal (status : Nat) (body : Bytes) : Error :=
  .refused status (refusalReason body) (Utf8.decodeLossy body)

namespace Response

def succeeded (r : Response) : Bool := 200 ≤ r.status && r.status < 300

def checked (r : Response) : Except Error Response :=
  if r.succeeded then .ok r else .error (.ofRefusal r.status r.body)

/-- The body of a response that succeeded, if `read` can make sense of it. -/
def decode {α : Type} (read : Json → Option α) (r : Response) : Except Error α := do
  let r ← r.checked
  match Json.parse? r.body >>= read with
  | some a => return a
  | none => .error .unreadable

end Response
end TradingDesk
