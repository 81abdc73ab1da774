import TradingDesk.Json.Binary64

/-! JSON values. Members keep their order, and may repeat a name. -/
namespace TradingDesk

/-- A whole number that fits a 64-bit word, or a double. -/
inductive Number where
  | nat (n : Nat)
  | negative (n : Nat)
  | double (x : Binary64)
deriving DecidableEq

/-- The constructor `unreadable` is a string that is no text, or a number beyond all doubles:
it may be skipped, not read. -/
inductive Json where
  | null
  | bool (b : Bool)
  | number (n : Number)
  | string (s : String)
  | array (items : List Json)
  | object (members : List (String × Json))
  | unreadable

namespace Json

def ofNat (n : Nat) : Json := .number (.nat n)

/-! ### Depth and readability -/

mutual

/-- How many brackets enclose the innermost value. -/
def depth : Json → Nat
  | array items => itemsDepth items + 1
  | object members => membersDepth members + 1
  | _ => 0

def itemsDepth : List Json → Nat
  | [] => 0
  | j :: r => max j.depth (itemsDepth r)

def membersDepth : List (String × Json) → Nat
  | [] => 0
  | (_, j) :: r => max j.depth (membersDepth r)

end

mutual

def readable : Json → Bool
  | array items => itemsReadable items
  | object members => membersReadable members
  | unreadable => false
  | _ => true

def itemsReadable : List Json → Bool
  | [] => true
  | j :: r => j.readable && itemsReadable r

def membersReadable : List (String × Json) → Bool
  | [] => true
  | (_, j) :: r => j.readable && membersReadable r

end

/-! ### Sorted members -/

/-- Puts a member into a list sorted by name; a member of that name gives way. -/
def insertMember (name : String) (j : Json) : List (String × Json) → List (String × Json)
  | [] => [(name, j)]
  | (k, v) :: r =>
    if name = k then (name, j) :: r
    else if name < k then (name, j) :: (k, v) :: r
    else (k, v) :: insertMember name j r

def sortMembers (ms : List (String × Json)) : List (String × Json) :=
  ms.foldl (fun acc m => insertMember m.1 m.2 acc) []

mutual

def sorted : Json → Json
  | array items => array (itemsSorted items)
  | object members => object (sortMembers (membersSorted members))
  | j => j

def itemsSorted : List Json → List Json
  | [] => []
  | j :: r => j.sorted :: itemsSorted r

def membersSorted : List (String × Json) → List (String × Json)
  | [] => []
  | (k, j) :: r => (k, j.sorted) :: membersSorted r

end

/-- A value read for its own sake: nested at most `limit` deep, each name once and in order. -/
def valueWithin? (limit : Nat) (j : Json) : Option Json :=
  if j.readable && j.depth ≤ limit then some j.sorted else none

/-- A whole document. -/
def value? (j : Json) : Option Json := j.valueWithin? 127

def member? (name : String) : Json → Option Json
  | object members => members.lookup name
  | _ => none

end Json
end TradingDesk
