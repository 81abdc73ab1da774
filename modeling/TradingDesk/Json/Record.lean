import TradingDesk.Json.Basic

/-! Reading records. A record is an object whose members have known names, in any order, each
at most once, among others that are skipped; or the bare list of its values, from which the
last ones may be missing. -/
namespace TradingDesk.Json

variable {α : Type}

def occurrences (name : String) (ms : List (String × Json)) : Nat :=
  ms.countP (·.1 == name)

/-- The values of the named members, none for a missing one. -/
def fields? (names : List String) : Json → Option (List (Option Json))
  | object ms =>
    if names.all (occurrences · ms ≤ 1) then some (names.map (ms.lookup ·)) else none
  | array items =>
    if items.length ≤ names.length then
      some (items.map some ++ List.replicate (names.length - items.length) none)
    else none
  | _ => none

/-! ### One member -/

def required (read : Json → Option α) (field : Option Json) : Option α := field.bind read

/-- A missing member has the default value; `null` is not missing. -/
def withDefault (default : α) (read : Json → Option α) : Option Json → Option α
  | none => some default
  | some j => read j

def orNull (read : Json → Option α) : Option Json → Option (Option α)
  | none => some none
  | some null => some none
  | some j => (read j).map some

/-! ### Values -/

def bool? : Json → Option Bool
  | bool b => some b
  | _ => none

def text? : Json → Option String
  | string s => some s
  | _ => none

def natBelow? (bound : Nat) : Json → Option Nat
  | number (.nat n) => if n < bound then some n else none
  | _ => none

def word64? (j : Json) : Option UInt64 :=
  (natBelow? 18446744073709551616 j).map UInt64.ofNat

def byte? (j : Json) : Option UInt8 := (natBelow? 256 j).map UInt8.ofNat

/-- A signed 64-bit number. -/
def signed64? : Json → Option Int
  | number (.nat n) => if n < 9223372036854775808 then some n else none
  | number (.negative n) => if n ≤ 9223372036854775808 then some (-n) else none
  | _ => none

def list? (read : Json → Option α) : Json → Option (List α)
  | array items => items.mapM read
  | _ => none

/-- A table of texts; of a repeated name the last counts. -/
def table? : Json → Option (List (String × String))
  | object ms => ms.foldlM (fun t m => (text? m.2).map (fun v => put m.1 v t)) []
  | _ => none
where
  put (k v : String) : List (String × String) → List (String × String)
    | [] => [(k, v)]
    | (k', v') :: r => if k = k' then (k, v) :: r else (k', v') :: put k v r

/-- One of a set of names; an object `name: null` will do. -/
def name? : Json → Option String
  | string s => some s
  | object [(s, null)] => some s
  | _ => none

end TradingDesk.Json
