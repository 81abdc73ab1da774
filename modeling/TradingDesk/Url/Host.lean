import TradingDesk.Text.Blank
import TradingDesk.Text.Quoted
import TradingDesk.Url.Basic
import TradingDesk.Url.Percent
import TradingDesk.Url.Punycode

/-! Hosts: names, and addresses of four or of sixteen bytes. -/
namespace TradingDesk.Url

/-- The pieces between the characters that `p` holds of. -/
def splitAt (p : Char → Bool) : List Char → List (List Char)
  | [] => [[]]
  | c :: cs =>
    if p c then [] :: splitAt p cs
    else
      match splitAt p cs with
      | piece :: r => (c :: piece) :: r
      | [] => [[c]]

/-! ### Addresses of four bytes -/

def digitBelow? (base : Nat) (c : Char) : Option Nat :=
  (Hex.value? (UInt8.ofNat c.toNat)).filter fun d => d < base && c.toNat < 128

def number? (base : Nat) (ds : List Char) : Option Nat :=
  ds.foldlM (fun n c => (digitBelow? base c).map (n * base + ·)) 0

/-- Decimal, or octal after `0`, or hexadecimal after `0x`. -/
def part? : List Char → Option Nat
  | [] => none
  | '0' :: 'x' :: ds => number? 16 ds
  | '0' :: 'X' :: ds => number? 16 ds
  | '0' :: d :: ds => number? 8 (d :: ds)
  | ds => number? 10 ds

def ipv4Parts (host : List Char) : List (List Char) :=
  let parts := splitAt (· = '.') host
  if 1 < parts.length && parts.getLast? = some [] then parts.dropLast else parts

def isHexNumber : List Char → Bool
  | '0' :: 'x' :: ds => (number? 16 ds).isSome
  | '0' :: 'X' :: ds => (number? 16 ds).isSome
  | _ => false

def endsInNumber (host : List Char) : Bool :=
  match (ipv4Parts host).getLast? with
  | some last => (!last.isEmpty && last.all Numeral.isDigit) || isHexNumber last
  | none => false

/-- All numbers but the last are a byte each; the last fills the rest. -/
def ipv4Value? (parts : List (List Char)) : Option Nat := do
  guard (parts.length ≤ 4)
  let ns ← parts.mapM part?
  let last ← ns.getLast?
  guard (ns.dropLast.all (· < 256) && last < Nat.pow 256 (5 - ns.length))
  return ns.dropLast.zipIdx.foldl (fun v m => v + m.1 * Nat.pow 256 (3 - m.2)) last

def ipv4Text (v : Nat) : String :=
  ".".intercalate ((Bytes.ofNat 4 v).map fun b => Numeral.ofNat b.toNat)

/-! ### Addresses of sixteen bytes -/

/-- One to four digits between colons. -/
def group? (ds : List Char) : Option Nat :=
  if ds.isEmpty || 4 < ds.length then none else number? 16 ds

def byteGroup? (ds : List Char) : Option Nat := do
  guard (!ds.isEmpty && ds.all Numeral.isDigit && (ds.length = 1 || ds.head? ≠ some '0'))
  let n := Numeral.value ds
  if n < 256 then return n else none

/-- The last group may be an address of four bytes. -/
def groups? : List (List Char) → Option (List Nat)
  | [] => some []
  | [last] =>
    if last.contains '.' then do
      match ← (splitAt (· = '.') last).mapM byteGroup? with
      | [a, b, c, d] => return [a * 256 + b, c * 256 + d]
      | _ => none
    else (group? last).map ([·])
  | g :: r => do return (← group? g) :: (← groups? r)

def side? (cs : List Char) : Option (List Nat) :=
  if cs.isEmpty then some [] else groups? (splitAt (· = ':') cs)

/-- What stands before and after the first `::`. -/
def elision? : List Char → Option (List Char × List Char)
  | ':' :: ':' :: r => some ([], r)
  | c :: r => (elision? r).map fun p => (c :: p.1, p.2)
  | [] => none

/-- One `::` stands for as many zeros as are missing, at least one. -/
def ipv6Groups? (cs : List Char) : Option (List Nat) := do
  match elision? cs with
  | some (left, right) =>
    guard (!left.contains '.')
    let a ← side? left
    let b ← side? right
    guard (a.length + b.length < 8)
    return a ++ List.replicate (8 - a.length - b.length) 0 ++ b
  | none =>
    let a ← side? cs
    if a.length = 8 then return a else none

def zeroRun (gs : List Nat) : Nat := (gs.takeWhile (· = 0)).length

/-- Where the first of the longest runs of zeros begins, and its length. -/
def longestRun (gs : List Nat) : Nat × Nat :=
  (List.range gs.length).foldl
    (fun best i =>
      let n := zeroRun (gs.drop i)
      if best.2 < n then (i, n) else best)
    (0, 0)

def groupsText (gs : List Nat) : String :=
  ":".intercalate (gs.map fun g => String.ofList (Text.hexDigits g))

def ipv6Text (gs : List Nat) : String :=
  let (start, n) := longestRun gs
  if n < 2 then groupsText gs
  else groupsText (gs.take start) ++ "::" ++ groupsText (gs.drop (start + n))

def bracketed (cs : List Char) : Except ParseError String :=
  match cs.getLast? with
  | some ']' =>
    match ipv6Groups? cs.dropLast with
    | some gs => .ok ("[" ++ ipv6Text gs ++ "]")
    | none => .error .invalidIpv6
  | _ => .error .invalidIpv6

/-! ### Names -/

/-- What no host may hold. -/
def isDelimiter (c : Char) : Bool := c.toNat = 0 || "\t\n\r #/:<>?@[\\]^|".toList.contains c

/-- What no name may hold. -/
def isForbidden (c : Char) : Bool := c.toNat ≤ 32 || c.toNat = 127 || c = '%' || isDelimiter c

/-- Small letters, for the scripts whose capitals stand in one row. -/
def lowered (c : Char) : Char :=
  let n := c.toNat
  if (0xC0 ≤ n && n ≤ 0xDE && n ≠ 0xD7) || (0x391 ≤ n && n ≤ 0x3A9) || (0x410 ≤ n && n ≤ 0x42F) then
    Char.ofNat (n + 32)
  else if 0x400 ≤ n && n ≤ 0x40F then Char.ofNat (n + 80)
  else c.toLower

def label (cs : List Char) : List Char :=
  if cs.all (·.toNat < 128) then cs else 'x' :: 'n' :: '-' :: '-' :: Punycode.encode cs

def isDot (c : Char) : Bool :=
  c = '.' || c.toNat = 0x3002 || c.toNat = 0xFF0E || c.toNat = 0xFF61

def isNameless (c : Char) : Bool :=
  128 ≤ c.toNat && (c.toNat = 0xFFFD || Text.isBlank c || Text.isHidden c)

def domain (s : String) : Except ParseError (List Char) :=
  let cs := s.toList.map lowered
  if cs.any isForbidden || cs.any isNameless then .error .invalidDomain
  else .ok (['.'].intercalate ((splitAt isDot cs).map label))

/-- The host of a web URL. -/
def webHost : List Char → Except ParseError String
  | [] => .error .emptyHost
  | '[' :: r => bracketed r
  | cs => do
    let name ← domain (Utf8.decodeLossy (Percent.decode (Bytes.ofString (String.ofList cs))))
    if name.isEmpty then .error .emptyHost
    else if endsInNumber name then
      match ipv4Value? (ipv4Parts name) with
      | some v => return ipv4Text v
      | none => .error .invalidIpv4
    else return String.ofList name

/-- The host of another URL, which is kept as it is. -/
def opaqueHost : List Char → Except ParseError String
  | '[' :: r => bracketed r
  | cs =>
    if cs.any isDelimiter then .error .invalidHostCharacter
    else .ok (Percent.encode Percent.control (String.ofList cs))

end TradingDesk.Url
