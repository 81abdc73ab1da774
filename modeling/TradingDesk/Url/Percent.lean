import TradingDesk.Bytes.Hex
import TradingDesk.Bytes.Utf8

/-! Percent-encoding: a byte outside the set that a part of a URL admits is written as `%` and two
digits. Each part has its own set; none admits controls or bytes beyond ASCII. -/
namespace TradingDesk.Percent

def upperDigit (n : Nat) : Char := Char.ofNat (if n < 10 then 48 + n else 55 + n)

def encoded (b : UInt8) : List Char := ['%', upperDigit (b.toNat / 16), upperDigit (b.toNat % 16)]

/-- Encodes the bytes that `escape` holds of. -/
def encode (escape : UInt8 → Bool) (s : String) : String :=
  String.ofList ((Bytes.ofString s).flatMap fun b =>
    if escape b then encoded b else [Char.ofNat b.toNat])

def decode : Bytes → Bytes
  | 37 :: a :: b :: r =>
    match Hex.value? a, Hex.value? b with
    | some x, some y => UInt8.ofNat (x * 16 + y) :: decode r
    | _, _ => 37 :: decode (a :: b :: r)
  | b :: r => b :: decode r
  | [] => []

/-! ### Sets -/

def isAmong (cs : String) (b : UInt8) : Bool := cs.toList.contains (Char.ofNat b.toNat)

def control (b : UInt8) : Bool := b < 0x20 || 0x7E < b

def fragment (b : UInt8) : Bool := control b || isAmong " \"<>\x60" b

def query (b : UInt8) : Bool := control b || isAmong " \"#<>" b

/-- A web URL's query escapes the single quote too. -/
def specialQuery (b : UInt8) : Bool := query b || b = 39

def path (b : UInt8) : Bool := query b || isAmong "?^\x60\x7b\x7d" b

def userinfo (b : UInt8) : Bool := path b || isAmong "/:;=@[\\]|" b

/-! ### Forms -/

/-- What a form leaves as it is. -/
def isFormPlain (b : UInt8) : Bool :=
  (48 ≤ b && b ≤ 57) || (65 ≤ b && b ≤ 90) || (97 ≤ b && b ≤ 122) || isAmong "*-._" b

def formText (s : String) : String :=
  String.ofList ((Bytes.ofString s).flatMap fun b =>
    if isFormPlain b then [Char.ofNat b.toNat] else if b = 32 then ['+'] else encoded b)

/-- Pairs as the query of a URL. -/
def formQuery (pairs : List (String × String)) : String :=
  "&".intercalate (pairs.map fun p => formText p.1 ++ "=" ++ formText p.2)

end TradingDesk.Percent
