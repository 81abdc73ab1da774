import TradingDesk.Bytes.Utf8
import TradingDesk.Bytes.Hex
import TradingDesk.Json.Basic

/-! Reading JSON from bytes. The text must be well formed throughout; a string or a number that
has no value is kept as `unreadable`. -/
namespace TradingDesk.Json

def isSpace (b : UInt8) : Bool := b == 32 || b == 10 || b == 13 || b == 9

def skipSpace (bs : Bytes) : Bytes := bs.dropWhile isSpace

/-! ### Strings -/

/-- A piece of a string: a byte as it stands, or a 16-bit code unit. -/
inductive Piece where
  | byte (b : UInt8)
  | unit (u : Nat)

def unit? (a b c d : UInt8) : Option Nat := do
  let w ← Hex.value? a
  let x ← Hex.value? b
  let y ← Hex.value? c
  let z ← Hex.value? d
  return ((w * 16 + x) * 16 + y) * 16 + z

def escape? (b : UInt8) : Option UInt8 :=
  if b = 34 || b = 92 || b = 47 then some b
  else if b = 98 then some 8
  else if b = 102 then some 12
  else if b = 110 then some 10
  else if b = 114 then some 13
  else if b = 116 then some 9
  else none

/-- The pieces up to the closing quote, and what follows it. -/
def pieces? : Bytes → Option (List Piece × Bytes)
  | [] => none
  | 34 :: r => some ([], r)
  | 92 :: 117 :: a :: b :: c :: d :: r => do
    let u ← unit? a b c d
    let (ps, r) ← pieces? r
    return (.unit u :: ps, r)
  | 92 :: e :: r => do
    let b ← escape? e
    let (ps, r) ← pieces? r
    return (.byte b :: ps, r)
  | b :: r =>
    if b < 32 || b = 92 then none
    else do
      let (ps, r) ← pieces? r
      return (.byte b :: ps, r)

def charBytes (n : Nat) : Bytes := Bytes.ofString (String.singleton (Char.ofNat n))

/-- Code units make characters, in pairs where they are surrogates. -/
def pieceBytes? : List Piece → Option Bytes
  | [] => some []
  | .byte b :: r => (b :: ·) <$> pieceBytes? r
  | .unit u :: .unit v :: r =>
    if 0xD800 ≤ u && u ≤ 0xDBFF then
      if 0xDC00 ≤ v && v ≤ 0xDFFF then
        (charBytes ((u - 0xD800) * 1024 + (v - 0xDC00) + 0x10000) ++ ·) <$> pieceBytes? r
      else none
    else if 0xDC00 ≤ u && u ≤ 0xDFFF then none
    else (charBytes u ++ ·) <$> pieceBytes? (.unit v :: r)
  | .unit u :: r =>
    if 0xD800 ≤ u && u ≤ 0xDFFF then none else (charBytes u ++ ·) <$> pieceBytes? r

def pieceText? (ps : List Piece) : Option String := pieceBytes? ps >>= Utf8.decode?

/-! ### Numbers -/

def isDigitByte (b : UInt8) : Bool := 48 ≤ b && b ≤ 57

def digitsValue (bs : Bytes) : Nat := bs.foldl (fun n b => n * 10 + (b.toNat - 48)) 0

/-- The digits after a point, if there is one. -/
def fraction? : Bytes → Option (Bytes × Bytes)
  | 46 :: r =>
    let ds := r.takeWhile isDigitByte
    if ds.isEmpty then none else some (ds, r.dropWhile isDigitByte)
  | r => some ([], r)

def exponentDigits? (negative : Bool) (r : Bytes) : Option (Option Int × Bytes) :=
  let ds := r.takeWhile isDigitByte
  if ds.isEmpty then none
  else
    let n : Int := digitsValue ds
    some (some (if negative then -n else n), r.dropWhile isDigitByte)

/-- The power of ten, none where the number has no exponent. -/
def exponent? : Bytes → Option (Option Int × Bytes)
  | b :: r =>
    if b = 101 || b = 69 then
      match r with
      | 43 :: r => exponentDigits? false r
      | 45 :: r => exponentDigits? true r
      | r => exponentDigits? false r
    else some (none, b :: r)
  | [] => some (none, [])

/-- A whole number without fraction and exponent stays whole if it fits a 64-bit word. -/
def ofNumeral (negative : Bool) (whole fraction : Bytes) (exponent : Option Int) : Json :=
  let n := digitsValue whole
  match fraction, exponent, negative with
  | [], none, false =>
    if n < 18446744073709551616 then number (.nat n) else double false n 0
  | [], none, true =>
    if 0 < n && n ≤ 9223372036854775808 then number (.negative n) else double true n 0
  | f, e, neg => double neg (digitsValue (whole ++ f)) (e.getD 0 - f.length)
where
  double (neg : Bool) (digits : Nat) (power : Int) : Json :=
    match Binary64.ofDecimal? neg digits power with
    | some x => number (.double x)
    | none => unreadable

def number? (negative : Bool) (bs : Bytes) : Option (Json × Bytes) := do
  let whole := bs.takeWhile isDigitByte
  let r := bs.dropWhile isDigitByte
  guard (!whole.isEmpty && (whole.length == 1 || whole.head? != some 48))
  let (f, r) ← fraction? r
  let (e, r) ← exponent? r
  return (ofNumeral negative whole f e, r)

/-! ### Values -/

def literal? (word : Bytes) (j : Json) (bs : Bytes) : Option (Json × Bytes) :=
  if bs.take word.length = word then some (j, bs.drop word.length) else none

/-- An object with a name that is no text is itself unreadable. -/
def ofMembers (ms : List (Option String × Json)) : Json :=
  match ms.mapM (fun m => m.1.map (·, m.2)) with
  | some ms => object ms
  | none => unreadable

def string? (r : Bytes) : Option (Option String × Bytes) := do
  let (ps, r) ← pieces? r
  return (pieceText? ps, r)

mutual

def value?From : (fuel : Nat) → Bytes → Option (Json × Bytes)
  | 0, _ => none
  | fuel + 1, bs =>
    match skipSpace bs with
    | 110 :: r => literal? [117, 108, 108] null r
    | 116 :: r => literal? [114, 117, 101] (bool true) r
    | 102 :: r => literal? [97, 108, 115, 101] (bool false) r
    | 34 :: r => do
      let (s, r) ← string? r
      return (s.elim unreadable string, r)
    | 91 :: r =>
      match skipSpace r with
      | 93 :: r => some (array [], r)
      | r => do
        let (items, r) ← items?From fuel r
        return (array items, r)
    | 123 :: r =>
      match skipSpace r with
      | 125 :: r => some (object [], r)
      | r => do
        let (ms, r) ← members?From fuel r
        return (ofMembers ms, r)
    | 45 :: r => number? true r
    | r => number? false r

def items?From : (fuel : Nat) → Bytes → Option (List Json × Bytes)
  | 0, _ => none
  | fuel + 1, bs => do
    let (j, r) ← value?From fuel bs
    match skipSpace r with
    | 93 :: r => return ([j], r)
    | 44 :: r => do
      let (js, r) ← items?From fuel r
      return (j :: js, r)
    | _ => none

def members?From : (fuel : Nat) → Bytes → Option (List (Option String × Json) × Bytes)
  | 0, _ => none
  | fuel + 1, bs =>
    match skipSpace bs with
    | 34 :: r => do
      let (k, r) ← string? r
      match skipSpace r with
      | 58 :: r => do
        let (j, r) ← value?From fuel r
        match skipSpace r with
        | 125 :: r => return ([(k, j)], r)
        | 44 :: r => do
          let (ms, r) ← members?From fuel r
          return ((k, j) :: ms, r)
        | _ => none
      | _ => none
    | _ => none

end

/-- One value and nothing else. Each step of the reader takes a byte, so the length is fuel
enough. -/
def parse? (bs : Bytes) : Option Json := do
  let (j, r) ← value?From (bs.length + 1) bs
  guard (skipSpace r).isEmpty
  return j

end TradingDesk.Json
