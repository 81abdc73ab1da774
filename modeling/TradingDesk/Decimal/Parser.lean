import TradingDesk.Decimal.Basic
import TradingDesk.Text.Numeral

/-! Reading a decimal. Digits may be separated by underscores; digits past the 28th place, or
past the 96th bit, are rounded away with the first of them and the rest is not read. A text
with an `e` is a decimal and a power of ten. -/
namespace TradingDesk.Decimal

inductive ParseError where
  | empty
  | noDigits
  | unknownCharacter
  | leadingSeparator
  | secondPoint
  | tooManyDigits
  | roundedTooLarge
  | badExponent
  | tooManyPlaces (places : Nat)
  | tooLarge
deriving DecidableEq

def ParseError.message : ParseError → String
  | empty => "Invalid decimal: empty"
  | noDigits => "Invalid decimal: no digits found"
  | unknownCharacter => "Invalid decimal: unknown character"
  | leadingSeparator => "Invalid decimal: must start lead with a number"
  | secondPoint => "Invalid decimal: two decimal points"
  | tooManyDigits => "Invalid decimal: overflow from too many digits"
  | roundedTooLarge => "Invalid decimal: overflow from mantissa after rounding"
  | badExponent => "Failed to parse"
  | tooManyPlaces n =>
    "Scale exceeds the maximum precision allowed: " ++ Numeral.ofNat n ++ " > 28"
  | tooLarge => "Number exceeds maximum value that can be represented."

/-! ### Digits -/

/-- Drops the digits from `c` on, rounding half up. -/
def roundOff (data scale : Nat) (c : Char) : Except ParseError (Nat × Nat) :=
  if !(Numeral.isDigit c || c == '_' || c == '.') then .error .unknownCharacter
  else if Numeral.isDigit c && 5 ≤ Numeral.digitValue c then
    if data + 1 < coeffBound then .ok (data + 1, scale)
    else if scale = 0 then .error .roundedTooLarge
    else .ok ((data + 5) / 10, scale - 1)
  else .ok (data, scale)

/-- Reads on from the digits `data`, `scale` of them after a point; `seen` says whether there
was a digit. -/
def scan : List Char → (data scale : Nat) → (point seen : Bool) → Except ParseError (Nat × Nat)
  | [], data, scale, _, seen => if seen then .ok (data, scale) else .error .noDigits
  | c :: cs, data, scale, point, seen =>
    if point && maxScale ≤ scale then roundOff data scale c
    else if Numeral.isDigit c then
      let next := data * 10 + Numeral.digitValue c
      if next < coeffBound then scan cs next (if point then scale + 1 else 0) point true
      else if point then roundOff data scale c
      else .error .tooManyDigits
    else if c = '.' then
      if point then .error .secondPoint else scan cs data scale true seen
    else if c = '_' then
      if seen then scan cs data scale point true else .error .leadingSeparator
    else .error .unknownCharacter

def ofScan (negative : Bool) (r : Nat × Nat) : Except ParseError Decimal :=
  match ofCoeff? (if negative then -(r.1 : Int) else r.1) r.2 with
  | some x => .ok x
  | none => .error .tooLarge

def parsePlain : List Char → Except ParseError Decimal
  | [] => .error .empty
  | '-' :: cs => do ofScan true (← scan cs 0 0 false false)
  | '+' :: cs => do ofScan false (← scan cs 0 0 false false)
  | cs => do ofScan false (← scan cs 0 0 false false)

/-! ### Powers of ten -/

def isExponentMark (c : Char) : Bool := c = 'e' || c = 'E'

/-- A scale is counted in 32 bits. -/
def withScale (x : Decimal) (scale : Nat) : Except ParseError Decimal :=
  match ofCoeff? x.coeff (scale % 4294967296) with
  | some y => .ok y
  | none => .error (.tooManyPlaces (scale % 4294967296))

def raise (x : Decimal) (exponent : Nat) : Except ParseError Decimal :=
  if exponent ≤ x.scale then withScale x (x.scale - exponent)
  else if maxScale < exponent then .error (.tooManyPlaces exponent)
  else
    match ofCoeff? (x.coeff * tenTo (exponent - x.scale)) 0 with
    | some y => .ok y
    | none => .error .tooLarge

def parseScientific (base exponent : List Char) : Except ParseError Decimal := do
  let x ← parsePlain base
  match exponent with
  | '-' :: ds =>
    match Numeral.bounded? 4294967296 ds with
    | some n => withScale x (x.scale + n)
    | none => .error .badExponent
  | ds =>
    match Numeral.bounded? 4294967296 ds with
    | some n => raise x n
    | none => .error .badExponent

def parse (text : String) : Except ParseError Decimal :=
  let cs := text.toList
  match cs.dropWhile (!isExponentMark ·) with
  | [] => parsePlain cs
  | _ :: exponent => parseScientific (cs.takeWhile (!isExponentMark ·)) exponent

end TradingDesk.Decimal
