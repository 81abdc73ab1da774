/-! Decimal numerals: the digits of a natural number, and the numbers read back from digits. -/
namespace TradingDesk.Numeral

def digitChar (d : Nat) : Char := Char.ofNat (48 + d)

def digitValue (c : Char) : Nat := c.toNat - 48

/-- Only the ten ASCII digits count. -/
def isDigit (c : Char) : Bool := 48 ≤ c.toNat && c.toNat ≤ 57

def digits (n : Nat) : List Char :=
  if n < 10 then [digitChar n] else digits (n / 10) ++ [digitChar (n % 10)]

def value (ds : List Char) : Nat := ds.foldl (fun n c => n * 10 + digitValue c) 0

def ofNat (n : Nat) : String := String.ofList (digits n)

/-- At least `width` digits, with zeros in front. -/
def padded (width n : Nat) : List Char :=
  List.replicate (width - (digits n).length) '0' ++ digits n

/-- A nonempty run of digits below `bound`; one leading plus is allowed. -/
def bounded? (bound : Nat) (text : List Char) : Option Nat :=
  let ds := match text with
    | '+' :: r => r
    | r => r
  if ds.isEmpty || !ds.all isDigit || bound ≤ value ds then none else some (value ds)

def below64? (text : String) : Option Nat := bounded? 18446744073709551616 text.toList

def below8? (text : String) : Option Nat := bounded? 256 text.toList

end TradingDesk.Numeral
