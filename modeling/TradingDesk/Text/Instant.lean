import TradingDesk.Text.Blank
import TradingDesk.Text.Numeral

/-! Instants, read from a date, a time and an offset and written in universal time. A leap
second is the second before it with a thousand million nanoseconds more. -/
namespace TradingDesk

structure Instant where
  seconds : Int
  nanos : Nat
deriving DecidableEq

namespace Instant

/-! ### The calendar -/

def isLeapYear (y : Int) : Bool := y % 4 = 0 && (y % 100 ≠ 0 || y % 400 = 0)

def monthLength (y : Int) (m : Nat) : Nat :=
  if m = 2 then (if isLeapYear y then 29 else 28)
  else if m = 4 || m = 6 || m = 9 || m = 11 then 30 else 31

/-- Days from the start of the year 0 to the start of a year that begins in March. -/
def marchDays (y : Int) : Int := 365 * y + y / 4 - y / 100 + y / 400

/-- Days since 1970-01-01. -/
def dayNumber (y : Int) (m d : Nat) : Int :=
  let y' := if m ≤ 2 then y - 1 else y
  let m' := if m ≤ 2 then m + 9 else m - 3
  marchDays y' + ((153 * m' + 2) / 5 : Nat) + d - 719469

/-- The year, month and day of a day number. -/
def civil (days : Int) : Int × Nat × Nat :=
  let z := days + 719468
  let era := z / 146097
  let doe := (z % 146097).toNat
  let yoe := (doe - doe / 1460 + doe / 36524 - doe / 146096) / 365
  let doy := doe - (365 * yoe + yoe / 4 - yoe / 100)
  let mp := (5 * doy + 2) / 153
  let m := if mp < 10 then mp + 3 else mp - 9
  let y := era * 400 + yoe
  (if m ≤ 2 then y + 1 else y, m, doy - (153 * mp + 2) / 5 + 1)

def yearInRange (y : Int) : Bool := -262143 ≤ y && y ≤ 262142

/-! ### Reading -/

/-- A number of at most `width` digits. -/
def number? (width : Nat) (cs : List Char) : Option (Nat × List Char) :=
  let ds := (cs.take width).takeWhile Numeral.isDigit
  if ds.isEmpty then none else some (Numeral.value ds, cs.drop ds.length)

def field? (width : Nat) (cs : List Char) : Option (Nat × List Char) :=
  number? width (Text.trimStart cs)

def year? (cs : List Char) : Option (Int × List Char) :=
  match Text.trimStart cs with
  | '-' :: r => (number? r.length r).map fun p => (-(p.1 : Int), p.2)
  | '+' :: r => (number? r.length r).map fun p => ((p.1 : Int), p.2)
  | r => (number? 4 r).map fun p => ((p.1 : Int), p.2)

def mark? (c : Char) (cs : List Char) : Option (List Char) :=
  match Text.trimStart cs with
  | d :: r => if d = c then some r else none
  | [] => none

/-- The nanoseconds after a point; digits past the ninth are skipped. -/
def nanos? : List Char → Option (Nat × List Char)
  | '.' :: r =>
    (number? 9 r).map fun p =>
      (p.1 * (Nat.pow 10 (9 - (r.length - p.2.length))), p.2.dropWhile Numeral.isDigit)
  | r => some (0, r)

def twoDigits? : List Char → Option (Nat × List Char)
  | a :: b :: r =>
    if Numeral.isDigit a && Numeral.isDigit b then some (Numeral.value [a, b], r) else none
  | _ => none

/-- Seconds east of universal time. -/
def offset? (cs : List Char) : Option (Int × List Char) :=
  match cs with
  | 'Z' :: r => some (0, r)
  | 'z' :: r => some (0, r)
  | c :: r =>
    if (cs.take 3).map Char.toUpper = ['U', 'T', 'C'] then some (0, cs.drop 3)
    else if c = '+' || c = '-' || c = Char.ofNat 0x2212 then do
      let (h, r) ← twoDigits? r
      let (m, r) ← twoDigits? (r.dropWhile fun c => c = ':' || Text.isBlank c)
      guard (m < 60)
      let s : Int := h * 3600 + m * 60
      return (if c = '+' then s else -s, r)
    else none
  | [] => none

def parse? (text : String) : Option Instant := do
  let (y, r) ← year? text.toList
  let (m, r) ← field? 2 (← mark? '-' r)
  let (d, r) ← field? 2 (← mark? '-' r)
  let r ← match r with
    | c :: r => if c = 't' || c = 'T' || c = ' ' then some r else none
    | [] => none
  let (hh, r) ← field? 2 r
  let (mm, r) ← field? 2 (← mark? ':' r)
  let (ss, r) ← field? 2 (← mark? ':' r)
  let (ns, r) ← nanos? r
  let (off, r) ← offset? (Text.trimStart r)
  guard (Text.trimStart r).isEmpty
  guard (yearInRange y && 1 ≤ m && m ≤ 12 && 1 ≤ d && d ≤ monthLength y m)
  guard (hh ≤ 23 && mm ≤ 59 && ss ≤ 60 && -86400 < off && off < 86400)
  let t : Int := dayNumber y m d * 86400 + (hh * 3600 + mm * 60 + min ss 59 : Nat) - off
  guard (yearInRange (civil (t / 86400)).1)
  return ⟨t, if ss = 60 then ns + 1000000000 else ns⟩

/-! ### Writing -/

def yearText (y : Int) : List Char :=
  if 0 ≤ y && y ≤ 9999 then Numeral.padded 4 y.natAbs
  else (if y < 0 then '-' else '+') :: Numeral.padded 4 y.natAbs

/-- As few groups of three digits as show the nanoseconds. -/
def nanosText (n : Nat) : List Char :=
  if n = 0 then []
  else if n % 1000000 = 0 then '.' :: Numeral.padded 3 (n / 1000000)
  else if n % 1000 = 0 then '.' :: Numeral.padded 6 (n / 1000)
  else '.' :: Numeral.padded 9 n

def toText (i : Instant) : String :=
  let (y, m, d) := civil (i.seconds / 86400)
  let s := (i.seconds % 86400).toNat
  let leap := 1000000000 ≤ i.nanos
  let ss := if leap then s % 60 + 1 else s % 60
  let ns := if leap then i.nanos - 1000000000 else i.nanos
  String.ofList (yearText y ++ '-' :: Numeral.padded 2 m ++ '-' :: Numeral.padded 2 d ++ 'T' ::
    Numeral.padded 2 (s / 3600) ++ ':' :: Numeral.padded 2 (s / 60 % 60) ++ ':' :: Numeral.padded 2 ss ++
    nanosText ns ++ ['Z'])

end Instant
end TradingDesk
