import TradingDesk.Decimal.Basic
import TradingDesk.Text.Numeral

/-! Double-precision numbers, read from decimal digits to the nearest and written with the
fewest digits that read back. The value is `mantissa * 2 ^ exponent`. -/
namespace TradingDesk

structure Binary64 where
  negative : Bool
  mantissa : Nat
  exponent : Int
deriving DecidableEq

namespace Binary64

def zero (negative : Bool) : Binary64 := ⟨negative, 0, -1074⟩

def twoTo (n : Nat) : Nat := Nat.pow 2 n

/-- The natural number nearest to `n / d`, the even one of two. -/
def nearest (n d : Nat) : Nat :=
  let q := n / d
  let r := n % d
  if d < 2 * r || (2 * r == d && q % 2 == 1) then q + 1 else q

/-- `n / d` in units of `2 ^ e`, as a fraction. -/
def inUnits (n d : Nat) (e : Int) : Nat × Nat :=
  if e < 0 then (n * twoTo e.natAbs, d) else (n, d * twoTo e.natAbs)

/-- The double nearest to `n / d`; none from half a unit above the largest. -/
def ofFraction? (negative : Bool) (n d : Nat) : Option Binary64 :=
  if n = 0 then some (zero negative)
  else
    let guess : Int := (n.log2 : Int) - d.log2 - 52
    let coarse := inUnits n d guess
    let fine := if coarse.1 / coarse.2 < 4503599627370496 then guess - 1 else guess
    let e := if fine < -1074 then -1074 else fine
    let u := inUnits n d e
    let m := nearest u.1 u.2
    let r : Binary64 :=
      if m = 9007199254740992 then ⟨negative, 4503599627370496, e + 1⟩ else ⟨negative, m, e⟩
    if 971 < r.exponent then none else some r

/-- The double nearest to `digits * 10 ^ power`. -/
def ofDecimal? (negative : Bool) (digits : Nat) (power : Int) : Option Binary64 :=
  let size : Int := (Numeral.digits digits).length + power
  if digits = 0 || size < -400 then some (zero negative)
  else if 400 < size then none
  else if power < 0 then ofFraction? negative digits (tenTo power.natAbs)
  else ofFraction? negative (digits * tenTo power.natAbs) 1

/-! ### Shortest digits -/

/-- The least `p` with `n / d < 10 ^ p`. -/
def magnitude (n d : Nat) : Int :=
  if d ≤ n then (Numeral.digits (n / d)).length
  else 1 - ((Numeral.digits ((d + n - 1) / n - 1)).length : Int)

/-- `n / d` in units of `10 ^ k`, as a fraction. -/
def inTens (n d : Nat) (k : Int) : Nat × Nat :=
  if k < 0 then (n * tenTo k.natAbs, d) else (n, d * tenTo k.natAbs)

/-- A value between the two that it must not be confused with, in fourths of a unit. -/
structure Interval where
  low : Nat
  value : Nat
  high : Nat
  denominator : Nat
  closed : Bool

def interval (x : Binary64) : Interval :=
  let m := x.mantissa
  let below := if m = 4503599627370496 && -1074 < x.exponent then 4 * m - 1 else 4 * m - 2
  let up := if x.exponent < 0 then 1 else twoTo x.exponent.natAbs
  let down := if x.exponent < 0 then twoTo x.exponent.natAbs else 1
  ⟨below * up, 4 * m * up, (4 * m + 2) * up, 4 * down, m % 2 = 0⟩

/-- Whether `a * 10 ^ k` lies in the interval. -/
def Interval.holds (i : Interval) (a : Nat) (k : Int) : Bool :=
  let low := inTens i.low i.denominator k
  let high := inTens i.high i.denominator k
  (if i.closed then low.1 ≤ a * low.2 else low.1 < a * low.2) &&
    (if i.closed then a * high.2 ≤ high.1 else a * high.2 < high.1)

/-- The first grid, from `10 ^ k` downwards, that has a point in the interval. -/
def Interval.shortestFrom (i : Interval) : (fuel : Nat) → (k : Int) → Nat × Int
  | 0, k =>
    let v := inTens i.value i.denominator k
    (nearest v.1 v.2, k)
  | fuel + 1, k =>
    let v := inTens i.value i.denominator k
    let a := v.1 / v.2
    match i.holds a k, i.holds (a + 1) k with
    | true, true => (nearest v.1 v.2, k)
    | true, false => (a, k)
    | false, true => (a + 1, k)
    | false, false => i.shortestFrom fuel (k - 1)

def trimZeros : (fuel n : Nat) → (k : Int) → Nat × Int
  | 0, n, k => (n, k)
  | fuel + 1, n, k => if n % 10 = 0 then trimZeros fuel (n / 10) (k + 1) else (n, k)

/-- The fewest digits `a`, with the nearest value, such that `a * 10 ^ k` reads back. -/
def shortest (x : Binary64) : Nat × Int :=
  let i := x.interval
  let r := i.shortestFrom 17 (magnitude i.value i.denominator - 1)
  trimZeros 17 r.1 r.2

/-! ### Text -/

def signed (x : Binary64) (cs : List Char) : String :=
  String.ofList (if x.negative then '-' :: cs else cs)

def zeros (n : Nat) : List Char := List.replicate n '0'

/-- Digits without an exponent; `whole` ends a number without places. -/
def positional (a : Nat) (k : Int) (whole : List Char) : List Char :=
  let ds := Numeral.digits a
  let n := k.natAbs
  if 0 ≤ k then ds ++ zeros n ++ whole
  else if n < ds.length then ds.take (ds.length - n) ++ '.' :: ds.drop (ds.length - n)
  else '0' :: '.' :: zeros (n - ds.length) ++ ds

def exponential (a : Nat) (k : Int) : List Char :=
  let ds := Numeral.digits a
  let e := k + (ds.length - 1)
  let point := if ds.length = 1 then [] else '.' :: ds.drop 1
  ds.take 1 ++ point ++ 'e' :: (if e < 0 then '-' else '+') :: Numeral.digits e.natAbs

/-- Without an exponent and, for a whole number, without places. -/
def plainText (x : Binary64) : String :=
  if x.mantissa = 0 then x.signed ['0']
  else
    let s := x.shortest
    x.signed (positional s.1 s.2 [])

/-- With an exponent below `10 ^ -5` and from `10 ^ 16`, and a place for a whole number. -/
def jsonText (x : Binary64) : String :=
  if x.mantissa = 0 then x.signed ['0', '.', '0']
  else
    let s := x.shortest
    let p := s.2 + (Numeral.digits s.1).length
    x.signed (if -5 < p && p ≤ 16 then positional s.1 s.2 ['.', '0'] else exponential s.1 s.2)

end Binary64
end TradingDesk
