import TradingDesk.Error
import TradingDesk.Market.Rounding
import TradingDesk.Order.Basic

/-! What an order gives and takes: the maker's and the taker's amount, and their counts of base
units. A buyer gives collateral and takes tokens. -/
namespace TradingDesk

structure Amounts where
  maker : Decimal
  taker : Decimal
deriving DecidableEq

namespace Amounts

def product (x y : Decimal) : Except Error Decimal :=
  match x.mul? y with
  | some z => .ok z
  | none => .error (.invalid .amountOverflow)

def quotient (x y : Decimal) : Except Error Decimal :=
  match x.div? y with
  | some z => .ok z
  | none => .error (.invalid .amountOverflow)

def inRange (x : Option Decimal) : Except Error Decimal :=
  match x with
  | some z => .ok z
  | none => .error .outOfRange

/-- The seller gives the size and takes its worth. -/
def sale (size price : Decimal) (p : Precision) : Except Error Amounts := do
  let maker := size.floorTo p.size
  let worth ← product maker price
  return ⟨maker, ← inRange (worth.fitTo? p.amount)⟩

/-- The price is brought to its places to the nearest. -/
def limit (side : Side) (size price : Decimal) (p : Precision) : Except Error Amounts := do
  let price ← inRange (price.nearestTo? p.price)
  match side with
  | .buy =>
    let taker := size.floorTo p.size
    let worth ← product taker price
    return ⟨← inRange (worth.fitTo? p.amount), taker⟩
  | .sell => sale size price p

/-- The price is brought to its places downwards. A buyer's size is the collateral given. -/
def market (side : Side) (size price : Decimal) (p : Precision) : Except Error Amounts := do
  let floor := price.floorTo p.price
  match side with
  | .buy =>
    if floor.coeff = 0 then .error (.invalid (.priceRoundsToZero price p.price))
    else
      let maker := size.floorTo p.size
      let tokens ← quotient maker floor
      return ⟨maker, ← inRange (tokens.fitTo? p.amount)⟩
  | .sell => sale size floor p

def ofOrder (tif : TimeInForce) (side : Side) (size price : Decimal) (p : Precision) :
    Except Error Amounts :=
  if tif.isMarket then market side size price p else limit side size price p

/-! ### Base units -/

/-- The power of ten, which must fit 64 bits. -/
def unit? (decimals : Nat) : Option Decimal :=
  if decimals ≤ 19 then Decimal.ofCoeff? (tenTo decimals) 0 else none

/-- The whole part of the magnitude. -/
def truncated (x : Decimal) : Nat := x.coeff.natAbs / tenTo x.scale

/-- The whole part as a number, which must fit 128 bits. -/
def whole? (x : Decimal) : Option Nat :=
  if truncated x < 340282366920938463463374607431768211456 then some (truncated x) else none

def baseUnits (amount : Decimal) (decimals : Nat) : Except Error Word :=
  match unit? decimals with
  | none => .error (.invalid (.tokenDecimals decimals))
  | some u => do
    let scaled ← product amount u
    match whole? scaled with
    | some n => return BitVec.ofNat 256 n
    | none => .error (.invalid (.amountRange amount))

end Amounts
end TradingDesk
