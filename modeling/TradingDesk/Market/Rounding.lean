import TradingDesk.Decimal.Arithmetic
import TradingDesk.Decimal.Rounding

/-! How prices, sizes and amounts are brought to the places that a market allows. A number that
has no more than these, trailing zeros aside, is left as it is. -/
namespace TradingDesk.Decimal

private theorem nudge_scale_le : 9 ≤ 28 := by decide

/-- A thousand-millionth. -/
def nudge : Decimal := ⟨1, 9, one.coeff_lt, nudge_scale_le⟩

/-- The floor. -/
def floorTo (x : Decimal) (dp : Nat) : Decimal := if x.places ≤ dp then x else x.round .floor dp

/-- The ceiling. -/
def ceilTo (x : Decimal) (dp : Nat) : Decimal := if x.places ≤ dp then x else x.round .ceiling dp

/-- To the nearest, the half away from zero, of the number and a nudge. None if that sum is out
of range. -/
def nearestTo? (x : Decimal) (dp : Nat) : Option Decimal :=
  if x.places ≤ dp then some x else (x.add? nudge).map (·.round .halfAway dp)

/-- The floor of the ceiling at four more places, so that an amount just below a step counts as
the step. None if the places exceed a 32-bit count. -/
def fitTo? (x : Decimal) (dp : Nat) : Option Decimal :=
  if x.places ≤ dp then some x
  else if 4294967296 ≤ dp + 4 then none
  else some ((x.ceilTo (dp + 4)).floorTo dp)

end TradingDesk.Decimal
