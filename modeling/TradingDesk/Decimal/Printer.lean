import TradingDesk.Decimal.Basic
import TradingDesk.Text.Numeral

/-! Writing a decimal: all its places, trailing zeros too, and at least one digit before them. -/
namespace TradingDesk.Decimal

def magnitudeText (n scale : Nat) : List Char :=
  let ds := Numeral.padded (scale + 1) n
  let whole := ds.length - scale
  if scale = 0 then ds else ds.take whole ++ '.' :: ds.drop whole

def toText (x : Decimal) : String :=
  let t := magnitudeText x.coeff.natAbs x.scale
  String.ofList (if x.coeff < 0 then '-' :: t else t)

end TradingDesk.Decimal
