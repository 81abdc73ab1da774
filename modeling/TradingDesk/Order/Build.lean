import TradingDesk.Chain
import TradingDesk.Order.Amounts

/-! From a ticket to an order. A price outside the range of the market's tick is refused, never
moved into it. -/
namespace TradingDesk

/-- Who trades: the account that signs, and the one that pays if it is another. -/
structure Trader where
  signer : Address
  funder : Option Address := none
  signatureKind : SignatureKind := .account
deriving DecidableEq

def Trader.maker (t : Trader) : Address := t.funder.getD t.signer

namespace Ticket

def tokenWord (t : Ticket) : Except Error Word :=
  match Word.read (Text.trim t.tokenId) with
  | .ok w => .ok w
  | .error e => .error (.invalid (.tokenId t.tokenId e))

/-- The decimals of what the maker gives and of what the taker gives. -/
def tokenDecimals (c : Contracts) : Side → Nat × Nat
  | .buy => (c.collateralDecimals, c.conditionalDecimals)
  | .sell => (c.conditionalDecimals, c.collateralDecimals)

/-- A zero is as good as nothing. -/
def positive (x : Option UInt64) : Option UInt64 := x.filter (0 < ·)

def baseAmounts (t : Ticket) (c : Contracts) (tif : TimeInForce) (tick : Tick) :
    Except Error (Word × Word) := do
  let amounts ← Amounts.ofOrder tif t.side t.size t.price tick.precision
  let maker ← Amounts.baseUnits amounts.maker (tokenDecimals c t.side).1
  let taker ← Amounts.baseUnits amounts.taker (tokenDecimals c t.side).2
  if maker = 0 ∨ taker = 0 then .error (.invalid (.zeroAmount t.size t.price))
  else return (maker, taker)

/-- An order whose salt is yet to be drawn. -/
def build (t : Ticket) (trader : Trader) (c : Contracts) (tif : TimeInForce) (tick : Tick) :
    Except Error Order := do
  if t.size.coeff ≤ 0 then .error (.invalid (.size t.size))
  else if !tick.admits t.price then .error (.invalid (.price t.price tick))
  else
    let tokenId ← t.tokenWord
    let (makerAmount, takerAmount) ← t.baseAmounts c tif tick
    return {
      salt := 0
      maker := trader.maker
      signer := trader.signer
      taker := t.taker.getD .zero
      tokenId := tokenId
      makerAmount := makerAmount
      takerAmount := takerAmount
      expiration := positive t.expiration
      nonce := positive t.nonce
      feeRate := positive t.feeRate
      side := t.side
      signatureKind := trader.signatureKind }

end Ticket
end TradingDesk
