import TradingDesk.Order.Build
import TradingDesk.Signing.Request

/-! Signed orders, and the form in which they are handed in: addresses with their checksum, most
numbers as numerals. -/
namespace TradingDesk

structure SignedOrder where
  order : Order
  signature : String
  negRisk : Bool
deriving DecidableEq

structure OrderPayload where
  salt : UInt64
  maker : String
  signer : String
  taker : String
  tokenId : String
  makerAmount : String
  takerAmount : String
  expiration : String
  nonce : String
  feeRate : String
  side : Side
  signatureKind : UInt8
  signature : String
deriving DecidableEq

namespace SignedOrder

def numeral (x : Option UInt64) : String := Numeral.ofNat (x.getD 0).toNat

def payload (s : SignedOrder) : OrderPayload where
  salt := s.order.salt
  maker := s.order.maker.checksummed
  signer := s.order.signer.checksummed
  taker := s.order.taker.checksummed
  tokenId := s.order.tokenId.toText
  makerAmount := s.order.makerAmount.toText
  takerAmount := s.order.takerAmount.toText
  expiration := numeral s.order.expiration
  nonce := numeral s.order.nonce
  feeRate := numeral s.order.feeRate
  side := s.order.side
  signatureKind := UInt8.ofNat s.order.signatureKind.code
  signature := s.signature

end SignedOrder

/-! ### Signing -/

structure OrderSigner where
  trader : Trader
  chain : Chain
deriving DecidableEq

namespace OrderSigner

variable {σ : Type}

def digest (s : OrderSigner) (o : Order) (negRisk : Bool) : Word :=
  o.digest s.chain.id (s.chain.exchange negRisk)

def sign (s : OrderSigner) (o : Order) (negRisk : Bool) : Session σ SignedOrder := do
  let g ← Session.signature o.signer (s.digest o negRisk)
  return ⟨o, g.toText, negRisk⟩

def create (s : OrderSigner) (t : Ticket) (tif : TimeInForce) (tick : Tick) (negRisk : Bool) :
    Session σ SignedOrder := do
  let o ← Session.ofExcept (t.build s.trader s.chain.contracts tif tick)
  s.sign { o with salt := ← Session.drawSalt } negRisk

def describe (s : OrderSigner) : String :=
  "OrderSigner \x7b address: " ++ s.trader.signer.lower ++ ", maker: " ++ s.trader.maker.lower ++
    ", chain_id: " ++ Numeral.ofNat s.chain.id.toNat ++ " \x7d"

end OrderSigner
end TradingDesk
