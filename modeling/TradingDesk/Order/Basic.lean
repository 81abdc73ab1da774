import TradingDesk.Address
import TradingDesk.Decimal.Basic

/-! Orders. A ticket is what the trader asks for; an order is what is signed for it, in the base
units of the two tokens. -/
namespace TradingDesk

inductive Side where
  | buy
  | sell
deriving DecidableEq

namespace Side

def name : Side → String
  | buy => "BUY"
  | sell => "SELL"

def ofName? (s : String) : Option Side :=
  if s = "BUY" then some buy else if s = "SELL" then some sell else none

def code : Side → Nat
  | buy => 0
  | sell => 1

end Side

/-- How long an order stays open. The last two are filled at once or not at all. -/
inductive TimeInForce where
  | goodTillCancelled
  | goodTillDate
  | fillOrKill
  | fillAndKill
deriving DecidableEq

namespace TimeInForce

def name : TimeInForce → String
  | goodTillCancelled => "GTC"
  | goodTillDate => "GTD"
  | fillOrKill => "FOK"
  | fillAndKill => "FAK"

def ofName? (s : String) : Option TimeInForce :=
  if s = "GTC" then some goodTillCancelled
  else if s = "GTD" then some goodTillDate
  else if s = "FOK" then some fillOrKill
  else if s = "FAK" then some fillAndKill
  else none

def isMarket : TimeInForce → Bool
  | fillOrKill => true
  | fillAndKill => true
  | _ => false

end TimeInForce

/-- Whose signature an order carries: the account's own, or that of the owner of a proxy or of a
Safe. -/
inductive SignatureKind where
  | account
  | proxy
  | safe
deriving DecidableEq

namespace SignatureKind

def code : SignatureKind → Nat
  | account => 0
  | proxy => 1
  | safe => 2

def ofCode? : Nat → Option SignatureKind
  | 0 => some account
  | 1 => some proxy
  | 2 => some safe
  | _ => none

end SignatureKind

structure Ticket where
  tokenId : String
  price : Decimal
  size : Decimal
  side : Side
  feeRate : Option UInt64 := none
  nonce : Option UInt64 := none
  expiration : Option UInt64 := none
  taker : Option Address := none
deriving DecidableEq

/-- The fee rate is in hundredths of a percent. -/
structure Order where
  salt : UInt64
  maker : Address
  signer : Address
  taker : Address
  tokenId : Word
  makerAmount : Word
  takerAmount : Word
  expiration : Option UInt64
  nonce : Option UInt64
  feeRate : Option UInt64
  side : Side
  signatureKind : SignatureKind
deriving DecidableEq

/-- An absent field counts as zero. -/
def Order.filled (o : Order) : Order :=
  { o with
    expiration := some (o.expiration.getD 0)
    nonce := some (o.nonce.getD 0)
    feeRate := some (o.feeRate.getD 0) }

end TradingDesk
