import TradingDesk.Order.Basic
import TradingDesk.TypedData.Domain

/-! The messages that are signed: orders, proofs of control over an account, requests for a Safe,
and transactions of a Safe. -/
namespace TradingDesk

/-! ### Orders -/

namespace Order

def typeText : String :=
  "Order(uint256 salt,address maker,address signer,address taker,uint256 tokenId,uint256 makerAmount,uint256 takerAmount,uint256 expiration,uint256 nonce,uint256 feeRateBps,uint8 side,uint8 signatureType)"

/-- An absent number counts as zero. -/
def optionalWord (x : Option UInt64) : Word := wordOfNat (x.getD 0).toNat

def members (o : Order) : List Word :=
  [wordOfNat o.salt.toNat, o.maker.toWord, o.signer.toWord, o.taker.toWord, o.tokenId,
    o.makerAmount, o.takerAmount, optionalWord o.expiration, optionalWord o.nonce,
    optionalWord o.feeRate, wordOfNat o.side.code, wordOfNat o.signatureKind.code]

def hash (o : Order) : Word := structHash typeText o.members

def digest (o : Order) (chainId : UInt64) (exchange : Address) : Word :=
  typedDataHash (Domain.exchange chainId exchange).separator o.hash

end Order

/-! ### Control over an account -/

structure ClobAuth where
  address : Address
  timestamp : String
  nonce : Word
deriving DecidableEq

namespace ClobAuth

def statement : String := "This message attests that I control the given wallet"

def typeText : String :=
  "ClobAuth(address address,string timestamp,uint256 nonce,string message)"

def members (a : ClobAuth) : List Word :=
  [a.address.toWord, textWord a.timestamp, a.nonce, textWord statement]

def hash (a : ClobAuth) : Word := structHash typeText a.members

def digest (a : ClobAuth) (chainId : UInt64) : Word :=
  typedDataHash (Domain.clobAuth chainId).separator a.hash

end ClobAuth

/-! ### Requests for a Safe -/

structure CreateProxy where
  paymentToken : Address := .zero
  payment : Word := 0
  paymentReceiver : Address := .zero
deriving DecidableEq

namespace CreateProxy

def typeText : String :=
  "CreateProxy(address paymentToken,uint256 payment,address paymentReceiver)"

def members (c : CreateProxy) : List Word :=
  [c.paymentToken.toWord, c.payment, c.paymentReceiver.toWord]

def hash (c : CreateProxy) : Word := structHash typeText c.members

def digest (c : CreateProxy) (chainId : UInt64) (factory : Address) : Word :=
  typedDataHash (Domain.proxyFactory chainId factory).separator c.hash

end CreateProxy

/-! ### Transactions of a Safe -/

/-- A relayed transaction pays for no gas of its own. -/
structure SafeTx where
  target : Address
  value : Word
  data : Bytes
  operation : UInt8
  safeTxGas : Word := 0
  baseGas : Word := 0
  gasPrice : Word := 0
  gasToken : Address := .zero
  refundReceiver : Address := .zero
  nonce : Word
deriving DecidableEq

namespace SafeTx

def typeText : String :=
  "SafeTx(address to,uint256 value,bytes data,uint8 operation,uint256 safeTxGas,uint256 baseGas,uint256 gasPrice,address gasToken,address refundReceiver,uint256 nonce)"

def members (t : SafeTx) : List Word :=
  [t.target.toWord, t.value, keccak256 t.data, wordOfNat t.operation.toNat, t.safeTxGas, t.baseGas,
    t.gasPrice, t.gasToken.toWord, t.refundReceiver.toWord, t.nonce]

def hash (t : SafeTx) : Word := structHash typeText t.members

def typedHash (t : SafeTx) (chainId : UInt64) (safe : Address) : Word :=
  typedDataHash (Domain.safe chainId safe).separator t.hash

/-- What the owner signs is the hash as a message of its own. -/
def digest (t : SafeTx) (chainId : UInt64) (safe : Address) : Word :=
  personalHash (t.typedHash chainId safe)

end SafeTx
end TradingDesk
