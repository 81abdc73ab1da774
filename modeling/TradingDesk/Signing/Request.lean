import TradingDesk.Session
import TradingDesk.TypedData.Message

/-! Asking for signatures. A signature has 65 bytes; the signer's answer is not trusted to. -/
namespace TradingDesk

structure Signature where
  bytes : Bytes
  length_eq : bytes.length = 65
deriving DecidableEq

namespace Signature

def ofBytes (bs : Bytes) : Except SigningFault Signature :=
  if h : bs.length = 65 then .ok ⟨bs, h⟩ else .error (.length bs.length)

def toText (g : Signature) : String := Hex.encode0x g.bytes

end Signature

namespace Session

variable {σ : Type}

def signature (signer : Address) (digest : Word) : Session σ Signature := do
  let bs ← askSignature signer digest
  ofExcept ((Signature.ofBytes bs).mapError .signing)

def signClobAuth (a : ClobAuth) (chainId : UInt64) : Session σ String := do
  return (← signature a.address (a.digest chainId)).toText

def signCreateProxy (c : CreateProxy) (chainId : UInt64) (factory signer : Address) :
    Session σ String := do
  return (← signature signer (c.digest chainId factory)).toText

end Session
end TradingDesk
