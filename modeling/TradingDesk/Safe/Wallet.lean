import TradingDesk.Safe.Call
import TradingDesk.Signing.Request

/-! Safes: where they lie, and the signatures that they accept. -/
namespace TradingDesk.Safe

/-- The hash of the code that the factory deploys. -/
def initCodeHash : Word := 0x2BCE2127FF07FB632D16C8347C4EBF501F4841168BED00D9E6EF715DDB6FCECF

/-- A contract's place follows from its deployer, a salt and the code deployed. -/
def contractAddress (deployer : Address) (salt codeHash : Word) : Address :=
  .ofWord (keccak256 (0xFF :: deployer.toBytes ++ salt.toBytes ++ codeHash.toBytes))

/-- The salt is the hash of the owner. -/
def address (owner factory : Address) : Address :=
  contractAddress factory (keccak256 owner.toWord.toBytes) initCodeHash

/-! ### Signatures -/

/-- The last byte of a signature, from either way to write the parity. -/
def packMark (v : UInt8) : Except Error UInt8 :=
  if v = 0 ∨ v = 1 then .ok (v + 27)
  else if v = 27 ∨ v = 28 then .ok (v + 4)
  else .error (.invalid (.signatureMark v.toNat))

def packSignature (bs : Bytes) : Except Error String :=
  if bs.length ≠ 65 then .error (.invalid (.signatureLength bs.length))
  else (packMark (bs.getD 64 0)).map fun v => Hex.encode0x (bs.take 64 ++ [v])

variable {σ : Type}

def sign (c : SafeCall) (signer : Address) (chainId : UInt64) (safe : Address) (nonce : Word) :
    Session σ String := do
  let message ← Session.ofExcept (c.message nonce)
  let g ← Session.signature signer (message.digest chainId safe)
  Session.ofExcept (packSignature g.bytes)

end TradingDesk.Safe
