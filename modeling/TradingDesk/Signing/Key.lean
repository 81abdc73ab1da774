import TradingDesk.Crypto.Secp256k1
import TradingDesk.Error

/-! Keys held in memory, each with the address of its account. -/
namespace TradingDesk

abbrev SecretKey := Secp256k1.SecretKey

namespace Secp256k1.SecretKey

/-- The last 20 bytes of the hash of the public point. -/
def address (k : SecretKey) : Address := .ofWord (keccak256 k.publicBytes)

/-- Sixty-four digits; blanks around them and any `0x` before them are dropped. -/
def parse (text : String) : Except SettingsFault SecretKey :=
  let digits := Hex.dropMarks (Bytes.ofString (Text.trim text))
  match Hex.decodeExact 32 digits with
  | .error e => .error (.privateKey (.unreadable e))
  | .ok bs =>
    match ofNat? (Bytes.toNat bs) with
    | some k => .ok k
    | none => .error (.privateKey .outOfRange)

/-- A key signs for its own account only. -/
def signFor (k : SecretKey) (signer : Address) (digest : Word) : Except SigningFault Bytes :=
  if signer ≠ k.address then .error (.otherKey signer k.address)
  else
    match k.sign? digest with
    | some g => .ok g.toBytes
    | none => .error .noSignature

def describe (k : SecretKey) : String :=
  "LocalSigner \x7b address: " ++ k.address.lower ++ " \x7d"

end Secp256k1.SecretKey
end TradingDesk
