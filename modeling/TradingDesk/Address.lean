import TradingDesk.Bytes.Hex
import TradingDesk.Bytes.Utf8
import TradingDesk.Crypto.Keccak

/-! Account addresses: 20 bytes, written in hexadecimal. The case of the letters can carry a
checksum. -/
namespace TradingDesk

structure Address where
  value : BitVec 160
deriving DecidableEq

namespace Address

def zero : Address := ⟨0⟩

def ofNat (n : Nat) : Address := ⟨BitVec.ofNat 160 n⟩

def toBytes (a : Address) : Bytes := Bytes.ofNat 20 a.value.toNat

def ofBytes (bs : Bytes) : Address := ofNat (Bytes.toNat bs)

/-- The address in the last 20 bytes of a word. -/
def toWord (a : Address) : Word := a.value.setWidth 256

def ofWord (w : Word) : Address := ⟨w.setWidth 160⟩

/-! ### Text -/

/-- The digits, all letters small. -/
def lowerDigits (a : Address) : List Char := Hex.encodeChars a.toBytes

def lower (a : Address) : String := String.ofList ('0' :: 'x' :: a.lowerDigits)

/-- A letter is a capital where the hash of the digits has a digit of 8 or more. -/
def checksumDigits (a : Address) : List Char :=
  let ds := a.lowerDigits
  let hash := Hex.encodeChars (keccak256 (Bytes.ofString (String.ofList ds))).toBytes
  List.zipWith (fun d h => if '8' ≤ h then d.toUpper else d) ds hash

def checksummed (a : Address) : String := String.ofList ('0' :: 'x' :: a.checksumDigits)

/-- Forty digits in any case, with or without `0x`. -/
def parse (text : String) : Except Hex.Error Address :=
  (Hex.decodeExact 20 (Bytes.ofString text)).map ofBytes

end Address
end TradingDesk
