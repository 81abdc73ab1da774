import TradingDesk.Bytes.Basic
import TradingDesk.Text.Numeral
import TradingDesk.Word

/-! Decimal numerals for words. Underscores are skipped, and no digit at all is zero. -/
namespace TradingDesk.Word

inductive ReadError where
  | badDigit (byte : UInt8)
  | tooLarge
deriving DecidableEq

def ReadError.message : ReadError → String
  | badDigit b => "invalid digit: " ++ String.singleton (Char.ofNat b.toNat)
  | tooLarge => "the value is too large to fit the target type"

/-- Reads on from the number `n`; the first mistake counts. -/
def readFrom : (n : Nat) → Bytes → Except ReadError Nat
  | n, [] => .ok n
  | n, b :: r =>
    if b = 95 then readFrom n r
    else if 48 ≤ b ∧ b ≤ 57 then
      let next := n * 10 + (b.toNat - 48)
      if next < 115792089237316195423570985008687907853269984665640564039457584007913129639936 then
        readFrom next r
      else .error .tooLarge
    else .error (.badDigit b)

def read (text : String) : Except ReadError Word :=
  (readFrom 0 (Bytes.ofString text)).map (BitVec.ofNat 256)

def toText (w : Word) : String := Numeral.ofNat w.toNat

end TradingDesk.Word
