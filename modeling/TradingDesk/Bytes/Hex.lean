import TradingDesk.Bytes.Basic

/-! Hexadecimal text. Both cases are read, the lower one is written. -/
namespace TradingDesk.Hex

inductive Error where
  | oddLength
  | wrongLength
  | badCharacter (byte : UInt8) (index : Nat)
deriving DecidableEq

def digit (n : Nat) : Char := if n < 10 then Char.ofNat (48 + n) else Char.ofNat (87 + n)

def value? (b : UInt8) : Option Nat :=
  if 48 ≤ b ∧ b ≤ 57 then some (b.toNat - 48)
  else if 97 ≤ b ∧ b ≤ 102 then some (b.toNat - 87)
  else if 65 ≤ b ∧ b ≤ 70 then some (b.toNat - 55)
  else none

def encodeChars (bs : Bytes) : List Char :=
  bs.flatMap fun b => [digit (b.toNat / 16), digit (b.toNat % 16)]

def encode (bs : Bytes) : String := String.ofList (encodeChars bs)

def encode0x (bs : Bytes) : String := "0x" ++ encode bs

/-- Reads pairs of digits, the first at place `index` of the whole text. -/
def decodePairs : Bytes → (index : Nat) → Except Error Bytes
  | a :: b :: r, i =>
    match value? a, value? b with
    | some x, some y => (UInt8.ofNat (x * 16 + y) :: ·) <$> decodePairs r (i + 2)
    | none, _ => .error (.badCharacter a i)
    | some _, none => .error (.badCharacter b (i + 1))
  | [_], _ => .error .oddLength
  | [], _ => .ok []

def decode (text : Bytes) : Except Error Bytes :=
  if text.length % 2 = 1 then .error .oddLength else decodePairs text 0

/-- Exactly `n` bytes, after an optional `0x` or `0X`. -/
def decodeExact (n : Nat) (text : Bytes) : Except Error Bytes :=
  let digits := match text with
    | 48 :: 120 :: r => r
    | 48 :: 88 :: r => r
    | r => r
  if digits.length % 2 = 1 then .error .oddLength
  else if digits.length ≠ 2 * n then .error .wrongLength
  else decodePairs digits 0

/-- The text without any leading `0x`s. -/
def dropMarks : Bytes → Bytes
  | 48 :: 120 :: r => dropMarks r
  | r => r

end TradingDesk.Hex
