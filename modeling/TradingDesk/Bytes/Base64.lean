import TradingDesk.Bytes.Basic
import TradingDesk.Text.Numeral

/-! Base 64: three bytes in four symbols of six bits. A text that ends within four symbols is
filled up with `=` or not, as the format has it; bits that belong to no byte must be zero. -/
namespace TradingDesk.Base64

inductive Error where
  | badSymbol (byte : UInt8) (offset : Nat)
  | badLastSymbol (byte : UInt8) (offset : Nat)
  | badLength (symbols : Nat)
  | badPadding
deriving DecidableEq

def Error.message : Error → String
  | badSymbol b i => "Invalid symbol " ++ Numeral.ofNat b.toNat ++ ", offset " ++ Numeral.ofNat i
      ++ "."
  | badLastSymbol b i => "Invalid last symbol " ++ Numeral.ofNat b.toNat ++ ", offset " ++
      Numeral.ofNat i ++ "."
  | badLength n => "Invalid input length: " ++ Numeral.ofNat n
  | badPadding => "Invalid padding"

/-- The last two symbols, and whether the text is filled up. -/
structure Format where
  symbol62 : UInt8
  symbol63 : UInt8
  padded : Bool

def standard : Format := ⟨43, 47, true⟩

def urlSafe : Format := ⟨45, 95, true⟩

def urlSafeUnpadded : Format := ⟨45, 95, false⟩

def Format.value? (f : Format) (b : UInt8) : Option Nat :=
  if 65 ≤ b ∧ b ≤ 90 then some (b.toNat - 65)
  else if 97 ≤ b ∧ b ≤ 122 then some (b.toNat - 71)
  else if 48 ≤ b ∧ b ≤ 57 then some (b.toNat + 4)
  else if b = f.symbol62 then some 62
  else if b = f.symbol63 then some 63
  else none

def Format.symbol (f : Format) (n : Nat) : UInt8 :=
  if n < 26 then UInt8.ofNat (n + 65)
  else if n < 52 then UInt8.ofNat (n + 71)
  else if n < 62 then UInt8.ofNat (n - 4)
  else if n = 62 then f.symbol62
  else f.symbol63

/-! ### Writing -/

def Format.fill (f : Format) (n : Nat) : Bytes := if f.padded then List.replicate n 61 else []

def Format.encode (f : Format) : Bytes → Bytes
  | a :: b :: c :: r =>
    f.symbol (a.toNat / 4) :: f.symbol (a.toNat % 4 * 16 + b.toNat / 16) ::
      f.symbol (b.toNat % 16 * 4 + c.toNat / 64) :: f.symbol (c.toNat % 64) :: f.encode r
  | [a, b] =>
    f.symbol (a.toNat / 4) :: f.symbol (a.toNat % 4 * 16 + b.toNat / 16) ::
      f.symbol (b.toNat % 16 * 4) :: f.fill 1
  | [a] => f.symbol (a.toNat / 4) :: f.symbol (a.toNat % 4 * 16) :: f.fill 2
  | [] => []

/-! ### Reading -/

def Format.symbolAt (f : Format) (b : UInt8) (offset : Nat) : Except Error Nat :=
  match f.value? b with
  | some n => .ok n
  | none => .error (.badSymbol b offset)

/-- What comes after the first `=` at `offset` of the last four symbols must be `=` too. -/
def Format.checkPadding (offset : Nat) (r : Bytes) : Except Error Unit :=
  if r.all (· = 61) then .ok () else .error (.badSymbol 61 offset)

/-- The values of the symbols that end the text, at most four, and how many `=` follow them. -/
def Format.lastValues (f : Format) (start : Nat) : (offset : Nat) → Bytes →
    Except Error (List Nat × Nat)
  | _, [] => .ok ([], 0)
  | i, b :: r =>
    if b = 61 then
      if i < start + 2 then .error (.badSymbol b i)
      else do
        checkPadding i r
        return ([], r.length + 1)
    else do
      let n ← f.symbolAt b i
      let (ns, fill) ← f.lastValues start (i + 1) r
      return (n :: ns, fill)

def Format.lastBytes (start : Nat) (text : Bytes) : List Nat → Except Error Bytes
  | [a, b, c, d] =>
    .ok [UInt8.ofNat (a * 4 + b / 16), UInt8.ofNat (b * 16 + c / 4), UInt8.ofNat (c * 64 + d)]
  | [a, b, c] =>
    if c % 4 = 0 then .ok [UInt8.ofNat (a * 4 + b / 16), UInt8.ofNat (b * 16 + c / 4)]
    else .error (.badLastSymbol (text.getD 2 0) (start + 2))
  | [a, b] =>
    if b % 16 = 0 then .ok [UInt8.ofNat (a * 4 + b / 16)]
    else .error (.badLastSymbol (text.getD 1 0) (start + 1))
  | _ => .ok []

/-- The last one to four bytes of a text. -/
def Format.decodeLast (f : Format) (start : Nat) (text : Bytes) : Except Error Bytes := do
  let (ns, fill) ← f.lastValues start start text
  if ns.length < 2 && !text.isEmpty then .error (.badLength (start + ns.length))
  else if f.padded && (fill + ns.length) % 4 ≠ 0 then .error .badPadding
  else if !f.padded && fill ≠ 0 then .error .badPadding
  else lastBytes start text ns

def Format.decodeFrom (f : Format) (start : Nat) : Bytes → Except Error Bytes
  | a :: b :: c :: d :: e :: r => do
    let w ← f.symbolAt a start
    let x ← f.symbolAt b (start + 1)
    let y ← f.symbolAt c (start + 2)
    let z ← f.symbolAt d (start + 3)
    let bs ← f.decodeFrom (start + 4) (e :: r)
    return UInt8.ofNat (w * 4 + x / 16) :: UInt8.ofNat (x * 16 + y / 4) ::
      UInt8.ofNat (y * 64 + z) :: bs
  | text => f.decodeLast start text

/-- A text one symbol longer than it may be is first blamed on its last symbol. -/
def Format.decode (f : Format) (text : Bytes) : Except Error Bytes :=
  match text.getLast? with
  | some b =>
    if text.length % 4 = 1 && b ≠ 61 && (f.value? b).isNone then
      .error (.badSymbol b (text.length - 1))
    else f.decodeFrom 0 text
  | none => .ok []

end TradingDesk.Base64
