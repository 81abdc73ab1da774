import TradingDesk.Word

/-! The Keccak hash of 256 bits: a sponge over 25 lanes that takes in 136 bytes at a time. The
padding begins with a one bit alone, without the bits that later standards put before it. -/
namespace TradingDesk.Keccak

/-- The lane in column `x` and row `y` stands at place `x + 5 * y`. -/
abbrev Lanes := Vector UInt64 25

def lane (s : Lanes) (x y : Nat) : UInt64 := s.get ⟨x % 5 + 5 * (y % 5), by omega⟩

def ofLanes (f : (x y : Nat) → UInt64) : Lanes := Vector.ofFn fun i => f (i.val % 5) (i.val / 5)

def rotate (w n : UInt64) : UInt64 := (w <<< n) ||| (w >>> (64 - n))

/-! ### The permutation -/

def roundConstants : List UInt64 := [
  0x0000000000000001, 0x0000000000008082, 0x800000000000808A, 0x8000000080008000,
  0x000000000000808B, 0x0000000080000001, 0x8000000080008081, 0x8000000000008009,
  0x000000000000008A, 0x0000000000000088, 0x0000000080008009, 0x000000008000000A,
  0x000000008000808B, 0x800000000000008B, 0x8000000000008089, 0x8000000000008003,
  0x8000000000008002, 0x8000000000000080, 0x000000000000800A, 0x800000008000000A,
  0x8000000080008081, 0x8000000000008080, 0x0000000080000001, 0x8000000080008008]

def rotations : Lanes := #v[
  0, 1, 62, 28, 27,
  36, 44, 6, 55, 20,
  3, 10, 43, 25, 39,
  41, 45, 15, 21, 8,
  18, 2, 61, 56, 14]

def parities (s : Lanes) : Vector UInt64 5 := Vector.ofFn fun x =>
  lane s x 0 ^^^ lane s x 1 ^^^ lane s x 2 ^^^ lane s x 3 ^^^ lane s x 4

def parity (c : Vector UInt64 5) (x : Nat) : UInt64 := c.get ⟨x % 5, by omega⟩

/-- Adds to each lane the parities of two neighbouring columns. -/
def theta (s : Lanes) : Lanes :=
  let c := parities s
  let d : Vector UInt64 5 := Vector.ofFn fun x =>
    parity c (x.val + 4) ^^^ rotate (parity c (x.val + 1)) 1
  ofLanes fun x y => lane s x y ^^^ parity d x

/-- Rotates each lane by its own amount and moves it to its new place. -/
def rhoPi (s : Lanes) : Lanes :=
  ofLanes fun x y => rotate (lane s (x + 3 * y) x) (lane rotations (x + 3 * y) x)

def chi (s : Lanes) : Lanes :=
  ofLanes fun x y => lane s x y ^^^ (~~~lane s (x + 1) y &&& lane s (x + 2) y)

def iota (c : UInt64) (s : Lanes) : Lanes := s.set 0 (s[0] ^^^ c)

def permute (s : Lanes) : Lanes :=
  roundConstants.foldl (fun s c => iota c (chi (rhoPi (theta s)))) s

/-! ### The sponge -/

def littleEndian (bs : Bytes) : UInt64 := bs.foldr (fun b w => (w <<< 8) ||| b.toUInt64) 0

def mix (s : Lanes) (block : Bytes) : Lanes :=
  Vector.ofFn fun i => s[i] ^^^ littleEndian ((block.drop (8 * i.val)).take 8)

def absorb : (blocks : Nat) → Lanes → Bytes → Lanes
  | 0, s, _ => s
  | n + 1, s, bs => absorb n (permute (mix s (bs.take 136))) (bs.drop 136)

def padding (length : Nat) : Bytes :=
  if length % 136 = 135 then [0x81]
  else 0x01 :: List.replicate (134 - length % 136) 0 ++ [0x80]

def laneBytes (w : UInt64) : Bytes := (Bytes.ofNat 8 w.toNat).reverse

def digest (message : Bytes) : Bytes :=
  let s := absorb (message.length / 136 + 1) (Vector.replicate 25 0)
    (message ++ padding message.length)
  laneBytes s[0] ++ laneBytes s[1] ++ laneBytes s[2] ++ laneBytes s[3]

end TradingDesk.Keccak

namespace TradingDesk

def keccak256 (message : Bytes) : Word := Word.ofBytes (Keccak.digest message)

end TradingDesk
