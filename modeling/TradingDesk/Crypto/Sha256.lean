import TradingDesk.Bytes.Basic

/-! SHA-256: blocks of 64 bytes, each spread over 64 rounds. -/
namespace TradingDesk.Sha256

structure Working where
  a : UInt32
  b : UInt32
  c : UInt32
  d : UInt32
  e : UInt32
  f : UInt32
  g : UInt32
  h : UInt32

def initial : Working where
  a := 0x6A09E667
  b := 0xBB67AE85
  c := 0x3C6EF372
  d := 0xA54FF53A
  e := 0x510E527F
  f := 0x9B05688C
  g := 0x1F83D9AB
  h := 0x5BE0CD19

def roundConstants : List UInt32 := [
  0x428A2F98, 0x71374491, 0xB5C0FBCF, 0xE9B5DBA5, 0x3956C25B, 0x59F111F1, 0x923F82A4, 0xAB1C5ED5,
  0xD807AA98, 0x12835B01, 0x243185BE, 0x550C7DC3, 0x72BE5D74, 0x80DEB1FE, 0x9BDC06A7, 0xC19BF174,
  0xE49B69C1, 0xEFBE4786, 0x0FC19DC6, 0x240CA1CC, 0x2DE92C6F, 0x4A7484AA, 0x5CB0A9DC, 0x76F988DA,
  0x983E5152, 0xA831C66D, 0xB00327C8, 0xBF597FC7, 0xC6E00BF3, 0xD5A79147, 0x06CA6351, 0x14292967,
  0x27B70A85, 0x2E1B2138, 0x4D2C6DFC, 0x53380D13, 0x650A7354, 0x766A0ABB, 0x81C2C92E, 0x92722C85,
  0xA2BFE8A1, 0xA81A664B, 0xC24B8B70, 0xC76C51A3, 0xD192E819, 0xD6990624, 0xF40E3585, 0x106AA070,
  0x19A4C116, 0x1E376C08, 0x2748774C, 0x34B0BCB5, 0x391C0CB3, 0x4ED8AA4A, 0x5B9CCA4F, 0x682E6FF3,
  0x748F82EE, 0x78A5636F, 0x84C87814, 0x8CC70208, 0x90BEFFFA, 0xA4506CEB, 0xBEF9A3F7, 0xC67178F2]

def rotate (w n : UInt32) : UInt32 := (w >>> n) ||| (w <<< (32 - n))

/-! ### The message schedule -/

def bigEndian (bs : Bytes) : UInt32 := bs.foldl (fun w b => (w <<< 8) ||| b.toUInt32) 0

def words (block : Bytes) : Array UInt32 :=
  Array.ofFn fun i : Fin 16 => bigEndian ((block.drop (4 * i.val)).take 4)

/-- The next word, from the ones that stand 2, 7, 15 and 16 places before it. -/
def nextWord (ws : Array UInt32) : UInt32 :=
  let back (n : Nat) := ws.getD (ws.size - n) 0
  let s0 := rotate (back 15) 7 ^^^ rotate (back 15) 18 ^^^ (back 15 >>> 3)
  let s1 := rotate (back 2) 17 ^^^ rotate (back 2) 19 ^^^ (back 2 >>> 10)
  back 16 + s0 + back 7 + s1

def extend : (count : Nat) → Array UInt32 → Array UInt32
  | 0, ws => ws
  | n + 1, ws => extend n (ws.push (nextWord ws))

def schedule (block : Bytes) : List UInt32 := (extend 48 (words block)).toList

/-! ### Rounds -/

def round (v : Working) (k w : UInt32) : Working :=
  let s1 := rotate v.e 6 ^^^ rotate v.e 11 ^^^ rotate v.e 25
  let choice := (v.e &&& v.f) ^^^ (~~~v.e &&& v.g)
  let t1 := v.h + s1 + choice + k + w
  let s0 := rotate v.a 2 ^^^ rotate v.a 13 ^^^ rotate v.a 22
  let majority := (v.a &&& v.b) ^^^ (v.a &&& v.c) ^^^ (v.b &&& v.c)
  ⟨t1 + (s0 + majority), v.a, v.b, v.c, v.d + t1, v.e, v.f, v.g⟩

def add (v w : Working) : Working :=
  ⟨v.a + w.a, v.b + w.b, v.c + w.c, v.d + w.d, v.e + w.e, v.f + w.f, v.g + w.g, v.h + w.h⟩

def compress (v : Working) (block : Bytes) : Working :=
  add v ((roundConstants.zip (schedule block)).foldl (fun v kw => round v kw.1 kw.2) v)

def absorb : (blocks : Nat) → Working → Bytes → Working
  | 0, v, _ => v
  | n + 1, v, bs => absorb n (compress v (bs.take 64)) (bs.drop 64)

/-- A one bit, zeros, and the length in bits up to the end of a block. -/
def padding (length : Nat) : Bytes :=
  0x80 :: List.replicate ((119 - length % 64) % 64) 0 ++ Bytes.ofNat 8 (8 * length)

def digest (message : Bytes) : Bytes :=
  let v := absorb ((message.length + 72) / 64) initial (message ++ padding message.length)
  [v.a, v.b, v.c, v.d, v.e, v.f, v.g, v.h].flatMap fun w => Bytes.ofNat 4 w.toNat

end TradingDesk.Sha256
