import TradingDesk.Crypto.Hmac
import TradingDesk.Word

/-! Signatures on the curve `y² = x³ + 7` over the integers modulo `p`. The secret number of a
signature is derived from the key and the digest, so that a key signs a digest in one way; of
the two forms of a signature the one with the smaller `s` is given. -/
namespace TradingDesk.Secp256k1

/-- The modulus of the coordinates. -/
def p : Nat := 0xFFFFFFFFFFFFFFFFFFFFFFFFFFFFFFFFFFFFFFFFFFFFFFFFFFFFFFFEFFFFFC2F

/-- The number of points. -/
def n : Nat := 0xFFFFFFFFFFFFFFFFFFFFFFFFFFFFFFFEBAAEDCE6AF48A03BBFD25E8CD0364141

def powMod (m b e : Nat) : Nat :=
  if e = 0 then 1 % m
  else
    let h := powMod m (b * b % m) (e / 2)
    if e % 2 = 1 then h * b % m else h
termination_by e

/-- The inverse modulo a prime. -/
def inverse (m a : Nat) : Nat := powMod m a (m - 2)

/-- `a - b` modulo `p`, for a remainder `b`. -/
def sub (a b : Nat) : Nat := (a + (p - b)) % p

/-! ### Points -/

/-- The point `(x / z², y / z³)`, or the one at infinity if `z` is zero. -/
structure Point where
  x : Nat
  y : Nat
  z : Nat

def Point.infinity : Point := ⟨1, 1, 0⟩

def generator : Point where
  x := 0x79BE667EF9DCBBAC55A06295CE870B07029BFCDB2DCE28D959F2815B16F81798
  y := 0x483ADA7726A3C4655DA4FBFC0E1108A8FD17B448A68554199C47D08FFB10D4B8
  z := 1

def Point.double (a : Point) : Point :=
  if a.z = 0 || a.y = 0 then infinity
  else
    let yy := a.y * a.y % p
    let s := 4 * a.x * yy % p
    let m := 3 * a.x * a.x % p
    let x := sub (m * m) (2 * s % p)
    let y := sub (m * sub s x) (8 * yy * yy % p)
    ⟨x, y, 2 * a.y * a.z % p⟩

def Point.add (a b : Point) : Point :=
  if a.z = 0 then b
  else if b.z = 0 then a
  else
    let za := a.z * a.z % p
    let zb := b.z * b.z % p
    let ua := a.x * zb % p
    let ub := b.x * za % p
    let sa := a.y * zb % p * b.z % p
    let sb := b.y * za % p * a.z % p
    let h := sub ub ua
    let r := sub sb sa
    if h = 0 then (if r = 0 then a.double else infinity)
    else
      let hh := h * h % p
      let hhh := h * hh % p
      let v := ua * hh % p
      let x := sub (sub (r * r) hhh) (2 * v % p)
      let y := sub (r * sub v x) (sa * hhh % p)
      ⟨x, y, h * a.z % p * b.z % p⟩

/-- The sum of `k` points `a`. -/
def Point.scale (k : Nat) (a : Point) : Point :=
  if k = 0 then infinity
  else
    let h := scale (k / 2) a.double
    if k % 2 = 1 then h.add a else h
termination_by k

/-- The coordinates of a point, zero at infinity. -/
def Point.affine (a : Point) : Nat × Nat :=
  let i := inverse p a.z
  let ii := i * i % p
  (a.x * ii % p, a.y * (ii * i % p) % p)

/-! ### Keys -/

structure SecretKey where
  value : Nat
  pos : 0 < value
  lt : value < n

def SecretKey.ofNat? (k : Nat) : Option SecretKey :=
  if h : 0 < k ∧ k < n then some ⟨k, h.1, h.2⟩ else none

/-- The 64 bytes of the public point. -/
def SecretKey.publicBytes (k : SecretKey) : Bytes :=
  let (x, y) := (generator.scale k.value).affine
  Bytes.ofNat 32 x ++ Bytes.ofNat 32 y

/-! ### Deterministic secret numbers -/

structure NonceSource where
  key : Bytes
  value : Bytes

namespace NonceSource

def mix (g : NonceSource) (mark : UInt8) (seed : Bytes) : NonceSource :=
  let key := Hmac.digest g.key (g.value ++ mark :: seed)
  ⟨key, Hmac.digest key g.value⟩

def start (seed : Bytes) : NonceSource :=
  let g : NonceSource := ⟨List.replicate 32 0, List.replicate 32 1⟩
  (g.mix 0 seed).mix 1 seed

/-- The first number in `1 ... n - 1` of at most `tries`. -/
def draw? : (tries : Nat) → NonceSource → Option Nat
  | 0, _ => none
  | tries + 1, g =>
    let value := Hmac.digest g.key g.value
    let k := Bytes.toNat value
    if 0 < k && k < n then some k else draw? tries (mix ⟨g.key, value⟩ 0 [])

end NonceSource

/-! ### Signatures -/

structure Signature where
  r : Nat
  s : Nat
  odd : Bool

def Signature.ofSecret? (key : SecretKey) (z k : Nat) : Option Signature :=
  let (x, y) := (generator.scale k).affine
  let r := x % n
  let s := inverse n k * (z + r * key.value % n) % n
  if r = 0 || s = 0 then none
  else if n / 2 < s then some ⟨r, n - s, y % 2 = 0⟩
  else some ⟨r, s, y % 2 = 1⟩

/-- `r`, `s`, and 27 or 28. -/
def Signature.toBytes (g : Signature) : Bytes :=
  Bytes.ofNat 32 g.r ++ Bytes.ofNat 32 g.s ++ [if g.odd then 28 else 27]

def SecretKey.sign? (key : SecretKey) (digest : Word) : Option Signature := do
  let k ← (NonceSource.start (Bytes.ofNat 32 key.value ++ digest.toBytes)).draw? 64
  Signature.ofSecret? key (digest.toNat % n) k

end TradingDesk.Secp256k1
