import Mathlib.Data.Nat.Bitwise
import TradingDesk.Crypto.Keccak

/-! The hash on plain numbers. The 25 lanes are five planes of five, and the steps of the
permutation are written out for them; so the hash of a text that is given is computed by arithmetic
on numbers alone. -/

namespace TradingDesk.Keccak

/-! ### Lanes -/

theorem lane_ofLanes (f : ℕ → ℕ → UInt64) (x y : ℕ) :
    lane (ofLanes f) x y = f (x % 5) (y % 5) := by
  have hx : (x % 5 + 5 * (y % 5)) % 5 = x % 5 := by omega
  have hy : (x % 5 + 5 * (y % 5)) / 5 = y % 5 := by omega
  change (ofLanes f)[x % 5 + 5 * (y % 5)] = _
  rw [ofLanes, Vector.getElem_ofFn, hx, hy]

/-- A lane as a number, turned by fewer places than it has. -/
def turned (w n : ℕ) : ℕ := (w <<< n) % 18446744073709551616 ||| w >>> (64 - n)

theorem toNat_rotate (w n : UInt64) (h : n.toNat < 64) :
    (rotate w n).toNat = turned w.toNat n.toNat := by
  have hsub : (64 - n).toNat = 64 - n.toNat :=
    UInt64.toNat_sub_of_le _ _ (UInt64.le_iff_toNat_le.2 h.le)
  rw [rotate, UInt64.toNat_or, UInt64.toNat_shiftLeft, UInt64.toNat_shiftRight, hsub,
    Nat.mod_eq_of_lt h, turned]
  obtain h0 | hpos := Nat.eq_zero_or_pos n.toNat
  · have hw : w.toNat >>> 64 = 0 := Nat.shiftRight_eq_zero _ _ w.toNat_lt
    have hmod : w.toNat % 18446744073709551616 = w.toNat := Nat.mod_eq_of_lt w.toNat_lt
    simp [h0, hw, hmod]
  · rw [Nat.mod_eq_of_lt (show 64 - n.toNat < 64 by omega)]

theorem toNat_not (w : UInt64) : (~~~w).toNat = 18446744073709551615 - w.toNat := by
  rw [UInt64.toNat_not]
  rfl

/-! ### Planes -/

/-- Five lanes side by side. -/
structure Plane where
  a : ℕ
  b : ℕ
  c : ℕ
  d : ℕ
  e : ℕ

namespace Plane

def add (p q : Plane) : Plane := ⟨p.a ^^^ q.a, p.b ^^^ q.b, p.c ^^^ q.c, p.d ^^^ q.d, p.e ^^^ q.e⟩

/-- For each lane, the one on its left and the one on its right turned by a place. -/
def neighbours (p : Plane) : Plane :=
  ⟨p.e ^^^ turned p.b 1, p.a ^^^ turned p.c 1, p.b ^^^ turned p.d 1, p.c ^^^ turned p.e 1,
    p.d ^^^ turned p.a 1⟩

def masked (x y : ℕ) : ℕ := (18446744073709551615 - x) &&& y

def chi (p : Plane) : Plane :=
  p.add ⟨masked p.b p.c, masked p.c p.d, masked p.d p.e, masked p.e p.a, masked p.a p.b⟩

end Plane

structure Planes where
  p : Plane
  q : Plane
  r : Plane
  s : Plane
  t : Plane

namespace Planes

def map (f : Plane → Plane) (v : Planes) : Planes := ⟨f v.p, f v.q, f v.r, f v.s, f v.t⟩

def add (v w : Planes) : Planes :=
  ⟨v.p.add w.p, v.q.add w.q, v.r.add w.r, v.s.add w.s, v.t.add w.t⟩

def parities (v : Planes) : Plane := (((v.p.add v.q).add v.r).add v.s).add v.t

def theta (v : Planes) : Planes := v.map (·.add v.parities.neighbours)

def rhoPi (v : Planes) : Planes where
  p := ⟨turned v.p.a 0, turned v.q.b 44, turned v.r.c 43, turned v.s.d 21, turned v.t.e 14⟩
  q := ⟨turned v.p.d 28, turned v.q.e 20, turned v.r.a 3, turned v.s.b 45, turned v.t.c 61⟩
  r := ⟨turned v.p.b 1, turned v.q.c 6, turned v.r.d 25, turned v.s.e 8, turned v.t.a 18⟩
  s := ⟨turned v.p.e 27, turned v.q.a 36, turned v.r.b 10, turned v.s.c 15, turned v.t.d 56⟩
  t := ⟨turned v.p.c 62, turned v.q.d 55, turned v.r.e 39, turned v.s.a 41, turned v.t.b 2⟩

def iota (c : ℕ) (v : Planes) : Planes := { v with p := { v.p with a := v.p.a ^^^ c } }

def permute (v : Planes) : Planes :=
  roundConstants.foldl (fun v c => ((v.theta.rhoPi).map Plane.chi).iota c.toNat) v

def number (bs : Bytes) : ℕ :=
  bs.foldr (fun b n => (n <<< 8) % 18446744073709551616 ||| b.toNat) 0

def laneAt (block : Bytes) (i : ℕ) : ℕ := number ((block.drop (8 * i)).take 8)

def planeAt (block : Bytes) (i : ℕ) : Plane :=
  ⟨laneAt block i, laneAt block (i + 1), laneAt block (i + 2), laneAt block (i + 3),
    laneAt block (i + 4)⟩

def ofBlock (block : Bytes) : Planes :=
  ⟨planeAt block 0, planeAt block 5, planeAt block 10, planeAt block 15, planeAt block 20⟩

def absorb : (blocks : ℕ) → Planes → Bytes → Planes
  | 0, v, _ => v
  | n + 1, v, bs => absorb n (v.add (ofBlock (bs.take 136))).permute (bs.drop 136)

def zero : Planes :=
  ⟨⟨0, 0, 0, 0, 0⟩, ⟨0, 0, 0, 0, 0⟩, ⟨0, 0, 0, 0, 0⟩, ⟨0, 0, 0, 0, 0⟩, ⟨0, 0, 0, 0, 0⟩⟩

def hash (message : Bytes) : Word :=
  let v := absorb (message.length / 136 + 1) zero (message ++ padding message.length)
  Word.ofBytes ([v.p.a, v.p.b, v.p.c, v.p.d].flatMap fun n => (Bytes.ofNat 8 n).reverse)

end Planes

/-! ### The planes of the lanes -/

def plane (s : Lanes) (y : ℕ) : Plane :=
  ⟨(lane s 0 y).toNat, (lane s 1 y).toNat, (lane s 2 y).toNat, (lane s 3 y).toNat,
    (lane s 4 y).toNat⟩

def planes (s : Lanes) : Planes := ⟨plane s 0, plane s 1, plane s 2, plane s 3, plane s 4⟩

theorem plane_ofLanes (f : ℕ → ℕ → UInt64) (y : ℕ) :
    plane (ofLanes f) y = ⟨(f 0 (y % 5)).toNat, (f 1 (y % 5)).toNat, (f 2 (y % 5)).toNat,
      (f 3 (y % 5)).toNat, (f 4 (y % 5)).toNat⟩ := by
  simp only [plane, lane_ofLanes, Nat.reduceMod]

theorem parity_ofFn (f : Fin 5 → UInt64) (x : ℕ) :
    parity (Vector.ofFn f) x = f ⟨x % 5, Nat.mod_lt _ (by decide)⟩ := by
  change (Vector.ofFn f)[x % 5] = _
  rw [Vector.getElem_ofFn]

theorem lane_iota_self (c : UInt64) (s : Lanes) : lane (iota c s) 0 0 = lane s 0 0 ^^^ c := by
  change (s.set 0 (s[0] ^^^ c))[0] = _
  rw [Vector.getElem_set_self]
  rfl

theorem lane_iota_of_ne (c : UInt64) (s : Lanes) {x y : ℕ} (h : x % 5 + 5 * (y % 5) ≠ 0) :
    lane (iota c s) x y = lane s x y := by
  change (s.set 0 (s[0] ^^^ c))[x % 5 + 5 * (y % 5)] = _
  rw [Vector.getElem_set_ne _ _ h.symm]
  rfl

theorem planes_theta (s : Lanes) : planes (theta s) = (planes s).theta := by
  simp (disch := decide) only [planes, theta, plane_ofLanes, parities, parity_ofFn, Nat.reduceMod,
    UInt64.toNat_xor, toNat_rotate]
  rfl

theorem planes_rhoPi (s : Lanes) : planes (rhoPi s) = (planes s).rhoPi := by
  simp (disch := decide) only [planes, rhoPi, plane_ofLanes, toNat_rotate]
  rfl

theorem planes_chi (s : Lanes) : planes (chi s) = (planes s).map Plane.chi := by
  simp only [planes, chi, plane_ofLanes, UInt64.toNat_xor, UInt64.toNat_and, toNat_not]
  rfl

theorem planes_iota (c : UInt64) (s : Lanes) : planes (iota c s) = (planes s).iota c.toNat := by
  simp (disch := decide) only [planes, plane, lane_iota_self, lane_iota_of_ne, UInt64.toNat_xor]
  rfl

theorem planes_permute (s : Lanes) : planes (permute s) = (planes s).permute := by
  have hfold (cs : List UInt64) (s : Lanes) :
      planes (cs.foldl (fun s c => iota c (chi (rhoPi (theta s)))) s) =
        cs.foldl (fun v c => ((v.theta.rhoPi).map Plane.chi).iota c.toNat) (planes s) := by
    induction cs generalizing s with
    | nil => rfl
    | cons c cs ih =>
      rw [List.foldl_cons, List.foldl_cons, ih, planes_iota, planes_chi, planes_rhoPi, planes_theta]
  exact hfold roundConstants s

/-! ### The sponge -/

theorem toNat_littleEndian (bs : Bytes) : (littleEndian bs).toNat = Planes.number bs := by
  induction bs with
  | nil => rfl
  | cons b bs ih =>
    rw [littleEndian, List.foldr_cons, Planes.number, List.foldr_cons, UInt64.toNat_or,
      UInt64.toNat_shiftLeft, ← littleEndian, ← Planes.number, ih]
    rfl

theorem planes_mix (s : Lanes) (block : Bytes) :
    planes (mix s block) = (planes s).add (Planes.ofBlock block) := by
  have hlane (x y : ℕ) : (lane (mix s block) x y).toNat =
      (lane s x y).toNat ^^^ Planes.laneAt block (x % 5 + 5 * (y % 5)) := by
    change ((mix s block)[x % 5 + 5 * (y % 5)]).toNat = _
    rw [mix, Vector.getElem_ofFn, UInt64.toNat_xor, toNat_littleEndian]
    rfl
  simp only [planes, plane, hlane, Nat.reduceMod, Nat.reduceMul, Nat.reduceAdd]
  rfl

theorem planes_absorb (blocks : ℕ) (s : Lanes) (bs : Bytes) :
    planes (absorb blocks s bs) = Planes.absorb blocks (planes s) bs := by
  induction blocks generalizing s bs with
  | zero => rfl
  | succ n ih => rw [absorb, ih, planes_permute, planes_mix, Planes.absorb]

theorem planes_zero : planes (Vector.replicate 25 0) = Planes.zero := by
  rfl

end TradingDesk.Keccak

namespace TradingDesk

theorem keccak256_eq (message : Bytes) : keccak256 message = Keccak.Planes.hash message := by
  have habsorb := Keccak.planes_absorb (message.length / 136 + 1) (Vector.replicate 25 0)
    (message ++ Keccak.padding message.length)
  rw [Keccak.planes_zero] at habsorb
  rw [Keccak.Planes.hash, ← habsorb, keccak256, Keccak.digest]
  simp only [List.flatMap_cons, List.flatMap_nil, List.append_nil, ← List.append_assoc]
  rfl

end TradingDesk
