import Mathlib.Algebra.Order.Floor.Ring
import Mathlib.Data.Rat.Floor
import Mathlib.Tactic
import TradingDesk.Decimal.Basic

/-! Decimals as rational numbers. The order is that of the values, and a decimal needs no more
than `dp` places iff its value lies on the grid of the multiples of `10 ^ -dp`, however many
zeros are written after it. -/

namespace TradingDesk.Decimal

theorem tenTo_pos (n : ℕ) : 0 < tenTo n := Nat.pow_pos (by decide)

@[simp] theorem cast_tenTo (n : ℕ) : (tenTo n : ℚ) = 10 ^ n := by
  simp [tenTo]

theorem cast_coeffBound : (coeffBound : ℚ) = 2 ^ 96 := by norm_num [coeffBound]

theorem ten_pow_pos (n : ℕ) : (0 : ℚ) < 10 ^ n := by positivity

theorem toRat_eq (x : Decimal) : x.toRat = x.coeff / 10 ^ x.scale := by
  rw [toRat, Rat.mkRat_eq_div, cast_tenTo]

theorem toRat_mul_pow (x : Decimal) : x.toRat * 10 ^ x.scale = x.coeff := by
  rw [toRat_eq, div_mul_cancel₀ _ (ten_pow_pos _).ne']

theorem toRat_zero : zero.toRat = 0 := by simp [toRat_eq, zero]

theorem toRat_eq_zero {x : Decimal} : x.toRat = 0 ↔ x.coeff = 0 := by
  simp [toRat_eq]

theorem toRat_pos {x : Decimal} : 0 < x.toRat ↔ 0 < x.coeff := by
  rw [toRat_eq, div_pos_iff_of_pos_right (ten_pow_pos _), Int.cast_pos]

theorem toRat_nonneg {x : Decimal} : 0 ≤ x.toRat ↔ 0 ≤ x.coeff := by
  rw [toRat_eq, le_div_iff₀ (ten_pow_pos _), zero_mul, Int.cast_nonneg_iff]

theorem le_iff {x y : Decimal} : x ≤ y ↔ x.toRat ≤ y.toRat := by
  change x.coeff * tenTo y.scale ≤ y.coeff * tenTo x.scale ↔ _
  rw [toRat_eq, toRat_eq, div_le_div_iff₀ (ten_pow_pos _) (ten_pow_pos _), ← cast_tenTo,
    ← cast_tenTo]
  exact_mod_cast Iff.rfl

theorem abs_coeff_lt (x : Decimal) : |(x.coeff : ℚ)| < coeffBound := by
  have h := x.coeff_lt
  rw [← Int.cast_abs, Int.abs_eq_natAbs]
  exact_mod_cast h

theorem abs_mul_pow_lt (x : Decimal) : |x.toRat| * 10 ^ x.scale < coeffBound := by
  rw [← abs_of_pos (ten_pow_pos x.scale), ← abs_mul, toRat_mul_pow]
  exact x.abs_coeff_lt

theorem abs_toRat_lt (x : Decimal) : |x.toRat| < coeffBound - 1 / 2 := by
  have hc : |(x.coeff : ℚ)| + 1 ≤ coeffBound := by exact_mod_cast x.abs_coeff_lt
  have hpow : (1 : ℚ) ≤ 10 ^ x.scale := one_le_pow₀ (by norm_num)
  have hle : |x.toRat| ≤ |(x.coeff : ℚ)| := by
    rw [toRat_eq, abs_div, abs_of_pos (ten_pow_pos _)]
    exact div_le_self (abs_nonneg _) hpow
  linarith

theorem ofCoeff?_eq_some {c : ℤ} {s : ℕ} {x : Decimal} :
    ofCoeff? c s = some x ↔ x.coeff = c ∧ x.scale = s := by
  unfold ofCoeff?
  split_ifs with h
  · constructor
    · rintro ⟨⟩
      exact ⟨rfl, rfl⟩
    · rintro ⟨rfl, rfl⟩
      rfl
  · constructor
    · rintro ⟨⟩
    · rintro ⟨rfl, rfl⟩
      exact absurd ⟨x.coeff_lt, x.scale_le⟩ h

theorem ofCoeff?_eq_none {c : ℤ} {s : ℕ} (hs : s ≤ 28) :
    ofCoeff? c s = none ↔ (coeffBound : ℤ) ≤ |c| := by
  unfold ofCoeff? coeffBound
  rw [Int.abs_eq_natAbs]
  split_ifs with h
  · simp only [false_iff]
    omega
  · simp only [true_iff]
    omega

/-- A coefficient `c` that fits makes a decimal. -/
theorem exists_ofCoeff? {c : ℤ} {s : ℕ} (hs : s ≤ 28) (hc : |c| < coeffBound) :
    ∃ x, ofCoeff? c s = some x ∧ x.toRat = c / 10 ^ s := by
  cases h : ofCoeff? c s with
  | none => exact absurd hc (not_lt.mpr ((ofCoeff?_eq_none hs).mp h))
  | some x =>
    obtain ⟨rfl, rfl⟩ := ofCoeff?_eq_some.mp h
    exact ⟨x, rfl, x.toRat_eq⟩

/-! ### Places -/

/-- `q` is a multiple of `10 ^ -dp`. -/
def Grid (dp : ℕ) (q : ℚ) : Prop := ∃ n : ℤ, q * 10 ^ dp = n

theorem grid_scale (x : Decimal) : Grid x.scale x.toRat := ⟨x.coeff, x.toRat_mul_pow⟩

namespace Grid

variable {a b : ℕ} {p q : ℚ}

theorem mono (h : Grid a q) (hab : a ≤ b) : Grid b q := by
  obtain ⟨n, hn⟩ := h
  refine ⟨n * 10 ^ (b - a), ?_⟩
  rw [show (10 : ℚ) ^ b = 10 ^ a * 10 ^ (b - a) by rw [← pow_add, Nat.add_sub_cancel' hab],
    ← mul_assoc, hn]
  push_cast
  rfl

theorem mul (hp : Grid a p) (hq : Grid b q) : Grid (a + b) (p * q) := by
  obtain ⟨m, hm⟩ := hp
  obtain ⟨n, hn⟩ := hq
  refine ⟨m * n, ?_⟩
  rw [pow_add, mul_mul_mul_comm, hm, hn]
  push_cast
  rfl

/-- A point `q` of the grid that fits there has a decimal. -/
theorem exists_decimal (h : Grid a q) (ha : a ≤ 28) (hq : |q| * 10 ^ a < coeffBound) :
    ∃ x : Decimal, x.toRat = q := by
  obtain ⟨n, hn⟩ := h
  rw [← abs_of_pos (ten_pow_pos a), ← abs_mul, hn] at hq
  obtain ⟨x, -, hx⟩ := exists_ofCoeff? ha (by exact_mod_cast hq)
  exact ⟨x, by rw [hx, ← hn, mul_div_cancel_right₀ _ (ten_pow_pos a).ne']⟩

end Grid

theorem toRat_strip (c : ℤ) (s : ℕ) :
    ((strip c s).1 : ℚ) / 10 ^ (strip c s).2 = c / 10 ^ s := by
  induction s generalizing c with
  | zero => rfl
  | succ s ih =>
    unfold strip
    split_ifs with h
    · have hc : (c : ℚ) = (c / 10 : ℤ) * 10 := by exact_mod_cast (by omega : c = c / 10 * 10)
      rw [ih, hc, pow_succ, mul_div_mul_right _ _ (by norm_num)]
    · rfl

theorem strip_last (c : ℤ) (s : ℕ) : (strip c s).2 = 0 ∨ (strip c s).1 % 10 ≠ 0 := by
  induction s generalizing c with
  | zero => exact Or.inl rfl
  | succ s ih =>
    unfold strip
    split_ifs with h
    · exact ih _
    · exact Or.inr h

theorem toRat_normalize (x : Decimal) : x.normalize.toRat = x.toRat := by
  rw [toRat_eq, toRat_eq]
  exact toRat_strip _ _

theorem places_le_iff {x : Decimal} {dp : ℕ} : x.places ≤ dp ↔ Grid dp x.toRat := by
  constructor
  · intro h
    rw [← toRat_normalize]
    exact x.normalize.grid_scale.mono h
  · rintro ⟨n, hn⟩
    by_contra! h
    have hlast : x.normalize.coeff % 10 ≠ 0 :=
      (strip_last x.coeff x.scale).resolve_left (Nat.ne_zero_of_lt h)
    -- a coefficient with places beyond `dp` would be a multiple of ten
    have hc : x.normalize.coeff = n * 10 ^ (x.places - dp) := by
      have := x.normalize.toRat_mul_pow
      rw [toRat_normalize, show x.normalize.scale = dp + (x.places - dp) by
        unfold places at h ⊢; omega, pow_add, ← mul_assoc, hn] at this
      exact_mod_cast this.symm
    rw [show x.places - dp = (x.places - dp - 1) + 1 by omega, pow_succ, ← mul_assoc] at hc
    omega

theorem places_le_scale (x : Decimal) : x.places ≤ x.scale := places_le_iff.mpr x.grid_scale

/-- `x` and `y` are one decimal without their trailing zeros iff they have one value. -/
theorem normalize_eq_iff {x y : Decimal} : x.normalize = y.normalize ↔ x.toRat = y.toRat := by
  constructor
  · intro h
    rw [← toRat_normalize x, h, toRat_normalize]
  · intro h
    have hscale : x.normalize.scale = y.normalize.scale :=
      le_antisymm (places_le_iff.mpr (h ▸ places_le_iff.mp le_rfl))
        (places_le_iff.mpr (h ▸ places_le_iff.mp le_rfl))
    have hcoeff : x.normalize.coeff = y.normalize.coeff := by
      have hx := x.normalize.toRat_mul_pow
      rw [toRat_normalize, h, hscale, ← toRat_normalize y, toRat_mul_pow] at hx
      exact_mod_cast hx.symm
    rw [Decimal.mk.injEq]
    exact ⟨hcoeff, hscale⟩

end TradingDesk.Decimal
