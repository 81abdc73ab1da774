import TradingDesk.Proofs.Decimal.Nearest

/-! Sums, products and quotients by value. A sum or a product that has a decimal is that
decimal; a quotient is on the same side as the exact one of every step that it could express,
and the two shortcuts, for whole quotients and for divisions that end early, are exact. -/

namespace TradingDesk.Decimal

theorem toRat_mul_toRat (x y : Decimal) :
    x.toRat * y.toRat = ((x.coeff * y.coeff : ℤ) : ℚ) / 10 ^ (x.scale + y.scale) := by
  rw [toRat_eq, toRat_eq, div_mul_div_comm, pow_add]
  push_cast
  rfl

/-- Two short factors `x` and `y` with more than 47 places have a product below every step. -/
theorem abs_mul_lt_of_short {x y : Decimal} (hx : x.coeff.natAbs < 4294967296)
    (hy : y.coeff.natAbs < 4294967296) (hs : 47 < x.scale + y.scale) :
    |x.toRat * y.toRat| * 10 ^ 28 < 1 := by
  have hx' : |(x.coeff : ℚ)| ≤ 4294967296 := by
    rw [← Int.cast_abs, Int.abs_eq_natAbs]; exact_mod_cast hx.le
  have hy' : |(y.coeff : ℚ)| ≤ 4294967296 := by
    rw [← Int.cast_abs, Int.abs_eq_natAbs]; exact_mod_cast hy.le
  have hpow : (10 : ℚ) ^ 48 ≤ 10 ^ (x.scale + y.scale) :=
    pow_le_pow_right₀ (by norm_num) hs
  have hc : |(x.coeff : ℚ)| * |(y.coeff : ℚ)| ≤ 4294967296 * 4294967296 :=
    mul_le_mul hx' hy' (abs_nonneg _) (by norm_num)
  rw [toRat_mul_toRat, abs_div, abs_of_pos (ten_pow_pos _), div_mul_eq_mul_div,
    div_lt_one (ten_pow_pos _)]
  push_cast
  rw [abs_mul]
  linarith

theorem Grid.one_le_abs_mul {k : ℕ} {q : ℚ} (hg : Grid k q) (hq : q ≠ 0) (hk : k ≤ 28) :
    1 ≤ |q| * 10 ^ 28 := by
  obtain ⟨n, hn⟩ := hg.mono hk
  have hn0 : n ≠ 0 := by
    rintro rfl
    simp [hq] at hn
  rw [← abs_of_pos (ten_pow_pos 28), ← abs_mul, hn, ← Int.cast_abs]
  exact_mod_cast Int.one_le_abs hn0

theorem mul?_of_eq_zero {x y : Decimal} (h : x.toRat * y.toRat = 0) : x.mul? y = some zero := by
  unfold mul?
  rw [mul_eq_zero, toRat_eq_zero, toRat_eq_zero] at h
  rw [if_pos h]

/-- On a grid of `k` places, which can be expressed, the shortcut to zero for short factors is not
taken. -/
theorem mul?_eq_fit? {x y : Decimal} {k : ℕ} (hk : k ≤ 28) (hg : Grid k (x.toRat * y.toRat))
    (h0 : x.toRat * y.toRat ≠ 0) :
    x.mul? y = fit? (x.coeff * y.coeff) (x.scale + y.scale) := by
  unfold mul?
  split_ifs with hzero hs
  · rw [← toRat_eq_zero, ← toRat_eq_zero, ← mul_eq_zero] at hzero
    exact absurd hzero h0
  · exact absurd (hg.one_le_abs_mul h0 hk) (not_le.mpr (abs_mul_lt_of_short hs.1 hs.2.1 hs.2.2))
  · rfl

theorem mul?_exact {x y : Decimal} {k : ℕ} (hk : k ≤ 28) (hg : Grid k (x.toRat * y.toRat))
    (hlt : |x.toRat * y.toRat| * 10 ^ k < coeffBound) :
    ∃ z, x.mul? y = some z ∧ z.toRat = x.toRat * y.toRat := by
  by_cases h0 : x.toRat * y.toRat = 0
  · exact ⟨zero, mul?_of_eq_zero h0, by rw [toRat_zero, h0]⟩
  · rw [mul?_eq_fit? hk hg h0]
    rw [toRat_mul_toRat] at hg hlt ⊢
    exact fit?_exact hk hg hlt

/-- A product that is exact on the grid of `k` places has `z` on that grid, near the exact one. -/
theorem mul?_near {x y z : Decimal} {k : ℕ} (hk : k ≤ 28) (hg : Grid k (x.toRat * y.toRat))
    (hz : x.mul? y = some z) :
    Grid k z.toRat ∧ |z.toRat - x.toRat * y.toRat| ≤ |x.toRat * y.toRat| / 10 ^ 28 := by
  have hexact (h : z.toRat = x.toRat * y.toRat) :
      Grid k z.toRat ∧ |z.toRat - x.toRat * y.toRat| ≤ |x.toRat * y.toRat| / 10 ^ 28 := by
    rw [h, sub_self, abs_zero]
    exact ⟨hg, by positivity⟩
  by_cases h0 : x.toRat * y.toRat = 0
  · obtain rfl : zero = z := Option.some.inj ((mul?_of_eq_zero h0).symm.trans hz)
    exact hexact (by rw [toRat_zero, h0])
  have hrounds := fit?_spec (x.coeff * y.coeff) (x.scale + y.scale)
  rw [← mul?_eq_fit? hk hg h0, hz] at hrounds
  dsimp only at hrounds
  rw [← toRat_mul_toRat] at hrounds
  have hs : Grid (x.scale + y.scale) (x.toRat * y.toRat) := x.grid_scale.mul y.grid_scale
  rcases le_or_gt k z.scale with hkz | hkz
  · exact hexact (hrounds.toRat_eq_of_grid (hg.mono hkz))
  rcases le_or_gt (x.scale + y.scale) z.scale with hsz | hsz
  · exact hexact (hrounds.toRat_eq_of_grid (hs.mono hsz))
  · exact ⟨z.grid_scale.mono hkz.le, hrounds.abs_sub_le_of_lt (lt_min hsz (hkz.trans_le hk))⟩

/-- There is no product of `x` and `y` just where the exact one is out of range. -/
theorem mul?_eq_none {x y : Decimal} :
    x.mul? y = none ↔ (coeffBound : ℚ) - 1 / 2 ≤ |x.toRat * y.toRat| := by
  have hbound : (1 : ℚ) ≤ coeffBound - 1 / 2 := by norm_num [coeffBound]
  unfold mul?
  split_ifs with h0 hs
  · rw [← toRat_eq_zero, ← toRat_eq_zero, ← mul_eq_zero] at h0
    simp only [false_iff, not_le, h0, abs_zero]
    linarith
  · have hlt := abs_mul_lt_of_short hs.1 hs.2.1 hs.2.2
    simp only [false_iff, not_le]
    linarith
  · rw [toRat_mul_toRat]
    exact fit?_eq_none

theorem toRat_add_toRat (x y : Decimal) :
    x.toRat + y.toRat = ((x.coeff * tenTo (max x.scale y.scale - x.scale) +
      y.coeff * tenTo (max x.scale y.scale - y.scale) : ℤ) : ℚ) / 10 ^ max x.scale y.scale := by
  have hpow : ∀ s ≤ max x.scale y.scale,
      (10 : ℚ) ^ max x.scale y.scale = 10 ^ s * 10 ^ (max x.scale y.scale - s) := fun s hs => by
    rw [← pow_add, Nat.add_sub_cancel' hs]
  push_cast [cast_tenTo]
  rw [eq_div_iff (ten_pow_pos _).ne', add_mul]
  congr 1
  · rw [hpow x.scale (le_max_left _ _), ← mul_assoc, toRat_mul_pow]
  · rw [hpow y.scale (le_max_right _ _), ← mul_assoc, toRat_mul_pow]

theorem add?_exact {x y : Decimal} {k : ℕ} (hk : k ≤ 28) (hg : Grid k (x.toRat + y.toRat))
    (hlt : |x.toRat + y.toRat| * 10 ^ k < coeffBound) :
    ∃ z, x.add? y = some z ∧ z.toRat = x.toRat + y.toRat := by
  unfold add?
  split_ifs with hx hy
  · exact ⟨y, rfl, by rw [toRat_eq_zero.mpr hx, zero_add]⟩
  · exact ⟨x, rfl, by rw [toRat_eq_zero.mpr hy, add_zero]⟩
  · rw [toRat_add_toRat] at hg hlt ⊢
    exact fit?_exact hk hg hlt

/-- A sum that is in range has a decimal `z` near it. -/
theorem exists_add? {x y : Decimal} (h : |x.toRat + y.toRat| < coeffBound - 1 / 2) :
    ∃ z, x.add? y = some z := by
  unfold add?
  split_ifs with hx hy
  · exact ⟨y, rfl⟩
  · exact ⟨x, rfl⟩
  · rw [toRat_add_toRat] at h
    exact Option.ne_none_iff_exists'.mp (mt fit?_eq_none.mp (not_le.mpr h))

/-! ### Trailing zeros of a quotient -/

@[simp] theorem toRat_dropZeros (k : ℕ) (x : Decimal) : (x.dropZeros k).toRat = x.toRat := by
  unfold dropZeros
  split_ifs with h
  · obtain ⟨c, hc⟩ := Int.dvd_of_emod_eq_zero h.1
    have hk : (tenTo k : ℤ) ≠ 0 := by exact_mod_cast (tenTo_pos k).ne'
    have hpow : (10 : ℚ) ^ x.scale = 10 ^ k * 10 ^ (x.scale - k) := by
      rw [← pow_add, Nat.add_sub_cancel' h.2]
    rw [toRat_eq, toRat_eq]
    change ((x.coeff / tenTo k : ℤ) : ℚ) / 10 ^ (x.scale - k) = _
    rw [hc, Int.mul_ediv_cancel_left _ hk, hpow]
    push_cast [cast_tenTo]
    rw [mul_div_mul_left _ _ (ten_pow_pos k).ne']
  · rfl

@[simp] theorem toRat_dropEights (n : ℕ) (x : Decimal) : (dropEights n x).toRat = x.toRat := by
  induction n generalizing x with
  | zero => rfl
  | succ n ih =>
    unfold dropEights
    split_ifs
    · rw [ih, toRat_dropZeros]
    · rfl

@[simp] theorem toRat_trimmed (x : Decimal) : x.trimmed.toRat = x.toRat := by
  simp only [trimmed, toRat_dropZeros, toRat_dropEights]

/-! ### Quotients -/

theorem toRat_div_toRat {x y : Decimal} (hy : y.coeff ≠ 0) :
    ((x.coeff * y.coeff.sign * tenTo y.scale : ℤ) : ℚ) /
      ((y.coeff.natAbs * tenTo x.scale : ℕ) : ℚ) = x.toRat / y.toRat := by
  have hsign : (y.coeff.sign : ℚ) * y.coeff = y.coeff.natAbs := by
    rw [← Int.cast_mul, Int.sign_mul_self_eq_natAbs, Int.cast_natCast]
  have habs : (y.coeff.natAbs : ℚ) ≠ 0 := by exact_mod_cast Int.natAbs_ne_zero.mpr hy
  have hy' : (y.coeff : ℚ) ≠ 0 := by exact_mod_cast hy
  rw [toRat_eq, toRat_eq]
  simp only [Int.cast_mul, Nat.cast_mul, Int.cast_natCast, cast_tenTo]
  rw [div_div_div_eq, div_eq_div_iff (mul_ne_zero habs (ten_pow_pos _).ne')
    (mul_ne_zero (ten_pow_pos _).ne' hy')]
  linear_combination (x.coeff : ℚ) * 10 ^ y.scale * 10 ^ x.scale * hsign

/-- Coefficients that divide each other have their quotient as a decimal, or it is out of range. -/
theorem ofCoeff?_quotient_of_dvd {x y : Decimal} (hy : y.coeff ≠ 0)
    (hdvd : x.coeff.natAbs % y.coeff.natAbs = 0) :
    match ofCoeff? (x.coeff / y.coeff * tenTo (y.scale - x.scale)) (x.scale - y.scale) with
    | some z => z.toRat = x.toRat / y.toRat
    | none => (coeffBound : ℚ) ≤ |x.toRat / y.toRat| := by
  obtain ⟨c, hc⟩ : y.coeff ∣ x.coeff := Int.natAbs_dvd_natAbs.mp (Nat.dvd_of_mod_eq_zero hdvd)
  have hy' : (y.coeff : ℚ) ≠ 0 := by exact_mod_cast hy
  rw [hc, Int.mul_ediv_cancel_left _ hy]
  have hval : x.toRat / y.toRat = ((c * tenTo (y.scale - x.scale) : ℤ) : ℚ) /
      10 ^ (x.scale - y.scale) := by
    have hpow : (10 : ℚ) ^ y.scale * 10 ^ (x.scale - y.scale) =
        10 ^ x.scale * 10 ^ (y.scale - x.scale) := by
      rw [← pow_add, ← pow_add]
      congr 1
      omega
    rw [toRat_eq, toRat_eq, hc]
    push_cast [cast_tenTo]
    rw [div_div_div_eq, div_eq_div_iff (mul_ne_zero (ten_pow_pos _).ne' hy')
      (ten_pow_pos _).ne']
    linear_combination (y.coeff : ℚ) * c * hpow
  rw [hval]
  split
  next z hz =>
    obtain ⟨hcoeff, hscale⟩ := ofCoeff?_eq_some.mp hz
    rw [toRat_eq, hcoeff, hscale]
  next hz =>
    have hbound := (ofCoeff?_eq_none ((Nat.sub_le _ _).trans x.scale_le)).mp hz
    rcases le_total y.scale x.scale with hs | hs
    · have hle : |c| ≤ |x.coeff| := by
        rw [hc, abs_mul]
        exact le_mul_of_one_le_left (abs_nonneg c) (Int.one_le_abs hy)
      have hx : |x.coeff| < coeffBound := by exact_mod_cast x.abs_coeff_lt
      rw [Nat.sub_eq_zero_of_le hs, show tenTo 0 = 1 from rfl, Nat.cast_one, mul_one] at hbound
      exact absurd (hle.trans_lt hx) (not_lt.mpr hbound)
    · rw [Nat.sub_eq_zero_of_le hs, pow_zero, div_one]
      exact_mod_cast hbound

/-- The places at which the division of `x` by `y` ends, of at most `top`. -/
def quotientPlaces (x y : Decimal) (top : ℕ) : ℕ :=
  divisionEnd x.coeff.natAbs y.coeff.natAbs ((x.scale : ℤ) - y.scale) top 7 0

theorem div?_of_not_dvd {x y : Decimal} (hx : x.coeff ≠ 0) (hy : y.coeff ≠ 0)
    (hdvd : x.coeff.natAbs % y.coeff.natAbs ≠ 0) :
    x.div? y = (quotient? (x.coeff * y.coeff.sign * tenTo y.scale)
      (y.coeff.natAbs * tenTo x.scale)).bind fun q =>
        (ofCoeff? (nearestEven (x.toRat / y.toRat * 10 ^ quotientPlaces x y q.scale))
          (quotientPlaces x y q.scale)).map trimmed := by
  have hd : 0 < y.coeff.natAbs * tenTo x.scale :=
    Nat.mul_pos (Int.natAbs_pos.mpr hy) (tenTo_pos _)
  have hround : ∀ k, halfEven (x.coeff * y.coeff.sign * tenTo y.scale * tenTo k)
      (y.coeff.natAbs * tenTo x.scale) = nearestEven (x.toRat / y.toRat * 10 ^ k) := fun k => by
    rw [halfEven_eq _ hd, ← toRat_div_toRat hy, div_mul_eq_mul_div]
    push_cast [cast_tenTo]
    rfl
  unfold div?
  rw [if_neg hy, if_neg hx, if_neg hdvd]
  simp only [Option.bind_eq_bind, hround, quotientPlaces]
  congr 1
  funext q
  cases ofCoeff? _ _ <;> rfl

theorem divisionEnd_spec (n d : ℕ) (start : ℤ) (top fuel t : ℕ) :
    divisionEnd n d start top fuel t = top ∨ ∃ u, n * tenTo u % d = 0 ∧ start + u < top ∧
      divisionEnd n d start top fuel t = (start + u).toNat := by
  induction fuel generalizing t with
  | zero => exact Or.inl rfl
  | succ fuel ih =>
    unfold divisionEnd
    split_ifs with htop hrem
    · exact Or.inl rfl
    · exact Or.inr ⟨t, hrem, not_le.mp htop, rfl⟩
    · exact ih _

/-- A division that ends before the last place leaves nothing to round. -/
theorem quotientPlaces_spec {x y : Decimal} (hy : y.coeff ≠ 0) (top : ℕ) :
    quotientPlaces x y top = top ∨
      quotientPlaces x y top ≤ top ∧ Grid (quotientPlaces x y top) (x.toRat / y.toRat) := by
  refine (divisionEnd_spec x.coeff.natAbs y.coeff.natAbs ((x.scale : ℤ) - y.scale) top 7 0).imp_right
    fun ⟨u, hu, hbefore, hk⟩ => ?_
  rw [← quotientPlaces] at hk
  obtain ⟨m, hm⟩ : y.coeff ∣ x.coeff * tenTo u := by
    rw [← Int.natAbs_dvd_natAbs, Int.natAbs_mul, Int.natAbs_natCast]
    exact Nat.dvd_of_mod_eq_zero hu
  have hm' : (x.coeff : ℚ) * 10 ^ u = y.coeff * m := by
    rw [← cast_tenTo]; exact_mod_cast hm
  have hy' : (y.coeff : ℚ) ≠ 0 := by exact_mod_cast hy
  set k := quotientPlaces x y top
  refine ⟨by omega, m * 10 ^ (k + y.scale - (x.scale + u)), ?_⟩
  have hpow : (10 : ℚ) ^ y.scale * 10 ^ k =
      10 ^ x.scale * 10 ^ u * 10 ^ (k + y.scale - (x.scale + u)) := by
    rw [← pow_add, ← pow_add, ← pow_add]
    congr 1
    omega
  rw [toRat_eq, toRat_eq, div_div_div_eq, div_mul_eq_mul_div, mul_assoc, hpow,
    div_eq_iff (mul_ne_zero (ten_pow_pos _).ne' hy')]
  push_cast
  linear_combination (10 : ℚ) ^ x.scale * 10 ^ (k + y.scale - (x.scale + u)) * hm'

/-- What `r` rounds is rounded again, to `k` places: at the last place, or where nothing is left to
round. -/
theorem Rounds.again {q : ℚ} {r : Decimal} (h : Rounds q maxScale r) {k : ℕ}
    (hk : k = r.scale ∨ k ≤ r.scale ∧ Grid k q) :
    ∃ z, ofCoeff? (nearestEven (q * 10 ^ k)) k = some z ∧ (z = r ∨ z.toRat = q) := by
  rcases hk with rfl | ⟨hkr, n, hn⟩
  · exact ⟨r, ofCoeff?_eq_some.mpr ⟨h.coeff_eq, rfl⟩, Or.inl rfl⟩
  · have hpow : (10 : ℚ) ^ k ≤ 10 ^ r.scale := pow_le_pow_right₀ (by norm_num) hkr
    have hlt : |(n : ℚ)| < coeffBound := by
      rw [← hn, abs_mul, abs_of_pos (ten_pow_pos k)]
      linarith [mul_le_mul_of_nonneg_left hpow (abs_nonneg q), h.abs_mul_lt]
    obtain ⟨z, hz, hval⟩ := exists_ofCoeff? (hkr.trans r.scale_le) (by exact_mod_cast hlt)
    rw [hn, nearestEven_intCast]
    refine ⟨z, hz, Or.inr ?_⟩
    rw [hval, ← hn, mul_div_cancel_right₀ _ (ten_pow_pos k).ne']

/-- A quotient `z` is the exact one or one rounding of it, and there is none just where the exact
one is out of range. -/
theorem div?_spec {x y : Decimal} (hy : y.toRat ≠ 0) :
    match x.div? y with
    | some z => z.toRat = x.toRat / y.toRat ∨
        ∃ r, Rounds (x.toRat / y.toRat) maxScale r ∧ z.toRat = r.toRat
    | none => (coeffBound : ℚ) - 1 / 2 ≤ |x.toRat / y.toRat| := by
  have hy0 : y.coeff ≠ 0 := mt toRat_eq_zero.mpr hy
  by_cases hx : x.coeff = 0
  · rw [div?, if_neg hy0, if_pos hx, toRat_eq_zero.mpr hx, zero_div]
    exact Or.inl toRat_zero
  by_cases hdvd : x.coeff.natAbs % y.coeff.natAbs = 0
  · have hquot := ofCoeff?_quotient_of_dvd hy0 hdvd
    rw [div?, if_neg hy0, if_neg hx, if_pos hdvd]
    split at hquot
    next => exact Or.inl hquot
    next =>
      change (coeffBound : ℚ) - 1 / 2 ≤ _
      linarith
  · have hspec := quotient?_spec (x.coeff * y.coeff.sign * tenTo y.scale)
      (Nat.mul_pos (Int.natAbs_pos.mpr hy0) (tenTo_pos x.scale))
    rw [div?_of_not_dvd hx hy0 hdvd]
    rw [toRat_div_toRat hy0] at hspec
    cases hr : quotient? (x.coeff * y.coeff.sign * tenTo y.scale)
        (y.coeff.natAbs * tenTo x.scale) with
    | none =>
      rw [hr] at hspec
      exact not_lt.mp (mt abs_nearestEven_lt_iff.mpr (not_lt.mpr hspec))
    | some r =>
      rw [hr] at hspec
      obtain ⟨z, hz, hzr⟩ := hspec.again (quotientPlaces_spec hy0 r.scale)
      rw [Option.bind_some, hz, Option.map_some]
      dsimp only
      rw [toRat_trimmed]
      rcases hzr with rfl | hval
      · exact Or.inr ⟨z, hspec, rfl⟩
      · exact Or.inl hval

theorem div?_eq_none {x y : Decimal} (hy : y.toRat ≠ 0) :
    x.div? y = none ↔ (coeffBound : ℚ) - 1 / 2 ≤ |x.toRat / y.toRat| := by
  have hspec := div?_spec (x := x) hy
  cases hz : x.div? y with
  | none =>
    rw [hz] at hspec
    exact ⟨fun _ => hspec, fun _ => rfl⟩
  | some z =>
    rw [hz] at hspec
    simp only [reduceCtorEq, false_iff, not_le]
    rcases hspec with hval | ⟨r, hr, -⟩
    · rw [← hval]
      exact z.abs_toRat_lt
    · exact hr.abs_lt

theorem div?_near {x y z : Decimal} (hy : y.toRat ≠ 0) (hz : x.div? y = some z) :
    |z.toRat - x.toRat / y.toRat| ≤ (1 + |x.toRat / y.toRat|) / 10 ^ 28 := by
  have hspec := div?_spec (x := x) hy
  rw [hz] at hspec
  rcases hspec with hval | ⟨r, hr, hval⟩
  · rw [hval, sub_self, abs_zero]
    positivity
  · rw [hval, add_div]
    rcases hr.scale_le.lt_or_eq with hlt | heq
    · exact (hr.abs_sub_le_of_lt hlt).trans (le_add_of_nonneg_left (by positivity))
    · have hlast := hr.abs_sub_mul_le
      rw [heq] at hlast
      refine le_trans ?_ (le_add_of_nonneg_right (by positivity))
      rw [le_div_iff₀ (by positivity)]
      exact hlast.trans (by norm_num)

/-- A quotient that is in range with `t` places stays on its side of every step of `t`
places. -/
theorem div?_tracks {x y : Decimal} (hy : y.toRat ≠ 0) {t : ℕ} (ht : t ≤ 28)
    (hlt : |x.toRat / y.toRat| * 10 ^ t < coeffBound - 1 / 2) :
    ∃ z, x.div? y = some z ∧ Tracks (x.toRat / y.toRat) t z := by
  have hq : |x.toRat / y.toRat| < coeffBound - 1 / 2 :=
    (le_mul_of_one_le_right (abs_nonneg _) (one_le_pow₀ (by norm_num))).trans_lt hlt
  obtain ⟨z, hz⟩ := Option.ne_none_iff_exists'.mp (mt (div?_eq_none hy).mp (not_le.mpr hq))
  have hspec := div?_spec (x := x) hy
  rw [hz] at hspec
  refine ⟨z, hz, ?_⟩
  rcases hspec with hval | ⟨r, hr, hval⟩
  · exact Tracks.of_eq hval
  · have htr := hr.tracks (hr.le_scale ht (by rwa [abs_mul, abs_of_pos (ten_pow_pos t)]))
    constructor <;> rw [hval]
    exacts [htr.le_of_le, htr.ge_of_ge]

end TradingDesk.Decimal
