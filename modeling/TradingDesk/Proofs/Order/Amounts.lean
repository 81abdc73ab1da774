import Mathlib.Algebra.Order.Floor.Semifield
import TradingDesk.Proofs.Order.Precision

/-! The amounts of an order by value. A size and a price on their grids have a product that is
exact and fits the places of an amount, and a quotient is fitted to its exact floor: a price
below one is a fraction whose numerator is too small to lift the quotient to the next step.
Base units are the floor of the scaled amount wherever that is below `2 ^ 96`. -/

namespace TradingDesk.Amounts

open Decimal

/-! ### Base units -/

theorem truncated_eq (x : Decimal) : truncated x = ⌊|x.toRat|⌋₊ := by
  have h : |x.toRat| = (x.coeff.natAbs : ℚ) / (tenTo x.scale : ℕ) := by
    rw [toRat_eq, abs_div, abs_of_pos (ten_pow_pos _), cast_tenTo, ← Int.cast_abs,
      Int.abs_eq_natAbs, Int.cast_natCast]
  rw [h, Nat.floor_div_eq_div]
  rfl

/-- No decimal is too large for 128 bits. -/
theorem whole?_eq (x : Decimal) : whole? x = some (truncated x) := by
  have hcoeff : truncated x ≤ x.coeff.natAbs := Nat.div_le_self _ _
  have hlt := x.coeff_lt
  rw [whole?, if_pos (by omega)]

theorem baseUnits_of_unit? {x u : Decimal} {n : ℕ} (hu : unit? n = some u) :
    baseUnits x n = (product x u).map fun z => BitVec.ofNat 256 (truncated z) := by
  simp only [baseUnits, hu]
  cases product x u with
  | error e => rfl
  | ok z =>
    rw [ok_bind, whole?_eq]
    rfl

theorem unit?_of_le {n : ℕ} (hn : n ≤ 19) : ∃ u, unit? n = some u ∧ u.toRat = 10 ^ n := by
  have hpow : |(tenTo n : ℤ)| < coeffBound := by
    rw [Nat.abs_cast]
    have : tenTo n ≤ tenTo 19 := Nat.pow_le_pow_right (by decide) hn
    have : tenTo 19 < coeffBound := by decide
    omega
  obtain ⟨u, hu, hval⟩ := exists_ofCoeff? (s := 0) (by decide) hpow
  refine ⟨u, by rw [unit?, if_pos hn, hu], ?_⟩
  rw [hval, pow_zero, div_one, Int.cast_natCast, cast_tenTo]

/-- Scaling moves the point of a decimal, so that no digit is lost. -/
theorem exists_grid_mul_pow (x : Decimal) (n : ℕ) (hlt : |x.toRat| * 10 ^ n < coeffBound) :
    ∃ k ≤ 28, Grid k (x.toRat * 10 ^ n) ∧ |x.toRat * 10 ^ n| * 10 ^ k < coeffBound := by
  rw [abs_mul, abs_of_pos (ten_pow_pos n)]
  rcases le_total x.scale n with hs | hs
  · obtain ⟨m, hm⟩ := x.grid_scale.mono hs
    exact ⟨0, by decide, ⟨m, by rw [pow_zero, mul_one, hm]⟩, by rwa [pow_zero, mul_one]⟩
  · have hpow : ∀ v : ℚ, v * 10 ^ n * 10 ^ (x.scale - n) = v * 10 ^ x.scale := fun v => by
      rw [mul_assoc, ← pow_add, Nat.add_sub_cancel' hs]
    refine ⟨x.scale - n, (Nat.sub_le _ _).trans x.scale_le, ⟨x.coeff, ?_⟩, ?_⟩
    · rw [hpow, toRat_mul_pow]
    · rw [hpow]
      exact x.abs_mul_pow_lt

theorem toRat_of_unit? {u : Decimal} {n : ℕ} (hu : unit? n = some u) :
    n ≤ 19 ∧ u.toRat = 10 ^ n := by
  have hn : n ≤ 19 := by
    by_contra hn
    rw [unit?, if_neg hn] at hu
    cases hu
  obtain ⟨v, hv, hval⟩ := unit?_of_le hn
  cases hv.symm.trans hu
  exact ⟨hn, hval⟩

theorem exists_mul?_unit? {x u : Decimal} {n : ℕ} (hu : unit? n = some u)
    (hlt : |x.toRat| * 10 ^ n < coeffBound) :
    ∃ z, x.mul? u = some z ∧ z.toRat = x.toRat * 10 ^ n := by
  obtain ⟨k, hk, hg, hbound⟩ := exists_grid_mul_pow x n hlt
  rw [← (toRat_of_unit? hu).2] at hg hbound ⊢
  exact mul?_exact hk hg hbound

theorem mul?_unit?_of_le {x u : Decimal} {n : ℕ} (hu : unit? n = some u)
    (h : coeffBound ≤ |x.toRat| * 10 ^ n) : x.mul? u = none :=
  mul?_eq_none.mpr (by
    rw [(toRat_of_unit? hu).2, abs_mul, abs_of_pos (ten_pow_pos n)]
    linarith)

/-- A product with the power of ten `u` keeps every digit of `x`, or there is none. -/
theorem toRat_of_mul?_unit? {x u z : Decimal} {n : ℕ} (hu : unit? n = some u)
    (hz : x.mul? u = some z) : z.toRat = x.toRat * 10 ^ n := by
  rcases lt_or_ge (|x.toRat| * 10 ^ n) coeffBound with hlt | hle
  · obtain ⟨y, hy, hval⟩ := exists_mul?_unit? hu hlt
    cases hy.symm.trans hz
    exact hval
  · rw [mul?_unit?_of_le hu hle] at hz
    cases hz

theorem truncated_of_mul?_unit? {x u z : Decimal} {n : ℕ} (hu : unit? n = some u)
    (hz : x.mul? u = some z) : truncated z = ⌊|x.toRat| * 10 ^ n⌋₊ := by
  rw [truncated_eq, toRat_of_mul?_unit? hu hz, abs_mul, abs_of_pos (ten_pow_pos n)]

theorem exists_baseUnits {x : Decimal} {n : ℕ} (hn : n ≤ 19)
    (hlt : |x.toRat| * 10 ^ n < coeffBound) :
    ∃ w, baseUnits x n = .ok w ∧ w.toNat = ⌊|x.toRat| * 10 ^ n⌋₊ := by
  obtain ⟨u, hu, -⟩ := unit?_of_le hn
  obtain ⟨z, hz, -⟩ := exists_mul?_unit? hu hlt
  refine ⟨BitVec.ofNat 256 (truncated z), ?_, ?_⟩
  · rw [baseUnits_of_unit? hu, product_eq_ok.mpr hz]
    rfl
  · have hfloor : ⌊|x.toRat| * 10 ^ n⌋₊ < coeffBound := (Nat.floor_lt (by positivity)).mpr hlt
    rw [truncated_of_mul?_unit? hu hz, BitVec.toNat_ofNat]
    exact Nat.mod_eq_of_lt (hfloor.trans (by decide))

theorem baseUnits_of_le {x : Decimal} {n : ℕ} (hn : n ≤ 19)
    (h : coeffBound ≤ |x.toRat| * 10 ^ n) :
    baseUnits x n = .error (.invalid .amountOverflow) := by
  obtain ⟨u, hu, -⟩ := unit?_of_le hn
  rw [baseUnits_of_unit? hu, product, mul?_unit?_of_le hu h]
  rfl

theorem baseUnits_of_lt {x : Decimal} {n : ℕ} (hn : 19 < n) :
    baseUnits x n = .error (.invalid (.tokenDecimals n)) := by
  rw [baseUnits, unit?, if_neg (not_le.mpr hn)]

theorem baseUnits_onlyInvalid (x : Decimal) (n : ℕ) : OnlyInvalid (baseUnits x n) := by
  rcases le_or_gt n 19 with hn | hn
  · obtain ⟨u, hu, -⟩ := unit?_of_le hn
    rw [baseUnits_of_unit? hu]
    exact (product_outcome _ _).onlyInvalid.map _
  · rw [baseUnits_of_lt hn]
    exact .error _

/-- A whole number of base units is counted exactly. -/
theorem exists_baseUnits_of_grid {x : Decimal} {n : ℕ} (hn : n ≤ 19) (hx : 0 ≤ x.toRat)
    (hg : Grid n x.toRat) (hlt : x.toRat * 10 ^ n < coeffBound) :
    ∃ w, baseUnits x n = .ok w ∧ (w.toNat : ℚ) = x.toRat * 10 ^ n := by
  obtain ⟨w, hw, hval⟩ := exists_baseUnits hn (by rwa [abs_of_nonneg hx])
  refine ⟨w, hw, ?_⟩
  obtain ⟨m, hm⟩ := hg
  have hm0 : 0 ≤ m := by
    have := mul_nonneg hx (ten_pow_pos n).le
    rw [hm] at this
    exact_mod_cast this
  lift m to ℕ using hm0
  rw [hval, abs_of_nonneg hx, hm, Int.cast_natCast, Nat.floor_natCast]

theorem baseUnits_eq_ok {x : Decimal} {n : ℕ} {w : Word} : baseUnits x n = .ok w ↔
    n ≤ 19 ∧ |x.toRat| * 10 ^ n < coeffBound ∧ w.toNat = ⌊|x.toRat| * 10 ^ n⌋₊ := by
  rcases le_or_gt n 19 with hn | hn
  · rcases lt_or_ge (|x.toRat| * 10 ^ n) coeffBound with hlt | hle
    · obtain ⟨v, hv, hval⟩ := exists_baseUnits hn hlt
      rw [hv, Except.ok.injEq, ← hval, ← BitVec.toNat_inj, eq_comm]
      exact ⟨fun h => ⟨hn, hlt, h⟩, fun h => h.2.2⟩
    · rw [baseUnits_of_le hn hle]
      exact ⟨nofun, fun h => absurd h.2.1 (not_lt.mpr hle)⟩
  · rw [baseUnits_of_lt hn]
    exact ⟨nofun, fun h => absurd h.1 (not_le.mpr hn)⟩

/-- The base units of `x` are counted just where the `n`th power of ten fits 64 bits and the scaled
amount 96, and then they are its floor. The product is exact, and its whole part a number of 128
bits, so nothing is rounded and the last check never fails; the other amounts are refused for their
product and the other powers of ten for themselves. -/
theorem baseUnits_exact (x : Decimal) (n : ℕ) :
    ((∃ w, baseUnits x n = .ok w) ↔ n ≤ 19 ∧ |x.toRat| * 10 ^ n < 2 ^ 96) ∧
    (∀ w, baseUnits x n = .ok w → w.toNat = ⌊|x.toRat| * 10 ^ n⌋₊) ∧
    (∀ u z, unit? n = some u → x.mul? u = some z → z.toRat = x.toRat * 10 ^ n ∧
      whole? z = some ⌊|x.toRat| * 10 ^ n⌋₊) ∧
    ((¬ ∃ w, baseUnits x n = .ok w) →
      baseUnits x n = .error (.invalid (if n ≤ 19 then .amountOverflow else .tokenDecimals n))) := by
  have hbound : (2 : ℚ) ^ 96 = coeffBound := by norm_num [coeffBound]
  rw [hbound]
  refine ⟨⟨?_, ?_⟩, ?_, ?_, ?_⟩
  · rintro ⟨w, hw⟩
    obtain ⟨hn, hlt, -⟩ := baseUnits_eq_ok.mp hw
    exact ⟨hn, hlt⟩
  · rintro ⟨hn, hlt⟩
    obtain ⟨w, hw, -⟩ := exists_baseUnits hn hlt
    exact ⟨w, hw⟩
  · intro w hw
    exact (baseUnits_eq_ok.mp hw).2.2
  · intro u z hu hz
    exact ⟨toRat_of_mul?_unit? hu hz, by rw [whole?_eq, truncated_of_mul?_unit? hu hz]⟩
  · intro hnone
    split_ifs with hn
    · refine baseUnits_of_le hn (not_lt.mp fun hlt => hnone ?_)
      obtain ⟨w, hw, -⟩ := exists_baseUnits hn hlt
      exact ⟨w, hw⟩
    · exact baseUnits_of_lt (not_le.mp hn)

/-- The largest coefficient. With all its places it is scaled as far as a power of ten goes, and
more than half a unit is cut off; as a whole number it cannot be scaled at all. -/
theorem baseUnits_exact_largest :
    let small : Decimal := ⟨79228162514264337593543950335, 28, by decide, by decide⟩
    let large : Decimal := ⟨-79228162514264337593543950335, 0, by decide, by decide⟩
    (∃ w, baseUnits small 19 = .ok w ∧ w.toNat = 79228162514264337593) ∧
      baseUnits large 1 = .error (.invalid .amountOverflow) ∧
      baseUnits small 20 = .error (.invalid (.tokenDecimals 20)) := by
  intro small large
  have hsmall : |small.toRat| * 10 ^ 19 = 79228162514264337593543950335 / 10 ^ 9 := by
    rw [toRat_eq]
    norm_num [small]
  have hlarge : |large.toRat| * 10 ^ 1 = 792281625142643375935439503350 := by
    rw [toRat_eq]
    norm_num [large]
  refine ⟨?_, ?_, ?_⟩
  · obtain ⟨w, hw⟩ := (baseUnits_exact small 19).1.mpr ⟨by decide, by rw [hsmall]; norm_num⟩
    refine ⟨w, hw, ?_⟩
    rw [(baseUnits_exact small 19).2.1 w hw, hsmall, Nat.floor_eq_iff (by positivity)]
    norm_num
  · refine (baseUnits_exact large 1).2.2.2 fun hok => ?_
    have hlt := ((baseUnits_exact large 1).1.mp hok).2
    rw [hlarge] at hlt
    norm_num at hlt
  · exact (baseUnits_exact small 20).2.2.2 fun hok =>
      absurd ((baseUnits_exact small 20).1.mp hok).1 (by decide)

/-! ### Prices that multiply -/

variable {t : Tick} {size price : Decimal}

/-- A `size` in hundredths and a `price` on the grid of the market have an exact product, and it has
no more places than an amount may have. -/
theorem exists_worth (hg : Grid t.places price.toRat)
    (hlt : |floorAt 2 size.toRat * price.toRat| * 10 ^ 6 < coeffBound) :
    ∃ w v, product (size.floorTo 2) price = .ok w ∧ w.fitTo? (t.places + 2) = some v ∧
      v.toRat = floorAt 2 size.toRat * price.toRat := by
  have hd := t.places_mem.2
  have hgrid : Grid (t.places + 2) (floorAt 2 size.toRat * price.toRat) :=
    ((grid_floorAt 2 _).mul hg).mono (by omega)
  rw [← toRat_floorTo] at hlt hgrid ⊢
  obtain ⟨w, hw, hwval⟩ := mul?_exact (by decide) (hgrid.mono (show t.places + 2 ≤ 6 by omega)) hlt
  obtain ⟨v, hv, hvval⟩ := exists_fitTo? w (t.places + 2)
  refine ⟨w, v, product_eq_ok.mpr hw, hv, ?_⟩
  rw [hvval, hwval, hgrid.fitAt_eq le_rfl (lt_add_of_pos_right _ (by positivity))]

theorem exists_sale (hg : Grid t.places price.toRat)
    (hlt : |floorAt 2 size.toRat * price.toRat| * 10 ^ 6 < coeffBound) :
    ∃ a, sale size price t.precision = .ok a ∧ a.maker.toRat = floorAt 2 size.toRat ∧
      a.taker.toRat = floorAt 2 size.toRat * price.toRat := by
  obtain ⟨w, v, hw, hv, hval⟩ := exists_worth hg hlt
  refine ⟨⟨size.floorTo 2, v⟩, ?_, toRat_floorTo _ _, hval⟩
  change product (size.floorTo 2) price >>= _ = _
  rw [hw, ok_bind, show t.precision.amount = t.places + 2 from rfl, hv]
  rfl

theorem exists_limit (side : Side) (h : t.admits price = true) (hs : 0 ≤ floorAt 2 size.toRat)
    (hlt : floorAt 2 size.toRat * 10 ^ 6 < coeffBound) :
    ∃ a, limit side size price t.precision = .ok a ∧
      (side.tokens a.maker a.taker).toRat = floorAt 2 size.toRat ∧
      (side.collateral a.maker a.taker).toRat =
        floorAt 2 size.toRat * nearestAt t.places price.toRat := by
  obtain ⟨p, hp, hpval⟩ := Tick.exists_nearestTo?_of_admits h
  obtain ⟨hlow, hhigh⟩ := Tick.nearestAt_mem h
  have hmem := t.value_mem
  have hg : Grid t.places p.toRat := by
    rw [hpval]
    exact grid_nearestAt _ _
  have hworth : |floorAt 2 size.toRat * p.toRat| * 10 ^ 6 < coeffBound := by
    have hp0 : 0 ≤ p.toRat := by linarith
    have hp1 : p.toRat ≤ 1 := by linarith
    rw [abs_of_nonneg (mul_nonneg hs hp0)]
    nlinarith [mul_le_of_le_one_right hs hp1]
  unfold limit
  rw [show t.precision.price = t.places from rfl, hp, inRange_some, ok_bind, ← hpval]
  cases side with
  | buy =>
    obtain ⟨w, v, hw, hv, hval⟩ := exists_worth hg hworth
    refine ⟨⟨v, size.floorTo 2⟩, ?_, toRat_floorTo _ _, hval⟩
    change product (size.floorTo 2) p >>= _ = _
    rw [hw, ok_bind, show t.precision.amount = t.places + 2 from rfl, hv]
    rfl
  | sell => exact exists_sale hg hworth

/-! ### Prices that divide -/

/-- If `q` is, in steps of `dp` places, a fraction `m / k` with `k` at most ten thousand, it leaves
so much room below the next step that the ceiling at four more places does not reach it. -/
theorem fit_eq_floorAt {q : ℚ} {z : Decimal} {dp : ℕ} (h : Tracks q (dp + 4) z) {m : ℤ} {k : ℕ}
    (hk0 : 0 < k) (hk : k ≤ 10 ^ 4) (hq : q * 10 ^ dp = m / k) :
    fitAt dp z.toRat = floorAt dp q := by
  have hk0' : (0 : ℚ) < k := by exact_mod_cast hk0
  have hk' : (k : ℚ) ≤ 10 ^ 4 := by exact_mod_cast hk
  set n := ⌊q * 10 ^ dp⌋ with hn
  have hpow : ∀ v : ℚ, v * 10 ^ (dp + 4) = v * 10 ^ dp * 10 ^ 4 := fun v => by
    rw [pow_add, mul_assoc]
  have hroom : q * 10 ^ dp + 1 / k ≤ n + 1 := by
    have hlt : m < (n + 1) * k := by
      have := Int.lt_floor_add_one (q * 10 ^ dp)
      rw [← hn, hq, div_lt_iff₀ hk0'] at this
      exact_mod_cast this
    have hle : (m : ℚ) + 1 ≤ (n + 1) * k := by exact_mod_cast hlt
    rw [hq, ← add_div, div_le_iff₀ hk0']
    exact hle
  have hstep : 1 ≤ 1 / (k : ℚ) * 10 ^ 4 := by
    rw [one_div_mul_eq_div, le_div_iff₀ hk0', one_mul]
    exact hk'
  -- the multiples of the finer step between which the quotient stays
  have hbelow : ((n * 10 ^ 4 : ℤ) : ℚ) ≤ z.toRat * 10 ^ (dp + 4) := h.le_of_le _ (by
    have := Int.floor_le (q * 10 ^ dp)
    rw [hpow]
    push_cast
    rw [← hn] at this
    linarith)
  have habove : z.toRat * 10 ^ (dp + 4) ≤ (((n + 1) * 10 ^ 4 - 1 : ℤ) : ℚ) := h.ge_of_ge _ (by
    rw [hpow]
    push_cast
    linarith)
  have hceil : ceilAt (dp + 4) z.toRat * 10 ^ dp = ⌈z.toRat * 10 ^ (dp + 4)⌉ / 10 ^ 4 := by
    rw [ceilAt, pow_add, div_mul_eq_mul_div, mul_comm ((10 : ℚ) ^ dp) (10 ^ 4),
      mul_div_mul_right _ _ (ten_pow_pos dp).ne']
  have hfloor : ⌊ceilAt (dp + 4) z.toRat * 10 ^ dp⌋ = n := by
    have h1 : n * 10 ^ 4 ≤ ⌈z.toRat * 10 ^ (dp + 4)⌉ := by
      exact_mod_cast hbelow.trans (Int.le_ceil _)
    have h2 : ⌈z.toRat * 10 ^ (dp + 4)⌉ ≤ (n + 1) * 10 ^ 4 - 1 := Int.ceil_le.mpr habove
    have h1' : (n : ℚ) * 10 ^ 4 ≤ ⌈z.toRat * 10 ^ (dp + 4)⌉ := by exact_mod_cast h1
    have h2' : (⌈z.toRat * 10 ^ (dp + 4)⌉ : ℚ) ≤ (n + 1) * 10 ^ 4 - 1 := by exact_mod_cast h2
    rw [Int.floor_eq_iff, hceil, le_div_iff₀ (by positivity), div_lt_iff₀ (by positivity)]
    constructor <;> linarith
  rw [fitAt, floorAt, hfloor, floorAt]

/-- What a market order takes for `size`: the tokens that it buys or the worth of those that it
sells. -/
def proceeds (t : Tick) (side : Side) (size price : ℚ) : ℚ :=
  match side with
  | .buy => floorAt (t.places + 2) (size / price)
  | .sell => size * price

theorem exists_market_buy (hs : 0 ≤ floorAt 2 size.toRat)
    (hlow : t.value.toRat ≤ floorAt t.places price.toRat)
    (hhigh : floorAt t.places price.toRat ≤ 1 - t.value.toRat)
    (hlt : floorAt 2 size.toRat / floorAt t.places price.toRat < 10 ^ 18) :
    ∃ a, market .buy size price t.precision = .ok a ∧ a.maker.toRat = floorAt 2 size.toRat ∧
      a.taker.toRat = floorAt (t.places + 2)
        (floorAt 2 size.toRat / floorAt t.places price.toRat) := by
  have hmem := t.value_mem
  have hd := t.places_mem.2
  have hpos : 0 < floorAt t.places price.toRat := by linarith
  obtain ⟨m, hm⟩ := grid_floorAt 2 size.toRat
  obtain ⟨k, hk⟩ := grid_floorAt t.places price.toRat
  have hk0 : 0 < k := by
    have := mul_pos hpos (ten_pow_pos t.places)
    rw [hk] at this
    exact_mod_cast this
  lift k to ℕ using hk0.le
  have hpow : (10 : ℚ) ^ t.places ≤ 10 ^ 4 := pow_le_pow_right₀ (by norm_num) hd
  have hk4 : k ≤ 10 ^ 4 := by
    have : floorAt t.places price.toRat * 10 ^ t.places ≤ 1 * 10 ^ 4 :=
      mul_le_mul (by linarith) hpow (ten_pow_pos _).le zero_le_one
    rw [hk, one_mul] at this
    exact_mod_cast this
  have hq : floorAt 2 size.toRat / floorAt t.places price.toRat * 10 ^ (t.places + 2) =
      ((m * 10 ^ t.places * 10 ^ t.places : ℤ) : ℚ) / k := by
    rw [div_mul_eq_mul_div, div_eq_div_iff hpos.ne' (by exact_mod_cast hk0.ne')]
    push_cast at hk ⊢
    rw [← hm, ← hk]
    ring
  have hfits : |floorAt 2 size.toRat / floorAt t.places price.toRat| * 10 ^ (t.places + 2 + 4) <
      coeffBound - 1 / 2 := by
    have hpow' : (10 : ℚ) ^ (t.places + 2 + 4) ≤ 10 ^ 10 :=
      pow_le_pow_right₀ (by norm_num) (by omega)
    rw [abs_of_nonneg (div_nonneg hs hpos.le)]
    refine (mul_le_mul hlt.le hpow' (ten_pow_pos _).le (by positivity)).trans_lt ?_
    norm_num [coeffBound]
  rw [← toRat_floorTo, ← toRat_floorTo] at hq hfits ⊢
  rw [← toRat_floorTo] at hpos
  obtain ⟨z, hz, htracks⟩ := div?_tracks hpos.ne' (show t.places + 2 + 4 ≤ 28 by omega) hfits
  obtain ⟨v, hv, hval⟩ := exists_fitTo? z (t.places + 2)
  refine ⟨⟨size.floorTo 2, v⟩, ?_, rfl, ?_⟩
  · change (if (price.floorTo t.places).coeff = 0 then _ else
      quotient (size.floorTo 2) (price.floorTo t.places) >>= _) = _
    rw [if_neg (toRat_pos.mp hpos).ne', quotient_eq_ok.mpr hz, ok_bind,
      show t.precision.amount = t.places + 2 from rfl, hv]
    rfl
  · rw [hval, fit_eq_floorAt htracks (Int.natCast_pos.mp hk0) hk4 hq]

theorem exists_market (side : Side) (hs : 0 ≤ floorAt 2 size.toRat)
    (hlow : t.value.toRat ≤ floorAt t.places price.toRat)
    (hhigh : floorAt t.places price.toRat ≤ 1 - t.value.toRat)
    (hlt : floorAt 2 size.toRat / floorAt t.places price.toRat < 10 ^ 18) :
    ∃ a, market side size price t.precision = .ok a ∧ a.maker.toRat = floorAt 2 size.toRat ∧
      a.taker.toRat =
        proceeds t side (floorAt 2 size.toRat) (floorAt t.places price.toRat) := by
  cases side with
  | buy => exact exists_market_buy hs hlow hhigh hlt
  | sell =>
    have hmem := t.value_mem
    have hpos : 0 < floorAt t.places price.toRat := by linarith
    rw [div_lt_iff₀ hpos] at hlt
    have hworth : |floorAt 2 size.toRat * (price.floorTo t.places).toRat| * 10 ^ 6 <
        coeffBound := by
      rw [toRat_floorTo, abs_of_nonneg (mul_nonneg hs hpos.le)]
      have hle : floorAt 2 size.toRat * floorAt t.places price.toRat ≤ 10 ^ 18 := by
        nlinarith
      refine (mul_le_mul_of_nonneg_right hle (by positivity)).trans_lt ?_
      norm_num [coeffBound]
    have hg : Grid t.places (price.floorTo t.places).toRat := by
      rw [toRat_floorTo]
      exact grid_floorAt _ _
    obtain ⟨a, ha, hmaker, htaker⟩ := exists_sale hg hworth
    rw [toRat_floorTo] at htaker
    exact ⟨a, ha, hmaker, htaker⟩

/-- A `price` that rounds to zero buys nothing and sells for nothing. -/
theorem market_taker_eq_zero {side : Side} {a : Amounts}
    (h : floorAt t.places price.toRat = 0) (ha : market side size price t.precision = .ok a) :
    a.taker.toRat = 0 := by
  have hzero : (price.floorTo t.places).toRat = 0 := by rw [toRat_floorTo, h]
  cases side with
  | buy =>
    change (if (price.floorTo t.places).coeff = 0 then _ else _) = _ at ha
    rw [if_pos (toRat_eq_zero.mp hzero)] at ha
    cases ha
  | sell =>
    have hprod : floorAt 2 size.toRat * (price.floorTo t.places).toRat = 0 := by
      rw [hzero, mul_zero]
    have hg : Grid t.places (price.floorTo t.places).toRat := by
      rw [toRat_floorTo]
      exact grid_floorAt _ _
    obtain ⟨b, hb, -, htaker⟩ := @exists_sale t size _ hg (by
      rw [hprod, abs_zero, zero_mul]
      norm_num [coeffBound])
    change sale size (price.floorTo t.places) t.precision = .ok a at ha
    rw [hb] at ha
    cases ha
    rw [htaker, hprod]

end TradingDesk.Amounts
