import TradingDesk.Decimal.Arithmetic
import TradingDesk.Proofs.Decimal.Value

/-! One rounding to the nearest decimal. A sum, a product and a quotient are exact rationals
that are brought to as many places as fit into 96 bits. The result is the rational itself
wherever that has a decimal, and it never crosses a multiple of a step that it could express. -/

namespace TradingDesk.Decimal

theorem two_mul_abs_halfEven_sub (n : ℤ) {d : ℕ} (hd : 0 < d) :
    2 * |halfEven n d * d - n| ≤ d := by
  have hdiv : d * (n.natAbs / d) + n.natAbs % d = n.natAbs := Nat.div_add_mod _ _
  have hlt : n.natAbs % d < d := Nat.mod_lt _ hd
  set q := n.natAbs / d with hq
  set r := n.natAbs % d with hr
  obtain ⟨m, hm, hnear⟩ : ∃ m : ℕ, halfEven n d = (if n < 0 then -(m : ℤ) else m) ∧
      2 * |(m * d : ℤ) - n.natAbs| ≤ d := by
    refine ⟨_, rfl, ?_⟩
    rw [← hq, ← hr]
    split_ifs with h
    · simp only [Bool.or_eq_true, Bool.and_eq_true, decide_eq_true_eq, beq_iff_eq] at h
      have : ((q + 1 : ℕ) * d : ℤ) - n.natAbs = (d : ℤ) - r := by
        push_cast [← hdiv]
        ring
      rw [this, abs_of_nonneg (by omega)]
      omega
    · simp only [Bool.or_eq_true, Bool.and_eq_true, decide_eq_true_eq, beq_iff_eq] at h
      have : (q * d : ℤ) - n.natAbs = -r := by
        push_cast [← hdiv]
        ring
      rw [this, abs_neg, abs_of_nonneg (by omega)]
      omega
  rw [hm]
  split_ifs with hn
  · rw [show (-(m : ℤ) * d - n) = -(m * d - n.natAbs) by
      rw [Int.ofNat_natAbs_of_nonpos hn.le]; ring, abs_neg]
    exact hnear
  · rwa [Int.natAbs_of_nonneg (not_lt.mp hn)] at hnear

theorem halfEven_mul_right (n : ℤ) (d : ℕ) {c : ℕ} (hc : 0 < c) :
    halfEven (n * c) (d * c) = halfEven n d := by
  have hneg : n * c < 0 ↔ n < 0 := by
    have : (0 : ℤ) < c := by omega
    constructor <;> intro h <;> nlinarith
  have hlt : ∀ r : ℕ, d * c < 2 * (r * c) ↔ d < 2 * r := fun r => by
    rw [← mul_assoc, Nat.mul_lt_mul_right hc]
  have heq : ∀ r : ℕ, 2 * (r * c) = d * c ↔ 2 * r = d := fun r => by
    rw [← mul_assoc, Nat.mul_left_inj hc.ne']
  simp only [halfEven, Int.natAbs_mul, Int.natAbs_natCast, Nat.mul_div_mul_right _ _ hc,
    Nat.mul_mod_mul_right, hneg, hlt, Bool.beq_eq_decide_eq, heq]

/-- The integer nearest to `v`, the even one of two. -/
def nearestEven (v : ℚ) : ℤ := halfEven v.num v.den

theorem halfEven_eq (n : ℤ) {d : ℕ} (hd : 0 < d) : halfEven n d = nearestEven (n / d) := by
  obtain ⟨c, hn, hc⟩ := Rat.exists_eq_mul_div_num_and_eq_mul_div_den n
    (show (d : ℤ) ≠ 0 by omega)
  rw [Int.cast_natCast] at hn hc
  have hpos : 0 < c := pos_of_mul_pos_left (hc ▸ Int.natCast_pos.mpr hd) (by positivity)
  lift c to ℕ using hpos.le
  have hd' : d = ((n : ℚ) / d).den * c := by rw [mul_comm]; exact_mod_cast hc
  calc
    halfEven n d = halfEven (((n : ℚ) / d).num * c) (((n : ℚ) / d).den * c) :=
      congrArg₂ halfEven (hn.trans (mul_comm _ _)) hd'
    _ = nearestEven (n / d) := halfEven_mul_right _ _ (Int.natCast_pos.mp hpos)

theorem abs_nearestEven_sub_le (v : ℚ) : |(nearestEven v : ℚ) - v| ≤ 1 / 2 := by
  have hd : (0 : ℚ) < v.den := by exact_mod_cast v.den_pos
  have h : 2 * |(nearestEven v : ℚ) * v.den - v.num| ≤ v.den := by
    exact_mod_cast two_mul_abs_halfEven_sub v.num v.den_pos
  rw [← Rat.mul_den_eq_num v, ← sub_mul, abs_mul, abs_of_pos hd] at h
  nlinarith

theorem nearestEven_intCast (n : ℤ) : nearestEven n = n := by
  have h : |nearestEven n - n| < 1 := by
    have := abs_nearestEven_sub_le n
    have : |(nearestEven n : ℚ) - n| < 1 := by linarith
    exact_mod_cast this
  have := abs_lt.mp h
  omega

/-! ### As many places as fit -/

/-- `x` is nearest to `q` among the decimals with its number of places, and with more of the
`top` places `q` would not fit. -/
structure Rounds (q : ℚ) (top : ℕ) (x : Decimal) : Prop where
  scale_le : x.scale ≤ top
  coeff_eq : x.coeff = nearestEven (q * 10 ^ x.scale)
  finest : ∀ t, x.scale < t → t ≤ top → (coeffBound : ℤ) ≤ |nearestEven (q * 10 ^ t)|

/-- The first of the coefficients `f top`, …, `f 0` that fits, with its number of places. -/
def descend (f : ℕ → ℤ) : ℕ → Option Decimal
  | 0 => ofCoeff? (f 0) 0
  | t + 1 =>
    match ofCoeff? (f (t + 1)) (t + 1) with
    | some x => some x
    | none => descend f t

theorem fitFrom?_eq_descend (n : ℤ) (s top : ℕ) :
    fitFrom? n s top = descend (fun t => halfEven n (tenTo (s - t))) top := by
  induction top with
  | zero => rfl
  | succ t ih =>
    rw [fitFrom?, descend]
    generalize ofCoeff? (halfEven n (tenTo (s - (t + 1)))) (t + 1) = r
    cases r with
    | none => exact ih
    | some x => rfl

theorem quotientFrom?_eq_descend (n : ℤ) (d top : ℕ) :
    quotientFrom? n d top = descend (fun t => halfEven (n * tenTo t) d) top := by
  induction top with
  | zero => simp [quotientFrom?, descend, tenTo]
  | succ t ih =>
    rw [quotientFrom?, descend]
    generalize ofCoeff? (halfEven (n * tenTo (t + 1)) d) (t + 1) = r
    cases r with
    | none => exact ih
    | some x => rfl

/-- Where each coefficient is nearest to its multiple of `q`, the first that fits rounds `q`,
and not even the whole part of `q` is in range where none does. -/
theorem descend_spec {f : ℕ → ℤ} {q : ℚ} {top : ℕ} (h28 : top ≤ 28)
    (hf : ∀ t ≤ top, f t = nearestEven (q * 10 ^ t)) :
    match descend f top with
    | some x => Rounds q top x
    | none => (coeffBound : ℤ) ≤ |nearestEven q| := by
  induction top with
  | zero =>
    rw [descend]
    cases h : ofCoeff? (f 0) 0 with
    | none => simpa [hf 0 le_rfl] using (ofCoeff?_eq_none h28).mp h
    | some x =>
      obtain ⟨hc, hs⟩ := ofCoeff?_eq_some.mp h
      exact ⟨hs.le, by rw [hc, hs]; exact hf 0 le_rfl, fun t h1 h2 => by omega⟩
  | succ u ih =>
    rw [descend]
    cases h : ofCoeff? (f (u + 1)) (u + 1) with
    | some x =>
      obtain ⟨hc, hs⟩ := ofCoeff?_eq_some.mp h
      exact ⟨hs.le, by rw [hc, hs]; exact hf _ le_rfl, fun t h1 h2 => by omega⟩
    | none =>
      have hlast := (ofCoeff?_eq_none h28).mp h
      rw [hf _ le_rfl] at hlast
      have hrest := ih (by omega) fun t ht => hf t (by omega)
      cases hd : descend f u with
      | none =>
        rw [hd] at hrest
        exact hrest
      | some x =>
        rw [hd] at hrest
        refine ⟨hrest.scale_le.trans (by omega), hrest.coeff_eq, fun t h1 h2 => ?_⟩
        rcases Nat.lt_or_ge u t with hu | hu
        · rwa [show t = u + 1 by omega]
        · exact hrest.finest t h1 hu

theorem fit?_spec (n : ℤ) (s : ℕ) :
    match fit? n s with
    | some x => Rounds (n / 10 ^ s) (min s maxScale) x
    | none => (coeffBound : ℤ) ≤ |nearestEven (n / 10 ^ s)| := by
  rw [fit?, fitFrom?_eq_descend]
  refine descend_spec (min_le_right _ _) fun t ht => ?_
  have hts : t ≤ s := ht.trans (min_le_left _ _)
  rw [halfEven_eq n (tenTo_pos _), cast_tenTo, pow_sub₀ _ (by norm_num) hts]
  congr 1
  field_simp

theorem quotient?_spec (n : ℤ) {d : ℕ} (hd : 0 < d) :
    match quotient? n d with
    | some x => Rounds (n / d) maxScale x
    | none => (coeffBound : ℤ) ≤ |nearestEven (n / d)| := by
  rw [quotient?, quotientFrom?_eq_descend]
  refine descend_spec le_rfl fun t _ => ?_
  rw [halfEven_eq _ hd, div_mul_eq_mul_div]
  push_cast [cast_tenTo]
  rfl

/-! ### What a rounding keeps -/

/-- Halfway between `coeffBound` and the integer below it, the bound is the even one. -/
theorem abs_nearestEven_of_halfway {v : ℚ} (h : |v| = coeffBound - 1 / 2) :
    |nearestEven v| = coeffBound := by
  have hval : (coeffBound : ℚ) - 1 / 2 = ((2 * coeffBound - 1 : ℤ) : ℚ) / (2 : ℕ) := by
    push_cast
    ring
  rw [hval] at h
  rcases eq_or_eq_neg_of_abs_eq h with rfl | rfl
  · rw [← halfEven_eq _ (by decide)]
    decide
  · rw [← neg_div, ← Int.cast_neg, ← halfEven_eq _ (by decide)]
    decide

theorem abs_nearestEven_lt_iff {v : ℚ} :
    |nearestEven v| < coeffBound ↔ |v| < coeffBound - 1 / 2 := by
  have hnear := abs_nearestEven_sub_le v
  have habove := abs_sub_abs_le_abs_sub (nearestEven v : ℚ) v
  have hbelow := abs_sub_abs_le_abs_sub v (nearestEven v : ℚ)
  rw [abs_sub_comm v] at hbelow
  constructor
  · intro h
    have hle : |(nearestEven v : ℚ)| + 1 ≤ coeffBound := by exact_mod_cast h
    -- being off by a half at most allows equality, which the tie to the even one excludes
    refine lt_of_le_of_ne (by linarith) fun heq => ?_
    exact h.ne (abs_nearestEven_of_halfway heq)
  · intro h
    have : |(nearestEven v : ℚ)| < coeffBound := by linarith
    exact_mod_cast this

/-- A value `q` on a grid that is in range there is in range by a margin. -/
theorem Grid.abs_lt {t : ℕ} {q : ℚ} (hg : Grid t q) (hq : |q| * 10 ^ t < coeffBound) :
    |q * 10 ^ t| < coeffBound - 1 / 2 := by
  obtain ⟨m, hm⟩ := hg
  rw [← abs_of_pos (ten_pow_pos t), ← abs_mul, hm] at hq
  have : |(m : ℚ)| + 1 ≤ coeffBound := by exact_mod_cast hq
  rw [hm]
  linarith

/-- `x` lies on the same side as `q` of every multiple of `10 ^ -t`. -/
structure Tracks (q : ℚ) (t : ℕ) (x : Decimal) : Prop where
  le_of_le : ∀ k : ℤ, k ≤ q * 10 ^ t → k ≤ x.toRat * 10 ^ t
  ge_of_ge : ∀ k : ℤ, q * 10 ^ t ≤ k → x.toRat * 10 ^ t ≤ k

theorem Tracks.of_eq {q : ℚ} {t : ℕ} {x : Decimal} (h : x.toRat = q) : Tracks q t x := by
  subst h
  exact ⟨fun _ => id, fun _ => id⟩

namespace Rounds

variable {q : ℚ} {top t : ℕ} {x : Decimal}

theorem near (h : Rounds q top x) : |(x.coeff : ℚ) - q * 10 ^ x.scale| ≤ 1 / 2 := by
  rw [h.coeff_eq]
  exact abs_nearestEven_sub_le _

theorem abs_mul_lt (h : Rounds q top x) : |q| * 10 ^ x.scale < coeffBound - 1 / 2 := by
  have hc := x.coeff_lt
  have : |x.coeff| < coeffBound := by rw [Int.abs_eq_natAbs]; exact_mod_cast hc
  rw [h.coeff_eq] at this
  simpa [abs_mul] using abs_nearestEven_lt_iff.mp this

/-- What `x` rounds is in range. -/
theorem abs_lt (h : Rounds q top x) : |q| < coeffBound - 1 / 2 :=
  (le_mul_of_one_le_right (abs_nonneg q) (one_le_pow₀ (by norm_num))).trans_lt h.abs_mul_lt

/-- A rational that is in range with `t` places is rounded to no fewer. -/
theorem le_scale (h : Rounds q top x) (ht : t ≤ top) (hq : |q * 10 ^ t| < coeffBound - 1 / 2) :
    t ≤ x.scale := by
  by_contra! hlt
  exact absurd (h.finest t hlt ht) (not_le.mpr (abs_nearestEven_lt_iff.mpr hq))

/-- With the places of `x` nothing of `q` is cut off. -/
theorem toRat_eq_of_grid (h : Rounds q top x) (hg : Grid x.scale q) : x.toRat = q := by
  obtain ⟨n, hn⟩ := hg
  have hc : x.coeff = n := by rw [h.coeff_eq, hn, nearestEven_intCast]
  rw [toRat_eq, hc, ← hn, mul_div_cancel_right₀ _ (ten_pow_pos _).ne']

/-- If `q` has a decimal it is rounded to itself. -/
theorem exact (h : Rounds q top x) (ht : t ≤ top) (hg : Grid t q)
    (hq : |q| * 10 ^ t < coeffBound) : x.toRat = q :=
  h.toRat_eq_of_grid (hg.mono (h.le_scale ht (hg.abs_lt hq)))

/-! How far `x` is from `q`: half a step of its last place, which is small beside `q` where one more
place would not have fit. -/

theorem abs_sub_mul_le (h : Rounds q top x) : |x.toRat - q| * 10 ^ x.scale ≤ 1 / 2 := by
  rw [← abs_of_pos (ten_pow_pos x.scale), ← abs_mul, sub_mul, toRat_mul_pow]
  exact h.near

theorem abs_sub_le_of_lt (h : Rounds q top x) (hlt : x.scale < top) :
    |x.toRat - q| ≤ |q| / 10 ^ 28 := by
  have hfull : (coeffBound : ℚ) - 1 / 2 ≤ |q| * 10 ^ (x.scale + 1) := by
    by_contra! hfits
    have hle := h.le_scale hlt (by rwa [abs_mul, abs_of_pos (ten_pow_pos _)])
    omega
  have hdigits : (5 * 10 ^ 28 : ℚ) ≤ coeffBound - 1 / 2 := by norm_num [coeffBound]
  rw [le_div_iff₀ (by positivity)]
  calc |x.toRat - q| * 10 ^ 28
      ≤ |x.toRat - q| * (|q| * 10 ^ (x.scale + 1) / 5) := by
        gcongr
        linarith
    _ = |x.toRat - q| * 10 ^ x.scale * (2 * |q|) := by ring
    _ ≤ 1 / 2 * (2 * |q|) := by
        gcongr
        exact h.abs_sub_mul_le
    _ = |q| := by ring

/-- The rounding of `q` does not pass a multiple of a step that `x` can express. -/
theorem tracks (h : Rounds q top x) (ht : t ≤ x.scale) : Tracks q t x := by
  have hgrid : ∀ k : ℤ, ∃ n : ℤ, (k : ℚ) / 10 ^ t * 10 ^ x.scale = n := fun k =>
    Grid.mono ⟨k, div_mul_cancel₀ (k : ℚ) (ten_pow_pos t).ne'⟩ ht
  have hnear := abs_le.mp h.near
  constructor
  · intro k hk
    obtain ⟨n, hn⟩ := hgrid k
    have hkq : (k : ℚ) / 10 ^ t ≤ q := (div_le_iff₀ (ten_pow_pos t)).mpr hk
    have hnq : (n : ℚ) ≤ q * 10 ^ x.scale :=
      hn ▸ mul_le_mul_of_nonneg_right hkq (ten_pow_pos _).le
    have hlt : (n : ℚ) < x.coeff + 1 := by linarith
    have hnc : n ≤ x.coeff := Int.lt_add_one_iff.mp (by exact_mod_cast hlt)
    rw [← div_le_iff₀ (ten_pow_pos t), toRat_eq, le_div_iff₀ (ten_pow_pos _), hn]
    exact_mod_cast hnc
  · intro k hk
    obtain ⟨n, hn⟩ := hgrid k
    have hkq : q ≤ (k : ℚ) / 10 ^ t := (le_div_iff₀ (ten_pow_pos t)).mpr hk
    have hnq : q * 10 ^ x.scale ≤ (n : ℚ) :=
      hn ▸ mul_le_mul_of_nonneg_right hkq (ten_pow_pos _).le
    have hlt : (x.coeff : ℚ) < n + 1 := by linarith
    have hcn : x.coeff ≤ n := Int.lt_add_one_iff.mp (by exact_mod_cast hlt)
    rw [← le_div_iff₀ (ten_pow_pos t), toRat_eq, div_le_iff₀ (ten_pow_pos _), hn]
    exact_mod_cast hcn

end Rounds

theorem fit?_exact {n : ℤ} {s k : ℕ} (hk : k ≤ 28) (hg : Grid k ((n : ℚ) / 10 ^ s))
    (hlt : |(n : ℚ) / 10 ^ s| * 10 ^ k < coeffBound) :
    ∃ x, fit? n s = some x ∧ x.toRat = n / 10 ^ s := by
  set q := (n : ℚ) / 10 ^ s with hq
  -- the number of places that are tried first may be less than `k`
  obtain ⟨t, ht, hgt, hlt⟩ : ∃ t ≤ min s maxScale, Grid t q ∧ |q| * 10 ^ t < coeffBound := by
    rcases le_total k s with hks | hsk
    · exact ⟨k, le_min hks hk, hg, hlt⟩
    · have hs : Grid s q := ⟨n, div_mul_cancel₀ _ (ten_pow_pos s).ne'⟩
      have hpow : (10 : ℚ) ^ s ≤ 10 ^ k := pow_le_pow_right₀ (by norm_num) hsk
      exact ⟨s, le_min le_rfl (hsk.trans hk), hs,
        (mul_le_mul_of_nonneg_left hpow (abs_nonneg q)).trans_lt hlt⟩
  have hspec := fit?_spec n s
  cases h : fit? n s with
  | some x =>
    rw [h] at hspec
    exact ⟨x, rfl, hspec.exact ht hgt hlt⟩
  | none =>
    rw [h] at hspec
    have h1 : (1 : ℚ) ≤ 10 ^ t := one_le_pow₀ (by norm_num)
    have hbound := hgt.abs_lt hlt
    rw [abs_mul, abs_of_pos (ten_pow_pos t)] at hbound
    exact absurd hspec (not_le.mpr (abs_nearestEven_lt_iff.mpr
      ((le_mul_of_one_le_right (abs_nonneg q) h1).trans_lt hbound)))

/-- What is not in range, half a unit below `coeffBound` included, is not rounded. -/
theorem fit?_eq_none {n : ℤ} {s : ℕ} :
    fit? n s = none ↔ (coeffBound : ℚ) - 1 / 2 ≤ |(n : ℚ) / 10 ^ s| := by
  have hspec := fit?_spec n s
  cases hf : fit? n s with
  | some x =>
    rw [hf] at hspec
    simpa only [reduceCtorEq, false_iff, not_le] using hspec.abs_lt
  | none =>
    rw [hf] at hspec
    exact ⟨fun _ => not_lt.mp (mt abs_nearestEven_lt_iff.mpr (not_lt.mpr hspec)), fun _ => rfl⟩

end TradingDesk.Decimal
