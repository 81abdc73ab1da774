import TradingDesk.Order.Amounts
import TradingDesk.Proofs.Error
import TradingDesk.Proofs.Market.RoundingLaws

/-! The amounts of an order for any precision. Whatever the number of places allowed, one amount is
the size cut to its places and the other has no more places than an amount may have. An order has
amounts just where its worth, or its quotient, is in range, and is refused otherwise: the sum that
rounds a price never overflows, nor does a count of places, and nothing is divided by zero. -/

namespace TradingDesk.Side

variable {α : Type}

/-- What the side `s` gives or takes in tokens. -/
def tokens (s : Side) (maker taker : α) : α :=
  match s with
  | buy => taker
  | sell => maker

/-- What the side takes or gives for its tokens. -/
def collateral (s : Side) (maker taker : α) : α :=
  match s with
  | buy => maker
  | sell => taker

end TradingDesk.Side

namespace TradingDesk.Amounts

open Decimal

/-- How a computation ends whose exact value is `q`. Half a unit below `2 ^ 96` the value is rounded
out of range. -/
structure Outcome {α : Type} (q : ℚ) (P : α → Prop) (r : Except Error α) : Prop where
  ok : |q| < 2 ^ 96 - 1 / 2 → ∃ a, r = .ok a
  of_ok : ∀ a, r = .ok a → P a
  overflow : 2 ^ 96 - 1 / 2 ≤ |q| → r = .error (.invalid .amountOverflow)

namespace Outcome

variable {α β : Type} {q : ℚ} {P : α → Prop} {r : Except Error α}

theorem of_option {o : Option α} (ho : o = none ↔ (coeffBound : ℚ) - 1 / 2 ≤ |q|)
    (hnone : o = none → r = .error (.invalid .amountOverflow)) (hsome : ∀ a, r = .ok a ↔ o = some a) :
    Outcome q (o = some ·) r := by
  rw [cast_coeffBound] at ho
  refine ⟨fun hlt => ?_, fun a => (hsome a).mp, fun hle => hnone (ho.mpr hle)⟩
  obtain ⟨a, ha⟩ := Option.ne_none_iff_exists'.mp (mt ho.mp (not_le.mpr hlt))
  exact ⟨a, (hsome a).mpr ha⟩

/-- A step `f` that never fails comes after one that may. -/
theorem bind (h : Outcome q P r) {f : α → Except Error β} {Q : β → Prop}
    (hf : ∀ a, ∃ b, f a = .ok b ∧ Q b) : Outcome q Q (r >>= f) := by
  refine ⟨fun hlt => ?_, fun b hb => ?_, fun hle => ?_⟩
  · obtain ⟨a, rfl⟩ := h.ok hlt
    obtain ⟨b, hb, -⟩ := hf a
    exact ⟨b, hb⟩
  · obtain ⟨a, -, hab⟩ := bind_eq_ok.mp hb
    obtain ⟨b', hb', hQ⟩ := hf a
    cases hb'.symm.trans hab
    exact hQ
  · rw [h.overflow hle, error_bind]

theorem onlyInvalid (h : Outcome q P r) : OnlyInvalid r := by
  rcases lt_or_ge |q| (2 ^ 96 - 1 / 2) with hlt | hle
  · obtain ⟨a, rfl⟩ := h.ok hlt
    exact .ok a
  · rw [h.overflow hle]
    exact .error _

end Outcome

theorem inRange_some (x : Decimal) : inRange (some x) = .ok x := rfl

theorem product_eq_ok {x y z : Decimal} : product x y = .ok z ↔ x.mul? y = some z := by
  unfold product
  split <;> simp [*]

theorem quotient_eq_ok {x y z : Decimal} : quotient x y = .ok z ↔ x.div? y = some z := by
  unfold quotient
  split <;> simp [*]

theorem product_outcome (x y : Decimal) :
    Outcome (x.toRat * y.toRat) (x.mul? y = some ·) (product x y) :=
  .of_option mul?_eq_none (fun h => by rw [product, h]) fun _ => product_eq_ok

theorem quotient_outcome (x : Decimal) {y : Decimal} (hy : y.toRat ≠ 0) :
    Outcome (x.toRat / y.toRat) (x.div? y = some ·) (quotient x y) :=
  .of_option (div?_eq_none hy) (fun h => by rw [quotient, h]) fun _ => quotient_eq_ok

/-! ### Orders -/

/-- `sized` is the size asked for, in its places, and `fitted` has no more places than an amount may
have. -/
structure Within (p : Precision) (asked sized fitted : Decimal) : Prop where
  cut : sized = asked.floorTo p.size
  size : sized.toRat = floorAt p.size asked.toRat
  places : fitted.places ≤ p.amount

variable {side : Side} {size price rate : Decimal} {p : Precision}

/-- The last step of an order, that fits the other amount `w`. -/
theorem exists_fitted (w : Decimal) (p : Precision) (f : Decimal → Amounts) {Q : Amounts → Prop}
    (hQ : ∀ v, v.places ≤ p.amount → Q (f v)) :
    ∃ a, (do return f (← inRange (w.fitTo? p.amount)) : Except Error Amounts) = .ok a ∧ Q a := by
  rw [fitTo?_eq]
  exact ⟨_, rfl, hQ _ (places_floorTo_le _ _)⟩

theorem sale_outcome (size price : Decimal) (p : Precision) :
    Outcome (floorAt p.size size.toRat * price.toRat) (fun a => Within p size a.maker a.taker)
      (sale size price p) := by
  rw [← toRat_floorTo]
  exact (product_outcome _ _).bind fun w =>
    exists_fitted w p (⟨size.floorTo p.size, ·⟩) fun _ hv => ⟨rfl, toRat_floorTo _ _, hv⟩

theorem limit_outcome (hrate : price.nearestTo? p.price = some rate) :
    Outcome (floorAt p.size size.toRat * rate.toRat)
      (fun a => Within p size (side.tokens a.maker a.taker) (side.collateral a.maker a.taker))
      (limit side size price p) := by
  -- with the rounded price found, the product alone decides
  unfold limit
  rw [hrate, inRange_some, ok_bind]
  cases side with
  | buy =>
    rw [← toRat_floorTo]
    exact (product_outcome _ _).bind fun w =>
      exists_fitted w p (⟨·, size.floorTo p.size⟩) fun _ hv => ⟨rfl, toRat_floorTo _ _, hv⟩
  | sell => exact sale_outcome size rate p

/-- The tokens of a limit order are the `size`, in its places. -/
theorem limit_tokens {a : Amounts} (h : limit side size price p = .ok a) :
    side.tokens a.maker a.taker = size.floorTo p.size := by
  obtain ⟨rate, hrate⟩ := exists_nearestTo?_some price p.price
  exact ((limit_outcome hrate).of_ok a h).cut

theorem limit_onlyInvalid (side : Side) (size price : Decimal) (p : Precision) :
    OnlyInvalid (limit side size price p) := by
  obtain ⟨rate, hrate⟩ := exists_nearestTo?_some price p.price
  exact (limit_outcome hrate).onlyInvalid

/-- What a market order comes to for `size`, before it is fitted. -/
def gross (side : Side) (size price : ℚ) : ℚ :=
  match side with
  | .buy => size / price
  | .sell => size * price

theorem market_worthless (h : floorAt p.price price.toRat = 0) :
    market .buy size price p = .error (.invalid (.priceRoundsToZero price p.price)) := by
  rw [← toRat_floorTo, toRat_eq_zero] at h
  exact if_pos h

theorem market_outcome (h : ¬(side = .buy ∧ floorAt p.price price.toRat = 0)) :
    Outcome (gross side (floorAt p.size size.toRat) (floorAt p.price price.toRat))
      (fun a => Within p size a.maker a.taker) (market side size price p) := by
  rw [← toRat_floorTo price] at h ⊢
  cases side with
  | buy =>
    -- the coefficient that is tested is that of the divisor
    have hprice : (price.floorTo p.price).toRat ≠ 0 := fun hzero => h ⟨rfl, hzero⟩
    have hcoeff := mt toRat_eq_zero.mpr hprice
    rw [← toRat_floorTo]
    unfold market
    dsimp only
    rw [if_neg hcoeff]
    exact (quotient_outcome _ hprice).bind fun w =>
      exists_fitted w p (⟨size.floorTo p.size, ·⟩) fun _ hv => ⟨rfl, toRat_floorTo _ _, hv⟩
  | sell => exact sale_outcome size (price.floorTo p.price) p

theorem market_onlyInvalid (side : Side) (size price : Decimal) (p : Precision) :
    OnlyInvalid (market side size price p) := by
  by_cases h : side = .buy ∧ floorAt p.price price.toRat = 0
  · obtain ⟨rfl, hzero⟩ := h
    rw [market_worthless hzero]
    exact .error _
  · exact (market_outcome h).onlyInvalid

theorem ofOrder_onlyInvalid (tif : TimeInForce) (side : Side) (size price : Decimal)
    (p : Precision) : OnlyInvalid (ofOrder tif side size price p) := by
  unfold ofOrder
  split_ifs
  · exact market_onlyInvalid _ _ _ _
  · exact limit_onlyInvalid _ _ _ _

/-- For any precision `p`, an order has amounts that keep to it, or is refused: because its worth or
its quotient is out of range, or because its price rounds to zero. It fails in no other way. -/
theorem amounts_within_precision (side : Side) (size price : Decimal) (p : Precision) :
    OnlyInvalid (limit side size price p) ∧ OnlyInvalid (market side size price p) ∧
    (∃ rate, price.nearestTo? p.price = some rate ∧ rate.places ≤ p.price ∧
      Outcome (floorAt p.size size.toRat * rate.toRat)
        (fun a => Within p size (side.tokens a.maker a.taker) (side.collateral a.maker a.taker))
        (limit side size price p)) ∧
    (side = .buy → floorAt p.price price.toRat = 0 →
      market side size price p = .error (.invalid (.priceRoundsToZero price p.price))) ∧
    (¬(side = .buy ∧ floorAt p.price price.toRat = 0) →
      Outcome (gross side (floorAt p.size size.toRat) (floorAt p.price price.toRat))
        (fun a => Within p size a.maker a.taker) (market side size price p)) := by
  obtain ⟨rate, hrate⟩ := exists_nearestTo?_some price p.price
  refine ⟨limit_onlyInvalid _ _ _ _, market_onlyInvalid _ _ _ _,
    ⟨rate, hrate, places_nearestTo?_le hrate, limit_outcome hrate⟩, ?_, market_outcome⟩
  rintro rfl hzero
  exact market_worthless hzero

/-- The largest number there is. -/
def largest : Decimal := ⟨79228162514264337593543950335, 0, by decide, Decimal.zero.scale_le⟩

private theorem five_lt : (5 : ℤ).natAbs < coeffBound := by decide

def half : Decimal := ⟨5, 1, five_lt, Tick.tenth.places_le⟩

def twentieth : Decimal := ⟨5, 2, five_lt, Tick.hundredth.places_le⟩

/-- One place for a price, and as many for an amount as 32 bits can count. -/
def widest : Precision := ⟨1, 28, 4294967295⟩

theorem amounts_within_precision_widest :
    (∃ a, limit .buy largest half widest = .ok a ∧ a.taker.toRat = 2 ^ 96 - 1) ∧
      market .buy largest half widest = .error (.invalid .amountOverflow) ∧
      (∃ a, market .sell largest twentieth widest = .ok a ∧ a.maker.toRat = 2 ^ 96 - 1) ∧
      market .buy largest twentieth widest =
        .error (.invalid (.priceRoundsToZero twentieth 1)) := by
  have hsize : floorAt 28 largest.toRat = 2 ^ 96 - 1 := by
    rw [(largest.grid_scale.mono (Nat.zero_le 28)).floorAt_eq]
    norm_num [largest, toRat_eq]
  have hhalf : floorAt 1 half.toRat = 1 / 2 := by norm_num [floorAt, half, toRat_eq]
  have htwentieth : floorAt 1 twentieth.toRat = 0 := by norm_num [floorAt, twentieth, toRat_eq]
  refine ⟨?_, ?_, ?_, ?_⟩
  · obtain ⟨-, -, ⟨rate, hrate, -, hlimit⟩, -, -⟩ :=
      amounts_within_precision .buy largest half widest
    obtain rfl : half = rate :=
      Option.some.inj ((nearestTo?_of_places_le (by decide)).symm.trans hrate)
    obtain ⟨a, ha⟩ := hlimit.ok (by
      rw [show widest.size = 28 from rfl, hsize]
      norm_num [half, toRat_eq])
    exact ⟨a, ha, (hlimit.of_ok a ha).size.trans hsize⟩
  · obtain ⟨-, -, -, -, hmarket⟩ := amounts_within_precision .buy largest half widest
    refine (hmarket ?_).overflow ?_
    · rw [show widest.price = 1 from rfl, hhalf]
      norm_num
    · rw [show widest.size = 28 from rfl, show widest.price = 1 from rfl, hsize, hhalf]
      norm_num [gross]
  · obtain ⟨-, -, -, -, hmarket⟩ := amounts_within_precision .sell largest twentieth widest
    have houtcome := hmarket (by simp)
    obtain ⟨a, ha⟩ := houtcome.ok (by
      rw [show widest.price = 1 from rfl, htwentieth]
      norm_num [gross])
    exact ⟨a, ha, (houtcome.of_ok a ha).size.trans hsize⟩
  · obtain ⟨-, -, -, hworthless, -⟩ := amounts_within_precision .buy largest twentieth widest
    exact hworthless rfl htwentieth

end TradingDesk.Amounts
