import TradingDesk.Bytes.Hex
import TradingDesk.Proofs.Bytes.Basic
import TradingDesk.Proofs.Error

/-! What hexadecimal text is read as. A text whose digits have the values of the halves of some
bytes is read as these bytes, whatever the case of its letters; written bytes are such a text, with
or without the mark. What is read has half as many bytes as there are digits. -/

namespace TradingDesk.Hex

/-- The two halves of each byte, the larger place first. -/
def halves (bs : Bytes) : List ℕ := bs.flatMap fun b => [b.toNat / 16, b.toNat % 16]

theorem halves_length (bs : Bytes) : (halves bs).length = 2 * bs.length := by
  simp [halves, mul_comm]

theorem halves_lt (bs : Bytes) : ∀ n ∈ halves bs, n < 16 := by
  intro n hn
  obtain ⟨b, -, hb⟩ := List.mem_flatMap.1 hn
  have := b.toNat_lt
  simp only [List.mem_cons, List.not_mem_nil, or_false] at hb
  omega

theorem encodeChars_eq (bs : Bytes) : encodeChars bs = (halves bs).map digit := by
  simp [encodeChars, halves, List.map_flatMap]

/-! ### Digits -/

theorem digit_toNat_lt {n : ℕ} (h : n < 16) : (digit n).toNat < 128 := by
  have : ∀ m : Fin 16, (digit m).toNat < 128 := by decide
  exact this ⟨n, h⟩

theorem toUpper_toNat_lt {n : ℕ} (h : n < 16) : (digit n).toUpper.toNat < 128 := by
  have : ∀ m : Fin 16, (digit m).toUpper.toNat < 128 := by decide
  exact this ⟨n, h⟩

theorem value?_digit {n : ℕ} (h : n < 16) : value? (Bytes.ofChar (digit n)) = some n := by
  have : ∀ m : Fin 16, value? (Bytes.ofChar (digit m)) = some m.val := by decide
  exact this ⟨n, h⟩

theorem value?_toUpper {n : ℕ} (h : n < 16) :
    value? (Bytes.ofChar (digit n).toUpper) = some n := by
  have : ∀ m : Fin 16, value? (Bytes.ofChar (digit m).toUpper) = some m.val := by decide
  exact this ⟨n, h⟩

theorem lt_of_value? {b : UInt8} {n : ℕ} (h : value? b = some n) : n < 16 := by
  simp only [value?, UInt8.le_iff_toNat_le, UInt8.reduceToNat] at h
  split_ifs at h
  all_goals
    have := Option.some.inj h
    omega

/-! ### Reading -/

theorem halves_cons {x y : ℕ} (hx : x < 16) (hy : y < 16) (bs : Bytes) :
    halves (UInt8.ofNat (x * 16 + y) :: bs) = x :: y :: halves bs := by
  have hb : (UInt8.ofNat (x * 16 + y)).toNat = x * 16 + y := by
    rw [UInt8.toNat_ofNat', Nat.mod_eq_of_lt (by omega)]
  rw [halves, List.flatMap_cons, hb, show (x * 16 + y) / 16 = x by omega,
    show (x * 16 + y) % 16 = y by omega]
  rfl

theorem decodePairs_of_values (bs : Bytes) {ds : Bytes} (h : ds.map value? = (halves bs).map some)
    (i : ℕ) : decodePairs ds i = .ok bs := by
  induction bs generalizing ds i with
  | nil =>
    rw [show ds = [] by simpa [halves] using h]
    rfl
  | cons b bs ih =>
    obtain ⟨x, t, rfl, hx, ht⟩ := List.map_eq_cons_iff.1 h
    obtain ⟨y, r, rfl, hy, hr⟩ := List.map_eq_cons_iff.1 ht
    have hwhole : UInt8.ofNat (b.toNat / 16 * 16 + b.toNat % 16) = b := by
      rw [Nat.div_add_mod', UInt8.ofNat_toNat]
    rw [decodePairs, hx, hy]
    simp only [ih hr, hwhole]
    rfl

theorem values_of_decodePairs {ds bs : Bytes} {i : ℕ} (h : decodePairs ds i = .ok bs) :
    ds.map value? = (halves bs).map some := by
  induction ds, i using decodePairs.induct generalizing bs with
  | case1 a b r i x y hy hx ih =>
    rw [decodePairs, hx, hy] at h
    obtain ⟨rest, hrest, rfl⟩ := map_eq_ok.1 h
    rw [halves_cons (lt_of_value? hx) (lt_of_value? hy), List.map_cons, List.map_cons, hx, hy,
      ih hrest]
    rfl
  | case2 a b r i hx => simp [decodePairs, hx] at h
  | case3 a b r i x hx hy => simp [decodePairs, hx, hy] at h
  | case4 a i => simp [decodePairs] at h
  | case5 i =>
    cases h
    rfl

theorem length_eq_of_values {ds bs : Bytes} (h : ds.map value? = (halves bs).map some) :
    ds.length = 2 * bs.length := by
  have hlen := congrArg List.length h
  rwa [List.length_map, List.length_map, halves_length] at hlen

theorem decode_eq_ok {ds bs : Bytes} :
    decode ds = .ok bs ↔ ds.map value? = (halves bs).map some := by
  rw [decode]
  constructor
  · intro h
    split at h
    · cases h
    · exact values_of_decodePairs h
  · intro h
    rw [if_neg (by rw [length_eq_of_values h]; omega), decodePairs_of_values bs h]

theorem decodeExact_mark {ds bs : Bytes} (h : ds.map value? = (halves bs).map some) :
    decodeExact bs.length (48 :: 120 :: ds) = .ok bs := by
  have hlen := length_eq_of_values h
  simp only [decodeExact, hlen]
  rw [if_neg (by omega), if_neg (by simp), decodePairs_of_values bs h]

/-! ### Written bytes -/

theorem encodeChars_ascii (bs : Bytes) : Bytes.Ascii (encodeChars bs) := by
  intro c hc
  rw [encodeChars_eq] at hc
  obtain ⟨n, hn, rfl⟩ := List.mem_map.1 hc
  exact digit_toNat_lt (halves_lt bs n hn)

theorem values_encodeChars (bs : Bytes) :
    ((encodeChars bs).map Bytes.ofChar).map value? = (halves bs).map some := by
  rw [encodeChars_eq, List.map_map, List.map_map]
  exact List.map_congr_left fun n hn => value?_digit (halves_lt bs n hn)

theorem ofString_encode0x (bs : Bytes) :
    Bytes.ofString (encode0x bs) = 48 :: 120 :: (encodeChars bs).map Bytes.ofChar := by
  have h : encode0x bs = String.ofList ('0' :: 'x' :: encodeChars bs) := by
    rw [encode0x, encode, show "0x" = String.ofList ['0', 'x'] from rfl, ← String.ofList_append]
    rfl
  rw [h, Bytes.ofString_mark (encodeChars_ascii bs)]

/-- A mark holds a letter that is no digit, so none is dropped from digits. -/
theorem dropMarks_of_values {ds bs : Bytes} (h : ds.map value? = (halves bs).map some) :
    dropMarks ds = ds := by
  unfold dropMarks
  split
  · have hx := congrArg (·[1]?) h
    simp [value?] at hx
  · rfl

theorem decode_encode0x (bs : Bytes) :
    decode (dropMarks (Bytes.ofString (encode0x bs))) = .ok bs := by
  rw [ofString_encode0x, dropMarks, dropMarks_of_values (values_encodeChars bs), decode_eq_ok]
  exact values_encodeChars bs

theorem dropMarks_length_le (ds : Bytes) : (dropMarks ds).length ≤ ds.length := by
  induction ds using dropMarks.induct with
  | case1 r ih =>
    rw [dropMarks]
    simp only [List.length_cons]
    omega
  | case2 ds h => rw [dropMarks]; exact h

end TradingDesk.Hex
