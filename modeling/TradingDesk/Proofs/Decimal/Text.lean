import Mathlib.Data.List.TakeWhile
import TradingDesk.Decimal.Parser
import TradingDesk.Decimal.Printer
import TradingDesk.Proofs.Decimal.Value
import TradingDesk.Proofs.Error
import TradingDesk.Proofs.Text.Numeral

/-! Decimals read back from their text. The text has all the places of the decimal, so the scale is
read back with the value. No run of digits on the way is larger than the whole, and there are never
more than 28 places, so nothing is rounded off. -/

namespace TradingDesk.Decimal

open Numeral Word

/-! ### Runs of digits -/

theorem valueFrom_append (n : ℕ) (ds es : List Char) :
    valueFrom n (ds ++ es) = valueFrom (valueFrom n ds) es := List.foldl_append

theorem scan_whole {ds : List Char} (hds : ∀ c ∈ ds, isDigit c) {n : ℕ} {seen : Bool}
    (h : valueFrom n ds < coeffBound) (rest : List Char) :
    scan (ds ++ rest) n 0 false seen =
      scan rest (valueFrom n ds) 0 false (seen || !ds.isEmpty) := by
  induction ds generalizing n seen with
  | nil => simp [valueFrom]
  | cons c ds ih =>
    obtain ⟨hc, hrest⟩ := List.forall_mem_cons.1 hds
    rw [valueFrom_cons] at h ⊢
    have hnext := (le_valueFrom _ ds).trans_lt h
    rw [List.cons_append, scan, Bool.false_and, if_neg Bool.false_ne_true, if_pos hc]
    dsimp only
    rw [if_pos hnext, if_neg Bool.false_ne_true, ih hrest h]
    simp

theorem scan_places {ds : List Char} (hds : ∀ c ∈ ds, isDigit c) {n s : ℕ}
    (h : valueFrom n ds < coeffBound) (hs : s + ds.length ≤ maxScale) :
    scan ds n s true true = .ok (valueFrom n ds, s + ds.length) := by
  induction ds generalizing n s with
  | nil => rfl
  | cons c ds ih =>
    obtain ⟨hc, hrest⟩ := List.forall_mem_cons.1 hds
    rw [valueFrom_cons] at h ⊢
    have hnext := (le_valueFrom _ ds).trans_lt h
    rw [List.length_cons] at hs ⊢
    have hroom : ¬(true && decide (maxScale ≤ s)) = true := by simp; omega
    rw [scan, if_neg hroom, if_pos hc]
    dsimp only
    rw [if_pos hnext, if_pos rfl, ih hrest h (by omega)]
    congr 2
    omega

theorem scan_point (n : ℕ) (rest : List Char) :
    scan ('.' :: rest) n 0 false true = scan rest n 0 true true := rfl

/-! ### Texts -/

theorem isDigit_of_mem_padded {width n : ℕ} : ∀ c ∈ padded width n, isDigit c := by
  intro c hc
  rcases List.mem_append.1 hc with hzero | hdigit
  · rw [List.eq_of_mem_replicate hzero]
    rfl
  · exact isDigit_of_mem_digits n c hdigit

theorem valueFrom_padded (width n : ℕ) : valueFrom 0 (padded width n) = n := by
  have hzeros (k : ℕ) : valueFrom 0 (List.replicate k '0') = 0 := by
    induction k with
    | zero => rfl
    | succ k ih => exact (valueFrom_cons 0 '0' _).trans ih
  rw [padded, valueFrom_append, hzeros]
  exact value_digits n

theorem le_padded_length (width n : ℕ) : width ≤ (padded width n).length := by
  rw [padded, List.length_append, List.length_replicate]
  omega

/-- At least one digit, and the places behind a point if there are any. -/
theorem magnitudeText_eq (n s : ℕ) : ∃ c whole places,
    magnitudeText n s = c :: whole ++ (if s = 0 then [] else '.' :: places) ∧
      (∀ d ∈ c :: whole, isDigit d) ∧ (∀ d ∈ places, isDigit d) ∧ places.length = s ∧
      valueFrom 0 (c :: whole ++ places) = n := by
  have hlen := le_padded_length (s + 1) n
  have hdigits := @isDigit_of_mem_padded (s + 1) n
  have hvalue := valueFrom_padded (s + 1) n
  rw [magnitudeText]
  set ds := padded (s + 1) n
  obtain ⟨c, whole, hwhole⟩ := List.exists_cons_of_length_pos
    (show 0 < (ds.take (ds.length - s)).length by rw [List.length_take]; omega)
  refine ⟨c, whole, ds.drop (ds.length - s), ?_, ?_, ?_, ?_, ?_⟩
  · rw [← hwhole]
    split
    · rename_i hs
      rw [hs, Nat.sub_zero, List.take_length, List.append_nil]
    · rfl
  · rw [← hwhole]
    exact fun d hd => hdigits d (List.mem_of_mem_take hd)
  · exact fun d hd => hdigits d (List.mem_of_mem_drop hd)
  · rw [List.length_drop]
    omega
  · rw [← hwhole, List.take_append_drop, hvalue]

theorem scan_magnitudeText {n s : ℕ} (hn : n < coeffBound) (hs : s ≤ maxScale) :
    scan (magnitudeText n s) 0 0 false false = .ok (n, s) := by
  obtain ⟨c, whole, places, heq, hwhole, hplaces, rfl, rfl⟩ := magnitudeText_eq n s
  rw [valueFrom_append] at hn
  have hlt := (le_valueFrom _ places).trans_lt hn
  rw [heq, scan_whole hwhole hlt, valueFrom_append]
  cases places with
  | nil => rfl
  | cons d places =>
    rw [if_neg (by simp)]
    refine (scan_point _ _).trans ?_
    rw [scan_places hplaces hn (by omega), Nat.zero_add]

theorem plain_of_mem_magnitudeText {n s : ℕ} :
    ∀ c ∈ magnitudeText n s, isExponentMark c = false := by
  have hdigit {c : Char} (hc : isDigit c) : isExponentMark c = false := by
    rw [isExponentMark, Bool.or_eq_false_iff, decide_eq_false_iff_not, decide_eq_false_iff_not]
    constructor
    · rintro rfl
      cases hc
    · rintro rfl
      cases hc
  obtain ⟨d, whole, places, heq, hwhole, hplaces, -⟩ := magnitudeText_eq n s
  intro c hc
  rw [heq] at hc
  rcases List.mem_append.1 hc with hc | hc
  · exact hdigit (hwhole c hc)
  · split at hc
    · cases hc
    · rcases List.mem_cons.1 hc with rfl | hc
      · rfl
      · exact hdigit (hplaces c hc)

theorem parsePlain_magnitudeText (n s : ℕ) : parsePlain (magnitudeText n s) =
    (do ofScan false (← scan (magnitudeText n s) 0 0 false false)) := by
  obtain ⟨c, whole, places, heq, hwhole, -⟩ := magnitudeText_eq n s
  have hc := hwhole c List.mem_cons_self
  rw [heq, List.cons_append]
  unfold parsePlain
  split
  · cases ‹_ :: _ = []›
  · rename_i h
    cases h
    cases hc
  · rename_i h
    cases h
    cases hc
  · rfl

theorem ofScan_natAbs {x : Decimal} {negative : Bool}
    (h : (if negative then -(x.coeff.natAbs : ℤ) else x.coeff.natAbs) = x.coeff) :
    ofScan negative (x.coeff.natAbs, x.scale) = .ok x := by
  rw [ofScan, h, ofCoeff?_eq_some.2 ⟨rfl, rfl⟩]

/-- The decimal `x` is read back from its text, with its scale. -/
theorem parse_toText (x : Decimal) : parse x.toText = .ok x := by
  have hscan := scan_magnitudeText (show x.coeff.natAbs < coeffBound from x.coeff_lt) x.scale_le
  have hplain {cs : List Char} (h : ∀ c ∈ cs, isExponentMark c = false) :
      parse (String.ofList cs) = parsePlain cs := by
    have hnone : cs.dropWhile (!isExponentMark ·) = [] := by
      rw [List.dropWhile_eq_nil_iff]
      simpa using h
    rw [parse, String.toList_ofList, hnone]
  rw [toText]
  split
  · rename_i hneg
    rw [hplain (List.forall_mem_cons.2 ⟨rfl, plain_of_mem_magnitudeText⟩), parsePlain, hscan,
      ok_bind, ofScan_natAbs]
    rw [if_pos rfl]
    omega
  · rename_i hnonneg
    rw [hplain plain_of_mem_magnitudeText, parsePlain_magnitudeText, hscan, ok_bind,
      ofScan_natAbs]
    rw [if_neg Bool.false_ne_true]
    omega

end TradingDesk.Decimal
