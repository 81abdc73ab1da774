import TradingDesk.Proofs.Bytes.Basic
import TradingDesk.Word.Numeral

/-! Numerals read back: the digits of a number have it for their value, so a reader that bounds the
value returns the number when it is below the bound. Words are read from bytes, and the bound is
checked after each digit; a run of digits never falls below its beginning, so only the value of the
whole run matters. -/

namespace TradingDesk

namespace Numeral

theorem digitChar_toNat {d : ℕ} (h : d < 10) : (digitChar d).toNat = 48 + d := by
  have : ∀ e : Fin 10, (digitChar e).toNat = 48 + e.val := by decide
  exact this ⟨d, h⟩

theorem digitValue_digitChar {d : ℕ} (h : d < 10) : digitValue (digitChar d) = d := by
  rw [digitValue, digitChar_toNat h, Nat.add_sub_cancel_left]

theorem isDigit_digitChar {d : ℕ} (h : d < 10) : isDigit (digitChar d) := by
  simp only [isDigit, digitChar_toNat h, Bool.and_eq_true, decide_eq_true_eq]
  omega

theorem isDigit_iff {c : Char} : isDigit c ↔ 48 ≤ c.toNat ∧ c.toNat ≤ 57 := by
  simp [isDigit]

theorem value_append_singleton (ds : List Char) (c : Char) :
    value (ds ++ [c]) = value ds * 10 + digitValue c := by
  simp [value, List.foldl_append]

theorem value_digits (n : ℕ) : value (digits n) = n := by
  induction n using digits.induct with
  | case1 n h =>
    rw [digits, if_pos h]
    simpa [value] using digitValue_digitChar h
  | case2 n h ih =>
    rw [digits, if_neg h, value_append_singleton, ih, digitValue_digitChar (by omega)]
    omega

theorem isDigit_of_mem_digits (n : ℕ) : ∀ c ∈ digits n, isDigit c := by
  induction n using digits.induct with
  | case1 n h =>
    rw [digits, if_pos h]
    simpa using isDigit_digitChar h
  | case2 n h ih =>
    rw [digits, if_neg h]
    intro c hc
    rcases List.mem_append.1 hc with hc | hc
    · exact ih c hc
    · rw [List.mem_singleton.1 hc]
      exact isDigit_digitChar (by omega)

theorem digits_ne_nil (n : ℕ) : digits n ≠ [] := by
  rw [digits]
  split <;> simp

theorem head?_digits {n : ℕ} (h : 0 < n) : (digits n).head? ≠ some '0' := by
  induction n using digits.induct with
  | case1 n hn =>
    have : ∀ d : Fin 10, 0 < d.val → digitChar d ≠ '0' := by decide
    rw [digits, if_pos hn, List.head?_cons, ne_eq, Option.some.injEq]
    exact this ⟨n, hn⟩ h
  | case2 n hn ih =>
    rw [digits, if_neg hn, List.head?_append_of_ne_nil _ (digits_ne_nil _)]
    exact ih (by omega)

theorem digits_ascii (n : ℕ) : Bytes.Ascii (digits n) := by
  intro c hc
  have := isDigit_iff.1 (isDigit_of_mem_digits n c hc)
  omega

/-- A plus would be dropped, but no digit is one. -/
theorem bounded?_digits {bound n : ℕ} (h : n < bound) : bounded? bound (digits n) = some n := by
  have hplus : ∀ r, digits n ≠ '+' :: r := by
    intro r hr
    have hc := isDigit_of_mem_digits n '+' (by simp [hr])
    exact absurd hc (by decide)
  have hall : (digits n).all isDigit := List.all_eq_true.2 (isDigit_of_mem_digits n)
  have hempty : (digits n).isEmpty = false := by simpa using digits_ne_nil n
  unfold bounded?
  split
  · exact absurd ‹_› (hplus _)
  · simp [hempty, hall, value_digits, h]

theorem below64?_ofNat (n : UInt64) : below64? (ofNat n.toNat) = some n.toNat := by
  rw [below64?, ofNat, String.toList_ofList]
  exact bounded?_digits n.toNat_lt

theorem below8?_ofNat (n : UInt8) : below8? (ofNat n.toNat) = some n.toNat := by
  rw [below8?, ofNat, String.toList_ofList]
  exact bounded?_digits n.toNat_lt

end Numeral

namespace Word

open Numeral

/-- The number that a run of digits makes of `n`. -/
def valueFrom (n : ℕ) (ds : List Char) : ℕ := ds.foldl (fun n c => n * 10 + digitValue c) n

theorem valueFrom_cons (n : ℕ) (c : Char) (ds : List Char) :
    valueFrom n (c :: ds) = valueFrom (n * 10 + digitValue c) ds := by
  rw [valueFrom, List.foldl_cons, valueFrom]

theorem le_valueFrom (n : ℕ) (ds : List Char) : n ≤ valueFrom n ds := by
  induction ds generalizing n with
  | nil => rfl
  | cons c ds ih =>
    have h := ih (n * 10 + digitValue c)
    rw [valueFrom_cons]
    omega

theorem readFrom_digit {c : Char} (hc : isDigit c) (n : ℕ) (r : Bytes) :
    readFrom n (Bytes.ofChar c :: r) =
      if n * 10 + digitValue c < 2 ^ 256 then readFrom (n * 10 + digitValue c) r
      else .error .tooLarge := by
  obtain ⟨hlow, hhigh⟩ := isDigit_iff.1 hc
  have hval : (Bytes.ofChar c).toNat = c.toNat := Bytes.toNat_ofChar (by omega)
  have hbar : Bytes.ofChar c ≠ 95 := by
    intro heq
    rw [heq] at hval
    have : (95 : UInt8).toNat = 95 := rfl
    omega
  have hdigit : 48 ≤ Bytes.ofChar c ∧ Bytes.ofChar c ≤ 57 := by
    rw [UInt8.le_iff_toNat_le, UInt8.le_iff_toNat_le, hval]
    exact ⟨hlow, hhigh⟩
  rw [readFrom, if_neg hbar, if_pos hdigit, hval, show c.toNat - 48 = digitValue c from rfl]
  rfl

theorem readFrom_digits {ds : List Char} (hds : ∀ c ∈ ds, isDigit c) {n : ℕ}
    (h : valueFrom n ds < 2 ^ 256) : readFrom n (ds.map Bytes.ofChar) = .ok (valueFrom n ds) := by
  induction ds generalizing n with
  | nil => rfl
  | cons c ds ih =>
    rw [valueFrom_cons] at h ⊢
    have hnext := (le_valueFrom _ ds).trans_lt h
    rw [List.map_cons, readFrom_digit (hds c List.mem_cons_self), if_pos hnext,
      ih (fun d hd => hds d (List.mem_cons_of_mem _ hd)) h]

theorem read_toText (w : Word) : read w.toText = .ok w := by
  have hvalue : valueFrom 0 (digits w.toNat) = w.toNat := value_digits w.toNat
  rw [read, toText, ofNat, Bytes.ofString_ofList (digits_ascii _),
    readFrom_digits (isDigit_of_mem_digits _) (by rw [hvalue]; exact w.isLt), hvalue]
  simp [Except.map]

end Word
end TradingDesk
