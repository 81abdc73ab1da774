import TradingDesk.Proofs.Bytes.Utf8
import TradingDesk.Proofs.Text.Numeral
import TradingDesk.Text.Blank

/-! The texts that a word is read from. They consist of digits and underscores, and the digits alone
make the number: `1_000` is a thousand, and a text without a digit is zero. A text with at least one
character and no underscore is read just where it is a numeral for a word. -/

namespace TradingDesk.Word

open Numeral

/-- Digits and underscores, where the digits make the word `w`. -/
def Spelled (cs : List Char) (w : Word) : Prop :=
  (∀ c ∈ cs, c = '_' ∨ isDigit c) ∧ value (cs.filter (· ≠ '_')) = w.toNat

/-- At least one digit in `cs`, and nothing else, for a number that a word holds. -/
def IsNumeral (cs : List Char) : Prop :=
  cs ≠ [] ∧ (∀ c ∈ cs, isDigit c) ∧ value cs < 2 ^ 256

/-! ### Bytes -/

def Admissible (b : UInt8) : Prop := b = 95 ∨ 48 ≤ b ∧ b ≤ 57

theorem admissible_of_readFrom {n m : ℕ} {bs : Bytes} (h : readFrom n bs = .ok m) :
    ∀ b ∈ bs, Admissible b := by
  induction bs generalizing n with
  | nil => simp
  | cons b r ih =>
    rw [readFrom] at h
    split at h
    · exact List.forall_mem_cons.2 ⟨.inl ‹_›, ih h⟩
    · split at h
      · dsimp only at h
        split at h
        · exact List.forall_mem_cons.2 ⟨.inr ‹_›, ih h⟩
        · cases h
      · cases h

theorem admissible_ofChar {c : Char} (hc : c.toNat < 128) :
    Admissible (Bytes.ofChar c) ↔ c = '_' ∨ isDigit c := by
  have hval : (Bytes.ofChar c).toNat = c.toNat := Bytes.toNat_ofChar (by omega)
  rw [Admissible, isDigit_iff, UInt8.le_iff_toNat_le, UInt8.le_iff_toNat_le, hval,
    ← UInt8.toNat_inj, hval]
  refine or_congr_left ?_
  rw [← Char.toNat_inj]
  rfl

/-- A character beyond ASCII has bytes that no digit and no underscore has. -/
theorem ascii_of_admissible {cs : List Char}
    (h : ∀ b ∈ Bytes.ofString (String.ofList cs), Admissible b) : Bytes.Ascii cs := by
  intro c hc
  by_contra hbig
  rw [Bytes.ofString_eq_flatMap] at h
  obtain ⟨b, t, hencode, -⟩ := Utf8.next_encodeNat (v := c.toNat) c.valid []
  have hb : b ∈ Utf8.encodeNat c.toNat := by simp [hencode]
  have hlow := Utf8.le_of_mem_encodeNat (v := c.toNat) c.valid (by omega) b hb
  rw [← Utf8.utf8EncodeChar_eq] at hb
  rcases h b (List.mem_flatMap.2 ⟨c, hc, hb⟩) with rfl | ⟨-, hhigh⟩
  · exact absurd hlow (by decide)
  · have := UInt8.le_iff_toNat_le.1 hhigh
    exact absurd (hlow.trans this) (by decide)

/-- A number that is too large on the way through `cs` is too large at the end. -/
theorem readFrom_eq_ok {cs : List Char} (hcs : ∀ c ∈ cs, c = '_' ∨ isDigit c) {n m : ℕ}
    (hn : n < 2 ^ 256) :
    readFrom n (cs.map Bytes.ofChar) = .ok m ↔
      valueFrom n (cs.filter (· ≠ '_')) = m ∧ m < 2 ^ 256 := by
  induction cs generalizing n with
  | nil =>
    constructor
    · intro h
      cases h
      exact ⟨rfl, hn⟩
    · rintro ⟨rfl, -⟩
      rfl
  | cons c cs ih =>
    obtain ⟨hc, hrest⟩ := List.forall_mem_cons.1 hcs
    rcases hc with rfl | hc
    · rw [List.filter_cons_of_neg (by decide), ← ih hrest hn]
      rfl
    · have hne : c ≠ '_' := by
        rintro rfl
        cases hc
      rw [List.filter_cons_of_pos (by simpa using hne), valueFrom_cons, List.map_cons,
        readFrom_digit hc]
      split
      · exact ih hrest ‹_›
      · rename_i hlarge
        constructor
        · intro h
          cases h
        · rintro ⟨rfl, hm⟩
          exact absurd ((le_valueFrom _ _).trans_lt hm) hlarge

theorem read_ofList {cs : List Char} {w : Word} :
    read (String.ofList cs) = .ok w ↔ Spelled cs w := by
  rw [read, map_eq_ok]
  constructor
  · rintro ⟨n, hn, rfl⟩
    have hascii := ascii_of_admissible (admissible_of_readFrom hn)
    rw [Bytes.ofString_ofList hascii] at hn
    have hcs : ∀ c ∈ cs, c = '_' ∨ isDigit c := fun c hc =>
      (admissible_ofChar (hascii c hc)).1 (admissible_of_readFrom hn _ (List.mem_map_of_mem hc))
    obtain ⟨hvalue, hlt⟩ := (readFrom_eq_ok hcs (by decide)).1 hn
    refine ⟨hcs, ?_⟩
    rw [BitVec.toNat_ofNat, Nat.mod_eq_of_lt hlt]
    exact hvalue
  · rintro ⟨hcs, hvalue⟩
    have hascii : Bytes.Ascii cs := by
      intro c hc
      rcases hcs c hc with rfl | hdigit
      · decide
      · have := isDigit_iff.1 hdigit
        omega
    refine ⟨w.toNat, ?_, by simp⟩
    rw [Bytes.ofString_ofList hascii]
    exact (readFrom_eq_ok hcs (by decide)).2 ⟨hvalue, w.isLt⟩

/-- The `text` of a field is read without the white space around it. -/
theorem read_trim {text : String} {w : Word} :
    read (Text.trim text) = .ok w ↔ Spelled (Text.trimChars text.toList) w :=
  read_ofList

theorem spelled_iff_of_plain {cs : List Char} (hne : cs ≠ []) (hplain : '_' ∉ cs) {w : Word} :
    Spelled cs w ↔ IsNumeral cs ∧ value cs = w.toNat := by
  have hfilter : cs.filter (· ≠ '_') = cs := List.filter_eq_self.2 fun c hc => by
    rw [decide_eq_true_iff]
    rintro rfl
    exact hplain hc
  rw [Spelled, IsNumeral, hfilter]
  constructor
  · rintro ⟨hcs, hvalue⟩
    refine ⟨⟨hne, fun c hc => (hcs c hc).resolve_left ?_, hvalue ▸ w.isLt⟩, hvalue⟩
    rintro rfl
    exact hplain hc
  · rintro ⟨⟨-, hcs, -⟩, hvalue⟩
    exact ⟨fun c hc => .inr (hcs c hc), hvalue⟩

end TradingDesk.Word

namespace TradingDesk

theorem trim_singleton {c : Char} (h : Text.isBlank c = false) :
    Text.trim (String.ofList [c]) = String.ofList [c] := by
  simp [Text.trim, Text.trimChars, Text.trimStart, h]

theorem read_trim_zero : Word.read (Text.trim "0") = .ok 0 := by
  have htrim : Text.trim "0" = "0" := trim_singleton (c := '0') rfl
  rw [htrim]
  rfl

end TradingDesk
