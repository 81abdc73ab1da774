import TradingDesk.Bytes.Utf8
import TradingDesk.Proofs.Bytes.Basic
import TradingDesk.Proofs.Error

/-! Texts read back from their bytes. A character has one to four bytes, by its size; the first says
how many follow, and bounds the second one, so that no character has two spellings. -/

namespace TradingDesk.Utf8

/-! ### First bytes -/

theorem lead_two : ∀ k : Fin 32, 2 ≤ k.val →
    lead (UInt8.ofNat (192 + k)) = some (1, k.val, 0x80, 0xBF) := by
  decide

theorem lead_three : ∀ k : Fin 16, lead (UInt8.ofNat (224 + k)) =
    some (2, k.val, if k.val = 0 then 0xA0 else 0x80, if k.val = 13 then 0x9F else 0xBF) := by
  decide

theorem lead_four : ∀ k : Fin 5, lead (UInt8.ofNat (240 + k)) =
    some (3, k.val, if k.val = 0 then 0x90 else 0x80, if k.val = 4 then 0x8F else 0xBF) := by
  decide

theorem ofNat_not_lt {n : ℕ} (h : 128 ≤ n) (hn : n < 256) : ¬UInt8.ofNat n < 0x80 := by
  rw [UInt8.lt_iff_toNat_lt, UInt8.toNat_ofNat', Nat.mod_eq_of_lt hn]
  exact Nat.not_lt.2 h

/-! ### Bytes that follow -/

theorem continuation_cons {due acc d : ℕ} {lo hi : UInt8} (hd : d < 64) (hlo : lo.toNat ≤ d + 128)
    (hhi : d + 128 ≤ hi.toNat) (r : Bytes) :
    continuation (due + 1) acc lo hi (UInt8.ofNat (d + 128) :: r) =
      continuation due (acc * 64 + d) 0x80 0xBF r := by
  have hbyte : (UInt8.ofNat (d + 128)).toNat = d + 128 := by
    rw [UInt8.toNat_ofNat', Nat.mod_eq_of_lt (by omega)]
  rw [continuation, if_pos ⟨UInt8.le_iff_toNat_le.2 (by omega), UInt8.le_iff_toNat_le.2 (by omega)⟩,
    hbyte, Nat.add_sub_cancel]

theorem continuation_zero (acc : ℕ) (lo hi : UInt8) (r : Bytes) :
    continuation 0 acc lo hi r = (some (Char.ofNat acc), r) := rfl

/-! ### Characters -/

/-- The bytes of the character with the number `v`, by its size. -/
def encodeNat (v : ℕ) : Bytes :=
  if v ≤ 127 then [UInt8.ofNat v]
  else if v ≤ 2047 then [UInt8.ofNat (192 + v / 64), UInt8.ofNat (v % 64 + 128)]
  else if v ≤ 65535 then
    [UInt8.ofNat (224 + v / 4096), UInt8.ofNat (v / 64 % 64 + 128), UInt8.ofNat (v % 64 + 128)]
  else
    [UInt8.ofNat (240 + v / 262144), UInt8.ofNat (v / 4096 % 64 + 128),
      UInt8.ofNat (v / 64 % 64 + 128), UInt8.ofNat (v % 64 + 128)]

theorem utf8EncodeChar_eq (c : Char) : String.utf8EncodeChar c = encodeNat c.toNat := by
  have hvalid := c.valid
  simp only [UInt32.isValidChar, Nat.isValidChar] at hvalid
  have h1 : c.val.toNat ≤ 2047 → c.val.toNat / 64 % 32 + 192 = 192 + c.val.toNat / 64 := by omega
  have h2 : c.val.toNat ≤ 65535 → c.val.toNat / 4096 % 16 + 224 = 224 + c.val.toNat / 4096 := by
    omega
  have h3 : c.val.toNat / 262144 % 8 + 240 = 240 + c.val.toNat / 262144 := by omega
  simp only [String.utf8EncodeChar, encodeNat, Char.toNat, h3]
  split
  · rfl
  · split
    · rw [h1 ‹_›]
    · split
      · rw [h2 ‹_›]
      · rfl

theorem next_encodeNat {v : ℕ} (hv : v.isValidChar) (r : Bytes) :
    ∃ b t, encodeNat v = b :: t ∧ next b (t ++ r) = (some (Char.ofNat v), r) := by
  have hbound : v < 1114112 := by
    rcases hv with h | h <;> omega
  unfold encodeNat
  split
  · rename_i h
    have hbyte : (UInt8.ofNat v).toNat = v := by
      rw [UInt8.toNat_ofNat', Nat.mod_eq_of_lt (by omega)]
    refine ⟨_, _, rfl, ?_⟩
    rw [next, if_pos (by rw [UInt8.lt_iff_toNat_lt, hbyte]; exact Nat.lt_of_le_of_lt h (by decide)),
      hbyte, List.nil_append]
  split
  · have hlead := lead_two ⟨v / 64, by omega⟩ (show 2 ≤ v / 64 by omega)
    refine ⟨_, _, rfl, ?_⟩
    rw [next, if_neg (ofNat_not_lt (by omega) (by omega)), hlead]
    simp only [List.cons_append, List.nil_append]
    rw [continuation_cons (by omega) (by simp) (by simp; omega), continuation_zero]
    congr 3
    omega
  split
  · have hlead := lead_three ⟨v / 4096, by omega⟩
    refine ⟨_, _, rfl, ?_⟩
    rw [next, if_neg (ofNat_not_lt (by omega) (by omega)), hlead]
    simp only [List.cons_append, List.nil_append]
    rw [continuation_cons (by omega) ?_ ?_, continuation_cons (by omega) (by simp) (by simp; omega),
      continuation_zero]
    · congr 3
      omega
    · split
      · simp
        omega
      · simp
    · rcases hv with h | h <;> split <;> simp <;> omega
  · have hlead := lead_four ⟨v / 262144, by omega⟩
    refine ⟨_, _, rfl, ?_⟩
    rw [next, if_neg (ofNat_not_lt (by omega) (by omega)), hlead]
    simp only [List.cons_append, List.nil_append]
    rw [continuation_cons (by omega) ?_ ?_, continuation_cons (by omega) (by simp) (by simp; omega),
      continuation_cons (by omega) (by simp) (by simp; omega), continuation_zero]
    · congr 3
      omega
    · split
      · simp
        omega
      · simp
    · split <;> simp <;> omega

theorem pieces_encodeNat {v : ℕ} (hv : v.isValidChar) (r : Bytes) :
    pieces (encodeNat v ++ r) = some (Char.ofNat v) :: pieces r := by
  obtain ⟨b, t, hencode, hnext⟩ := next_encodeNat hv r
  rw [hencode, List.cons_append, pieces, hnext]

theorem pieces_flatMap (cs : List Char) :
    pieces (cs.flatMap String.utf8EncodeChar) = cs.map some := by
  induction cs with
  | nil => rw [List.flatMap_nil, pieces, List.map_nil]
  | cons c cs ih =>
    rw [List.flatMap_cons, utf8EncodeChar_eq, pieces_encodeNat (v := c.toNat) c.valid, ih,
      Char.ofNat_toNat, List.map_cons]

theorem decode?_ofString (s : String) : decode? (Bytes.ofString s) = some s := by
  have hpieces : (pieces (Bytes.ofString s)).mapM id = some s.toList := by
    rw [← String.ofList_toList (s := s), Bytes.ofString_eq_flatMap, pieces_flatMap,
      String.toList_ofList, mapM_eq_some, List.map_id]
  rw [decode?, hpieces, Option.map_some, String.ofList_toList]

/-- Characters beyond ASCII have no byte in common with ASCII. -/
theorem le_of_mem_encodeNat {v : ℕ} (hv : v.isValidChar) (h : 128 ≤ v) :
    ∀ b ∈ encodeNat v, 128 ≤ b.toNat := by
  have hbyte {n : ℕ} (hn : 128 ≤ n) (hlt : n < 256) : 128 ≤ (UInt8.ofNat n).toNat := by
    rwa [UInt8.toNat_ofNat', Nat.mod_eq_of_lt hlt]
  have hbound : v < 1114112 := by
    rcases hv with h | h <;> omega
  unfold encodeNat
  split
  · omega
  split
  · simp only [List.forall_mem_cons]
    exact ⟨hbyte (by omega) (by omega), hbyte (by omega) (by omega), by simp⟩
  split
  · simp only [List.forall_mem_cons]
    exact ⟨hbyte (by omega) (by omega), hbyte (by omega) (by omega), hbyte (by omega) (by omega),
      by simp⟩
  · simp only [List.forall_mem_cons]
    exact ⟨hbyte (by omega) (by omega), hbyte (by omega) (by omega), hbyte (by omega) (by omega),
      hbyte (by omega) (by omega), by simp⟩

/-! ### ASCII -/

theorem pieces_ascii {bs : Bytes} (h : ∀ b ∈ bs, b < 0x80) :
    pieces bs = bs.map fun b => some (Char.ofNat b.toNat) := by
  induction bs with
  | nil => rw [pieces, List.map_nil]
  | cons b bs ih =>
    obtain ⟨hb, hbs⟩ := List.forall_mem_cons.1 h
    rw [pieces, next, if_pos hb, ih hbs, List.map_cons]

/-- Where all of `bs` are ASCII each stands for one character. -/
theorem ofString_decodeLossy {bs : Bytes} (h : ∀ b ∈ bs, b < 0x80) :
    Bytes.ofString (decodeLossy bs) = bs := by
  have hchar : ∀ b ∈ bs, b.toNat < 128 ∧ (Char.ofNat b.toNat).toNat = b.toNat := fun b hb => by
    have hcode : ∀ n : Fin 128, (Char.ofNat n).toNat = n.val := by decide
    have hlt : b.toNat < 128 := UInt8.lt_iff_toNat_lt.1 (h b hb)
    exact ⟨hlt, hcode ⟨b.toNat, hlt⟩⟩
  have hascii : Bytes.Ascii (bs.map fun b => Char.ofNat b.toNat) := by
    rw [Bytes.Ascii, List.forall_mem_map]
    exact fun b hb => (hchar b hb).2.trans_lt (hchar b hb).1
  have htext : (pieces bs).map (·.getD (Char.ofNat 0xFFFD)) =
      bs.map fun b => Char.ofNat b.toNat := by
    rw [pieces_ascii h, List.map_map]
    rfl
  calc Bytes.ofString (decodeLossy bs)
      = bs.map (Bytes.ofChar ∘ fun b => Char.ofNat b.toNat) := by
        rw [decodeLossy, htext, Bytes.ofString_ofList hascii, List.map_map]
    _ = bs.map id := List.map_congr_left fun b hb => by
        rw [Function.comp_apply, Bytes.ofChar, (hchar b hb).2, UInt8.ofNat_toNat, id_eq]
    _ = bs := List.map_id bs

end TradingDesk.Utf8
