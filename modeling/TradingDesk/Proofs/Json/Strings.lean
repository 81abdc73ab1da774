import TradingDesk.Json.Parser
import TradingDesk.Json.Printer
import TradingDesk.Proofs.Bytes.Hex
import TradingDesk.Proofs.Bytes.Utf8

/-! Strings read back from their JSON text. Each character is written as itself or as an escape, and
either way its bytes are read as pieces that make the character again; the pieces of a whole string
are those of its characters, one after the other. -/

namespace TradingDesk.Json

/-! ### Pieces -/

theorem pieces?_byte {b : UInt8} (hb : ¬b < 32) (hquote : b ≠ 34) (hslash : b ≠ 92) (r : Bytes) :
    pieces? (b :: r) = (pieces? r).map fun p => (.byte b :: p.1, p.2) := by
  rw [pieces?.eq_def]
  split
  · cases ‹b :: r = []›
  · simp_all
  · simp_all
  · simp_all
  · rename_i heq
    cases heq
    rw [if_neg (by simp [hb, hslash])]
    cases pieces? r with
    | none => rfl
    | some p => rfl

theorem pieces?_escape {e b : UInt8} (he : e ≠ 117) (h : escape? e = some b) (r : Bytes) :
    pieces? (92 :: e :: r) = (pieces? r).map fun p => (.byte b :: p.1, p.2) := by
  rw [pieces?, h]
  · cases pieces? r with
    | none => rfl
    | some p => rfl
  · simp [he]

theorem pieces?_unit {a b c d : UInt8} {u : ℕ} (h : unit? a b c d = some u) (r : Bytes) :
    pieces? (92 :: 117 :: a :: b :: c :: d :: r) =
      (pieces? r).map fun p => (.unit u :: p.1, p.2) := by
  rw [pieces?, h]
  cases pieces? r with
  | none => rfl
  | some p => rfl

theorem pieces?_bytes {bs : Bytes} (h : ∀ b ∈ bs, ¬b < 32 ∧ b ≠ 34 ∧ b ≠ 92) (r : Bytes) :
    pieces? (bs ++ r) = (pieces? r).map fun p => (bs.map .byte ++ p.1, p.2) := by
  induction bs with
  | nil => simp
  | cons b bs ih =>
    obtain ⟨⟨hb, hquote, hslash⟩, hbs⟩ := List.forall_mem_cons.1 h
    rw [List.cons_append, pieces?_byte hb hquote hslash, ih hbs, Option.map_map]
    rfl

theorem pieceBytes?_bytes (bs : Bytes) (ps : List Piece) :
    pieceBytes? (bs.map .byte ++ ps) = (pieceBytes? ps).map (bs ++ ·) := by
  induction bs with
  | nil => simp
  | cons b bs ih =>
    rw [List.map_cons, List.cons_append, pieceBytes?, ih]
    cases pieceBytes? ps with
    | none => rfl
    | some cs => rfl

theorem pieceBytes?_unit {u : ℕ} (h : u < 0xD800) (ps : List Piece) :
    pieceBytes? (.unit u :: ps) = (pieceBytes? ps).map (charBytes u ++ ·) := by
  have h1 : ¬(0xD800 ≤ u) := by omega
  have h2 : ¬(0xDC00 ≤ u) := by omega
  rw [pieceBytes?.eq_def]
  split
  · simp_all
  · simp_all
  · rename_i heq
    cases heq
    simp [h1, h2]
  · rename_i heq
    cases heq
    simp [h1]

/-! ### Characters -/

/-- The pieces are what the bytes are read as, and make the bytes of the character. -/
structure Spells (bs : Bytes) (c : Char) (ps : List Piece) : Prop where
  read : ∀ r, pieces? (bs ++ r) = (pieces? r).map fun p => (ps ++ p.1, p.2)
  made : ∀ qs, pieceBytes? (ps ++ qs) = (pieceBytes? qs).map (String.utf8EncodeChar c ++ ·)

theorem spells_escape {c : Char} {e b : UInt8} (hc : String.utf8EncodeChar c = [b]) (he : e ≠ 117)
    (h : escape? e = some b) : Spells [92, e] c [.byte b] where
  read := pieces?_escape he h
  made qs := by rw [hc]; exact pieceBytes?_bytes [b] qs

theorem spells_unit {c : Char} (hc : c.toNat < 32) :
    Spells [92, 117, 48, 48, Bytes.ofChar (Hex.digit (c.toNat / 16)),
      Bytes.ofChar (Hex.digit (c.toNat % 16))] c [.unit c.toNat] where
  read := by
    have hunit : unit? 48 48 (Bytes.ofChar (Hex.digit (c.toNat / 16)))
        (Bytes.ofChar (Hex.digit (c.toNat % 16))) = some c.toNat := by
      have hvalue : c.toNat / 16 * 16 + c.toNat % 16 = c.toNat := Nat.div_add_mod' ..
      rw [unit?, Hex.value?_digit (by omega), Hex.value?_digit (by omega)]
      simpa [Hex.value?] using hvalue
    exact pieces?_unit hunit
  made qs := by
    have hbytes : charBytes c.toNat = String.utf8EncodeChar c := by
      rw [charBytes, Char.ofNat_toNat, String.singleton_eq_ofList, Bytes.ofString_eq_flatMap,
        List.flatMap_singleton]
    rw [List.singleton_append, pieceBytes?_unit (by omega), hbytes]

theorem spells_bytes {c : Char} (h : ∀ b ∈ String.utf8EncodeChar c, ¬b < 32 ∧ b ≠ 34 ∧ b ≠ 92) :
    Spells (String.utf8EncodeChar c) c ((String.utf8EncodeChar c).map .byte) where
  read := pieces?_bytes h
  made := pieceBytes?_bytes _

theorem bytes_plain {c : Char} (hlow : ¬c.toNat < 32) (hquote : c ≠ '"') (hslash : c ≠ '\\') :
    ∀ b ∈ String.utf8EncodeChar c, ¬b < 32 ∧ b ≠ 34 ∧ b ≠ 92 := by
  have hplain {b : UInt8} (hb : 32 ≤ b.toNat) (h34 : b.toNat ≠ 34) (h92 : b.toNat ≠ 92) :
      ¬b < 32 ∧ b ≠ 34 ∧ b ≠ 92 := by
    refine ⟨?_, ?_, ?_⟩
    · rw [UInt8.lt_iff_toNat_lt]
      exact Nat.not_lt.2 hb
    · rintro rfl
      exact h34 rfl
    · rintro rfl
      exact h92 rfl
  have hne {d : Char} (h : c ≠ d) : c.toNat ≠ d.toNat := fun heq => h (Char.toNat_inj.1 heq)
  obtain h | h := Nat.lt_or_ge c.toNat 128
  · have hbyte : (Bytes.ofChar c).toNat = c.toNat := Bytes.toNat_ofChar (by omega)
    rw [Bytes.utf8EncodeChar_of_lt h, List.forall_mem_singleton]
    refine hplain ?_ ?_ ?_ <;> rw [hbyte]
    · exact Nat.not_lt.1 hlow
    · exact hne hquote
    · exact hne hslash
  · rw [Utf8.utf8EncodeChar_eq]
    intro b hb
    have := Utf8.le_of_mem_encodeNat (v := c.toNat) c.valid h b hb
    exact hplain (by omega) (by omega) (by omega)

theorem exists_spells (c : Char) :
    ∃ ps, Spells ((escapedChar c).flatMap String.utf8EncodeChar) c ps := by
  have hcontrol {n : ℕ} (h : c.toNat = n) : c = Char.ofNat n := by rw [← h, Char.ofNat_toNat]
  unfold escapedChar
  split
  · rename_i h
    subst h
    exact ⟨_, spells_escape rfl (by decide) rfl⟩
  split
  · rename_i h
    subst h
    exact ⟨_, spells_escape rfl (by decide) rfl⟩
  split
  · rename_i h
    subst h
    exact ⟨_, spells_escape rfl (by decide) rfl⟩
  split
  · rename_i h
    subst h
    exact ⟨_, spells_escape rfl (by decide) rfl⟩
  split
  · rename_i h
    subst h
    exact ⟨_, spells_escape rfl (by decide) rfl⟩
  split
  · rename_i h
    obtain rfl := hcontrol h
    exact ⟨_, spells_escape rfl (by decide) rfl⟩
  split
  · rename_i h
    obtain rfl := hcontrol h
    exact ⟨_, spells_escape rfl (by decide) rfl⟩
  split
  · rename_i h
    refine ⟨[.unit c.toNat], ?_⟩
    simp only [List.flatMap_cons, List.flatMap_nil, Bytes.utf8EncodeChar_of_lt
      (Hex.digit_toNat_lt (show c.toNat / 16 < 16 by omega)), Bytes.utf8EncodeChar_of_lt
      (Hex.digit_toNat_lt (show c.toNat % 16 < 16 by omega))]
    exact spells_unit h
  · rename_i hquote hslash _ _ _ _ _ hlow
    rw [List.flatMap_singleton]
    exact ⟨_, spells_bytes (bytes_plain hlow hquote hslash)⟩

/-! ### Strings -/

/-- The bytes of a string between its quotes. -/
def inner (cs : List Char) : Bytes := (cs.flatMap escapedChar).flatMap String.utf8EncodeChar

theorem ofString_stringText (s : String) :
    Bytes.ofString (stringText s) = 34 :: (inner s.toList ++ [34]) := by
  rw [stringText, Bytes.ofString_eq_flatMap, inner]
  simp only [List.cons_append, List.flatMap_cons, List.flatMap_append, List.flatMap_nil]
  rfl

theorem pieces?_inner (cs : List Char) :
    ∃ ps, pieceBytes? ps = some (cs.flatMap String.utf8EncodeChar) ∧
      ∀ r, pieces? (inner cs ++ 34 :: r) = some (ps, r) := by
  induction cs with
  | nil => exact ⟨[], rfl, fun r => rfl⟩
  | cons c cs ih =>
    obtain ⟨ps, hbytes, hread⟩ := ih
    obtain ⟨qs, hspells⟩ := exists_spells c
    refine ⟨qs ++ ps, ?_, fun r => ?_⟩
    · rw [hspells.made, hbytes, Option.map_some, List.flatMap_cons]
    · rw [inner, List.flatMap_cons, List.flatMap_append, List.append_assoc, hspells.read,
        ← inner, hread, Option.map_some]

theorem string?_inner (s : String) (r : Bytes) :
    string? (inner s.toList ++ 34 :: r) = some (some s, r) := by
  obtain ⟨ps, hbytes, hread⟩ := pieces?_inner s.toList
  have htext : pieceText? ps = some s := by
    rw [pieceText?, hbytes, ← Bytes.ofString_eq_flatMap, String.ofList_toList]
    exact Utf8.decode?_ofString s
  rw [string?, hread, ← htext]
  rfl

end TradingDesk.Json
