import Mathlib.Data.String.Basic
import Mathlib.Tactic.Ring
import TradingDesk.TypedData.Domain

/-! Numbers and the bytes that spell them: a number below `256 ^ w` is read back from its `w`
bytes, and so a word is from its 32 and an address from its 20. A text of ASCII characters has one
byte for each of them. -/

namespace TradingDesk

namespace Bytes

theorem toNat_ofNat (w n : ℕ) : toNat (ofNat w n) = n % 256 ^ w := by
  induction w generalizing n with
  | zero => simp [ofNat, toNat, Nat.mod_one]
  | succ w ih =>
    rw [ofNat, toNat_append_singleton, ih, UInt8.toNat_ofNat', pow_succ' 256 w, Nat.mod_mul]
    ring

theorem toNat_ofNat_of_lt {w n : ℕ} (h : n < 256 ^ w) : toNat (ofNat w n) = n := by
  rw [toNat_ofNat, Nat.mod_eq_of_lt h]

/-! ### Fields -/

/-- The first `n` bytes and the rest, if there are so many. -/
def split? (n : ℕ) (bs : Bytes) : Option (Bytes × Bytes) :=
  if n ≤ bs.length then some (bs.take n, bs.drop n) else none

theorem split?_append {n : ℕ} {bs : Bytes} (h : bs.length = n) (rest : Bytes) :
    split? n (bs ++ rest) = some (bs, rest) := by
  rw [split?, if_pos (by rw [List.length_append]; omega), List.take_left' h, List.drop_left' h]

theorem length_of_split? {n : ℕ} {bs first rest : Bytes} (h : split? n bs = some (first, rest)) :
    bs.length = n + rest.length := by
  unfold split? at h
  split at h
  · cases h
    rw [List.length_drop]
    omega
  · cases h

/-! ### Texts -/

theorem ofString_length (s : String) : (ofString s).length = s.utf8ByteSize := by
  rw [ofString, Array.length_toList, String.toUTF8_eq_toByteArray]
  rfl

def Ascii (cs : List Char) : Prop := ∀ c ∈ cs, c.toNat < 128

theorem Ascii.cons {c : Char} {cs : List Char} (hc : c.toNat < 128) (h : Ascii cs) :
    Ascii (c :: cs) :=
  List.forall_mem_cons.2 ⟨hc, h⟩

def ofChar (c : Char) : UInt8 := UInt8.ofNat c.toNat

theorem toNat_ofChar {c : Char} (h : c.toNat < 256) : (ofChar c).toNat = c.toNat := by
  rw [ofChar, UInt8.toNat_ofNat', Nat.mod_eq_of_lt h]

theorem utf8EncodeChar_of_lt {c : Char} (h : c.toNat < 128) :
    String.utf8EncodeChar c = [ofChar c] := by
  have hc : c.val ≤ 127 := UInt32.le_iff_toNat_le.2 (Nat.le_of_lt_succ h)
  exact String.utf8EncodeChar_eq_singleton (Char.utf8Size_eq_one_iff.2 hc)

theorem ofString_eq_flatMap (cs : List Char) :
    ofString (String.ofList cs) = cs.flatMap String.utf8EncodeChar := by
  rw [ofString, String.toUTF8_eq_toByteArray, String.toByteArray_ofList, List.utf8Encode,
    List.data_toByteArray]

theorem ofString_ofList {cs : List Char} (h : Ascii cs) :
    ofString (String.ofList cs) = cs.map ofChar := by
  rw [ofString_eq_flatMap]
  induction cs with
  | nil => rfl
  | cons c cs ih =>
    rw [List.flatMap_cons, List.map_cons, utf8EncodeChar_of_lt (h c List.mem_cons_self),
      ih fun d hd => h d (List.mem_cons_of_mem _ hd), List.singleton_append]

theorem ofString_mark {cs : List Char} (h : Ascii cs) :
    ofString (String.ofList ('0' :: 'x' :: cs)) = 48 :: 120 :: cs.map ofChar := by
  rw [ofString_ofList (.cons (by decide) (.cons (by decide) h))]
  rfl

end Bytes

theorem Word.ofBytes_toBytes (w : Word) : Word.ofBytes w.toBytes = w := by
  rw [Word.ofBytes, Word.toBytes, Bytes.toNat_ofNat_of_lt w.isLt, BitVec.ofNat_toNat,
    BitVec.setWidth_eq]

theorem toNat_toBytes_wordOfNat {n : ℕ} (h : n < 2 ^ 256) :
    Bytes.toNat (wordOfNat n).toBytes = n := by
  have hword : (wordOfNat n).toNat = n := by rw [wordOfNat, BitVec.toNat_ofNat, Nat.mod_eq_of_lt h]
  rw [Word.toBytes, hword, Bytes.toNat_ofNat_of_lt (h.trans_eq (by norm_num))]

namespace Address

theorem toBytes_length (a : Address) : a.toBytes.length = 20 := Bytes.ofNat_length ..

theorem ofBytes_toBytes (a : Address) : ofBytes a.toBytes = a := by
  rw [ofBytes, toBytes, Bytes.toNat_ofNat_of_lt a.value.isLt, ofNat, BitVec.ofNat_toNat,
    BitVec.setWidth_eq]

end Address
end TradingDesk
