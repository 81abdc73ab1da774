import TradingDesk.Bytes.Basic

/-! Reading UTF-8. Of ill-formed bytes the longest piece that begins some character is one
mistake, so that a text can be read with one replacement character for each. -/
namespace TradingDesk.Utf8

/-- The bytes still due after a first byte, the bits it gives, and the range of the second. -/
def lead (b : UInt8) : Option (Nat × Nat × UInt8 × UInt8) :=
  let n := b.toNat
  if b < 0xC2 then none
  else if b ≤ 0xDF then some (1, n - 0xC0, 0x80, 0xBF)
  else if b = 0xE0 then some (2, n - 0xE0, 0xA0, 0xBF)
  else if b = 0xED then some (2, n - 0xE0, 0x80, 0x9F)
  else if b ≤ 0xEF then some (2, n - 0xE0, 0x80, 0xBF)
  else if b = 0xF0 then some (3, n - 0xF0, 0x90, 0xBF)
  else if b ≤ 0xF3 then some (3, n - 0xF0, 0x80, 0xBF)
  else if b = 0xF4 then some (3, n - 0xF0, 0x80, 0x8F)
  else none

def continuation : (due acc : Nat) → (lo hi : UInt8) → Bytes → Option Char × Bytes
  | 0, acc, _, _, r => (some (Char.ofNat acc), r)
  | _ + 1, _, _, _, [] => (none, [])
  | due + 1, acc, lo, hi, b :: r =>
    if lo ≤ b ∧ b ≤ hi then continuation due (acc * 64 + (b.toNat - 0x80)) 0x80 0xBF r
    else (none, b :: r)

theorem continuation_length_le (due acc : Nat) (lo hi : UInt8) (r : Bytes) :
    (continuation due acc lo hi r).2.length ≤ r.length := by
  induction due generalizing acc lo hi r with
  | zero => simp [continuation]
  | succ d ih =>
    cases r with
    | nil => simp [continuation]
    | cons b r =>
      simp only [continuation]
      split
      · exact Nat.le_succ_of_le (ih ..)
      · exact Nat.le_refl _

/-- The first character, or none for a mistake, and what follows it. -/
def next (b : UInt8) (r : Bytes) : Option Char × Bytes :=
  if b < 0x80 then (some (Char.ofNat b.toNat), r)
  else
    match lead b with
    | none => (none, r)
    | some (due, acc, lo, hi) => continuation due acc lo hi r

theorem next_length_le (b : UInt8) (r : Bytes) : (next b r).2.length ≤ r.length := by
  unfold next
  split
  · exact Nat.le_refl _
  · split
    · exact Nat.le_refl _
    · exact continuation_length_le ..

def pieces : Bytes → List (Option Char)
  | [] => []
  | b :: r => (next b r).1 :: pieces (next b r).2
termination_by bs => bs.length
decreasing_by exact Nat.lt_succ_of_le (next_length_le b r)

def decode? (bs : Bytes) : Option String := ((pieces bs).mapM id).map String.ofList

/-- Each mistake is replaced by U+FFFD. -/
def decodeLossy (bs : Bytes) : String :=
  String.ofList ((pieces bs).map (·.getD (Char.ofNat 0xFFFD)))

end TradingDesk.Utf8
