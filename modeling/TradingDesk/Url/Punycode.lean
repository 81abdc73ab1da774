/-! Punycode: text in the characters of host names. The plain characters come first; the others
follow as steps through the code points and the places where they may stand, each step a number
to the base 36 with thresholds that adapt to the size of the steps. -/
namespace TradingDesk.Punycode

def digitChar (d : Nat) : Char := Char.ofNat (if d < 26 then 97 + d else 22 + d)

def threshold (k bias : Nat) : Nat :=
  if k ≤ bias then 1 else if bias + 26 ≤ k then 26 else k - bias

theorem one_le_threshold (k bias : Nat) : 1 ≤ threshold k bias := by
  unfold threshold
  split
  · exact Nat.le_refl 1
  · split <;> omega

def digitsFrom (q k bias : Nat) : List Char :=
  let t := threshold k bias
  if q < t then [digitChar q]
  else digitChar (t + (q - t) % (36 - t)) :: digitsFrom ((q - t) / (36 - t)) (k + 36) bias
termination_by q
decreasing_by
  have := one_le_threshold k bias
  have := Nat.div_le_self (q - threshold k bias) (36 - threshold k bias)
  omega

def scaled (delta k : Nat) : Nat :=
  if 455 < delta then scaled (delta / 35) (k + 36) else k + 36 * delta / (delta + 38)
termination_by delta

def adapt (delta count : Nat) (first : Bool) : Nat :=
  let d := if first then delta / 700 else delta / 2
  scaled (d + d / count) 0

structure Progress where
  point : Nat := 128
  delta : Nat := 0
  bias : Nat := 72
  handled : Nat
  written : List Char := []

/-- Writes the step to each place of the character `n`. -/
def writeAll (basic n : Nat) (cs : List Char) (p : Progress) : Progress :=
  cs.foldl
    (fun p c =>
      if c.toNat < n then { p with delta := p.delta + 1 }
      else if c.toNat = n then
        { p with
          delta := 0
          bias := adapt p.delta (p.handled + 1) (p.handled = basic)
          handled := p.handled + 1
          written := p.written ++ digitsFrom p.delta 36 p.bias }
      else p)
    p

/-- Takes the other characters in the order of their code points. -/
def encodeFrom (basic : Nat) (cs : List Char) (p : Progress) : List Nat → List Char
  | [] => p.written
  | n :: r =>
    let p := { p with delta := p.delta + (n - p.point) * (p.handled + 1), point := n }
    let p := writeAll basic n cs p
    encodeFrom basic cs { p with delta := p.delta + 1, point := n + 1 } r

def encode (cs : List Char) : List Char :=
  let plain := cs.filter (·.toNat < 128)
  let points := ((cs.filter (128 ≤ ·.toNat)).map Char.toNat).mergeSort.eraseReps
  (if plain.isEmpty then [] else plain ++ ['-']) ++
    encodeFrom plain.length cs { handled := plain.length } points

end TradingDesk.Punycode
