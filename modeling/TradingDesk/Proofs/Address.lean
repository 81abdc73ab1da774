import TradingDesk.Proofs.Bytes.Hex

/-! Addresses read back from their text with a checksum. The checksum only decides which letters
are capitals, and a capital has the value of its small letter; so nothing about the hash enters
here but that it has enough digits. Reading by the checksum takes this one text of an address and
no other. -/

namespace TradingDesk.Address

/-- A digit under the digit of the hash that stands over it. -/
def capitalized (d h : Char) : Char := if '8' ≤ h then d.toUpper else d

/-- The digits of the hash that the checksum is taken from. -/
def checks (a : Address) : List Char :=
  Hex.encodeChars (keccak256 (Bytes.ofString (String.ofList a.lowerDigits))).toBytes

theorem checksumDigits_eq (a : Address) :
    a.checksumDigits = List.zipWith capitalized a.lowerDigits a.checks := rfl

theorem checks_length (a : Address) : a.checks.length = 64 := by
  rw [checks, Hex.encodeChars_eq, List.length_map, Hex.halves_length, Word.toBytes_length]

theorem capitalized_toNat_lt {n : ℕ} (h : n < 16) (c : Char) :
    (capitalized (Hex.digit n) c).toNat < 128 := by
  rw [capitalized]
  split
  · exact Hex.toUpper_toNat_lt h
  · exact Hex.digit_toNat_lt h

theorem value?_capitalized {n : ℕ} (h : n < 16) (c : Char) :
    Hex.value? (Bytes.ofChar (capitalized (Hex.digit n) c)) = some n := by
  rw [capitalized]
  split
  · exact Hex.value?_toUpper h
  · exact Hex.value?_digit h

theorem zipWith_capitalized_ascii {ns : List ℕ} (hns : ∀ n ∈ ns, n < 16) (cs : List Char) :
    Bytes.Ascii (List.zipWith capitalized (ns.map Hex.digit) cs) := by
  induction ns generalizing cs with
  | nil => simp [Bytes.Ascii]
  | cons n ns ih =>
    cases cs with
    | nil => simp [Bytes.Ascii]
    | cons c cs =>
      obtain ⟨hn, hns⟩ := List.forall_mem_cons.1 hns
      exact .cons (capitalized_toNat_lt hn c) (ih hns cs)

theorem values_zipWith_capitalized {ns : List ℕ} (hns : ∀ n ∈ ns, n < 16) {cs : List Char}
    (hlen : ns.length ≤ cs.length) :
    ((List.zipWith capitalized (ns.map Hex.digit) cs).map Bytes.ofChar).map Hex.value? =
      ns.map some := by
  induction ns generalizing cs with
  | nil => rfl
  | cons n ns ih =>
    cases cs with
    | nil => simp at hlen
    | cons c cs =>
      obtain ⟨hn, hns⟩ := List.forall_mem_cons.1 hns
      have hrest := ih hns (Nat.le_of_succ_le_succ hlen)
      simp only [List.map_cons, List.zipWith_cons_cons, value?_capitalized hn, hrest]

theorem checksumDigits_ascii (a : Address) : Bytes.Ascii a.checksumDigits := by
  rw [checksumDigits_eq, lowerDigits, Hex.encodeChars_eq]
  exact zipWith_capitalized_ascii (Hex.halves_lt _) _

theorem values_checksumDigits (a : Address) :
    (a.checksumDigits.map Bytes.ofChar).map Hex.value? = (Hex.halves a.toBytes).map some := by
  rw [checksumDigits_eq, lowerDigits, Hex.encodeChars_eq]
  refine values_zipWith_capitalized (Hex.halves_lt _) ?_
  rw [Hex.halves_length, toBytes_length, checks_length]
  decide

theorem parse_mark {a : Address} {ds : List Char} (hascii : Bytes.Ascii ds)
    (h : (ds.map Bytes.ofChar).map Hex.value? = (Hex.halves a.toBytes).map some) :
    parse (String.ofList ('0' :: 'x' :: ds)) = .ok a := by
  have hdecode := Hex.decodeExact_mark h
  rw [toBytes_length] at hdecode
  rw [parse, Bytes.ofString_mark hascii, hdecode]
  simp only [Except.map, ofBytes_toBytes]

theorem parse_checksummed (a : Address) : parse a.checksummed = .ok a :=
  parse_mark (checksumDigits_ascii a) (values_checksumDigits a)

theorem parse_lower (a : Address) : parse a.lower = .ok a :=
  parse_mark (Hex.encodeChars_ascii a.toBytes) (Hex.values_encodeChars a.toBytes)

/-- The address whose text with the checksum this is. -/
def ofChecksummed? (text : String) : Option Address :=
  (parse text).toOption.filter (·.checksummed = text)

theorem ofChecksummed?_eq_some {text : String} {a : Address} :
    ofChecksummed? text = some a ↔ a.checksummed = text := by
  rw [ofChecksummed?, Option.filter_eq_some_iff, decide_eq_true_eq]
  constructor
  · exact And.right
  · intro h
    rw [← h, parse_checksummed]
    exact ⟨rfl, rfl⟩

theorem ofChecksummed?_checksummed (a : Address) : ofChecksummed? a.checksummed = some a :=
  ofChecksummed?_eq_some.2 rfl

end TradingDesk.Address
