import TradingDesk.Proofs.Error
import TradingDesk.Proofs.Json.Strings
import TradingDesk.Proofs.Text.Numeral

/-! Values read back from their JSON text. -/

namespace TradingDesk.Json

/-! ### Numbers -/

/-- A number does not go on at `r`. -/
def Ends (r : Bytes) : Prop := r = [] ∨ ∃ b t, r = b :: t ∧ (b = 44 ∨ b = 93 ∨ b = 125)

theorem Ends.cons {b : UInt8} (h : b = 44 ∨ b = 93 ∨ b = 125) (t : Bytes) : Ends (b :: t) :=
  .inr ⟨b, t, rfl, h⟩

theorem isDigitByte_ofChar {c : Char} (h : Numeral.isDigit c) : isDigitByte (Bytes.ofChar c) := by
  obtain ⟨hlow, hhigh⟩ := Numeral.isDigit_iff.1 h
  simp only [isDigitByte, UInt8.le_iff_toNat_le, Bytes.toNat_ofChar (show c.toNat < 256 by omega),
    Bool.and_eq_true, decide_eq_true_eq]
  exact ⟨hlow, hhigh⟩

/-- The bytes of the digits of a number. -/
def digitBytes (n : ℕ) : Bytes := (Numeral.digits n).map Bytes.ofChar

theorem ofString_ofNat (n : ℕ) : Bytes.ofString (Numeral.ofNat n) = digitBytes n :=
  Bytes.ofString_ofList (Numeral.digits_ascii n)

theorem isDigitByte_of_mem (n : ℕ) : ∀ b ∈ digitBytes n, isDigitByte b := by
  intro b hb
  obtain ⟨c, hc, rfl⟩ := List.mem_map.1 hb
  exact isDigitByte_ofChar (Numeral.isDigit_of_mem_digits n c hc)

theorem digitsValue_digitBytes (n : ℕ) : digitsValue (digitBytes n) = n := by
  have hfrom (cs : List Char) (h : ∀ c ∈ cs, Numeral.isDigit c) (m : ℕ) :
      (cs.map Bytes.ofChar).foldl (fun n b => n * 10 + (b.toNat - 48)) m =
        cs.foldl (fun n c => n * 10 + Numeral.digitValue c) m := by
    induction cs generalizing m with
    | nil => rfl
    | cons c cs ih =>
      obtain ⟨hc, hcs⟩ := List.forall_mem_cons.1 h
      obtain ⟨hlow, hhigh⟩ := Numeral.isDigit_iff.1 hc
      rw [List.map_cons, List.foldl_cons, List.foldl_cons, Bytes.toNat_ofChar (by omega), ih hcs]
      rfl
  calc digitsValue (digitBytes n) = Numeral.value (Numeral.digits n) :=
        hfrom _ (Numeral.isDigit_of_mem_digits n) 0
    _ = n := Numeral.value_digits n

theorem Ends.not_isDigitByte {b : UInt8} {t : Bytes} (h : Ends (b :: t)) :
    isDigitByte b = false := by
  rcases h with h | ⟨c, s, heq, rfl | rfl | rfl⟩
  · cases h
  all_goals
    cases heq
    rfl

theorem takeWhile_digitBytes (n : ℕ) {r : Bytes} (hr : Ends r) :
    (digitBytes n ++ r).takeWhile isDigitByte = digitBytes n ∧
      (digitBytes n ++ r).dropWhile isDigitByte = r := by
  rw [List.takeWhile_append_of_pos (isDigitByte_of_mem n),
    List.dropWhile_append_of_pos (isDigitByte_of_mem n)]
  cases r with
  | nil => simp
  | cons b t => simp [hr.not_isDigitByte]

/-- A numeral begins with a zero only when it is one. -/
theorem digitBytes_whole (n : ℕ) : (!(digitBytes n).isEmpty &&
    ((digitBytes n).length == 1 || (digitBytes n).head? != some 48)) = true := by
  obtain rfl | hpos := Nat.eq_zero_or_pos n
  · rw [digitBytes, Numeral.digits, if_pos (by decide)]
    rfl
  · have hhead := Numeral.head?_digits hpos
    have hdigit := Numeral.isDigit_of_mem_digits n
    unfold digitBytes
    cases hds : Numeral.digits n with
    | nil => exact absurd hds (Numeral.digits_ne_nil n)
    | cons c cs =>
      rw [hds] at hhead hdigit
      obtain ⟨hlow, hhigh⟩ := Numeral.isDigit_iff.1 (hdigit c List.mem_cons_self)
      have hne : Bytes.ofChar c ≠ 48 := by
        intro heq
        have htoNat := congrArg UInt8.toNat heq
        rw [Bytes.toNat_ofChar (by omega)] at htoNat
        have hc : c = '0' := Char.toNat_inj.1 htoNat
        exact hhead (by rw [List.head?_cons, hc])
      simp [hne]

theorem fraction?_of_ends {r : Bytes} (hr : Ends r) : fraction? r = some ([], r) := by
  rcases hr with rfl | ⟨b, t, rfl, rfl | rfl | rfl⟩ <;> rfl

theorem exponent?_of_ends {r : Bytes} (hr : Ends r) : exponent? r = some (none, r) := by
  rcases hr with rfl | ⟨b, t, rfl, rfl | rfl | rfl⟩ <;> rfl

theorem number?_digitBytes (negative : Bool) (n : ℕ) {r : Bytes} (hr : Ends r) :
    number? negative (digitBytes n ++ r) = some (ofNumeral negative (digitBytes n) [] none, r) := by
  obtain ⟨htake, hdrop⟩ := takeWhile_digitBytes n hr
  rw [number?, htake, hdrop, digitBytes_whole, fraction?_of_ends hr]
  simp [guard, exponent?_of_ends hr]

theorem number?_nat {n : ℕ} (h : n < 18446744073709551616) {r : Bytes} (hr : Ends r) :
    number? false (digitBytes n ++ r) = some (number (.nat n), r) := by
  rw [number?_digitBytes false n hr, ofNumeral, digitsValue_digitBytes, if_pos h]

theorem number?_negative {n : ℕ} (hpos : 0 < n) (h : n ≤ 9223372036854775808) {r : Bytes}
    (hr : Ends r) : number? true (digitBytes n ++ r) = some (number (.negative n), r) := by
  rw [number?_digitBytes true n hr, ofNumeral, digitsValue_digitBytes,
    if_pos (by simp only [Bool.and_eq_true, decide_eq_true_eq]; exact ⟨hpos, h⟩)]

/-! ### Values that are read back -/

mutual

/-- Whether the text of a value says all of it: doubles are left aside, and whole numbers fit a
64-bit word. -/
def faithful : Json → Bool
  | array items => itemsFaithful items
  | object members => membersFaithful members
  | number (.nat n) => n < 18446744073709551616
  | number (.negative n) => 0 < n && n ≤ 9223372036854775808
  | number (.double _) => false
  | unreadable => false
  | _ => true

def itemsFaithful : List Json → Bool
  | [] => true
  | j :: r => j.faithful && itemsFaithful r

def membersFaithful : List (String × Json) → Bool
  | [] => true
  | (_, j) :: r => j.faithful && membersFaithful r

end

def bytes (j : Json) : Bytes := Bytes.ofString j.text

def itemsBytes (js : List Json) : Bytes := Bytes.ofString (itemsText js)

def membersBytes (ms : List (String × Json)) : Bytes := Bytes.ofString (membersText ms)

theorem ofString_append (s t : String) :
    Bytes.ofString (s ++ t) = Bytes.ofString s ++ Bytes.ofString t := by
  rw [← String.ofList_toList (s := s), ← String.ofList_toList (s := t), ← String.ofList_append,
    Bytes.ofString_eq_flatMap, Bytes.ofString_eq_flatMap, Bytes.ofString_eq_flatMap,
    List.flatMap_append]

theorem bytes_array (js : List Json) : bytes (array js) = 91 :: (itemsBytes js ++ [93]) := by
  rw [bytes, text, ofString_append, ofString_append]
  rfl

theorem bytes_object (ms : List (String × Json)) :
    bytes (object ms) = 123 :: (membersBytes ms ++ [125]) := by
  rw [bytes, text, ofString_append, ofString_append]
  rfl

theorem bytes_string (s : String) : bytes (string s) = 34 :: (inner s.toList ++ [34]) := by
  rw [bytes, text, ofString_stringText]

theorem bytes_negative (n : ℕ) : bytes (number (.negative n)) = 45 :: digitBytes n := by
  rw [bytes, text, numberText, ofString_append, ofString_ofNat]
  rfl

theorem itemsBytes_singleton (j : Json) : itemsBytes [j] = j.bytes := by
  rw [itemsBytes, itemsText, bytes]

theorem itemsBytes_cons (j k : Json) (js : List Json) :
    itemsBytes (j :: k :: js) = j.bytes ++ 44 :: itemsBytes (k :: js) := by
  rw [itemsBytes, itemsText, ofString_append, ofString_append, List.append_assoc]
  · rfl
  · simp

theorem membersBytes_singleton (name : String) (j : Json) :
    membersBytes [(name, j)] = 34 :: (inner name.toList ++ 34 :: 58 :: j.bytes) := by
  rw [membersBytes, membersText, ofString_append, ofString_append, ofString_stringText,
    List.cons_append, List.cons_append, List.append_assoc, List.append_assoc]
  rfl

theorem membersBytes_cons (name : String) (j : Json) (m : String × Json)
    (ms : List (String × Json)) : membersBytes ((name, j) :: m :: ms) =
      34 :: (inner name.toList ++ 34 :: 58 :: (j.bytes ++ 44 :: membersBytes (m :: ms))) := by
  rw [membersBytes, membersText, ofString_append, ofString_append, ofString_append,
    ofString_append, ofString_stringText]
  · simp only [List.cons_append, List.append_assoc]
    rfl
  · simp

/-! ### Reading them -/

theorem skipSpace_cons {b : UInt8} (h : isSpace b = false) (r : Bytes) :
    skipSpace (b :: r) = b :: r := by
  rw [skipSpace, List.dropWhile_cons, h]
  rfl

theorem exists_digitBytes (n : ℕ) : ∃ b t, digitBytes n = b :: t ∧ isDigitByte b := by
  have hdigit := isDigitByte_of_mem n
  cases hds : digitBytes n with
  | nil => exact absurd (List.map_eq_nil_iff.1 hds) (Numeral.digits_ne_nil n)
  | cons b t => exact ⟨b, t, rfl, hdigit b (by simp [hds])⟩

theorem not_isSpace_of_digit {b : UInt8} (h : isDigitByte b) : isSpace b = false := by
  simp only [isSpace, Bool.or_eq_false_iff, beq_eq_false_iff_ne]
  refine ⟨⟨⟨?_, ?_⟩, ?_⟩, ?_⟩ <;> (rintro rfl; exact absurd h (by decide))

/-- A value `j` begins with a byte that is neither space nor the end of a list. -/
theorem exists_bytes {j : Json} (h : j.faithful) :
    ∃ b t, j.bytes = b :: t ∧ isSpace b = false ∧ b ≠ 93 := by
  cases j with
  | null => exact ⟨110, _, rfl, rfl, by decide⟩
  | bool b => cases b <;> exact ⟨_, _, rfl, rfl, by decide⟩
  | number n =>
    cases n with
    | nat n =>
      obtain ⟨b, t, heq, hb⟩ := exists_digitBytes n
      refine ⟨b, t, (ofString_ofNat n).trans heq, not_isSpace_of_digit hb, ?_⟩
      rintro rfl
      exact absurd hb (by decide)
    | negative n => exact ⟨45, _, bytes_negative n, rfl, by decide⟩
    | double x => cases h
  | string s => exact ⟨34, _, bytes_string s, rfl, by decide⟩
  | array js => exact ⟨91, _, bytes_array js, rfl, by decide⟩
  | object ms => exact ⟨123, _, bytes_object ms, rfl, by decide⟩
  | unreadable => cases h

theorem value?From_digit {b : UInt8} (h : isDigitByte b) (t : Bytes) (fuel : ℕ) :
    value?From (fuel + 1) (b :: t) = number? false (b :: t) := by
  rw [value?From, skipSpace_cons (not_isSpace_of_digit h)]
  split
  case h_8 => rfl
  all_goals
    rename_i heq
    cases heq
    exact absurd h (by decide)

theorem value?From_number {n : Number} (hn : (number n).faithful) {r : Bytes} (hr : Ends r)
    (fuel : ℕ) : value?From (fuel + 1) (bytes (number n) ++ r) = some (number n, r) := by
  cases n with
  | nat n =>
    obtain ⟨b, t, heq, hb⟩ := exists_digitBytes n
    have hbytes : bytes (number (.nat n)) = digitBytes n := ofString_ofNat n
    rw [hbytes, heq, List.cons_append, value?From_digit hb, ← List.cons_append, ← heq]
    exact number?_nat (by simpa [faithful] using hn) hr
  | negative n =>
    obtain ⟨hpos, hle⟩ : 0 < n ∧ n ≤ 9223372036854775808 := by simpa [faithful] using hn
    rw [bytes_negative, List.cons_append, value?From, skipSpace_cons (by decide)]
    exact number?_negative hpos hle hr
  | double x => cases hn

theorem value?From_string (s : String) (r : Bytes) (fuel : ℕ) :
    value?From (fuel + 1) (bytes (string s) ++ r) = some (string s, r) := by
  rw [bytes_string, List.cons_append, List.append_assoc, value?From, skipSpace_cons (by decide)]
  simp only
  rw [List.singleton_append, string?_inner]
  rfl

/-! ### One step of the reader -/

theorem value?From_array {b : UInt8} (hb : isSpace b = false) (hne : b ≠ 93) (t : Bytes)
    (fuel : ℕ) : value?From (fuel + 1) (91 :: b :: t) =
      (items?From fuel (b :: t)).map fun p => (array p.1, p.2) := by
  rw [value?From, skipSpace_cons (by decide)]
  simp only
  rw [skipSpace_cons hb]
  split
  · rename_i heq
    cases heq
    exact absurd rfl hne
  · cases items?From fuel (b :: t) with
    | none => rfl
    | some p => rfl

theorem value?From_object (t : Bytes) (fuel : ℕ) : value?From (fuel + 1) (123 :: 34 :: t) =
      (members?From fuel (34 :: t)).map fun p => (ofMembers p.1, p.2) := by
  rw [value?From, skipSpace_cons (by decide)]
  simp only
  rw [skipSpace_cons (by decide)]
  change (do let p ← members?From fuel (34 :: t); return (ofMembers p.1, p.2)) = _
  cases members?From fuel (34 :: t) with
  | none => rfl
  | some p => rfl

variable {fuel : ℕ} {j : Json} {bs r : Bytes}

theorem items?From_last (h : value?From fuel bs = some (j, 93 :: r)) :
    items?From (fuel + 1) bs = some ([j], r) := by
  rw [items?From, h]
  rfl

theorem items?From_comma {js : List Json} {rest : Bytes}
    (h : value?From fuel bs = some (j, 44 :: rest)) (hrest : items?From fuel rest = some (js, r)) :
    items?From (fuel + 1) bs = some (j :: js, r) := by
  rw [items?From, h]
  change (do let p ← items?From fuel rest; return (j :: p.1, p.2)) = _
  rw [hrest]
  rfl

theorem members?From_last (name : String) (h : value?From fuel bs = some (j, 125 :: r)) :
    members?From (fuel + 1) (34 :: (inner name.toList ++ 34 :: 58 :: bs)) =
      some ([(some name, j)], r) := by
  rw [members?From, skipSpace_cons (by decide)]
  simp only
  rw [string?_inner]
  simp only [bind, Option.bind]
  rw [skipSpace_cons (by decide)]
  simp only
  rw [h]
  rfl

theorem members?From_comma (name : String) {ms : List (Option String × Json)} {rest : Bytes}
    (h : value?From fuel bs = some (j, 44 :: rest))
    (hrest : members?From fuel rest = some (ms, r)) :
    members?From (fuel + 1) (34 :: (inner name.toList ++ 34 :: 58 :: bs)) =
      some ((some name, j) :: ms, r) := by
  rw [members?From, skipSpace_cons (by decide)]
  simp only
  rw [string?_inner]
  simp only [bind, Option.bind]
  rw [skipSpace_cons (by decide)]
  simp only
  rw [h]
  simp only
  rw [skipSpace_cons (by decide)]
  simp only
  rw [hrest]
  rfl

/-! ### The round trip -/

def named (ms : List (String × Json)) : List (Option String × Json) :=
  ms.map fun m => (some m.1, m.2)

theorem ofMembers_named (ms : List (String × Json)) : ofMembers (named ms) = object ms := by
  have hmap : (named ms).mapM (fun m => m.1.map (·, m.2)) = some ms := by
    rw [mapM_eq_some, named, List.map_map]
    rfl
  rw [ofMembers, hmap]

theorem exists_itemsBytes (hj : j.faithful) (js : List Json) :
    ∃ b t, itemsBytes (j :: js) = b :: t ∧ isSpace b = false ∧ b ≠ 93 := by
  obtain ⟨b, t, heq, hb⟩ := exists_bytes hj
  cases js with
  | nil => exact ⟨b, t, (itemsBytes_singleton j).trans heq, hb⟩
  | cons k js => exact ⟨b, _, by rw [itemsBytes_cons, heq]; rfl, hb⟩

theorem exists_membersBytes (m : String × Json) (ms : List (String × Json)) :
    ∃ t, membersBytes (m :: ms) = 34 :: t := by
  cases ms with
  | nil => exact ⟨_, membersBytes_singleton m.1 m.2⟩
  | cons n ms => exact ⟨_, membersBytes_cons m.1 m.2 n ms⟩

mutual

theorem value?From_bytes : ∀ (j : Json) (fuel : ℕ) (r : Bytes), j.faithful → Ends r →
    j.bytes.length ≤ fuel → value?From (fuel + 1) (j.bytes ++ r) = some (j, r)
  | null, fuel, r, _, _, _ => rfl
  | bool true, fuel, r, _, _, _ => rfl
  | bool false, fuel, r, _, _, _ => rfl
  | number n, fuel, r, hn, hr, _ => value?From_number hn hr fuel
  | string s, fuel, r, _, _, _ => value?From_string s r fuel
  | array [], fuel, r, _, _, _ => rfl
  | array (j :: js), fuel, r, h, _, hfuel => by
    rw [bytes_array, List.length_cons, List.length_append, List.length_singleton] at hfuel
    obtain ⟨fuel, rfl⟩ : ∃ f, fuel = f + 2 := ⟨fuel - 2, by omega⟩
    have hitems := items?From_bytes (j :: js) fuel r (by simp) h (by omega)
    have hj : j.faithful := by simp_all [faithful, itemsFaithful]
    obtain ⟨b, t, heq, hb, hne⟩ := exists_itemsBytes hj js
    rw [heq, List.cons_append] at hitems
    rw [bytes_array, heq, List.cons_append, List.append_assoc, List.cons_append,
      List.singleton_append, value?From_array hb hne, hitems]
    rfl
  | object [], fuel, r, _, _, _ => rfl
  | object (m :: ms), fuel, r, h, _, hfuel => by
    rw [bytes_object, List.length_cons, List.length_append, List.length_singleton] at hfuel
    obtain ⟨fuel, rfl⟩ : ∃ f, fuel = f + 2 := ⟨fuel - 2, by omega⟩
    have hmembers := members?From_bytes (m :: ms) fuel r (by simp) h (by omega)
    obtain ⟨t, heq⟩ := exists_membersBytes m ms
    rw [heq, List.cons_append] at hmembers
    rw [bytes_object, heq, List.cons_append, List.append_assoc, List.cons_append,
      List.singleton_append, value?From_object, hmembers, Option.map_some, ofMembers_named]

theorem items?From_bytes : ∀ (js : List Json) (fuel : ℕ) (r : Bytes), js ≠ [] → itemsFaithful js →
    (itemsBytes js).length ≤ fuel →
    items?From (fuel + 2) (itemsBytes js ++ 93 :: r) = some (js, r)
  | [] => by
    intro fuel r hne
    exact absurd rfl hne
  | [j] => by
    intro fuel r _ h hfuel
    have hj : j.faithful := by simpa [itemsFaithful] using h
    rw [itemsBytes_singleton] at hfuel ⊢
    exact items?From_last (value?From_bytes j _ _ hj (.cons (by decide) r) hfuel)
  | j :: k :: js => by
    intro fuel r _ h hfuel
    obtain ⟨hj, hjs⟩ : j.faithful ∧ itemsFaithful (k :: js) := by simpa [itemsFaithful] using h
    rw [itemsBytes_cons, List.length_append, List.length_cons] at hfuel
    rw [itemsBytes_cons, List.append_assoc, List.cons_append]
    have hvalue := value?From_bytes j fuel (44 :: (itemsBytes (k :: js) ++ 93 :: r)) hj
      (.cons (by decide) _) (by omega)
    obtain ⟨fuel, rfl⟩ : ∃ f, fuel = f + 1 := ⟨fuel - 1, by omega⟩
    exact items?From_comma hvalue (items?From_bytes (k :: js) fuel r (by simp) hjs (by omega))

theorem members?From_bytes : ∀ (ms : List (String × Json)) (fuel : ℕ) (r : Bytes), ms ≠ [] →
    membersFaithful ms → (membersBytes ms).length ≤ fuel →
    members?From (fuel + 2) (membersBytes ms ++ 125 :: r) = some (named ms, r)
  | [] => by
    intro fuel r hne
    exact absurd rfl hne
  | [(name, j)] => by
    intro fuel r _ h hfuel
    have hj : j.faithful := by simpa [membersFaithful] using h
    rw [membersBytes_singleton] at hfuel ⊢
    simp only [List.length_cons, List.length_append] at hfuel
    simp only [List.cons_append, List.append_assoc]
    exact members?From_last name
      (value?From_bytes j fuel _ hj (.cons (by decide) r) (by omega))
  | (name, j) :: m :: ms => by
    intro fuel r _ h hfuel
    obtain ⟨hj, hms⟩ : j.faithful ∧ membersFaithful (m :: ms) := by simpa [membersFaithful] using h
    rw [membersBytes_cons] at hfuel ⊢
    simp only [List.length_cons, List.length_append] at hfuel
    simp only [List.cons_append, List.append_assoc]
    have hvalue := value?From_bytes j fuel (44 :: (membersBytes (m :: ms) ++ 125 :: r)) hj
      (.cons (by decide) _) (by omega)
    obtain ⟨fuel, rfl⟩ : ∃ f, fuel = f + 1 := ⟨fuel - 1, by omega⟩
    exact members?From_comma name hvalue
      (members?From_bytes (m :: ms) fuel r (by simp) hms (by omega))

end

/-- The text of a faithful `j` says all of it. -/
theorem parse?_text (h : j.faithful) : parse? (Bytes.ofString j.text) = some j := by
  have hread := value?From_bytes j j.bytes.length [] h (.inl rfl) (by omega)
  rw [List.append_nil] at hread
  rw [← bytes, parse?, hread]
  rfl

end TradingDesk.Json
