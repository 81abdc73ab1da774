import TradingDesk.Bytes.Base64
import TradingDesk.Proofs.Bytes.Utf8

/-! What base 64 text is read as. A text is read as some bytes just when it is what is written for
them, filled up as the format has it and without a bit that belongs to no byte. The formats differ
in two symbols and in what fills a text up, and none has a symbol that another one gives a different
value, so two of them never read different bytes from one text. -/

namespace TradingDesk.Base64

def formats : List Format := [urlSafe, urlSafeUnpadded, standard]

variable {f g : Format} {start i n fill : ℕ} {b : UInt8} {text bs : Bytes} {ns ms : List ℕ}

/-! ### Symbols -/

theorem value?_symbol (hf : f ∈ formats) (hn : n < 64) : f.value? (f.symbol n) = some n := by
  have : ∀ f ∈ formats, ∀ m : Fin 64, f.value? (f.symbol m) = some m.val := by decide +kernel
  exact this f hf ⟨n, hn⟩

theorem symbol_of_value? (hf : f ∈ formats) (h : f.value? b = some n) :
    n < 64 ∧ f.symbol n = b := by
  have : ∀ f ∈ formats, ∀ k : Fin 256, ∀ m ∈ f.value? (UInt8.ofNat k),
      m < 64 ∧ f.symbol m = UInt8.ofNat k := by decide +kernel
  have hb := this f hf ⟨b.toNat, b.toNat_lt⟩ n
  rw [UInt8.ofNat_toNat] at hb
  exact hb h

/-- Where the formats `f` and `g` have a symbol in common it has one value. -/
theorem value?_agree (hf : f ∈ formats) (hg : g ∈ formats) {m : ℕ} (h : f.value? b = some n)
    (h' : g.value? b = some m) : n = m := by
  have : ∀ f ∈ formats, ∀ g ∈ formats, ∀ k : Fin 256, ∀ n ∈ f.value? (UInt8.ofNat k),
      ∀ m ∈ g.value? (UInt8.ofNat k), n = m := by decide +kernel
  have hb := this f hf g hg ⟨b.toNat, b.toNat_lt⟩ n
  rw [UInt8.ofNat_toNat] at hb
  exact hb h m h'

theorem symbol_ne_fill (hf : f ∈ formats) (hn : n < 64) : f.symbol n ≠ 61 := by
  have hfill : ∀ f ∈ formats, f.value? 61 = none := by decide
  intro h
  have hvalue := value?_symbol hf hn
  rw [h, hfill f hf] at hvalue
  cases hvalue

theorem symbol_lt (hf : f ∈ formats) (hn : n < 64) : f.symbol n < 128 := by
  have : ∀ f ∈ formats, ∀ m : Fin 64, f.symbol m < 128 := by decide
  exact this f hf ⟨n, hn⟩

theorem symbolAt_eq_ok (hf : f ∈ formats) :
    f.symbolAt b i = .ok n ↔ n < 64 ∧ f.symbol n = b := by
  unfold Format.symbolAt
  constructor
  · intro h
    split at h
    · cases h
      exact symbol_of_value? hf ‹_›
    · cases h
  · rintro ⟨hn, rfl⟩
    rw [value?_symbol hf hn]

/-! ### Writing -/

/-- The values of the symbols that spell bytes. -/
def sextets : Bytes → List ℕ
  | a :: b :: c :: r =>
    a.toNat / 4 :: (a.toNat % 4 * 16 + b.toNat / 16) :: (b.toNat % 16 * 4 + c.toNat / 64) ::
      c.toNat % 64 :: sextets r
  | [a, b] => [a.toNat / 4, a.toNat % 4 * 16 + b.toNat / 16, b.toNat % 16 * 4]
  | [a] => [a.toNat / 4, a.toNat % 4 * 16]
  | [] => []

theorem sextets_length (bs : Bytes) : (sextets bs).length = (4 * bs.length + 2) / 3 := by
  induction bs using sextets.induct with
  | case1 a b c r ih =>
    simp only [sextets, List.length_cons, ih]
    omega
  | case2 a b => simp [sextets]
  | case3 a => simp [sextets]
  | case4 => simp [sextets]

theorem sextets_length_mod (bs : Bytes) : (sextets bs).length % 4 ≠ 1 := by
  have : bs.length % 3 = 0 ∨ bs.length % 3 = 1 ∨ bs.length % 3 = 2 := by omega
  rw [sextets_length]
  omega

theorem sextets_lt (bs : Bytes) : ∀ n ∈ sextets bs, n < 64 := by
  induction bs using sextets.induct with
  | case1 a b c r ih =>
    have := a.toNat_lt
    have := b.toNat_lt
    have := c.toNat_lt
    simp only [sextets, List.forall_mem_cons]
    exact ⟨by omega, by omega, by omega, by omega, ih⟩
  | case2 a b =>
    have := a.toNat_lt
    have := b.toNat_lt
    simp only [sextets, List.forall_mem_cons]
    exact ⟨by omega, by omega, by omega, by simp⟩
  | case3 a =>
    have := a.toNat_lt
    simp only [sextets, List.forall_mem_cons]
    exact ⟨by omega, by omega, by simp⟩
  | case4 => simp [sextets]

/-- The `=` that bring the symbols of some bytes to a number of fours. -/
def Format.fillAfter (f : Format) (bs : Bytes) : ℕ :=
  if f.padded then 3 * (sextets bs).length % 4 else 0

theorem encode_eq (f : Format) (bs : Bytes) :
    f.encode bs = (sextets bs).map f.symbol ++ List.replicate (f.fillAfter bs) 61 := by
  have hfill (n : ℕ) : f.fill n = List.replicate (if f.padded then n else 0) 61 := by
    unfold Format.fill
    split <;> rfl
  induction bs using sextets.induct with
  | case1 a b c r ih =>
    have hafter : f.fillAfter (a :: b :: c :: r) = f.fillAfter r := by
      simp only [Format.fillAfter, sextets, List.length_cons]
      congr 1
      omega
    rw [Format.encode, ih, hafter]
    rfl
  | case2 a b => simp [Format.encode, hfill, sextets, Format.fillAfter]
  | case3 a => simp [Format.encode, hfill, sextets, Format.fillAfter]
  | case4 => simp [Format.encode, sextets, Format.fillAfter]

theorem encode_length (f : Format) (bs : Bytes) :
    (f.encode bs).length = (sextets bs).length + f.fillAfter bs := by
  rw [encode_eq, List.length_append, List.length_map, List.length_replicate]

/-- No text that `f` writes is one symbol longer than a number of fours. -/
theorem encode_length_mod (f : Format) (bs : Bytes) : (f.encode bs).length % 4 ≠ 1 := by
  have := sextets_length_mod bs
  rw [encode_length, Format.fillAfter]
  split <;> omega

theorem encode_lt (hf : f ∈ formats) (bs : Bytes) : ∀ b ∈ f.encode bs, b < 128 := by
  rw [encode_eq, List.forall_mem_append, List.forall_mem_map]
  refine ⟨fun n hn => symbol_lt hf (sextets_lt bs n hn), fun b hb => ?_⟩
  rw [(List.mem_replicate.1 hb).2]
  decide

/-! ### Groups -/

/-- The bytes that four symbols with the values `w`, `x`, `y` and `z` spell. -/
def group (w x y z : ℕ) : Bytes :=
  [UInt8.ofNat (w * 4 + x / 16), UInt8.ofNat (x * 16 + y / 4), UInt8.ofNat (y * 64 + z)]

section Group

variable {w x y z : ℕ}

theorem sextets_group (hw : w < 64) (hx : x < 64) (hy : y < 64) (hz : z < 64) (bs : Bytes) :
    sextets (group w x y z ++ bs) = w :: x :: y :: z :: sextets bs := by
  simp only [group, List.cons_append, List.nil_append, sextets, UInt8.toNat_ofNat', Nat.reducePow,
    List.cons.injEq, and_true]
  omega

theorem sextets_two (hw : w < 64) (hx : x < 64) (h : x % 16 = 0) :
    sextets [UInt8.ofNat (w * 4 + x / 16)] = [w, x] := by
  simp only [sextets, UInt8.toNat_ofNat', Nat.reducePow, List.cons.injEq, and_true]
  omega

theorem sextets_three (hw : w < 64) (hx : x < 64) (hy : y < 64) (h : y % 4 = 0) :
    sextets [UInt8.ofNat (w * 4 + x / 16), UInt8.ofNat (x * 16 + y / 4)] = [w, x, y] := by
  simp only [sextets, UInt8.toNat_ofNat', Nat.reducePow, List.cons.injEq, and_true]
  omega

end Group

theorem ofNat_eq_of_mod {a : UInt8} (h : n % 256 = a.toNat) : UInt8.ofNat n = a := by
  rw [← UInt8.toNat_inj, UInt8.toNat_ofNat']
  exact h

theorem group_sextets (a b c : UInt8) :
    group (a.toNat / 4) (a.toNat % 4 * 16 + b.toNat / 16) (b.toNat % 16 * 4 + c.toNat / 64)
      (c.toNat % 64) = [a, b, c] := by
  have := a.toNat_lt
  have := b.toNat_lt
  have := c.toNat_lt
  rw [group, ofNat_eq_of_mod (a := a) (by omega), ofNat_eq_of_mod (a := b) (by omega),
    ofNat_eq_of_mod (a := c) (by omega)]

/-! ### The end of a text -/

theorem lastValues_fill {r : Bytes} : f.lastValues start i (61 :: r) = .ok (ns, fill) ↔
    start + 2 ≤ i ∧ ns = [] ∧ 61 :: r = List.replicate fill 61 := by
  have hpadding : Format.checkPadding i r = if ∀ b ∈ r, b = 61 then .ok () else
      .error (.badSymbol 61 i) := by simp [Format.checkPadding]
  rw [Format.lastValues, if_pos rfl, hpadding, List.eq_replicate_iff]
  split_ifs with hstart hr
  · simp [hstart]
  · simp only [ok_bind, pure, Except.pure, Except.ok.injEq, Prod.mk.injEq, List.forall_mem_cons,
      true_and, List.length_cons]
    constructor
    · rintro ⟨rfl, rfl⟩
      exact ⟨by omega, rfl, rfl, hr⟩
    · rintro ⟨-, rfl, rfl, -⟩
      exact ⟨rfl, rfl⟩
  · simp [hr]

theorem lastValues_symbol (hf : f ∈ formats) (hn : n < 64) (r : Bytes) :
    f.lastValues start i (f.symbol n :: r) =
      (f.lastValues start (i + 1) r).map fun p => (n :: p.1, p.2) := by
  rw [Format.lastValues, if_neg (symbol_ne_fill hf hn), (symbolAt_eq_ok hf).2 ⟨hn, rfl⟩, ok_bind]
  cases f.lastValues start (i + 1) r with
  | error e => rfl
  | ok p => rfl

theorem values_of_lastValues (hf : f ∈ formats) (h : f.lastValues start i text = .ok (ns, fill)) :
    text = ns.map f.symbol ++ List.replicate fill 61 ∧ ∀ n ∈ ns, n < 64 := by
  induction text generalizing i ns fill with
  | nil =>
    cases h
    simp
  | cons b r ih =>
    by_cases hb : b = 61
    · subst hb
      obtain ⟨-, rfl, hfill⟩ := lastValues_fill.1 h
      exact ⟨hfill, by simp⟩
    · cases hvalue : f.value? b with
      | none =>
        rw [Format.lastValues, if_neg hb, Format.symbolAt, hvalue] at h
        cases h
      | some n =>
        obtain ⟨hn, rfl⟩ := symbol_of_value? hf hvalue
        rw [lastValues_symbol hf hn] at h
        obtain ⟨⟨ms, k⟩, hrest, hmake⟩ := map_eq_ok.1 h
        cases hmake
        obtain ⟨rfl, hms⟩ := ih hrest
        exact ⟨rfl, List.forall_mem_cons.2 ⟨hn, hms⟩⟩

/-- A fill may follow two symbols at the least. -/
theorem lastValues_eq_ok (hf : f ∈ formats) (hns : ∀ n ∈ ns, n < 64)
    (hfill : 0 < fill → start + 2 ≤ i + ns.length) :
    f.lastValues start i (ns.map f.symbol ++ List.replicate fill 61) = .ok (ns, fill) := by
  induction ns generalizing i with
  | nil =>
    cases fill with
    | zero => rfl
    | succ k => exact lastValues_fill.2 ⟨hfill k.succ_pos, rfl, rfl⟩
  | cons n ns ih =>
    obtain ⟨hn, hns⟩ := List.forall_mem_cons.1 hns
    rw [List.length_cons] at hfill
    rw [List.map_cons, List.cons_append, lastValues_symbol hf hn, ih hns (by omega)]
    rfl

/-- The two to four symbols `ns` that spell `bs` at the end have its values, so that no bit of them
is left over. -/
theorem sextets_of_lastBytes (hns : ∀ n ∈ ns, n < 64) (htwo : 2 ≤ ns.length)
    (hfour : ns.length ≤ 4) (h : Format.lastBytes start text ns = .ok bs) : sextets bs = ns := by
  match ns, hns with
  | [w, x], hns =>
    simp only [List.forall_mem_cons] at hns
    rw [Format.lastBytes] at h
    split at h
    · cases h
      exact sextets_two hns.1 hns.2.1 ‹_›
    · cases h
  | [w, x, y], hns =>
    simp only [List.forall_mem_cons] at hns
    rw [Format.lastBytes] at h
    split at h
    · cases h
      exact sextets_three hns.1 hns.2.1 hns.2.2.1 ‹_›
    · cases h
  | [w, x, y, z], hns =>
    simp only [List.forall_mem_cons] at hns
    cases h
    exact sextets_group hns.1 hns.2.1 hns.2.2.1 hns.2.2.2.1 []
  | [], _ => simp at htwo
  | [_], _ => simp at htwo
  | _ :: _ :: _ :: _ :: _ :: _, _ =>
    simp only [List.length_cons] at hfour
    omega

theorem lastBytes_sextets (hbs : bs.length ≤ 3) :
    Format.lastBytes start text (sextets bs) = .ok bs := by
  match bs with
  | [] => rfl
  | [a] =>
    have := a.toNat_lt
    rw [sextets, Format.lastBytes, if_pos (by omega), ofNat_eq_of_mod (a := a) (by omega)]
  | [a, b] =>
    have := a.toNat_lt
    have := b.toNat_lt
    rw [sextets, Format.lastBytes, if_pos (by omega), ofNat_eq_of_mod (a := a) (by omega),
      ofNat_eq_of_mod (a := b) (by omega)]
  | [a, b, c] =>
    simp only [sextets, Format.lastBytes]
    exact congrArg _ (group_sextets a b c)
  | _ :: _ :: _ :: _ :: _ =>
    simp only [List.length_cons] at hbs
    omega

/-- A `text` ends after two symbols at least, unless it is empty, and is filled up as `f` has it. -/
theorem decodeLast_eq_lastBytes : f.decodeLast start text = .ok bs ↔
    ∃ ns fill, f.lastValues start start text = .ok (ns, fill) ∧ (2 ≤ ns.length ∨ text = []) ∧
      (if f.padded then (fill + ns.length) % 4 = 0 else fill = 0) ∧
      Format.lastBytes start text ns = .ok bs := by
  rw [Format.decodeLast, bind_eq_ok, Prod.exists]
  refine exists_congr fun ns => exists_congr fun fill => and_congr_right fun _ => ?_
  simp only [Bool.and_eq_true, decide_eq_true_eq, Bool.not_eq_true', List.isEmpty_eq_false_iff]
  by_cases hlong : 2 ≤ ns.length ∨ text = []
  · rw [if_neg (by rintro ⟨hshort, hne⟩; exact hlong.elim (by omega) hne)]
    cases f.padded with
    | true => by_cases hfill : (fill + ns.length) % 4 = 0 <;> simp [hlong, hfill]
    | false => by_cases hfill : fill = 0 <;> simp [hlong, hfill]
  · rw [if_pos (by rw [not_or] at hlong; exact ⟨by omega, hlong.2⟩)]
    simp [hlong]

theorem decodeLast_eq_ok (hf : f ∈ formats) (htext : text.length ≤ 4) :
    f.decodeLast start text = .ok bs ↔ text = f.encode bs := by
  rw [decodeLast_eq_lastBytes]
  constructor
  · rintro ⟨ns, fill, hvalues, hlong, hfill, h⟩
    obtain ⟨rfl, hns⟩ := values_of_lastValues hf hvalues
    rw [List.length_append, List.length_map, List.length_replicate] at htext
    rcases hlong with htwo | hempty
    · obtain rfl := sextets_of_lastBytes hns htwo (by omega) h
      have hafter : fill = f.fillAfter bs := by
        rw [Format.fillAfter]
        split_ifs at hfill ⊢ <;> omega
      rw [encode_eq, hafter]
    · obtain ⟨hns, -⟩ := List.append_eq_nil_iff.1 hempty
      obtain rfl := List.map_eq_nil_iff.1 hns
      cases h
      exact hempty
  · rintro rfl
    rw [encode_length] at htext
    have hlength := sextets_length bs
    have htwo : 2 ≤ (sextets bs).length ∨ bs = [] := by
      cases bs with
      | nil => exact .inr rfl
      | cons b bs =>
        rw [List.length_cons] at hlength
        omega
    refine ⟨sextets bs, f.fillAfter bs, ?_, ?_, ?_, lastBytes_sextets (by omega)⟩
    · rw [encode_eq]
      refine lastValues_eq_ok hf (sextets_lt bs) fun hfill => ?_
      rcases htwo with htwo | rfl
      · omega
      · simp [Format.fillAfter, sextets] at hfill
    · exact htwo.imp_right fun hempty => by rw [hempty, Format.encode]
    · rw [Format.fillAfter]
      split_ifs <;> omega

theorem encode_group (f : Format) {w x y z : ℕ} (hw : w < 64) (hx : x < 64) (hy : y < 64)
    (hz : z < 64) (bs : Bytes) : f.encode (group w x y z ++ bs) =
      f.symbol w :: f.symbol x :: f.symbol y :: f.symbol z :: f.encode bs := by
  have hafter : f.fillAfter (group w x y z ++ bs) = f.fillAfter bs := by
    rw [Format.fillAfter, Format.fillAfter, sextets_group hw hx hy hz]
    simp only [List.length_cons]
    congr 1
    omega
  rw [encode_eq, encode_eq, hafter, sextets_group hw hx hy hz]
  rfl

/-- A `text` with more than one group begins with four symbols. -/
theorem decodeFrom_eq_ok (hf : f ∈ formats) :
    f.decodeFrom start text = .ok bs ↔ text = f.encode bs := by
  induction start, text using Format.decodeFrom.induct generalizing bs with
  | case1 start a b c d e r ih =>
    rw [Format.decodeFrom]
    constructor
    · intro h
      obtain ⟨w, hw, h⟩ := bind_eq_ok.1 h
      obtain ⟨x, hx, h⟩ := bind_eq_ok.1 h
      obtain ⟨y, hy, h⟩ := bind_eq_ok.1 h
      obtain ⟨z, hz, h⟩ := bind_eq_ok.1 h
      obtain ⟨rest, hrest, hmake⟩ := bind_eq_ok.1 h
      obtain ⟨hw64, rfl⟩ := (symbolAt_eq_ok hf).1 hw
      obtain ⟨hx64, rfl⟩ := (symbolAt_eq_ok hf).1 hx
      obtain ⟨hy64, rfl⟩ := (symbolAt_eq_ok hf).1 hy
      obtain ⟨hz64, rfl⟩ := (symbolAt_eq_ok hf).1 hz
      cases hmake
      rw [ih.1 hrest]
      exact (encode_group f hw64 hx64 hy64 hz64 rest).symm
    · -- only three bytes or more are written with more than four symbols
      intro h
      have hlength := congrArg List.length h
      have hsextets := sextets_length bs
      have hlong : 3 ≤ bs.length := by
        rw [encode_length, Format.fillAfter] at hlength
        simp only [List.length_cons] at hlength
        split_ifs at hlength <;> omega
      rcases bs with _ | ⟨p, _ | ⟨q, _ | ⟨s, rest⟩⟩⟩
      · simp at hlong
      · simp at hlong
      · simp at hlong
      · simp only [Format.encode, List.cons.injEq] at h
        obtain ⟨rfl, rfl, rfl, rfl, hrest⟩ := h
        rw [(symbolAt_eq_ok hf).2 ⟨by have := p.toNat_lt; omega, rfl⟩, ok_bind,
          (symbolAt_eq_ok hf).2 ⟨by have := q.toNat_lt; omega, rfl⟩, ok_bind,
          (symbolAt_eq_ok hf).2 ⟨by have := s.toNat_lt; omega, rfl⟩, ok_bind,
          (symbolAt_eq_ok hf).2 ⟨by omega, rfl⟩, ok_bind, ih.2 hrest, ok_bind]
        exact congrArg (fun front => Except.ok (front ++ rest)) (group_sextets p q s)
  | case2 start text h =>
    have hshort : text.length ≤ 4 := by
      by_contra! hlong
      rcases text with _ | ⟨a, _ | ⟨b, _ | ⟨c, _ | ⟨d, _ | ⟨e, r⟩⟩⟩⟩⟩
      case cons.cons.cons.cons.cons => exact h a b c d e r rfl
      all_goals simp at hlong
    rw [Format.decodeFrom, decodeLast_eq_ok hf hshort]
    exact h

/-- Just the `text` that is written for `bs` is read as these. -/
theorem decode_eq_ok (hf : f ∈ formats) : f.decode text = .ok bs ↔ text = f.encode bs := by
  unfold Format.decode
  split
  · rename_i b hlast
    split_ifs with hodd
    · constructor
      · rintro ⟨⟩
      · rintro rfl
        simp [encode_length_mod] at hodd
    · exact decodeFrom_eq_ok hf
  · rename_i hlast
    have hempty : f.decodeLast 0 [] = .ok [] := (decodeLast_eq_ok hf (Nat.zero_le _)).2 rfl
    rw [List.getLast?_eq_none_iff.1 hlast, ← decodeLast_eq_ok hf (Nat.zero_le _), hempty]

theorem decode_encode (hf : f ∈ formats) (bs : Bytes) : f.decode (f.encode bs) = .ok bs :=
  (decode_eq_ok hf).2 rfl

/-! ### Two formats -/

/-- Symbols that `f` and `g` write alike have the same values. -/
theorem eq_of_map_symbol (hf : f ∈ formats) (hg : g ∈ formats) (hns : ∀ n ∈ ns, n < 64)
    (hms : ∀ m ∈ ms, m < 64) (h : ns.map f.symbol = ms.map g.symbol) : ns = ms := by
  induction ns generalizing ms with
  | nil => exact (List.map_eq_nil_iff.1 h.symm).symm
  | cons n ns ih =>
    obtain ⟨m, ms, rfl, hsymbol, hrest⟩ := List.map_eq_cons_iff.1 h.symm
    obtain ⟨hn, hns⟩ := List.forall_mem_cons.1 hns
    obtain ⟨hm, hms⟩ := List.forall_mem_cons.1 hms
    have hvalue := value?_symbol hg hm
    rw [hsymbol] at hvalue
    rw [value?_agree hf hg (value?_symbol hf hn) hvalue, ih hns hms hrest.symm]

theorem takeWhile_encode (hf : f ∈ formats) (bs : Bytes) :
    (f.encode bs).takeWhile (· ≠ 61) = (sextets bs).map f.symbol := by
  have hsymbols : ∀ b ∈ (sextets bs).map f.symbol, decide (b ≠ 61) = true := by
    rw [List.forall_mem_map]
    exact fun n hn => decide_eq_true (symbol_ne_fill hf (sextets_lt bs n hn))
  have hfill : (List.replicate (f.fillAfter bs) (61 : UInt8)).takeWhile (· ≠ 61) = [] := by
    cases f.fillAfter bs with
    | zero => rfl
    | succ k => rfl
  rw [encode_eq, List.takeWhile_append_of_pos hsymbols, hfill, List.append_nil]

/-- Without a fill the text has nothing but the symbols, and it can be read. -/
theorem sextets_inj {other : Bytes} (h : sextets bs = sextets other) : bs = other := by
  have hf : urlSafeUnpadded ∈ formats := List.mem_cons_of_mem _ List.mem_cons_self
  have hspell : urlSafeUnpadded.encode bs = urlSafeUnpadded.encode other := by
    rw [encode_eq, encode_eq, h]
    rfl
  have hread := decode_encode hf bs
  rw [hspell, decode_encode hf] at hread
  exact (Except.ok.inj hread).symm

/-- No `text` is read as different bytes by `f` and `g`. -/
theorem decode_agree (hf : f ∈ formats) (hg : g ∈ formats) {other : Bytes}
    (h : f.decode text = .ok bs) (h' : g.decode text = .ok other) : bs = other := by
  have hspell : f.encode bs = g.encode other :=
    ((decode_eq_ok hf).1 h).symm.trans ((decode_eq_ok hg).1 h')
  have hsymbols := congrArg (List.takeWhile (· ≠ 61)) hspell
  rw [takeWhile_encode hf, takeWhile_encode hg] at hsymbols
  exact sextets_inj (eq_of_map_symbol hf hg (sextets_lt bs) (sextets_lt other) hsymbols)

/-! ### Texts -/

/-- The text that spells `bs`. -/
def Format.spelling (f : Format) (bs : Bytes) : String := Utf8.decodeLossy (f.encode bs)

theorem ofString_spelling (hf : f ∈ formats) (bs : Bytes) :
    Bytes.ofString (f.spelling bs) = f.encode bs :=
  Utf8.ofString_decodeLossy (encode_lt hf bs)

/-- The symbols of `urlSafe`, in the order of their values. -/
def alphabet : List Char :=
  "ABCDEFGHIJKLMNOPQRSTUVWXYZabcdefghijklmnopqrstuvwxyz0123456789-_".toList

/-- The text `s` is the number that the bytes `bs` spell, with two zero bits after it for each `=`
at its end, in digits of six bits. -/
def IsUrlSafe (s : String) (bs : Bytes) : Prop :=
  ∃ (digits : List ℕ) (fill : ℕ), fill < 3 ∧ 3 * digits.length = 4 * bs.length + fill ∧
    digits.foldl (fun n d => n * 64 + d) 0 = bs.toNat * 4 ^ fill ∧
    s.toList.map some = digits.map (alphabet[·]?) ++ List.replicate fill (some '=')

/-- Three bytes have the bits of four digits. -/
theorem foldl_sextets (bs : Bytes) (n : ℕ) :
    (sextets bs).foldl (fun n d => n * 64 + d) n =
      bs.foldl (fun n b => n * 256 + b.toNat) n * 4 ^ (3 * (sextets bs).length % 4) := by
  induction bs using sextets.induct generalizing n with
  | case1 a b c r ih =>
    have hlength : 3 * (sextets (a :: b :: c :: r)).length % 4 = 3 * (sextets r).length % 4 := by
      simp only [sextets, List.length_cons]
      omega
    rw [hlength]
    simp only [sextets, List.foldl_cons, ih]
    congr 2
    omega
  | case2 a b =>
    simp only [sextets, List.foldl_cons, List.foldl_nil, List.length_cons, List.length_nil,
      Nat.reduceAdd, Nat.reduceMul, Nat.reduceMod, Nat.reducePow]
    omega
  | case3 a =>
    simp only [sextets, List.foldl_cons, List.foldl_nil, List.length_cons, List.length_nil,
      Nat.reduceAdd, Nat.reduceMul, Nat.reduceMod, Nat.reducePow]
    omega
  | case4 => simp [sextets]

theorem isUrlSafe_spelling (bs : Bytes) : IsUrlSafe (urlSafe.spelling bs) bs := by
  have hurl : urlSafe ∈ formats := List.mem_cons_self
  have hsymbol : ∀ n : Fin 64, some (Char.ofNat (urlSafe.symbol n).toNat) = alphabet[n.val]? := by
    decide +kernel
  have hsymbols : (sextets bs).map (fun n => some (Char.ofNat (urlSafe.symbol n).toNat)) =
      (sextets bs).map (alphabet[·]?) :=
    List.map_congr_left fun n hn => hsymbol ⟨n, sextets_lt bs n hn⟩
  have hfill : urlSafe.fillAfter bs = 3 * (sextets bs).length % 4 := rfl
  refine ⟨sextets bs, urlSafe.fillAfter bs, ?_, ?_, ?_, ?_⟩
  · have := sextets_length_mod bs
    omega
  · have := sextets_length bs
    omega
  · rw [hfill]
    exact foldl_sextets bs 0
  · rw [Format.spelling, Utf8.decodeLossy, Utf8.pieces_ascii (encode_lt hurl bs),
      String.toList_ofList, encode_eq, ← hsymbols]
    simp [Function.comp_def]

end TradingDesk.Base64
