import Mathlib.Data.List.Nodup
import TradingDesk.Json.Record
import TradingDesk.Proofs.Address
import TradingDesk.Proofs.Decimal.Text
import TradingDesk.Proofs.Json.Text
import TradingDesk.Wire.Order

/-! Records read back. An object that has some of the members of a record, in their order, is read
as those members, and the others as missing; the names of the record being different, no member is
taken for another. -/

namespace TradingDesk.Json

variable {α : Type}

/-! ### Members, some of them left out -/

/-- The named values that are there. -/
def sparse (names : List String) (values : List (Option Json)) : List (String × Json) :=
  (names.zip values).flatMap fun m => optionalMember m.1 m.2

variable {names : List String} {values : List (Option Json)}

theorem sparse_cons (name : String) (value : Option Json) :
    sparse (name :: names) (value :: values) = optionalMember name value ++ sparse names values :=
  rfl

theorem names_sparse : ((sparse names values).map Prod.fst).Sublist names := by
  induction names generalizing values with
  | nil => simp [sparse]
  | cons name names ih =>
    cases values with
    | nil => simp [sparse]
    | cons value values =>
      rw [sparse_cons, List.map_append]
      cases value with
      | none => exact ih.cons name
      | some j => exact ih.cons_cons name

theorem lookup_sparse_of_notMem {name : String} (h : name ∉ names) :
    (sparse names values).lookup name = none := by
  rw [List.lookup_eq_none_iff]
  intro m hm
  rw [bne_iff_ne]
  rintro rfl
  exact h (names_sparse.subset (List.mem_map_of_mem hm))

theorem lookup_sparse_self {name : String} (h : name ∉ names) (value : Option Json) :
    (sparse (name :: names) (value :: values)).lookup name = value := by
  rw [sparse_cons]
  cases value with
  | none => exact lookup_sparse_of_notMem h
  | some j => exact List.lookup_cons_self

theorem lookup_sparse_of_ne {name other : String} (h : other ≠ name) (value : Option Json) :
    (sparse (name :: names) (value :: values)).lookup other =
      (sparse names values).lookup other := by
  rw [sparse_cons]
  cases value with
  | none => rfl
  | some j =>
    change ((name, j) :: sparse names values).lookup other = _
    rw [List.lookup_cons, beq_false_of_ne h]

theorem map_lookup_sparse (hnames : names.Nodup) (hlength : values.length = names.length) :
    names.map ((sparse names values).lookup ·) = values := by
  induction names generalizing values with
  | nil => exact (List.length_eq_zero_iff.1 hlength).symm
  | cons name names ih =>
    cases values with
    | nil => cases hlength
    | cons value values =>
      obtain ⟨hname, hrest⟩ := List.nodup_cons.1 hnames
      have hothers : ∀ other ∈ names, (sparse (name :: names) (value :: values)).lookup other =
          (sparse names values).lookup other := by
        rintro other hother
        refine lookup_sparse_of_ne ?_ value
        rintro rfl
        exact hname hother
      rw [List.map_cons, lookup_sparse_self hname, List.map_congr_left hothers,
        ih hrest (Nat.succ.inj hlength)]

theorem occurrences_sparse_le (hnames : names.Nodup) (name : String) :
    occurrences name (sparse names values) ≤ 1 := by
  have hcount : occurrences name (sparse names values) =
      ((sparse names values).map Prod.fst).count name := by
    rw [occurrences, List.count, List.countP_map]
    rfl
  rw [hcount]
  exact (names_sparse.count_le name).trans (List.nodup_iff_count_le_one.1 hnames name)

theorem fields?_sparse (hnames : names.Nodup) (hlength : values.length = names.length) :
    fields? names (object (sparse names values)) = some values := by
  have hall : names.all (occurrences · (sparse names values) ≤ 1) :=
    List.all_eq_true.2 fun name _ => decide_eq_true (occurrences_sparse_le hnames name)
  rw [fields?, if_pos hall, map_lookup_sparse hnames hlength]

/-! ### Faithful values -/

theorem itemsFaithful_iff {js : List Json} : itemsFaithful js ↔ ∀ j ∈ js, j.faithful := by
  induction js with
  | nil => simp [itemsFaithful]
  | cons j js ih => rw [itemsFaithful, Bool.and_eq_true, ih, List.forall_mem_cons]

theorem membersFaithful_iff {ms : List (String × Json)} :
    membersFaithful ms ↔ ∀ m ∈ ms, m.2.faithful := by
  induction ms with
  | nil => simp [membersFaithful]
  | cons m ms ih => rw [membersFaithful, Bool.and_eq_true, ih, List.forall_mem_cons]

theorem faithful_sparse (h : values.all (Option.all faithful)) :
    (object (sparse names values)).faithful := by
  rw [faithful, membersFaithful_iff]
  intro m hm
  obtain ⟨⟨name, value⟩, hpair, hm⟩ := List.mem_flatMap.1 hm
  have hvalue := List.all_eq_true.1 h value (List.of_mem_zip hpair).2
  cases value with
  | none => cases hm
  | some j =>
    obtain rfl := List.mem_singleton.1 hm
    exact hvalue

@[simp] theorem faithful_string (s : String) : (string s).faithful = true := rfl

@[simp] theorem faithful_bool (b : Bool) : (bool b).faithful = true := rfl

@[simp] theorem faithful_ofWord64 (n : UInt64) : (ofWord64 n).faithful = true :=
  decide_eq_true n.toNat_lt

@[simp] theorem faithful_ofByte (n : UInt8) : (ofNat n.toNat).faithful = true :=
  decide_eq_true (n.toNat_lt.trans (by decide))

@[simp] theorem faithful_texts (ss : List String) : (texts ss).faithful = true := by
  rw [texts, faithful, itemsFaithful_iff]
  simp

theorem all_faithful_map {write : α → Json} (h : ∀ a, (write a).faithful = true)
    (value : Option α) : (value.map write).all faithful = true := by
  cases value with
  | none => rfl
  | some a => exact h a

@[simp] theorem all_faithful_text (value : Option String) :
    (value.map string).all faithful = true :=
  all_faithful_map faithful_string value

@[simp] theorem all_faithful_word64 (value : Option UInt64) :
    (value.map ofWord64).all faithful = true :=
  all_faithful_map faithful_ofWord64 value

@[simp] theorem all_faithful_address (value : Option Address) :
    (value.map (string ·.lower)).all faithful = true :=
  all_faithful_map (fun a => faithful_string a.lower) value

/-! ### Values read back -/

@[simp] theorem text?_string (s : String) : text? (string s) = some s := rfl

@[simp] theorem bool?_bool (b : Bool) : bool? (bool b) = some b := rfl

@[simp] theorem word64?_ofWord64 (n : UInt64) : word64? (ofWord64 n) = some n := by
  rw [word64?, ofWord64, ofNat, natBelow?, if_pos n.toNat_lt, Option.map_some, UInt64.ofNat_toNat]

theorem word64?_eq_some {j : Json} {n : UInt64} : word64? j = some n ↔ j = ofWord64 n := by
  constructor
  · intro h
    obtain ⟨m, hm, rfl⟩ := Option.map_eq_some_iff.1 h
    unfold natBelow? at hm
    split at hm
    · split_ifs at hm with hlt
      cases hm
      rw [ofWord64, ofNat, UInt64.toNat_ofNat', Nat.mod_eq_of_lt hlt]
    · cases hm
  · rintro rfl
    exact word64?_ofWord64 n

@[simp] theorem byte?_ofByte (n : UInt8) : byte? (ofNat n.toNat) = some n := by
  rw [byte?, ofNat, natBelow?, if_pos n.toNat_lt, Option.map_some, UInt8.ofNat_toNat]

theorem list?_map {write : α → Json} {read : Json → Option α} {as : List α}
    (h : ∀ a ∈ as, read (write a) = some a) : list? read (array (as.map write)) = some as := by
  rw [list?, mapM_eq_some, List.map_map]
  exact List.map_congr_left h

@[simp] theorem texts?_texts (ss : List String) : texts? (texts ss) = some ss :=
  list?_map fun s _ => text?_string s

@[simp] theorem decimal?_toText (x : Decimal) : decimal? (string x.toText) = some x := by
  rw [decimal?, Decimal.parse_toText]
  rfl

@[simp] theorem address?_lower (a : Address) : address? (string a.lower) = some a := by
  rw [address?, Address.parse_lower]
  rfl

@[simp] theorem required_some (read : Json → Option α) (j : Json) :
    required read (some j) = read j := rfl

@[simp] theorem withDefault_some (default : α) (read : Json → Option α) (j : Json) :
    withDefault default read (some j) = read j := rfl

/-- What is there is not written as `null`, so it is not taken for missing. -/
theorem orNull_map {write : α → Json} {read : Json → Option α}
    (h : ∀ a, read (write a) = some a) (hnull : ∀ a, write a ≠ null) (value : Option α) :
    orNull read (value.map write) = some value := by
  cases value with
  | none => rfl
  | some a =>
    rw [Option.map_some]
    unfold orNull
    split
    · cases ‹some _ = none›
    · rename_i heq
      exact absurd (Option.some.inj heq) (hnull a)
    · rename_i heq
      cases heq
      rw [h, Option.map_some]

@[simp] theorem orNull_text (value : Option String) :
    orNull text? (value.map string) = some value :=
  orNull_map text?_string (by simp) value

@[simp] theorem orNull_word64 (value : Option UInt64) :
    orNull word64? (value.map ofWord64) = some value :=
  orNull_map word64?_ofWord64 (by simp [ofWord64, ofNat]) value

@[simp] theorem orNull_address (value : Option Address) :
    orNull address? (value.map (string ·.lower)) = some value :=
  orNull_map address?_lower (by simp) value

end TradingDesk.Json
