import Mathlib.Data.List.Nodup
import TradingDesk.Proofs.Bytes.Basic
import TradingDesk.TypedData.Message

/-! What is hashed for typed data, and that it can be told apart. A struct is a row of words, and
the words can be cut off the row again; so where no two of the byte strings that are hashed share a
hash, equal hashes come from structs of one type with the same members, and equal separators from
one domain. -/

namespace TradingDesk

/-! ### Words -/

theorem Word.toBytes_injective : Function.Injective Word.toBytes :=
  Function.LeftInverse.injective Word.ofBytes_toBytes

theorem Word.flatMap_toBytes_inj {ws vs : List Word}
    (h : ws.flatMap Word.toBytes = vs.flatMap Word.toBytes) : ws = vs := by
  have hlen : 32 * ws.length = 32 * vs.length := by
    have := congrArg List.length h
    simpa [List.length_flatMap, Word.toBytes_length, mul_comm] using this
  induction ws generalizing vs with
  | nil => exact (List.length_eq_zero_iff.1 (by simpa using hlen.symm)).symm
  | cons w ws ih =>
    cases vs with
    | nil => simp at hlen
    | cons v vs =>
      obtain ⟨hw, hws⟩ := List.append_inj h (by rw [Word.toBytes_length, Word.toBytes_length])
      rw [Word.toBytes_injective hw, ih hws (by simpa using hlen)]

theorem wordOfNat_inj {m n : ℕ} (hm : m < 2 ^ 256) (hn : n < 2 ^ 256)
    (h : wordOfNat m = wordOfNat n) : m = n := by
  have hnat := congrArg BitVec.toNat h
  rwa [wordOfNat, wordOfNat, BitVec.toNat_ofNat, BitVec.toNat_ofNat, Nat.mod_eq_of_lt hm,
    Nat.mod_eq_of_lt hn] at hnat

theorem word64_inj {m n : UInt64} (h : wordOfNat m.toNat = wordOfNat n.toNat) : m = n :=
  UInt64.toNat_inj.1 (wordOfNat_inj (m.toNat_lt.trans (by decide)) (n.toNat_lt.trans (by decide)) h)

theorem word8_inj {m n : UInt8} (h : wordOfNat m.toNat = wordOfNat n.toNat) : m = n :=
  UInt8.toNat_inj.1 (wordOfNat_inj (m.toNat_lt.trans (by decide)) (n.toNat_lt.trans (by decide)) h)

theorem Address.toWord_injective : Function.Injective Address.toWord := by
  intro a b h
  have hnat := congrArg BitVec.toNat h
  rw [toWord, toWord, BitVec.toNat_setWidth_of_le (by decide),
    BitVec.toNat_setWidth_of_le (by decide)] at hnat
  exact congrArg Address.mk (BitVec.eq_of_toNat_eq hnat)

theorem Bytes.ofString_injective : Function.Injective Bytes.ofString := by
  intro s t h
  have hdata : s.toByteArray.data = t.toByteArray.data := Array.toList_inj.1 h
  exact String.toByteArray_inj.1 (ByteArray.ext hdata)

theorem structEncoding_inj {t t' : String} {ms ms' : List Word}
    (h : structEncoding t ms = structEncoding t' ms') : textWord t = textWord t' ∧ ms = ms' :=
  List.cons.inj (Word.flatMap_toBytes_inj h)

theorem typedDataEncoding_length (s h : Word) : (typedDataEncoding s h).length = 66 := by
  simp only [typedDataEncoding, List.cons_append, List.length_cons, List.length_append,
    Word.toBytes_length]

theorem typedDataEncoding_inj {s h s' h' : Word}
    (heq : typedDataEncoding s h = typedDataEncoding s' h') : s = s' ∧ h = h' := by
  have hrest := (List.cons.inj (List.cons.inj heq).2).2
  obtain ⟨hs, hh⟩ := List.append_inj hrest (by rw [Word.toBytes_length, Word.toBytes_length])
  exact ⟨Word.toBytes_injective hs, Word.toBytes_injective hh⟩

theorem personalEncoding_length (h : Word) : (personalEncoding h).length = 60 := by
  have hprefix : (Bytes.ofString "Ethereum Signed Message:\n32").length = 27 := by
    rw [Bytes.ofString_length]
    rfl
  simp only [personalEncoding, List.cons_append, List.length_cons, List.length_append,
    Word.toBytes_length, hprefix]

theorem personalEncoding_inj {h h' : Word} (heq : personalEncoding h = personalEncoding h') :
    h = h' :=
  Word.toBytes_injective (List.append_cancel_left (List.cons.inj heq).2)

/-! ### Collisions -/

/-- No two of the byte strings of `l` have the same hash. -/
def CollisionFree (l : List Bytes) : Prop :=
  ∀ x ∈ l, ∀ y ∈ l, keccak256 x = keccak256 y → x = y

theorem CollisionFree.mono {l l' : List Bytes} (h : CollisionFree l) (hsub : l' ⊆ l) :
    CollisionFree l' :=
  fun x hx y hy => h x (hsub hx) y (hsub hy)

/-- Byte strings of which none has the hash of another, by a `table` of their hashes. -/
theorem CollisionFree.of_table {l : List Bytes} (table : List (Bytes × Word))
    (hl : l ⊆ table.map Prod.fst) (hhash : ∀ p ∈ table, keccak256 p.1 = p.2)
    (hnodup : (table.map Prod.snd).Nodup) : CollisionFree l := by
  intro x hx y hy h
  obtain ⟨p, hp, rfl⟩ := List.mem_map.1 (hl hx)
  obtain ⟨q, hq, rfl⟩ := List.mem_map.1 (hl hy)
  rw [hhash p hp, hhash q hq] at h
  rw [List.inj_on_of_nodup_map hnodup hp hq h]

/-- The byte strings that are hashed for a struct of this `type`, apart from those in place of its
`members`. -/
def structPreimages (type : String) (members : List Word) : List Bytes :=
  [Bytes.ofString type, structEncoding type members]

/-- The byte strings that are hashed for the separator of `d`. -/
def Domain.preimages (d : Domain) : List Bytes :=
  (d.name.map Bytes.ofString).toList ++ (d.version.map Bytes.ofString).toList ++
    structPreimages d.typeText d.members

section Inverses

variable {l : List Bytes} (hl : CollisionFree l)
include hl

theorem textWord_inj {s t : String} (hs : Bytes.ofString s ∈ l) (ht : Bytes.ofString t ∈ l)
    (h : textWord s = textWord t) : s = t :=
  Bytes.ofString_injective (hl _ hs _ ht h)

theorem map_textWord_inj {s t : Option String} (hs : (s.map Bytes.ofString).toList ⊆ l)
    (ht : (t.map Bytes.ofString).toList ⊆ l) (h : s.map textWord = t.map textWord) : s = t := by
  cases s with
  | none =>
    cases t with
    | none => rfl
    | some t => cases h
  | some s =>
    cases t with
    | none => cases h
    | some t =>
      rw [textWord_inj hl (hs List.mem_cons_self) (ht List.mem_cons_self) (Option.some.inj h)]

theorem structHash_inj {t t' : String} {ms ms' : List Word} (h : structPreimages t ms ⊆ l)
    (h' : structPreimages t' ms' ⊆ l) (heq : structHash t ms = structHash t' ms') :
    t = t' ∧ ms = ms' := by
  have hencoding := hl _ (h (by simp [structPreimages])) _ (h' (by simp [structPreimages])) heq
  obtain ⟨htype, hmembers⟩ := structEncoding_inj hencoding
  exact ⟨textWord_inj hl (h List.mem_cons_self) (h' List.mem_cons_self) htype, hmembers⟩

end Inverses

/-! ### Domains -/

namespace Domain

/-- The type of a domain, by whether it has a name, a version and a contract. -/
def typeTextOf (name version contract : Bool) : String :=
  typeText ⟨if name then some "" else none, if version then some "" else none, 0,
    if contract then some .zero else none⟩

theorem typeText_eq (d : Domain) :
    d.typeText = typeTextOf d.name.isSome d.version.isSome d.contract.isSome := by
  obtain ⟨name, version, chainId, contract⟩ := d
  cases name <;> cases version <;> cases contract <;> rfl

theorem typeTextOf_inj : ∀ n v c n' v' c' : Bool,
    typeTextOf n v c = typeTextOf n' v' c' → n = n' ∧ v = v' ∧ c = c' := by
  decide +kernel

/-- Which of the optional parts of `d` are there. No two kinds of request agree in it. -/
def shape (d : Domain) : Bool × Bool × Bool :=
  (d.name.isSome, d.version.isSome, d.contract.isSome)

theorem length_toList_map {α : Type} (f : α → Word) {x y : Option α} (h : x.isSome = y.isSome) :
    (x.map f).toList.length = (y.map f).toList.length := by
  rw [Option.length_toList, Option.length_toList, Option.isSome_map, Option.isSome_map, h]

/-- Domains `d` and `e` of one type have their members at the same places. -/
theorem members_inj {d e : Domain} (hname : d.name.isSome = e.name.isSome)
    (hversion : d.version.isSome = e.version.isSome) (h : d.members = e.members) :
    d.name.map textWord = e.name.map textWord ∧
      d.version.map textWord = e.version.map textWord ∧ d.chainId = e.chainId ∧
      d.contract.map Address.toWord = e.contract.map Address.toWord := by
  simp only [members, List.append_assoc, List.singleton_append] at h
  obtain ⟨hn, h⟩ := List.append_inj h (length_toList_map textWord hname)
  obtain ⟨hv, h⟩ := List.append_inj h (length_toList_map textWord hversion)
  obtain ⟨hc, ha⟩ := List.cons.inj h
  have hinj : Function.Injective (Option.toList : Option Word → List Word) :=
    Function.LeftInverse.injective fun _ => Option.head?_toList
  exact ⟨hinj hn, hinj hv, hc, hinj ha⟩

theorem separator_inj {l : List Bytes} (hl : CollisionFree l) {d e : Domain}
    (hd : d.preimages ⊆ l) (he : e.preimages ⊆ l) (h : d.separator = e.separator) : d = e := by
  obtain ⟨hdtexts, hdstruct⟩ := List.append_subset.1 hd
  obtain ⟨hetexts, hestruct⟩ := List.append_subset.1 he
  obtain ⟨htype, hmembers⟩ := structHash_inj hl hdstruct hestruct h
  rw [typeText_eq, typeText_eq] at htype
  obtain ⟨hname, hversion, -⟩ := typeTextOf_inj _ _ _ _ _ _ htype
  obtain ⟨hn, hv, hc, ha⟩ := members_inj hname hversion hmembers
  obtain ⟨hdname, hdversion⟩ := List.append_subset.1 hdtexts
  obtain ⟨hename, heversion⟩ := List.append_subset.1 hetexts
  have hn := map_textWord_inj hl hdname hename hn
  have hv := map_textWord_inj hl hdversion heversion hv
  have ha := Option.map_injective Address.toWord_injective ha
  obtain ⟨name, version, chainId, contract⟩ := d
  obtain rfl : name = e.name := hn
  obtain rfl : version = e.version := hv
  obtain rfl : chainId = e.chainId := hc
  obtain rfl : contract = e.contract := ha
  rfl

end Domain
end TradingDesk
