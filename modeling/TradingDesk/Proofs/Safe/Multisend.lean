import Mathlib.Algebra.Order.BigOperators.Group.List
import TradingDesk.Proofs.Bytes.Hex
import TradingDesk.Safe.Multisend

/-! What a batch of calls says. A record begins with the length of all that is in it, so records
need nothing between them: a reader takes them off the front one by one, and whatever stands in the
data of a call is passed over by its length. The batch carries the records as the one argument of a
call, in hexadecimal; read back through the three layers it is the list of the calls given. -/

namespace TradingDesk

theorem Operation.ofCode_code (o : Operation) : ofCode o.code = .ok o := by
  cases o with
  | call => rfl
  | delegateCall => rfl

/-- A call with its data and value as they are carried out. -/
structure Call where
  operation : Operation
  target : Address
  value : Word
  data : Bytes
deriving DecidableEq

namespace Call

def record (c : Call) : Bytes := SafeCall.record c.operation c.target c.value c.data

theorem record_eq (c : Call) (rest : Bytes) :
    c.record ++ rest = c.operation.code :: (c.target.toBytes ++ (c.value.toBytes ++
      ((wordOfNat c.data.length).toBytes ++ (c.data ++ rest)))) := by
  simp only [record, SafeCall.record, List.cons_append, List.append_assoc]

theorem record_length (c : Call) : c.record.length = 85 + c.data.length := by
  have h := congrArg List.length (c.record_eq [])
  simp only [List.append_nil, List.length_cons, List.length_append, Address.toBytes_length,
    Word.toBytes_length] at h
  omega

theorem flatMap_record_length (cs : List Call) :
    (cs.flatMap record).length = (cs.map fun c => 85 + c.data.length).sum := by
  simp only [List.length_flatMap, record_length]

/-! ### Reading records -/

/-- The record at the front of the bytes and what follows it. -/
def read? : Bytes → Option (Call × Bytes)
  | [] => none
  | code :: r => do
    let operation ← (Operation.ofCode code).toOption
    let (target, r) ← Bytes.split? 20 r
    let (value, r) ← Bytes.split? 32 r
    let (length, r) ← Bytes.split? 32 r
    let (data, r) ← Bytes.split? (Bytes.toNat length) r
    return (⟨operation, .ofBytes target, .ofBytes value, data⟩, r)

theorem read?_record (c : Call) (h : c.data.length < 2 ^ 256) (rest : Bytes) :
    read? (c.record ++ rest) = some (c, rest) := by
  rw [record_eq, read?, Operation.ofCode_code]
  simp only [Except.toOption, Option.bind_eq_bind, Option.bind_some,
    Bytes.split?_append c.target.toBytes_length, Bytes.split?_append (Word.toBytes_length _),
    toNat_toBytes_wordOfNat h, Bytes.split?_append, Address.ofBytes_toBytes, Word.ofBytes_toBytes]
  rfl

theorem length_lt_of_read? {bs rest : Bytes} {c : Call} (h : read? bs = some (c, rest)) :
    rest.length < bs.length := by
  cases bs with
  | nil => cases h
  | cons code r =>
    simp only [read?, Option.bind_eq_bind, Option.bind_eq_some_iff] at h
    obtain ⟨o, -, ⟨x, r1⟩, h1, ⟨y, r2⟩, h2, ⟨z, r3⟩, h3, ⟨d, r4⟩, h4, hpure⟩ := h
    cases hpure
    have := Bytes.length_of_split? h1
    have := Bytes.length_of_split? h2
    have := Bytes.length_of_split? h3
    have := Bytes.length_of_split? h4
    simp only [List.length_cons] at *
    omega

/-- Records up to the end of `bs`; nothing may be left over. -/
def readAll? (bs : Bytes) : Option (List Call) :=
  if bs = [] then some []
  else
    match _h : read? bs with
    | none => none
    | some (c, rest) => (readAll? rest).map (c :: ·)
termination_by bs.length
-- even a record without data has a first byte
decreasing_by exact length_lt_of_read? _h

theorem readAll?_of_read? {bs rest : Bytes} {c : Call} (h : read? bs = some (c, rest)) :
    readAll? bs = (readAll? rest).map (c :: ·) := by
  have hne : bs ≠ [] := by
    rintro rfl
    cases h
  rw [readAll?, if_neg hne]
  split
  · simp_all
  · simp_all

theorem readAll?_flatMap_record (cs : List Call) (h : ∀ c ∈ cs, c.data.length < 2 ^ 256) :
    readAll? (cs.flatMap record) = some cs := by
  induction cs with
  | nil => rw [List.flatMap_nil, readAll?, if_pos rfl]
  | cons c cs ih =>
    obtain ⟨hc, hcs⟩ := List.forall_mem_cons.1 h
    rw [List.flatMap_cons, readAll?_of_read? (read?_record c hc _), ih hcs]
    rfl

end Call

namespace SafeCall

/-! ### Reading a batch -/

/-- The bytes that a call of the multisend contract hands over: its selector, the place of the one
argument, the length of the argument, the argument itself, and zeros up to a multiple of 32. -/
def decodeMultisend? (bs : Bytes) : Option Bytes := do
  let (selector, r) ← Bytes.split? 4 bs
  let (place, r) ← Bytes.split? 32 r
  let (length, r) ← Bytes.split? 32 r
  let (packed, zeros) ← Bytes.split? (Bytes.toNat length) r
  if selector = [0x8D, 0x80, 0xFF, 0x0A] ∧ Bytes.toNat place = 32 ∧ zeros.length < 32 ∧
      (packed.length + zeros.length) % 32 = 0 ∧ zeros = List.replicate zeros.length 0 then
    return packed
  else none

theorem decodeMultisend?_encode (packed : Bytes) (h : packed.length < 2 ^ 256) :
    decodeMultisend? (encodeMultisend packed) = some packed := by
  have hshape : encodeMultisend packed = multisendSelector ++ ((wordOfNat 32).toBytes ++
      ((wordOfNat packed.length).toBytes ++ (packed ++ fill packed.length))) := by
    simp only [encodeMultisend, List.append_assoc]
  have hfill : (fill packed.length).length = (32 - packed.length % 32) % 32 := by
    rw [fill, List.length_replicate]
  have hzeros : fill packed.length = List.replicate (fill packed.length).length 0 := by
    rw [fill, List.length_replicate]
  rw [hshape, decodeMultisend?]
  simp only [Option.bind_eq_bind, Option.bind_some,
    Bytes.split?_append (show multisendSelector.length = 4 from rfl),
    Bytes.split?_append (Word.toBytes_length _), toNat_toBytes_wordOfNat h, Bytes.split?_append]
  rw [if_pos]
  · rfl
  · refine ⟨rfl, toNat_toBytes_wordOfNat (by decide), ?_, ?_, hzeros⟩
    · rw [hfill]
      omega
    · rw [hfill]
      omega

/-! ### What the calls denote -/

def denote (c : SafeCall) : Except Error Call := do
  let data ← c.dataBytes
  let value ← c.valueWord
  return ⟨c.operation, c.target, value, data⟩

def Readable (c : SafeCall) : Prop :=
  (∃ data, c.dataBytes = .ok data) ∧ ∃ value, c.valueWord = .ok value

theorem exists_denote_iff {c : SafeCall} : (∃ d, c.denote = .ok d) ↔ c.Readable := by
  constructor
  · rintro ⟨d, h⟩
    obtain ⟨data, hdata, hrest⟩ := bind_eq_ok.1 h
    obtain ⟨value, hvalue, -⟩ := bind_eq_ok.1 hrest
    exact ⟨⟨data, hdata⟩, value, hvalue⟩
  · rintro ⟨⟨data, hdata⟩, value, hvalue⟩
    exact ⟨⟨c.operation, c.target, value, data⟩, by rw [denote, hdata, hvalue]; rfl⟩

/-- The data of `c` is read before its value. -/
theorem denote_eq_error {c : SafeCall} {e : Error} :
    c.denote = .error e ↔ c.dataBytes = .error e ∨
      (∃ data, c.dataBytes = .ok data) ∧ c.valueWord = .error e := by
  constructor
  · intro h
    rcases bind_eq_error.1 h with hdata | ⟨data, hdata, hrest⟩
    · exact .inl hdata
    · rcases bind_eq_error.1 hrest with hvalue | ⟨value, -, hpure⟩
      · exact .inr ⟨⟨data, hdata⟩, hvalue⟩
      · cases hpure
  · rintro (hdata | ⟨⟨data, hdata⟩, hvalue⟩)
    · rw [denote, hdata]
      rfl
    · rw [denote, hdata, hvalue]
      rfl

theorem data_of_denote {c : SafeCall} {d : Call} (h : c.denote = .ok d) :
    c.dataBytes = .ok d.data := by
  obtain ⟨data, hdata, hrest⟩ := bind_eq_ok.1 h
  obtain ⟨value, -, hpure⟩ := bind_eq_ok.1 hrest
  cases hpure
  exact hdata

theorem dataBytes_onlyInvalid (c : SafeCall) : OnlyInvalid c.dataBytes := by
  unfold dataBytes
  split
  · exact .ok _
  · exact .error _

theorem valueWord_onlyInvalid (c : SafeCall) : OnlyInvalid c.valueWord := by
  unfold valueWord
  split
  · exact .ok _
  · exact .error _

theorem denote_onlyInvalid (c : SafeCall) : OnlyInvalid c.denote :=
  .bind c.dataBytes_onlyInvalid fun _ _ => .bind c.valueWord_onlyInvalid fun _ _ => .ok _

/-- Two digits are needed for a byte. -/
theorem length_le_of_dataBytes {c : SafeCall} {bs : Bytes} (h : c.dataBytes = .ok bs) :
    2 * bs.length ≤ c.data.utf8ByteSize := by
  unfold dataBytes at h
  split at h
  · cases h
    have hdigits := Hex.length_eq_of_values (Hex.decode_eq_ok.1 ‹_›)
    have hmarks := Hex.dropMarks_length_le (Bytes.ofString c.data)
    rw [Bytes.ofString_length] at hmarks
    omega
  · cases h

/-! ### Packing -/

theorem pack_eq (calls : List SafeCall) :
    pack calls = (calls.mapM denote).map fun cs => cs.flatMap Call.record := by
  induction calls with
  | nil => rfl
  | cons c calls ih =>
    rw [List.mapM_cons, pack, ih, denote]
    cases c.dataBytes with
    | error e => rfl
    | ok data =>
      cases c.valueWord with
      | error e => rfl
      | ok value => cases calls.mapM denote <;> rfl

theorem aggregate_eq {calls : List SafeCall} (h : 2 ≤ calls.length) (multisend : Address) :
    aggregate calls multisend =
      (calls.mapM denote).map fun cs => batch (cs.flatMap Call.record) multisend := by
  unfold aggregate
  split
  · simp at h
  · simp at h
  · rw [pack_eq]
    cases calls.mapM denote with
    | error e => rfl
    | ok cs => rfl

/-- Lists and texts of `calls` have lengths of 64 bits. -/
structure InMemory (calls : List SafeCall) : Prop where
  count : calls.length < 2 ^ 64
  texts : ∀ c ∈ calls, c.data.utf8ByteSize < 2 ^ 64

namespace InMemory

variable {calls : List SafeCall} {cs : List Call}

theorem data_lt (h : InMemory calls) (hcs : calls.mapM denote = .ok cs) :
    ∀ d ∈ cs, d.data.length < 2 ^ 64 := by
  intro d hd
  have hmem : Except.ok d ∈ calls.map denote := by
    rw [mapM_eq_ok.1 hcs]
    exact List.mem_map_of_mem hd
  obtain ⟨c, hc, hcd⟩ := List.mem_map.1 hmem
  have hlen := length_le_of_dataBytes (data_of_denote hcd)
  have htext := h.texts c hc
  omega

theorem packed_lt (h : InMemory calls) (hcs : calls.mapM denote = .ok cs) :
    (cs.flatMap Call.record).length < 2 ^ 256 := by
  have hcount : cs.length = calls.length := by
    have hlen := congrArg List.length (mapM_eq_ok.1 hcs)
    rw [List.length_map, List.length_map] at hlen
    exact hlen.symm
  -- no more records than calls, and none longer than its text
  have hsum : (cs.map fun c => 85 + c.data.length).sum ≤ cs.length * (85 + 2 ^ 64) := by
    have hbound := List.sum_le_card_nsmul (cs.map fun c => 85 + c.data.length) (85 + 2 ^ 64) ?_
    · simpa using hbound
    · intro x hx
      obtain ⟨d, hd, rfl⟩ := List.mem_map.1 hx
      have := h.data_lt hcs d hd
      omega
  rw [Call.flatMap_record_length]
  calc (cs.map fun c => 85 + c.data.length).sum
    _ ≤ cs.length * (85 + 2 ^ 64) := hsum
    _ ≤ 2 ^ 64 * (85 + 2 ^ 64) := Nat.mul_le_mul_right _ (hcount.trans_lt h.count).le
    _ < 2 ^ 256 := by decide

end InMemory

/-! ### Batches -/

/-- What is read from the data of the batch of the records `packed`. -/
theorem decode_batch {packed : Bytes} (h : packed.length < 2 ^ 256) (multisend : Address) :
    ∃ bs, (batch packed multisend).dataBytes = .ok bs ∧ decodeMultisend? bs = some packed := by
  refine ⟨encodeMultisend packed, ?_, decodeMultisend?_encode packed h⟩
  rw [dataBytes, batch, Hex.decode_encode0x]

/-- The data of a batch says what the calls `cs` denote and nothing else. -/
theorem batch_data_inj {cs ds : List Call} (hcs : ∀ c ∈ cs, c.data.length < 2 ^ 256)
    (hds : ∀ d ∈ ds, d.data.length < 2 ^ 256) (hpacked : (cs.flatMap Call.record).length < 2 ^ 256)
    (hpacked' : (ds.flatMap Call.record).length < 2 ^ 256) (multisend other : Address) :
    (batch (cs.flatMap Call.record) multisend).data = (batch (ds.flatMap Call.record) other).data ↔
      cs = ds := by
  constructor
  · intro h
    have hencoded : encodeMultisend (cs.flatMap Call.record) =
        encodeMultisend (ds.flatMap Call.record) := by
      have hbytes := congrArg (fun s => Hex.decode (Hex.dropMarks (Bytes.ofString s))) h
      simp only [batch, Hex.decode_encode0x] at hbytes
      exact Except.ok.inj hbytes
    have hrecords := congrArg decodeMultisend? hencoded
    rw [decodeMultisend?_encode _ hpacked, decodeMultisend?_encode _ hpacked'] at hrecords
    have hcalls := congrArg Call.readAll? (Option.some.inj hrecords)
    rw [Call.readAll?_flatMap_record cs hcs, Call.readAll?_flatMap_record ds hds] at hcalls
    exact Option.some.inj hcalls
  · rintro rfl
    rfl

section Aggregate

variable {calls : List SafeCall} {multisend : Address} {b : SafeCall}

theorem exists_aggregate_iff (h : 2 ≤ calls.length) :
    (∃ b, aggregate calls multisend = .ok b) ↔ ∀ c ∈ calls, c.Readable := by
  simp only [aggregate_eq h, map_eq_ok, ← exists_denote_iff, ← exists_mapM_ok]
  constructor
  · rintro ⟨_, cs, hcs, -⟩
    exact ⟨cs, hcs⟩
  · rintro ⟨cs, hcs⟩
    exact ⟨_, cs, hcs, rfl⟩

/-- A failure is that of the first of the `calls` that cannot be read. -/
theorem aggregate_eq_error (h : 2 ≤ calls.length) {e : Error}
    (he : aggregate calls multisend = .error e) :
    (∃ cause, e = .invalid cause) ∧ ∃ before c after, calls = before ++ c :: after ∧
      (∀ x ∈ before, x.Readable) ∧
      (c.dataBytes = .error e ∨ (∃ data, c.dataBytes = .ok data) ∧ c.valueWord = .error e) := by
  rw [aggregate_eq h, map_eq_error, mapM_eq_error] at he
  obtain ⟨before, c, after, hcalls, hbefore, hc⟩ := he
  refine ⟨c.denote_onlyInvalid e hc, before, c, after, hcalls, ?_, denote_eq_error.1 hc⟩
  exact fun x hx => exists_denote_iff.1 (hbefore x hx)

theorem aggregate_eq_ok (h : 2 ≤ calls.length) (hb : aggregate calls multisend = .ok b) :
    ∃ cs, calls.mapM denote = .ok cs ∧ batch (cs.flatMap Call.record) multisend = b := by
  rwa [aggregate_eq h, map_eq_ok] at hb

theorem aggregate_reads (h : 2 ≤ calls.length) (hmem : InMemory calls)
    (hb : aggregate calls multisend = .ok b) :
    ∃ bs packed cs, b.dataBytes = .ok bs ∧ decodeMultisend? bs = some packed ∧
      Call.readAll? packed = some cs ∧ calls.mapM denote = .ok cs ∧
      packed.length = (cs.map fun c => 85 + c.data.length).sum := by
  obtain ⟨cs, hcs, rfl⟩ := aggregate_eq_ok h hb
  obtain ⟨bs, hbs, hpacked⟩ := decode_batch (hmem.packed_lt hcs) multisend
  refine ⟨bs, _, cs, hbs, hpacked, ?_, hcs, Call.flatMap_record_length cs⟩
  exact Call.readAll?_flatMap_record cs fun c hc => (hmem.data_lt hcs c hc).trans (by decide)

theorem aggregate_data_inj (h : 2 ≤ calls.length) (hmem : InMemory calls)
    (hb : aggregate calls multisend = .ok b) {others : List SafeCall} {other : Address}
    {b' : SafeCall} (h' : 2 ≤ others.length) (hmem' : InMemory others)
    (hb' : aggregate others other = .ok b') :
    b.data = b'.data ↔ calls.mapM denote = others.mapM denote := by
  obtain ⟨cs, hcs, rfl⟩ := aggregate_eq_ok h hb
  obtain ⟨ds, hds, rfl⟩ := aggregate_eq_ok h' hb'
  rw [hcs, hds, Except.ok.injEq]
  exact batch_data_inj (fun c hc => (hmem.data_lt hcs c hc).trans (by decide))
    (fun d hd => (hmem'.data_lt hds d hd).trans (by decide)) (hmem.packed_lt hcs)
    (hmem'.packed_lt hds) multisend other

/-- A batch of several `calls` is made just when the data and the value of each can be read, and
fails as the first call that cannot be. Its data carries the calls in their order, with 85 bytes for
each beside its own data; so two batches have the same data just when their calls denote the same.
-/
theorem aggregate_spec (calls : List SafeCall) (multisend : Address) (h : 2 ≤ calls.length) :
    ((∃ b, aggregate calls multisend = .ok b) ↔ ∀ c ∈ calls, c.Readable) ∧
    (∀ e, aggregate calls multisend = .error e →
      (∃ cause, e = .invalid cause) ∧ ∃ before c after, calls = before ++ c :: after ∧
        (∀ x ∈ before, x.Readable) ∧
        (c.dataBytes = .error e ∨ (∃ data, c.dataBytes = .ok data) ∧ c.valueWord = .error e)) ∧
    (InMemory calls → ∀ b, aggregate calls multisend = .ok b →
      (∃ bs packed cs, b.dataBytes = .ok bs ∧ decodeMultisend? bs = some packed ∧
        Call.readAll? packed = some cs ∧ calls.mapM denote = .ok cs ∧
        packed.length = (cs.map fun c => 85 + c.data.length).sum) ∧
      ∀ others other b', 2 ≤ others.length → InMemory others →
        aggregate others other = .ok b' →
        (b.data = b'.data ↔ calls.mapM denote = others.mapM denote)) := by
  refine ⟨exists_aggregate_iff h, fun e he => aggregate_eq_error h he, fun hmem b hb => ⟨?_, ?_⟩⟩
  · exact aggregate_reads h hmem hb
  · intro others other b' h' hmem' hb'
    exact aggregate_data_inj h hmem hb h' hmem' hb'

end Aggregate

/-- A call with data and a value, and one with neither. -/
def approveAndPing : List SafeCall :=
  [⟨.ofNat 1, .call, "0xDEad", " 258"⟩, ⟨.ofNat 2, .delegateCall, "", ""⟩]

theorem aggregate_spec_two :
    2 ≤ approveAndPing.length ∧ InMemory approveAndPing ∧
    ∃ b bs packed, aggregate approveAndPing .zero = .ok b ∧ b.dataBytes = .ok bs ∧
      decodeMultisend? bs = some packed ∧ packed.length = 172 ∧
      Call.readAll? packed =
        some [⟨.call, .ofNat 1, 258, [0xDE, 0xAD]⟩, ⟨.delegateCall, .ofNat 2, 0, []⟩] := by
  have hlen : 2 ≤ approveAndPing.length := by decide
  have hmem : InMemory approveAndPing := ⟨by decide, by decide +kernel⟩
  have hdenote : approveAndPing.mapM denote =
      .ok [⟨.call, .ofNat 1, 258, [0xDE, 0xAD]⟩, ⟨.delegateCall, .ofNat 2, 0, []⟩] := by
    rfl
  obtain ⟨hiff, -, hreads⟩ := aggregate_spec approveAndPing .zero hlen
  obtain ⟨b, hb⟩ := hiff.2 fun c hc => exists_denote_iff.1 (exists_mapM_ok.1 ⟨_, hdenote⟩ c hc)
  obtain ⟨⟨bs, packed, cs, hbs, hpacked, hcalls, hcs, hlength⟩, -⟩ := hreads hmem b hb
  cases hdenote.symm.trans hcs
  exact ⟨hlen, hmem, b, bs, packed, hb, hbs, hpacked, hlength, hcalls⟩

end SafeCall
end TradingDesk
