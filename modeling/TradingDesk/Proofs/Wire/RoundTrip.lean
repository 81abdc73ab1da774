import TradingDesk.Auth.Credentials
import TradingDesk.Proofs.Json.Record
import TradingDesk.Proofs.Safe.Multisend
import TradingDesk.Wire.Relay

/-! What is written is read back. Each record is written with its members in the order of their
names; of those that may be absent, whichever are there. A state is read from any text, and written
as it was read. -/

namespace TradingDesk

open Json

variable {α : Type}

/-- The value `a` is read back from what was written for it, and from the text of that. -/
structure ReadBack (write : α → Json) (read : Json → Option α) (a : α) : Prop where
  fromJson : read (write a) = some a
  fromText : (parse? (Bytes.ofString (write a).text) >>= read) = some a

/-- The value `a` is read back from what was written for it, whose text leaves nothing out. -/
structure Survives (write : α → Json) (read : Json → Option α) (a : α) : Prop where
  faithful : (write a).faithful
  fromJson : read (write a) = some a

namespace Survives

variable {write : α → Json} {read : Json → Option α} {a : α}

theorem readBack (h : Survives write read a) : ReadBack write read a where
  fromJson := h.fromJson
  fromText := by
    rw [parse?_text h.faithful]
    exact h.fromJson

/-- A record survives whose `values` are read back one by one. -/
theorem of_members {names : List String} {values : List (Option Json)}
    {make : List (Option Json) → Option α} (hwrite : write a = object (sparse names values))
    (hread : ∀ j, read j = fields? names j >>= make) (hnames : names.Nodup)
    (hlength : values.length = names.length) (hfaithful : values.all (Option.all Json.faithful))
    (hmake : make values = some a) : Survives write read a where
  faithful := by
    rw [hwrite]
    exact faithful_sparse hfaithful
  fromJson := by
    rw [hwrite, hread, fields?_sparse hnames hlength]
    exact hmake

end Survives

/-! ### Orders -/

@[simp] theorem Side.ofJson?_name (s : Side) : ofJson? (string s.name) = some s := by
  cases s <;> rfl

namespace Ticket

def members (t : Ticket) : List (Option Json) :=
  [string t.tokenId, string t.price.toText, string t.size.toText, string t.side.name,
    t.feeRate.map ofWord64, t.nonce.map ofWord64, t.expiration.map ofWord64,
    t.taker.map (string ·.lower)]

theorem toJson_eq (t : Ticket) : t.toJson = object (sparse memberNames t.members) := by
  simp only [toJson, List.append_assoc, List.cons_append, List.nil_append]
  rw [← List.append_nil (optionalMember "taker" _)]
  rfl

theorem survives (t : Ticket) : Survives toJson ofJson? t := by
  apply Survives.of_members t.toJson_eq (fun _ => rfl) (by decide) rfl
  · simp [members]
  · simp only [members, required_some, text?_string, decimal?_toText, Side.ofJson?_name,
      orNull_word64, orNull_address]
    rfl

end Ticket

namespace OrderPayload

def members (p : OrderPayload) : List (Option Json) :=
  [ofWord64 p.salt, string p.maker, string p.signer, string p.taker, string p.tokenId,
    string p.makerAmount, string p.takerAmount, string p.expiration, string p.nonce,
    string p.feeRate, string p.side.name, ofNat p.signatureKind.toNat, string p.signature]

theorem toJson_eq (p : OrderPayload) : p.toJson = object (sparse memberNames p.members) := rfl

theorem survives (p : OrderPayload) : Survives toJson ofJson? p := by
  apply Survives.of_members p.toJson_eq (fun _ => rfl) (by decide) rfl
  · simp [members]
  · simp only [members, required_some, text?_string, word64?_ofWord64, byte?_ofByte,
      Side.ofJson?_name]
    rfl

end OrderPayload

/-! ### Answers of the exchange -/

namespace Exchange

namespace PostResult

def members (r : PostResult) : List (Option Json) :=
  [bool r.success, string r.errorMessage, string r.orderId, texts r.transactionHashes,
    string r.status, string r.takingAmount, string r.makingAmount]

theorem toJson_eq (r : PostResult) : r.toJson = object (sparse memberNames r.members) := rfl

theorem survives (r : PostResult) : Survives toJson ofJson? r := by
  apply Survives.of_members r.toJson_eq (fun _ => rfl) (by decide) rfl
  · simp [members]
  · simp only [members, withDefault_some, bool?_bool, text?_string, texts?_texts]
    rfl

end PostResult

namespace OpenOrder

def members (o : OpenOrder) : List (Option Json) :=
  [string o.id, string o.status, string o.owner, string o.makerAddress, string o.market,
    string o.assetId, string o.side, string o.originalSize, string o.sizeMatched, string o.price,
    string o.outcome, string o.expiration, string o.orderType, texts o.associateTrades,
    ofInt o.createdAt]

theorem toJson_eq (o : OpenOrder) : o.toJson = object (sparse memberNames o.members) := rfl

/-- The time of `o` is a signed 64-bit number. -/
def Timed (o : OpenOrder) : Prop := -2 ^ 63 ≤ o.createdAt ∧ o.createdAt < 2 ^ 63

theorem faithful_ofInt {i : ℤ} (h : -2 ^ 63 ≤ i ∧ i < 2 ^ 63) : (ofInt i).faithful = true := by
  unfold ofInt
  split
  · exact decide_eq_true (by omega)
  · rw [faithful, Bool.and_eq_true, decide_eq_true_iff, decide_eq_true_iff]
    omega

theorem signed64?_ofInt {i : ℤ} (h : -2 ^ 63 ≤ i ∧ i < 2 ^ 63) :
    signed64? (ofInt i) = some i := by
  unfold ofInt
  split
  · rw [signed64?, if_pos (by omega), Int.natAbs_of_nonneg ‹_›]
  · rw [signed64?, if_pos (by omega)]
    congr 1
    omega

theorem survives {o : OpenOrder} (h : o.Timed) : Survives toJson ofJson? o := by
  apply Survives.of_members o.toJson_eq (fun _ => rfl) (by decide) rfl
  · simp [members, faithful_ofInt h]
  · simp only [members, withDefault_some, text?_string, texts?_texts, signed64?_ofInt h]
    rfl

end OpenOrder

namespace Page

def members (p : Page) : List (Option Json) :=
  [array (p.orders.map OpenOrder.toJson), string p.nextCursor, ofWord64 p.limit, ofWord64 p.count]

theorem toJson_eq (p : Page) : p.toJson = object (sparse memberNames p.members) := rfl

theorem survives {p : Page} (h : ∀ o ∈ p.orders, o.Timed) : Survives toJson ofJson? p := by
  apply Survives.of_members p.toJson_eq (fun _ => rfl) (by decide) rfl
  · have horders : (array (p.orders.map OpenOrder.toJson)).faithful := by
      rw [faithful, itemsFaithful_iff, List.forall_mem_map]
      exact fun o ho => (OpenOrder.survives (h o ho)).faithful
    simp [members, horders]
  · have horders := list?_map fun o ho => (OpenOrder.survives (h o ho)).fromJson
    simp only [members, withDefault_some, horders, text?_string, word64?_ofWord64]
    rfl

end Page
end Exchange

/-! ### Calls and submissions -/

theorem Operation.ofJson?_code (o : Operation) : ofJson? (Json.ofNat o.code.toNat) = some o := by
  rw [ofJson?, byte?_ofByte, Option.bind_eq_bind, Option.bind_some, ofCode_code]
  rfl

namespace SafeCall

def members (c : SafeCall) : List (Option Json) :=
  [string c.target.lower, ofNat c.operation.code.toNat, string c.data, string c.value]

theorem toJson_eq (c : SafeCall) : c.toJson = object (sparse memberNames c.members) := rfl

theorem survives (c : SafeCall) : Survives toJson ofJson? c := by
  apply Survives.of_members c.toJson_eq (fun _ => rfl) (by decide) rfl
  · simp [members]
  · simp only [members, required_some, address?_lower, Operation.ofJson?_code, text?_string]
    rfl

end SafeCall

namespace Relay

theorem Kind.ofJson?_name (k : Kind) : ofJson? (string k.name) = some k := by
  cases k <;> rfl

namespace Params

def members (p : Params) : List (Option Json) :=
  [p.gasPrice.map string, p.operation.map string, p.safeTxnGas.map string, p.baseGas.map string,
    p.gasToken.map string, p.refundReceiver.map string, p.paymentToken.map string,
    p.payment.map string, p.paymentReceiver.map string]

theorem toJson_eq (p : Params) : p.toJson = object (sparse memberNames p.members) := rfl

theorem survives (p : Params) : Survives toJson ofJson? p := by
  apply Survives.of_members p.toJson_eq (fun _ => rfl) (by decide) rfl
  · simp [members]
  · simp only [members, orNull_text]
    rfl

end Params

namespace Submission

def members (s : Submission) : List (Option Json) :=
  [string s.kind.name, string s.sender, string s.target, s.proxyWallet.map string, string s.data,
    s.nonce.map string, string s.signature, s.params.toJson, s.metadata.map string]

theorem toJson_eq (s : Submission) : s.toJson = object (sparse memberNames s.members) := by
  simp only [toJson, List.append_assoc, List.cons_append, List.nil_append]
  rw [← List.append_nil (optionalMember "metadata" _)]
  rfl

theorem survives (s : Submission) : Survives toJson ofJson? s := by
  apply Survives.of_members s.toJson_eq (fun _ => rfl) (by decide) rfl
  · simp [members, s.params.survives.faithful]
  · simp only [members, required_some, Kind.ofJson?_name, text?_string, orNull_text,
      s.params.survives.fromJson]
    rfl

end Submission

namespace Receipt

def members (r : Receipt) : List (Option Json) :=
  [string r.id, string r.state, string r.hash, string r.transactionHash]

theorem toJson_eq (r : Receipt) : r.toJson = object (sparse memberNames r.members) := rfl

theorem survives (r : Receipt) : Survives toJson ofJson? r := by
  apply Survives.of_members r.toJson_eq (fun _ => rfl) (by decide) rfl
  · simp [members]
  · simp only [members, withDefault_some, text?_string]
    rfl

end Receipt

/-! ### States -/

namespace State

/-- The states that have a name of their own. -/
def ownNames : List String :=
  ["STATE_NEW", "STATE_EXECUTED", "STATE_MINED", "STATE_CONFIRMED", "STATE_FAILED",
    "STATE_INVALID"]

theorem ofKnownName?_eq_none {s : String} : ofKnownName? s = none ↔ s ∉ ownNames := by
  rw [show ownNames = known.map name from rfl, ofKnownName?, List.find?_eq_none, List.mem_map]
  simp

theorem eq_of_ofKnownName? {s : String} {st : State} (h : ofKnownName? s = some st) :
    st.name = s ∧ st.isOther = false := by
  have hknown : ∀ st ∈ known, st.isOther = false := by decide
  exact ⟨by simpa using List.find?_some h, hknown st (List.mem_of_find?_eq_some h)⟩

theorem name_ofName (s : String) : (ofName s).name = s := by
  rw [ofName]
  cases hknown : ofKnownName? s with
  | none => rfl
  | some st => exact (eq_of_ofKnownName? hknown).1

theorem isOther_ofName {s : String} : (ofName s).isOther ↔ s ∉ ownNames := by
  rw [← ofKnownName?_eq_none, ofName]
  cases hknown : ofKnownName? s with
  | none => exact iff_of_true rfl rfl
  | some st => simp [(eq_of_ofKnownName? hknown).2]

theorem survives (s : String) : Survives (string ·.name) ofJson? (ofName s) where
  faithful := rfl
  fromJson := by
    rw [name_ofName]
    rfl

end State
end Relay

/-! ### Credentials -/

namespace Credentials

def members (c : Credentials) : List (Option Json) :=
  [string c.key, string c.secret, string c.passphrase]

theorem survives {keyName : String} (h : [keyName, "secret", "passphrase"].Nodup)
    (c : Credentials) : Survives (toJson keyName) (ofJson? keyName) c := by
  have hwrite : c.toJson keyName =
      object (sparse [keyName, "secret", "passphrase"] c.members) := rfl
  apply Survives.of_members hwrite (fun _ => rfl) h rfl
  · simp [members]
  · simp only [members, required_some, text?_string]
    rfl

end Credentials

/-! ### All of them -/

/-- Whatever is written to the exchange or the relayer, or comes from them, is read back
(`ReadBack`), with any of the members that may be absent. A text `s` is read as a state that has it
for its name, and is a name yet unknown if it is none of the `ownNames`. -/
theorem wire_round_trips :
    (∀ t, ReadBack Ticket.toJson Ticket.ofJson? t) ∧
    (∀ p, ReadBack OrderPayload.toJson OrderPayload.ofJson? p) ∧
    (∀ c, ReadBack SafeCall.toJson SafeCall.ofJson? c) ∧
    (∀ p, ReadBack Relay.Params.toJson Relay.Params.ofJson? p) ∧
    (∀ s, ReadBack Relay.Submission.toJson Relay.Submission.ofJson? s) ∧
    (∀ c, ReadBack (Credentials.toJson "apiKey") (Credentials.ofJson? "apiKey") c) ∧
    (∀ c, ReadBack (Credentials.toJson "key") (Credentials.ofJson? "key") c) ∧
    (∀ r, ReadBack Exchange.PostResult.toJson Exchange.PostResult.ofJson? r) ∧
    (∀ o : Exchange.OpenOrder, o.Timed →
      ReadBack Exchange.OpenOrder.toJson Exchange.OpenOrder.ofJson? o) ∧
    (∀ p : Exchange.Page, (∀ o ∈ p.orders, o.Timed) →
      ReadBack Exchange.Page.toJson Exchange.Page.ofJson? p) ∧
    (∀ r, ReadBack Relay.Receipt.toJson Relay.Receipt.ofJson? r) ∧
    ∀ s, ∃ st : Relay.State, ReadBack (string ·.name) Relay.State.ofJson? st ∧ st.name = s ∧
      (st.isOther ↔ s ∉ Relay.State.ownNames) ∧
      ∀ t : Relay.Transaction, t.state = st → t.toJson.member? "state" = some (string s) := by
  refine ⟨fun t => t.survives.readBack, fun p => p.survives.readBack,
    fun c => c.survives.readBack, fun p => p.survives.readBack, fun s => s.survives.readBack,
    fun c => (c.survives (by decide)).readBack, fun c => (c.survives (by decide)).readBack,
    fun r => r.survives.readBack, fun o h => (Exchange.OpenOrder.survives h).readBack,
    fun p h => (Exchange.Page.survives h).readBack, fun r => r.survives.readBack, fun s => ?_⟩
  refine ⟨.ofName s, (Relay.State.survives s).readBack, Relay.State.name_ofName s,
    Relay.State.isOther_ofName, ?_⟩
  rintro t ht
  rw [← Relay.State.name_ofName s, ← ht]
  rfl

/-- An order from before 1970. -/
def early : Exchange.OpenOrder := { id := "1", createdAt := -1 }

theorem wire_round_trips_early : early.Timed ∧
    ReadBack Exchange.OpenOrder.toJson Exchange.OpenOrder.ofJson? early ∧
    ReadBack Exchange.Page.toJson Exchange.Page.ofJson? { orders := [early], count := 1 } := by
  have htimed : early.Timed := ⟨by decide, by decide⟩
  obtain ⟨-, -, -, -, -, -, -, -, horder, hpage, -⟩ := wire_round_trips
  exact ⟨htimed, horder early htimed, hpage _ (List.forall_mem_singleton.2 htimed)⟩

end TradingDesk
