import TradingDesk.Proofs.Bytes.Basic
import TradingDesk.Proofs.Error
import TradingDesk.Text.Numeral
import TradingDesk.Proofs.TypedData.Encoding

/-! Structs hashed by the text of their type. The text says which members there are, of which types
and in which order; a record gives their values by name. What is hashed for the requests that are
signed, and for their domains, is what the text of its type asks for. -/

namespace TradingDesk

/-! ### Left padding -/

namespace Bytes

theorem ofNat_zero (w : ℕ) : ofNat w 0 = List.replicate w 0 := by
  induction w with
  | zero => rfl
  | succ w ih =>
    rw [ofNat, Nat.zero_div, ih, List.replicate_succ']
    rfl

theorem ofNat_add {w n : ℕ} (h : n < 256 ^ w) (k : ℕ) :
    ofNat (k + w) n = List.replicate k 0 ++ ofNat w n := by
  induction w generalizing n with
  | zero =>
    obtain rfl : n = 0 := by simpa using h
    rw [Nat.add_zero, ofNat_zero, ofNat, List.append_nil]
  | succ w ih =>
    have hdiv : n / 256 < 256 ^ w := Nat.div_lt_of_lt_mul (by rwa [← pow_succ'])
    rw [← Nat.add_assoc, ofNat, ih hdiv, ofNat, List.append_assoc]

/-- The last 32 of `bs`, with zeros in front of fewer. -/
def padded (bs : Bytes) : Bytes := List.replicate (32 - bs.length) 0 ++ bs

theorem padded_ofNat {w n : ℕ} (hw : w ≤ 32) (h : n < 256 ^ w) :
    padded (ofNat w n) = (wordOfNat n).toBytes := by
  have hn : n < 2 ^ 256 := calc
    n < 256 ^ w := h
    _ ≤ 256 ^ 32 := Nat.pow_le_pow_right (by decide) hw
    _ = 2 ^ 256 := by norm_num
  have hword : (wordOfNat n).toNat = n := by rw [wordOfNat, BitVec.toNat_ofNat, Nat.mod_eq_of_lt hn]
  rw [padded, ofNat_length, ← ofNat_add h, Nat.sub_add_cancel hw, Word.toBytes, hword]

end Bytes

/-! ### Types of members -/

/-- The sizes of numbers are in bytes. -/
inductive MemberType where
  | address
  | uint (size : ℕ)
  | string
  | bytes
deriving DecidableEq

inductive MemberValue where
  | address (a : Address)
  | number (n : ℕ)
  | text (s : String)
  | bytes (bs : Bytes)

namespace MemberType

/-- A size is written in bits: a numeral without zeros in front. -/
def uint? (ds : List Char) : Option MemberType :=
  let bits := Numeral.value ds
  if ds.all Numeral.isDigit ∧ ds.head? ≠ some '0' ∧ 8 ∣ bits ∧ 0 < bits ∧ bits ≤ 256 then
    some (uint (bits / 8))
  else none

def parse? : List Char → Option MemberType
  | ['a', 'd', 'd', 'r', 'e', 's', 's'] => some address
  | ['s', 't', 'r', 'i', 'n', 'g'] => some string
  | ['b', 'y', 't', 'e', 's'] => some bytes
  | 'u' :: 'i' :: 'n' :: 't' :: ds => uint? ds
  | _ => none

/-- The 32 bytes of a value in the hash of its struct; numbers that do not fit and values of
another type have none. -/
def encode? : MemberType → MemberValue → Option Bytes
  | address, .address a => some (Bytes.padded a.toBytes)
  | uint size, .number n =>
    if n < 256 ^ size then some (Bytes.padded (Bytes.ofNat size n)) else none
  | string, .text s => some (keccak256 (Bytes.ofString s)).toBytes
  | bytes, .bytes bs => some (keccak256 bs).toBytes
  | _, _ => none

@[simp] theorem encode?_address (a : Address) :
    encode? address (.address a) = some a.toWord.toBytes := by
  have hword : wordOfNat a.value.toNat = a.toWord :=
    BitVec.eq_of_toNat_eq (by simp [wordOfNat, Address.toWord])
  rw [encode?, Address.toBytes, Bytes.padded_ofNat (by decide) a.value.isLt, hword]

theorem encode?_uint {size n : ℕ} (hsize : size ≤ 32) (h : n < 256 ^ size) :
    encode? (uint size) (.number n) = some (wordOfNat n).toBytes := by
  rw [encode?, if_pos h, Bytes.padded_ofNat hsize h]

@[simp] theorem encode?_word (w : Word) : encode? (uint 32) (.number w.toNat) = some w.toBytes := by
  rw [encode?_uint le_rfl (w.isLt.trans_eq (by norm_num)), wordOfNat, BitVec.ofNat_toNat,
    BitVec.setWidth_eq]

@[simp] theorem encode?_uint64 (n : UInt64) :
    encode? (uint 32) (.number n.toNat) = some (wordOfNat n.toNat).toBytes := by
  have hn := n.toNat_lt
  exact encode?_uint le_rfl (by omega)

@[simp] theorem encode?_text (t : String) :
    encode? string (.text t) = some (textWord t).toBytes := rfl

@[simp] theorem encode?_bytes (bs : Bytes) :
    encode? bytes (.bytes bs) = some (keccak256 bs).toBytes := rfl

end MemberType

/-! ### Types of structs -/

structure StructType where
  name : String
  members : List (MemberType × String)
deriving DecidableEq

namespace StructType

/-- A member is its type and its name with a space between them. -/
def member? (text : List Char) : Option (MemberType × String) :=
  match text.splitOn ' ' with
  | [type, name] => (MemberType.parse? type).map (·, String.ofList name)
  | _ => none

def members? (text : List Char) : Option (List (MemberType × String)) :=
  if text = [] then some [] else (text.splitOn ',').mapM member?

/-- A type is its name and, in parentheses, its members with commas between them. -/
def ofChars? (text : List Char) : Option StructType :=
  match text.span (· ≠ '(') with
  | (name, '(' :: rest) =>
    if rest.getLast? = some ')' then (members? rest.dropLast).map (⟨String.ofList name, ·⟩)
    else none
  | _ => none

def parse? (text : String) : Option StructType := ofChars? text.toList

theorem parse?_ofList (text : List Char) : parse? (String.ofList text) = ofChars? text := by
  rw [parse?, String.toList_ofList]

end StructType

/-- The values of members, by their names. -/
abbrev Record := List (String × MemberValue)

namespace Record

def member? (r : Record) (m : MemberType × String) : Option Bytes :=
  (r.lookup m.2).bind m.1.encode?

@[simp] theorem member?_cons_self (r : Record) (type : MemberType) (name : String)
    (v : MemberValue) : member? ((name, v) :: r) (type, name) = type.encode? v := by
  rw [member?, List.lookup_cons_self, Option.bind_some]

@[simp] theorem member?_cons_of_ne {r : Record} {type : MemberType} {name name' : String}
    {v : MemberValue} (h : name ≠ name') :
    member? ((name', v) :: r) (type, name) = member? r (type, name) := by
  rw [member?, List.lookup_cons, beq_false_of_ne h, member?]

/-- The hash of a struct `r` by the `text` of its type: of the hash of the text and of each member
that it names. -/
def hash? (r : Record) (text : String) : Option Word := do
  let type ← StructType.parse? text
  let words ← type.members.mapM r.member?
  return keccak256 ((keccak256 (Bytes.ofString text)).toBytes ++ words.flatten)

theorem hash?_eq {r : Record} {text : String} {type : StructType} {ms : List Word}
    (htype : StructType.parse? text = some type)
    (hmembers : type.members.map r.member? = ms.map fun w => some w.toBytes) :
    r.hash? text = some (structHash text ms) := by
  have hwords : type.members.mapM r.member? = some (ms.map Word.toBytes) :=
    mapM_eq_some.2 (by rw [hmembers, List.map_map]; rfl)
  simp only [hash?, htype, hwords, Option.bind_eq_bind, Option.bind_some]
  rfl

end Record

/-! ### Requests -/

namespace Order

def structType : StructType where
  name := "Order"
  members :=
    [(.uint 32, "salt"), (.address, "maker"), (.address, "signer"), (.address, "taker"),
      (.uint 32, "tokenId"), (.uint 32, "makerAmount"), (.uint 32, "takerAmount"),
      (.uint 32, "expiration"), (.uint 32, "nonce"), (.uint 32, "feeRateBps"), (.uint 1, "side"),
      (.uint 1, "signatureType")]

/-- The members of `o` by their names; an absent number is zero. -/
def record (o : Order) : Record :=
  [("salt", .number o.salt.toNat), ("maker", .address o.maker), ("signer", .address o.signer),
    ("taker", .address o.taker), ("tokenId", .number o.tokenId.toNat),
    ("makerAmount", .number o.makerAmount.toNat), ("takerAmount", .number o.takerAmount.toNat),
    ("expiration", .number (o.expiration.getD 0).toNat), ("nonce", .number (o.nonce.getD 0).toNat),
    ("feeRateBps", .number (o.feeRate.getD 0).toNat), ("side", .number o.side.code),
    ("signatureType", .number o.signatureKind.code)]

set_option maxRecDepth 4000 in
theorem parse?_typeText : StructType.parse? typeText = some structType :=
  (StructType.parse?_ofList _).trans rfl

theorem hash?_record (o : Order) : o.record.hash? typeText = some o.hash := by
  have hside : o.side.code < 256 ^ 1 := by cases o.side <;> decide
  have hkind : o.signatureKind.code < 256 ^ 1 := by cases o.signatureKind <;> decide
  refine Record.hash?_eq parse?_typeText ?_
  simp [structType, record, members, optionalWord,
    MemberType.encode?_uint (by decide) hside, MemberType.encode?_uint (by decide) hkind]

end Order

namespace ClobAuth

def structType : StructType where
  name := "ClobAuth"
  members :=
    [(.address, "address"), (.string, "timestamp"), (.uint 32, "nonce"), (.string, "message")]

def record (a : ClobAuth) : Record :=
  [("address", .address a.address), ("timestamp", .text a.timestamp),
    ("nonce", .number a.nonce.toNat), ("message", .text statement)]

theorem parse?_typeText : StructType.parse? typeText = some structType :=
  (StructType.parse?_ofList _).trans rfl

theorem hash?_record (a : ClobAuth) : a.record.hash? typeText = some a.hash := by
  refine Record.hash?_eq parse?_typeText ?_
  simp [structType, record, members]

end ClobAuth

namespace CreateProxy

def structType : StructType where
  name := "CreateProxy"
  members := [(.address, "paymentToken"), (.uint 32, "payment"), (.address, "paymentReceiver")]

def record (c : CreateProxy) : Record :=
  [("paymentToken", .address c.paymentToken), ("payment", .number c.payment.toNat),
    ("paymentReceiver", .address c.paymentReceiver)]

theorem parse?_typeText : StructType.parse? typeText = some structType :=
  (StructType.parse?_ofList _).trans rfl

theorem hash?_record (c : CreateProxy) : c.record.hash? typeText = some c.hash := by
  refine Record.hash?_eq parse?_typeText ?_
  simp [structType, record, members]

end CreateProxy

namespace SafeTx

def structType : StructType where
  name := "SafeTx"
  members :=
    [(.address, "to"), (.uint 32, "value"), (.bytes, "data"), (.uint 1, "operation"),
      (.uint 32, "safeTxGas"), (.uint 32, "baseGas"), (.uint 32, "gasPrice"),
      (.address, "gasToken"), (.address, "refundReceiver"), (.uint 32, "nonce")]

def record (t : SafeTx) : Record :=
  [("to", .address t.target), ("value", .number t.value.toNat), ("data", .bytes t.data),
    ("operation", .number t.operation.toNat), ("safeTxGas", .number t.safeTxGas.toNat),
    ("baseGas", .number t.baseGas.toNat), ("gasPrice", .number t.gasPrice.toNat),
    ("gasToken", .address t.gasToken), ("refundReceiver", .address t.refundReceiver),
    ("nonce", .number t.nonce.toNat)]

set_option maxRecDepth 4000 in
theorem parse?_typeText : StructType.parse? typeText = some structType :=
  (StructType.parse?_ofList _).trans rfl

theorem hash?_record (t : SafeTx) : t.record.hash? typeText = some t.hash := by
  have hoperation : t.operation.toNat < 256 ^ 1 := t.operation.toNat_lt
  refine Record.hash?_eq parse?_typeText ?_
  simp [structType, record, members,
    MemberType.encode?_uint (by decide) hoperation]

end SafeTx

/-! ### Domains -/

namespace Domain

/-- The members that a domain has when it has a name, a version or a contract. -/
def structType (name version contract : Bool) : StructType where
  name := "EIP712Domain"
  members :=
    (if name then [(.string, "name")] else []) ++
      (if version then [(.string, "version")] else []) ++ [(.uint 32, "chainId")] ++
      (if contract then [(.address, "verifyingContract")] else [])

def record (d : Domain) : Record :=
  (d.name.map fun n => ("name", .text n)).toList ++
    (d.version.map fun v => ("version", .text v)).toList ++
    [("chainId", .number d.chainId.toNat)] ++
    (d.contract.map fun a => ("verifyingContract", .address a)).toList

theorem parse?_typeTextOf : ∀ n v c : Bool,
    StructType.parse? (typeTextOf n v c) = some (structType n v c) := by
  decide +kernel

theorem map_member?_record (d : Domain) :
    (structType d.name.isSome d.version.isSome d.contract.isSome).members.map d.record.member? =
      d.members.map fun w => some w.toBytes := by
  obtain ⟨name, version, chainId, contract⟩ := d
  cases name <;> cases version <;> cases contract <;>
    simp [structType, record, members]

theorem hash?_record (d : Domain) : d.record.hash? d.typeText = some d.separator := by
  have htype := parse?_typeTextOf d.name.isSome d.version.isSome d.contract.isSome
  rw [← typeText_eq] at htype
  exact Record.hash?_eq htype d.map_member?_record

end Domain

/-- What is hashed for a request, or for a domain `d` with any of its parts absent, is what `hash?`
makes of its record by the text of its type. -/
theorem Record.hashes_eq :
    (∀ o : Order, o.record.hash? Order.typeText = some o.hash) ∧
    (∀ a : ClobAuth, a.record.hash? ClobAuth.typeText = some a.hash) ∧
    (∀ c : CreateProxy, c.record.hash? CreateProxy.typeText = some c.hash) ∧
    (∀ t : SafeTx, t.record.hash? SafeTx.typeText = some t.hash) ∧
    ∀ d : Domain, d.record.hash? d.typeText = some d.separator :=
  ⟨Order.hash?_record, ClobAuth.hash?_record, CreateProxy.hash?_record, SafeTx.hash?_record,
    Domain.hash?_record⟩

end TradingDesk
