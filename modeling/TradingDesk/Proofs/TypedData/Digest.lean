import TradingDesk.Chain
import TradingDesk.Proofs.Crypto.Keccak
import TradingDesk.Proofs.TypedData.Encoding

/-! No signature serves for another message. All that is ever signed is a digest of one of four
kinds of request. A digest leads back, hash by hash, to the domain, the type and the members that it
was made of; so unless two of the byte strings that are hashed on the way collide, requests with the
same digest are the same, but for numbers that are absent from one and zero in the other. -/

namespace TradingDesk

/-! ### Members -/

theorem optionalWord_inj {x y : Option UInt64}
    (h : Order.optionalWord x = Order.optionalWord y) : x.getD 0 = y.getD 0 :=
  word64_inj h

theorem Side.code_inj {s t : Side} (h : wordOfNat s.code = wordOfNat t.code) : s = t := by
  cases s with
  | buy => cases t with
    | buy => rfl
    | sell => exact absurd h (by decide)
  | sell => cases t with
    | buy => exact absurd h (by decide)
    | sell => rfl

theorem SignatureKind.code_inj {s t : SignatureKind} (h : wordOfNat s.code = wordOfNat t.code) :
    s = t := by
  have hcode : s.code = t.code := by
    refine wordOfNat_inj ?_ ?_ h
    · cases s <;> decide
    · cases t <;> decide
  cases s <;> cases t <;> first | rfl | cases hcode

theorem Order.filled_eq_of_members {o p : Order} (h : o.members = p.members) :
    o.filled = p.filled := by
  simp only [members, List.cons.injEq, and_true] at h
  obtain ⟨hsalt, hmaker, hsigner, htaker, htoken, hmade, htaken, hend, hnonce, hfee, hside,
    hkind⟩ := h
  simp only [filled, mk.injEq, Option.some.injEq]
  exact ⟨word64_inj hsalt, Address.toWord_injective hmaker, Address.toWord_injective hsigner,
    Address.toWord_injective htaker, htoken, hmade, htaken, optionalWord_inj hend,
    optionalWord_inj hnonce, optionalWord_inj hfee, Side.code_inj hside,
    SignatureKind.code_inj hkind⟩

theorem ClobAuth.eq_of_members {l : List Bytes} (hl : CollisionFree l) {a b : ClobAuth}
    (ha : Bytes.ofString a.timestamp ∈ l) (hb : Bytes.ofString b.timestamp ∈ l)
    (h : a.members = b.members) : a = b := by
  simp only [members, List.cons.injEq, and_true] at h
  obtain ⟨haddress, htime, hnonce⟩ := h
  obtain ⟨address, timestamp, nonce⟩ := a
  obtain rfl : address = b.address := Address.toWord_injective haddress
  obtain rfl : timestamp = b.timestamp := textWord_inj hl ha hb htime
  obtain rfl : nonce = b.nonce := hnonce
  rfl

theorem CreateProxy.eq_of_members {c d : CreateProxy} (h : c.members = d.members) : c = d := by
  simp only [members, List.cons.injEq, and_true] at h
  obtain ⟨htoken, hpayment, hreceiver⟩ := h
  obtain ⟨token, payment, receiver⟩ := c
  obtain rfl : token = d.paymentToken := Address.toWord_injective htoken
  obtain rfl : payment = d.payment := hpayment
  obtain rfl : receiver = d.paymentReceiver := Address.toWord_injective hreceiver
  rfl

theorem SafeTx.eq_of_members {l : List Bytes} (hl : CollisionFree l) {t u : SafeTx}
    (ht : t.data ∈ l) (hu : u.data ∈ l) (h : t.members = u.members) : t = u := by
  simp only [members, List.cons.injEq, and_true] at h
  obtain ⟨htarget, hvalue, hdata, hoperation, hgas, hbase, hprice, htoken, hrefund, hnonce⟩ := h
  obtain ⟨target, value, data, operation, gas, base, price, token, refund, nonce⟩ := t
  obtain rfl : target = u.target := Address.toWord_injective htarget
  obtain rfl : value = u.value := hvalue
  obtain rfl : data = u.data := hl _ ht _ hu hdata
  obtain rfl : operation = u.operation := word8_inj hoperation
  obtain rfl : gas = u.safeTxGas := hgas
  obtain rfl : base = u.baseGas := hbase
  obtain rfl : price = u.gasPrice := hprice
  obtain rfl : token = u.gasToken := Address.toWord_injective htoken
  obtain rfl : refund = u.refundReceiver := Address.toWord_injective hrefund
  obtain rfl : nonce = u.nonce := hnonce
  rfl

/-! ### Requests -/

/-- What a signer can be asked to sign. -/
inductive SigningRequest where
  | order (order : Order) (chainId : UInt64) (exchange : Address)
  | clobAuth (auth : ClobAuth) (chainId : UInt64)
  | createProxy (create : CreateProxy) (chainId : UInt64) (factory : Address)
  | safeTx (transaction : SafeTx) (chainId : UInt64) (safe : Address)
deriving DecidableEq

namespace SigningRequest

def digest : SigningRequest → Word
  | order o n e => o.digest n e
  | clobAuth a n => a.digest n
  | createProxy c n f => c.digest n f
  | safeTx t n s => t.digest n s

/-- An absent number counts as zero. -/
def filled : SigningRequest → SigningRequest
  | order o n e => order o.filled n e
  | r => r

/-! ### What is hashed -/

def domain : SigningRequest → Domain
  | order _ n e => .exchange n e
  | clobAuth _ n => .clobAuth n
  | createProxy _ n f => .proxyFactory n f
  | safeTx _ n s => .safe n s

def typeText : SigningRequest → String
  | order .. => Order.typeText
  | clobAuth .. => ClobAuth.typeText
  | createProxy .. => CreateProxy.typeText
  | safeTx .. => SafeTx.typeText

def members : SigningRequest → List Word
  | order o .. => o.members
  | clobAuth a _ => a.members
  | createProxy c .. => c.members
  | safeTx t .. => t.members

/-- What takes part in the members by its hash. -/
def contents : SigningRequest → List Bytes
  | order .. => []
  | clobAuth a _ => [Bytes.ofString a.timestamp, Bytes.ofString ClobAuth.statement]
  | createProxy .. => []
  | safeTx t .. => [t.data]

def typedEncoding (r : SigningRequest) : Bytes :=
  typedDataEncoding r.domain.separator (structHash r.typeText r.members)

/-- Only a transaction is hashed once more. -/
def personalEncodings : SigningRequest → List Bytes
  | safeTx t n s => [personalEncoding (t.typedHash n s)]
  | _ => []

/-- All the byte strings that are hashed for the digest of `r`. -/
def preimages (r : SigningRequest) : List Bytes :=
  r.domain.preimages ++ (r.contents ++ (structPreimages r.typeText r.members ++
    (r.typedEncoding :: r.personalEncodings)))

/-- The byte string whose hash is the digest. -/
def lastEncoding : SigningRequest → Bytes
  | safeTx t n s => personalEncoding (t.typedHash n s)
  | r => r.typedEncoding

theorem digest_eq (r : SigningRequest) : r.digest = keccak256 r.lastEncoding := by
  cases r <;> rfl

section Parts

variable {r : SigningRequest} {l : List Bytes} (h : r.preimages ⊆ l)
include h

theorem domain_subset : r.domain.preimages ⊆ l := (List.append_subset.1 h).1

theorem contents_subset : r.contents ⊆ l := (List.append_subset.1 (List.append_subset.1 h).2).1

theorem struct_subset : structPreimages r.typeText r.members ⊆ l :=
  (List.append_subset.1 (List.append_subset.1 (List.append_subset.1 h).2).2).1

theorem encodings_subset : r.typedEncoding :: r.personalEncodings ⊆ l :=
  (List.append_subset.1 (List.append_subset.1 (List.append_subset.1 h).2).2).2

theorem typedEncoding_mem : r.typedEncoding ∈ l := encodings_subset h List.mem_cons_self

theorem lastEncoding_mem : r.lastEncoding ∈ l := by
  cases r with
  | safeTx t n s => exact encodings_subset h (List.mem_cons_of_mem _ List.mem_cons_self)
  | order o n e => exact typedEncoding_mem h
  | clobAuth a n => exact typedEncoding_mem h
  | createProxy c n f => exact typedEncoding_mem h

end Parts

theorem typedEncoding_length (r : SigningRequest) : r.typedEncoding.length = 66 :=
  typedDataEncoding_length ..

theorem isTransaction_or (r : SigningRequest) :
    (∃ t n s, r = safeTx t n s) ∨ r.lastEncoding = r.typedEncoding := by
  cases r with
  | safeTx t n s => exact .inl ⟨t, n, s, rfl⟩
  | order o n e => exact .inr rfl
  | clobAuth a n => exact .inr rfl
  | createProxy c n f => exact .inr rfl

/-! ### The way back -/

section Inverse

variable {l : List Bytes} (hl : CollisionFree l) {r s : SigningRequest} (hr : r.preimages ⊆ l)
  (hs : s.preimages ⊆ l)
include hl hr hs

/-- The hash of a transaction is no typed data itself: the two are of different lengths. -/
theorem typedEncoding_eq (h : r.digest = s.digest) : r.typedEncoding = s.typedEncoding := by
  rw [digest_eq, digest_eq] at h
  have hlast := hl _ (lastEncoding_mem hr) _ (lastEncoding_mem hs) h
  rcases isTransaction_or r with ⟨t, n, a, rfl⟩ | hr'
  · rcases isTransaction_or s with ⟨u, m, b, rfl⟩ | hs'
    · have htyped : t.typedHash n a = u.typedHash m b := personalEncoding_inj hlast
      exact hl _ (typedEncoding_mem hr) _ (typedEncoding_mem hs) htyped
    · rw [hs'] at hlast
      have hlen := congrArg List.length hlast
      rw [typedEncoding_length, lastEncoding, personalEncoding_length] at hlen
      cases hlen
  · rcases isTransaction_or s with ⟨u, m, b, rfl⟩ | hs'
    · rw [hr'] at hlast
      have hlen := congrArg List.length hlast
      rw [typedEncoding_length, lastEncoding, personalEncoding_length] at hlen
      cases hlen
    · rwa [hr', hs'] at hlast

theorem parts_eq (h : r.digest = s.digest) : r.domain = s.domain ∧ r.members = s.members := by
  obtain ⟨hseparator, hstruct⟩ := typedDataEncoding_inj (typedEncoding_eq hl hr hs h)
  exact ⟨Domain.separator_inj hl (domain_subset hr) (domain_subset hs) hseparator,
    (structHash_inj hl (struct_subset hr) (struct_subset hs) hstruct).2⟩

theorem filled_eq (h : r.digest = s.digest) : r.filled = s.filled := by
  obtain ⟨hdomain, hmembers⟩ := parts_eq hl hr hs h
  have hr' := contents_subset hr
  have hs' := contents_subset hs
  cases r with
  | order o n e =>
    cases s with
    | order p m f =>
      obtain ⟨hchain, hexchange⟩ : wordOfNat n.toNat = wordOfNat m.toNat ∧ e = f := by
        simpa [domain, Domain.exchange] using hdomain
      rw [filled, filled, Order.filled_eq_of_members hmembers, word64_inj hchain, hexchange]
    | _ => cases congrArg Domain.shape hdomain
  | clobAuth a n =>
    cases s with
    | clobAuth b m =>
      have hchain : wordOfNat n.toNat = wordOfNat m.toNat := by
        simpa [domain, Domain.clobAuth] using hdomain
      rw [ClobAuth.eq_of_members hl (hr' List.mem_cons_self) (hs' List.mem_cons_self) hmembers,
        word64_inj hchain]
    | _ => cases congrArg Domain.shape hdomain
  | createProxy c n f =>
    cases s with
    | createProxy d m g =>
      obtain ⟨hchain, hfactory⟩ : wordOfNat n.toNat = wordOfNat m.toNat ∧ f = g := by
        simpa [domain, Domain.proxyFactory] using hdomain
      rw [CreateProxy.eq_of_members hmembers, word64_inj hchain, hfactory]
    | _ => cases congrArg Domain.shape hdomain
  | safeTx t n a =>
    cases s with
    | safeTx u m b =>
      obtain ⟨hchain, hsafe⟩ : wordOfNat n.toNat = wordOfNat m.toNat ∧ a = b := by
        simpa [domain, Domain.safe] using hdomain
      rw [SafeTx.eq_of_members hl (hr' List.mem_cons_self) (hs' List.mem_cons_self) hmembers,
        word64_inj hchain, hsafe]
    | _ => cases congrArg Domain.shape hdomain

end Inverse

theorem digest_filled (r : SigningRequest) : r.filled.digest = r.digest := by
  cases r <;> rfl

theorem exchange_ne : ∀ c ∈ Chain.all, c.exchange false ≠ c.exchange true := by
  decide

/-- Unless byte strings that are hashed collide, requests `r` and `s` have the same digest just when
they are the same up to absent numbers; an order has not the same digest for the two exchanges of a
chain; and domains have the same separator just when they are the same. -/
theorem digests_separate :
    (∀ r s : SigningRequest, CollisionFree (r.preimages ++ s.preimages) →
      (r.digest = s.digest ↔ r.filled = s.filled)) ∧
    (∀ c ∈ Chain.all, ∀ o : Order,
      CollisionFree ((order o c.id (c.exchange false)).preimages ++
        (order o c.id (c.exchange true)).preimages) →
      o.digest c.id (c.exchange false) ≠ o.digest c.id (c.exchange true)) ∧
    ∀ d e : Domain, CollisionFree (d.preimages ++ e.preimages) →
      (d.separator = e.separator ↔ d = e) := by
  refine ⟨fun r s hl => ⟨?_, ?_⟩, ?_, fun d e hl => ⟨?_, ?_⟩⟩
  · exact filled_eq hl (List.subset_append_left ..) (List.subset_append_right ..)
  · intro h
    rw [← digest_filled r, h, digest_filled s]
  · intro c hc o hl h
    have hfilled := filled_eq hl (List.subset_append_left ..) (List.subset_append_right ..) h
    exact exchange_ne c hc (order.inj hfilled).2.2
  · exact Domain.separator_inj hl (List.subset_append_left ..) (List.subset_append_right ..)
  · rintro rfl
    rfl

/-- An order that rests until it is cancelled. -/
def resting : Order where
  salt := 999
  maker := .ofNat 0xaacFeEa03eb1561C4e67d661e40682Bd20E3541b
  signer := .ofNat 0xf39Fd6e51aad88F6F4ce6aB8827279cffFb92266
  taker := .zero
  tokenId := 123
  makerAmount := 14000000
  takerAmount := 100000000
  expiration := none
  nonce := none
  feeRate := some 10
  side := .sell
  signatureKind := .safe

/-! The hashes of all that is hashed for the order on one exchange or the other. -/

theorem texts_hash :
    textWord "Polymarket CTF Exchange" =
      0xf30041e9aac4c4d3a1481d2941dfb0a844a72040e9bbc79a810d1ec5b5d6c7af ∧
    textWord "1" = 0xc89efdaa54c0f20c7adf612882df0950f5a951637e0307cdcb4c672f298b8bc6 ∧
    textWord (Domain.typeTextOf true true true) =
      0x8b73c3c69bb8fe3d512ecc4cf759cc79239f7b179b0ffacaa9a75d522b39400f ∧
    textWord Order.typeText =
      0xa852566c4e14d00869b6db0220888a9090a13eccdaea03713ff0a3d27bf9767c := by
  simp only [textWord, keccak256_eq]
  decide +kernel

theorem exchange_typeText (e : Address) :
    (Domain.exchange 137 e).typeText = Domain.typeTextOf true true true :=
  Domain.typeText_eq _

theorem exchange_separator (e : Address) : (Domain.exchange 137 e).separator =
    Keccak.Planes.hash (([0x8b73c3c69bb8fe3d512ecc4cf759cc79239f7b179b0ffacaa9a75d522b39400f,
      0xf30041e9aac4c4d3a1481d2941dfb0a844a72040e9bbc79a810d1ec5b5d6c7af,
      0xc89efdaa54c0f20c7adf612882df0950f5a951637e0307cdcb4c672f298b8bc6, wordOfNat 137,
      e.toWord] : List Word).flatMap Word.toBytes) := by
  obtain ⟨hname, hversion, htype, -⟩ := texts_hash
  rw [Domain.separator, structHash, keccak256_eq, structEncoding, exchange_typeText, htype,
    Domain.members]
  simp only [Domain.exchange, Option.map, hname, hversion]
  rfl

theorem exchange_separators :
    (Domain.exchange 137 (Chain.polygon.exchange false)).separator =
      0x1a573e3617c78403b5b4b892827992f027b03d4eaf570048b8ee8cdd84d151be ∧
    (Domain.exchange 137 (Chain.polygon.exchange true)).separator =
      0x82cb6aa85babb812f4b521a12b10f0cbc68d2b44be7bc02c047004f544adb49f := by
  rw [exchange_separator, exchange_separator]
  decide +kernel

theorem resting_hash : resting.hash =
    0x167c7562e100c9a8fdd9eebbc62d97866fdee208260189c2ada9efa37efb7283 := by
  obtain ⟨-, -, -, htype⟩ := texts_hash
  rw [Order.hash, structHash, keccak256_eq, structEncoding, htype]
  decide +kernel

theorem resting_digests :
    resting.digest 137 (Chain.polygon.exchange false) =
      0x193957d43f45a58dd77b7f63e20008e289bfbc02c0129faeb5b384328da4aad9 ∧
    resting.digest 137 (Chain.polygon.exchange true) =
      0x6af2760d62d6847aa886837542d38688308cba36446df6f9781094bda9de7f2f := by
  obtain ⟨hregular, hnegRisk⟩ := exchange_separators
  rw [Order.digest, Order.digest, hregular, hnegRisk, resting_hash, typedDataHash, typedDataHash,
    keccak256_eq, keccak256_eq]
  decide +kernel

def restingTable : List (Bytes × Word) :=
  [(Bytes.ofString "Polymarket CTF Exchange",
      0xf30041e9aac4c4d3a1481d2941dfb0a844a72040e9bbc79a810d1ec5b5d6c7af),
    (Bytes.ofString "1", 0xc89efdaa54c0f20c7adf612882df0950f5a951637e0307cdcb4c672f298b8bc6),
    (Bytes.ofString (Domain.typeTextOf true true true),
      0x8b73c3c69bb8fe3d512ecc4cf759cc79239f7b179b0ffacaa9a75d522b39400f),
    (Bytes.ofString Order.typeText,
      0xa852566c4e14d00869b6db0220888a9090a13eccdaea03713ff0a3d27bf9767c),
    (structEncoding (Domain.exchange 137 (Chain.polygon.exchange false)).typeText
      (Domain.exchange 137 (Chain.polygon.exchange false)).members,
      0x1a573e3617c78403b5b4b892827992f027b03d4eaf570048b8ee8cdd84d151be),
    (structEncoding (Domain.exchange 137 (Chain.polygon.exchange true)).typeText
      (Domain.exchange 137 (Chain.polygon.exchange true)).members,
      0x82cb6aa85babb812f4b521a12b10f0cbc68d2b44be7bc02c047004f544adb49f),
    (structEncoding Order.typeText resting.members,
      0x167c7562e100c9a8fdd9eebbc62d97866fdee208260189c2ada9efa37efb7283),
    (typedEncoding (order resting 137 (Chain.polygon.exchange false)),
      0x193957d43f45a58dd77b7f63e20008e289bfbc02c0129faeb5b384328da4aad9),
    (typedEncoding (order resting 137 (Chain.polygon.exchange true)),
      0x6af2760d62d6847aa886837542d38688308cba36446df6f9781094bda9de7f2f)]

theorem restingTable_hash : ∀ p ∈ restingTable, keccak256 p.1 = p.2 := by
  obtain ⟨hname, hversion, htype, horder⟩ := texts_hash
  simp only [restingTable, List.forall_mem_cons]
  exact ⟨hname, hversion, htype, horder, exchange_separators.1, exchange_separators.2,
    resting_hash, resting_digests.1, resting_digests.2, by simp⟩

theorem resting_preimages_subset :
    (order resting 137 (Chain.polygon.exchange false)).preimages ++
      (order resting 137 (Chain.polygon.exchange true)).preimages ⊆
        restingTable.map Prod.fst := by
  simp only [preimages, domain, contents, typeText, members, personalEncodings, Domain.preimages,
    structPreimages, restingTable, exchange_typeText]
  simp only [Domain.exchange, Option.map_some, Option.toList_some, List.cons_append,
    List.nil_append, List.map_cons, List.map_nil, List.cons_subset, List.nil_subset,
    List.mem_cons, true_or, or_true, and_self]

theorem resting_collisionFree :
    CollisionFree ((order resting 137 (Chain.polygon.exchange false)).preimages ++
      (order resting 137 (Chain.polygon.exchange true)).preimages) :=
  .of_table restingTable resting_preimages_subset restingTable_hash (by decide)

/-- An order with its absent numbers is signed as the same order with zeros, for either exchange
separately. -/
theorem digests_separate_resting :
    (resting ≠ resting.filled ∧
      (order resting 137 (Chain.polygon.exchange false)).digest =
        (order resting.filled 137 (Chain.polygon.exchange false)).digest) ∧
    resting.digest 137 (Chain.polygon.exchange false) ≠
      resting.digest 137 (Chain.polygon.exchange true) ∧
    (Domain.exchange 137 (Chain.polygon.exchange false)).separator ≠
      (Domain.exchange 137 (Chain.polygon.exchange true)).separator := by
  have hsame : CollisionFree ((order resting 137 (Chain.polygon.exchange false)).preimages ++
      (order resting.filled 137 (Chain.polygon.exchange false)).preimages) :=
    resting_collisionFree.mono
      (List.append_subset.2 ⟨List.subset_append_left .., List.subset_append_left ..⟩)
  have hdomains : CollisionFree ((Domain.exchange 137 (Chain.polygon.exchange false)).preimages ++
      (Domain.exchange 137 (Chain.polygon.exchange true)).preimages) :=
    resting_collisionFree.mono (List.append_subset.2
      ⟨domain_subset (r := order resting 137 (Chain.polygon.exchange false))
          (List.subset_append_left ..),
        domain_subset (r := order resting 137 (Chain.polygon.exchange true))
          (List.subset_append_right ..)⟩)
  refine ⟨⟨by decide, ?_⟩, ?_, ?_⟩
  · exact (digests_separate.1 _ _ hsame).2 rfl
  · exact digests_separate.2.1 Chain.polygon (by decide) resting resting_collisionFree
  · rw [ne_eq, digests_separate.2.2 _ _ hdomains]
    decide

end SigningRequest
end TradingDesk
