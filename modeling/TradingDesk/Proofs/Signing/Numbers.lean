import TradingDesk.Proofs.Order.Build
import TradingDesk.Proofs.Order.Payload
import TradingDesk.Proofs.Relay.Operations
import TradingDesk.Proofs.Text.Words

/-! The two numbers that arrive as texts and are signed: the token of an order, which the trader
gives, and the nonce of a transaction, which the relayer gives. Both texts are read in one way, with
the white space around them left out. Where no number is read, nobody is asked for a signature. -/

namespace TradingDesk

open Session

variable {σ : Type}

/-- The `text` of a field spells the number `n`. -/
def Word.SpelledIn (text : String) (n : Word) : Prop := Spelled (Text.trimChars text.toList) n

/-! ### Tokens -/

namespace Ticket

variable {t : Ticket} {trader : Trader} {c : Contracts} {tif : TimeInForce} {tick : Tick}

/-- With some token an order is built of `t`. -/
def SoundButToken (t : Ticket) (trader : Trader) (c : Contracts) (tif : TimeInForce)
    (tick : Tick) : Prop :=
  ∃ text o, ({ t with tokenId := text } : Ticket).build trader c tif tick = .ok o

/-- Then only the token can be at fault. -/
theorem SoundButToken.build_eq (h : t.SoundButToken trader c tif tick) :
    ∃ m k, t.build trader c tif tick = t.tokenWord.map fun n => t.order trader n m k := by
  obtain ⟨text, o, ho⟩ := h
  obtain ⟨hsize, hprice, -, m, k, -, hmk, -⟩ := build_eq_ok.1 ho
  change t.baseAmounts c tif tick = .ok (m, k) at hmk
  refine ⟨m, k, ?_⟩
  cases htoken : t.tokenWord with
  | ok n => exact build_eq_ok.2 ⟨hsize, hprice, n, m, k, htoken, hmk, rfl⟩
  | error e =>
    rw [build, if_neg (not_le.2 (Decimal.toRat_pos.1 hsize)), if_neg (by simpa using hprice),
      htoken]
    rfl

theorem tokenWord_spelled {n : Word} : t.tokenWord = .ok n ↔ Word.SpelledIn t.tokenId n :=
  tokenWord_eq_ok.trans Word.read_trim

theorem tokenWord_unspelled (h : ¬∃ n, Word.SpelledIn t.tokenId n) :
    ∃ e, t.tokenWord = .error (.invalid (.tokenId t.tokenId e)) := by
  unfold tokenWord
  split
  · exact absurd ⟨_, Word.read_trim.1 ‹_›⟩ h
  · exact ⟨_, rfl⟩

theorem SoundButToken.build_tokenId (h : t.SoundButToken trader c tif tick) {n : Word} :
    (∃ o, t.build trader c tif tick = .ok o ∧ o.tokenId = n) ↔ Word.SpelledIn t.tokenId n := by
  obtain ⟨m, k, hbuild⟩ := h.build_eq
  rw [hbuild, ← tokenWord_spelled]
  constructor
  · rintro ⟨o, ho, rfl⟩
    obtain ⟨n, hn, rfl⟩ := map_eq_ok.1 ho
    exact hn
  · intro hn
    exact ⟨t.order trader n m k, map_eq_ok.2 ⟨n, hn, rfl⟩, rfl⟩

end Ticket

theorem OrderSigner.create_unspelled {s : OrderSigner} {t : Ticket} {tif : TimeInForce}
    {tick : Tick} (h : t.SoundButToken s.trader s.chain.contracts tif tick)
    (hunspelled : ¬∃ n, Word.SpelledIn t.tokenId n) (negRisk : Bool) (w : World) (log : Log σ) :
    ∃ e, (s.create t tif tick negRisk).run w log =
      (.error (.invalid (.tokenId t.tokenId e)), log) := by
  obtain ⟨e, he⟩ := Ticket.tokenWord_unspelled hunspelled
  obtain ⟨m, k, hbuild⟩ := h.build_eq
  refine ⟨e, ?_⟩
  rw [run_create, hbuild, he]
  rfl

/-! ### Nonces -/

namespace Relay.Client

variable {owner : Address} {kind : Kind} {w : World} {past : List Event} {n : Word}

theorem readNonce_eq_ok {text : String} : readNonce text = .ok n ↔ Word.SpelledIn text n := by
  rw [Word.SpelledIn, ← Word.read_trim, readNonce]
  split <;> simp [*]

theorem readNonce_unspelled {text : String} (h : ¬∃ n, Word.SpelledIn text n) :
    ∃ e, readNonce text = .error (.nonce text e) := by
  unfold readNonce
  split
  · exact absurd ⟨_, Word.read_trim.1 ‹_›⟩ h
  · exact ⟨_, rfl⟩

theorem nonceAnswer_eq_ok : nonceAnswer owner kind w past = .ok n ↔
    ∃ text, nonceText owner kind w past = .ok text ∧ Word.SpelledIn text n := by
  simp only [nonceAnswer, bind_eq_ok, readNonce_eq_ok]

/-- A signature for a transaction is asked for with a nonce that was read. -/
theorem execute_asks (c : Client) (calls : List SafeCall) (metadata : String) (w : World)
    (log : Log σ) : ∃ added, ((c.execute calls metadata).run w log).2 =
        { log with events := log.events ++ added } ∧
      ∀ signer digest, .asked signer digest ∈ added → ∃ text n,
        nonceText c.signer .safe w (log.events ++ [.sent c.deploymentQuestion]) = .ok text ∧
          Word.SpelledIn text n := by
  rcases c.execute_unmade_or_course calls metadata w log with
    ⟨e, hrun⟩ | ⟨added, result, hrun, hcourse⟩
  · exact ⟨[], by rw [hrun, List.append_nil], by simp⟩
  · refine ⟨added, congrArg Prod.snd hrun, fun signer digest hmem => ?_⟩
    obtain ⟨before, later, hadded⟩ := List.append_of_mem hmem
    obtain ⟨-, -, -, -, nonce, -, -, hnonce, -⟩ := hcourse.signing hadded
    obtain ⟨text, htext, hspelled⟩ := nonceAnswer_eq_ok.1 hnonce
    exact ⟨text, nonce, htext, hspelled⟩

end Relay.Client

/-! ### Both -/

open Relay.Client in
/-- The token of a ticket that is `SoundButToken`, and a nonce, are the numbers that their texts
spell (`Word.SpelledIn`). Where the text spells none there is no order and no nonce, and no
signature is asked for. A text that has something in it, and no underscore, spells just what it is a
numeral for (`Word.IsNumeral`). -/
theorem signed_numbers :
    (∀ (t : Ticket) trader c tif tick, t.SoundButToken trader c tif tick → ∀ n,
      (∃ o, t.build trader c tif tick = .ok o ∧ o.tokenId = n) ↔ Word.SpelledIn t.tokenId n) ∧
    (∀ (s : OrderSigner) (t : Ticket) tif tick negRisk w (log : Log σ),
      t.SoundButToken s.trader s.chain.contracts tif tick → (¬∃ n, Word.SpelledIn t.tokenId n) →
      ∃ e, (s.create t tif tick negRisk).run w log =
        (.error (.invalid (.tokenId t.tokenId e)), log)) ∧
    (∀ owner kind w (log : Log σ),
      (∀ n, ((nonce owner kind).run w log).1 = .ok n ↔
        ∃ text, nonceText owner kind w log.events = .ok text ∧ Word.SpelledIn text n) ∧
      ∀ text, nonceText owner kind w log.events = .ok text → (¬∃ n, Word.SpelledIn text n) →
        ∃ e, ((nonce owner kind).run w log).1 = .error (.nonce text e)) ∧
    (∀ (c : Relay.Client) calls metadata w (log : Log σ), ∃ added,
      ((c.execute calls metadata).run w log).2 = { log with events := log.events ++ added } ∧
      ∀ signer digest, .asked signer digest ∈ added → ∃ text n,
        nonceText c.signer .safe w (log.events ++ [.sent c.deploymentQuestion]) = .ok text ∧
          Word.SpelledIn text n) ∧
    ∀ text, Text.trimChars text.toList ≠ [] → '_' ∉ Text.trimChars text.toList → ∀ n,
      Word.SpelledIn text n ↔ Word.IsNumeral (Text.trimChars text.toList) ∧
        Numeral.value (Text.trimChars text.toList) = n.toNat := by
  refine ⟨fun t trader c tif tick h n => h.build_tokenId, ?_, ?_, execute_asks, ?_⟩
  · intro s t tif tick negRisk w log h hunspelled
    exact OrderSigner.create_unspelled h hunspelled negRisk w log
  · intro owner kind w log
    rw [run_nonce]
    refine ⟨fun n => nonceAnswer_eq_ok, fun text htext hunspelled => ?_⟩
    obtain ⟨e, he⟩ := readNonce_unspelled hunspelled
    exact ⟨e, by rw [nonceAnswer, htext, ok_bind, he]⟩
  · intro text hne hplain n
    exact Word.spelled_iff_of_plain hne hplain

/-! ### Texts that are no numerals -/

/-- One token for a tenth, whichever token. -/
def forToken (text : String) : Ticket where
  tokenId := text
  price := Tick.tenth.value
  size := .one
  side := .buy

def plainSigner : OrderSigner := ⟨⟨.zero, none, .account⟩, .polygon⟩

theorem build_underscored : (forToken "1_000").build plainSigner.trader
    plainSigner.chain.contracts .goodTillCancelled .hundredth =
      .ok ((forToken "1_000").order plainSigner.trader 1000 100000 1000000) := rfl

theorem build_blank : (forToken "").build plainSigner.trader
    plainSigner.chain.contracts .goodTillCancelled .hundredth =
      .ok ((forToken "").order plainSigner.trader 0 100000 1000000) := rfl

theorem forToken_sound (text : String) : (forToken text).SoundButToken plainSigner.trader
    plainSigner.chain.contracts .goodTillCancelled .hundredth :=
  ⟨"1_000", _, build_underscored⟩

theorem signed_numbers_forToken :
    (∃ o, (forToken "1_000").build plainSigner.trader plainSigner.chain.contracts
      .goodTillCancelled .hundredth = .ok o ∧ o.tokenId = 1000) ∧
    (∃ e, (plainSigner.create (forToken "0x10") .goodTillCancelled .hundredth false).run willing
      (⟨(), []⟩ : Log Unit) = (.error (.invalid (.tokenId "0x10" e)), ⟨(), []⟩)) ∧
    ((Relay.Client.nonce .zero .safe).run willing (⟨(), []⟩ : Log Unit)).1 = .ok 0 ∧
    Word.IsNumeral (Text.trimChars "0".toList) := by
  have hunspelled : ¬∃ n, Word.SpelledIn "0x10" n := by
    rintro ⟨n, h, -⟩
    exact absurd (h 'x' (by decide +kernel)) (by decide)
  have hspelled : Word.SpelledIn "0" 0 := Word.read_trim.1 read_trim_zero
  have hdecode : Response.decode Relay.Client.nonceText?
      ⟨200, Bytes.ofString (Json.object [("nonce", .string "0")]).text⟩ = .ok "0" :=
    decode_of_read (by decide) (by rw [Json.parse?_text rfl]; rfl)
  have htext : Relay.Client.nonceText .zero .safe willing [] = .ok "0" := hdecode
  obtain ⟨htoken, hcreate, hnonce, -, hplain⟩ := signed_numbers (σ := Unit)
  refine ⟨?_, ?_, ?_, ?_⟩
  · exact (htoken _ _ _ _ _ (forToken_sound _) 1000).2 (Word.read_trim.1 rfl)
  · exact hcreate plainSigner _ _ _ _ _ _ (forToken_sound _) hunspelled
  · exact ((hnonce .zero .safe willing ⟨(), []⟩).1 0).2 ⟨"0", htext, hspelled⟩
  · exact ((hplain "0" (by decide +kernel) (by decide +kernel) 0).1 hspelled).1

/-- A token is read from digits with an underscore between them and from a blank text, and so is a
nonce. -/
theorem not_only_numerals :
    (∃ o, (forToken "1_000").build plainSigner.trader plainSigner.chain.contracts
        .goodTillCancelled .hundredth = .ok o ∧ o.tokenId = 1000) ∧
    ¬Word.IsNumeral (Text.trimChars "1_000".toList) ∧
    (∃ o, (forToken "").build plainSigner.trader plainSigner.chain.contracts
        .goodTillCancelled .hundredth = .ok o ∧ o.tokenId = 0) ∧
    ¬Word.IsNumeral (Text.trimChars "".toList) ∧
    Relay.Client.readNonce "1_000" = .ok 1000 ∧ Relay.Client.readNonce "" = .ok 0 := by
  refine ⟨⟨_, build_underscored, rfl⟩, ?_, ⟨_, build_blank, rfl⟩, ?_, rfl, rfl⟩
  · rintro ⟨-, h, -⟩
    exact absurd (h '_' (by decide +kernel)) (by decide)
  · rintro ⟨h, -⟩
    exact h rfl

end TradingDesk
