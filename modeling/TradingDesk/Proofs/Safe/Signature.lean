import TradingDesk.Proofs.Bytes.Hex
import TradingDesk.Proofs.Session
import TradingDesk.Proofs.Text.Words
import TradingDesk.Safe.Wallet

/-! Signatures packed for a Safe. The signer is asked to sign the hash of the transaction as a
message of its own, and may write the parity of the signature in either of two styles. In the text
that comes out the parity stands in the last byte, in each style after an offset of its own: a
Safe that is to take the hash as such a message is told so just where the signer's byte had an
offset already. -/

namespace TradingDesk.Safe

/-- A signer writes the parity as it is, or adds 27 to it. -/
inductive ParityStyle where
  | bare
  | offset
deriving DecidableEq

namespace ParityStyle

def parity (odd : Bool) : UInt8 := if odd then 1 else 0

/-- The last byte of what the signer answers. -/
def byte : ParityStyle → (odd : Bool) → UInt8
  | bare, odd => parity odd
  | offset, odd => 27 + parity odd

/-- The last byte of what the Safe is given. To a Safe 31 and 32 say that the signature is one of a
message, 27 and 28 that it is one of the hash itself. -/
def mark : ParityStyle → (odd : Bool) → UInt8
  | bare, odd => 27 + parity odd
  | offset, odd => 31 + parity odd

theorem mark_offset (odd : Bool) : offset.mark odd = bare.mark odd + 4 := by
  cases odd <;> rfl

theorem mem_iff {v : UInt8} : v ∈ [0, 1, 27, 28] ↔ ∃ (style : ParityStyle) (odd : Bool),
    v = style.byte odd := by
  constructor
  · intro h
    simp only [List.mem_cons, List.not_mem_nil, or_false] at h
    rcases h with rfl | rfl | rfl | rfl
    · exact ⟨bare, false, rfl⟩
    · exact ⟨bare, true, rfl⟩
    · exact ⟨offset, false, rfl⟩
    · exact ⟨offset, true, rfl⟩
  · rintro ⟨style, odd, rfl⟩
    cases style <;> cases odd <;> decide

end ParityStyle

open ParityStyle

/-! ### The text of a signature -/

/-- The text is `0x` with two lower-case digits for each of the bytes. -/
def Spells (text : String) (bs : Bytes) : Prop :=
  ∃ ds : List Char, text = String.ofList ('0' :: 'x' :: ds) ∧ ds.length = 2 * bs.length ∧
    (∀ d ∈ ds, d ∈ "0123456789abcdef".toList) ∧ Hex.decode (ds.map Bytes.ofChar) = .ok bs

theorem digit_mem {n : ℕ} (h : n < 16) : Hex.digit n ∈ "0123456789abcdef".toList := by
  have : ∀ m : Fin 16, Hex.digit m ∈ "0123456789abcdef".toList := by decide
  exact this ⟨n, h⟩

theorem spells_encode0x (bs : Bytes) : Spells (Hex.encode0x bs) bs := by
  refine ⟨Hex.encodeChars bs, ?_, ?_, ?_, Hex.decode_eq_ok.2 (Hex.values_encodeChars bs)⟩
  · rw [Hex.encode0x, Hex.encode, show "0x" = String.ofList ['0', 'x'] from rfl,
      ← String.ofList_append]
    rfl
  · rw [Hex.encodeChars_eq, List.length_map, Hex.halves_length]
  · intro d hd
    rw [Hex.encodeChars_eq] at hd
    obtain ⟨n, hn, rfl⟩ := List.mem_map.1 hd
    exact digit_mem (Hex.halves_lt bs n hn)

theorem Spells.inj {text : String} {bs cs : Bytes} (hb : Spells text bs) (hc : Spells text cs) :
    bs = cs := by
  obtain ⟨ds, rfl, -, -, hds⟩ := hb
  obtain ⟨es, htext, -, -, hes⟩ := hc
  have hchars := String.ofList_injective htext
  simp only [List.cons.injEq, true_and] at hchars
  rw [hchars, hes] at hds
  cases hds
  rfl

/-! ### Packing -/

theorem packMark_byte (style : ParityStyle) (odd : Bool) :
    packMark (style.byte odd) = .ok (style.mark odd) := by
  cases style <;> cases odd <;> rfl

theorem packMark_of_notMem {v : UInt8} (h : v ∉ [0, 1, 27, 28]) :
    packMark v = .error (.invalid (.signatureMark v.toNat)) := by
  simp only [List.mem_cons, List.not_mem_nil, or_false, not_or] at h
  rw [packMark, if_neg (by tauto), if_neg (by tauto)]

theorem split_of_length {bs : Bytes} (h : bs.length = 65) :
    ∃ rs v, rs.length = 64 ∧ bs = rs ++ [v] := by
  refine ⟨bs.take 64, bs[64], by rw [List.length_take]; omega, ?_⟩
  rw [← List.take_succ_eq_append_getElem, List.take_of_length_le h.le]

theorem getD_append {rs : Bytes} (h : rs.length = 64) (v : UInt8) :
    (rs ++ [v]).getD 64 0 = v := by
  rw [List.getD_eq_getElem?_getD, ← h, List.getElem?_concat_length]
  rfl

theorem packSignature_append {rs : Bytes} (h : rs.length = 64) (v : UInt8) :
    packSignature (rs ++ [v]) = (packMark v).map fun mark => Hex.encode0x (rs ++ [mark]) := by
  rw [packSignature, if_neg (by simp [h]), getD_append h, List.take_left' h]

/-! ### What a signing comes to -/

/-- What becomes of the `answer` of the signer. -/
def packed (answer : Except Error Bytes) : Except Error String := do
  packSignature (← (Signature.ofBytes (← answer)).mapError .signing).bytes

theorem packed_of_length {bs : Bytes} (h : bs.length = 65) :
    packed (.ok bs) = packSignature bs := by
  rw [packed, ok_bind, Signature.ofBytes, dif_pos h]
  rfl

theorem packed_of_length_ne {bs : Bytes} (h : bs.length ≠ 65) :
    packed (.ok bs) = .error (.signing (.length bs.length)) := by
  rw [packed, ok_bind, Signature.ofBytes, dif_neg h]
  rfl

theorem packed_byte {rs : Bytes} (h : rs.length = 64) (style : ParityStyle) (odd : Bool) :
    packed (.ok (rs ++ [style.byte odd])) = .ok (Hex.encode0x (rs ++ [style.mark odd])) := by
  rw [packed_of_length (by simp [h]), packSignature_append h, packMark_byte]
  rfl

theorem packed_of_notMem {rs : Bytes} (h : rs.length = 64) {v : UInt8} (hv : v ∉ [0, 1, 27, 28]) :
    packed (.ok (rs ++ [v])) = .error (.invalid (.signatureMark v.toNat)) := by
  rw [packed_of_length (by simp [h]), packSignature_append h, packMark_of_notMem hv]
  rfl

/-- A text is made of just those `answer`s that have the length of a signature and end in a parity
in one of the two styles. -/
theorem packed_isOk {answer : Except Error Bytes} : (∃ text, packed answer = .ok text) ↔
    ∃ bs, answer = .ok bs ∧ bs.length = 65 ∧ bs.getD 64 0 ∈ [0, 1, 27, 28] := by
  constructor
  · rintro ⟨text, h⟩
    cases answer with
    | error e => cases h
    | ok bs =>
      by_cases hlength : bs.length = 65
      · obtain ⟨rs, v, hrs, rfl⟩ := split_of_length hlength
        refine ⟨_, rfl, hlength, ?_⟩
        rw [getD_append hrs]
        by_contra hv
        rw [packed_of_notMem hrs hv] at h
        cases h
      · rw [packed_of_length_ne hlength] at h
        cases h
  · rintro ⟨bs, rfl, hlength, hmark⟩
    obtain ⟨rs, v, hrs, rfl⟩ := split_of_length hlength
    rw [getD_append hrs, mem_iff] at hmark
    obtain ⟨style, odd, rfl⟩ := hmark
    exact ⟨_, packed_byte hrs style odd⟩

variable {σ : Type} {c : SafeCall} {value : Word} {data : Bytes}

theorem message_of_read (hvalue : c.valueWord = .ok value) (hdata : c.dataBytes = .ok data)
    (nonce : Word) : c.message nonce = .ok {
      target := c.target
      value := value
      data := data
      operation := c.operation.code
      nonce := nonce } := by
  rw [SafeCall.message, hvalue, hdata]
  rfl

theorem run_sign {t : SafeTx} {nonce : Word} (h : c.message nonce = .ok t) (signer : Address)
    (chainId : UInt64) (safe : Address) (w : World) (log : Log σ) :
    (sign c signer chainId safe nonce).run w log =
      (packed (w.sign log.events signer (t.digest chainId safe)),
        { log with events := log.events ++ [.asked signer (t.digest chainId safe)] }) := by
  rw [sign, h, Session.run_bind, Session.run_ofExcept]
  dsimp only
  rw [Session.run_bind, Session.run_signature, packed]
  cases w.sign log.events signer (t.digest chainId safe) with
  | error e => rfl
  | ok bs =>
    rw [ok_bind, ok_bind]
    cases Signature.ofBytes bs with
    | error e => rfl
    | ok g => exact Session.run_ofExcept ..

/-- The `signer` is asked once, for the hash of the transaction `t` as a message. A text comes out
just where the answer is a signature with a parity in one of the two styles; the text holds all of
it but its last byte, and in place of that the `mark` of the parity for that style. Two signers of
one signature who write its parity in different styles get texts whose last bytes differ by 4. -/
theorem sign_spells (hvalue : c.valueWord = .ok value) (hdata : c.dataBytes = .ok data)
    (signer : Address) (chainId : UInt64) (safe : Address) (nonce : Word) (w : World)
    (log : Log σ) :
    let t : SafeTx := {
      target := c.target
      value := value
      data := data
      operation := c.operation.code
      nonce := nonce }
    let digest := personalHash (t.typedHash chainId safe)
    let answer := w.sign log.events signer digest
    let outcome := (sign c signer chainId safe nonce).run w log
    outcome.2 = { log with events := log.events ++ [.asked signer digest] } ∧
    ((∃ text, outcome.1 = .ok text) ↔
      ∃ bs, answer = .ok bs ∧ bs.length = 65 ∧ bs.getD 64 0 ∈ [0, 1, 27, 28]) ∧
    (∀ rs style odd, rs.length = 64 → answer = .ok (rs ++ [byte style odd]) →
      ∃ text, outcome.1 = .ok text ∧ Spells text (rs ++ [mark style odd])) ∧
    (∀ rs odd (w' : World), rs.length = 64 → answer = .ok (rs ++ [byte .bare odd]) →
      w'.sign log.events signer digest = .ok (rs ++ [byte .offset odd]) →
      ∃ text text' last, outcome.1 = .ok text ∧
        ((sign c signer chainId safe nonce).run w' log).1 = .ok text' ∧
        Spells text (rs ++ [last]) ∧ Spells text' (rs ++ [last + 4])) ∧
    (∀ e, answer = .error e → outcome.1 = .error e) ∧
    (∀ bs, answer = .ok bs → bs.length ≠ 65 →
      outcome.1 = .error (.signing (.length bs.length))) ∧
    (∀ rs v, rs.length = 64 → answer = .ok (rs ++ [v]) → v ∉ [0, 1, 27, 28] →
      outcome.1 = .error (.invalid (.signatureMark v.toNat))) := by
  intro t digest answer outcome
  have hsign (v : World) : (sign c signer chainId safe nonce).run v log =
      (packed (v.sign log.events signer digest),
        { log with events := log.events ++ [.asked signer digest] }) :=
    run_sign (message_of_read hvalue hdata nonce) signer chainId safe v log
  have hrun : outcome = (packed answer, _) := hsign w
  rw [hrun]
  refine ⟨rfl, packed_isOk, ?_, ?_, ?_, ?_, ?_⟩
  · intro rs style odd hrs hanswer
    exact ⟨_, by rw [hanswer, packed_byte hrs], spells_encode0x _⟩
  · intro rs odd w' hrs hanswer hanswer'
    have hoffset : ((sign c signer chainId safe nonce).run w' log).1 =
        .ok (Hex.encode0x (rs ++ [bare.mark odd + 4])) := by
      rw [hsign, hanswer', packed_byte hrs, mark_offset]
    exact ⟨_, _, bare.mark odd, by rw [hanswer, packed_byte hrs], hoffset, spells_encode0x _,
      spells_encode0x _⟩
  · intro e hanswer
    rw [hanswer]
    rfl
  · intro bs hanswer hlength
    rw [hanswer, packed_of_length_ne hlength]
  · intro rs v hrs hanswer hv
    rw [hanswer, packed_of_notMem hrs hv]

/-! ### Two signers of one signature -/

def ones : Bytes := List.replicate 64 0x11

/-- Every signature is the same but for its last byte. -/
def answering (v : UInt8) : World where
  respond _ _ := .error (.signing .noSignature)
  sign _ _ _ := .ok (ones ++ [v])
  clock _ := 0
  random _ := 0

/-- A call of nobody, with three bytes of data. -/
def shortCall : SafeCall := .plain .zero [1, 2, 3]

theorem shortCall_valueWord : shortCall.valueWord = .ok 0 := by
  rw [shortCall, SafeCall.plain, SafeCall.valueWord, read_trim_zero]

theorem shortCall_dataBytes : shortCall.dataBytes = .ok [1, 2, 3] := by
  rw [shortCall, SafeCall.plain, SafeCall.dataBytes, Hex.decode_encode0x]

theorem sign_spells_shortCall :
    shortCall.valueWord = .ok 0 ∧ shortCall.dataBytes = .ok [1, 2, 3] ∧
    ∃ text, ((sign shortCall .zero 137 .zero 0).run (answering 28) ⟨(), []⟩).1 = .ok text ∧
      Spells text (ones ++ [32]) := by
  obtain ⟨-, -, htext, -⟩ := sign_spells shortCall_valueWord shortCall_dataBytes .zero 137 .zero 0
    (answering 28) ⟨(), []⟩
  exact ⟨shortCall_valueWord, shortCall_dataBytes, htext _ .offset true (by simp [ones]) rfl⟩

theorem run_sign_shortCall (style : ParityStyle) (odd : Bool) :
    ((sign shortCall .zero 137 .zero 0).run (answering (style.byte odd)) ⟨(), []⟩).1 =
      .ok (Hex.encode0x (ones ++ [style.mark odd])) := by
  rw [run_sign (message_of_read shortCall_valueWord shortCall_dataBytes 0)]
  exact packed_byte (by simp [ones]) style odd

/-- The text has not always the last byte of a signed message, nor does it depend on the parity
alone: an even parity that the signer writes as 0 comes out as 27, one that it writes as 27 comes
out as 31. -/
theorem bare_parity_unmarked : ∃ bare offset : String,
    ((sign shortCall .zero 137 .zero 0).run (answering 0) ⟨(), []⟩).1 = .ok bare ∧
    ((sign shortCall .zero 137 .zero 0).run (answering 27) ⟨(), []⟩).1 = .ok offset ∧
    Spells bare (ones ++ [27]) ∧
    ¬ Spells bare (ones ++ [31]) ∧
    Spells offset (ones ++ [31]) ∧ bare ≠ offset := by
  have hbare := spells_encode0x (ones ++ [27])
  have hoffset := spells_encode0x (ones ++ [31])
  have hmark : ones ++ [27] ≠ ones ++ [31] :=
    fun h => absurd (List.append_cancel_left h) (by decide)
  refine ⟨_, _, run_sign_shortCall .bare false, run_sign_shortCall .offset false, hbare, ?_,
    hoffset, ?_⟩
  · intro h
    exact hmark (hbare.inj h)
  · intro h
    have hsame : Hex.encode0x (ones ++ [27]) = Hex.encode0x (ones ++ [31]) := h
    rw [← hsame] at hoffset
    exact hmark (hbare.inj hoffset)

end TradingDesk.Safe
