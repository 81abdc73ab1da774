import TradingDesk.Proofs.Auth.Requests
import TradingDesk.Proofs.Json.Text
import TradingDesk.Proofs.Text.Words
import TradingDesk.Proofs.TypedData.Digest

/-! What a submission tells of the message that was signed. The relayer has the body and nothing
else. It finds all of a request for a Safe there. Of a transaction one thing is missing, the value
that a single call sends: the body has no member for it. Several calls have their values in the
data, and the call that makes them sends none. -/

namespace TradingDesk

open Session Json

namespace Json

/-! ### Reading members -/

@[simp] theorem member?_cons_self (name : String) (j : Json) (ms : List (String × Json)) :
    (object ((name, j) :: ms)).member? name = some j := by
  rw [member?, List.lookup_cons_self]

@[simp] theorem member?_cons_of_ne {name key : String} (h : name ≠ key) (j : Json)
    (ms : List (String × Json)) :
    (object ((key, j) :: ms)).member? name = (object ms).member? name := by
  rw [member?, List.lookup_cons, beq_false_of_ne h, member?]

def textAt? (j : Json) (name : String) : Option String := j.member? name >>= text?

def wordAt? (j : Json) (name : String) : Option Word := do
  (Word.read (← j.textAt? name)).toOption

def addressAt? (j : Json) (name : String) : Option Address :=
  j.textAt? name >>= Address.ofChecksummed?

def codeAt? (j : Json) (name : String) : Option UInt8 := do
  return UInt8.ofNat (← Numeral.below8? (← j.textAt? name))

def bytesAt? (j : Json) (name : String) : Option Bytes := do
  (Hex.decode (Hex.dropMarks (Bytes.ofString (← j.textAt? name)))).toOption

def ofBody? (body : String) : Option Json := parse? (Bytes.ofString body)

/-- Two bodies of which nothing but the member `name` may differ. -/
def AgreeBut (name : String) (body other : String) : Prop :=
  ∃ j k, ofBody? body = some j ∧ ofBody? other = some k ∧
    ∀ n, n ≠ name → j.member? n = k.member? n

end Json

/-! ### Reading a submission -/

/-- The transaction that `body` tells of, but for its `value`. -/
def SafeTx.told? (value : Word) (body : Json) : Option SafeTx := do
  let params ← body.member? "signatureParams"
  return {
    target := ← body.addressAt? "to"
    value := value
    data := ← body.bytesAt? "data"
    operation := ← params.codeAt? "operation"
    safeTxGas := ← params.wordAt? "safeTxnGas"
    baseGas := ← params.wordAt? "baseGas"
    gasPrice := ← params.wordAt? "gasPrice"
    gasToken := ← params.addressAt? "gasToken"
    refundReceiver := ← params.addressAt? "refundReceiver"
    nonce := ← body.wordAt? "nonce" }

/-- The request for a Safe that `body` tells of. -/
def CreateProxy.told? (body : Json) : Option CreateProxy := do
  let params ← body.member? "signatureParams"
  return {
    paymentToken := ← params.addressAt? "paymentToken"
    payment := ← params.wordAt? "payment"
    paymentReceiver := ← params.addressAt? "paymentReceiver" }

theorem SafeCall.decode_of_dataBytes {call : SafeCall} {data : Bytes}
    (h : call.dataBytes = .ok data) :
    Hex.decode (Hex.dropMarks (Bytes.ofString call.data)) = .ok data := by
  unfold dataBytes at h
  split at h
  · cases h
    assumption
  · cases h

/-- What a single call sends; several calls say in their data what each of them sends. -/
def loneValue : List SafeCall → Except Error Word
  | [c] => c.valueWord
  | _ => .ok 0

namespace Relay.Client

variable (c : Client)

theorem toJson_executeSubmission (call : SafeCall) (nonce : Word) (signature metadata : String) :
    (c.executeSubmission call nonce signature metadata).toJson = object [
      ("type", string "SAFE"), ("from", string c.signer.checksummed),
      ("to", string call.target.checksummed),
      ("proxyWallet", string (c.safeOf c.signer).checksummed), ("data", string call.data),
      ("nonce", string nonce.toText), ("signature", string signature),
      ("signatureParams", object [("gasPrice", string "0"),
        ("operation", string (Numeral.ofNat call.operation.code.toNat)),
        ("safeTxnGas", string "0"), ("baseGas", string "0"),
        ("gasToken", string Address.zero.checksummed),
        ("refundReceiver", string Address.zero.checksummed)]),
      ("metadata", string metadata)] := rfl

theorem toJson_deploySubmission (signature : String) :
    (c.deploySubmission signature).toJson = object [
      ("type", string "SAFE-CREATE"), ("from", string c.signer.checksummed),
      ("to", string c.chain.contracts.safeFactory.checksummed),
      ("proxyWallet", string (c.safeOf c.signer).checksummed), ("data", string "0x"),
      ("signature", string signature),
      ("signatureParams", object [("paymentToken", string Address.zero.checksummed),
        ("payment", string "0"), ("paymentReceiver", string Address.zero.checksummed)])] := rfl

theorem told?_executeSubmission {call : SafeCall} {nonce : Word} {t : SafeTx}
    (h : call.message nonce = .ok t) (signature metadata : String) :
    SafeTx.told? t.value (c.executeSubmission call nonce signature metadata).toJson = some t := by
  obtain ⟨value, -, hrest⟩ := bind_eq_ok.1 h
  obtain ⟨data, hdata, hpure⟩ := bind_eq_ok.1 hrest
  cases hpure
  rw [toJson_executeSubmission]
  have hzero : Word.read "0" = .ok 0 := rfl
  -- with steps left to definitional equality the zero address would be computed
  simp -implicitDefEqProofs [SafeTx.told?, addressAt?, bytesAt?, codeAt?, wordAt?, textAt?, text?,
    Except.toOption, Address.ofChecksummed?_checksummed, SafeCall.decode_of_dataBytes hdata,
    Numeral.below8?_ofNat, Word.read_toText, hzero]

theorem told?_deploySubmission (signature : String) :
    CreateProxy.told? (c.deploySubmission signature).toJson = some {} := by
  have hzero : Word.read "0" = .ok 0 := rfl
  rw [toJson_deploySubmission]
  simp -implicitDefEqProofs [CreateProxy.told?, addressAt?, wordAt?, textAt?, text?,
    Except.toOption, Address.ofChecksummed?_checksummed, hzero]

end Relay.Client

/-! ### What is signed and what is submitted -/

variable {σ α β : Type}

/-- Among the `events` the signer is asked for a signature of `digest` and `body` is submitted. -/
def Submitted (events : List Event) (digest : Word) (body : String) : Prop :=
  (∃ signer, .asked signer digest ∈ events) ∧
    ∃ r, .sent r ∈ events ∧ r.method = .post ∧ r.path = "/submit" ∧ r.body = some body

def Submits (s : Session σ α) (w : World) (log : Log σ) (digest : Word) (body : String) : Prop :=
  ∃ added, (s.run w log).2 = { log with events := log.events ++ added } ∧
    Submitted added digest body

/-- No signature is asked for, and if something is submitted then with `T`. -/
def OnlySubmits (T : String → Prop) : Event → Prop
  | .asked _ _ => False
  | .sent r => r.path = "/submit" → ∀ body, r.body = some body → T body
  | _ => True

def Unheard : Event → Prop := OnlySubmits fun _ => False

/-- What is signed and what is submitted are as `R` says. -/
def Pairs (st : σ) (R : Word → String → Prop) (s : Session σ α) : Prop :=
  ∀ (w : World) (events : List Event), ∃ added,
    (s.run w ⟨st, events⟩).2 = ⟨st, events ++ added⟩ ∧
      ∀ digest body, Submitted added digest body → R digest body

theorem not_submitted {events : List Event} (h : ∀ e ∈ events, Unheard e) (digest : Word)
    (body : String) : ¬Submitted events digest body := by
  rintro ⟨⟨signer, hasked⟩, -⟩
  exact h _ hasked

theorem submitted_append {events added : List Event} {digest : Word} {body : String}
    (h : ∀ e ∈ events, Unheard e) (hsubmitted : Submitted (events ++ added) digest body) :
    Submitted added digest body := by
  obtain ⟨⟨signer, hasked⟩, r, hsent, hmethod, hpath, hbody⟩ := hsubmitted
  refine ⟨⟨signer, ?_⟩, r, ?_, hmethod, hpath, hbody⟩
  · exact (List.mem_append.1 hasked).resolve_left fun hmem => h _ hmem
  · exact (List.mem_append.1 hsent).resolve_left fun hmem => h _ hmem hpath body hbody

namespace Pairs

variable {st : σ} {R : Word → String → Prop} {s : Session σ α} {Q : α → Prop}

theorem bind {f : α → Session σ β} (h : Keeps st Unheard s Q)
    (hf : ∀ a, Q a → Pairs st R (f a)) : Pairs st R (s >>= f) := by
  intro w events
  obtain ⟨added, hlog, hadded, hresult⟩ := h w events
  rw [run_bind]
  rcases hrun : s.run w ⟨st, events⟩ with ⟨r, next⟩
  rw [hrun] at hlog hresult
  obtain rfl : next = ⟨st, events ++ added⟩ := hlog
  cases r with
  | ok a =>
    obtain ⟨more, hlog, hmore⟩ := hf a (hresult a rfl) w (events ++ added)
    refine ⟨added ++ more, by rw [hlog, List.append_assoc], fun digest body hsubmitted => ?_⟩
    exact hmore digest body (submitted_append hadded hsubmitted)
  | error e =>
    exact ⟨added, rfl, fun digest body hsubmitted =>
      absurd hsubmitted (not_submitted hadded digest body)⟩

/-- The one `digest` that is signed goes with all that is submitted after it. -/
theorem signature {signer : Address} {digest : Word} {f : Signature → Session σ β}
    (hf : ∀ g, Keeps st (OnlySubmits (R digest)) (f g) fun _ => True) :
    Pairs st R (Session.signature signer digest >>= f) := by
  intro w events
  rw [run_bind, run_signature]
  cases (do (Signature.ofBytes (← w.sign events signer digest)).mapError .signing :
      Except Error Signature) with
  | error e =>
    refine ⟨[.asked signer digest], rfl, ?_⟩
    rintro d body ⟨-, r, hsent, -⟩
    simp at hsent
  | ok g =>
    obtain ⟨more, hlog, hmore, -⟩ := hf g w (events ++ [.asked signer digest])
    refine ⟨.asked signer digest :: more, by rw [hlog, List.append_assoc]; rfl, ?_⟩
    rintro d body ⟨⟨other, hasked⟩, r, hsent, -, hpath, hbody⟩
    have hbody := hmore _ (List.mem_of_ne_of_mem (by simp) hsent) hpath body hbody
    rcases List.mem_cons.1 hasked with heq | hmem
    · cases heq
      exact hbody
    · exact (hmore _ hmem).elim

theorem guarded {p : Prop} [Decidable p] {e : Error} (h : Pairs st R s) :
    Pairs st R (if p then MonadExcept.throw e >>= fun (_ : PUnit) => s else s) := by
  split
  · exact bind (Keeps.throw (Q := fun _ => False) e) fun _ hfalse => hfalse.elim
  · exact h

theorem of_submits {w : World} {log : Log σ} {digest : Word} {body : String}
    (h : Pairs log.state R s) (hsubmits : Submits s w log digest body) : R digest body := by
  obtain ⟨added, hlog, hsubmitted⟩ := hsubmits
  obtain ⟨more, hlog', hmore⟩ := h w log.events
  have hadded : added = more := List.append_cancel_left
    (congrArg Log.events (hlog.symm.trans hlog'))
  exact hmore digest body (hadded ▸ hsubmitted)

end Pairs

namespace Relay.Client

variable (c : Client) {st : σ}

theorem unheard_get {path : String} (h : path ≠ "/submit") (query : List (String × String)) :
    Unheard (.sent (.get path query)) :=
  fun hpath => absurd hpath h

theorem submit_keeps_body (b : Credentials) (s : Submission) {T : String → Prop}
    (h : T s.toJson.text) : Keeps st (OnlySubmits T) (submit b s) fun _ => True := by
  refine (Keeps.now trivial).bind fun time _ => ?_
  refine (Keeps.ofExcept fun _ _ => trivial).bind fun hs _ => ?_
  refine .fetch ?_ _
  rintro - body ⟨⟩
  exact h

/-- The message with `digest` is that of the call made of `calls`, and `body` tells of that call. -/
def Executed (calls : List SafeCall) (metadata : String) (digest : Word) (body : String) : Prop :=
  ∃ call nonce t signature,
    SafeCall.aggregate calls c.chain.contracts.safeMultisend = .ok call ∧
    call.message nonce = .ok t ∧ digest = t.digest c.chain.id (c.safeOf c.signer) ∧
    body = (c.executeSubmission call nonce signature metadata).toJson.text

theorem execute_pairs (calls : List SafeCall) (metadata : String) :
    Pairs st (c.Executed calls metadata) (c.execute calls metadata) := by
  refine .bind (.ofExcept fun _ _ => trivial) fun b _ => ?_
  refine .bind (.ofExcept fun call hcall => hcall) fun call hcall => ?_
  refine .bind (deployed_keeps (unheard_get (by decide)) _) fun found _ => .guarded ?_
  refine .bind (nonce_keeps (unheard_get (by decide)) _ _) fun nonce _ => ?_
  rw [Safe.sign]
  simp only [bind_assoc]
  refine .bind (.ofExcept fun t ht => ht) fun t ht => ?_
  refine .signature fun g => (Keeps.ofExcept fun _ _ => trivial).bind fun signature _ => ?_
  exact submit_keeps_body b _ ⟨call, nonce, t, signature, hcall, ht, rfl, rfl⟩

/-- The message with `digest` is the one request for a Safe that there is, and `body` tells of it.
-/
def Deployed (digest : Word) (body : String) : Prop :=
  digest = ({} : CreateProxy).digest c.chain.id c.chain.contracts.safeFactory ∧
    ∃ signature, body = (c.deploySubmission signature).toJson.text

theorem deploy_pairs : Pairs st c.Deployed c.deploy := by
  refine .bind (.ofExcept fun _ _ => trivial) fun b _ => ?_
  refine .bind (deployed_keeps (unheard_get (by decide)) _) fun found _ => .guarded ?_
  rw [signCreateProxy]
  simp only [bind_assoc]
  refine .signature fun g => (Keeps.pure (Q := fun _ => True) trivial).bind fun signature _ => ?_
  exact submit_keeps_body b _ ⟨rfl, signature, rfl⟩

end Relay.Client

/-! ### What the relayer can tell -/

theorem SafeCall.valueWord_batch (packed : Bytes) (multisend : Address) :
    (batch packed multisend).valueWord = .ok 0 := by
  rw [valueWord, batch, read_trim_zero]

theorem SafeCall.valueWord_of_aggregate {calls : List SafeCall} {multisend : Address}
    {call : SafeCall} (h : aggregate calls multisend = .ok call) :
    call.valueWord = loneValue calls := by
  cases calls with
  | nil => cases h
  | cons c r =>
    cases r with
    | nil =>
      cases h
      rfl
    | cons d r =>
      obtain ⟨packed, -, rfl⟩ := map_eq_ok.1 h
      exact valueWord_batch packed multisend

theorem SafeCall.value_of_message {call : SafeCall} {nonce : Word} {t : SafeTx}
    (h : call.message nonce = .ok t) : call.valueWord = .ok t.value := by
  obtain ⟨value, hvalue, hrest⟩ := bind_eq_ok.1 h
  obtain ⟨data, -, hpure⟩ := bind_eq_ok.1 hrest
  cases hpure
  exact hvalue

/-- The transaction is read without a look at the signature. -/
theorem SafeTx.told?_congr {j k : Json} (h : ∀ n, n ≠ "signature" → j.member? n = k.member? n)
    (value : Word) : told? value j = told? value k := by
  simp only [told?, addressAt?, bytesAt?, wordAt?, textAt?, h, ne_eq, String.reduceEq,
    not_false_eq_true]

namespace Relay.Client

variable (c : Client)

theorem told_of_executed {calls : List SafeCall} {metadata : String} {digest : Word}
    {body : String} (h : c.Executed calls metadata digest body) :
    ∃ j value t, ofBody? body = some j ∧ loneValue calls = .ok value ∧
      SafeTx.told? value j = some t ∧ j.addressAt? "proxyWallet" = some (c.safeOf c.signer) ∧
      t.digest c.chain.id (c.safeOf c.signer) = digest := by
  obtain ⟨call, nonce, t, signature, hcall, ht, rfl, rfl⟩ := h
  refine ⟨_, t.value, t, parse?_text ?_, ?_, c.told?_executeSubmission ht signature metadata, ?_,
    rfl⟩
  · rfl
  · rw [← SafeCall.valueWord_of_aggregate hcall, SafeCall.value_of_message ht]
  · rw [toJson_executeSubmission]
    simp -implicitDefEqProofs [addressAt?, textAt?, text?, Address.ofChecksummed?_checksummed]

theorem told_of_deployed {digest : Word} {body : String} (h : c.Deployed digest body) :
    ∃ j p, ofBody? body = some j ∧ CreateProxy.told? j = some p ∧
      j.addressAt? "to" = some c.chain.contracts.safeFactory ∧
      p.digest c.chain.id c.chain.contracts.safeFactory = digest := by
  obtain ⟨rfl, signature, rfl⟩ := h
  refine ⟨_, {}, parse?_text ?_, c.told?_deploySubmission signature, ?_, rfl⟩
  · rfl
  · rw [toJson_deploySubmission]
    simp -implicitDefEqProofs [addressAt?, textAt?, text?, Address.ofChecksummed?_checksummed]

theorem digest_of_executed {calls others : List SafeCall} {metadata further : String}
    {digest digest' : Word} {body other : String} (h : c.Executed calls metadata digest body)
    (h' : c.Executed others further digest' other) (hvalue : loneValue calls = loneValue others)
    (hagree : AgreeBut "signature" body other) : digest = digest' := by
  obtain ⟨j, value, t, hj, hlone, ht, -, rfl⟩ := c.told_of_executed h
  obtain ⟨k, value', t', hk, hlone', ht', -, rfl⟩ := c.told_of_executed h'
  obtain ⟨j', k', hj', hk', hmembers⟩ := hagree
  obtain rfl : j = j' := Option.some.inj (hj.symm.trans hj')
  obtain rfl : k = k' := Option.some.inj (hk.symm.trans hk')
  obtain rfl : value = value' := Except.ok.inj (hlone.symm.trans (hvalue.trans hlone'))
  rw [SafeTx.told?_congr hmembers, ht'] at ht
  cases ht
  rfl

end Relay.Client

/-- A `body` tells of the message whose `digest` was signed: a request for a Safe is all in it, and
so is a transaction but for the `loneValue` of its calls. -/
theorem submissions_tell (c : Relay.Client) :
    (∀ calls metadata w (log : Log σ) digest body,
      Submits (c.execute calls metadata) w log digest body →
      ∃ j value t, ofBody? body = some j ∧ loneValue calls = .ok value ∧
        SafeTx.told? value j = some t ∧ j.addressAt? "proxyWallet" = some (c.safeOf c.signer) ∧
        t.digest c.chain.id (c.safeOf c.signer) = digest) ∧
    (∀ calls others metadata further w w' (log log' : Log σ) digest digest' body other,
      Submits (c.execute calls metadata) w log digest body →
      Submits (c.execute others further) w' log' digest' other →
      loneValue calls = loneValue others → AgreeBut "signature" body other →
      digest = digest') ∧
    (∀ w (log : Log σ) digest body, Submits c.deploy w log digest body →
      ∃ j p, ofBody? body = some j ∧ CreateProxy.told? j = some p ∧
        j.addressAt? "to" = some c.chain.contracts.safeFactory ∧
        p.digest c.chain.id c.chain.contracts.safeFactory = digest) ∧
    ∀ w w' (log log' : Log σ) digest digest' body other,
      Submits c.deploy w log digest body → Submits c.deploy w' log' digest' other →
      digest = digest' := by
  refine ⟨?_, ?_, ?_, ?_⟩
  · intro calls metadata w log digest body h
    exact c.told_of_executed ((c.execute_pairs calls metadata).of_submits h)
  · intro calls others metadata further w w' log log' digest digest' body other h h' hvalue hagree
    exact c.digest_of_executed ((c.execute_pairs calls metadata).of_submits h)
      ((c.execute_pairs others further).of_submits h') hvalue hagree
  · intro w log digest body h
    exact c.told_of_deployed (c.deploy_pairs.of_submits h)
  · intro w w' log log' digest digest' body other h h'
    rw [(c.deploy_pairs.of_submits h).1, (c.deploy_pairs.of_submits h').1]

/-! ### Two runs -/

/-- A service with a Safe that has made no transaction yet, and a signer who signs all. -/
def willing : World where
  respond := fun _ r => .ok ⟨200, Bytes.ofString (if r.path = "/nonce"
    then (object [("nonce", string "0")]).text else (object [("deployed", bool true)]).text)⟩
  sign := fun _ _ _ => .ok (List.replicate 65 27)
  clock := fun _ => 1700000000
  random := fun _ => 0

/-- The signature of the willing signer as a Safe takes it. -/
def willingSignature : String := Hex.encode0x (List.replicate 64 27 ++ [31])

theorem submits_post {s : Session σ α} {w : World} {st : σ} {signer : Address} {digest : Word}
    {body : String} {hs : Headers} (before : List Event)
    (h : (s.run w ⟨st, []⟩).2 = ⟨st, before ++ [.asked signer digest, .clockRead,
      .sent ((Request.post "/submit" body).withHeaders hs)]⟩) :
    Submits s w ⟨st, []⟩ digest body := by
  refine ⟨_, h, ⟨signer, by simp⟩, (Request.post "/submit" body).withHeaders hs, by simp, rfl, rfl,
    rfl⟩

theorem deploy_submits : ∃ digest body,
    Submits (relaying.deploy : Session Unit _) obliging ⟨(), []⟩ digest body := by
  obtain ⟨digest, r, body, hs, hrun⟩ := deploy_sends
  exact ⟨digest, body, submits_post [.sent r] hrun⟩

theorem execute_submits {calls : List SafeCall} {call : SafeCall} {t : SafeTx}
    (hcall : SafeCall.aggregate calls relaying.chain.contracts.safeMultisend = .ok call)
    (ht : call.message 0 = .ok t) (metadata : String) :
    Submits (relaying.execute calls metadata : Session Unit _) willing ⟨(), []⟩
      (t.digest relaying.chain.id (relaying.safeOf relaying.signer))
      (relaying.executeSubmission call 0 willingSignature metadata).toJson.text := by
  have hbuilder : relaying.requireBuilder = .ok keyed := rfl
  have hdeployed : Response.decode Relay.Client.deployed?
      ⟨200, Bytes.ofString (object [("deployed", bool true)]).text⟩ = .ok true :=
    decode_of_read (by decide) (by rw [parse?_text rfl]; rfl)
  have hnonce : Response.decode Relay.Client.nonceText?
      ⟨200, Bytes.ofString (object [("nonce", string "0")]).text⟩ = .ok "0" :=
    decode_of_read (by decide) (by rw [parse?_text rfl]; rfl)
  have hzero : Relay.Client.readNonce "0" = .ok 0 := by
    rw [Relay.Client.readNonce, read_trim_zero]
  have hg : Signature.ofBytes (List.replicate 65 27) = .ok ⟨List.replicate 65 27, rfl⟩ := rfl
  have hpack : Safe.packSignature (List.replicate 65 27) = .ok willingSignature := rfl
  have hrun : ∃ before hs,
      ((relaying.execute calls metadata : Session Unit _).run willing ⟨(), []⟩).2 =
        ⟨(), before ++ [.asked relaying.signer
          (t.digest relaying.chain.id (relaying.safeOf relaying.signer)), .clockRead,
          .sent ((Request.post "/submit"
            (relaying.executeSubmission call 0 willingSignature metadata).toJson.text).withHeaders
              hs)]⟩ := by
    simp only [Relay.Client.execute, hbuilder, hcall, Relay.Client.deployed, Relay.Client.nonce,
      Safe.sign, ht, run_bind, run_ofExcept, run_fetch, willing, Request.get, String.reduceEq,
      ↓reduceIte, ok_bind, hdeployed, Bool.not_true, Bool.false_eq_true, hnonce, hzero,
      run_signature, hg, Except.mapError, hpack, Relay.Client.submit, run_now,
      Auth.builderHeaders_eq, sign_keyed, Except.map]
    exact ⟨[.sent _, .sent _], _, rfl⟩
  obtain ⟨before, hs, hrun⟩ := hrun
  exact submits_post before hrun

/-- A call of nobody, without data. -/
def bareCall (value : String) : SafeCall := ⟨.zero, .call, "0x", value⟩

def bareTx (value : Word) : SafeTx where
  target := .zero
  value := value
  data := []
  operation := 0
  nonce := 0

theorem bareCall_message {text : String} {value : Word}
    (h : Word.read (Text.trim text) = .ok value) :
    (bareCall text).message 0 = .ok (bareTx value) := by
  have hvalue : (bareCall text).valueWord = .ok value := by rw [SafeCall.valueWord, bareCall, h]
  rw [SafeCall.message, hvalue]
  rfl

theorem read_trim_one : Word.read (Text.trim "1") = .ok 1 := by
  have htrim : Text.trim "1" = "1" := trim_singleton (c := '1') rfl
  rw [htrim]
  rfl

theorem read_trim_blank : Word.read (Text.trim "") = .ok 0 := by
  have htrim : Text.trim "" = "" := by simp [Text.trim, Text.trimChars, Text.trimStart]
  rw [htrim]
  rfl

theorem bareCall_submits {text : String} {value : Word}
    (h : Word.read (Text.trim text) = .ok value) :
    Submits (relaying.execute [bareCall text] "" : Session Unit _) willing ⟨(), []⟩
      ((bareTx value).digest relaying.chain.id (relaying.safeOf relaying.signer))
      (relaying.executeSubmission (bareCall text) 0 willingSignature "").toJson.text :=
  execute_submits rfl (bareCall_message h) ""

/-- A call with a value, a call without one that is spelled in two ways, and a request for a
Safe. -/
theorem submissions_tell_bareCall :
    (∃ digest body j t,
      Submits (relaying.execute [bareCall "1"] "" : Session Unit _) willing ⟨(), []⟩ digest body ∧
      ofBody? body = some j ∧ SafeTx.told? 1 j = some t ∧
      t.digest relaying.chain.id (relaying.safeOf relaying.signer) = digest) ∧
    (∃ digest digest' body other,
      Submits (relaying.execute [bareCall "0"] "" : Session Unit _) willing ⟨(), []⟩ digest body ∧
      Submits (relaying.execute [bareCall ""] "" : Session Unit _) willing ⟨(), []⟩ digest'
        other ∧ AgreeBut "signature" body other ∧ digest = digest') ∧
    ∃ digest body j p,
      Submits (relaying.deploy : Session Unit _) obliging ⟨(), []⟩ digest body ∧
      ofBody? body = some j ∧ CreateProxy.told? j = some p ∧
      p.digest relaying.chain.id relaying.chain.contracts.safeFactory = digest := by
  refine ⟨?_, ?_, ?_⟩
  · have hone := bareCall_submits read_trim_one
    obtain ⟨j, value, t, hj, hlone, ht, -, hdigest⟩ :=
      (submissions_tell relaying).1 _ _ _ _ _ _ hone
    have hvalue : loneValue [bareCall "1"] = .ok 1 := by
      rw [loneValue, SafeCall.valueWord, bareCall, read_trim_one]
    obtain rfl : value = 1 := Except.ok.inj (hlone.symm.trans hvalue)
    exact ⟨_, _, j, t, hone, hj, ht, hdigest⟩
  · have hzero := bareCall_submits read_trim_zero
    have hblank := bareCall_submits read_trim_blank
    obtain ⟨j, -, -, hj, -⟩ := (submissions_tell relaying).1 _ _ _ _ _ _ hzero
    have hagree : AgreeBut "signature"
        (relaying.executeSubmission (bareCall "0") 0 willingSignature "").toJson.text
        (relaying.executeSubmission (bareCall "") 0 willingSignature "").toJson.text :=
      ⟨j, j, hj, hj, fun _ _ => rfl⟩
    have hvalue : loneValue [bareCall "0"] = loneValue [bareCall ""] := by
      rw [loneValue, loneValue, SafeCall.valueWord, SafeCall.valueWord, bareCall, bareCall,
        read_trim_zero, read_trim_blank]
    exact ⟨_, _, _, _, hzero, hblank, hagree,
      (submissions_tell relaying).2.1 _ _ _ _ _ _ _ _ _ _ _ _ hzero hblank hvalue hagree⟩
  · obtain ⟨digest, body, hdeploys⟩ := deploy_submits
    obtain ⟨j, p, hj, hp, -, hdigest⟩ := (submissions_tell relaying).2.2.1 _ _ _ _ hdeploys
    exact ⟨digest, body, j, p, hdeploys, hj, hp, hdigest⟩

theorem bareTx_digest_ne :
    (bareTx 0).digest relaying.chain.id (relaying.safeOf relaying.signer) ≠
      (bareTx 1).digest relaying.chain.id (relaying.safeOf relaying.signer) := by
  simp only [SafeTx.digest, SafeTx.typedHash, SafeTx.hash, SafeTx.members, personalHash,
    typedDataHash, Domain.separator, structHash, structEncoding, textWord, Relay.Client.safeOf,
    Safe.address, Safe.contractAddress, keccak256_eq]
  decide +kernel

/-- One body is submitted for two messages, which differ in the value that a single call sends. -/
theorem lone_value_untold : ∃ digest digest' body,
    Submits (relaying.execute [bareCall "0"] "" : Session Unit _) willing ⟨(), []⟩ digest body ∧
    Submits (relaying.execute [bareCall "1"] "" : Session Unit _) willing ⟨(), []⟩ digest' body ∧
    AgreeBut "signature" body body ∧ digest ≠ digest' := by
  have hzero := bareCall_submits read_trim_zero
  have hone := bareCall_submits read_trim_one
  obtain ⟨j, -, -, hj, -⟩ :=
    relaying.told_of_executed ((relaying.execute_pairs _ _).of_submits hzero)
  exact ⟨_, _, _, hzero, hone, ⟨j, j, hj, hj, fun _ _ => rfl⟩, bareTx_digest_ne⟩

end TradingDesk
