import TradingDesk.Proofs.Exchange.Calls

/-! How a client comes by its credentials. They are set by hand, or asked for with the account's
signature; a client whose own cannot be derived has new ones created. Whatever fails on the way, the
credentials stay those of the last success. -/

namespace TradingDesk

/-- The credentials are whole: each of their texts is there. -/
theorem Credentials.ofJson?_eq_some {keyName : String} {j : Json} {creds : Credentials} :
    ofJson? keyName j = some creds ↔ j.fields? [keyName, "secret", "passphrase"] =
      some [some (.string creds.key), some (.string creds.secret),
        some (.string creds.passphrase)] := by
  have htext {field : Option Json} {text : String} :
      Json.required Json.text? field = some text ↔ field = some (.string text) := by
    cases field with
    | none => simp [Json.required]
    | some j => cases j <;> simp [Json.required, Json.text?]
  rw [ofJson?, Option.bind_eq_bind, Option.bind_eq_some_iff]
  constructor
  · rintro ⟨fields, hfields, hread⟩
    split at hread
    · simp only [Option.bind_eq_bind, Option.bind_eq_some_iff, htext] at hread
      obtain ⟨key, rfl, secret, rfl, passphrase, rfl, hmake⟩ := hread
      cases hmake
      exact hfields
    · cases hread
  · intro h
    refine ⟨_, h, rfl⟩

namespace Exchange

/-- The calls that may change the credentials of a client. -/
inductive KeyCall where
  | set (creds : Credentials)
  | create (nonce : Option UInt64)
  | derive (nonce : Option UInt64)
  | ensure (nonce : Option UInt64)

namespace Client

open Session

/-- What is set counts as a success. -/
def keyCall (c : Client) : KeyCall → Action Credentials
  | .set creds => do
    setCredentials creds
    return creds
  | .create nonce => c.createApiKey nonce
  | .derive nonce => c.deriveApiKey nonce
  | .ensure nonce => c.ensureApiKey nonce

/-- The results of the calls of `c` one after the other, and the log that they leave. -/
def keyCalls (c : Client) (w : World) :
    List KeyCall → Log State → List (Except Error Credentials) × Log State
  | [], log => ([], log)
  | call :: calls, log =>
    let first := (c.keyCall call).run w log
    let later := c.keyCalls w calls first.2
    (first.1 :: later.1, later.2)

/-- A success brings its credentials, a failure leaves the state `st` as it is. -/
def kept (st : State) : Except Error Credentials → State
  | .ok creds => { st with credentials := some creds }
  | .error _ => st

/-- The credentials of the last success among the `results`. -/
def lastGranted (results : List (Except Error Credentials)) : Option Credentials :=
  (results.filterMap Except.toOption).getLast?

theorem lastGranted_ok (creds : Credentials) (results : List (Except Error Credentials)) :
    lastGranted (.ok creds :: results) = some ((lastGranted results).getD creds) :=
  List.getLast?_cons

theorem lastGranted_error (e : Error) (results : List (Except Error Credentials)) :
    lastGranted (.error e :: results) = lastGranted results := rfl

def creation : Request := ⟨.post, "/auth/api-key", [], [], none⟩

def derivation : Request := .get "/auth/derive-api-key"

variable {c : Client} {w : World} {st : State} {past : List Event} {r s : Request}
  {nonce : Option UInt64} {e : Error} {creds : Credentials}

/-- What the signer is asked about after the events `past`. -/
def proofDigest (c : Client) (w : World) (past : List Event) (nonce : Option UInt64) : Word :=
  (Auth.proofAt w past c.address (nonce.getD 0)).digest c.chain.id

/-- The clock is read for the proof, and the signer is asked about `c.proofDigest`. -/
def proving (c : Client) (w : World) (past : List Event) (nonce : Option UInt64) : List Event :=
  [.clockRead, .asked c.address (c.proofDigest w past nonce)]

/-- The request `r` with the headers that the account's signature gives it. -/
def provenAt (c : Client) (w : World) (past : List Event) (nonce : Option UInt64) (r : Request) :
    Except Error Request := do
  let bs ← w.sign (past ++ [.clockRead]) c.address (c.proofDigest w past nonce)
  let g ← (Signature.ofBytes bs).mapError .signing
  return r.withHeaders (Auth.accountList c.address g.toText (nonce.getD 0)
    (UInt64.ofNat (w.clock past).toNat))

theorem provenAt_eq_ok : c.provenAt w past nonce r = .ok s ↔ ∃ g : Signature,
    w.sign (past ++ [.clockRead]) c.address (c.proofDigest w past nonce) = .ok g.bytes ∧
    s = r.withHeaders (Auth.accountList c.address g.toText (nonce.getD 0)
      (UInt64.ofNat (w.clock past).toNat)) := by
  simp only [provenAt, bind_eq_ok, mapError_eq_ok, Signature.ofBytes_eq_ok]
  constructor
  · rintro ⟨bs, hsign, g, rfl, hs⟩
    exact ⟨g, hsign, (Except.ok.inj hs).symm⟩
  · rintro ⟨g, hsign, rfl⟩
    exact ⟨g.bytes, hsign, g, rfl, rfl⟩

/-- What the service says of credentials to the request `s`. -/
def granted (c : Client) (w : World) (past : List Event) (nonce : Option UInt64) (s : Request) :
    Except Error Credentials :=
  w.reply (Credentials.ofJson? "apiKey") (past ++ c.proving w past nonce) s

theorem run_fetchAndKeep (s : Request) (w : World) (st : State) (past : List Event) :
    run (do
      let creds ← fetch s (Credentials.ofJson? "apiKey")
      setCredentials creds
      return creds) w ⟨st, past⟩ =
      (w.reply (Credentials.ofJson? "apiKey") past s,
        ⟨kept st (w.reply (Credentials.ofJson? "apiKey") past s), past ++ [.sent s]⟩) := by
  rw [run_bind, run_fetch, ← World.reply]
  cases w.reply (Credentials.ofJson? "apiKey") past s with
  | error e => rfl
  | ok creds => rfl

/-- The proof for `r` is made, the request sent, and what it grants is kept. -/
theorem run_fetchCredentials (c : Client) (r : Request) (nonce : Option UInt64) (w : World)
    (st : State) (past : List Event) :
    (c.fetchCredentials r nonce).run w ⟨st, past⟩ =
      match c.provenAt w past nonce r with
      | .error e => (.error e, ⟨st, past ++ c.proving w past nonce⟩)
      | .ok s => (c.granted w past nonce s, ⟨kept st (c.granted w past nonce s),
          past ++ c.proving w past nonce ++ [.sent s]⟩) := by
  rw [fetchCredentials, run_bind, Auth.run_accountHeaders, provenAt, proofDigest]
  dsimp only
  cases w.sign (past ++ [.clockRead]) c.address
      ((Auth.proofAt w past c.address (nonce.getD 0)).digest c.chain.id) with
  | error e => rfl
  | ok bs =>
    rw [ok_bind, ok_bind]
    cases Signature.ofBytes bs with
    | error e => rfl
    | ok g => exact run_fetchAndKeep _ w st _

/-- The service grants `creds` to the request `r` that the account has signed: it reports a success,
and each of the three texts is there. -/
def Grants (c : Client) (w : World) (past : List Event) (nonce : Option UInt64) (r : Request)
    (creds : Credentials) : Prop :=
  ∃ s answer j, c.provenAt w past nonce r = .ok s ∧
    w.respond (past ++ c.proving w past nonce) s = .ok answer ∧
    (200 ≤ answer.status ∧ answer.status < 300) ∧ Json.parse? answer.body = some j ∧
    j.fields? ["apiKey", "secret", "passphrase"] = some [some (.string creds.key),
      some (.string creds.secret), some (.string creds.passphrase)]

theorem fetchCredentials_eq_ok : ((c.fetchCredentials r nonce).run w ⟨st, past⟩).1 = .ok creds ↔
    c.Grants w past nonce r creds := by
  rw [run_fetchCredentials]
  cases hs : c.provenAt w past nonce r with
  | error e => simp [Grants, hs]
  | ok s => simp [Grants, hs, granted, World.reply_eq_ok, Credentials.ofJson?_eq_some]

theorem state_fetchCredentials (r : Request) (nonce : Option UInt64) (log : Log State) :
    ((c.fetchCredentials r nonce).run w log).2.state =
      kept log.state ((c.fetchCredentials r nonce).run w log).1 := by
  obtain ⟨st, past⟩ := log
  rw [run_fetchCredentials]
  cases c.provenAt w past nonce r with
  | error e => rfl
  | ok s => rfl

/-! ### A key at any rate -/

theorem run_ensureApiKey (nonce : Option UInt64) (log : Log State) :
    (c.ensureApiKey nonce).run w log = match (c.deriveApiKey nonce).run w log with
      | (.ok creds, next) => (.ok creds, next)
      | (.error _, next) => (c.createApiKey nonce).run w next := by
  rw [ensureApiKey, run_tryCatch]
  rcases (c.deriveApiKey nonce).run w log with ⟨_ | creds, next⟩
  · rfl
  · rfl

theorem state_keyCall (c : Client) (w : World) (call : KeyCall) (log : Log State) :
    ((c.keyCall call).run w log).2.state = kept log.state ((c.keyCall call).run w log).1 := by
  cases call with
  | set creds => rfl
  | create nonce => exact state_fetchCredentials creation nonce log
  | derive nonce => exact state_fetchCredentials derivation nonce log
  | ensure nonce =>
    have hderived : ((c.deriveApiKey nonce).run w log).2.state =
        kept log.state ((c.deriveApiKey nonce).run w log).1 :=
      state_fetchCredentials derivation nonce log
    rw [keyCall, run_ensureApiKey]
    rcases hrun : (c.deriveApiKey nonce).run w log with ⟨_ | creds, next⟩
    · -- The failure has left the state alone, so the second attempt starts from the old one.
      rw [hrun] at hderived
      have hcreated := state_fetchCredentials (c := c) (w := w) creation nonce next
      rw [show next.state = log.state from hderived] at hcreated
      exact hcreated
    · rw [hrun] at hderived
      exact hderived

/-- The credentials after the `calls` are those of the last that succeeded, or the old ones. -/
theorem state_keyCalls (c : Client) (w : World) (calls : List KeyCall) (log : Log State) :
    (c.keyCalls w calls log).2.state = { log.state with
      credentials := (lastGranted (c.keyCalls w calls log).1).or log.state.credentials } := by
  induction calls generalizing log with
  | nil => rfl
  | cons call calls ih =>
    have hfirst := state_keyCall c w call log
    rcases hrun : (c.keyCall call).run w log with ⟨_ | creds, next⟩
    · rw [hrun] at hfirst
      have hstate : next.state = log.state := hfirst
      simp only [keyCalls, hrun, ih, hstate, lastGranted_error]
    · rw [hrun] at hfirst
      have hstate : next.state = { log.state with credentials := some creds } := hfirst
      simp only [keyCalls, hrun, ih, hstate, lastGranted_ok]
      cases lastGranted (c.keyCalls w calls next).1 with
      | none => rfl
      | some last => rfl

/-! ### What is sent -/

/-- The request `r` without its headers. -/
def unproven (r : Request) : Request := { r with headers := [] }

/-- The requests that a call of `c` may send; two only if the `derivation` failed. -/
def attempts (c : Client) (w : World) (log : Log State) : KeyCall → List Request
  | .set _ => []
  | .create _ => [creation]
  | .derive _ => [derivation]
  | .ensure nonce => match ((c.deriveApiKey nonce).run w log).1 with
    | .ok _ => [derivation]
    | .error _ => [derivation, creation]

theorem unproven_of_provenAt (hr : r.headers = []) (h : c.provenAt w past nonce r = .ok s) :
    unproven s = r := by
  obtain ⟨g, -, rfl⟩ := provenAt_eq_ok.1 h
  rw [unproven, Request.withHeaders, ← hr]

theorem sent_fetchCredentials (hr : r.headers = []) (nonce : Option UInt64) (log : Log State) :
    ∃ added, ((c.fetchCredentials r nonce).run w log).2.events = log.events ++ added ∧
      ((sent added).map unproven).Sublist [r] := by
  obtain ⟨st, past⟩ := log
  rw [run_fetchCredentials]
  cases hs : c.provenAt w past nonce r with
  | error e => exact ⟨_, rfl, List.nil_sublist _⟩
  | ok s =>
    refine ⟨_, List.append_assoc .., ?_⟩
    have hsent : sent (c.proving w past nonce ++ [.sent s]) = [s] := rfl
    rw [hsent, List.map_singleton, unproven_of_provenAt hr hs]

theorem sent_keyCall (c : Client) (w : World) (call : KeyCall) (log : Log State) :
    ∃ added, ((c.keyCall call).run w log).2.events = log.events ++ added ∧
      ((sent added).map unproven).Sublist (c.attempts w log call) := by
  cases call with
  | set creds => exact ⟨[], (List.append_nil _).symm, List.nil_sublist _⟩
  | create nonce => exact sent_fetchCredentials rfl nonce log
  | derive nonce => exact sent_fetchCredentials rfl nonce log
  | ensure nonce =>
    have hderived : ∃ added, ((c.deriveApiKey nonce).run w log).2.events = log.events ++ added ∧
        ((sent added).map unproven).Sublist [derivation] := sent_fetchCredentials rfl nonce log
    rw [keyCall, run_ensureApiKey, attempts]
    rcases hrun : (c.deriveApiKey nonce).run w log with ⟨_ | creds, next⟩
    · rw [hrun] at hderived
      obtain ⟨added, hadded, hsent⟩ := hderived
      obtain ⟨more, hmore, hsent'⟩ := sent_fetchCredentials (c := c) (w := w) (r := creation) rfl
        nonce next
      refine ⟨added ++ more, ?_, ?_⟩
      · rw [← List.append_assoc, ← show next.events = log.events ++ added from hadded]
        exact hmore
      · rw [sent_append, List.map_append]
        exact hsent.append hsent'
    · rw [hrun] at hderived
      exact hderived

/-- After `calls` of any kind the credentials are those of the last that succeeded, or the old ones
where none did; a call that fails leaves the state as it was. Where a key is to be had at any rate
it is derived, and only if that fails is one created, with the same `nonce`. No call sends more than
its `attempts`, which are two only after a derivation that failed. Credentials are granted
(`Grants`) by an answer that reports a success and has all three of their texts. -/
theorem credentials_of_last_success (c : Client) (w : World) :
    (∀ calls log, (c.keyCalls w calls log).2.state = { log.state with
      credentials := (lastGranted (c.keyCalls w calls log).1).or log.state.credentials }) ∧
    (∀ call log,
      ((c.keyCall call).run w log).2.state = kept log.state ((c.keyCall call).run w log).1 ∧
      ∃ added, ((c.keyCall call).run w log).2.events = log.events ++ added ∧
        ((sent added).map unproven).Sublist (c.attempts w log call)) ∧
    (∀ nonce log, (c.ensureApiKey nonce).run w log = match (c.deriveApiKey nonce).run w log with
      | (.ok creds, next) => (.ok creds, next)
      | (.error _, next) => (c.createApiKey nonce).run w next) ∧
    ∀ nonce st past creds,
      (((c.createApiKey nonce).run w ⟨st, past⟩).1 = .ok creds ↔
        c.Grants w past nonce creation creds) ∧
      (((c.deriveApiKey nonce).run w ⟨st, past⟩).1 = .ok creds ↔
        c.Grants w past nonce derivation creds) := by
  refine ⟨fun calls log => state_keyCalls c w calls log, fun call log => ⟨?_, ?_⟩,
    fun nonce log => run_ensureApiKey nonce log, fun nonce st past creds => ⟨?_, ?_⟩⟩
  · exact state_keyCall c w call log
  · exact sent_keyCall c w call log
  · exact fetchCredentials_eq_ok
  · exact fetchCredentials_eq_ok

end Client
end Exchange
end TradingDesk
