import TradingDesk.Proofs.Exchange.Keys
import TradingDesk.Relay.Client

/-! Every request that needs a proof carries one that holds for it: about orders the trader's and
the builder's, for credentials the account's, to the relayer the builder's. The proof is made before
the request is put together and is for its very method, path and body. -/

namespace TradingDesk

open Session

namespace Exchange

/-! ### Requests with credentials -/

/-- What an account asks for with its credentials. -/
inductive AccountCall where
  | apiKeys
  | postOrder (order : SignedOrder) (tif : TimeInForce) (deferred : Bool)
  | postOrders (orders : List (SignedOrder × TimeInForce)) (deferred : Bool)
  | order (id : String)
  | openOrders (filter : Filter) (pages : ℕ)
  | cancelOrder (id : String)
  | cancelOrders (ids : List String)
  | cancelAll
  | cancelMarketOrders (market assetId : Option String)

/-- The request `r` is one of those of a call, before it has headers. -/
def AccountCall.Asks (r : Request) : AccountCall → Prop
  | .apiKeys => r = .get "/auth/api-keys"
  | .postOrder s tif deferred =>
    ∃ owner, r = .post "/order" (Client.postingJson s owner tif deferred).text
  | .postOrders orders deferred => ∃ owner, r = .post "/orders"
      (Json.array (orders.map fun o => Client.postingJson o.1 owner o.2 deferred)).text
  | .order id => r = .get ("/data/order/" ++ id)
  | .openOrders _ _ => ∃ query, r = .get "/data/orders" query
  | .cancelOrder id => r = .delete "/order" (some (Json.object [("orderID", .string id)]).text)
  | .cancelOrders ids => r = .delete "/orders" (some (Json.texts ids).text)
  | .cancelAll => r = .delete "/cancel-all" none
  | .cancelMarketOrders _ _ =>
    ∃ members, r = .delete "/cancel-market-orders" (some (Json.object members).text)

theorem AccountCall.Asks.headers {call : AccountCall} {r : Request} (h : call.Asks r) :
    r.headers = [] := by
  cases call with
  | apiKeys | order | cancelOrder | cancelOrders | cancelAll =>
    cases h
    rfl
  | postOrder | postOrders | openOrders | cancelMarketOrders =>
    obtain ⟨_, rfl⟩ := h
    rfl

namespace Client

variable {α : Type}

/-- Whatever the answer is. -/
def perform (c : Client) : AccountCall → Action Unit
  | .apiKeys => toUnit c.apiKeys
  | .postOrder s tif deferred => toUnit (c.postOrder s tif deferred)
  | .postOrders orders deferred => toUnit (c.postOrders orders deferred)
  | .order id => toUnit (c.order id)
  | .openOrders f pages => toUnit (c.openOrders f pages)
  | .cancelOrder id => toUnit (c.cancelOrder id)
  | .cancelOrders ids => toUnit (c.cancelOrders ids)
  | .cancelAll => toUnit c.cancelAll
  | .cancelMarketOrders market assetId => toUnit (c.cancelMarketOrders market assetId)

/-- A request that is sent is authentic from the account of `c`, with the credentials that it has in
`st`. -/
def Authentic (c : Client) (st : State) : Event → Prop
  | .sent r => ∃ creds, st.credentials = some creds ∧ r.AuthenticFrom c.address creds c.builder
  | _ => True

variable (c : Client) {st : State}

theorem requireCredentials_keeps {P : Event → Prop} :
    Keeps st P requireCredentials fun creds => st.credentials = some creds := by
  refine Keeps.state.bind fun s hs => ?_
  rw [hs]
  cases hcreds : st.credentials with
  | some creds => exact .pure rfl
  | none => exact .throw _

/-- The headers that `r` gets: the trader's, or both the trader's and the builder's, with the keyed
digests of `r` as it is at one time. -/
inductive Proves (c : Client) (st : State) (r : Request) : Headers → Prop
  | own {creds : Credentials} {time : UInt64} {own : String} (hcreds : st.credentials = some creds)
    (hbuilder : c.builder = none)
    (hown : RequestSignature.sign creds.secret (Auth.timeText time) r.method.name r.path r.body =
      .ok own) : Proves c st r (Auth.traderList c.address creds own time)
  | both {creds b : Credentials} {time : UInt64} {own other : String}
    (hcreds : st.credentials = some creds) (hbuilder : c.builder = some b)
    (hown : RequestSignature.sign creds.secret (Auth.timeText time) r.method.name r.path r.body =
      .ok own)
    (hother : RequestSignature.sign b.secret (Auth.timeText time) r.method.name r.path r.body =
      .ok other) : Proves c st r (Auth.bothList c.address creds b own other time)

theorem Proves.authentic {r : Request} (hr : r.headers = []) {hs : Headers} (h : c.Proves st r hs) :
    ∃ creds, st.credentials = some creds ∧
      (r.withHeaders hs).AuthenticFrom c.address creds c.builder := by
  cases h with
  | own hcreds hbuilder hown =>
    rw [hbuilder]
    exact ⟨_, hcreds, Request.authenticFrom_of_headers
      (Request.headers_withHeaders hr (Auth.traderList_sorted ..)) hown⟩
  | both hcreds hbuilder hown hother =>
    rw [hbuilder]
    exact ⟨_, hcreds, Request.authenticFrom_of_both
      (Request.headers_withHeaders hr (Auth.bothList_sorted ..)) hown hother⟩

/-- The headers are made for `r` as it is. -/
theorem headersFor_keeps {r : Request} {P : Event → Prop} (hclock : P .clockRead) :
    Keeps st P (c.headersFor r) (c.Proves st r) := by
  refine requireCredentials_keeps.bind fun creds hcreds => ?_
  refine (Keeps.now hclock).bind fun time _ => ?_
  refine (Keeps.ofExcept fun own hown => hown).bind fun hs hown => ?_
  rw [Auth.traderHeaders_eq] at hown
  obtain ⟨own, hsign, rfl⟩ := map_eq_ok.1 hown
  cases hbuilder : c.builder with
  | none => exact .pure (.own hcreds hbuilder hsign)
  | some b =>
    refine (Keeps.ofExcept fun hs hother => hother).bind fun hs hother => ?_
    rw [Auth.builderHeaders_eq] at hother
    obtain ⟨other, hsign', rfl⟩ := map_eq_ok.1 hother
    rw [Auth.merge_builderList]
    exact .pure (.both hcreds hbuilder hsign hsign')

theorem fetchSigned_keeps {r : Request} (hr : r.headers = []) (read : Json → Option α) :
    Keeps st (c.Authentic st) (c.fetchSigned r read) fun _ => True :=
  (c.headersFor_keeps trivial).bind fun _ hs => .fetch (hs.authentic c hr) read

/-- Each page is asked for by a request of its own, so what holds of each holds of the search. -/
theorem openOrdersFrom_keeps {P : Event → Prop} {f : Filter}
    (h : ∀ query (read : Json → Option Page),
      Keeps st P (c.fetchSigned (.get "/data/orders" query) read) fun _ => True)
    (pages : ℕ) (cursor : Option String) (found : List OpenOrder) :
    Keeps st P (c.openOrdersFrom f pages cursor found) fun _ => True := by
  induction pages generalizing cursor found with
  | zero => exact .pure trivial
  | succ pages ih =>
    refine (h _ _).bind fun p _ => ?_
    dsimp only
    split
    · exact .pure trivial
    · exact ih _ _

/-- The `call` does no more than its requests do. -/
theorem perform_keeps_of {P : Event → Prop} {call : AccountCall}
    (h : ∀ {α : Type} (r : Request) (read : Json → Option α), call.Asks r →
      Keeps st P (c.fetchSigned r read) fun _ => True) :
    Keeps st P (c.perform call) fun _ => True := by
  cases call with
  | apiKeys => exact (h _ _ rfl).toUnit
  | postOrder s tif deferred =>
    exact (requireCredentials_keeps.bind fun creds _ => h _ _ ⟨creds.key, rfl⟩).toUnit
  | postOrders orders deferred =>
    exact (Keeps.guarded
      (requireCredentials_keeps.bind fun creds _ => h _ _ ⟨creds.key, rfl⟩)).toUnit
  | order id => exact (Keeps.guarded (h _ _ rfl)).toUnit
  | openOrders f pages =>
    exact (c.openOrdersFrom_keeps (fun query read => h _ read ⟨query, rfl⟩) pages none []).toUnit
  | cancelOrder id => exact (Keeps.guarded (h _ _ rfl)).toUnit
  | cancelOrders ids => exact (Keeps.guarded (h _ _ rfl)).toUnit
  | cancelAll => exact (h _ _ rfl).toUnit
  | cancelMarketOrders market assetId => exact (h _ _ ⟨_, rfl⟩).toUnit

/-- An account with the state `st` sends authentic requests only. -/
theorem perform_keeps (call : AccountCall) :
    Keeps st (c.Authentic st) (c.perform call) fun _ => True :=
  c.perform_keeps_of fun _ read h => c.fetchSigned_keeps h.headers read

/-! ### Requests for credentials -/

/-- After the events `past` the signer signed just what the headers tell of, and they carry its
answer. -/
structure SignedByAccount (c : Client) (w : World) (past : List Event) (digest : Word)
    (r : Request) : Prop where
  names : r.headerNames = Auth.accountNames
  proof : ∃ auth, r.clobAuth? = some auth ∧ auth.digest c.chain.id = digest
  signature : ∃ bs, w.sign (past ++ [.clockRead]) c.address digest = .ok bs ∧ bs.length = 65 ∧
    r.header? "POLY_SIGNATURE" = some (Hex.encode0x bs)

theorem signedByAccount_of_headers {r : Request} {w : World} {past : List Event} {nonce : UInt64}
    {g : Signature} (h : r.headers = Auth.accountList c.address g.toText nonce
      (UInt64.ofNat (w.clock past).toNat))
    (hsign : w.sign (past ++ [.clockRead]) c.address
      ((Auth.proofAt w past c.address nonce).digest c.chain.id) = .ok g.bytes) :
    c.SignedByAccount w past ((Auth.proofAt w past c.address nonce).digest c.chain.id) r where
  names := by
    rw [Request.headerNames, h]
    rfl
  proof := ⟨_, Request.clobAuth?_of_headers h, rfl⟩
  signature := by
    refine ⟨g.bytes, hsign, g.length_eq, ?_⟩
    simp [Request.header?, h, Auth.accountList, Signature.toText]

/-- At most one request is sent, for `r`, after the clock is read and the signer is asked. -/
theorem fetchCredentials_events {r : Request} (hr : r.headers = []) (nonce : Option UInt64)
    (w : World) (log : Log State) :
    ∃ added, ((c.fetchCredentials r nonce).run w log).2.events = log.events ++ added ∧
      ∀ s, .sent s ∈ added → ∃ digest,
        added = [.clockRead, .asked c.address digest, .sent s] ∧
        c.SignedByAccount w log.events digest s := by
  obtain ⟨st, past⟩ := log
  rw [run_fetchCredentials]
  cases hproven : c.provenAt w past nonce r with
  | error e =>
    refine ⟨_, rfl, ?_⟩
    intro s hs
    simp [proving] at hs
  | ok proven =>
    refine ⟨_, List.append_assoc .., ?_⟩
    intro s hs
    obtain rfl : s = proven := by simpa [proving] using hs
    obtain ⟨g, hsign, rfl⟩ := provenAt_eq_ok.1 hproven
    have hheaders := Request.headers_withHeaders hr
      (Auth.accountList_sorted c.address g.toText (nonce.getD 0)
        (UInt64.ofNat (w.clock past).toNat))
    exact ⟨_, rfl, c.signedByAccount_of_headers hheaders hsign⟩

end Client
end Exchange

/-! ### Submissions -/

namespace Relay.Client

variable (c : Client) {σ : Type} {st : σ}

/-- A request to submit is vouched for by the builder of `c`, and says nothing else in its headers.
-/
def Vouched (c : Client) : Event → Prop
  | .sent r => r.path = "/submit" → ∃ b, c.builder = some b ∧
      r.headerNames = Auth.builderNames ∧ r.VouchedFor b
  | _ => True

theorem requireBuilder_keeps {P : Event → Prop} :
    Keeps st P (Session.ofExcept c.requireBuilder) fun b => c.builder = some b := by
  refine .ofExcept fun b hb => ?_
  rw [requireBuilder] at hb
  cases hbuilder : c.builder with
  | some d =>
    rw [hbuilder] at hb
    cases hb
    rfl
  | none =>
    rw [hbuilder] at hb
    cases hb

theorem submit_keeps {b : Credentials} (hb : c.builder = some b) (s : Submission) :
    Keeps st c.Vouched (submit b s) fun _ => True := by
  refine (Keeps.now trivial).bind fun time _ => ?_
  refine (Keeps.ofExcept fun hs hother => hother).bind fun hs hother => ?_
  rw [Auth.builderHeaders_eq] at hother
  obtain ⟨other, hsign, rfl⟩ := map_eq_ok.1 hother
  refine .fetch (fun _ => ⟨b, hb, ?_, ?_⟩) _
  · rw [Request.headerNames, Request.headers_withHeaders rfl (Auth.builderList_sorted ..)]
    rfl
  · exact Request.vouchedFor_of_headers
      (Request.headers_withHeaders rfl (Auth.builderList_sorted ..)) hsign

theorem deployed_keeps {P : Event → Prop} (h : ∀ query, P (.sent (.get "/deployed" query)))
    (safe : Address) : Keeps st P (deployed safe) fun _ => True :=
  .fetch (h _) _

theorem nonce_keeps {P : Event → Prop} (h : ∀ query, P (.sent (.get "/nonce" query)))
    (owner : Address) (kind : Kind) : Keeps st P (nonce owner kind) fun _ => True :=
  (Keeps.fetch (h _) _).bind fun _ _ => .ofExcept fun _ _ => trivial

theorem vouched_get {path : String} (h : path ≠ "/submit") (query : List (String × String)) :
    c.Vouched (.sent (.get path query)) :=
  fun hpath => absurd hpath h

theorem sign_keeps {P : Event → Prop} {signer : Address} (h : ∀ digest, P (.asked signer digest))
    (call : SafeCall) (chainId : UInt64) (safe : Address) (nonce : Word) :
    Keeps st P (Safe.sign call signer chainId safe nonce) fun _ => True :=
  (Keeps.ofExcept fun _ _ => trivial).bind fun _ _ =>
    (Keeps.signature (h _)).bind fun _ _ => .ofExcept fun _ _ => trivial

/-- The questions of an operation, what it asks the signer and its submission have `P`. -/
structure Allows (c : Client) (st : σ) (P : Event → Prop) : Prop where
  question : ∀ path query, path ≠ "/submit" → P (.sent (.get path query))
  asked : ∀ digest, P (.asked c.signer digest)
  submission : ∀ b s, c.builder = some b → Keeps st P (submit b s) fun _ => True

theorem deploy_keeps_of {P : Event → Prop} (h : c.Allows st P) :
    Keeps st P c.deploy fun _ => True := by
  refine c.requireBuilder_keeps.bind fun b hb => ?_
  refine (deployed_keeps (h.question _ · (by decide)) _).bind fun found _ => Keeps.guarded ?_
  refine ((Keeps.signature (h.asked _)).bind fun g _ =>
    .pure (Q := fun _ => True) trivial).bind fun _ _ => ?_
  exact h.submission b _ hb

theorem execute_keeps_of {P : Event → Prop} (h : c.Allows st P) (calls : List SafeCall)
    (metadata : String) : Keeps st P (c.execute calls metadata) fun _ => True := by
  refine c.requireBuilder_keeps.bind fun b hb => ?_
  refine (Keeps.ofExcept fun _ _ => trivial).bind fun call _ => ?_
  refine (deployed_keeps (h.question _ · (by decide)) _).bind fun found _ => Keeps.guarded ?_
  refine (nonce_keeps (h.question _ · (by decide)) _ _).bind fun _ _ => ?_
  refine (sign_keeps h.asked _ _ _ _).bind fun _ _ => ?_
  exact h.submission b _ hb

theorem vouched_allows : c.Allows st c.Vouched where
  question _ query h := c.vouched_get h query
  asked _ := trivial
  submission _ s hb := c.submit_keeps hb s

theorem deploy_keeps : Keeps st c.Vouched c.deploy fun _ => True :=
  c.deploy_keeps_of c.vouched_allows

theorem execute_keeps (calls : List SafeCall) (metadata : String) :
    Keeps st c.Vouched (c.execute calls metadata) fun _ => True :=
  c.execute_keeps_of c.vouched_allows calls metadata

end Relay.Client

/-! ### All requests -/

/-- Each request of an account with credentials is authentic (`AuthenticFrom`); each request for
credentials is `SignedByAccount`, in one session at most once; and each submission is `VouchedFor`
by the builder. -/
theorem requests_proven :
    (∀ (c : Exchange.Client) (call : Exchange.AccountCall) (w : World) (log : Log Exchange.State),
      ∃ added, ((c.perform call).run w log).2 = { log with events := log.events ++ added } ∧
        ∀ r, .sent r ∈ added → ∃ creds, log.state.credentials = some creds ∧
          r.AuthenticFrom c.address creds c.builder) ∧
    (∀ (c : Exchange.Client) (nonce : Option UInt64) (w : World) (log : Log Exchange.State),
      ∀ s ∈ [c.createApiKey nonce, c.deriveApiKey nonce],
      ∃ added, (s.run w log).2.events = log.events ++ added ∧
        ∀ r, .sent r ∈ added → ∃ digest,
          added = [.clockRead, .asked c.address digest, .sent r] ∧
          c.SignedByAccount w log.events digest r) ∧
    ∀ (σ : Type) (c : Relay.Client) (calls : List SafeCall) (metadata : String) (w : World)
      (log : Log σ), ∀ s ∈ [c.deploy, c.execute calls metadata],
      ∃ added, (s.run w log).2 = { log with events := log.events ++ added } ∧
        ∀ r, .sent r ∈ added → r.path = "/submit" → ∃ b, c.builder = some b ∧
          r.headerNames = Auth.builderNames ∧ r.VouchedFor b := by
  refine ⟨fun c call w log => ?_, fun c nonce w log => ?_, fun σ c calls metadata w log => ?_⟩
  · obtain ⟨added, hlog, hadded, -⟩ := c.perform_keeps call w log.events
    exact ⟨added, hlog, fun r hr => hadded _ hr⟩
  · simp only [List.forall_mem_cons, List.not_mem_nil, false_imp_iff, implies_true, and_true]
    exact ⟨c.fetchCredentials_events rfl nonce w log, c.fetchCredentials_events rfl nonce w log⟩
  · simp only [List.forall_mem_cons, List.not_mem_nil, false_imp_iff, implies_true, and_true]
    constructor
    · obtain ⟨added, hlog, hadded, -⟩ := c.deploy_keeps w log.events
      exact ⟨added, hlog, fun r hr => hadded _ hr⟩
    · obtain ⟨added, hlog, hadded, -⟩ := c.execute_keeps calls metadata w log.events
      exact ⟨added, hlog, fun r hr => hadded _ hr⟩

/-- An outside that signs all that it is asked, and knows of no Safe. -/
def obliging : World where
  respond := fun _ _ => .ok ⟨200, Bytes.ofString "\x7b\"deployed\":false\x7d"⟩
  sign := fun _ _ _ => .ok (List.replicate 65 27)
  clock := fun _ => 1700000000
  random := fun _ => 0

/-- The empty text spells the empty key. -/
def keyed : Credentials := ⟨"key", "", "pass"⟩

def trading : Exchange.Client := ⟨⟨⟨.zero, none, .account⟩, .polygon⟩, some keyed⟩

def relaying : Relay.Client := ⟨.zero, .polygon, some keyed⟩

theorem sign_keyed (time method path : String) (body : Option String) :
    RequestSignature.sign keyed.secret time method path body =
      .ok (RequestSignature.digestText [] (RequestSignature.message time method path body)) := by
  have hsecret : RequestSignature.decodeSecret keyed.secret = .ok [] := rfl
  rw [RequestSignature.sign, hsecret]

theorem cancelAll_sends :
    ∃ r, ((trading.perform .cancelAll).run obliging ⟨{ credentials := some keyed }, []⟩).2.events =
      [.clockRead, .sent r] := by
  simp only [Exchange.Client.perform, toUnit, Exchange.Client.cancelAll, Exchange.Client.cancel,
    Exchange.Client.fetchSigned, Exchange.Client.headersFor, Exchange.Client.requireCredentials,
    trading, run_bind, run_state, run_pure, run_now, run_ofExcept, Auth.traderHeaders_eq,
    Auth.builderHeaders_eq, sign_keyed, Except.map, run_fetch]
  generalize (do (← obliging.respond _ _).decode _ : Except Error _) = answer
  cases answer with
  | error e => exact ⟨_, rfl⟩
  | ok a => exact ⟨_, rfl⟩

theorem createApiKey_sends :
    ∃ digest r, ((trading.createApiKey none).run obliging ⟨{}, []⟩).2.events =
      [.clockRead, .asked .zero digest, .sent r] := by
  obtain ⟨r, hproven⟩ : ∃ r, trading.provenAt obliging [] none Exchange.Client.creation = .ok r :=
    ⟨_, Exchange.Client.provenAt_eq_ok.2 ⟨⟨List.replicate 65 27, rfl⟩, rfl, rfl⟩⟩
  have hrun := Exchange.Client.run_fetchCredentials trading Exchange.Client.creation none obliging
    {} []
  rw [hproven] at hrun
  exact ⟨_, r, congrArg (·.2.events) hrun⟩

theorem deploy_sends :
    ∃ digest r body hs, ((relaying.deploy : Session Unit _).run obliging ⟨(), []⟩).2 = ⟨(),
      [.sent r, .asked .zero digest, .clockRead,
        .sent ((Request.post "/submit" body).withHeaders hs)]⟩ := by
  have hdeployed : Response.decode Relay.Client.deployed?
      ⟨200, Bytes.ofString "\x7b\"deployed\":false\x7d"⟩ = .ok false :=
    decode_of_read (by decide) (by decide +kernel)
  have hg : Signature.ofBytes (List.replicate 65 27) = .ok ⟨List.replicate 65 27, rfl⟩ := rfl
  simp only [Relay.Client.deploy, Relay.Client.requireBuilder, relaying, Relay.Client.deployed,
    run_bind, run_ofExcept, run_fetch, obliging, ok_bind, hdeployed, Bool.false_eq_true, if_false,
    signCreateProxy, run_signature, hg, Except.mapError, run_pure, Relay.Client.submit, run_now,
    Auth.builderHeaders_eq, sign_keyed, Except.map]
  exact ⟨_, _, _, _, rfl⟩

/-- One request of each kind that is sent. -/
theorem requests_proven_obliging :
    (∃ r, .sent r ∈ ((trading.perform .cancelAll).run obliging
        ⟨{ credentials := some keyed }, []⟩).2.events ∧
      r.AuthenticFrom trading.address keyed (some keyed)) ∧
    (∃ r, .sent r ∈ ((trading.createApiKey none).run obliging ⟨{}, []⟩).2.events ∧
      ∃ digest, trading.SignedByAccount obliging [] digest r) ∧
    ∃ r, .sent r ∈ ((relaying.deploy : Session Unit _).run obliging ⟨(), []⟩).2.events ∧
      r.path = "/submit" ∧ r.VouchedFor keyed := by
  refine ⟨?_, ?_, ?_⟩
  · obtain ⟨r, hr⟩ := cancelAll_sends
    obtain ⟨added, hlog, hadded⟩ := requests_proven.1 trading .cancelAll obliging
      ⟨{ credentials := some keyed }, []⟩
    have hsent : .sent r ∈ added := by
      rw [hlog] at hr
      rw [show added = _ from hr]
      simp
    obtain ⟨creds, hcreds, hauthentic⟩ := hadded r hsent
    obtain rfl : keyed = creds := Option.some.inj hcreds
    exact ⟨r, by simp [hr], hauthentic⟩
  · obtain ⟨digest, r, hr⟩ := createApiKey_sends
    obtain ⟨added, hlog, hadded⟩ := requests_proven.2.1 trading none obliging ⟨{}, []⟩ _
      List.mem_cons_self
    have hsent : .sent r ∈ added := by
      rw [hlog] at hr
      rw [show added = _ from hr]
      simp
    obtain ⟨digest, -, hsigned⟩ := hadded r hsent
    exact ⟨r, by simp [hr], digest, hsigned⟩
  · obtain ⟨digest, r, body, hs, hrun⟩ := deploy_sends
    obtain ⟨added, hlog, hadded⟩ := requests_proven.2.2 Unit relaying [] "" obliging ⟨(), []⟩ _
      List.mem_cons_self
    have hsent : .sent ((Request.post "/submit" body).withHeaders hs) ∈ added := by
      rw [hrun] at hlog
      rw [show added = _ from (congrArg Log.events hlog).symm]
      simp
    obtain ⟨b, hb, -, hvouched⟩ := hadded _ hsent rfl
    obtain rfl : keyed = b := Option.some.inj hb
    exact ⟨_, by simp [hrun], rfl, hvouched⟩

end TradingDesk
