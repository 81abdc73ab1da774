import TradingDesk.Proofs.Auth.Messages
import TradingDesk.Proofs.Auth.Requests
import TradingDesk.Proofs.Exchange.Keys

/-! Where requests go. Whatever a client is asked to do, each request that it sends has a message
that can be parted: the one path that the user has a say in is only asked for, and all that is handed
in is an array or an object, at one of a few paths. So the keyed digest of one request serves for no
other one, save for the quotes in its body. -/

namespace TradingDesk

open Session

/-! ### Headers and their times -/

namespace Auth

def timeNames : List String := ["POLY_TIMESTAMP", "POLY_BUILDER_TIMESTAMP"]

/-- The headers `hs` stand in order, and where they tell a time it is a number of seconds. -/
structure Dated (hs : Headers) : Prop where
  sorted : (hs.map Prod.fst).Pairwise (· < ·)
  time : ∀ name ∈ timeNames, ∀ t ∈ hs.lookup name, ∃ time : UInt64, t = timeText time

section Lists

variable (address : Address) (c b : Credentials) (own other : String) (nonce time : UInt64)

theorem accountList_dated : Dated (accountList address own nonce time) where
  sorted := accountList_sorted address own nonce time
  time := by simp [timeNames, accountList]

theorem traderList_dated : Dated (traderList address c own time) where
  sorted := traderList_sorted address c own time
  time := by simp [timeNames, traderList]

theorem builderList_dated : Dated (builderList b other time) where
  sorted := builderList_sorted b other time
  time := by simp [timeNames, builderList]

theorem bothList_dated : Dated (bothList address c b own other time) where
  sorted := bothList_sorted address c b own other time
  time := by simp [timeNames, bothList]

end Lists

end Auth

/-! ### Requests as they are sent -/

/-- The message of `r` can be parted, for each time that its headers tell. -/
structure Request.Separable (r : Request) : Prop extends r.Delimited where
  time : ∀ name ∈ Auth.timeNames, ∀ t ∈ r.header? name, ∃ time : UInt64, t = Auth.timeText time

def Event.Separable : Event → Prop
  | .sent r => r.Separable
  | _ => True

namespace Request

variable {r : Request} {path : String} {query : List (String × String)}

/-- The paths of the requests that are not only asked. -/
def actionPaths : List String :=
  ["/order", "/orders", "/cancel-all", "/cancel-market-orders", "/auth/api-key", "/submit"]

theorem closed_of_mem (h : path ∈ actionPaths) : ∀ c ∈ path.toList, Json.opens c = false := by
  simp only [actionPaths, List.mem_cons, List.not_mem_nil, or_false] at h
  rcases h with rfl | rfl | rfl | rfl | rfl | rfl
  all_goals simp [Json.opens]

theorem delimited_get : (get path query).Delimited where
  asks _ := rfl
  path h := absurd rfl h
  body := by simp [get]

theorem delimited_bare (method : Method) (hpath : path ∈ actionPaths) :
    (⟨method, path, [], [], none⟩ : Request).Delimited where
  asks _ := rfl
  path _ := closed_of_mem hpath
  body := by simp

theorem Delimited.of_body {j : Json} (hmethod : r.method ≠ .get) (hbody : r.body = some j.text)
    (hpath : r.path ∈ actionPaths) (hopens : ∃ c ∈ j.text.toList.head?, Json.opens c) :
    r.Delimited where
  asks h := absurd h hmethod
  path _ := closed_of_mem hpath
  body := by
    rw [hbody]
    rintro _ ⟨⟩
    exact hopens

theorem delimited_post {j : Json} (hpath : path ∈ actionPaths)
    (hopens : ∃ c ∈ j.text.toList.head?, Json.opens c) : (post path j.text).Delimited :=
  .of_body nofun rfl hpath hopens

theorem delimited_delete {j : Json} (hpath : path ∈ actionPaths)
    (hopens : ∃ c ∈ j.text.toList.head?, Json.opens c) : (delete path (some j.text)).Delimited :=
  .of_body nofun rfl hpath hopens

theorem Delimited.withHeaders (h : r.Delimited) (hr : r.headers = []) {hs : Headers}
    (hdated : Auth.Dated hs) : (r.withHeaders hs).Separable where
  asks := h.asks
  path := h.path
  body := h.body
  time := by
    simp only [header?, headers_withHeaders hr hdated.sorted]
    exact hdated.time

theorem Delimited.separable (h : r.Delimited) (hr : r.headers = []) : r.Separable where
  toDelimited := h
  time := by simp [header?, hr]

end Request

/-! ### To the exchange -/

namespace Exchange

theorem AccountCall.Asks.delimited {call : AccountCall} {r : Request} (h : call.Asks r) :
    r.Delimited := by
  cases call with
  | apiKeys | order =>
    cases h
    exact Request.delimited_get
  | openOrders =>
    obtain ⟨query, rfl⟩ := h
    exact Request.delimited_get
  | postOrder =>
    obtain ⟨owner, rfl⟩ := h
    exact Request.delimited_post (by simp [Request.actionPaths]) (Json.opens_object _)
  | postOrders =>
    obtain ⟨owner, rfl⟩ := h
    exact Request.delimited_post (by simp [Request.actionPaths]) (Json.opens_array _)
  | cancelOrder =>
    cases h
    exact Request.delimited_delete (by simp [Request.actionPaths]) (Json.opens_object _)
  | cancelOrders =>
    cases h
    exact Request.delimited_delete (by simp [Request.actionPaths]) (Json.opens_array _)
  | cancelAll =>
    cases h
    exact Request.delimited_bare _ (by simp [Request.actionPaths])
  | cancelMarketOrders =>
    obtain ⟨members, rfl⟩ := h
    exact Request.delimited_delete (by simp [Request.actionPaths]) (Json.opens_object _)

/-- All that a client does for its user: the calls of its account, those for its credentials,
questions about markets, and orders that are made and posted. -/
inductive AnyCall where
  | account (call : AccountCall)
  | key (call : KeyCall)
  | lookUp (p : Parameter) (token : String)
  | createOrder (t : Ticket) (tif : TimeInForce) (o : Client.Overrides)
  | createAndPostOrder (t : Ticket) (tif : TimeInForce) (o : Client.Overrides) (deferred : Bool)

namespace Client

variable {c : Client} {α : Type}

/-- Whatever the answer is. -/
def operate (c : Client) : AnyCall → Action Unit
  | .account call => c.perform call
  | .key call => toUnit (c.keyCall call)
  | .lookUp p token => toUnit (Client.lookUp p token)
  | .createOrder t tif o => toUnit (c.createOrder t tif o)
  | .createAndPostOrder t tif o deferred => toUnit (c.createAndPostOrder t tif o deferred)

theorem Proves.dated {st : State} {r : Request} {hs : Headers} (h : c.Proves st r hs) :
    Auth.Dated hs := by
  cases h with
  | own => exact Auth.traderList_dated ..
  | both => exact Auth.bothList_dated ..

theorem fetchSigned_separable {st : State} {r : Request} (hr : r.headers = [])
    (h : r.Delimited) (read : Json → Option α) :
    Keeps st Event.Separable (c.fetchSigned r read) fun _ => True :=
  (c.headersFor_keeps trivial).bind fun _ hs => .fetch (h.withHeaders hr hs.dated) read

theorem perform_separable (call : AccountCall) : Writes Event.Separable (c.perform call) :=
  Keeps.writes fun _ => c.perform_keeps_of fun _ read h =>
    fetchSigned_separable h.headers h.delimited read

theorem fetchCredentials_separable {r : Request} (hr : r.headers = []) (h : r.Delimited)
    (nonce : Option UInt64) : Writes Event.Separable (c.fetchCredentials r nonce) := by
  rintro w ⟨st, past⟩
  rw [run_fetchCredentials]
  split
  · exact ⟨_, rfl, by simp [proving, Event.Separable]⟩
  · rename_i s hs
    obtain ⟨bs, -, hs⟩ := bind_eq_ok.1 hs
    obtain ⟨g, -, hs⟩ := bind_eq_ok.1 hs
    cases hs
    refine ⟨_, List.append_assoc .., ?_⟩
    simpa [proving, Event.Separable] using
      h.withHeaders hr (Auth.accountList_dated c.address g.toText (nonce.getD 0)
        (UInt64.ofNat (w.clock past).toNat))

theorem createApiKey_separable (nonce : Option UInt64) :
    Writes Event.Separable (c.createApiKey nonce) :=
  fetchCredentials_separable rfl (Request.delimited_bare _ (by simp [Request.actionPaths])) nonce

theorem deriveApiKey_separable (nonce : Option UInt64) :
    Writes Event.Separable (c.deriveApiKey nonce) :=
  fetchCredentials_separable rfl Request.delimited_get nonce

theorem keyCall_separable (call : KeyCall) : Writes Event.Separable (c.keyCall call) := by
  cases call with
  | set creds =>
    exact (Writes.state.bind fun _ => Writes.setState _).bind fun _ => .pure creds
  | create nonce => exact createApiKey_separable nonce
  | derive nonce => exact deriveApiKey_separable nonce
  | ensure nonce => exact (deriveApiKey_separable nonce).tryCatch fun _ => createApiKey_separable nonce

theorem question_separable (p : Parameter) (token : String) : (question p token).Separable :=
  Request.delimited_get.separable rfl

theorem lookUp_separable (p : Parameter) (token : String) :
    Writes Event.Separable (lookUp p token) := by
  refine Writes.state.bind fun st => ?_
  split
  · exact .pure _
  · have hfetch : Writes Event.Separable (do
        Session.ofExcept (readAnswer p (← send (question p token))) : Action p.Value) :=
      Keeps.writes fun _ => (Keeps.send (question_separable p token)).bind fun _ _ =>
        .ofExcept fun _ _ => trivial
    refine hfetch.bind fun a => ?_
    exact Writes.state.bind fun _ => (Writes.setState _).bind fun _ => .pure a

theorem resolve_separable (p : Parameter) (token : String) (given : Option p.Value) :
    Writes Event.Separable (resolve p token given) := by
  cases given with
  | some a => exact .pure a
  | none => exact lookUp_separable p token

theorem resolveTick_separable (token : String) (given : Option Tick) :
    Writes Event.Separable (resolveTick token given) := by
  cases given with
  | none => exact lookUp_separable .tick token
  | some t =>
    refine (Writes.state.bind fun _ => .pure _).bind fun market => ?_
    split
    · split
      · exact .throw _
      · exact .pure t
    · exact .pure t

theorem terms_separable (t : Ticket) (o : Overrides) : Writes Event.Separable (terms t o) :=
  (resolveTick_separable _ _).bind fun _ => (resolve_separable _ _ _).bind fun _ =>
    (resolve_separable _ _ _).bind fun _ => .pure _

theorem createOrder_separable (t : Ticket) (tif : TimeInForce) (o : Overrides) :
    Writes Event.Separable (c.createOrder t tif o) := by
  refine (terms_separable t o).bind fun m => Keeps.writes (Q := fun _ _ => True) fun _ => ?_
  refine (Keeps.ofExcept fun _ _ => trivial).bind fun _ _ => ?_
  refine (Keeps.drawSalt trivial).bind fun _ _ => ?_
  exact (Keeps.signature trivial).bind fun _ _ => .pure trivial

theorem createAndPostOrder_separable (t : Ticket) (tif : TimeInForce) (o : Overrides)
    (deferred : Bool) : Writes Event.Separable (c.createAndPostOrder t tif o deferred) := by
  have hcredentials : Writes Event.Separable requireCredentials :=
    Keeps.writes fun _ => requireCredentials_keeps
  refine hcredentials.bind fun _ => (createOrder_separable t tif o).bind fun s => ?_
  exact Writes.toUnit_iff.1 (perform_separable (.postOrder s tif deferred))

theorem operate_separable (call : AnyCall) : Writes Event.Separable (c.operate call) := by
  cases call with
  | account call => exact perform_separable call
  | key call => exact Writes.toUnit_iff.2 (keyCall_separable call)
  | lookUp p token => exact Writes.toUnit_iff.2 (lookUp_separable p token)
  | createOrder t tif o => exact Writes.toUnit_iff.2 (createOrder_separable t tif o)
  | createAndPostOrder t tif o deferred =>
    exact Writes.toUnit_iff.2 (createAndPostOrder_separable t tif o deferred)

end Client
end Exchange

/-! ### To the relayer -/

namespace Relay

/-- All that the relayer is asked to do. Waiting for a transaction asks for it again and again. -/
inductive AnyCall where
  | deploy
  | execute (calls : List SafeCall) (metadata : String)
  | transactions
  | transaction (id : String)
  | nonce (owner : Address) (kind : Kind)
  | deployed (safe : Address)

namespace Client

variable {σ : Type} {st : σ} {c : Client}

/-- Whatever the answer is. -/
def operate (c : Client) : AnyCall → Session σ Unit
  | .deploy => toUnit c.deploy
  | .execute calls metadata => toUnit (c.execute calls metadata)
  | .transactions => toUnit c.transactions
  | .transaction id => toUnit (Client.transaction id)
  | .nonce owner kind => toUnit (Client.nonce owner kind)
  | .deployed safe => toUnit (Client.deployed safe)

theorem get_separable (path : String) (query : List (String × String)) :
    Event.Separable (.sent (.get path query)) :=
  Request.delimited_get.separable rfl

/-- The headers of the builder `b` are made for one `time`. -/
theorem builderHeaders_keeps {P : Event → Prop} (b : Credentials) (method path : String)
    (body : Option String) (time : UInt64) :
    Keeps st P (Session.ofExcept (Auth.builderHeaders b method path body time)) Auth.Dated := by
  refine .ofExcept fun hs h => ?_
  rw [Auth.builderHeaders_eq] at h
  obtain ⟨other, -, rfl⟩ := map_eq_ok.1 h
  exact Auth.builderList_dated b other time

theorem submit_separable (b : Credentials) (s : Submission) :
    Keeps st Event.Separable (submit b s) fun _ => True := by
  have hdelimited : (Request.post "/submit" s.toJson.text).Delimited :=
    Request.delimited_post (by simp [Request.actionPaths]) (Json.opens_object _)
  exact (Keeps.now trivial).bind fun time _ => (builderHeaders_keeps b _ _ _ time).bind
    fun _ hs => .fetch (hdelimited.withHeaders rfl hs) _

theorem separable_allows : c.Allows st Event.Separable where
  question path query _ := get_separable path query
  asked _ := trivial
  submission b s _ := submit_separable b s

theorem transactions_separable : Keeps st Event.Separable c.transactions fun _ => True := by
  unfold transactions
  have hdelimited : (Request.get "/transactions").Delimited := Request.delimited_get
  cases c.builder with
  | some b =>
    exact (Keeps.now trivial).bind fun time _ => (builderHeaders_keeps b _ _ _ time).bind
      fun _ hs => .fetch (hdelimited.withHeaders rfl hs) _
  | none => exact .fetch (hdelimited.separable rfl) _

theorem operate_separable (call : AnyCall) :
    Writes Event.Separable (c.operate call : Session σ Unit) := by
  cases call with
  | deploy => exact Keeps.writes fun _ => (c.deploy_keeps_of separable_allows).toUnit
  | execute calls metadata =>
    exact Keeps.writes fun _ => (c.execute_keeps_of separable_allows calls metadata).toUnit
  | transactions => exact Keeps.writes fun _ => transactions_separable.toUnit
  | transaction id => exact Keeps.writes fun _ => (Keeps.fetch (get_separable _ _) _).toUnit
  | nonce owner kind =>
    exact Keeps.writes fun _ => (nonce_keeps (get_separable _) owner kind).toUnit
  | deployed safe => exact Keeps.writes fun _ => (deployed_keeps (get_separable _) safe).toUnit

end Client
end Relay

/-! ### Signed requests -/

/-- The session `s` can send `r`, in some state and with some outside. -/
def Session.Sends {σ α : Type} (s : Session σ α) (r : Request) : Prop :=
  ∃ (w : World) (log : Log σ) (added : List Event),
    (s.run w log).2.events = log.events ++ added ∧ .sent r ∈ added

/-- Some client sends `r`, for whatever it may be asked to do. -/
def Request.Issued (r : Request) : Prop :=
  (∃ (c : Exchange.Client) (call : Exchange.AnyCall), (c.operate call).Sends r) ∨
    ∃ (c : Relay.Client) (call : Relay.AnyCall), (c.operate call : Session Unit Unit).Sends r

/-- The request `r` has the keyed digest of a trader or of a builder, for the `time` that it tells.
-/
def Request.KeyedAt (r : Request) (time : String) : Prop :=
  ∃ names ∈ [("POLY_SIGNATURE", "POLY_TIMESTAMP"),
      ("POLY_BUILDER_SIGNATURE", "POLY_BUILDER_TIMESTAMP")],
    r.header? names.2 = some time ∧ ∃ secret, r.SignedWith secret names.1 names.2

theorem Session.Sends.separable {σ α : Type} {s : Session σ α} {r : Request} (h : s.Sends r)
    (hs : Writes Event.Separable s) : r.Separable := by
  obtain ⟨w, log, added, hevents, hmem⟩ := h
  obtain ⟨more, hmore, hseparable⟩ := hs w log
  obtain rfl : added = more := List.append_cancel_left (hevents.symm.trans hmore)
  exact hseparable _ hmem

theorem Request.Issued.separable {r : Request} (h : r.Issued) : r.Separable := by
  obtain ⟨c, call, h⟩ | ⟨c, call, h⟩ := h
  · exact h.separable (Exchange.Client.operate_separable call)
  · exact h.separable (Relay.Client.operate_separable call)

theorem Request.KeyedAt.time {r : Request} (hr : r.Separable) {time : String}
    (h : r.KeyedAt time) : ∃ t : UInt64, time = Auth.timeText t := by
  obtain ⟨names, hnames, htime, -⟩ := h
  have hmem : names.2 ∈ Auth.timeNames := by
    rw [List.mem_pair] at hnames
    rcases hnames with rfl | rfl
    · exact List.mem_cons_self
    · exact List.mem_cons_of_mem _ List.mem_cons_self
  exact hr.time _ hmem _ htime

open RequestSignature

/-- Two requests `r` and `s` that are sent with keyed digests have one message just if they tell one
time and have one method, one path and, but for their quotes, one body. -/
theorem keyed_messages_apart {r s : Request} (hr : r.Issued) (hs : s.Issued) {time other : String}
    (hrt : r.KeyedAt time) (hso : s.KeyedAt other) :
    message time r.method.name r.path r.body = message other s.method.name s.path s.body ↔
      time = other ∧ r.method = s.method ∧ r.path = s.path ∧
        r.body.map unquoted = s.body.map unquoted := by
  obtain ⟨t, rfl⟩ := hrt.time hr.separable
  obtain ⟨u, rfl⟩ := hso.time hs.separable
  rw [Auth.timeText_inj]
  exact message_inj hr.separable.toDelimited hs.separable.toDelimited

/-- The keyed digest of the request to cancel the orders `ids`, for the empty key. -/
def cancellationDigest (ids : List String) : String :=
  digestText [] (message (Auth.timeText 1700000000) "DELETE" "/orders" (some (Json.texts ids).text))

/-- The request as it is sent. -/
def cancelling (ids : List String) : Request :=
  (Request.delete "/orders" (some (Json.texts ids).text)).withHeaders
    (Auth.bothList trading.address keyed keyed (cancellationDigest ids) (cancellationDigest ids)
      1700000000)

theorem cancelling_signed (ids : List String) :
    trading.signedAt keyed obliging [] (Request.delete "/orders" (some (Json.texts ids).text)) =
      .ok (cancelling ids) := by
  have hclock : UInt64.ofNat (obliging.clock []).toNat = 1700000000 := rfl
  rw [Exchange.Client.signedAt, Exchange.Client.headersAt, hclock, Auth.traderHeaders_eq,
    sign_keyed]
  dsimp only [Except.map, trading]
  rw [ok_bind, Auth.builderHeaders_eq, sign_keyed]
  dsimp only [Except.map]
  rw [ok_bind, Auth.merge_builderList]
  rfl

theorem cancelling_issued {ids : List String} (h : ids ≠ []) : (cancelling ids).Issued := by
  have hcreds : ({ credentials := some keyed } : Exchange.State).credentials = some keyed := rfl
  have hempty : ids.isEmpty = false := by simpa using h
  refine .inl ⟨trading, .account (.cancelOrders ids), obliging, ⟨{ credentials := some keyed }, []⟩,
    [.clockRead, .sent (cancelling ids)], ?_, by simp⟩
  rw [Exchange.Client.operate, Exchange.Client.perform, run_toUnit_log,
    Exchange.Client.cancelOrders, hempty, if_neg Bool.false_ne_true, Exchange.Client.cancel,
    Exchange.Client.run_fetchSigned hcreds (cancelling_signed ids)]

theorem cancelling_keyedAt (ids : List String) :
    (cancelling ids).KeyedAt (Auth.timeText 1700000000) := by
  have hheaders : (cancelling ids).headers = Auth.bothList trading.address keyed keyed
      (cancellationDigest ids) (cancellationDigest ids) 1700000000 :=
    Request.headers_withHeaders rfl (Auth.bothList_sorted ..)
  have htime : (cancelling ids).header? "POLY_TIMESTAMP" = some (Auth.timeText 1700000000) := by
    simp [Request.header?, hheaders, Auth.bothList]
  have hdigest : (cancelling ids).header? "POLY_SIGNATURE" = some (cancellationDigest ids) := by
    simp [Request.header?, hheaders, Auth.bothList]
  exact ⟨_, List.mem_cons_self, htime, keyed.secret,
    Request.signedWith_of_sign (sign_keyed ..) htime hdigest⟩

/-- A quote in an identifier can be taken for the quotes around two of them, and that is all: the
two requests go to one place. -/
theorem keyed_messages_apart_quoted :
    (cancelling ["a','b"]).body ≠ (cancelling ["a", "b"]).body ∧
      message (Auth.timeText 1700000000) "DELETE" "/orders" (cancelling ["a','b"]).body =
        message (Auth.timeText 1700000000) "DELETE" "/orders" (cancelling ["a", "b"]).body ∧
      (cancelling ["a','b"]).path = (cancelling ["a", "b"]).path := by
  have hone : (cancelling ["a','b"]).Issued := cancelling_issued (by simp)
  have htwo : (cancelling ["a", "b"]).Issued := cancelling_issued (by simp)
  have hmethod (ids : List String) : (cancelling ids).method = .delete := rfl
  have hpath (ids : List String) : (cancelling ids).path = "/orders" := rfl
  have hbody (ids : List String) : (cancelling ids).body = some (Json.texts ids).text := rfl
  have hbodies : (cancelling ["a','b"]).body.map unquoted =
      (cancelling ["a", "b"]).body.map unquoted := by
    rw [hbody, hbody]
    decide +kernel
  have hdiffer : (cancelling ["a','b"]).body ≠ (cancelling ["a", "b"]).body := by
    rw [hbody, hbody]
    decide +kernel
  have happart := keyed_messages_apart hone htwo (cancelling_keyedAt _) (cancelling_keyedAt _)
  have hmessage := happart.2 ⟨rfl, by rw [hmethod, hmethod], by rw [hpath, hpath], hbodies⟩
  exact ⟨hdiffer, hmessage, (happart.1 hmessage).2.2.1⟩

end TradingDesk
