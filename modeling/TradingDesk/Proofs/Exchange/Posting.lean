import TradingDesk.Proofs.Auth.Requests
import TradingDesk.Proofs.Exchange.Calls
import TradingDesk.Proofs.Exchange.Preparation
import TradingDesk.Proofs.Wire.RoundTrip

/-! Orders that are submitted. One that is made and submitted at once is submitted at the end, and
only if all that goes before is done and the credentials can sign the request. Several orders are
submitted as the list of what each would be submitted as. -/

namespace TradingDesk

open Json

theorem Json.itemsText_eq (js : List Json) : itemsText js = ",".intercalate (js.map text) := by
  induction js with
  | nil => rfl
  | cons j js ih =>
    cases js with
    | nil => rw [itemsText, List.map_singleton, String.intercalate_singleton]
    | cons k js =>
      rw [List.map_cons] at ih ⊢
      rw [List.map_cons, String.intercalate_cons_cons, ← ih]
      simp only [itemsText]

@[simp] theorem TimeInForce.ofJson?_name (tif : TimeInForce) :
    ofJson? (string tif.name) = some tif := by
  cases tif <;> rfl

namespace Exchange

/-! ### What a submission says -/

/-- An order as it is submitted. -/
structure Posting where
  payload : OrderPayload
  owner : String
  orderType : TimeInForce
  deferred : Bool

namespace Posting

def memberNames : List String := ["order", "owner", "orderType", "deferExec"]

def members (p : Posting) : List (Option Json) :=
  [p.payload.toJson, string p.owner, string p.orderType.name, bool p.deferred]

def toJson (p : Posting) : Json :=
  object [("order", p.payload.toJson), ("owner", string p.owner),
    ("orderType", string p.orderType.name), ("deferExec", bool p.deferred)]

theorem toJson_eq (p : Posting) : p.toJson = object (sparse memberNames p.members) := rfl

def ofJson? (j : Json) : Option Posting := do
  match ← j.fields? memberNames with
  | [order, owner, orderType, deferred] =>
    return {
      payload := ← required OrderPayload.ofJson? order
      owner := ← required text? owner
      orderType := ← required TimeInForce.ofJson? orderType
      deferred := ← required bool? deferred }
  | _ => none

theorem survives (p : Posting) : Survives toJson ofJson? p := by
  apply Survives.of_members p.toJson_eq (fun _ => rfl) (by decide) rfl
  · simp [members, p.payload.survives.faithful]
  · simp only [members, required_some, p.payload.survives.fromJson, text?_string, bool?_bool,
      TimeInForce.ofJson?_name]
    rfl

end Posting

namespace Client

open Session

/-- What is submitted of the signed order `s`. -/
def posting (creds : Credentials) (deferred : Bool) (s : SignedOrder) (tif : TimeInForce) :
    Posting :=
  ⟨s.payload, creds.key, tif, deferred⟩

variable {c : Client} {creds : Credentials} {deferred : Bool} {w : World} {st : State}
  {past : List Event} {s : SignedOrder} {tif : TimeInForce} {r : Request} {t : Ticket}
  {o : Overrides} {log : Log State} {orders : List (SignedOrder × TimeInForce)}

/-! ### One order -/

theorem run_postOrder (hcreds : st.credentials = some creds)
    (hr : c.signedAt creds w past (.post "/order" (posting creds deferred s tif).toJson.text) =
      .ok r) :
    (c.postOrder s tif deferred).run w ⟨st, past⟩ =
      (w.reply PostResult.ofJson? (past ++ [.clockRead]) r,
        ⟨st, past ++ [.clockRead, .sent r]⟩) := by
  rw [postOrder, run_bind, run_requireCredentials hcreds]
  exact run_fetchSigned hcreds hr _

theorem run_postOrder_error {e : Error} (hcreds : st.credentials = some creds)
    (he : c.signedAt creds w past (.post "/order" (posting creds deferred s tif).toJson.text) =
      .error e) :
    (c.postOrder s tif deferred).run w ⟨st, past⟩ = (.error e, ⟨st, past ++ [.clockRead]⟩) := by
  rw [postOrder, run_bind, run_requireCredentials hcreds]
  exact run_fetchSigned_error hcreds he _

/-- All is done that comes before a submission, and `r` is the request that submits the order. -/
structure Ready (c : Client) (creds : Credentials) (t : Ticket) (tif : TimeInForce) (o : Overrides)
    (deferred : Bool) (w : World) (log : Log State) (p : Preparation) (r : Request) : Prop where
  prepared : c.Prepared t tif o w log p
  request : c.signedAt creds w (c.signedLog t log p).events
    (.post "/order" (posting creds deferred p.signed tif).toJson.text) = .ok r

theorem run_createAndPostOrder_ready {p : Preparation} (hcreds : log.state.credentials = some creds)
    (h : c.Ready creds t tif o deferred w log p r) :
    (c.createAndPostOrder t tif o deferred).run w log =
      (w.reply PostResult.ofJson? (log.events ++ p.events c t ++ [.clockRead]) r,
        ⟨(learned t.tokenId p.facts log).state,
          log.events ++ p.events c t ++ [.clockRead, .sent r]⟩) := by
  rw [createAndPostOrder, run_bind, run_requireCredentials hcreds]
  dsimp only
  rw [run_bind, run_createOrder_prepared h.prepared]
  exact run_postOrder hcreds h.request

theorem createAndPostOrder_cases (hcreds : log.state.credentials = some creds) (c : Client)
    (t : Ticket) (tif : TimeInForce) (o : Overrides) (deferred : Bool) (w : World) :
    (∃ p r, c.Ready creds t tif o deferred w log p r) ∨
    FailsUnposted (c.createAndPostOrder t tif o deferred) w log := by
  have hrequired : requireCredentials.run w log = (.ok creds, log) := run_requireCredentials hcreds
  rcases c.createOrder_cases t tif o w log with ⟨p, hp⟩ | h
  · cases hr : c.signedAt creds w (c.signedLog t log p).events
        (.post "/order" (posting creds deferred p.signed tif).toJson.text) with
    | ok r => exact .inl ⟨p, r, hp, hr⟩
    | error e =>
      have hpost : FailsUnposted (c.postOrder p.signed tif deferred) w (c.signedLog t log p) :=
        ⟨e, _, [.clockRead], run_postOrder_error hcreds hr, rfl, rfl⟩
      refine .inr (.of_bind hrequired (List.append_nil _).symm rfl ?_)
      exact .of_bind (run_createOrder_prepared hp) rfl (postings_preparation p c t) hpost
  · exact .inr (.of_bind hrequired (List.append_nil _).symm rfl (h.bind _))

/-! ### Several orders -/

/-- Submitted by itself with the credentials `creds`, whenever that is, the order `s` has this
`body`. -/
def PostedAlone (c : Client) (creds : Credentials) (deferred : Bool) (s : SignedOrder)
    (tif : TimeInForce) (body : String) : Prop :=
  ∀ (w : World) (st : State) (past : List Event), st.credentials = some creds → ∃ r hs,
    ((c.postOrder s tif deferred).run w ⟨st, past⟩).2 = ⟨st, past ++ [.clockRead, .sent r]⟩ ∧
    r = (Request.post "/order" body).withHeaders hs

theorem postedAlone (hsign : c.CanSign creds) (deferred : Bool) (s : SignedOrder)
    (tif : TimeInForce) :
    c.PostedAlone creds deferred s tif (posting creds deferred s tif).toJson.text := by
  intro w st past hcreds
  obtain ⟨r, hr⟩ := exists_signedAt hsign w past
    (.post "/order" (posting creds deferred s tif).toJson.text)
  obtain ⟨hs, hrequest⟩ := signedAt_eq_ok hr
  exact ⟨r, hs, by rw [run_postOrder hcreds hr], hrequest⟩

/-- What is submitted of several `orders`, one by one. -/
def batch (creds : Credentials) (deferred : Bool) (orders : List (SignedOrder × TimeInForce)) :
    List Posting :=
  orders.map fun o => posting creds deferred o.1 o.2

theorem run_postOrders (hne : orders ≠ []) (hcreds : st.credentials = some creds) :
    (c.postOrders orders deferred).run w ⟨st, past⟩ =
      (c.fetchSigned (.post "/orders" (array ((batch creds deferred orders).map
        Posting.toJson)).text) (list? PostResult.ofJson?)).run w ⟨st, past⟩ := by
  have hnonempty : orders.isEmpty = false := by simpa using hne
  rw [postOrders, hnonempty, batch, List.map_map]
  simp only [Bool.false_eq_true, if_false]
  rw [run_bind, run_requireCredentials hcreds]
  rfl

/-- The list `ps` is written with the bodies of the single orders. -/
theorem text_batch (ps : List Posting) : (array (ps.map Posting.toJson)).text =
    "[" ++ ",".intercalate (ps.map fun p => p.toJson.text) ++ "]" := by
  rw [text, itemsText_eq, List.map_map]
  rfl

theorem batch_readBack (ps : List Posting) :
    (parse? (Bytes.ofString (array (ps.map Posting.toJson)).text) >>= list? Posting.ofJson?) =
      some ps := by
  have hfaithful : (array (ps.map Posting.toJson)).faithful := by
    rw [faithful, itemsFaithful_iff, List.forall_mem_map]
    exact fun p _ => p.survives.faithful
  rw [parse?_text hfaithful]
  exact list?_map fun p _ => p.survives.fromJson

/-- An order that is made and submitted at once is submitted once, if all that comes before is done
(`Ready`), and else not at all; without credentials nothing is done. What is submitted says the
payload of the order that was signed, the owner, and the type of the order. Several orders are
submitted as the list of what each one would be by itself (`PostedAlone`), and no orders are
refused. -/
theorem submissions_whole (c : Client) (w : World) (log : Log State) (deferred : Bool) :
    (∀ t tif o, log.state.credentials = none →
      (c.createAndPostOrder t tif o deferred).run w log = (.error (.auth .noCredentials), log)) ∧
    (∀ t tif o creds, log.state.credentials = some creds →
      (∀ p r, c.Ready creds t tif o deferred w log p r → ∃ body hs,
        (c.createAndPostOrder t tif o deferred).run w log =
          (w.reply PostResult.ofJson? (log.events ++ p.events c t ++ [.clockRead]) r,
            ⟨(learned t.tokenId p.facts log).state,
              log.events ++ p.events c t ++ [.clockRead, .sent r]⟩) ∧
        postings (p.events c t ++ [.clockRead, .sent r]) = [r] ∧
        r = (Request.post "/order" body).withHeaders hs ∧
        (parse? (Bytes.ofString body) >>= Posting.ofJson?) =
          some ⟨p.signed.payload, creds.key, tif, deferred⟩) ∧
      ((∃ p r, c.Ready creds t tif o deferred w log p r) ∨
        FailsUnposted (c.createAndPostOrder t tif o deferred) w log)) ∧
    (c.postOrders [] deferred).run w log = (.error (.invalid .noOrders), log) ∧
    ∀ orders creds, orders ≠ [] → log.state.credentials = some creds →
      (c.CanSign creds → ∃ bodies r hs,
        List.Forall₂ (fun o body => c.PostedAlone creds deferred o.1 o.2 body) orders bodies ∧
        (c.postOrders orders deferred).run w log =
          (w.reply (list? PostResult.ofJson?) (log.events ++ [.clockRead]) r,
            { log with events := log.events ++ [.clockRead, .sent r] }) ∧
        r = (Request.post "/orders" ("[" ++ ",".intercalate bodies ++ "]")).withHeaders hs ∧
        (parse? (Bytes.ofString ("[" ++ ",".intercalate bodies ++ "]")) >>=
          list? Posting.ofJson?) =
            some (orders.map fun o => ⟨o.1.payload, creds.key, o.2, deferred⟩)) ∧
      (¬ c.CanSign creds → FailsUnposted (c.postOrders orders deferred) w log) := by
  refine ⟨fun t tif o hnone => ?_, fun t tif o creds hcreds => ⟨fun p r h => ?_, ?_⟩, rfl,
    fun orders creds hne hcreds => ⟨fun hsign => ?_, fun hsign => ?_⟩⟩
  · rw [createAndPostOrder, run_bind, run_requireCredentials_none hnone]
  · obtain ⟨hs, hr⟩ := signedAt_eq_ok h.request
    refine ⟨_, hs, run_createAndPostOrder_ready hcreds h, ?_, hr,
      (posting creds deferred p.signed tif).survives.readBack.fromText⟩
    rw [postings_append, postings_preparation, hr]
    rfl
  · exact createAndPostOrder_cases hcreds c t tif o deferred w
  · obtain ⟨r, hr⟩ := exists_signedAt hsign w log.events
      (.post "/orders" (array ((batch creds deferred orders).map Posting.toJson)).text)
    obtain ⟨hs, hrequest⟩ := signedAt_eq_ok hr
    have hread := batch_readBack (batch creds deferred orders)
    rw [text_batch] at hrequest hread
    refine ⟨_, r, hs, ?_, ?_, hrequest, hread⟩
    · rw [batch, List.map_map, List.forall₂_map_right_iff, List.forall₂_same]
      exact fun o _ => postedAlone hsign deferred o.1 o.2
    · exact (run_postOrders hne hcreds).trans (run_fetchSigned hcreds hr _)
  · obtain ⟨fault, hfault⟩ := signedAt_of_not_canSign hsign
    exact ⟨_, _, [.clockRead], (run_postOrders hne hcreds).trans
      (run_fetchSigned_error hcreds (hfault ..) _), rfl, rfl⟩

/-! ### A submission that is accepted -/

def accepted : PostResult := { success := true, orderId := "1" }

/-- An outside that is `telling`, and accepts what is submitted. -/
def accepting : World := { telling with
  respond := fun past r =>
    if r.path = "/order" then .ok ⟨200, Bytes.ofString accepted.toJson.text⟩
    else telling.respond past r }

theorem accepting_reply {body : String} {hs : Headers} (past : List Event) :
    accepting.reply PostResult.ofJson? past ((Request.post "/order" body).withHeaders hs) =
      .ok accepted := by
  have hstatus : 200 ≤ 200 ∧ 200 < 300 := by decide
  have hpath : ((Request.post "/order" body).withHeaders hs).path = "/order" := rfl
  have hanswer : accepting.respond past ((Request.post "/order" body).withHeaders hs) =
      .ok ⟨200, Bytes.ofString accepted.toJson.text⟩ := by
    simp only [accepting, hpath, if_true]
  exact World.reply_eq_ok.2 ⟨_, accepted.toJson, hanswer, hstatus,
    parse?_text accepted.survives.faithful, accepted.survives.fromJson⟩

/-- A log with the credentials `keyed` in which the tick of the market is known. -/
def tickAndKeyKnown : Log State where
  state := { credentials := some keyed, cache := tickKnown.state.cache }
  events := []

theorem unfunded_canSign : unfunded.CanSign keyed := by
  intro b hb
  obtain rfl : b = keyed := by simpa [unfunded] using hb
  exact ⟨[], rfl⟩

theorem feeless_found : Found feeless { negRisk := some true } accepting tickAndKeyKnown
    [⟨.feeRate, (10 : UInt64)⟩] ⟨.hundredth, true, 10⟩ where
  coarse := by
    rintro fine market ⟨⟨⟩, -⟩
  told := ⟨telling_tells [] .feeRate, trivial⟩
  all := by decide
  stands p := by cases p <;> rfl

theorem feeless_ready : ∃ p r, unfunded.Ready keyed feeless .goodTillCancelled
    { negRisk := some true } false accepting tickAndKeyKnown p r := by
  have hbuild : ({ feeless with feeRate := some 10 }.build unfunded.signer.trader
      unfunded.signer.chain.contracts .goodTillCancelled .hundredth).toOption.isSome := by
    decide +kernel
  cases hbuilt : { feeless with feeRate := some 10 }.build unfunded.signer.trader
      unfunded.signer.chain.contracts .goodTillCancelled .hundredth with
  | error e =>
    rw [hbuilt] at hbuild
    cases hbuild
  | ok built =>
    let p : Preparation := ⟨[⟨.feeRate, (10 : UInt64)⟩], ⟨.hundredth, true, 10⟩,
      { built with salt := 7 }, ⟨List.replicate 65 27, rfl⟩⟩
    have hp : unfunded.Prepared feeless .goodTillCancelled { negRisk := some true } accepting
        tickAndKeyKnown p := ⟨feeless_found, ⟨built, hbuilt, rfl⟩, rfl⟩
    obtain ⟨r, hr⟩ := exists_signedAt unfunded_canSign accepting
      (unfunded.signedLog feeless tickAndKeyKnown p).events
      (.post "/order" (posting keyed false p.signed .goodTillCancelled).toJson.text)
    exact ⟨p, r, hp, hr⟩

def blank : SignedOrder := ⟨OrderSigner.openEnded, "", true⟩

/-- One order is signed and submitted, once; another is submitted twice over, by its two types. -/
theorem submissions_whole_accepting :
    (∃ p r, ((unfunded.createAndPostOrder feeless .goodTillCancelled { negRisk := some true }
        false).run accepting tickAndKeyKnown).1 = .ok accepted ∧
      postings ((unfunded.createAndPostOrder feeless .goodTillCancelled { negRisk := some true }
        false).run accepting tickAndKeyKnown).2.events = [r] ∧
      unfunded.Ready keyed feeless .goodTillCancelled { negRisk := some true } false accepting
        tickAndKeyKnown p r) ∧
    ∃ first second r hs,
      ((unfunded.postOrders [(blank, .fillOrKill), (blank, .goodTillCancelled)] true).run accepting
        tickAndKeyKnown).2.events = [.clockRead, .sent r] ∧
      r = (Request.post "/orders" ("[" ++ (first ++ "," ++ second) ++ "]")).withHeaders hs ∧
      unfunded.PostedAlone keyed true blank .fillOrKill first ∧
      unfunded.PostedAlone keyed true blank .goodTillCancelled second := by
  constructor
  · obtain ⟨p, r, hready⟩ := feeless_ready
    obtain ⟨body, hs, hrun, hposted, rfl, -⟩ := ((submissions_whole unfunded accepting
      tickAndKeyKnown false).2.1 feeless .goodTillCancelled { negRisk := some true } keyed rfl).1
      p r hready
    refine ⟨p, _, ?_, ?_, hready⟩
    · rw [hrun, accepting_reply]
    · rw [hrun]
      exact hposted
  · obtain ⟨bodies, r, hs, halone, hrun, hr, -⟩ := ((submissions_whole unfunded accepting
      tickAndKeyKnown true).2.2.2 [(blank, .fillOrKill), (blank, .goodTillCancelled)] keyed
      (by simp) rfl).1 unfunded_canSign
    rcases halone with _ | ⟨hfirst, _ | ⟨hsecond, ⟨⟩⟩⟩
    refine ⟨_, _, r, hs, by rw [hrun]; rfl, ?_, hfirst, hsecond⟩
    rw [hr, String.intercalate_cons_cons, String.intercalate_singleton]

end Client
end Exchange
end TradingDesk
