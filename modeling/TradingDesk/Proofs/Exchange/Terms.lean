import TradingDesk.Proofs.Exchange.Answers
import TradingDesk.Proofs.Market.Lookups
import TradingDesk.Proofs.Order.Build
import TradingDesk.Proofs.Order.Payload

/-! Orders for a market of which some parameters are given and some are known. The rest is asked
for, one question after the other; the first that is not answered ends it. Only what is all resolved
and makes a valid order is signed, and what was learned on the way is kept. -/

namespace TradingDesk.Exchange.Client

open Session

/-! ### Questions and facts -/

/-- The question about `p` is put. -/
def asking (token : String) (p : Parameter) : Event := .sent (p.inquiry token)

/-- The service tells each of the facts, when it is asked about them one after the other, after the
events `past`. -/
def Told (w : World) (token : String) : List Fact → List Event → Prop
  | [], _ => True
  | f :: facts, past => w.Tells past token f.parameter f.value ∧
      Told w token facts (past ++ [asking token f.parameter])

/-- The `log` once these `facts` were asked for and kept. -/
def learned (token : String) (facts : List Fact) (log : Log State) : Log State where
  state := { log.state with cache := log.state.cache.keep token facts }
  events := log.events ++ (facts.map Fact.parameter).map (asking token)

@[simp] theorem learned_nil (token : String) (log : Log State) : learned token [] log = log := by
  simp [learned, MarketCache.keep]

theorem learned_append (token : String) (facts more : List Fact) (log : Log State) :
    learned token (facts ++ more) log = learned token more (learned token facts log) := by
  simp [learned, MarketCache.keep_append]

variable {w : World} {token : String} {log : Log State} {p : Parameter}

theorem told_append {facts more : List Fact} {past : List Event} :
    Told w token (facts ++ more) past ↔ Told w token facts past ∧
      Told w token more (past ++ (facts.map Fact.parameter).map (asking token)) := by
  induction facts generalizing past with
  | nil => simp [Told]
  | cons f facts ih => simp [Told, ih, and_assoc]

/-- What is told of the same parameters after the events `past` is the same. -/
theorem told_unique {facts more : List Fact} {past : List Event} (h : Told w token facts past)
    (h' : Told w token more past)
    (hparameters : facts.map Fact.parameter = more.map Fact.parameter) : facts = more := by
  induction facts generalizing more past with
  | nil => exact (List.map_eq_nil_iff.1 hparameters.symm).symm
  | cons f facts ih =>
    obtain ⟨g, more, rfl, hfirst, hrest⟩ := List.map_eq_cons_iff.1 hparameters.symm
    obtain ⟨p, v⟩ := f
    obtain ⟨q, u⟩ := g
    obtain rfl : q = p := hfirst
    obtain rfl : v = u := h.1.unique h'.1
    rw [ih h.2 h'.2 hrest.symm]

/-- Where all of `facts` is told, no question among them is left without an answer. -/
theorem not_withholds_of_told {facts more : List Fact} {later : List Parameter}
    {past : List Event} {e : Error} (h : Told w token facts past) (hmore : Told w token more past)
    (hparameters : facts.map Fact.parameter = more.map Fact.parameter ++ p :: later) :
    ¬ w.Withholds (past ++ (more.map Fact.parameter).map (asking token)) token p e := by
  obtain ⟨front, rest, rfl, hfront, hrest⟩ := List.map_eq_append_iff.1 hparameters
  obtain ⟨f, rest, rfl, rfl, -⟩ := List.map_eq_cons_iff.1 hrest
  obtain ⟨htold, htells, -⟩ := told_append.1 h
  obtain rfl := told_unique htold hmore hfront
  exact htells.not_withholds

/-! ### One lookup -/

/-- The session that fetches the value of `p`. -/
theorem run_fetch_answer (p : Parameter) (token : String) (w : World) (log : Log State) :
    (do Session.ofExcept (readAnswer p (← send (question p token))) : Action p.Value).run w log =
      (answer w log.events p token, { log with events := log.events ++ [asking token p] }) := by
  have hquestion : question p token = p.inquiry token := by cases p <;> rfl
  rw [run_bind, run_send, hquestion, answer, asking]
  cases w.respond log.events (p.inquiry token) with
  | error e => rfl
  | ok r => exact run_ofExcept ..

theorem serve_slot (p : Parameter) (token : String) (fetched : Except Error p.Value) (st : State) :
    (slot p.slot).serve token fetched st = ((p.slot.serve token fetched st.cache).1,
      { st with cache := (p.slot.serve token fetched st.cache).2 }) := by
  have hknown : (slot p.slot).known? token st = p.slot.known? token st.cache := rfl
  simp only [Slot.serve, hknown]
  cases p.slot.known? token st.cache with
  | some v => rfl
  | none =>
    cases fetched with
    | ok v => rfl
    | error e => rfl

/-- A lookup ends as `Slot.serve` says, and it asks where nothing is known. -/
theorem run_lookUp (p : Parameter) (token : String) (w : World) (log : Log State) :
    (lookUp p token).run w log =
      ((p.slot.serve token (answer w log.events p token) log.state.cache).1,
        { state := { log.state with
            cache := (p.slot.serve token (answer w log.events p token) log.state.cache).2 }
          events := log.events ++
            if (p.slot.known? token log.state.cache).isSome then [] else [asking token p] }) := by
  rw [lookUp, Slot.run_lookup_serve _ _ (run_fetch_answer p token w log), serve_slot]
  rfl

/-- So does one among the lookups of `d`, if no other comes between: it returns the same, and it
leaves the same in the cache. -/
theorem lookUp_alone (p : Parameter) (token : String) (w : World) {log : Log State} {d : Traffic}
    (hd : d.cache = log.state.cache) :
    let i := d.lookups.length
    let e := Traffic.run [.start p token (answer w log.events p token), .advance i, .advance i,
      .advance i] d
    e.Returned i p token ((lookUp p token).run w log).1 ∧
      e.cache = ((lookUp p token).run w log).2.state.cache := by
  rw [run_lookUp, ← hd]
  exact d.run_alone p token _

theorem run_lookUp_known {v : p.Value} (h : p.slot.known? token log.state.cache = some v) :
    (lookUp p token).run w log = (.ok v, log) := by
  simp [run_lookUp, Slot.serve, h]

theorem run_lookUp_unknown (h : p.slot.known? token log.state.cache = none) :
    (lookUp p token).run w log =
      match answer w log.events p token with
      | .ok v => (.ok v, learned token [⟨p, v⟩] log)
      | .error e => (.error e, { log with events := log.events ++ [asking token p] }) := by
  rw [run_lookUp]
  simp only [Slot.serve, h]
  cases answer w log.events p token with
  | ok v => rfl
  | error e => rfl

/-! ### Sessions that ask -/

variable {α β : Type}

/-- The session `s` asks about the parameters `ps` in turn. Once it is told all the `facts` it
succeeds, and what it returns has `Q` in the cache that it leaves; where the service withholds one
of the `ps` it fails as that question did. -/
def Finds (w : World) (token : String) (log : Log State) (s : Action α) (ps : List Parameter)
    (Q : α → MarketCache → Prop) : Prop :=
  ∃ facts, Told w token facts log.events ∧
    ((ps = facts.map Fact.parameter ∧ ∃ a, s.run w log = (.ok a, learned token facts log) ∧
      Q a (log.state.cache.keep token facts)) ∨
    ∃ p later e, ps = facts.map Fact.parameter ++ p :: later ∧
      w.Withholds (learned token facts log).events token p e ∧
      s.run w log = (.error e, { learned token facts log with
        events := (learned token facts log).events ++ [asking token p] }))

namespace Finds

variable {s : Action α} {ps qs : List Parameter} {Q : α → MarketCache → Prop}

theorem pure {a : α} (h : Q a log.state.cache) : Finds w token log (Pure.pure a) [] Q :=
  ⟨[], trivial, .inl ⟨rfl, a, by rw [learned_nil, run_pure], h⟩⟩

theorem bind {f : α → Action β} {R : β → MarketCache → Prop} (h : Finds w token log s ps Q)
    (hf : ∀ a facts, facts.map Fact.parameter = ps → Q a (log.state.cache.keep token facts) →
      Finds w token (learned token facts log) (f a) qs R) :
    Finds w token log (s >>= f) (ps ++ qs) R := by
  obtain ⟨facts, htold, ⟨hps, a, hrun, hQ⟩ | ⟨p, later, e, hps, hwithholds, hrun⟩⟩ := h
  · obtain ⟨more, hmore, hend⟩ := hf a facts hps.symm hQ
    refine ⟨facts ++ more, told_append.2 ⟨htold, hmore⟩, ?_⟩
    rw [run_bind, hrun, learned_append, MarketCache.keep_append, List.map_append]
    rcases hend with ⟨hqs, b, hrun, hR⟩ | ⟨q, later, e, hqs, hwithholds, hrun⟩
    · exact .inl ⟨by rw [hps, hqs], b, hrun, hR⟩
    · exact .inr ⟨q, later, e, by rw [hps, hqs, List.append_assoc], hwithholds, hrun⟩
  · refine ⟨facts, htold, .inr ⟨p, later ++ qs, e, ?_, hwithholds, ?_⟩⟩
    · rw [hps, List.append_assoc, List.cons_append]
    · rw [run_bind, hrun]

end Finds

/-! ### Terms -/

/-- What the ticket `t` and its overrides `o` say of a parameter. -/
def given (t : Ticket) (o : Overrides) : (p : Parameter) → Option p.Value
  | .tick => o.tick
  | .negRisk => o.negRisk
  | .feeRate => t.feeRate

/-- The parameter `p` is neither given nor known in `c`. -/
def lacks (t : Ticket) (o : Overrides) (c : MarketCache) (p : Parameter) : Bool :=
  (given t o p).isNone && (p.slot.known? t.tokenId c).isNone

def lacking (t : Ticket) (o : Overrides) (c : MarketCache) : List Parameter :=
  [.tick, .negRisk, .feeRate].filter (lacks t o c)

def Terms.value (m : Terms) : (p : Parameter) → p.Value
  | .tick => m.tick
  | .negRisk => m.negRisk
  | .feeRate => m.feeRate

theorem Terms.eq_of_value {m m' : Terms} (h : ∀ p, m.value p = m'.value p) : m = m' := by
  obtain ⟨tick, negRisk, feeRate⟩ := m
  obtain rfl : tick = m'.tick := h .tick
  obtain rfl : negRisk = m'.negRisk := h .negRisk
  obtain rfl : feeRate = m'.feeRate := h .feeRate
  rfl

/-- The value `v` of `p` is what is given, or else what is known in `c`. -/
def Stands (t : Ticket) (o : Overrides) (p : Parameter) (v : p.Value) (c : MarketCache) : Prop :=
  (given t o p).or (p.slot.known? t.tokenId c) = some v

variable {t : Ticket} {o : Overrides}

theorem resolve_finds (p : Parameter) : Finds w t.tokenId log (resolve p t.tokenId (given t o p))
    ([p].filter (lacks t o log.state.cache)) (Stands t o p) := by
  cases hgiven : given t o p with
  | some v =>
    have hlacks : [p].filter (lacks t o log.state.cache) = [] := by simp [lacks, hgiven]
    rw [hlacks]
    exact .pure (by simp [Stands, hgiven])
  | none =>
    cases hknown : p.slot.known? t.tokenId log.state.cache with
    | some v =>
      have hlacks : [p].filter (lacks t o log.state.cache) = [] := by simp [lacks, hknown]
      refine ⟨[], trivial, .inl ⟨hlacks, v, ?_, by simp [Stands, hgiven, hknown, MarketCache.keep]⟩⟩
      rw [resolve, run_lookUp_known hknown, learned_nil]
    | none =>
      have hlacks : [p].filter (lacks t o log.state.cache) = [p] := by simp [lacks, hgiven, hknown]
      have hrun := run_lookUp_unknown (w := w) hknown
      cases hanswer : answer w log.events p t.tokenId with
      | ok v =>
        rw [hanswer] at hrun
        refine ⟨[⟨p, v⟩], ⟨answer_eq_ok.1 hanswer, trivial⟩, .inl ⟨hlacks, v, hrun, ?_⟩⟩
        rw [Stands, hgiven, Option.none_or]
        exact p.known?_insert_self t.tokenId v log.state.cache
      | error e =>
        rw [hanswer] at hrun
        refine ⟨[], trivial, .inr ⟨p, [], e, hlacks, ?_, ?_⟩⟩
        · rw [learned_nil]
          exact answer_eq_error.1 hanswer
        · rwa [learned_nil]

/-- The `facts` learned of other parameters leave `p` as it is. -/
theorem lacks_keep {facts : List Fact} {c : MarketCache} (h : p ∉ facts.map Fact.parameter) :
    lacks t o (c.keep t.tokenId facts) p = lacks t o c p := by
  rw [lacks, lacks, MarketCache.known?_keep_of_notMem h]

theorem Stands.keep {facts : List Fact} {c : MarketCache} {v : p.Value} (hstands : Stands t o p v c)
    (h : p ∉ facts.map Fact.parameter) : Stands t o p v (c.keep t.tokenId facts) := by
  rwa [Stands, MarketCache.known?_keep_of_notMem h]

/-- The tick `fine` that is given is finer than `market`, which is known in `c` for the market. -/
def TooFine (t : Ticket) (o : Overrides) (c : MarketCache) (fine market : Tick) : Prop :=
  o.tick = some fine ∧ Parameter.tick.slot.known? t.tokenId c = some market ∧
    fine.value < market.value

theorem run_cachedTick : (cachedTick token).run w log =
    (.ok (Parameter.tick.slot.known? token log.state.cache), log) := rfl

theorem run_resolveTick_tooFine {fine market : Tick} (h : TooFine t o log.state.cache fine market) :
    (resolveTick t.tokenId o.tick).run w log =
      (.error (.invalid (.tickTooFine fine market)), log) := by
  obtain ⟨hgiven, hknown, hlt⟩ := h
  rw [hgiven, resolveTick, run_bind, run_cachedTick, hknown]
  dsimp only
  rw [if_pos hlt, run_throw]

theorem run_resolveTick (h : ∀ fine market, ¬ TooFine t o log.state.cache fine market) :
    (resolveTick t.tokenId o.tick).run w log =
      (resolve .tick t.tokenId (given t o .tick)).run w log := by
  rw [given]
  cases hgiven : o.tick with
  | none => rfl
  | some fine =>
    rw [resolveTick, run_bind, run_cachedTick]
    cases hknown : Parameter.tick.slot.known? t.tokenId log.state.cache with
    | none => rfl
    | some market =>
      dsimp only
      rw [if_neg fun hlt => h fine market ⟨hgiven, hknown, hlt⟩]
      rfl

/-- What is lacking of `p` is so still when the `facts` about others were asked for. -/
theorem resolve_finds_learned {facts : List Fact} (h : p ∉ facts.map Fact.parameter) :
    Finds w t.tokenId (learned t.tokenId facts log) (resolve p t.tokenId (given t o p))
      ([p].filter (lacks t o log.state.cache)) (Stands t o p) := by
  have hfinds : Finds w t.tokenId (learned t.tokenId facts log) (resolve p t.tokenId (given t o p))
      ([p].filter (lacks t o (log.state.cache.keep t.tokenId facts))) (Stands t o p) :=
    resolve_finds p
  rwa [List.filter_singleton, lacks_keep h, ← List.filter_singleton] at hfinds

theorem notMem_of_filter {q : Parameter} {facts : List Fact} {f : Parameter → Bool}
    (h : facts.map Fact.parameter = [p].filter f) (hne : q ≠ p) :
    q ∉ facts.map Fact.parameter := by
  rw [h]
  exact fun hmem => hne (List.mem_singleton.1 (List.mem_of_mem_filter hmem))

theorem terms_finds (h : ∀ fine market, ¬ TooFine t o log.state.cache fine market) :
    Finds w t.tokenId log (terms t o) (lacking t o log.state.cache)
      fun m c => ∀ p, Stands t o p (m.value p) c := by
  have htick : Finds w t.tokenId log (resolveTick t.tokenId o.tick)
      ([.tick].filter (lacks t o log.state.cache)) (Stands t o .tick) := by
    rw [Finds, run_resolveTick h]
    exact resolve_finds .tick
  have hparts : lacking t o log.state.cache = [.tick].filter (lacks t o log.state.cache) ++
      ([.negRisk].filter (lacks t o log.state.cache) ++
        ([.feeRate].filter (lacks t o log.state.cache) ++ [])) := by
    simp only [← List.filter_append, List.append_nil]
    rfl
  rw [hparts, terms]
  refine htick.bind fun tick ticks hticks hstands => ?_
  have hflag : .negRisk ∉ ticks.map Fact.parameter := notMem_of_filter hticks (by decide)
  refine (resolve_finds_learned hflag).bind fun negRisk flags hflags hstands' => ?_
  rw [← learned_append]
  have hfee : .feeRate ∉ (ticks ++ flags).map Fact.parameter := by
    rw [List.map_append, List.mem_append, not_or]
    exact ⟨notMem_of_filter hticks (by decide), notMem_of_filter hflags (by decide)⟩
  refine (resolve_finds_learned hfee).bind fun feeRate fees hfees hstands'' => .pure fun p => ?_
  rw [learned, learned, MarketCache.keep_append]
  cases p with
  | tick =>
    exact (hstands.keep (notMem_of_filter hflags (by decide))).keep
      (notMem_of_filter hfees (by decide))
  | negRisk => exact hstands'.keep (notMem_of_filter hfees (by decide))
  | feeRate =>
    rw [learned, MarketCache.keep_append] at hstands''
    exact hstands''

/-! ### Orders -/

/-- What is done on the terms `m`: a ticket that makes no order is refused, and the signer is asked
about an order just once. -/
def Signs (c : Client) (t : Ticket) (tif : TimeInForce) (m : Terms) (w : World) (log : Log State)
    (ending : Except Error SignedOrder × Log State) : Prop :=
  match { t with feeRate := some m.feeRate }.build c.signer.trader c.chain.contracts tif m.tick with
  | .error e => ending = (.error e, log)
  | .ok built =>
    let order := { built with salt := w.random log.events % 9007199254740992 }
    let digest := order.digest c.chain.id
      (if m.negRisk then c.chain.contracts.negRiskExchange else c.chain.contracts.exchange)
    order.feeRate = (if m.feeRate = 0 then none else some m.feeRate) ∧
      ending.2 = { log with events := log.events ++ [.saltDrawn, .asked c.address digest] } ∧
      ∀ signed, ending.1 = .ok signed ↔ ∃ g : Signature,
        w.sign (log.events ++ [.saltDrawn]) c.address digest = .ok g.bytes ∧
        signed = ⟨order, g.toText, m.negRisk⟩

theorem positive_some (n : UInt64) :
    Ticket.positive (some n) = if n = 0 then none else some n := by
  by_cases h : n = 0
  · subst h
    rfl
  · have hpos : 0 < n := UInt64.pos_iff_ne_zero.2 h
    simp [Ticket.positive, h, hpos]

theorem create_signs (c : Client) (t : Ticket) (tif : TimeInForce) (m : Terms) (w : World)
    (log : Log State) :
    c.Signs t tif m w log ((c.signer.create { t with feeRate := some m.feeRate } tif m.tick
      m.negRisk).run w log) := by
  rw [Signs, OrderSigner.run_create, chain, address]
  generalize hbuild : Ticket.build _ _ _ _ _ = b
  cases b with
  | error e => rfl
  | ok built =>
    obtain ⟨-, -, token, maker, taker, -, -, rfl⟩ := Ticket.build_eq_ok.1 hbuild
    refine ⟨?_, ?_, fun signed => ?_⟩
    · exact positive_some m.feeRate
    · rw [OrderSigner.run_sign_log, List.append_assoc]
      rfl
    · constructor
      · intro h
        obtain ⟨g, hg, hsigned, -⟩ := OrderSigner.run_sign_eq_ok.1 (Prod.ext h rfl)
        exact ⟨g, hg, hsigned⟩
      · rintro ⟨g, hg, hsigned⟩
        exact congrArg Prod.fst (OrderSigner.run_sign_eq_ok.2 ⟨g, hg, hsigned, rfl⟩)

/-- An order is made on its terms. A tick that is `TooFine` is refused before anything is sent.
Otherwise the parameters that are `lacking` are asked for in turn, each for the token of `t`: the
service tells the `facts` of the first of them. If it withholds the next one, `p`, that ends the
attempt with its error; once all are told, the order is built on terms `m` that are given or known
by then, and the signer is asked about it for the exchange of its market. What was told is kept, and
the cache is else as it was. -/
theorem createOrder_run (c : Client) (t : Ticket) (tif : TimeInForce) (o : Overrides) (w : World)
    (log : Log State) :
    (∀ fine market, TooFine t o log.state.cache fine market →
      (c.createOrder t tif o).run w log = (.error (.invalid (.tickTooFine fine market)), log)) ∧
    ((∀ fine market, ¬ TooFine t o log.state.cache fine market) → ∃ facts,
      Told w t.tokenId facts log.events ∧
      ((∃ p later e, lacking t o log.state.cache = facts.map Fact.parameter ++ p :: later ∧
        w.Withholds (learned t.tokenId facts log).events t.tokenId p e ∧
        (c.createOrder t tif o).run w log = (.error e, { learned t.tokenId facts log with
          events := (learned t.tokenId facts log).events ++ [asking t.tokenId p] })) ∨
      (lacking t o log.state.cache = facts.map Fact.parameter ∧
        ∃ m : Terms, (∀ p, Stands t o p (m.value p) (log.state.cache.keep t.tokenId facts)) ∧
          c.Signs t tif m w (learned t.tokenId facts log)
            ((c.createOrder t tif o).run w log)))) := by
  rw [createOrder, run_bind]
  constructor
  · intro fine market h
    rw [terms, run_bind, run_resolveTick_tooFine h]
  · intro h
    obtain ⟨facts, htold, ⟨hall, m, hrun, hstands⟩ | ⟨p, later, e, hps, hwithholds, hrun⟩⟩ :=
      terms_finds (w := w) h
    · rw [hrun]
      exact ⟨facts, htold, .inr ⟨hall, m, hstands, c.create_signs t tif m w _⟩⟩
    · rw [hrun]
      exact ⟨facts, htold, .inl ⟨p, later, e, hps, hwithholds, rfl⟩⟩

/-- A ticket that does not say its fee. -/
def feeless : Ticket where
  tokenId := "1234"
  price := ⟨5, 1, by decide, by decide⟩
  size := ⟨1000, 1, by decide, by decide⟩
  side := .buy

/-- A success with a record of which `name` is the one member. -/
def successWith (name : String) (value : Json) : Response :=
  ⟨200, Bytes.ofString (Json.object [(name, value)]).text⟩

/-- An outside that tells of the market of the token `1234`, and signs all that it is asked. -/
def telling : World where
  respond := fun _ r =>
    if r = .get "/tick-size" [("token_id", "1234")] then
      .ok (successWith "minimum_tick_size" (.string "0.01"))
    else if r = .get "/neg-risk" [("token_id", "1234")] then
      .ok (successWith "neg_risk" (.bool true))
    else if r = .get "/fee-rate" [("token_id", "1234")] then
      .ok (successWith "base_fee" (.number (.nat 10)))
    else .error .connection
  sign := fun _ _ _ => .ok (List.replicate 65 27)
  clock := fun _ => 0
  random := fun _ => 7

/-- What `telling` tells. -/
def toldTerms : Terms := ⟨.hundredth, true, 10⟩

theorem telling_tells (past : List Event) (p : Parameter) :
    telling.Tells past "1234" p (toldTerms.value p) := by
  have hcarries (q : Parameter) (value : Json) (h : (Json.object [(q.member, value)]).faithful) :
      q.Carries (successWith q.member value).body (some value) :=
    ⟨_, Json.parse?_text h, by simp [Json.fields?, Json.occurrences]⟩
  have hsuccess : 200 ≤ 200 ∧ 200 < 300 := by decide
  cases p with
  | tick =>
    exact ⟨_, rfl, hsuccess, .string "0.01", "0.01", hcarries .tick _ (by decide), rfl,
      Tick.parse_eq_ok.1 rfl⟩
  | negRisk => exact ⟨_, rfl, hsuccess, hcarries .negRisk _ (by decide)⟩
  | feeRate => exact ⟨_, rfl, hsuccess, .inl (hcarries .feeRate _ (by decide))⟩

/-- What `telling` tells of all the parameters, one after the other. -/
def toldFacts : List Fact :=
  [⟨.tick, toldTerms.tick⟩, ⟨.negRisk, toldTerms.negRisk⟩, ⟨.feeRate, toldTerms.feeRate⟩]

theorem told_toldFacts (past : List Event) : Told telling "1234" toldFacts past :=
  ⟨telling_tells _ .tick, telling_tells _ .negRisk, telling_tells _ .feeRate, trivial⟩

/-- A log in which the tick of the market is known. -/
def tickKnown : Log State where
  state := { cache := Parameter.tick.slot.insert "1234" .hundredth {} }
  events := []

def unfunded : Client := ⟨⟨⟨.zero, none, .account⟩, .polygon⟩, none⟩

/-- A finer tick is refused. With nothing given for `feeless` and nothing known, all is asked for
and kept, and the order is signed. -/
theorem createOrder_run_feeless :
    (TooFine feeless { tick := some .thousandth } tickKnown.state.cache .thousandth .hundredth ∧
      (unfunded.createOrder feeless .goodTillCancelled { tick := some .thousandth }).run telling
        tickKnown = (.error (.invalid (.tickTooFine .thousandth .hundredth)), tickKnown)) ∧
    (∀ fine market, ¬ TooFine feeless {} {} fine market) ∧
    ∃ signed after digest,
      (unfunded.createOrder feeless .goodTillCancelled {}).run telling ⟨{}, []⟩ =
        (.ok signed, after) ∧
      after.events = [.sent (.get "/tick-size" [("token_id", "1234")]),
        .sent (.get "/neg-risk" [("token_id", "1234")]),
        .sent (.get "/fee-rate" [("token_id", "1234")]), .saltDrawn, .asked .zero digest] ∧
      (∀ p, p.slot.known? "1234" after.state.cache = some (toldTerms.value p)) ∧
      signed.order.feeRate = some 10 ∧ signed.negRisk = true := by
  have hfine : TooFine feeless { tick := some .thousandth } tickKnown.state.cache .thousandth
      .hundredth := ⟨rfl, by decide, by decide⟩
  have hcoarse : ∀ fine market, ¬ TooFine feeless {} {} fine market := by
    rintro fine market ⟨⟨⟩, -⟩
  refine ⟨⟨hfine, ?_⟩, hcoarse, ?_⟩
  · exact (createOrder_run unfunded feeless .goodTillCancelled { tick := some .thousandth }
      telling tickKnown).1 _ _ hfine
  obtain ⟨facts, htold, hend⟩ := (createOrder_run unfunded feeless .goodTillCancelled {} telling
    ⟨{}, []⟩).2 hcoarse
  have hall : lacking feeless {} {} = toldFacts.map Fact.parameter := by decide
  rw [hall] at hend
  rcases hend with ⟨p, later, e, hps, hwithholds, -⟩ | ⟨hps, m, hstands, hsigns⟩
  · exact absurd hwithholds (not_withholds_of_told (told_toldFacts []) htold hps)
  · obtain rfl : toldFacts = facts := told_unique (told_toldFacts []) htold hps
    obtain rfl : toldTerms = m := Terms.eq_of_value fun p =>
      Option.some.inj ((by cases p <;> rfl : _ = some _).symm.trans (hstands p))
    have hbuild : ({ feeless with feeRate := some 10 }.build unfunded.signer.trader
        unfunded.signer.chain.contracts .goodTillCancelled .hundredth).toOption.isSome := by
      decide +kernel
    rw [Signs] at hsigns
    generalize Ticket.build _ _ _ _ _ = b at hbuild hsigns
    cases b with
    | error e => cases hbuild
    | ok built =>
      obtain ⟨hrate, hlog, hsigned⟩ := hsigns
      have hok := (hsigned _).2 ⟨⟨List.replicate 65 27, rfl⟩, rfl, rfl⟩
      refine ⟨_, _, _, Prod.ext hok hlog, rfl, fun p => ?_, hrate, rfl⟩
      cases p <;> rfl

end TradingDesk.Exchange.Client
