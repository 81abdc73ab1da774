import TradingDesk.Proofs.Exchange.Terms

/-! What goes before a submission: the terms are found, an order is made on them, and the signer
signs it. There is one way to do all of this, and then the order comes back signed; else it comes to
an error. Nothing is submitted in either case. -/

namespace TradingDesk.Exchange.Client

open Session

variable {c : Client} {w : World} {tif : TimeInForce} {token : String} {t : Ticket} {o : Overrides}
  {m : Terms} {facts : List Fact} {log : Log State}

/-! ### Sessions that fail -/

/-- The requests among `events` that submit something. -/
def postings (events : List Event) : List Request := (sent events).filter (·.method = .post)

theorem postings_asking (ps : List Parameter) : postings (ps.map (asking token)) = [] := by
  induction ps with
  | nil => rfl
  | cons p ps ih => exact ih

theorem postings_append (events later : List Event) :
    postings (events ++ later) = postings events ++ postings later := by
  rw [postings, sent_append, List.filter_append]
  rfl

/-- The session `s` comes to an error and has submitted nothing. -/
def FailsUnposted {α : Type} (s : Action α) (w : World) (log : Log State) : Prop :=
  ∃ e after added, s.run w log = (.error e, after) ∧ after.events = log.events ++ added ∧
    postings added = []

theorem FailsUnposted.bind {α β : Type} {s : Action α} (h : FailsUnposted s w log)
    (f : α → Action β) : FailsUnposted (s >>= f) w log := by
  obtain ⟨e, after, added, hrun, hevents, hadded⟩ := h
  exact ⟨e, after, added, by rw [run_bind, hrun], hevents, hadded⟩

/-- What fails after a session `s` that has submitted nothing fails with it. -/
theorem FailsUnposted.of_bind {α β : Type} {s : Action α} {f : α → Action β} {a : α}
    {next : Log State} {added : List Event} (hrun : s.run w log = (.ok a, next))
    (hevents : next.events = log.events ++ added) (hadded : postings added = [])
    (h : FailsUnposted (f a) w next) : FailsUnposted (s >>= f) w log := by
  obtain ⟨e, after, more, hrun', hevents', hmore⟩ := h
  refine ⟨e, after, added ++ more, by rw [run_bind, hrun]; exact hrun', ?_, ?_⟩
  · rw [hevents', hevents, List.append_assoc]
  · rw [postings_append, hadded, hmore]
    rfl

/-! ### Terms that are found -/

/-- The terms `m` are found: no tick is too fine, the service told just the facts that were
lacking, and each of the terms is what was given or else is known now. -/
structure Found (t : Ticket) (o : Overrides) (w : World) (log : Log State) (facts : List Fact)
    (m : Terms) : Prop where
  coarse : ∀ fine market, ¬ TooFine t o log.state.cache fine market
  told : Told w t.tokenId facts log.events
  all : lacking t o log.state.cache = facts.map Fact.parameter
  stands : ∀ p, Stands t o p (m.value p) (log.state.cache.keep t.tokenId facts)

theorem run_terms (h : Found t o w log facts m) :
    (terms t o).run w log = (.ok m, learned t.tokenId facts log) := by
  obtain ⟨more, htold, ⟨hall, m', hrun, hstands⟩ | ⟨p, later, e, hall, hwithholds, -⟩⟩ :=
    terms_finds (w := w) h.coarse
  · obtain rfl := told_unique h.told htold (h.all.symm.trans hall)
    obtain rfl : m' = m := Terms.eq_of_value fun p =>
      Option.some.inj ((hstands p).symm.trans (h.stands p))
    exact hrun
  · exact absurd hwithholds (not_withholds_of_told h.told htold (h.all.symm.trans hall))

theorem terms_failsUnposted {fine market : Tick} (h : TooFine t o log.state.cache fine market) :
    FailsUnposted (terms t o) w log :=
  FailsUnposted.bind ⟨_, _, [], run_resolveTick_tooFine h, (List.append_nil _).symm, rfl⟩ _

/-- The terms of `t` are `Found`, or it comes to an error. -/
theorem terms_cases (t : Ticket) (o : Overrides) (w : World) (log : Log State) :
    (∃ facts m, Found t o w log facts m) ∨ FailsUnposted (terms t o) w log := by
  by_cases hcoarse : ∀ fine market, ¬ TooFine t o log.state.cache fine market
  · obtain ⟨facts, htold, ⟨hall, m, -, hstands⟩ | ⟨p, later, e, -, -, hrun⟩⟩ :=
      terms_finds (w := w) hcoarse
    · exact .inl ⟨facts, m, hcoarse, htold, hall, hstands⟩
    · refine .inr ⟨e, _, (facts.map Fact.parameter).map (asking t.tokenId) ++
        [asking t.tokenId p], hrun, List.append_assoc .., ?_⟩
      rw [postings_append, postings_asking]
      rfl
  · push Not at hcoarse
    obtain ⟨fine, market, h⟩ := hcoarse
    exact .inr (terms_failsUnposted h)

/-! ### Orders that are made -/

/-- The `facts` that the service told, the `terms`, the `order` on these and its `signature`. -/
structure Preparation where
  facts : List Fact
  terms : Terms
  order : Order
  signature : Signature

def Preparation.signed (p : Preparation) : SignedOrder :=
  ⟨p.order, p.signature.toText, p.terms.negRisk⟩

def Preparation.digest (p : Preparation) (c : Client) : Word :=
  p.order.digest c.chain.id (c.chain.exchange p.terms.negRisk)

/-- Each question about the market was answered, the ticket `t` makes the order of `p` on the terms
found, and the signer has signed it. -/
structure Prepared (c : Client) (t : Ticket) (tif : TimeInForce) (o : Overrides) (w : World)
    (log : Log State) (p : Preparation) : Prop where
  found : Found t o w log p.facts p.terms
  built : ∃ built, { t with feeRate := some p.terms.feeRate }.build c.signer.trader
      c.chain.contracts tif p.terms.tick = .ok built ∧
    p.order = { built with
      salt := w.random (learned t.tokenId p.facts log).events % 9007199254740992 }
  signed : w.sign ((learned t.tokenId p.facts log).events ++ [.saltDrawn]) c.address (p.digest c) =
    .ok p.signature.bytes

/-- The questions about the market of `t`, and what is done for the signature. -/
def Preparation.events (p : Preparation) (c : Client) (t : Ticket) : List Event :=
  (p.facts.map Fact.parameter).map (asking t.tokenId) ++
    [.saltDrawn, .asked c.address (p.digest c)]

/-- The `log` once the order of `p` is signed. -/
def signedLog (c : Client) (t : Ticket) (log : Log State) (p : Preparation) : Log State :=
  ⟨(learned t.tokenId p.facts log).state, log.events ++ p.events c t⟩

theorem postings_preparation (p : Preparation) (c : Client) (t : Ticket) :
    postings (p.events c t) = [] := by
  rw [Preparation.events, postings_append, postings_asking]
  rfl

theorem run_createOrder_prepared {p : Preparation} (h : c.Prepared t tif o w log p) :
    (c.createOrder t tif o).run w log = (.ok p.signed, c.signedLog t log p) := by
  obtain ⟨built, hbuilt, horder⟩ := h.built
  have hsigned := h.signed
  have hsigns := c.create_signs t tif p.terms w (learned t.tokenId p.facts log)
  rw [Signs, hbuilt] at hsigns
  obtain ⟨-, hlog, hresult⟩ := hsigns
  rw [← horder] at hlog hresult
  rw [createOrder, run_bind, run_terms h.found]
  refine Prod.ext ((hresult p.signed).2 ⟨p.signature, hsigned, rfl⟩) (hlog.trans ?_)
  rw [signedLog, Preparation.events, ← List.append_assoc]
  rfl

/-- On the terms `m` an order is made and signed, or it comes to an error. -/
theorem create_cases (c : Client) (t : Ticket) (tif : TimeInForce) (m : Terms) (w : World)
    (log : Log State) :
    (∃ built g, { t with feeRate := some m.feeRate }.build c.signer.trader c.chain.contracts tif
        m.tick = .ok built ∧
      w.sign (log.events ++ [.saltDrawn]) c.address
        ({ built with salt := w.random log.events % 9007199254740992 }.digest c.chain.id
          (c.chain.exchange m.negRisk)) = .ok (Signature.bytes g)) ∨
    FailsUnposted (c.signer.create { t with feeRate := some m.feeRate } tif m.tick m.negRisk) w
      log := by
  have hsigns := c.create_signs t tif m w log
  rw [Signs] at hsigns
  split at hsigns
  · exact .inr ⟨_, _, [], hsigns, (List.append_nil _).symm, rfl⟩
  · rename_i built hbuilt
    obtain ⟨-, hlog, hresult⟩ := hsigns
    cases hsigned : ((c.signer.create { t with feeRate := some m.feeRate } tif m.tick
      m.negRisk).run w log).1 with
    | error e =>
      exact .inr ⟨e, _, [.saltDrawn, .asked c.address _], Prod.ext hsigned hlog, rfl, rfl⟩
    | ok s =>
      obtain ⟨g, hg, -⟩ := (hresult s).1 hsigned
      exact .inl ⟨built, g, hbuilt, hg⟩

theorem createOrder_cases (c : Client) (t : Ticket) (tif : TimeInForce) (o : Overrides) (w : World)
    (log : Log State) :
    (∃ p, c.Prepared t tif o w log p) ∨ FailsUnposted (c.createOrder t tif o) w log := by
  rcases terms_cases t o w log with ⟨facts, m, hfound⟩ | h
  · rcases c.create_cases t tif m w (learned t.tokenId facts log) with ⟨built, g, hbuilt, hg⟩ | h
    · exact .inl ⟨⟨facts, m, _, g⟩, hfound, ⟨built, hbuilt, rfl⟩, hg⟩
    · exact .inr (.of_bind (run_terms hfound) rfl (postings_asking _) h)
  · exact .inr (h.bind _)

end TradingDesk.Exchange.Client
