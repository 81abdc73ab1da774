import TradingDesk.Proofs.Auth.Requests
import TradingDesk.Proofs.Exchange.Calls
import TradingDesk.Proofs.Wire.RoundTrip

/-! The pages of open orders. Each page after the first is asked for with the cursor of the page
before it, until a cursor says that there is no more. The orders of all pages are returned in the
order in which they came; where a page does not come, no orders are returned. -/

namespace TradingDesk.Exchange

/-- There is a page after the page `p`. -/
def Page.Continues (p : Page) : Prop := p.nextCursor ≠ "" ∧ p.nextCursor ≠ "LTE="

theorem Page.continues_iff {p : Page} : p.Continues ↔ ¬ Client.isLastCursor p.nextCursor := by
  simp [Continues, Client.isLastCursor]

namespace Client

open Session

/-- A `request` for a page as it is sent, and the `page` that it brings. -/
structure Visit where
  request : Request
  page : Page

def Visit.events (v : Visit) : List Event := [.clockRead, .sent v.request]

/-- The request for the page at `cursor`, without headers. It tells what the filter `f` is for. -/
def pageRequest (f : Filter) (cursor : Option String) : Request :=
  .get "/data/orders" ((f.id.map ("id", ·)).toList ++ (f.market.map ("market", ·)).toList ++
    (f.assetId.map ("asset_id", ·)).toList ++ (cursor.map ("next_cursor", ·)).toList)

/-- Pages that are asked for one after the other, after the events `past` and from a cursor on: each
request is for the page at the cursor of the page before. -/
def Browsed (c : Client) (creds : Credentials) (f : Filter) (w : World) :
    (past : List Event) → (cursor : Option String) → List Visit → Prop
  | _, _, [] => True
  | past, cursor, v :: later =>
    c.signedAt creds w past (pageRequest f cursor) = .ok v.request ∧
      w.reply Page.ofJson? (past ++ [.clockRead]) v.request = .ok v.page ∧
      Browsed c creds f w (past ++ v.events) (some v.page.nextCursor) later

/-- The cursor of the last page of `visits`, or the first `cursor` where there is no page. -/
def cursorAfter (cursor : Option String) (visits : List Visit) : Option String :=
  (visits.getLast?.map (·.page.nextCursor)).or cursor

/-- The service answers the requests that follow the events `past` with these pages, in turn. -/
def Serves (w : World) (past : List Event) (pages : List Page) : Prop :=
  ∀ i (hi : i < pages.length) (added : List Event) (r : Request), (sent added).length = i →
    w.reply Page.ofJson? (past ++ added) r = .ok pages[i]

variable {c : Client} {creds : Credentials} {f : Filter} {w : World} {past : List Event}
  {cursor : Option String} {found : List OpenOrder} {live : List Visit} {s : Request} {p : Page}
  {e : Error} {st : State}

theorem cursorAfter_cons (cursor : Option String) (v : Visit) (live : List Visit) :
    cursorAfter cursor (v :: live) = cursorAfter (some v.page.nextCursor) live := by
  rw [cursorAfter, cursorAfter, List.getLast?_cons]
  cases live.getLast? with
  | none => rfl
  | some last => rfl

theorem browsed_append {later : List Visit} :
    c.Browsed creds f w past cursor (live ++ later) ↔ c.Browsed creds f w past cursor live ∧
      c.Browsed creds f w (past ++ live.flatMap Visit.events) (cursorAfter cursor live) later := by
  induction live generalizing past cursor with
  | nil => simp [Browsed, cursorAfter]
  | cons v live ih => simp [Browsed, cursorAfter_cons, ih, and_assoc]

/-! ### One page -/

theorem page_eq (c : Client) (f : Filter) (cursor : Option String) :
    c.page f cursor = c.fetchSigned (pageRequest f cursor) Page.ofJson? := by
  have hquery : f.query = (f.id.map ("id", ·)).toList ++ (f.market.map ("market", ·)).toList ++
      (f.assetId.map ("asset_id", ·)).toList := by
    obtain ⟨id, market, assetId⟩ := f
    cases id <;> cases market <;> cases assetId <;> rfl
  rw [page, pageRequest, hquery]

theorem run_page (hcreds : st.credentials = some creds)
    (hs : c.signedAt creds w past (pageRequest f cursor) = .ok s) :
    (c.page f cursor).run w ⟨st, past⟩ =
      (w.reply Page.ofJson? (past ++ [.clockRead]) s, ⟨st, past ++ [.clockRead, .sent s]⟩) := by
  rw [page_eq, run_fetchSigned hcreds hs]

theorem run_openOrdersFrom_page (hcreds : st.credentials = some creds)
    (hs : c.signedAt creds w past (pageRequest f cursor) = .ok s)
    (hp : w.reply Page.ofJson? (past ++ [.clockRead]) s = .ok p) (limit : ℕ)
    (found : List OpenOrder) :
    (c.openOrdersFrom f (limit + 1) cursor found).run w ⟨st, past⟩ =
      (if isLastCursor p.nextCursor then pure (some (found ++ p.orders))
        else c.openOrdersFrom f limit (some p.nextCursor) (found ++ p.orders)).run w
        ⟨st, past ++ [.clockRead, .sent s]⟩ := by
  rw [openOrdersFrom, run_bind, run_page hcreds hs, hp]

theorem run_openOrdersFrom_reply_error (hcreds : st.credentials = some creds)
    (hs : c.signedAt creds w past (pageRequest f cursor) = .ok s)
    (he : w.reply Page.ofJson? (past ++ [.clockRead]) s = .error e) (limit : ℕ)
    (found : List OpenOrder) :
    (c.openOrdersFrom f (limit + 1) cursor found).run w ⟨st, past⟩ =
      (.error e, ⟨st, past ++ [.clockRead, .sent s]⟩) := by
  rw [openOrdersFrom, run_bind, run_page hcreds hs, he]

/-! ### Pages one after the other -/

/-- As long as there is a page after them, the pages of `live` are gathered, and the next one is
asked for with the cursor that they leave. -/
theorem run_openOrdersFrom_browsed (hcreds : st.credentials = some creds)
    (hbrowsed : c.Browsed creds f w past cursor live) (hlive : ∀ v ∈ live, v.page.Continues)
    (limit : ℕ) (found : List OpenOrder) :
    (c.openOrdersFrom f (live.length + limit) cursor found).run w ⟨st, past⟩ =
      (c.openOrdersFrom f limit (cursorAfter cursor live)
        (found ++ live.flatMap (·.page.orders))).run w
        ⟨st, past ++ live.flatMap Visit.events⟩ := by
  induction live generalizing past cursor found with
  | nil => simp [cursorAfter]
  | cons v live ih =>
    obtain ⟨hs, hp, hlater⟩ := hbrowsed
    obtain ⟨hv, hlive⟩ := List.forall_mem_cons.1 hlive
    have hlength : (v :: live).length + limit = live.length + limit + 1 := by
      rw [List.length_cons]
      omega
    rw [hlength, run_openOrdersFrom_page hcreds hs hp, if_neg (Page.continues_iff.1 hv),
      cursorAfter_cons, List.flatMap_cons, List.flatMap_cons, ← List.append_assoc,
      ← List.append_assoc]
    exact ih hlater hlive _

/-- The pages come to an end with `last`: there is a page after each one of `live`. -/
structure Finished (c : Client) (creds : Credentials) (f : Filter) (w : World) (past : List Event)
    (live : List Visit) (last : Visit) : Prop where
  browsed : c.Browsed creds f w past none (live ++ [last])
  continues : ∀ v ∈ live, v.page.Continues
  ends : ¬ last.page.Continues

/-- After the pages of `live` the next page does not come: its request `r` fails with `e`. -/
structure Broken (c : Client) (creds : Credentials) (f : Filter) (w : World) (past : List Event)
    (live : List Visit) (r : Request) (e : Error) : Prop where
  browsed : c.Browsed creds f w past none live
  continues : ∀ v ∈ live, v.page.Continues
  request : c.signedAt creds w (past ++ live.flatMap Visit.events)
    (pageRequest f (cursorAfter none live)) = .ok r
  fails : w.reply Page.ofJson? (past ++ live.flatMap Visit.events ++ [.clockRead]) r = .error e

theorem run_openOrders_finished {last : Visit} (hcreds : st.credentials = some creds)
    (h : c.Finished creds f w past live last) {limit : ℕ} (hlimit : live.length < limit) :
    (c.openOrders f limit).run w ⟨st, past⟩ =
      (.ok (some ((live ++ [last]).flatMap (·.page.orders))),
        ⟨st, past ++ (live ++ [last]).flatMap Visit.events⟩) := by
  obtain ⟨extra, rfl⟩ := Nat.exists_eq_add_of_lt hlimit
  obtain ⟨hlive, hs, hp, -⟩ := browsed_append.1 h.browsed
  have hends : isLastCursor last.page.nextCursor := not_not.1 (mt Page.continues_iff.2 h.ends)
  rw [openOrders, Nat.add_assoc, run_openOrdersFrom_browsed hcreds hlive h.continues,
    run_openOrdersFrom_page hcreds hs hp, if_pos hends, run_pure]
  simp [Visit.events]

theorem run_openOrders_broken {r : Request} (hcreds : st.credentials = some creds)
    (h : c.Broken creds f w past live r e) {limit : ℕ} (hlimit : live.length < limit) :
    (c.openOrders f limit).run w ⟨st, past⟩ =
      (.error e, ⟨st, past ++ live.flatMap Visit.events ++ [.clockRead, .sent r]⟩) := by
  obtain ⟨extra, rfl⟩ := Nat.exists_eq_add_of_lt hlimit
  rw [openOrders, Nat.add_assoc, run_openOrdersFrom_browsed hcreds h.browsed h.continues,
    run_openOrdersFrom_reply_error hcreds h.request h.fails]

/-- However far one looks, to `n` pages, these have come to an end by then, or one of them did not
come, or there is always a next one. -/
theorem exists_browsed (hsign : c.CanSign creds) (f : Filter) (w : World) (past : List Event)
    (n : ℕ) :
    (∃ live last, live.length < n ∧ c.Finished creds f w past live last) ∨
    (∃ live r e, live.length < n ∧ c.Broken creds f w past live r e) ∨
    ∃ live, live.length = n ∧ c.Browsed creds f w past none live ∧
      ∀ v ∈ live, v.page.Continues := by
  induction n with
  | zero => exact .inr (.inr ⟨[], rfl, trivial, by simp⟩)
  | succ n ih =>
    rcases ih with ⟨live, last, hlt, h⟩ | ⟨live, r, e, hlt, h⟩ | ⟨live, hlength, hbrowsed, hlive⟩
    · exact .inl ⟨live, last, by omega, h⟩
    · exact .inr (.inl ⟨live, r, e, by omega, h⟩)
    · obtain ⟨r, hr⟩ := exists_signedAt hsign w (past ++ live.flatMap Visit.events)
        (pageRequest f (cursorAfter none live))
      cases hp : w.reply Page.ofJson? (past ++ live.flatMap Visit.events ++ [.clockRead]) r with
      | error e => exact .inr (.inl ⟨live, r, e, by omega, hbrowsed, hlive, hr, hp⟩)
      | ok p =>
        have hnext : c.Browsed creds f w past none (live ++ [⟨r, p⟩]) :=
          browsed_append.2 ⟨hbrowsed, hr, hp, trivial⟩
        by_cases hends : p.Continues
        · refine .inr (.inr ⟨live ++ [⟨r, p⟩], by simp [hlength], hnext, ?_⟩)
          rw [List.forall_mem_append, List.forall_mem_singleton]
          exact ⟨hlive, hends⟩
        · exact .inl ⟨live, ⟨r, p⟩, by omega, hnext, hlive, hends⟩

/-- A service that answers with the `pages` in turn has them all browsed. -/
theorem exists_browsed_of_serves (hsign : c.CanSign creds) (f : Filter) (cursor : Option String)
    {pages : List Page} (h : Serves w past pages) :
    ∃ visits : List Visit, visits.map Visit.page = pages ∧
      c.Browsed creds f w past cursor visits := by
  induction pages generalizing past cursor with
  | nil => exact ⟨[], rfl, trivial⟩
  | cons p pages ih =>
    obtain ⟨s, hs⟩ := exists_signedAt hsign w past (pageRequest f cursor)
    have hp : w.reply Page.ofJson? (past ++ [.clockRead]) s = .ok p :=
      h 0 (Nat.zero_lt_succ _) [.clockRead] s rfl
    have hlater : Serves w (past ++ [.clockRead, .sent s]) pages := by
      intro i hi added r hadded
      rw [List.append_assoc]
      exact h (i + 1) (Nat.succ_lt_succ hi) _ r (by simp [sent, ← hadded])
    obtain ⟨visits, hpages, hbrowsed⟩ := ih (some p.nextCursor) hlater
    exact ⟨⟨s, p⟩ :: visits, by rw [List.map_cons, hpages], hs, hp, hbrowsed⟩

theorem run_openOrders_serves {front : List Page} {last : Page} (hsign : c.CanSign creds)
    (hcreds : st.credentials = some creds) (h : Serves w past (front ++ [last]))
    (hfront : ∀ p ∈ front, p.Continues) (hlast : ¬ last.Continues) :
    ∃ visits : List Visit, visits.map Visit.page = front ++ [last] ∧
      c.Browsed creds f w past none visits ∧ ∀ limit, front.length < limit →
        (c.openOrders f limit).run w ⟨st, past⟩ =
          (.ok (some ((front ++ [last]).flatMap Page.orders)),
            ⟨st, past ++ visits.flatMap Visit.events⟩) := by
  obtain ⟨visits, hpages, hbrowsed⟩ := exists_browsed_of_serves hsign f none h
  obtain ⟨live, rest, rfl, rfl, hrest⟩ := List.map_eq_append_iff.1 hpages
  obtain ⟨v, rfl, rfl⟩ := List.map_eq_singleton_iff.1 hrest
  refine ⟨_, hpages, hbrowsed, fun limit hlimit => ?_⟩
  rw [← hpages, List.flatMap_map]
  exact run_openOrders_finished hcreds ⟨hbrowsed, List.forall_mem_map.1 hfront, hlast⟩
    (by rwa [List.length_map] at hlimit)

/-! ### The requests -/

theorem request_of_browsed {visits : List Visit} (h : c.Browsed creds f w past none visits) {i : ℕ}
    (hi : i < visits.length) :
    ∃ hs, visits[i].request =
      (pageRequest f (cursorAfter none (visits.take i))).withHeaders hs := by
  have hparts : visits = visits.take i ++ visits[i] :: visits.drop (i + 1) := by
    rw [← List.drop_eq_getElem_cons hi, List.take_append_drop]
  rw [hparts] at h
  obtain ⟨-, hs, -⟩ := browsed_append.1 h
  exact signedAt_eq_ok hs

theorem cursorAfter_take {visits : List Visit} {i : ℕ} (hi : i < visits.length) :
    cursorAfter none (visits.take (i + 1)) = some visits[i].page.nextCursor := by
  rw [cursorAfter, List.take_succ_eq_append_getElem hi, List.getLast?_concat]
  rfl

/-- Without credentials nothing is asked for, and where they cannot sign nothing is sent. Otherwise
the first request has what the filter `f` says for its query, and each later one also the cursor of
the page before. If the pages are `Finished` the orders of all of them are returned, in order, and
just those requests were sent; if they are `Broken` the failure is returned, and no request follows.
This leaves only services whose pages never end. -/
theorem openOrders_pages (c : Client) (f : Filter) (w : World) (st : State) (past : List Event) :
    (st.credentials = none → ∀ limit, (c.openOrders f (limit + 1)).run w ⟨st, past⟩ =
      (.error (.auth .noCredentials), ⟨st, past⟩)) ∧
    ∀ creds, st.credentials = some creds →
      (¬ c.CanSign creds → ∃ fault, ∀ limit, (c.openOrders f (limit + 1)).run w ⟨st, past⟩ =
        (.error (.auth (.secret fault)), ⟨st, past ++ [.clockRead]⟩)) ∧
      (∀ visits, c.Browsed creds f w past none visits →
        let query := (f.id.map ("id", ·)).toList ++ (f.market.map ("market", ·)).toList ++
          (f.assetId.map ("asset_id", ·)).toList
        (∀ h : 0 < visits.length, ∃ hs, visits[0].request =
          (Request.get "/data/orders" query).withHeaders hs) ∧
        ∀ i, ∀ h : i + 1 < visits.length, ∃ hs, visits[i + 1].request =
          (Request.get "/data/orders"
            (query ++ [("next_cursor", visits[i].page.nextCursor)])).withHeaders hs) ∧
      (∀ live last, c.Finished creds f w past live last → ∀ limit, live.length < limit →
        (c.openOrders f limit).run w ⟨st, past⟩ =
          (.ok (some ((live ++ [last]).flatMap (·.page.orders))),
            ⟨st, past ++ (live ++ [last]).flatMap Visit.events⟩)) ∧
      (∀ live r e, c.Broken creds f w past live r e → ∀ limit, live.length < limit →
        (c.openOrders f limit).run w ⟨st, past⟩ =
          (.error e, ⟨st, past ++ live.flatMap Visit.events ++ [.clockRead, .sent r]⟩)) ∧
      (c.CanSign creds → ∀ front last, Serves w past (front ++ [last]) →
        (∀ p ∈ front, p.Continues) → ¬ last.Continues →
        ∃ visits : List Visit, visits.map Visit.page = front ++ [last] ∧
          c.Browsed creds f w past none visits ∧ ∀ limit, front.length < limit →
            (c.openOrders f limit).run w ⟨st, past⟩ =
              (.ok (some ((front ++ [last]).flatMap Page.orders)),
                ⟨st, past ++ visits.flatMap Visit.events⟩)) ∧
      (c.CanSign creds → ∀ n,
        (∃ live last, live.length < n ∧ c.Finished creds f w past live last) ∨
        (∃ live r e, live.length < n ∧ c.Broken creds f w past live r e) ∨
        ∃ live, live.length = n ∧ c.Browsed creds f w past none live ∧
          ∀ v ∈ live, v.page.Continues) := by
  refine ⟨fun hnone limit => ?_, fun creds hcreds => ⟨fun hsign => ?_, fun visits h => ⟨?_, ?_⟩,
    fun live last h limit => ?_, fun live r e h limit => ?_, fun hsign front last h => ?_,
    fun hsign n => ?_⟩⟩
  · rw [openOrders, openOrdersFrom, run_bind, page_eq, run_fetchSigned_none hnone]
  · obtain ⟨fault, hfault⟩ := signedAt_of_not_canSign hsign
    refine ⟨fault, fun limit => ?_⟩
    rw [openOrders, openOrdersFrom, run_bind, page_eq, run_fetchSigned_error hcreds (hfault _ _ _)]
  · intro h0
    obtain ⟨hs, hrequest⟩ := request_of_browsed h h0
    refine ⟨hs, ?_⟩
    rw [hrequest, List.take_zero]
    simp [pageRequest, cursorAfter]
  · intro i hi
    obtain ⟨hs, hrequest⟩ := request_of_browsed h hi
    rw [cursorAfter_take (Nat.lt_of_succ_lt hi)] at hrequest
    exact ⟨hs, hrequest⟩
  · exact run_openOrders_finished hcreds h
  · exact run_openOrders_broken hcreds h
  · exact run_openOrders_serves hsign hcreds h
  · exact exists_browsed hsign f w past n

/-! ### Two pages -/

def firstPage : Page := { orders := [{ id := "a" }], nextCursor := "MQ==" }

def lastPage : Page := { orders := [{ id := "b" }], nextCursor := "LTE=" }

def pageAfter (past : List Event) : Page := if (sent past).length = 0 then firstPage else lastPage

/-- A service with one order on each of two pages. -/
def twoPaged : World where
  respond past _ := .ok ⟨200, Bytes.ofString (pageAfter past).toJson.text⟩
  sign _ _ _ := .ok []
  clock _ := 1700000000
  random _ := 0

theorem twoPaged_reply (past : List Event) (r : Request) :
    twoPaged.reply Page.ofJson? past r = .ok (pageAfter past) := by
  have htimed : ∀ o ∈ (pageAfter past).orders, o.Timed := by
    unfold pageAfter
    split <;> simp [firstPage, lastPage, OpenOrder.Timed]
  have hstatus : 200 ≤ 200 ∧ 200 < 300 := by decide
  exact decode_of_read hstatus (Page.survives htimed).readBack.fromText

theorem twoPaged_serves : Serves twoPaged [] [firstPage, lastPage] := by
  intro i hi added r hadded
  rw [List.nil_append, twoPaged_reply, pageAfter, hadded]
  match i, hi with
  | 0, _ => rfl
  | 1, _ => rfl

theorem trading_canSign : trading.CanSign keyed := by
  intro b hb
  obtain rfl : b = keyed := by simpa [trading] using hb
  exact ⟨[], rfl⟩

/-- The second request has the cursor of the first page, and the orders of both pages come back. -/
theorem openOrders_pages_twoPaged : ∃ r s : Request,
    (trading.openOrders {} 2).run twoPaged ⟨{ credentials := some keyed }, []⟩ =
      (.ok (some [{ id := "a" }, { id := "b" }]), ⟨{ credentials := some keyed },
        [.clockRead, .sent r, .clockRead, .sent s]⟩) ∧
    r.query = [] ∧ s.query = [("next_cursor", "MQ==")] := by
  obtain ⟨-, hrequests, -, -, hserved, -⟩ := (openOrders_pages trading {} twoPaged
    { credentials := some keyed } []).2 keyed rfl
  obtain ⟨visits, hpages, hbrowsed, hrun⟩ := hserved trading_canSign [firstPage] lastPage
    twoPaged_serves (by simp [firstPage, Page.Continues]) (by simp [lastPage, Page.Continues])
  obtain ⟨u, later, rfl, hu, hlater⟩ := List.map_eq_cons_iff.1 hpages
  obtain ⟨v, rfl, hv⟩ := List.map_eq_singleton_iff.1 hlater
  obtain ⟨hfirst, hnext⟩ := hrequests _ hbrowsed
  obtain ⟨hs, hr⟩ := hfirst Nat.two_pos
  obtain ⟨ht, hs'⟩ := hnext 0 Nat.one_lt_two
  refine ⟨u.request, v.request, hrun 2 Nat.one_lt_two, congrArg Request.query hr, ?_⟩
  have hquery : v.request.query = [("next_cursor", u.page.nextCursor)] :=
    congrArg Request.query hs'
  rw [hquery, hu, firstPage]

end Client
end TradingDesk.Exchange
