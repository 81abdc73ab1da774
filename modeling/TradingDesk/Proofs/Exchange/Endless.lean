import Mathlib.Data.Set.Finite.Range
import TradingDesk.Proofs.Exchange.Pages

/-! Services that always have another page. Nothing but a cursor that says so ends the pages, and it
is not remembered which cursors there were, so a page that names its own cursor is asked for again
and again. What a bound on the number of pages returns is the end of the search wherever it is not
the bound that was met; a search without an end is one that meets every bound. -/

namespace TradingDesk.Exchange.Client

open Session

/-- The service answers each request that follows the events `past` with a page, whatever is asked:
the first with the first page, and so on without an end. -/
def Streams (w : World) (past : List Event) (pages : ℕ → Page) : Prop :=
  ∀ (added : List Event) (r : Request),
    w.reply Page.ofJson? (past ++ added) r = .ok (pages (sent added).length)

/-- The search of `c` for open orders comes to an end, with orders or with an error. -/
def Ends (c : Client) (f : Filter) (w : World) (log : Log State) : Prop :=
  ∃ limit, ((c.openOrders f limit).run w log).1 ≠ .ok none

variable {c : Client} {creds : Credentials} {f : Filter} {w : World} {st : State}
  {past : List Event} {cursor : Option String} {found : List OpenOrder} {log : Log State}
  {pages : ℕ → Page} {n : ℕ}

/-! ### Bounds on the number of pages -/

/-- What is found within the bound `limit` is found within any larger one. -/
theorem run_openOrdersFrom_stable {limit more : ℕ} (hle : limit ≤ more)
    (h : ((c.openOrdersFrom f limit cursor found).run w log).1 ≠ .ok none) :
    (c.openOrdersFrom f more cursor found).run w log =
      (c.openOrdersFrom f limit cursor found).run w log := by
  induction limit generalizing more cursor found log with
  | zero => exact absurd rfl h
  | succ limit ih =>
    obtain ⟨more, rfl⟩ := Nat.exists_eq_add_of_le' (Nat.one_le_of_lt hle)
    rw [openOrdersFrom, run_bind] at h ⊢
    rw [openOrdersFrom, run_bind]
    rcases hpage : (c.page f cursor).run w log with ⟨p | p, after⟩
    · rfl
    · rw [hpage] at h
      dsimp only at h ⊢
      split_ifs at h ⊢
      · rfl
      · exact ih (Nat.le_of_succ_le_succ hle) h

theorem run_openOrders_stable {limit more : ℕ} (hle : limit ≤ more)
    (h : ((c.openOrders f limit).run w log).1 ≠ .ok none) :
    (c.openOrders f more).run w log = (c.openOrders f limit).run w log :=
  run_openOrdersFrom_stable hle h

/-! ### Pages without an end -/

theorem Streams.serves (h : Streams w past pages) (n : ℕ) :
    Serves w past ((List.range n).map pages) := by
  intro i hi added r hadded
  rw [h added r, hadded]
  simp

theorem sent_flatMap_events (visits : List Visit) :
    sent (visits.flatMap Visit.events) = visits.map Visit.request := by
  induction visits with
  | nil => rfl
  | cons v visits ih =>
    rw [List.flatMap_cons, sent_append, ih]
    rfl

/-- As long as each of `pages` has one after it every bound is met. -/
theorem run_openOrders_continues (hsign : c.CanSign creds) (hcreds : st.credentials = some creds)
    (h : Streams w past pages) (hpages : ∀ i < n, (pages i).Continues) :
    ∃ visits : List Visit, visits.map Visit.page = (List.range n).map pages ∧
      c.Browsed creds f w past none visits ∧
      (c.openOrders f n).run w ⟨st, past⟩ = (.ok none, ⟨st, past ++ visits.flatMap Visit.events⟩) := by
  obtain ⟨visits, hvisits, hbrowsed⟩ := exists_browsed_of_serves hsign f none (h.serves n)
  have hlength : visits.length = n := by
    have := congrArg List.length hvisits
    simpa using this
  have hlive : ∀ v ∈ visits, v.page.Continues := by
    rw [← List.forall_mem_map (P := Page.Continues), hvisits, List.forall_mem_map]
    exact fun i hi => hpages i (List.mem_range.1 hi)
  have hrun := run_openOrdersFrom_browsed hcreds hbrowsed hlive 0 []
  rw [Nat.add_zero, hlength] at hrun
  exact ⟨visits, hvisits, hbrowsed, hrun⟩

/-- The first of `pages` that has none after it, number `n`, ends them. -/
theorem run_openOrders_stops (hsign : c.CanSign creds) (hcreds : st.credentials = some creds)
    (h : Streams w past pages) (hpages : ∀ i < n, (pages i).Continues)
    (hlast : ¬ (pages n).Continues) :
    ∃ visits : List Visit, visits.map Visit.page = (List.range (n + 1)).map pages ∧
      c.Browsed creds f w past none visits ∧ ∀ limit, n < limit →
        (c.openOrders f limit).run w ⟨st, past⟩ =
          (.ok (some ((List.range (n + 1)).flatMap fun i => (pages i).orders)),
            ⟨st, past ++ visits.flatMap Visit.events⟩) := by
  have hserves := h.serves (n + 1)
  rw [List.range_succ, List.map_append, List.map_singleton] at hserves
  have hfront : ∀ p ∈ (List.range n).map pages, p.Continues := by
    rw [List.forall_mem_map]
    exact fun i hi => hpages i (List.mem_range.1 hi)
  obtain ⟨visits, hvisits, hbrowsed, hrun⟩ :=
    run_openOrders_serves hsign hcreds hserves hfront hlast
  rw [← List.map_singleton, ← List.map_append, ← List.range_succ] at hvisits hrun
  rw [List.flatMap_map] at hrun
  refine ⟨visits, hvisits, hbrowsed, fun limit hlimit => hrun limit ?_⟩
  rwa [List.length_map, List.length_range]

theorem ends_of_error {e : Error} {after : Log State}
    (h : (c.openOrders f 1).run w log = (.error e, after)) : Ends c f w log := by
  refine ⟨1, ?_⟩
  rw [h]
  exact nofun

theorem ends_of_no_credentials (h : st.credentials = none) : Ends c f w ⟨st, past⟩ := by
  have hrun : (c.openOrders f 1).run w ⟨st, past⟩ =
      (.error (.auth .noCredentials), ⟨st, past⟩) := by
    rw [openOrders, openOrdersFrom, run_bind, page, run_fetchSigned_none h]
  exact ends_of_error hrun

theorem ends_of_not_canSign (hcreds : st.credentials = some creds) (hsign : ¬ c.CanSign creds) :
    Ends c f w ⟨st, past⟩ := by
  obtain ⟨fault, hfault⟩ := signedAt_of_not_canSign hsign
  have hrun : (c.openOrders f 1).run w ⟨st, past⟩ =
      (.error (.auth (.secret fault)), ⟨st, past ++ [.clockRead]⟩) := by
    rw [openOrders, openOrdersFrom, run_bind, page, run_fetchSigned_error hcreds (hfault _ _ _)]
  exact ends_of_error hrun

/-- A larger bound finds nothing else than a smaller `limit` that was not met. Whether the cursors
of the `pages` repeat or not, the search ends just where nothing can be asked for at all or some
page has none after it. It then has the orders up to the first such page, number `n`, for which it
asks last. Where each page `Continues`, it asks for any number of them, one after the other, and
returns nothing. -/
theorem openOrders_ends (c : Client) (f : Filter) (w : World) (st : State) (past : List Event)
    (pages : ℕ → Page) (h : Streams w past pages) :
    (∀ limit more, limit ≤ more → ((c.openOrders f limit).run w ⟨st, past⟩).1 ≠ .ok none →
      (c.openOrders f more).run w ⟨st, past⟩ = (c.openOrders f limit).run w ⟨st, past⟩) ∧
    (Ends c f w ⟨st, past⟩ ↔ ∀ creds, st.credentials = some creds → c.CanSign creds →
      ∃ n, ¬ (pages n).Continues) ∧
    ∀ creds, st.credentials = some creds → c.CanSign creds →
      (∀ n, (∀ i < n, (pages i).Continues) → ¬ (pages n).Continues →
        ∃ visits : List Visit, visits.map Visit.page = (List.range (n + 1)).map pages ∧
          c.Browsed creds f w past none visits ∧ ∀ limit, n < limit →
            (c.openOrders f limit).run w ⟨st, past⟩ =
              (.ok (some ((List.range (n + 1)).flatMap fun i => (pages i).orders)),
                ⟨st, past ++ visits.flatMap Visit.events⟩)) ∧
      ((∀ n, (pages n).Continues) → ∀ n,
        ∃ visits : List Visit, visits.map Visit.page = (List.range n).map pages ∧
          c.Browsed creds f w past none visits ∧ (c.openOrders f n).run w ⟨st, past⟩ =
            (.ok none, ⟨st, past ++ visits.flatMap Visit.events⟩)) := by
  classical
  refine ⟨fun _ _ hle hfound => run_openOrders_stable hle hfound, ⟨?_, ?_⟩,
    fun creds hcreds hsign => ⟨?_, ?_⟩⟩
  · rintro ⟨limit, hlimit⟩ creds hcreds hsign
    by_contra hnone
    push Not at hnone
    obtain ⟨visits, -, -, hrun⟩ :=
      run_openOrders_continues (n := limit) hsign hcreds h fun i _ => hnone i
    rw [hrun] at hlimit
    exact hlimit rfl
  · intro hends
    cases hcreds : st.credentials with
    | none => exact ends_of_no_credentials hcreds
    | some creds =>
      by_cases hsign : c.CanSign creds
      · have hlast := hends creds hcreds hsign
        obtain ⟨visits, -, -, hrun⟩ := run_openOrders_stops (f := f) hsign hcreds h
          (fun i hi => not_not.1 (Nat.find_min hlast hi)) (Nat.find_spec hlast)
        refine ⟨Nat.find hlast + 1, ?_⟩
        rw [hrun _ (Nat.lt_succ_self _)]
        exact nofun
      · exact ends_of_not_canSign hcreds hsign
  · exact fun n hpages hlast => run_openOrders_stops hsign hcreds h hpages hlast
  · exact fun hpages n => run_openOrders_continues hsign hcreds h fun i _ => hpages i

/-! ### A cursor that comes again -/

/-- The service that answers with these `pages`. -/
def streaming (pages : ℕ → Page) : World where
  respond past _ := .ok ⟨200, Bytes.ofString (pages (sent past).length).toJson.text⟩
  sign _ _ _ := .ok []
  clock _ := 1700000000
  random _ := 0

theorem streams_streaming (hpages : ∀ n, ∀ o ∈ (pages n).orders, o.Timed) :
    Streams (streaming pages) [] pages := by
  intro added r
  have hstatus : 200 ≤ 200 ∧ 200 < 300 := by decide
  exact decode_of_read hstatus (Page.survives (hpages _)).readBack.fromText

/-- The first page has its own cursor once, and then the last page comes. -/
theorem openOrders_ends_again :
    let pages (n : ℕ) : Page := if n < 2 then firstPage else lastPage
    Streams (streaming pages) [] pages ∧
      Ends trading {} (streaming pages) ⟨{ credentials := some keyed }, []⟩ := by
  intro pages
  have hstreams : Streams (streaming pages) [] pages := streams_streaming fun n => by
    dsimp only [pages]
    split_ifs <;> simp [firstPage, lastPage, OpenOrder.Timed]
  refine ⟨hstreams, (openOrders_ends trading {} (streaming pages) { credentials := some keyed } []
    pages hstreams).2.1.2 fun creds _ _ => ⟨2, ?_⟩⟩
  simp [pages, lastPage, Page.Continues]

/-- The first page always comes again: there is one cursor, and the search does not end. Each of
its requests is followed by another one. -/
theorem openOrders_firstPage_endless :
    let pages (_ : ℕ) : Page := firstPage
    Streams (streaming pages) [] pages ∧
      (Set.range fun n => (pages n).nextCursor).Finite ∧
      ¬ Ends trading {} (streaming pages) ⟨{ credentials := some keyed }, []⟩ ∧
      ∀ n, (sent ((trading.openOrders {} n).run (streaming pages)
        ⟨{ credentials := some keyed }, []⟩).2.events).length = n := by
  intro pages
  have hstreams : Streams (streaming pages) [] pages := streams_streaming fun n => by
    simp [pages, firstPage, OpenOrder.Timed]
  have hcontinues : firstPage.Continues := by simp [firstPage, Page.Continues]
  have hcreds : ({ credentials := some keyed } : State).credentials = some keyed := rfl
  have hrun (n : ℕ) := run_openOrders_continues (f := {}) (n := n) trading_canSign hcreds hstreams
    fun _ _ => hcontinues
  refine ⟨hstreams, Set.finite_range_const, ?_, ?_⟩
  · rintro ⟨limit, hlimit⟩
    obtain ⟨visits, -, -, hnone⟩ := hrun limit
    rw [hnone] at hlimit
    exact hlimit rfl
  · intro n
    obtain ⟨visits, hvisits, -, hnone⟩ := hrun n
    have hlength := congrArg List.length hvisits
    rw [hnone, List.nil_append, sent_flatMap_events, List.length_map]
    simpa using hlength

end TradingDesk.Exchange.Client
