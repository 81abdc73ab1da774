import Mathlib.Data.List.Induction
import TradingDesk.Market.Lookups
import TradingDesk.Proofs.Market.Cache
import TradingDesk.Proofs.Session

/-! Lookups that overlap: where what they return comes from, what they do to what is known, and
what a lookup may still find after another has returned. `Slot.Moves` says once what a step of a
lookup can do; `getElem?_act`, `getElem?_of_act` and `known?_act` say it of an act, and each run
result is an induction with one of them as its step. -/

namespace TradingDesk

/-! ### One lookup -/

namespace Stage

variable {ε α : Type} {s : Stage ε α}

theorem result?_eq_ok {a : α} : s.result? = some (.ok a) ↔ s = .served a ∨ s = .kept a := by
  cases s <;> simp [result?]

theorem result?_eq_error {e : ε} : s.result? = some (.error e) ↔ s = .failed e := by
  cases s <;> simp [result?]

/-- A lookup at stage `s` has found nothing and not returned. -/
def Pending (s : Stage ε α) : Prop := s = .fetching ∨ ∃ a, s = .storing a

/-- What a lookup at stage `s` has of its fetch, a value or an error, is `fetched`. -/
structure Heeds (s : Stage ε α) (fetched : Except ε α) : Prop where
  ok : ∀ a, s.fetched? = some a → fetched = .ok a
  error : ∀ e, s = .failed e → fetched = .error e

end Stage

namespace Slot

variable {σ ε α : Type} {s : Slot σ α} {key : String} {fetched : Except ε α} {state after : σ}
  {stage next : Stage ε α}

/-- What a step of a lookup of `key` in `state` can be: the stage before it, the stage after it, and
the state then. Its fetch, if it comes to one, ends with `fetched`. -/
inductive Moves (s : Slot σ α) (key : String) (fetched : Except ε α) (state : σ) :
    Stage ε α → Stage ε α → σ → Prop
  | served {a : α} (h : s.known? key state = some a) :
    Moves s key fetched state .asking (.served a) state
  | missed (h : s.known? key state = none) : Moves s key fetched state .asking .fetching state
  | fetched {a : α} (h : fetched = .ok a) : Moves s key fetched state .fetching (.storing a) state
  | failed {e : ε} (h : fetched = .error e) : Moves s key fetched state .fetching (.failed e) state
  | kept (a : α) : Moves s key fetched state (.storing a) (.kept a) (s.insert key a state)
  | idle {stage : Stage ε α} (h : stage.result?.isSome) :
    Moves s key fetched state stage stage state

theorem moves_advance (s : Slot σ α) (key : String) (fetched : Except ε α) (state : σ)
    (stage : Stage ε α) : s.Moves key fetched state stage (s.advance key fetched state stage).1
      (s.advance key fetched state stage).2 := by
  cases stage with
  | asking =>
    cases hknown : s.known? key state with
    | some a =>
      simp only [advance, hknown]
      exact .served hknown
    | none =>
      simp only [advance, hknown]
      exact .missed hknown
  | fetching =>
    cases fetched with
    | ok a => exact .fetched rfl
    | error e => exact .failed rfl
  | storing a => exact .kept a
  | served a => exact .idle rfl
  | kept a => exact .idle rfl
  | failed e => exact .idle rfl

namespace Moves

theorem eq_of_result? (h : s.Moves key fetched state stage next after)
    (hresult : stage.result?.isSome) : next = stage := by
  cases h with
  | idle => rfl
  | _ => simp [Stage.result?] at hresult

theorem fetched?_eq {a : α} (h : s.Moves key fetched state stage next after)
    (hfetched : stage.fetched? = some a) : next.fetched? = some a := by
  cases h with
  | kept => exact hfetched
  | idle => exact hfetched
  | _ => simp [Stage.fetched?] at hfetched

theorem heeds (h : s.Moves key fetched state stage next after) (hstage : stage.Heeds fetched) :
    next.Heeds fetched := by
  cases h with
  | served => exact ⟨nofun, nofun⟩
  | missed => exact ⟨nofun, nofun⟩
  | fetched hok => exact ⟨fun _ ha => Option.some.inj ha ▸ hok, nofun⟩
  | failed herror => exact ⟨nofun, fun _ he => Stage.failed.inj he ▸ herror⟩
  | kept => exact ⟨hstage.ok, nofun⟩
  | idle => exact hstage

theorem known?_of_served {a : α} (h : s.Moves key fetched state stage (.served a) after) :
    stage = .served a ∨ s.known? key state = some a := by
  cases h with
  | served hknown => exact .inr hknown
  | idle => exact .inl rfl

theorem eq_served {a : α} (h : s.Moves key fetched state .asking next after)
    (hknown : s.known? key state = some a) : next = .served a := by
  cases h with
  | served h => rw [Option.some.inj (h.symm.trans hknown)]
  | missed h => exact absurd (h.symm.trans hknown) nofun
  | idle h => cases h

theorem pending_or (h : s.Moves key fetched state stage next after) (hnext : next.Pending) :
    stage.Pending ∨ s.known? key state = none := by
  cases h with
  | missed hknown => exact .inr hknown
  | fetched => exact .inl (.inl rfl)
  | idle => exact .inl hnext
  | _ => obtain h | ⟨_, h⟩ := hnext <;> cases h

/-- The state is touched by one step alone, the one from `.storing a`, which keeps `a`. -/
theorem after_eq (h : s.Moves key fetched state stage next after) :
    after = state ∨ ∃ a, stage = .storing a ∧ after = s.insert key a state := by
  cases h with
  | kept a => exact .inr ⟨a, rfl, rfl⟩
  | _ => exact .inl rfl

end Moves

/-- A lookup that no other comes between ends as `serve` says, within three steps. -/
theorem serve_of_advance (s : Slot σ α) (key : String) (fetched : Except ε α) (state : σ) :
    let first := s.advance key fetched state .asking
    let second := s.advance key fetched first.2 first.1
    let third := s.advance key fetched second.2 second.1
    third.1.result? = some (s.serve key fetched state).1 ∧
      third.2 = (s.serve key fetched state).2 := by
  cases hknown : s.known? key state with
  | some a => simp only [advance, serve, hknown, Stage.result?, and_self]
  | none => cases fetched <;> simp only [advance, serve, hknown, Stage.result?, and_self]

/-- So does a session that looks something up, where `fetch` leaves the state to it. It fetches only
what is not known. -/
theorem run_lookup_serve (s : Slot σ α) (key : String) {fetch : Session σ α} {w : World}
    {log : Log σ} {fetched : Except Error α} {sent : List Event}
    (hfetch : fetch.run w log = (fetched, { log with events := log.events ++ sent })) :
    (s.lookup key fetch).run w log = ((s.serve key fetched log.state).1,
      { state := (s.serve key fetched log.state).2
        events := log.events ++ if (s.known? key log.state).isSome then [] else sent }) := by
  rw [lookup, Session.run_bind, Session.run_state]
  dsimp only
  cases hknown : s.known? key log.state with
  | some a => simp [serve, hknown]
  | none =>
    dsimp only
    rw [Session.run_bind, hfetch]
    simp only [serve, hknown]
    cases fetched with
    | ok a => rfl
    | error e => rfl

end Slot

namespace Traffic

variable {d : Traffic} {a : Act} {acts : List Act} {i j : Nat} {p q : Parameter}
  {token other : String} {fetched : Except Error p.Value} {stage next : Stage Error p.Value}
  {v : p.Value}

/-! ### One act -/

theorem act_advance (h : d.lookups[i]? = some ⟨p, token, fetched, stage⟩) :
    d.act (.advance i) = ⟨(p.slot.advance token fetched d.cache stage).2, d.lookups.set i
      ⟨p, token, fetched, (p.slot.advance token fetched d.cache stage).1⟩⟩ := by
  simp only [act, h, Lookup.advance]

theorem act_advance_of_none (h : d.lookups[i]? = none) : d.act (.advance i) = d := by
  simp only [act, h]

theorem length_advance (d : Traffic) (i : Nat) :
    (d.act (.advance i)).lookups.length = d.lookups.length := by
  cases h : d.lookups[i]? with
  | none => rw [act_advance_of_none h]
  | some l => rw [act_advance h, List.length_set]

theorem getElem?_advance (h : d.lookups[i]? = some ⟨p, token, fetched, stage⟩) :
    (d.act (.advance i)).lookups[i]? =
      some ⟨p, token, fetched, (p.slot.advance token fetched d.cache stage).1⟩ := by
  rw [act_advance h]
  exact List.getElem?_set_self (List.getElem?_eq_some_iff.mp h).1

/-- Under the act `a`, lookup `i` stays at its stage or makes one step. -/
theorem getElem?_act (a : Act) (h : d.lookups[i]? = some ⟨p, token, fetched, stage⟩) :
    ∃ next, (d.act a).lookups[i]? = some ⟨p, token, fetched, next⟩ ∧ (next = stage ∨
      p.slot.Moves token fetched d.cache stage next (d.act a).cache) := by
  cases a with
  | start =>
    have hi : i < d.lookups.length := (List.getElem?_eq_some_iff.mp h).1
    exact ⟨stage, (List.getElem?_append_left hi).trans h, .inl rfl⟩
  | insert => exact ⟨stage, h, .inl rfl⟩
  | advance j =>
    by_cases hij : j = i
    · subst hij
      refine ⟨_, getElem?_advance h, .inr ?_⟩
      rw [act_advance h]
      exact p.slot.moves_advance token fetched d.cache stage
    · refine ⟨stage, ?_, .inl rfl⟩
      cases hj : d.lookups[j]? with
      | none => rwa [act_advance_of_none hj]
      | some l =>
        rw [act_advance hj]
        exact (List.getElem?_set_ne hij).trans h

/-- A lookup that is there after the act `a` has just begun, or was there before and stayed at its
stage or made one step. -/
theorem getElem?_of_act (h : (d.act a).lookups[i]? = some ⟨p, token, fetched, next⟩) :
    i = d.lookups.length ∧ next = .asking ∨
    ∃ stage, d.lookups[i]? = some ⟨p, token, fetched, stage⟩ ∧ (next = stage ∨
      p.slot.Moves token fetched d.cache stage next (d.act a).cache) := by
  cases hi : d.lookups[i]? with
  | some l =>
    obtain ⟨q, key, answer, stage⟩ := l
    obtain ⟨after, hafter, hmove⟩ := getElem?_act a hi
    obtain ⟨⟩ := hafter.symm.trans h
    exact .inr ⟨stage, rfl, hmove⟩
  | none =>
    have hle : d.lookups.length ≤ i := List.getElem?_eq_none_iff.mp hi
    have hlt : i < (d.act a).lookups.length := (List.getElem?_eq_some_iff.mp h).1
    cases a with
    | start q key answer =>
      simp only [act, List.length_append, List.length_singleton] at hlt
      obtain rfl : i = d.lookups.length := by omega
      simp only [act, List.getElem?_concat_length] at h
      obtain ⟨⟩ := h
      exact .inl ⟨rfl, rfl⟩
    | insert => exact absurd hlt (Nat.not_lt.mpr hle)
    | advance j => exact absurd (length_advance d j ▸ hlt) (Nat.not_lt.mpr hle)

/-- The act `a` leaves the cache as it is, or it inserts one value, which is given with `a` or is
what a lookup has fetched. -/
theorem cache_act (d : Traffic) (a : Act) : (d.act a).cache = d.cache ∨
    ∃ p token v, (d.act a).cache = p.slot.insert token v d.cache ∧ (a = .insert p token v ∨
      ∃ i fetched, a = .advance i ∧ d.lookups[i]? = some ⟨p, token, fetched, .storing v⟩) := by
  cases a with
  | start => exact .inl rfl
  | insert p token v => exact .inr ⟨p, token, v, rfl, .inl rfl⟩
  | advance i =>
    cases hi : d.lookups[i]? with
    | none => exact .inl (congrArg cache (act_advance_of_none hi))
    | some l =>
      obtain ⟨p, token, fetched, stage⟩ := l
      rw [act_advance hi]
      obtain hafter | ⟨v, rfl, hafter⟩ :=
        (p.slot.moves_advance token fetched d.cache stage).after_eq
      · exact .inl hafter
      · exact .inr ⟨p, token, v, hafter, .inr ⟨i, fetched, rfl, hi⟩⟩

/-- What is known of `q` for `other` stays as it was, unless `a` inserts it anew or makes a lookup
keep what it fetched. -/
theorem known?_act (d : Traffic) (a : Act) (q : Parameter) (other : String) :
    q.slot.known? other (d.act a).cache = q.slot.known? other d.cache ∨
    ∃ v, q.slot.known? other (d.act a).cache = some v ∧ (a = .insert q other v ∨
      ∃ i fetched, a = .advance i ∧ d.lookups[i]? = some ⟨q, other, fetched, .storing v⟩) := by
  obtain hcache | ⟨p, token, v, hcache, hact⟩ := cache_act d a
  · exact .inl (congrArg (q.slot.known? other) hcache)
  · rw [hcache]
    by_cases h : q = p ∧ other = token
    · obtain ⟨rfl, rfl⟩ := h
      exact .inr ⟨v, q.known?_insert_self other v d.cache, hact⟩
    · exact .inl (Parameter.known?_insert_of_ne h v d.cache)

/-! ### Where values come from -/

/-- Lookup number `i` asks for `p` of `token`, and has returned `r`. -/
def Returned (d : Traffic) (i : Nat) (p : Parameter) (token : String)
    (r : Except Error p.Value) : Prop :=
  ∃ fetched stage, d.lookups[i]? = some ⟨p, token, fetched, stage⟩ ∧ stage.result? = some r

theorem run_alone (d : Traffic) (p : Parameter) (token : String)
    (fetched : Except Error p.Value) :
    let i := d.lookups.length
    let e := run [.start p token fetched, .advance i, .advance i, .advance i] d
    e.Returned i p token (p.slot.serve token fetched d.cache).1 ∧
      e.cache = (p.slot.serve token fetched d.cache).2 := by
  intro i e
  have hact (c : MarketCache) (stage : Stage Error p.Value) :
      act ⟨c, d.lookups ++ [⟨p, token, fetched, stage⟩]⟩ (.advance i) =
        ⟨(p.slot.advance token fetched c stage).2,
          d.lookups ++ [⟨p, token, fetched, (p.slot.advance token fetched c stage).1⟩]⟩ := by
    rw [act_advance List.getElem?_concat_length]
    simp [i]
  have hstart : d.act (.start p token fetched) =
      ⟨d.cache, d.lookups ++ [⟨p, token, fetched, .asking⟩]⟩ := rfl
  obtain ⟨hresult, hcache⟩ := p.slot.serve_of_advance token fetched d.cache
  simp only [e, run, List.foldl_cons, List.foldl_nil, hstart, hact]
  exact ⟨⟨_, _, List.getElem?_concat_length, hresult⟩, hcache⟩

/-- Lookup number `i` asks for `p` of `token`, and its fetch has ended with `v`. -/
def Fetched (d : Traffic) (i : Nat) (p : Parameter) (token : String) (v : p.Value) : Prop :=
  ∃ stage, d.lookups[i]? = some ⟨p, token, .ok v, stage⟩ ∧ stage.fetched? = some v

/-- The `acts` insert `v` for `p` of `token`, or in their course a lookup of the same has fetched
it. -/
def Produced (acts : List Act) (p : Parameter) (token : String) (v : p.Value) : Prop :=
  .insert p token v ∈ acts ∨ ∃ i, (run acts {}).Fetched i p token v

theorem run_concat (acts : List Act) (a : Act) (d : Traffic) :
    run (acts ++ [a]) d = (run acts d).act a := by
  simp only [run, List.foldl_append, List.foldl_cons, List.foldl_nil]

theorem Fetched.act (a : Act) (h : d.Fetched i p token v) : (d.act a).Fetched i p token v := by
  obtain ⟨stage, hi, hstage⟩ := h
  obtain ⟨next, hnext, rfl | hmove⟩ := getElem?_act a hi
  · exact ⟨next, hnext, hstage⟩
  · exact ⟨next, hnext, hmove.fetched?_eq hstage⟩

theorem Produced.concat (a : Act) (h : Produced acts p token v) :
    Produced (acts ++ [a]) p token v := by
  rcases h with h | ⟨i, h⟩
  · exact .inl (List.mem_append_left _ h)
  · exact .inr ⟨i, (run_concat acts a {}).symm ▸ h.act a⟩

/-- What the lookups of `d` have of their fetches is what these ended with. -/
def Heeds (d : Traffic) : Prop := ∀ (i : Nat) p token fetched stage,
  d.lookups[i]? = some ⟨p, token, fetched, stage⟩ → stage.Heeds fetched

theorem Heeds.act (h : d.Heeds) (a : Act) : (d.act a).Heeds := by
  intro i p token fetched next hnext
  obtain ⟨-, rfl⟩ | ⟨stage, hstage, rfl | hmove⟩ := getElem?_of_act hnext
  · exact ⟨nofun, nofun⟩
  · exact h _ _ _ _ _ hstage
  · exact hmove.heeds (h _ _ _ _ _ hstage)

/-- All that is known after the `acts`, and all that lookups were served, was `Produced`. -/
structure Honest (acts : List Act) : Prop where
  heeds : (run acts {}).Heeds
  known : ∀ p token v, p.slot.known? token (run acts {}).cache = some v → Produced acts p token v
  served : ∀ (i : Nat) p token fetched v,
    (run acts {}).lookups[i]? = some ⟨p, token, fetched, .served v⟩ → Produced acts p token v

theorem honest_nil : Honest [] where
  heeds _ _ _ _ _ h := by cases h
  known p _ _ h := by cases p <;> cases h
  served _ _ _ _ _ h := by cases h

theorem Honest.concat (h : Honest acts) (a : Act) : Honest (acts ++ [a]) where
  heeds := (run_concat acts a {}).symm ▸ h.heeds.act a
  known p token v hv := by
    rw [run_concat] at hv
    obtain hsame | ⟨u, hu, hact⟩ := known?_act (run acts {}) a p token
    · exact (h.known p token v (hsame ▸ hv)).concat a
    · obtain rfl : u = v := Option.some.inj (hu.symm.trans hv)
      obtain rfl | ⟨i, fetched, rfl, hi⟩ := hact
      · exact .inl (List.mem_append_right _ (List.mem_singleton_self _))
      · obtain rfl := (h.heeds _ _ _ _ _ hi).ok u rfl
        exact Produced.concat _ (.inr ⟨i, _, hi, rfl⟩)
  served i p token fetched v hv := by
    rw [run_concat] at hv
    obtain ⟨-, hasking⟩ | ⟨stage, hstage, rfl | hmove⟩ := getElem?_of_act hv
    · cases hasking
    · exact (h.served _ _ _ _ _ hstage).concat a
    · obtain rfl | hknown := hmove.known?_of_served
      · exact (h.served _ _ _ _ _ hstage).concat a
      · exact (h.known _ _ _ hknown).concat a

theorem honest (acts : List Act) : Honest acts := by
  induction acts using List.reverseRecOn with
  | nil => exact honest_nil
  | append_singleton acts a ih => exact ih.concat a

theorem Honest.returned (h : Honest acts) {v : p.Value}
    (hv : (run acts {}).Returned i p token (.ok v)) : Produced acts p token v := by
  obtain ⟨fetched, stage, hi, hstage⟩ := hv
  obtain rfl | rfl := Stage.result?_eq_ok.mp hstage
  · exact h.served _ _ _ _ _ hi
  · obtain rfl := (h.heeds _ _ _ _ _ hi).ok v rfl
    exact .inr ⟨i, _, hi, rfl⟩

/-! ### What stays -/

theorem isSome_known?_act (a : Act) (h : (p.slot.known? token d.cache).isSome) :
    (p.slot.known? token (d.act a).cache).isSome := by
  obtain hsame | ⟨v, hv, -⟩ := known?_act d a p token
  · rwa [hsame]
  · rw [hv, Option.isSome_some]

theorem isSome_known?_run (more : List Act) (h : (p.slot.known? token d.cache).isSome) :
    (p.slot.known? token (run more d).cache).isSome := by
  induction more generalizing d with
  | nil => exact h
  | cons a more ih => exact ih (isSome_known?_act a h)

/-- Lookup `i`, once it has ended, makes no step. -/
theorem ended_act (a : Act) (h : d.lookups[i]? = some ⟨p, token, fetched, stage⟩)
    (hended : stage.result?.isSome) :
    (d.act a).lookups[i]? = some ⟨p, token, fetched, stage⟩ := by
  obtain ⟨next, hnext, rfl | hmove⟩ := getElem?_act a h
  · exact hnext
  · rwa [hmove.eq_of_result? hended] at hnext

theorem ended_run (more : List Act) (h : d.lookups[i]? = some ⟨p, token, fetched, stage⟩)
    (hended : stage.result?.isSome) :
    (run more d).lookups[i]? = some ⟨p, token, fetched, stage⟩ := by
  induction more generalizing d with
  | nil => exact h
  | cons a more ih => exact ih (ended_act a h hended)

theorem known?_act_of_ne (h : d.lookups[i]? = some ⟨p, token, fetched, stage⟩)
    (hne : ¬ (q = p ∧ other = token)) :
    q.slot.known? other (d.act (.advance i)).cache = q.slot.known? other d.cache := by
  rw [act_advance h]
  obtain hafter | ⟨v, -, hafter⟩ := (p.slot.moves_advance token fetched d.cache stage).after_eq
  · rw [hafter]
  · rw [hafter, Parameter.known?_insert_of_ne hne]

/-- Lookup `i`, which asks for what is known, is served `v`, once and for all. -/
theorem served_of_known {v : p.Value} (h : d.lookups[i]? = some ⟨p, token, fetched, .asking⟩)
    (hknown : p.slot.known? token d.cache = some v) :
    (d.act (.advance i)).cache = d.cache ∧ ∀ more,
      (run more (d.act (.advance i))).lookups[i]? = some ⟨p, token, fetched, .served v⟩ := by
  have hstep : p.slot.advance token fetched d.cache .asking = (.served v, d.cache) := by
    simp only [Slot.advance, hknown]
  constructor
  · rw [act_advance h, hstep]
  · intro more
    have hserved := getElem?_advance h
    rw [hstep] at hserved
    exact ended_run more hserved rfl

/-- A fetch that fails with `e` ends lookup `i` with it, and nothing comes to be known of it. -/
theorem failed_of_fetching {e : Error}
    (h : d.lookups[i]? = some ⟨p, token, .error e, .fetching⟩) :
    (d.act (.advance i)).cache = d.cache ∧ ∀ more,
      (run more (d.act (.advance i))).lookups[i]? = some ⟨p, token, .error e, .failed e⟩ := by
  constructor
  · rw [act_advance h]
    rfl
  · intro more
    exact ended_run more (getElem?_advance h) rfl

/-- The value `v` that lookup `i` fetched is known from the step on that returns it. -/
theorem kept_of_storing {v : p.Value}
    (h : d.lookups[i]? = some ⟨p, token, fetched, .storing v⟩) :
    p.slot.known? token (d.act (.advance i)).cache = some v ∧ ∀ more,
      (run more (d.act (.advance i))).lookups[i]? = some ⟨p, token, fetched, .kept v⟩ := by
  constructor
  · rw [act_advance h]
    exact p.known?_insert_self token v d.cache
  · intro more
    exact ended_run more (getElem?_advance h) rfl

/-- What lookups keep to that come to the state `d` by these acts, wherever they go on from it. -/
structure Sound (acts : List Act) (d : Traffic) : Prop where
  known : ∀ (p : Parameter) token v, p.slot.known? token d.cache = some v → Produced acts p token v
  returned : ∀ i p token v, d.Returned i p token (.ok v) → Produced acts p token v
  present : ∀ (p : Parameter) token, (p.slot.known? token d.cache).isSome →
    ∀ more, (p.slot.known? token (run more d).cache).isSome
  /-- What is there is returned, and not fetched. -/
  served : ∀ (i : Nat) p token fetched v,
    d.lookups[i]? = some ⟨p, token, fetched, .asking⟩ → p.slot.known? token d.cache = some v →
      (d.act (.advance i)).cache = d.cache ∧ ∀ more,
        (run more (d.act (.advance i))).lookups[i]? = some ⟨p, token, fetched, .served v⟩
  failed : ∀ (i : Nat) p token e, d.lookups[i]? = some ⟨p, token, .error e, .fetching⟩ →
    (d.act (.advance i)).cache = d.cache ∧ ∀ more,
      (run more (d.act (.advance i))).lookups[i]? = some ⟨p, token, .error e, .failed e⟩
  kept : ∀ (i : Nat) p token fetched v, d.lookups[i]? = some ⟨p, token, fetched, .storing v⟩ →
    p.slot.known? token (d.act (.advance i)).cache = some v ∧ ∀ more,
      (run more (d.act (.advance i))).lookups[i]? = some ⟨p, token, fetched, .kept v⟩
  /-- No other error is returned. -/
  error : ∀ i p token e, d.Returned i p token (.error e) →
    d.lookups[i]? = some ⟨p, token, .error e, .failed e⟩
  /-- Nothing else is touched. -/
  own : ∀ (i : Nat) p token fetched stage, d.lookups[i]? = some ⟨p, token, fetched, stage⟩ →
    ∀ q other, ¬ (q = p ∧ other = token) →
      q.slot.known? other (d.act (.advance i)).cache = q.slot.known? other d.cache
  agreed : ∀ p token v, (∀ u, Produced acts p token u → u = v) →
    ∀ i u, d.Returned i p token (.ok u) → u = v

theorem run_sound (acts : List Act) : Sound acts (run acts {}) where
  known := (honest acts).known
  returned _ _ _ _ := (honest acts).returned
  present _ _ h more := isSome_known?_run more h
  served _ _ _ _ _ := served_of_known
  failed _ _ _ _ := failed_of_fetching
  kept _ _ _ _ _ := kept_of_storing
  error i p token e h := by
    obtain ⟨fetched, stage, hi, hstage⟩ := h
    obtain rfl := Stage.result?_eq_error.mp hstage
    obtain rfl := ((honest acts).heeds _ _ _ _ _ hi).error e rfl
    exact hi
  own _ _ _ _ _ h _ _ := known?_act_of_ne h
  agreed p token v h i u hu := h u ((honest acts).returned hu)

/-! ### What is found after a lookup has returned -/

theorem known?_of_returned {c after : MarketCache} {v : p.Value}
    (h : p.slot.Moves token fetched c stage next after)
    (hstage : stage.result? ≠ some (.ok v)) (hnext : next.result? = some (.ok v)) :
    p.slot.known? token after = some v := by
  cases h with
  | served hknown => rwa [← Except.ok.inj (Option.some.inj hnext)]
  | kept u =>
    rw [← Except.ok.inj (Option.some.inj hnext)]
    exact p.known?_insert_self token u c
  | idle => exact absurd hnext hstage
  | _ => cases hnext

/-- What may be known in `e` of what `v` was returned for in `d`: `v`, or else what a lookup
keeps that was pending then. -/
def Found (d e : Traffic) (p : Parameter) (token : String) (v u : p.Value) : Prop :=
  u = v ∨ ∃ (k : Nat) (stage : Stage Error p.Value),
    d.lookups[k]? = some ⟨p, token, .ok u, stage⟩ ∧ stage.Pending ∧
      e.lookups[k]? = some ⟨p, token, .ok u, .kept u⟩

/-- From the state `d` on, where `v` was returned, no lookup has begun to fetch. -/
structure Settled (d e : Traffic) (p : Parameter) (token : String) (v : p.Value) : Prop where
  heeds : e.Heeds
  known : ∃ u, p.slot.known? token e.cache = some u ∧ Found d e p token v u
  pending : ∀ (k : Nat) fetched stage, e.lookups[k]? = some ⟨p, token, fetched, stage⟩ →
    stage.Pending → ∃ before, d.lookups[k]? = some ⟨p, token, fetched, before⟩ ∧ before.Pending
  later : ∀ (j : Nat) fetched stage, d.lookups.length ≤ j →
    e.lookups[j]? = some ⟨p, token, fetched, stage⟩ →
      stage = .asking ∨ ∃ u, stage = .served u ∧ Found d e p token v u

variable {e : Traffic} {u v : p.Value}

theorem Settled.refl (h : d.Heeds) (hknown : p.slot.known? token d.cache = some v) :
    Settled d d p token v where
  heeds := h
  known := ⟨v, hknown, .inl rfl⟩
  pending _ _ stage hk hstage := ⟨stage, hk, hstage⟩
  later _ _ _ hle hj := absurd (List.getElem?_eq_some_iff.mp hj).1 (Nat.not_lt.mpr hle)

theorem Found.act (a : Act) (h : Found d e p token v u) : Found d (e.act a) p token v u := by
  obtain rfl | ⟨k, stage, hk, hstage, hkept⟩ := h
  · exact .inl rfl
  · exact .inr ⟨k, stage, hk, hstage, ended_act a hkept rfl⟩

theorem Settled.act (h : Settled d e p token v) (a : Act) (ha : ∀ u, a ≠ .insert p token u) :
    Settled d (e.act a) p token v := by
  obtain ⟨w, hw, hfound⟩ := h.known
  refine ⟨h.heeds.act a, ?_, ?_, ?_⟩
  · obtain hsame | ⟨u, hu, hact⟩ := known?_act e a p token
    · exact ⟨w, hsame.trans hw, hfound.act a⟩
    · obtain rfl | ⟨k, fetched, rfl, hk⟩ := hact
      · exact absurd rfl (ha u)
      · -- A pending lookup keeps what it fetched: it was pending when `v` was returned.
        obtain rfl := (h.heeds _ _ _ _ _ hk).ok u rfl
        obtain ⟨before, hbefore, hpending⟩ := h.pending _ _ _ hk (.inr ⟨u, rfl⟩)
        exact ⟨u, hu, .inr ⟨k, before, hbefore, hpending, getElem?_advance hk⟩⟩
  · intro k fetched next hnext hpending
    obtain ⟨-, rfl⟩ | ⟨stage, hstage, rfl | hmove⟩ := getElem?_of_act hnext
    · obtain h | ⟨_, h⟩ := hpending <;> cases h
    · exact h.pending _ _ _ hstage hpending
    · obtain hp | hnone := hmove.pending_or hpending
      · exact h.pending _ _ _ hstage hp
      · exact absurd (hnone.symm.trans hw) nofun
  · intro j fetched next hle hnext
    obtain ⟨-, rfl⟩ | ⟨stage, hstage, hmove⟩ := getElem?_of_act hnext
    · exact .inl rfl
    · obtain rfl | ⟨u, rfl, hu⟩ := h.later _ _ _ hle hstage
      · obtain rfl | hmove := hmove
        · exact .inl rfl
        · exact .inr ⟨w, hmove.eq_served hw, hfound.act a⟩
      · obtain rfl | hmove := hmove
        · exact .inr ⟨u, rfl, hu.act a⟩
        · exact .inr ⟨u, hmove.eq_of_result? rfl, hu.act a⟩

theorem Settled.run {more : List Act} (h : Settled d e p token v)
    (hmore : ∀ u, .insert p token u ∉ more) : Settled d (run more e) p token v := by
  induction more generalizing e with
  | nil => exact h
  | cons a more ih =>
    simp only [List.mem_cons, not_or] at hmore
    exact ih (h.act a fun u => Ne.symm (hmore u).1) fun u => (hmore u).2

/-- Once a lookup has returned `v`, and as long as nothing is inserted, those that begin later
return without a fetch what is found then. That is `v` where no other lookup was pending. -/
theorem returned_later (acts more : List Act) (i : Nat)
    (hopen : ¬ (run acts {}).Returned i p token (.ok v))
    (hreturned : ((run acts {}).act (.advance i)).Returned i p token (.ok v))
    (hmore : ∀ u, .insert p token u ∉ more) :
    let d := (run acts {}).act (.advance i)
    let e := run more d
    (∃ u, p.slot.known? token e.cache = some u ∧ Found d e p token v u) ∧
    ∀ (j : Nat) fetched stage, d.lookups.length ≤ j →
      e.lookups[j]? = some ⟨p, token, fetched, stage⟩ →
        stage = .asking ∨ ∃ u, stage = .served u ∧ Found d e p token v u := by
  intro d e
  obtain ⟨fetched, next, hnext, hresult⟩ := hreturned
  have hknown : p.slot.known? token d.cache = some v := by
    obtain ⟨-, rfl⟩ | ⟨stage, hstage, hmove⟩ := getElem?_of_act hnext
    · cases hresult
    · have hstill : stage.result? ≠ some (.ok v) := fun h => hopen ⟨fetched, stage, hstage, h⟩
      obtain rfl | hmove := hmove
      · exact absurd hresult hstill
      · exact known?_of_returned hmove hstill hresult
  have hsettled : Settled d e p token v :=
    (Settled.refl ((honest acts).heeds.act (.advance i)) hknown).run hmore
  exact ⟨hsettled.known, hsettled.later⟩

/-! Two lookups have found nothing. One keeps the fee rate it fetched, and returns it; then the
other keeps another. -/

def twoMisses : List Act :=
  [.start .feeRate "1" (.ok 5), .start .feeRate "1" (.ok 7), .advance 0, .advance 1, .advance 0]

def lateStore : List Act :=
  [.advance 1, .advance 1, .start .feeRate "1" (.ok 9), .advance 2]

theorem returned_later_lateStore :
    ¬ (run twoMisses {}).Returned 0 .feeRate "1" (.ok 5) ∧
    ((run twoMisses {}).act (.advance 0)).Returned 0 .feeRate "1" (.ok 5) ∧
    (∀ u, .insert .feeRate "1" u ∉ lateStore) ∧
    ∃ u, Found ((run twoMisses {}).act (.advance 0))
      (run lateStore ((run twoMisses {}).act (.advance 0))) .feeRate "1" 5 u ∧ u ≠ 5 := by
  have hopen : ¬ (run twoMisses {}).Returned 0 .feeRate "1" (.ok 5) := by
    rintro ⟨fetched, stage, h, hstage⟩
    cases h
    cases hstage
  have hreturned : ((run twoMisses {}).act (.advance 0)).Returned 0 .feeRate "1" (.ok 5) :=
    ⟨_, _, rfl, rfl⟩
  have hmore : ∀ u, .insert .feeRate "1" u ∉ lateStore := by simp [lateStore]
  refine ⟨hopen, hreturned, hmore, ?_⟩
  obtain ⟨-, hlater⟩ := returned_later twoMisses lateStore 0 hopen hreturned hmore
  obtain h | ⟨u, hu, hfound⟩ := hlater 2 (.ok 9) (.served 7) (by decide) rfl
  · cases h
  · cases hu
    exact ⟨7, hfound, by decide⟩

theorem lateStore_replaces :
    (∀ p token v, .insert p token v ∉ twoMisses ++ .advance 0 :: lateStore) ∧
    (run (twoMisses ++ [.advance 0]) {}).lookups.length = 2 ∧
    (run (twoMisses ++ [.advance 0]) {}).Returned 0 .feeRate "1" (.ok 5) ∧
    (run (twoMisses ++ .advance 0 :: lateStore) {}).Returned 1 .feeRate "1" (.ok 7) ∧
    (run (twoMisses ++ .advance 0 :: lateStore) {}).Returned 2 .feeRate "1" (.ok 7) :=
  ⟨by simp [twoMisses, lateStore], rfl, ⟨_, _, rfl, rfl⟩, ⟨_, _, rfl, rfl⟩, ⟨_, _, rfl, rfl⟩⟩

end Traffic
end TradingDesk
